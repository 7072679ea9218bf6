import Ndns.Clients.IterativeQueryController
import Ndns.Daemon.Database

/-!
# The Certificate Fetcher of the Validator

A certificate is fetched in rounds: an iterative query for the NS record of its domain, and then an
Interest for the certificate, with or without a forwarding hint.  A Nack and a timeout of that
Interest start the next round as long as retries are left.  The callbacks are translated as one
handler of the events a request can meet, and every call on the validation state is kept in order.

The iterative query is left to the environment, which reports one of its two callbacks.
-/

namespace Ndns.Validator

open Ndn Clients Daemon

/-! ## Requests -/

/-- `security::CertificateRequest`; the number of retries is signed. -/
structure CertificateRequest where
  interest : Interest
  nRetriesLeft : ℤ
deriving DecidableEq

/-- The codes of `security::ValidationError` that the fetcher uses. -/
inductive ValidationErrorCode where
  | malformedCert
  | cannotRetrieveCert
deriving DecidableEq

/-- A validation error: the code, the text, the name in it, and the text of the exception that is
quoted, if there is one. -/
structure ValidationError where
  code : ValidationErrorCode
  text : String
  subject : Name
  what : Option String
deriving DecidableEq

/-- The calls on the validation state of a request. -/
inductive StateCall (Certificate : Type) where
  | setTag
  | removeTag
  | continueValidation (cert : Certificate)
  | fail (error : ValidationError)

/-- The calls that end a request. -/
def StateCall.Ends {Certificate : Type} : StateCall Certificate → Prop
  | .continueValidation _ | .fail _ => True
  | .setTag | .removeTag => False

/-- What a request waits for. -/
inductive Waiting where
  | query (controller : IterativeQueryController)
  | certificate (interest : Interest)

/-- A request in progress, with the certificate Interests and the calls on its state so far. -/
structure Fetching (Certificate : Type) where
  certRequest : CertificateRequest
  waiting : Option Waiting
  sent : List Interest
  calls : List (StateCall Certificate)

/-- A request that has not been worked on. -/
def Fetching.make {Certificate : Type} (certRequest : CertificateRequest) : Fetching Certificate :=
  ⟨certRequest, none, [], []⟩

/-- Report to the validation state and wait for nothing any more. -/
def Fetching.finish {Certificate : Type} (fetching : Fetching Certificate)
    (calls : List (StateCall Certificate)) : Fetching Certificate :=
  { fetching with waiting := none, calls := fetching.calls ++ calls }

/-- `--nRetriesLeft`, after an answer that is not the certificate. -/
def Fetching.loseRetry {Certificate : Type} (fetching : Fetching Certificate) :
    Fetching Certificate :=
  { fetching with
    certRequest :=
      { fetching.certRequest with nRetriesLeft := fetching.certRequest.nRetriesLeft - 1 }
    waiting := none }

/-- What can happen to a request: the two callbacks of the iterative query, and the three of the
certificate Interest.  `cached` is the certificate that the base class has at that moment in its
cache of unverified certificates. -/
inductive FetchEvent (Certificate : Type) where
  | nsSuccess (data : Data)
  | nsFail (errMsg : String)
  | data (packet : Data)
  | nack (cached : Option Certificate)
  | timeout (cached : Option Certificate)

/-- `CertificateFetcherNdnsCert`. -/
structure CertificateFetcherNdnsCert where
  startComponentIndex : ℕ

namespace CertificateFetcherNdnsCert

/-! ## Expressing Interests -/

/-- `DEFAULT_INTEREST_LIFETIME`, in milliseconds. -/
def defaultInterestLifetime : ℕ := 4000

/-- `calculateDomain`: the part of the name before the first NDNS. -/
def calculateDomain (key : Name) : Except Fault Name :=
  if Label.ndnsIterativeQuery ∈ key then
    .ok (key.takeWhile fun component ↦ component ≠ Label.ndnsIterativeQuery)
  else .error (.runtimeError "is not a legal NDNS certificate name")

variable {Certificate : Type}

/-- Express the certificate Interest of a round. -/
def expressInterest (fetching : Fetching Certificate) (forwardingHint : List Name) :
    Fetching Certificate :=
  let interest : Interest :=
    { name := fetching.certRequest.interest.name ++ [Label.certRrType]
      canBePrefix := true
      lifetime := defaultInterestLifetime
      forwardingHint := forwardingHint }
  { fetching with waiting := some (.certificate interest), sent := fetching.sent ++ [interest] }

/-- `nsSuccessCallback`; only a LINK gives a forwarding hint, and decoding it can throw. -/
def nsSuccessCallback (fetching : Fetching Certificate) (data : Data) :
    Except Fault (Fetching Certificate) :=
  if NdnsContentType.ofCode data.contentType = .link then
    match linkDelegations data with
    | none => .error .tlvError
    | some delegations => .ok (expressInterest fetching delegations)
  else .ok (expressInterest fetching [])

/-- `nsFailCallback`. -/
def nsFailCallback (fetching : Fetching Certificate) : Fetching Certificate :=
  expressInterest fetching []

/-- `doFetch`.  A domain as long as the start index has no NS record. -/
def doFetch (fetcher : CertificateFetcherNdnsCert) (fetching : Fetching Certificate) :
    Except Fault (Fetching Certificate) :=
  match calculateDomain fetching.certRequest.interest.name with
  | .error fault => .error fault
  | .ok domain =>
      if domain.length = fetcher.startComponentIndex then .ok (nsFailCallback fetching)
      else
        .ok { fetching with
          waiting := some (.query (.make domain Label.nsRrType
            fetching.certRequest.interest.lifetime fetcher.startComponentIndex))
          -- the callbacks of a query that has ended by now do not touch the state
          calls := fetching.calls ++ [.setTag] }

/-- `CertificateFetcher::fetch` of the base class. -/
def fetch (fetcher : CertificateFetcherNdnsCert) (cached : Option Certificate)
    (fetching : Fetching Certificate) : Except Fault (Fetching Certificate) :=
  match cached with
  | some cert => .ok (fetching.finish [.continueValidation cert])
  | none => fetcher.doFetch fetching

/-! ## The answers to a certificate Interest -/

/-- `dataCallback`; `parse` is the constructor of the certificate, which can throw. -/
def dataCallback (parse : Data → Except String Certificate) (fetching : Fetching Certificate)
    (packet : Data) : Fetching Certificate :=
  match parse packet with
  | .ok cert => fetching.finish [.removeTag, .continueValidation cert]
  | .error what =>
      fetching.finish [.removeTag,
        .fail ⟨.malformedCert, "Fetched a malformed certificate", packet.name, some what⟩]

/-- A lost Interest: start the next round when a retry is left. -/
def retry (fetcher : CertificateFetcherNdnsCert) (cached : Option Certificate)
    (fetching : Fetching Certificate) : Except Fault (Fetching Certificate) :=
  if 0 ≤ fetching.loseRetry.certRequest.nRetriesLeft then fetcher.fetch cached fetching.loseRetry
  else
    .ok (fetching.loseRetry.finish [.removeTag, .fail ⟨.cannotRetrieveCert,
      "Cannot fetch certificate after all retries", fetching.certRequest.interest.name, none⟩])

/-- `nackCallback`. -/
def nackCallback (fetcher : CertificateFetcherNdnsCert) (cached : Option Certificate)
    (fetching : Fetching Certificate) : Except Fault (Fetching Certificate) :=
  fetcher.retry cached fetching

/-- `timeoutCallback`. -/
def timeoutCallback (fetcher : CertificateFetcherNdnsCert) (cached : Option Certificate)
    (fetching : Fetching Certificate) : Except Fault (Fetching Certificate) :=
  fetcher.retry cached fetching

/-- The callback of an event. -/
def handle (fetcher : CertificateFetcherNdnsCert) (parse : Data → Except String Certificate)
    (fetching : Fetching Certificate) : FetchEvent Certificate → Except Fault (Fetching Certificate)
  | .nsSuccess data => nsSuccessCallback fetching data
  | .nsFail _ => .ok (nsFailCallback fetching)
  | .data packet => .ok (dataCallback parse fetching packet)
  | .nack cached => fetcher.nackCallback cached fetching
  | .timeout cached => fetcher.timeoutCallback cached fetching

end CertificateFetcherNdnsCert

end Ndns.Validator
