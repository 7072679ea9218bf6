import Ndns.Daemon.LocalServices
import Ndns.Validator.CertificateFetcherNdnsCert

/-!
# The Retry Budget of a Certificate Request

A request waits for one thing at a time.  While it waits, the Interests that were sent and the
retries that are left add up to the initial budget; when it waits for nothing, one call has ended it
and that call is the last one on its state.  Both hold in every order of failures.
-/

namespace Ndns.Validator

open Ndn Clients Daemon

variable {Certificate : Type}

/-- The events a request can meet: the callbacks of what it waits for, with packets that decode. -/
def Fetching.Meets (fetching : Fetching Certificate) : FetchEvent Certificate → Prop
  | .nsSuccess data => (∃ controller, fetching.waiting = some (.query controller)) ∧
      (NdnsContentType.ofCode data.contentType = .link → (linkDelegations data).isSome)
  | .nsFail _ => ∃ controller, fetching.waiting = some (.query controller)
  | .data _ | .nack _ | .timeout _ => ∃ interest, fetching.waiting = some (.certificate interest)

/-- No call so far has ended the request. -/
def Fetching.Open (fetching : Fetching Certificate) : Prop :=
  ∀ call ∈ fetching.calls, ¬ call.Ends

/-- One call has ended the request, nothing was called on its state afterwards, and no event is
left that could do so. -/
structure Fetching.Ended (fetching : Fetching Certificate) : Prop where
  once : ∃ earlier last, fetching.calls = earlier ++ [last] ∧ last.Ends ∧
    ∀ call ∈ earlier, ¬ call.Ends
  quiet : ∀ event, ¬ fetching.Meets event

namespace CertificateFetcherNdnsCert

variable {fetcher : CertificateFetcherNdnsCert} {parse : Data → Except String Certificate}
  {certRequest : CertificateRequest} {cached : Option Certificate}
  {fetching fetching' : Fetching Certificate} {events : List (FetchEvent Certificate)} {R steps : ℤ}

/-- A request together with the events it has met so far, the last one first. -/
inductive Run (fetcher : CertificateFetcherNdnsCert) (parse : Data → Except String Certificate)
    (certRequest : CertificateRequest) (cached : Option Certificate) :
    List (FetchEvent Certificate) → Fetching Certificate → Prop
  | start {fetching : Fetching Certificate} :
      fetcher.fetch cached (.make certRequest) = .ok fetching →
        Run fetcher parse certRequest cached [] fetching
  | next {events : List (FetchEvent Certificate)} {fetching fetching' : Fetching Certificate}
      {event : FetchEvent Certificate} : Run fetcher parse certRequest cached events fetching →
        fetching.Meets event → fetcher.handle parse fetching event = .ok fetching' →
          Run fetcher parse certRequest cached (event :: events) fetching'

/-- The accounts of a request with `R` retries after a number of events: what was sent, what is
left, and the rounds of two events that are still to come. -/
structure Budget (R steps : ℤ) (fetching : Fetching Certificate) : Prop where
  named : Label.ndnsIterativeQuery ∈ fetching.certRequest.interest.name
  account : match fetching.waiting with
    | some (.query _) => 0 ≤ fetching.certRequest.nRetriesLeft ∧
        fetching.sent.length + fetching.certRequest.nRetriesLeft ≤ R ∧
        steps + 2 * fetching.certRequest.nRetriesLeft ≤ 2 * R ∧ fetching.Open
    | some (.certificate _) => 0 ≤ fetching.certRequest.nRetriesLeft ∧
        fetching.sent.length + fetching.certRequest.nRetriesLeft ≤ R + 1 ∧
        steps + 2 * fetching.certRequest.nRetriesLeft ≤ 2 * R + 1 ∧ fetching.Open
    | none => fetching.sent.length ≤ R + 1 ∧ steps ≤ 2 * R + 2 ∧ fetching.Ended

/-- A request that waits for nothing meets no event. -/
theorem not_meets_of_idle (h : fetching.waiting = none) (event : FetchEvent Certificate) :
    ¬ fetching.Meets event := by
  cases event <;> simp [Fetching.Meets, h]

/-- A last call, after calls that do not end the request. -/
theorem ended_finish (hopen : fetching.Open) {before : List (StateCall Certificate)}
    {last : StateCall Certificate} (hbefore : ∀ call ∈ before, ¬ call.Ends) (hlast : last.Ends) :
    (fetching.finish (before ++ [last])).Ended := by
  refine ⟨⟨fetching.calls ++ before, last, ?_, hlast, ?_⟩, not_meets_of_idle rfl⟩
  · rw [List.append_assoc]
    rfl
  · exact fun call hcall ↦ (List.mem_append.mp hcall).elim (hopen call) (hbefore call)

/-- Expressing the certificate Interest takes one from the budget. -/
theorem budget_expressInterest (hnamed : Label.ndnsIterativeQuery ∈ fetching.certRequest.interest.name)
    (hretries : 0 ≤ fetching.certRequest.nRetriesLeft)
    (hsent : fetching.sent.length + fetching.certRequest.nRetriesLeft ≤ R)
    (hsteps : steps + 2 * fetching.certRequest.nRetriesLeft ≤ 2 * R + 1)
    (hopen : fetching.Open) (forwardingHint : List Name) :
    Budget R steps (expressInterest fetching forwardingHint) := by
  refine ⟨hnamed, hretries, ?_, hsteps, hopen⟩
  simp only [expressInterest, List.length_append, List.length_singleton]
  push_cast
  omega

theorem calculateDomain_of_mem {key : Name} (h : Label.ndnsIterativeQuery ∈ key) :
    calculateDomain key =
      .ok (key.takeWhile fun component ↦ component ≠ Label.ndnsIterativeQuery) := if_pos h

/-- A round starts within the budget, whatever the cache of the base class holds. -/
theorem budget_fetch (hnamed : Label.ndnsIterativeQuery ∈ fetching.certRequest.interest.name)
    (hretries : 0 ≤ fetching.certRequest.nRetriesLeft)
    (hsent : fetching.sent.length + fetching.certRequest.nRetriesLeft ≤ R)
    (hsteps : steps + 2 * fetching.certRequest.nRetriesLeft ≤ 2 * R) (hopen : fetching.Open) :
    ∃ next, fetcher.fetch cached fetching = .ok next ∧ Budget R steps next := by
  cases cached with
  | some cert =>
      refine ⟨_, rfl, hnamed, ?_, ?_, @ended_finish _ _ hopen [] _ nofun trivial⟩
      · change (fetching.sent.length : ℤ) ≤ R + 1
        omega
      · omega
  | none =>
      rw [fetch, doFetch, calculateDomain_of_mem hnamed]
      simp only
      split_ifs
      · exact ⟨_, rfl, budget_expressInterest hnamed hretries hsent (by omega) hopen []⟩
      · refine ⟨_, rfl, hnamed, hretries, hsent, hsteps, fun call hcall ↦ ?_⟩
        rcases List.mem_append.mp hcall with hold | hnew
        · exact hopen call hold
        · rw [List.mem_singleton.mp hnew]
          exact id

theorem ended_loseRetry {last : StateCall Certificate} (hopen : fetching.Open) (hlast : last.Ends) :
    (fetching.loseRetry.finish [.removeTag, last]).Ended :=
  @ended_finish _ fetching.loseRetry hopen [.removeTag] last (by simp [StateCall.Ends]) hlast

/-- A lost certificate Interest. -/
theorem budget_retry {interest : Interest} (h : Budget R steps fetching)
    (hwaiting : fetching.waiting = some (.certificate interest)) :
    ∃ next, fetcher.retry cached fetching = .ok next ∧ Budget R (steps + 1) next := by
  obtain ⟨hnamed, haccount⟩ := h
  rw [hwaiting] at haccount
  obtain ⟨hretries, hsent, hsteps, hopen⟩ := haccount
  rw [retry]
  split_ifs with hleft
  · refine budget_fetch hnamed hleft ?_ ?_ hopen
    · change (fetching.sent.length : ℤ) + (fetching.certRequest.nRetriesLeft - 1) ≤ R
      omega
    · change steps + 1 + 2 * (fetching.certRequest.nRetriesLeft - 1) ≤ 2 * R
      omega
  · refine ⟨_, rfl, hnamed, ?_, ?_, ?_⟩
    · change (fetching.sent.length : ℤ) ≤ R + 1
      omega
    · omega
    · exact ended_loseRetry hopen trivial

/-- One event: its callback does not throw, and the accounts stay right. -/
theorem budget_handle {event : FetchEvent Certificate} (h : Budget R steps fetching)
    (hmeets : fetching.Meets event) :
    ∃ next, fetcher.handle parse fetching event = .ok next ∧ Budget R (steps + 1) next := by
  have hcallback : ∀ hint, (∃ controller, fetching.waiting = some (.query controller)) →
      Budget R (steps + 1) (expressInterest fetching hint) := by
    rintro hint ⟨controller, hwaiting⟩
    have haccount := h.account
    rw [hwaiting] at haccount
    obtain ⟨hretries, hsent, hsteps, hopen⟩ := haccount
    exact budget_expressInterest h.named hretries hsent (by omega) hopen hint
  cases event with
  | nsSuccess data =>
      obtain ⟨hwaiting, hdecodes⟩ := hmeets
      rw [handle, nsSuccessCallback]
      split_ifs with hlink
      · obtain ⟨delegations, hdelegations⟩ := Option.isSome_iff_exists.mp (hdecodes hlink)
        rw [hdelegations]
        exact ⟨_, rfl, hcallback delegations hwaiting⟩
      · exact ⟨_, rfl, hcallback [] hwaiting⟩
  | nsFail errMsg => exact ⟨_, rfl, hcallback [] hmeets⟩
  | data packet =>
      obtain ⟨interest, hwaiting⟩ := hmeets
      have haccount := h.account
      rw [hwaiting] at haccount
      obtain ⟨hretries, hsent, hsteps, hopen⟩ := haccount
      have hended : ∀ last : StateCall Certificate, last.Ends →
          Budget R (steps + 1) (fetching.finish [.removeTag, last]) := by
        intro last hlast
        refine ⟨h.named, ?_, by omega,
          @ended_finish _ _ hopen [.removeTag] last (by simp [StateCall.Ends]) hlast⟩
        change (fetching.sent.length : ℤ) ≤ R + 1
        omega
      refine ⟨_, rfl, ?_⟩
      unfold dataCallback
      split
      · exact hended _ trivial
      · exact hended _ trivial
  | nack cached =>
      obtain ⟨interest, hwaiting⟩ := hmeets
      exact budget_retry h hwaiting
  | timeout cached =>
      obtain ⟨interest, hwaiting⟩ := hmeets
      exact budget_retry h hwaiting

/-- A run keeps the accounts. -/
theorem Run.budget (hrun : Run fetcher parse certRequest cached events fetching)
    (hnamed : Label.ndnsIterativeQuery ∈ certRequest.interest.name)
    (hretries : 0 ≤ certRequest.nRetriesLeft) :
    Budget certRequest.nRetriesLeft events.length fetching := by
  induction hrun with
  | start hstart =>
      obtain ⟨first, hfirst, hbudget⟩ := @budget_fetch _ fetcher cached (.make certRequest)
        certRequest.nRetriesLeft 0 hnamed hretries (by simp [Fetching.make])
        (by simp [Fetching.make]) nofun
      cases hstart.symm.trans hfirst
      exact hbudget
  | next _ hmeets hhandle ih =>
      obtain ⟨next, hnext, hbudget⟩ := budget_handle ih hmeets
      cases hhandle.symm.trans hnext
      rw [List.length_cons]
      push_cast
      exact hbudget

/-- Fetching starts without an exception, and after any sequence of events at most one Interest more
than the retries was sent and at most two events for each of them were met.  The request is either
still open, and then the callback of every event it can meet returns, or it has ended exactly
once. -/
theorem fetch_ends_once (fetcher : CertificateFetcherNdnsCert)
    (parse : Data → Except String Certificate) (certRequest : CertificateRequest)
    (cached : Option Certificate) (hnamed : Label.ndnsIterativeQuery ∈ certRequest.interest.name)
    (hretries : 0 ≤ certRequest.nRetriesLeft) :
    (∃ fetching, fetcher.fetch cached (.make certRequest) = .ok fetching) ∧
      ∀ events fetching, Run fetcher parse certRequest cached events fetching →
        fetching.sent.length ≤ certRequest.nRetriesLeft + 1 ∧
        events.length ≤ 2 * (certRequest.nRetriesLeft + 1) ∧
        (fetching.waiting.isSome ∧ fetching.Open ∧ (∀ event, fetching.Meets event →
            ∃ next, fetcher.handle parse fetching event = .ok next) ∨
          fetching.waiting = none ∧ fetching.Ended) := by
  constructor
  · obtain ⟨first, hfirst, -⟩ := @budget_fetch _ fetcher cached (.make certRequest)
      certRequest.nRetriesLeft 0 hnamed hretries (by simp [Fetching.make])
      (by simp [Fetching.make]) nofun
    exact ⟨first, hfirst⟩
  · intro events fetching hrun
    have hbudget := hrun.budget hnamed hretries
    have hnext : ∀ event, fetching.Meets event →
        ∃ next, fetcher.handle parse fetching event = .ok next := by
      intro event hmeets
      obtain ⟨next, hnext, -⟩ := @budget_handle _ fetcher parse _ _ _ event hbudget hmeets
      exact ⟨next, hnext⟩
    have haccount := hbudget.account
    cases hwaiting : fetching.waiting with
    | none =>
        rw [hwaiting] at haccount
        obtain ⟨hsent, hsteps, hended⟩ := haccount
        exact ⟨hsent, by omega, Or.inr ⟨rfl, hended⟩⟩
    | some waiting =>
        rw [hwaiting] at haccount
        cases waiting with
        | query controller =>
            obtain ⟨hleft, hsent, hsteps, hopen⟩ := haccount
            exact ⟨by omega, by omega, Or.inl ⟨rfl, hopen, hnext⟩⟩
        | certificate interest =>
            obtain ⟨hleft, hsent, hsteps, hopen⟩ := haccount
            exact ⟨by omega, by omega, Or.inl ⟨rfl, hopen, hnext⟩⟩

/-- A request for a key of a zone below the root, with two retries. -/
def zoneKeyRequest : CertificateRequest :=
  ⟨⟨[LocalServices.letter 110, Label.ndnsIterativeQuery, CertHelper.keyComponent], true, 4000, []⟩, 2⟩

/-- The packet that is taken for its certificate. -/
def zoneKeyPacket : Data := ⟨zoneKeyRequest.interest.name ++ [Label.certRrType], 2, 0, [], [], []⟩

/-- A timeout, and the certificate in the second round. -/
def zoneKeyEvents : List (FetchEvent Data) :=
  [.data zoneKeyPacket, .nsFail "", .timeout none, .nsFail ""]

/-- Fetching starts, and the second round ends the request with a retry left. -/
theorem fetch_ends_once_zoneKey :
    (∃ fetching : Fetching Data, fetch ⟨0⟩ none (.make zoneKeyRequest) = .ok fetching) ∧
      ∃ fetching, Run ⟨0⟩ .ok zoneKeyRequest none zoneKeyEvents fetching ∧
        fetching.certRequest.nRetriesLeft = 1 ∧ fetching.sent.length ≤ (2 : ℤ) + 1 ∧
        fetching.Ended := by
  obtain ⟨hstarts, hends⟩ := fetch_ends_once ⟨0⟩ (Except.ok : Data → Except String Data)
    zoneKeyRequest none (by simp [zoneKeyRequest]) (by decide)
  have hfirst : Run ⟨0⟩ (Except.ok : Data → Except String Data) zoneKeyRequest none
      [.timeout none, .nsFail ""] _ :=
    .next (.next (.start rfl) ⟨_, rfl⟩ rfl) ⟨_, rfl⟩ rfl
  have hrun : Run ⟨0⟩ (Except.ok : Data → Except String Data) zoneKeyRequest none zoneKeyEvents _ :=
    .next (.next hfirst ⟨_, rfl⟩ rfl) ⟨_, rfl⟩ rfl
  obtain ⟨hsent, -, hopen | hended⟩ := hends _ _ hrun
  · exact absurd hopen.1 (by decide)
  · exact ⟨hstarts, _, hrun, rfl, hsent, hended.2⟩

end CertificateFetcherNdnsCert

end Ndns.Validator
