import Ndns.Clients.ResolverSafety
import Ndns.Validator.CertificateFetcherNdnsCert

/-!
# Application Certificates

The certificate of an application is kept in an APPCERT record.  It is fetched by an iterative
query without a validator, the packet the query reports is given to the inner validator, and the
certificate is read from the content of that packet.  Every call on the validation state is kept in
order; the query runs while `start` is on the stack when its answers come from the cache, so that
`setTag` may come late.
-/

namespace Ndns.Validator

open Ndn Clients

variable {Certificate : Type}

/-! ## Requests -/

/-- What a request waits for.  An exception of the query escapes to the face. -/
inductive AppWaiting where
  | query
  | validation (data : Data)
  | nothing
  | escaped (fault : ControllerFault)

/-- A request in progress, with its iterative query and the calls on its state so far. -/
structure AppFetching (Certificate : Type) where
  interest : Interest
  session : Session
  waiting : AppWaiting
  /-- `query->start` has returned. -/
  started : Bool
  calls : List (StateCall Certificate)

/-- What can happen to a request: `start` returns, the waiting Interest of the query meets an event,
and the inner validator comes to its verdict. -/
inductive AppEvent where
  | started
  | answer (event : Event)
  | validated
  | rejected (info : String)

/-- `CertificateFetcherAppCert`. -/
structure CertificateFetcherAppCert where
  startComponentIndex : ℕ

namespace CertificateFetcherAppCert

/-- `doFetch` up to the first Interest of the query. -/
def doFetch (fetcher : CertificateFetcherAppCert) (interest : Interest) : AppFetching Certificate where
  interest := interest
  session := .begin (.make interest.name Label.appcertRrType interest.lifetime
    fetcher.startComponentIndex)
  waiting := .query
  started := false
  calls := []

/-- `state->fail`, and nothing more is waited for. -/
def fail (fetching : AppFetching Certificate) (error : ValidationError) : AppFetching Certificate :=
  { fetching with waiting := .nothing, calls := fetching.calls ++ [.removeTag, .fail error] }

/-- `onQuerySuccessCallback`. -/
def onQuerySuccessCallback (fetching : AppFetching Certificate) (data : Data) :
    AppFetching Certificate :=
  { fetching with waiting := .validation data }

/-- `onQueryFailCallback`. -/
def onQueryFailCallback (fetching : AppFetching Certificate) (errMsg : String) :
    AppFetching Certificate :=
  fail fetching ⟨.cannotRetrieveCert, "Cannot fetch certificate due to", fetching.interest.name,
    some errMsg⟩

/-- `onValidationSuccessCallback`; `parse` is `blockFromValue` on the content and the constructor of
the certificate, which can both throw. -/
def onValidationSuccessCallback (parse : Blob → Except String Certificate)
    (fetching : AppFetching Certificate) (data : Data) : AppFetching Certificate :=
  if NdnsContentType.ofCode data.contentType = .nack then
    fail fetching ⟨.cannotRetrieveCert, "Cannot fetch certificate: got Nack for query",
      fetching.interest.name, none⟩
  else
    match parse data.content with
    | .error what =>
        fail fetching ⟨.malformedCert, "Fetched a malformed certificate", data.name, some what⟩
    | .ok cert =>
        { fetching with
          waiting := .nothing
          calls := fetching.calls ++ [.removeTag, .continueValidation cert] }

/-- `onValidationFailCallback`. -/
def onValidationFailCallback (fetching : AppFetching Certificate) (info : String) :
    AppFetching Certificate :=
  fail fetching ⟨.cannotRetrieveCert, "Cannot fetch certificate due to NDNS validation error:",
    fetching.interest.name, some info⟩

section

variable [PacketFormat]

/-- The query goes on, or calls back: `abort` gives its own name as the message. -/
def onQueryEvent (fetching : AppFetching Certificate) (event : Event) : AppFetching Certificate :=
  let next := { fetching with session := fetching.session.handle event }
  match (fetching.session.react event).2 with
  | .ok (.express _) => next
  | .ok (.succeed data _) => onQuerySuccessCallback next data
  | .ok .fail => onQueryFailCallback next "abort"
  | .error fault => { next with waiting := .escaped fault }

/-- The callback of an event, with what the request waits for. -/
def handle (parse : Blob → Except String Certificate) (fetching : AppFetching Certificate)
    (event : AppEvent) : AppFetching Certificate :=
  match event, fetching.waiting with
  | .started, _ => { fetching with started := true, calls := fetching.calls ++ [.setTag] }
  | .answer event, .query => onQueryEvent fetching event
  | .validated, .validation data => onValidationSuccessCallback parse fetching data
  | .rejected info, .validation _ => onValidationFailCallback fetching info
  | _, _ => fetching

/-- The events a request can meet.  Data is delivered to the Interest it matches, the query has no
validator of its own, and the inner validator keeps to its verdict; `start` does not return when an
exception has escaped from it. -/
def Meets (valid : Data → Prop) (fetching : AppFetching Certificate) : AppEvent → Prop
  | .started => fetching.started = false ∧ ∀ fault, fetching.waiting ≠ .escaped fault
  | .answer event => fetching.waiting = .query ∧
      (∃ interest, fetching.session.pending = some interest ∧ event.answers interest) ∧
      ∀ packet accepted, event = .data packet accepted → accepted = true
  | .validated => ∃ data, fetching.waiting = .validation data ∧ valid data
  | .rejected _ => ∃ data, fetching.waiting = .validation data ∧ ¬ valid data

/-- The requests some run of events leads to. -/
def Reachable (fetcher : CertificateFetcherAppCert) (parse : Blob → Except String Certificate)
    (valid : Data → Prop) (interest : Interest) (fetching : AppFetching Certificate) : Prop :=
  Relation.ReflTransGen (fun before after ↦ ∃ event, Meets valid before event ∧
    after = handle parse before event) (fetcher.doFetch interest) fetching

/-! ## What a request comes to -/

/-- Where a packet that the query reports comes from: it is named after the request, or it was
wrapped in an `NDNS_NACK`. -/
inductive Source (name : Name) (data : Data) : Prop
  | named {zone label extension : Name} (hlabel : zone ++ label = name)
      (hname : data.name = Label.recordName zone label Label.appcertRrType ++ extension)
      (hcontent : NdnsContentType.ofCode data.contentType ≠ .nack) : Source name data
  | wrapped {packet : Data} (hnack : NdnsContentType.ofCode packet.contentType = .nack)
      (hinner : (blockFromValue packet.content).bind PacketFormat.decode = some data) :
      Source name data

/-- The reasons for a call that ends a request. -/
inductive Justified (parse : Blob → Except String Certificate) (valid : Data → Prop) (name : Name) :
    StateCall Certificate → Prop
  | certificate {data : Data} {cert : Certificate} (hsource : Source name data) (hvalid : valid data)
      (hcontent : NdnsContentType.ofCode data.contentType ≠ .nack)
      (hparse : parse data.content = .ok cert) : Justified parse valid name (.continueValidation cert)
  | malformed {data : Data} {what : String} (hsource : Source name data) (hvalid : valid data)
      (hcontent : NdnsContentType.ofCode data.contentType ≠ .nack)
      (hparse : parse data.content = .error what) : Justified parse valid name
        (.fail ⟨.malformedCert, "Fetched a malformed certificate", data.name, some what⟩)
  -- only the packet inside an `NDNS_NACK` can say that it is one
  | nack {packet data : Data} (hnack : NdnsContentType.ofCode packet.contentType = .nack)
      (hinner : (blockFromValue packet.content).bind PacketFormat.decode = some data)
      (hvalid : valid data) (hcontent : NdnsContentType.ofCode data.contentType = .nack) :
      Justified parse valid name (.fail ⟨.cannotRetrieveCert,
        "Cannot fetch certificate: got Nack for query", name, none⟩)
  | invalid {data : Data} {info : String} (hsource : Source name data) (hvalid : ¬ valid data) :
      Justified parse valid name (.fail ⟨.cannotRetrieveCert,
        "Cannot fetch certificate due to NDNS validation error:", name, some info⟩)
  | unanswered : Justified parse valid name (.fail ⟨.cannotRetrieveCert,
      "Cannot fetch certificate due to", name, some "abort"⟩)

/-- No call but that of `setTag` was made, when `start` has returned. -/
def Idle (fetching : AppFetching Certificate) : Prop :=
  fetching.calls = if fetching.started then [.setTag] else []

/-- One call has ended the request, right after the tag was removed; `setTag` came before both, or
after them, or has not come yet. -/
def Finished (last : StateCall Certificate) (fetching : AppFetching Certificate) : Prop :=
  if fetching.started then
    fetching.calls = [.setTag, .removeTag, last] ∨ fetching.calls = [.removeTag, last, .setTag]
  else fetching.calls = [.removeTag, last]

/-- What is known of a request, by what it waits for. -/
def Accounted (parse : Blob → Except String Certificate) (valid : Data → Prop) (interest : Interest)
    (fetching : AppFetching Certificate) : Prop :=
  match fetching.waiting with
  | .query => fetching.session.pending.isSome ∧ Idle fetching
  | .validation data => Source interest.name data ∧ Idle fetching
  | .escaped _ => Idle fetching
  | .nothing => ∃ last, Justified parse valid interest.name last ∧ Finished last fetching

variable {fetcher : CertificateFetcherAppCert} {parse : Blob → Except String Certificate}
  {valid : Data → Prop} {interest : Interest} {fetching : AppFetching Certificate}

/-- The query reports the packet inside an `NDNS_NACK`, and any other packet as it is. -/
theorem source_of_succeed {session : Session} {name : Name} {awaited : Interest} {packet data : Data}
    {response : Response} (h : session.Reachable name Label.appcertRrType)
    (hpending : session.pending = some awaited) (hmatch : packet.matches awaited)
    (hreport : (session.react (.data packet true)).2 = .ok (.succeed data response)) :
    Source name data := by
  have hasks := h.invariant.asks awaited hpending
  obtain ⟨hdst, htype⟩ := h.request
  have hreact : session.controller.onData packet true =
      ((session.react (.data packet true)).1, .ok (.succeed data response)) :=
    Prod.ext rfl hreport
  obtain ⟨inner, contentType, next, hunwrap, -, hadvance, hconclude⟩ :=
    IterativeQueryController.onData_continues hreact (Or.inr ⟨data, response, rfl⟩)
  obtain ⟨hanswer, -, rfl, -⟩ := IterativeQueryController.conclude_succeed hconclude
  unfold IterativeQueryController.unwrap at hunwrap
  split_ifs at hunwrap with hnack
  · obtain ⟨doe, hdoe, hpair⟩ := Option.map_eq_some_iff.mp hunwrap
    obtain ⟨rfl, -⟩ := Prod.mk.inj hpair
    exact .wrapped hnack hdoe
  · obtain ⟨rfl, -⟩ := Prod.mk.inj (Option.some.inj hunwrap)
    obtain ⟨hquery, hlabel, -⟩ :=
      IterativeQueryController.advance_answerStub hasks hadvance hanswer
    obtain ⟨extension, hextension⟩ := hmatch
    rw [hasks.name, hquery, htype] at hextension
    exact .named (hlabel.trans hdst) hextension.symm hnack

/-! ## Runs -/

theorem Accounted.finish {last : StateCall Certificate} (hidle : Idle fetching)
    (hlast : Justified parse valid interest.name last) :
    Accounted parse valid interest { fetching with
      waiting := .nothing, calls := fetching.calls ++ [.removeTag, last] } := by
  refine ⟨last, hlast, ?_⟩
  unfold Idle at hidle
  unfold Finished
  cases hstarted : fetching.started with
  | true =>
      simp only [hstarted, if_true] at hidle ⊢
      rw [hidle]
      exact Or.inl rfl
  | false =>
      simp only [hstarted, Bool.false_eq_true, if_false] at hidle ⊢
      rw [hidle]
      rfl

/-- `start` has returned. -/
theorem Accounted.started (h : Accounted parse valid interest fetching)
    (hstarted : fetching.started = false) : Accounted parse valid interest
      { fetching with started := true, calls := fetching.calls ++ [.setTag] } := by
  have hidle : Idle fetching →
      Idle { fetching with started := true, calls := fetching.calls ++ [.setTag] } := by
    intro hidle
    simp only [Idle, hstarted, Bool.false_eq_true, if_false] at hidle
    simp only [Idle, hidle, List.nil_append, if_true]
  unfold Accounted at h ⊢
  cases hwaiting : fetching.waiting with
  | query =>
      rw [hwaiting] at h
      exact ⟨h.1, hidle h.2⟩
  | validation data =>
      rw [hwaiting] at h
      exact ⟨h.1, hidle h.2⟩
  | escaped fault =>
      rw [hwaiting] at h
      exact hidle h
  | nothing =>
      rw [hwaiting] at h
      obtain ⟨last, hlast, hfinished⟩ := h
      refine ⟨last, hlast, ?_⟩
      simp only [Finished, hstarted, Bool.false_eq_true, if_false] at hfinished
      simp only [Finished, hfinished, if_true]
      exact Or.inr rfl

/-- What holds of a request at all times. -/
structure Sound (parse : Blob → Except String Certificate) (valid : Data → Prop)
    (interest : Interest) (fetching : AppFetching Certificate) : Prop where
  interest_eq : fetching.interest = interest
  reachable : fetching.session.Reachable interest.name Label.appcertRrType
  accounted : Accounted parse valid interest fetching

/-- An event on the Interest the query waits for. -/
theorem Sound.onQueryEvent {event : Event} (h : Sound parse valid interest fetching)
    (hmeets : Meets valid fetching (.answer event)) :
    Sound parse valid interest (onQueryEvent fetching event) := by
  obtain ⟨hwaiting, ⟨awaited, hpending, hanswers⟩, haccepted⟩ := hmeets
  have hidle : Idle fetching := by
    have haccounted := h.accounted
    rw [Accounted, hwaiting] at haccounted
    exact haccounted.2
  have hreachable : (fetching.session.handle event).Reachable interest.name
      Label.appcertRrType := by
    obtain ⟨lifetime, startIndex, hrun⟩ := h.reachable
    exact ⟨lifetime, startIndex, hrun.tail (.event hpending hanswers)⟩
  cases hreact : (fetching.session.react event).2 with
  | error fault =>
      simp only [CertificateFetcherAppCert.onQueryEvent, hreact]
      exact ⟨h.interest_eq, hreachable, hidle⟩
  | ok action =>
      cases action with
      | express next =>
          simp only [CertificateFetcherAppCert.onQueryEvent, hreact]
          refine ⟨h.interest_eq, hreachable, ?_⟩
          have hnext : (fetching.session.handle event).pending = some next :=
            Session.pending_handle.mpr hreact
          rw [Accounted, hwaiting]
          exact ⟨Option.isSome_of_eq_some hnext, hidle⟩
      | fail =>
          simp only [CertificateFetcherAppCert.onQueryEvent, hreact, onQueryFailCallback, fail,
            h.interest_eq]
          exact ⟨rfl, hreachable, Accounted.finish hidle .unanswered⟩
      | succeed data response =>
          simp only [CertificateFetcherAppCert.onQueryEvent, hreact, onQuerySuccessCallback]
          refine ⟨h.interest_eq, hreachable, ?_, hidle⟩
          cases event with
          | networkNack => cases hreact
          | timeout => cases hreact
          | data packet accepted =>
              obtain rfl := haccepted packet accepted rfl
              exact source_of_succeed h.reachable hpending hanswers hreact

/-- The verdict of the inner validator. -/
theorem Sound.validated {data : Data} (h : Sound parse valid interest fetching)
    (hwaiting : fetching.waiting = .validation data) (hvalid : valid data) :
    Sound parse valid interest (onValidationSuccessCallback parse fetching data) := by
  obtain ⟨hsource, hidle⟩ : Source interest.name data ∧ Idle fetching := by
    have haccounted := h.accounted
    rwa [Accounted, hwaiting] at haccounted
  obtain rfl := h.interest_eq
  unfold onValidationSuccessCallback
  split_ifs with hnack
  · cases hsource with
    | named _ _ hcontent => exact absurd hnack hcontent
    | wrapped houter hinner =>
        exact ⟨h.interest_eq, h.reachable, Accounted.finish hidle (.nack houter hinner hvalid hnack)⟩
  · cases hparse : parse data.content with
    | error what =>
        exact ⟨h.interest_eq, h.reachable,
          Accounted.finish hidle (.malformed hsource hvalid hnack hparse)⟩
    | ok cert =>
        exact ⟨h.interest_eq, h.reachable,
          Accounted.finish hidle (.certificate hsource hvalid hnack hparse)⟩

theorem Sound.rejected {data : Data} {info : String} (h : Sound parse valid interest fetching)
    (hwaiting : fetching.waiting = .validation data) (hvalid : ¬ valid data) :
    Sound parse valid interest (onValidationFailCallback fetching info) := by
  obtain ⟨hsource, hidle⟩ : Source interest.name data ∧ Idle fetching := by
    have haccounted := h.accounted
    rwa [Accounted, hwaiting] at haccounted
  rw [onValidationFailCallback, h.interest_eq]
  exact ⟨h.interest_eq, h.reachable, Accounted.finish hidle (.invalid hsource hvalid)⟩

theorem Sound.handle {event : AppEvent} (h : Sound parse valid interest fetching)
    (hmeets : Meets valid fetching event) : Sound parse valid interest (handle parse fetching event) := by
  cases event with
  | started => exact ⟨h.interest_eq, h.reachable, h.accounted.started hmeets.1⟩
  | answer event =>
      have hnext := h.onQueryEvent hmeets
      unfold CertificateFetcherAppCert.handle
      rw [hmeets.1]
      exact hnext
  | validated =>
      obtain ⟨data, hwaiting, hvalid⟩ := hmeets
      unfold CertificateFetcherAppCert.handle
      rw [hwaiting]
      exact h.validated hwaiting hvalid
  | rejected info =>
      obtain ⟨data, hwaiting, hvalid⟩ := hmeets
      unfold CertificateFetcherAppCert.handle
      rw [hwaiting]
      exact h.rejected hwaiting hvalid

/-- A request has asked for its first Interest. -/
theorem sound_doFetch (fetcher : CertificateFetcherAppCert) (interest : Interest) :
    Sound parse valid interest (fetcher.doFetch interest) := by
  refine ⟨rfl, ⟨interest.lifetime, fetcher.startComponentIndex, .refl⟩, ?_, rfl⟩
  simp only [doFetch, Session.begin, IterativeQueryController.start]
  split_ifs
  · rfl
  · rfl

end

section Examples

attribute [local instance] ndnPacketFormat

/-- The APPCERT record of a name that is a zone. -/
def appRecord : Data :=
  ⟨Label.recordName [host] [] Label.appcertRrType ++ [firstVersion], 0, 0, [], [], []⟩

def appRequest : Interest := ⟨[host], true, 4000, []⟩

/-- The query has started. -/
def appStarted : AppFetching Blob := handle Except.ok (doFetch ⟨1⟩ appRequest) .started

def appReported : AppFetching Blob := handle Except.ok appStarted (.answer (.data appRecord true))

end Examples

end CertificateFetcherAppCert

end Ndns.Validator
