import Ndns.Clients.NsCache
import Ndns.Clients.Resolution

/-!
# The Query Tool

`ndns-dig` starts a resolution below a zone, writes the packet that the resolution comes to into a
file, and exits with 0 when the validator accepts it.  A run waits for answers from the network and
then for the verdict.  Unless it is told not to, it gives the same validator to the controller, which
then refuses a packet before it can be written.
-/

namespace Ndns.Clients

open Ndn Calls

/-- How far a run of `ndns-dig` has come. -/
inductive DigPhase where
  | resolving
  | verifying (data : Data)
  | stopped

/-- `NdnsDig`; the controller is kept with what its handlers have done. -/
structure NdnsDig where
  interestLifetime : ℕ
  shouldValidateIntermediate : Bool
  dstFile : String
  session : Session
  hasError : Bool
  phase : DigPhase
  /-- The packet that has been written, and where to. -/
  written : Option (String × Data)

namespace NdnsDig

/-- `DEFAULT_INTEREST_LIFETIME`, in milliseconds. -/
def defaultInterestLifetime : ℕ := 4000

/-- A new object; the controller gets the lifetime of this moment. -/
def make (dstLabel : Name) (rrType : Component) (shouldValidateIntermediate : Bool) : NdnsDig :=
  ⟨defaultInterestLifetime, shouldValidateIntermediate, "",
    ⟨.make dstLabel rrType defaultInterestLifetime 0, []⟩, false, .resolving, none⟩

def setInterestLifetime (dig : NdnsDig) (lifetime : ℕ) : NdnsDig :=
  { dig with interestLifetime := lifetime }

def setDstFile (dig : NdnsDig) (dstFile : String) : NdnsDig := { dig with dstFile := dstFile }

def setStartZone (dig : NdnsDig) (start : Name) : NdnsDig :=
  { dig with session := ⟨{ dig.session.controller with nFinishedComps := start.length },
      dig.session.outcomes⟩ }

/-! ## Callbacks -/

/-- The packet for a file; the standard output is the file `-`. -/
def output (dstFile : String) (data : Data) : Option (String × Data) :=
  if dstFile = "" then none else some (dstFile, data)

/-- `onSucceed`: the packet is written before it goes to the validator. -/
def onSucceed (dig : NdnsDig) (data : Data) : NdnsDig :=
  { dig with phase := .verifying data, written := output dig.dstFile data }

/-- `onFail`. -/
def onFail (dig : NdnsDig) : NdnsDig := { dig with hasError := true, phase := .stopped }

/-- `onDataValidated`. -/
def onDataValidated (dig : NdnsDig) : NdnsDig := { dig with phase := .stopped }

/-- `onDataValidationFailed`. -/
def onDataValidationFailed (dig : NdnsDig) : NdnsDig :=
  { dig with hasError := true, phase := .stopped }

/-- The handler of `run`, for an exception that leaves the event loop. -/
def onException (dig : NdnsDig) : NdnsDig := { dig with hasError := true, phase := .stopped }

/-- What follows the last step of the controller. -/
def callback (dig : NdnsDig) : NdnsDig :=
  match dig.session.outcomes.head? with
  | some (.ok (.succeed data _)) => dig.onSucceed data
  | some (.ok .fail) => dig.onFail
  | some (.error _) => dig.onException
  | _ => dig

/-- `run`, up to the event loop. -/
def run (dig : NdnsDig) : NdnsDig :=
  { dig with session := .begin dig.session.controller }.callback

/-- `main`: the arguments that are refused, and the run. -/
def ofOptions (dstLabel : Name) (rrType : Component) (ttl : ℤ) (start : Name) (dstFile : String)
    (notValidate : Bool) : Option NdnsDig :=
  if start <+: dstLabel ∧ 0 ≤ ttl then
    let dig := (make dstLabel rrType !notValidate).setInterestLifetime (ttl.toNat * 1000)
    some ((dig.setDstFile dstFile).setStartZone start).run
  else none

/-- What `main` returns. -/
def exitCode (dig : NdnsDig) : Option ℕ :=
  match dig.phase with
  | .stopped => some (if dig.hasError then 1 else 0)
  | _ => none

/-! ## Runs -/

variable [PacketFormat]

/-- What is waited for: an answer from the network, which the controller validates or not, or a
verdict. -/
def asks (dig : NdnsDig) : Option ((Expressed × Bool) ⊕ Data) :=
  match dig.phase with
  | .resolving => dig.session.asks.map fun query ↦ .inl (query, dig.shouldValidateIntermediate)
  | .verifying data => some (.inr data)
  | .stopped => none

def receive (dig : NdnsDig) : Event ⊕ Bool → NdnsDig
  | .inl event => { dig with session := dig.session.handle event }.callback
  | .inr true => dig.onDataValidated
  | .inr false => dig.onDataValidationFailed

end NdnsDig

/-- The family for a controller with a validator, or without one. -/
def ZoneFamily.validatedBy {Keys : Type} (family : ZoneFamily Keys)
    (validator : Option (Data → Bool)) : ZoneFamily Keys :=
  { family with accepts := validator.getD fun _ ↦ true }

/-- Runs of `ndns-dig` on the servers of a family; the verdicts of its validator are the same for the
answers, when its controller validates them, and for the packet that a resolution comes to. -/
def ZoneFamily.digging [PacketFormat] {Keys : Type} (family : ZoneFamily Keys)
    (accepts : Data → Bool) : Inquiry NdnsDig ((Expressed × Bool) ⊕ Data) (Event ⊕ Bool) where
  starts dig := ∃ dstLabel rrType ttl start dstFile notValidate,
    NdnsDig.ofOptions dstLabel rrType ttl start dstFile notValidate = some dig
  asks := NdnsDig.asks
  receive := NdnsDig.receive
  answers
    | .inl (query, validated), .inl event =>
        (family.validatedBy (if validated then some accepts else none)).Answers query event
    | .inr data, .inr accepted => accepted = accepts data
    | _, _ => False

/-! ## Lifetimes -/

theorem Session.pending_of_asks {session : Session} {query : Expressed}
    (h : session.asks = some query) : session.pending = some query.interest := by
  obtain ⟨interest, hpending, rfl⟩ := Option.map_eq_some_iff.mp h
  exact hpending

namespace IterativeQueryController

variable {controller next : IterativeQueryController} {data : Data} {contentType : NdnsContentType}

/-- The controller that a handler leaves, and the Interest that it sends, have a lifetime. -/
def Lasts (lifetime : ℕ) (result : IterativeQueryController × Outcome) : Prop :=
  result.1.interestLifetime = lifetime ∧
    ∀ interest, result.2 = .ok (.express interest) → interest.lifetime = lifetime

theorem expressLatest_lasts (controller : IterativeQueryController) :
    Lasts controller.interestLifetime controller.expressLatest := by
  unfold expressLatest makeLatestInterest
  split
  · next interest next hmake =>
      split at hmake
      · cases hmake
      · split_ifs at hmake
        cases hmake
        exact ⟨rfl, fun interest h ↦ by cases h; rfl⟩
  · exact ⟨rfl, nofun⟩

theorem start_lasts (controller : IterativeQueryController) :
    Lasts controller.interestLifetime controller.start := by
  unfold start
  split_ifs
  · exact expressLatest_lasts { controller with step := .queryRr }
  · exact expressLatest_lasts controller

@[simp]
theorem checkLabelEnd_interestLifetime (controller : IterativeQueryController) :
    controller.checkLabelEnd.interestLifetime = controller.interestLifetime := by
  unfold checkLabelEnd
  split_ifs <;> rfl

theorem onNsData_interestLifetime (h : controller.onNsData data contentType = .ok next) :
    next.interestLifetime = controller.interestLifetime := by
  rcases onNsData_eq_ok h with ⟨-, hdoe⟩ | ⟨-, hlink⟩ | ⟨-, rfl⟩ | ⟨-, -, -, rfl⟩
  · obtain ⟨rfl, -⟩ := onNsDoe_eq_ok hdoe
    rfl
  · obtain ⟨lastLink, -, ⟨rfl, -⟩ | ⟨rfl, -⟩⟩ := onNsLink_eq_ok hlink
    · rfl
    · rfl
  · rfl
  · rfl

theorem advance_interestLifetime (h : controller.advance data contentType = .ok next) :
    next.interestLifetime = controller.interestLifetime := by
  unfold advance at h
  split at h
  · cases hmiddle : controller.onNsData data contentType with
    | error fault => simp [hmiddle, Except.map] at h
    | ok middle =>
        simp only [hmiddle, Except.map, Except.ok.injEq] at h
        rw [← h, checkLabelEnd_interestLifetime, onNsData_interestLifetime hmiddle]
  · cases h
    rfl
  · cases h
    rfl

theorem onDataValidated_lasts :
    Lasts controller.interestLifetime (controller.onDataValidated data contentType) := by
  unfold onDataValidated
  cases hadvance : controller.advance data contentType with
  | error fault => exact ⟨rfl, nofun⟩
  | ok next =>
      rw [← advance_interestLifetime hadvance]
      simp only
      unfold conclude
      split
      · exact expressLatest_lasts next
      · exact expressLatest_lasts next
      · refine ⟨rfl, fun interest h ↦ ?_⟩
        cases hresponse : next.parseFinalResponse data with
        | error fault => simp [hresponse, Except.map] at h
        | ok response => simp [hresponse, Except.map] at h
      · exact ⟨rfl, nofun⟩

theorem onData_lasts [PacketFormat] {packet : Data} {accepted : Bool} :
    Lasts controller.interestLifetime (controller.onData packet accepted) := by
  unfold onData
  split
  · exact ⟨rfl, nofun⟩
  · split_ifs
    · exact onDataValidated_lasts
    · exact ⟨rfl, nofun⟩

end IterativeQueryController

namespace Session

variable {session : Session} {lifetime : ℕ}

/-- The Interest that waits for an answer has a lifetime, and so will the next one. -/
def Lasts (lifetime : ℕ) (session : Session) : Prop :=
  session.controller.interestLifetime = lifetime ∧
    ∀ interest, session.pending = some interest → interest.lifetime = lifetime

theorem lasts_of_handled {result : IterativeQueryController × Outcome} {outcomes : List Outcome}
    (h : IterativeQueryController.Lasts lifetime result) :
    Lasts lifetime ⟨result.1, result.2 :: outcomes⟩ := by
  refine ⟨h.1, fun interest hpending ↦ h.2 interest ?_⟩
  unfold pending at hpending
  split at hpending
  · next hhead =>
      cases hpending
      exact Option.some.inj hhead
  · cases hpending

theorem lasts_begin (controller : IterativeQueryController) :
    Lasts controller.interestLifetime (.begin controller) :=
  lasts_of_handled (IterativeQueryController.start_lasts controller)

theorem Lasts.handle [PacketFormat] (h : session.Lasts lifetime) (event : Event) :
    (session.handle event).Lasts lifetime := by
  have hlasts : ∀ event, IterativeQueryController.Lasts lifetime (session.react event)
    | .data packet accepted => h.1 ▸ IterativeQueryController.onData_lasts
    | .networkNack | .timeout => ⟨h.1, nofun⟩
  exact lasts_of_handled (hlasts event)

end Session

namespace NdnsDig

variable {dig start : NdnsDig}

@[simp]
theorem callback_session (dig : NdnsDig) : dig.callback.session = dig.session := by
  unfold callback
  split <;> rfl

theorem lifetime_of_asks {lifetime : ℕ} {query : Expressed} {validated : Bool}
    (h : dig.session.Lasts lifetime) (hasks : dig.asks = some (.inl (query, validated))) :
    query.interest.lifetime = lifetime := by
  unfold asks at hasks
  split at hasks
  · obtain ⟨query', hsession, hquery⟩ := Option.map_eq_some_iff.mp hasks
    cases hquery
    exact h.2 _ (Session.pending_of_asks hsession)
  · cases hasks
  · cases hasks

variable [PacketFormat] {Keys : Type} {family : ZoneFamily Keys} {accepts : Data → Bool}

theorem lasts_receive {lifetime : ℕ} (h : dig.session.Lasts lifetime) (reply : Event ⊕ Bool) :
    (dig.receive reply).session.Lasts lifetime := by
  rcases reply with event | accepted
  · change (callback _).session.Lasts lifetime
    rw [callback_session]
    exact h.handle event
  · cases accepted with
    | true => exact h
    | false => exact h

theorem lasts_direct {lifetime : ℕ} {asked : List ((Expressed × Bool) ⊕ Data)}
    (h : start.session.Lasts lifetime) (hdirect : (family.digging accepts).Direct start asked dig) :
    dig.session.Lasts lifetime := by
  induction hdirect with
  | start => exact h
  | answer _ _ _ ih => exact lasts_receive ih _

end NdnsDig

end Ndns.Clients
