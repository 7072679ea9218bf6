import Ndns.Clients.Resolution

/-!
# A Resolution on its Way through Zones

A controller is followed by the zone it asks, the part of the label that is left there, and the
number of components it tries.  An AUTH record makes it try one component more, a delegation leads
it into the next zone, a denial makes it ask for the record, and the answer to that is its result.
-/

namespace Ndns.Clients

open Ndn

namespace IterativeQueryController

/-- The label and the type a controller asks for, from its step. -/
def askedLabel (label : Name) (count : ℕ) : QueryStep → Name
  | .queryNs => label.take count
  | _ => label

def askedType (rrType : Component) : QueryStep → Component
  | .queryNs => Label.nsRrType
  | _ => rrType

/-- A controller at work in a zone. -/
structure At (controller : IterativeQueryController) (zone label : Name) (rrType : Component)
    (step : QueryStep) (count : ℕ) : Prop where
  dstLabel : controller.dstLabel = zone ++ label
  rrType : controller.rrType = rrType
  step : controller.step = step
  finished : controller.nFinishedComps = zone.length
  tries : controller.nTryComps = count
  hint : controller.forwardingHint.isSome

variable {controller : IterativeQueryController} {zone label : Name} {rrType : Component}
  {step : QueryStep} {count : ℕ}

theorem At.zone_eq (h : controller.At zone label rrType step count) : controller.zone = zone := by
  rw [IterativeQueryController.zone, h.dstLabel, h.finished, Name.getPrefix, List.take_left']
  rfl

theorem At.queryLabel_eq (h : controller.At zone label rrType step count) :
    controller.queryLabel = askedLabel label count step := by
  rw [queryLabel, h.step]
  cases step with
  | queryNs =>
      rw [h.dstLabel, h.finished, h.tries, Name.getSubName, List.drop_left']
      · rfl
      · rfl
  | queryRr => simp [h.dstLabel, h.finished, askedLabel]
  | answerStub => simp [h.dstLabel, h.finished, askedLabel]
  | abort => simp [h.dstLabel, h.finished, askedLabel]

theorem At.queryType_eq (h : controller.At zone label rrType step count) :
    controller.queryType = askedType rrType step := by
  rw [queryType, h.step]
  cases step with
  | queryNs => rfl
  | queryRr => exact h.rrType
  | answerStub => exact h.rrType
  | abort => exact h.rrType

end IterativeQueryController

/-- A session whose controller waits in a zone for the answer to its query. -/
structure Session.Awaits (session : Session) (zone label : Name) (rrType : Component)
    (step : QueryStep) (count : ℕ) : Prop where
  position : session.controller.At zone label rrType step count
  last : session.controller.lastLabelType = IterativeQueryController.askedLabel label count step ++
    [IterativeQueryController.askedType rrType step]
  pending : ∃ interest, session.pending = some interest ∧ interest.name =
    Label.recordName zone (IterativeQueryController.askedLabel label count step)
      (IterativeQueryController.askedType rrType step)

/-- A session at the start of its work in a zone. -/
def Session.Enters (session : Session) (zone label : Name) (rrType : Component) : Prop :=
  session.Awaits zone label rrType (if label = [] then .queryRr else .queryNs) 1

/-- A session that has ended with a packet. -/
def Session.Delivers (session : Session) (data : Data) : Prop :=
  ∃ response, session.outcomes.head? = some (.ok (.succeed data response))

/-- A session that has ended with an exception. -/
def Session.Raises (session : Session) (fault : ControllerFault) : Prop :=
  session.outcomes.head? = some (.error fault)

/-- A session that has ended with a failure. -/
def Session.Fails (session : Session) : Prop :=
  session.outcomes.head? = some (.ok .fail)

theorem Session.Delivers.pending {session : Session} {data : Data} (h : session.Delivers data) :
    session.pending = none := by
  obtain ⟨response, hhead⟩ := h
  rw [Session.pending, hhead]

theorem Session.Raises.pending {session : Session} {fault : ControllerFault}
    (h : session.Raises fault) : session.pending = none := by
  rw [Session.pending, h]

theorem Session.Fails.pending {session : Session} (h : session.Fails) : session.pending = none := by
  rw [Session.pending, h]

namespace IterativeQueryController

variable {controller : IterativeQueryController} {zone label : Name} {rrType : Component}
  {step : QueryStep} {count : ℕ}

/-- A controller that has not ended sends its query. -/
theorem At.awaits (h : controller.At zone label rrType step count)
    (hrunning : step = .queryNs ∨ step = .queryRr) (outcomes : List Outcome) :
    Session.Awaits ⟨controller.expressLatest.1, controller.expressLatest.2 :: outcomes⟩ zone label
      rrType step count := by
  obtain ⟨hint, hhint⟩ := Option.isSome_iff_exists.mp h.hint
  have hended : controller.hasEnded = false := by
    rw [hasEnded, h.step]
    rcases hrunning with rfl | rfl <;> rfl
  have hmake : controller.makeLatestInterest = .ok
      (⟨Label.recordName zone (askedLabel label count step) (askedType rrType step), true,
        controller.interestLifetime, hint⟩,
      { controller with
        lastLabelType := askedLabel label count step ++ [askedType rrType step] }) := by
    rw [makeLatestInterest, hhint]
    simp only [hended, Bool.false_eq_true, if_false, h.zone_eq, h.queryLabel_eq, h.queryType_eq]
    simp [Query.toInterest, Label.recordName]
  rw [expressLatest, hmake]
  exact ⟨⟨h.dstLabel, h.rrType, h.step, h.finished, h.tries, h.hint⟩, rfl, _, rfl, rfl⟩

/-- The step of a controller that asks for the NS records of its label is checked at the end of
the label. -/
theorem advance_queryNs {next : IterativeQueryController} {validated : Data}
    {contentType : NdnsContentType} (hstep : controller.step = .queryNs) (hns : controller.onNsData validated contentType = .ok next) :
    controller.advance validated contentType = .ok next.checkLabelEnd := by
  rw [advance, hstep]
  simp only [hns, Except.map]

end IterativeQueryController

/-! ## Answers -/

namespace Session

open IterativeQueryController

/-- A new session enters the zone it starts in. -/
theorem enters_begin (zone label : Name) (rrType : Component) (interestLifetime : ℕ) :
    (begin (.make (zone ++ label) rrType interestLifetime zone.length)).Enters zone label
      rrType := by
  have hwhole : (zone ++ label).length = zone.length ↔ label = [] := by
    rw [List.length_append]
    simp
  unfold begin start Enters
  simp only [make, hwhole]
  split_ifs with hlabel
  · exact At.awaits ⟨rfl, rfl, rfl, rfl, rfl, rfl⟩ (Or.inr rfl) []
  · exact At.awaits ⟨rfl, rfl, rfl, rfl, rfl, rfl⟩ (Or.inl rfl) []

variable [PacketFormat] {session : Session} {zone label : Name} {rrType : Component}
  {step : QueryStep} {count : ℕ} {packet validated : Data} {contentType : NdnsContentType}

/-- An answer that leaves the controller at work makes it send its next query. -/
theorem Awaits.proceeds {next : IterativeQueryController} {zone' label' : Name}
    {step' : QueryStep} {count' : ℕ} (hunwrap : unwrap packet = some (validated, contentType))
    (hadvance : session.controller.advance validated contentType = .ok next)
    (hnext : next.At zone' label' rrType step' count')
    (hrunning : step' = .queryNs ∨ step' = .queryRr) :
    (session.handle (.data packet true)).Awaits zone' label' rrType step' count' := by
  have hconclude : next.conclude validated = next.expressLatest := by
    rw [conclude, hnext.step]
    rcases hrunning with rfl | rfl <;> rfl
  have hreact : session.react (.data packet true) = next.expressLatest := by
    change session.controller.onData packet true = _
    rw [onData, hunwrap]
    simp only [if_true, onDataValidated, hadvance, hconclude]
  rw [handle, hreact]
  exact hnext.awaits hrunning session.outcomes

/-- Inside the label, an AUTH record makes the controller try one component more. -/
theorem Awaits.auth (h : session.Awaits zone label rrType .queryNs count)
    (hunwrap : unwrap packet = some (packet, .auth)) (hcount : count < label.length) :
    (session.handle (.data packet true)).Awaits zone label rrType .queryNs (count + 1) := by
  have hposition := h.position
  have hadvance := @advance_queryNs session.controller
    { session.controller with nTryComps := session.controller.nTryComps + 1 } packet .auth
      hposition.step rfl
  refine Awaits.proceeds hunwrap hadvance ?_ (Or.inl rfl)
  have hinside : ¬ (zone ++ label).length < zone.length + (count + 1) := by
    rw [List.length_append]
    omega
  unfold checkLabelEnd
  simp only [hposition.dstLabel, hposition.finished, hposition.tries, if_neg hinside]
  exact ⟨rfl, hposition.rrType, hposition.step, rfl, rfl, hposition.hint⟩

/-- At the end of the label, an AUTH record makes the controller ask for the record. -/
theorem Awaits.auth_end (h : session.Awaits zone label rrType .queryNs label.length)
    (hunwrap : unwrap packet = some (packet, .auth)) (hrrType : rrType ≠ Label.nsRrType) :
    (session.handle (.data packet true)).Awaits zone label rrType .queryRr (label.length + 1) := by
  have hposition := h.position
  have hadvance := @advance_queryNs session.controller
    { session.controller with nTryComps := session.controller.nTryComps + 1 } packet .auth
      hposition.step rfl
  refine Awaits.proceeds hunwrap hadvance ?_ (Or.inr rfl)
  have hend : (zone ++ label).length < zone.length + (label.length + 1) := by
    rw [List.length_append]
    omega
  unfold checkLabelEnd
  simp only [hposition.dstLabel, hposition.finished, hposition.tries, hposition.rrType, if_pos hend,
    if_neg hrrType]
  exact ⟨rfl, rfl, rfl, rfl, rfl, hposition.hint⟩

/-- A delegation leads the controller into the next zone. -/
theorem Awaits.link {names : List Name} (h : session.Awaits zone label rrType .queryNs count)
    (hunwrap : unwrap packet = some (packet, .link)) (hnames : linkDelegations packet = some names)
    (hcount : count ≤ label.length) (honward : ¬ (count = label.length ∧ rrType = Label.nsRrType)) :
    (session.handle (.data packet true)).Enters (zone ++ label.take count) (label.drop count)
      rrType := by
  have hposition := h.position
  have hwhole : zone.length + count = (zone ++ label).length ↔ count = label.length := by
    rw [List.length_append, Nat.add_left_cancel_iff]
  have hlength : (zone ++ label.take count).length = zone.length + count := by
    rw [List.length_append, List.length_take, min_eq_left hcount]
  obtain ⟨lastLink, hns, hhint⟩ : ∃ lastLink,
      session.controller.onNsData packet .link = .ok { session.controller with
        lastLink := lastLink
        nFinishedComps := (zone ++ label.take count).length
        nTryComps := 1 } ∧
      ∀ controller : IterativeQueryController, controller.lastLink = lastLink →
        controller.forwardingHint.isSome := by
    refine ⟨if names.isEmpty then none else some packet, ?_, fun controller hlast ↦ ?_⟩
    · rw [onNsData, onNsLink, hnames, hlength]
      simp only [hposition.rrType, hposition.dstLabel, hposition.finished, hposition.tries, hwhole,
        if_neg honward]
    · rw [forwardingHint, hlast]
      split_ifs
      · rfl
      · exact Option.isSome_iff_exists.mpr ⟨names, hnames⟩
  refine Awaits.proceeds hunwrap (advance_queryNs hposition.step hns) ?_ (by split_ifs <;> simp)
  have hdst : zone ++ label = zone ++ label.take count ++ label.drop count := by
    rw [List.append_assoc, List.take_append_drop]
  have hend : (zone ++ label).length < (zone ++ label.take count).length + 1 ↔
      label.drop count = [] := by
    rw [List.drop_eq_nil_iff, hlength, List.length_append]
    omega
  unfold checkLabelEnd
  simp only [hposition.dstLabel, hend, hposition.rrType]
  split_ifs with hlabel hrrType
  · refine absurd ⟨hcount.antisymm (List.drop_eq_nil_iff.mp hlabel), hrrType⟩ honward
  · exact ⟨hdst, rfl, rfl, rfl, rfl, hhint _ rfl⟩
  · exact ⟨hdst, rfl, hposition.step, rfl, rfl, hhint _ rfl⟩

/-- A denial of an NS record makes the controller ask for the record, when its range convinces. -/
theorem Awaits.denial {range : Name × Name} (h : session.Awaits zone label rrType .queryNs count)
    (hunwrap : unwrap packet = some (validated, .doe))
    (hrange : Response.wireDecodeDoe validated.content = some range) (hcount : count ≤ label.length)
    (hconvincing : isAbsentByRange (label.take count ++ [Label.nsRrType]) range = true) :
    (session.handle (.data packet true)).Awaits zone label rrType .queryRr count := by
  have hposition := h.position
  have habsent : session.controller.isAbsentByDoe validated = .ok true := by
    rw [isAbsentByDoe, hrange, h.last]
    exact congrArg Except.ok hconvincing
  have hns : session.controller.onNsData validated .doe =
      .ok { session.controller with step := .queryRr } := by
    simp only [onNsData, onNsDoe, habsent]
  refine Awaits.proceeds hunwrap (advance_queryNs hposition.step hns) ?_ (Or.inr rfl)
  have hinside : ¬ (zone ++ label).length < zone.length + count := by
    rw [List.length_append]
    omega
  unfold checkLabelEnd
  simp only [hposition.dstLabel, hposition.finished, hposition.tries, if_neg hinside]
  exact ⟨rfl, hposition.rrType, rfl, rfl, rfl, hposition.hint⟩

/-- A denial that does not convince ends the session with an exception. -/
theorem Awaits.unconvinced {range : Name × Name}
    (h : session.Awaits zone label rrType .queryNs count)
    (hunwrap : unwrap packet = some (validated, .doe))
    (hrange : Response.wireDecodeDoe validated.content = some range)
    (hunconvincing : ¬ isAbsentByRange (label.take count ++ [Label.nsRrType]) range = true) :
    (session.handle (.data packet true)).Raises .unconvincingDenial := by
  have hns : session.controller.onNsData validated .doe = .error .unconvincingDenial := by
    rw [onNsData, onNsDoe, isAbsentByDoe, hrange, h.last]
    simp only [askedLabel, askedType, Bool.eq_false_of_not_eq_true hunconvincing]
  have hadvance : session.controller.advance validated .doe = .error .unconvincingDenial := by
    rw [advance, h.position.step]
    simp only [hns, Except.map]
  have hreact : (session.react (.data packet true)).2 = .error .unconvincingDenial := by
    change (session.controller.onData packet true).2 = _
    rw [onData, hunwrap]
    simp only [if_true, onDataValidated, hadvance]
  rw [Raises, handle, hreact]
  rfl

/-- The packet that lets the controller answer its stub is the result, when it can be read. -/
theorem delivers_of_advance {next : IterativeQueryController}
    (hunwrap : unwrap packet = some (validated, contentType))
    (hadvance : session.controller.advance validated contentType = .ok next)
    (hstep : next.step = .answerStub) (hlong : next.zone.length < validated.name.length)
    (hcontent : (parseBlocks validated.content).isSome) :
    (session.handle (.data packet true)).Delivers validated := by
  obtain ⟨⟨flag, response⟩, hresponse⟩ := @Response.fromData_isOk .default next.zone validated hlong
    (Or.inr (Or.inr hcontent))
  have hreact : (session.react (.data packet true)).2 = .ok (.succeed validated response) := by
    change (session.controller.onData packet true).2 = _
    rw [onData, hunwrap]
    simp only [if_true, onDataValidated, hadvance, conclude, hstep, parseFinalResponse, hresponse,
      Except.map]
  refine ⟨response, ?_⟩
  rw [handle, hreact]
  rfl

/-- Whatever answers the query for the record is the result. -/
theorem Awaits.delivers (h : session.Awaits zone label rrType .queryRr count)
    (hunwrap : unwrap packet = some (validated, contentType))
    (hlong : zone.length < validated.name.length)
    (hcontent : (parseBlocks validated.content).isSome) :
    (session.handle (.data packet true)).Delivers validated := by
  have hadvance : session.controller.advance validated contentType =
      .ok { session.controller with step := .answerStub } := by
    rw [advance, h.position.step]
  have hzone : ({ session.controller with step := .answerStub } :
      IterativeQueryController).zone = zone := h.position.zone_eq
  exact delivers_of_advance hunwrap hadvance rfl (hzone ▸ hlong) hcontent

/-- A query for a delegation ends with it. -/
theorem Awaits.delivers_link {names : List Name}
    (h : session.Awaits zone label Label.nsRrType .queryNs label.length)
    (hunwrap : unwrap packet = some (packet, .link)) (hnames : linkDelegations packet = some names)
    (hlong : zone.length < packet.name.length) (hcontent : (parseBlocks packet.content).isSome) :
    (session.handle (.data packet true)).Delivers packet := by
  have hposition := h.position
  have hwhole : zone.length + label.length = (zone ++ label).length := List.length_append.symm
  have hinside : ¬ (zone ++ label).length < (zone ++ label).length := lt_irrefl _
  have hadvance : session.controller.advance packet .link = .ok { session.controller with
      lastLink := if names.isEmpty then none else some packet
      step := .answerStub } := by
    rw [advance, hposition.step]
    simp only [onNsData, onNsLink, hnames, hposition.finished, hposition.tries, hposition.dstLabel,
      hposition.rrType, hwhole, and_self, if_true, Except.map, checkLabelEnd, if_neg hinside]
  have hzone : ({ session.controller with
      lastLink := if names.isEmpty then none else some packet
      step := .answerStub } : IterativeQueryController).zone = zone := hposition.zone_eq
  exact delivers_of_advance hunwrap hadvance rfl (hzone ▸ hlong) hcontent

/-- A query for an NS record that is an AUTH record ends with it, too. -/
theorem Awaits.delivers_auth (h : session.Awaits zone label Label.nsRrType .queryNs label.length)
    (hunwrap : unwrap packet = some (packet, .auth)) (hlong : zone.length < packet.name.length)
    (hcontent : (parseBlocks packet.content).isSome) :
    (session.handle (.data packet true)).Delivers packet := by
  have hposition := h.position
  have hend : (zone ++ label).length < zone.length + (label.length + 1) := by
    rw [List.length_append]
    omega
  have hadvance : session.controller.advance packet .auth = .ok { session.controller with
      nTryComps := session.controller.nTryComps + 1
      step := .answerStub } := by
    rw [advance, hposition.step]
    simp only [onNsData, Except.map, checkLabelEnd, hposition.dstLabel, hposition.finished,
      hposition.tries, hposition.rrType, if_pos hend, if_true]
  have hzone : ({ session.controller with
      nTryComps := session.controller.nTryComps + 1
      step := .answerStub } : IterativeQueryController).zone = zone := hposition.zone_eq
  exact delivers_of_advance hunwrap hadvance rfl (hzone ▸ hlong) hcontent

/-- Without an answer, a session ends with a failure. -/
theorem fails_of_timeout : (session.handle .timeout).Fails := rfl

end Session

end Ndns.Clients
