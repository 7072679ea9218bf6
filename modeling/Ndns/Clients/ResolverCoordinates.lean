import Ndns.Clients.ResolverSafety

/-!
# Coordinates of the Resolver

`m_nFinishedComps` and `m_nTryComps` are changed by separate branches, and the test after them is
shared.  Together they keep the label that is asked for inside the requested one, whatever responses
arrive, in whatever order, and even after the resolution has ended.
-/

namespace Ndns.Clients

open Ndn

namespace IterativeQueryController

variable {controller next middle : IterativeQueryController} {data : Data}
  {contentType : NdnsContentType} {dstLabel : Name} {rrType : Component} {startIndex : ℕ}

/-- The position of a controller that was started for a label, a type and a start index. -/
structure Coordinates (dstLabel : Name) (rrType : Component) (startIndex : ℕ)
    (controller : IterativeQueryController) : Prop where
  label_eq : controller.dstLabel = dstLabel
  type_eq : controller.rrType = rrType
  started : startIndex ≤ controller.nFinishedComps
  finished : controller.nFinishedComps ≤ dstLabel.length
  tries : 1 ≤ controller.nTryComps
  hint : controller.forwardingHint.isSome
  within : controller.step = .queryNs →
    controller.nFinishedComps + controller.nTryComps ≤ dstLabel.length

/-- What an Interest asks for in the two steps in which one is made. -/
structure AsksWithin (dstLabel : Name) (rrType : Component) (controller : IterativeQueryController)
    (interest : Interest) : Prop where
  running : controller.step = .queryNs ∨ controller.step = .queryRr
  name : ∃ label type,
    interest.name = Label.recordName (dstLabel.getPrefix controller.nFinishedComps) label type ∧
      (controller.step = .queryNs → type = Label.nsRrType ∧
        label.length = controller.nTryComps ∧
        dstLabel.getPrefix controller.nFinishedComps ++ label <+: dstLabel) ∧
      (controller.step = .queryRr → type = rrType ∧
        dstLabel.getPrefix controller.nFinishedComps ++ label = dstLabel)

/-- The shared test re-establishes the bound in step QUERY_NS. -/
theorem checkLabelEnd_within (h : controller.checkLabelEnd.step = .queryNs) :
    controller.nFinishedComps + controller.nTryComps ≤ controller.dstLabel.length := by
  by_contra hover
  have hend : controller.checkLabelEnd.step =
      if controller.rrType = Label.nsRrType then .answerStub else .queryRr := by
    rw [checkLabelEnd, if_pos (not_le.mp hover)]
  rw [h] at hend
  split_ifs at hend

/-- An answer in step QUERY_NS moves the first counter at most to the end of what was asked for. -/
theorem onNsData_finished (h : controller.onNsData data contentType = .ok middle) :
    controller.nFinishedComps ≤ middle.nFinishedComps ∧
      middle.nFinishedComps ≤ controller.nFinishedComps + controller.nTryComps := by
  rcases onNsData_eq_ok h with ⟨-, hdoe⟩ | ⟨-, hlink⟩ | ⟨-, rfl⟩ | ⟨-, -, -, rfl⟩
  · obtain ⟨rfl, -⟩ := onNsDoe_eq_ok hdoe
    exact ⟨le_rfl, Nat.le_add_right _ _⟩
  · obtain ⟨lastLink, -, ⟨rfl, -⟩ | ⟨rfl, -⟩⟩ := onNsLink_eq_ok hlink
    · exact ⟨le_rfl, Nat.le_add_right _ _⟩
    · exact ⟨Nat.le_add_right _ _, le_rfl⟩
  · exact ⟨le_rfl, Nat.le_add_right _ _⟩
  · exact ⟨le_rfl, Nat.le_add_right _ _⟩

/-- An answer keeps the coordinates in every step, also in the ones that have ended. -/
theorem Coordinates.advance (h : controller.Coordinates dstLabel rrType startIndex)
    (hadvance : controller.advance data contentType = .ok next) :
    next.Coordinates dstLabel rrType startIndex := by
  cases hended : controller.hasEnded with
  | true =>
      have hnext : next = { controller with step := .abort } := by
        unfold IterativeQueryController.advance at hadvance
        split at hadvance
        · simp [hasEnded, *] at hended
        · simp [hasEnded, *] at hended
        · exact (Except.ok.inj hadvance).symm
      subst hnext
      exact ⟨h.label_eq, h.type_eq, h.started, h.finished, h.tries, h.hint, by simp⟩
  | false =>
      have hkeeps := advance_keeps hadvance hended
      rcases advance_eq_ok hadvance hended with ⟨hstep, middle, hmiddle, rfl⟩ | ⟨-, rfl⟩
      · have hfinished := onNsData_finished hmiddle
        have hwithin := h.within hstep
        have hstarted := h.started
        refine ⟨hkeeps.dstLabel.trans h.label_eq, hkeeps.rrType.trans h.type_eq, ?_, ?_,
          hkeeps.tries h.tries, hkeeps.hint h.hint, fun hns ↦ ?_⟩
        · rw [checkLabelEnd_nFinishedComps]
          omega
        · rw [checkLabelEnd_nFinishedComps]
          omega
        · have hend := checkLabelEnd_within hns
          have hlabel := hkeeps.dstLabel.trans h.label_eq
          rw [checkLabelEnd_dstLabel] at hlabel
          rwa [checkLabelEnd_nFinishedComps, checkLabelEnd_nTryComps, ← hlabel]
      · exact ⟨h.label_eq, h.type_eq, h.started, h.finished, h.tries, h.hint, by simp⟩

/-- In the steps in which an Interest is made, the one that is expressed stays within the label. -/
theorem Coordinates.expressLatest (h : controller.Coordinates dstLabel rrType startIndex)
    (hrunning : controller.hasEnded = false) :
    controller.expressLatest.1.Coordinates dstLabel rrType startIndex ∧
      ∃ interest, controller.expressLatest.2 = .ok (.express interest) ∧
        controller.expressLatest.1.AsksWithin dstLabel rrType interest := by
  obtain ⟨delegations, hhint⟩ := Option.isSome_iff_exists.mp h.hint
  have hexpress : controller.expressLatest = (({ controller with
      lastLabelType := controller.queryLabel ++ [controller.queryType] } :
        IterativeQueryController), .ok (.express
          ⟨Label.recordName controller.zone controller.queryLabel controller.queryType, true,
            controller.interestLifetime, delegations⟩)) := by
    unfold IterativeQueryController.expressLatest makeLatestInterest
    rw [hhint]
    simp only [hrunning, Bool.false_eq_true, if_false]
    rfl
  rw [hexpress]
  refine ⟨⟨h.label_eq, h.type_eq, h.started, h.finished, h.tries, h.hint, h.within⟩, _, rfl,
    step_of_running hrunning, controller.queryLabel, controller.queryType, ?_, fun hns ↦ ?_,
    fun hrr ↦ ?_⟩
  · rw [zone, h.label_eq]
  · replace hns : controller.step = .queryNs := hns
    have hwithin := h.within hns
    simp only [queryLabel, queryType, hns, h.label_eq, Name.getPrefix, Name.getSubName]
    refine ⟨trivial, ?_, ?_⟩
    · rw [List.length_take, List.length_drop]
      omega
    · rw [← List.take_add]
      exact List.take_prefix _ _
  · replace hrr : controller.step = .queryRr := hrr
    simp only [queryLabel, queryType, hrr, h.label_eq, Name.getPrefix]
    exact ⟨h.type_eq, List.take_append_drop _ _⟩

/-- What every handler leaves: the coordinates, an Interest within the label if there is one, and
no call of `makeLatestInterest` outside of the two steps. -/
structure StaysWithin (dstLabel : Name) (rrType : Component) (startIndex : ℕ)
    (result : IterativeQueryController × Outcome) : Prop where
  coordinates : result.1.Coordinates dstLabel rrType startIndex
  asks : ∀ interest, result.2 = .ok (.express interest) →
    result.1.AsksWithin dstLabel rrType interest
  expected : result.2 ≠ .error .unexpectedState

theorem Coordinates.staysWithin_expressLatest
    (h : controller.Coordinates dstLabel rrType startIndex)
    (hrunning : controller.hasEnded = false) :
    StaysWithin dstLabel rrType startIndex controller.expressLatest := by
  obtain ⟨hnext, interest, hinterest, hasks⟩ := h.expressLatest hrunning
  refine ⟨hnext, fun other hother ↦ ?_, ?_⟩
  · cases hinterest.symm.trans hother
    exact hasks
  · rw [hinterest]
    simp

theorem Coordinates.conclude (h : controller.Coordinates dstLabel rrType startIndex) (data : Data) :
    StaysWithin dstLabel rrType startIndex (controller.conclude data) := by
  have hresponse : controller.parseFinalResponse data ≠ .error .unexpectedState := by
    unfold parseFinalResponse
    split <;> simp
  unfold IterativeQueryController.conclude
  cases hstep : controller.step with
  | queryNs => exact h.staysWithin_expressLatest (by simp [hasEnded, hstep])
  | queryRr => exact h.staysWithin_expressLatest (by simp [hasEnded, hstep])
  | abort => exact ⟨h, by simp, by simp⟩
  | answerStub =>
      cases hparse : controller.parseFinalResponse data with
      | ok response => exact ⟨h, by simp [Except.map], by simp [Except.map]⟩
      | error fault =>
          rw [hparse] at hresponse
          refine ⟨h, by simp [Except.map], fun hfault ↦ hresponse ?_⟩
          simpa [Except.map] using hfault

/-- The exceptions of the `switch` are about the packet. -/
theorem advance_ne_unexpectedState :
    controller.advance data contentType ≠ .error .unexpectedState := by
  have hdoe : controller.onNsDoe data ≠ .error .unexpectedState := by
    unfold onNsDoe isAbsentByDoe
    cases Response.wireDecodeDoe data.content with
    | none => simp
    | some range => cases hrange : isAbsentByRange controller.lastLabelType range <;> simp [hrange]
  have hlink : controller.onNsLink data ≠ .error .unexpectedState := by
    unfold onNsLink
    split
    · simp
    · simp only
      split_ifs <;> simp
  have hns : controller.onNsData data contentType ≠ .error .unexpectedState := by
    unfold onNsData
    split
    · exact hdoe
    · exact hlink
    · simp
    · simp
  unfold IterativeQueryController.advance
  split
  · cases hmiddle : controller.onNsData data contentType with
    | ok middle => simp [Except.map]
    | error fault =>
        rw [hmiddle] at hns
        simpa [Except.map] using hns
  · simp
  · simp

theorem Coordinates.onDataValidated (h : controller.Coordinates dstLabel rrType startIndex)
    (data : Data) (contentType : NdnsContentType) :
    StaysWithin dstLabel rrType startIndex (controller.onDataValidated data contentType) := by
  rcases onDataValidated_cases controller data contentType with
    ⟨next, hadvance, hconclude⟩ | ⟨fault, hadvance, hfault⟩
  · rw [hconclude]
    exact (h.advance hadvance).conclude data
  · rw [hfault]
    refine ⟨h, nofun, fun hunexpected ↦ ?_⟩
    cases hunexpected
    exact advance_ne_unexpectedState hadvance

theorem Coordinates.start {interestLifetime : ℕ} (h : startIndex ≤ dstLabel.length) :
    StaysWithin dstLabel rrType startIndex
      (make dstLabel rrType interestLifetime startIndex).start := by
  unfold IterativeQueryController.start
  split_ifs with hend
  · have hcoordinates : Coordinates dstLabel rrType startIndex
        { make dstLabel rrType interestLifetime startIndex with step := .queryRr } :=
      ⟨rfl, rfl, le_rfl, h, le_rfl, rfl, nofun⟩
    exact hcoordinates.staysWithin_expressLatest rfl
  · have hcoordinates : Coordinates dstLabel rrType startIndex
        (make dstLabel rrType interestLifetime startIndex) := by
      refine ⟨rfl, rfl, le_rfl, h, le_rfl, rfl, fun _ ↦ ?_⟩
      exact Nat.lt_of_le_of_ne h fun hsame ↦ hend hsame.symm
    exact hcoordinates.staysWithin_expressLatest rfl

end IterativeQueryController

namespace Session

open IterativeQueryController

variable {dstLabel : Name} {rrType : Component} {startIndex : ℕ} {session session' : Session}

/-- The coordinates of a session, and that no handler so far was in an unexpected step. -/
structure Positioned (dstLabel : Name) (rrType : Component) (startIndex : ℕ) (session : Session) :
    Prop where
  last : ∀ outcome ∈ session.outcomes.head?,
    StaysWithin dstLabel rrType startIndex (session.controller, outcome)
  expected : Except.error .unexpectedState ∉ session.outcomes
  handled : session.outcomes ≠ []

theorem begin_positioned {interestLifetime : ℕ} (h : startIndex ≤ dstLabel.length) :
    Positioned dstLabel rrType startIndex
      (begin (make dstLabel rrType interestLifetime startIndex)) := by
  have hstart : StaysWithin dstLabel rrType startIndex
      (make dstLabel rrType interestLifetime startIndex).start := Coordinates.start h
  refine ⟨fun outcome houtcome ↦ ?_, fun hmem ↦ ?_, List.cons_ne_nil _ _⟩
  · cases houtcome
    exact hstart
  · exact hstart.expected (List.mem_singleton.mp hmem).symm

theorem Positioned.coordinates (h : session.Positioned dstLabel rrType startIndex) :
    session.controller.Coordinates dstLabel rrType startIndex := by
  obtain ⟨outcome, rest, houtcomes⟩ := List.exists_cons_of_ne_nil h.handled
  exact (h.last outcome (by rw [houtcomes]; rfl)).coordinates

variable [PacketFormat]

/-- A response arrives, whether or not the session waits for it. -/
def Receives (session session' : Session) : Prop := ∃ event, session' = session.handle event

/-- One response. -/
theorem Receives.positioned (hreceives : session.Receives session')
    (h : session.Positioned dstLabel rrType startIndex) :
    session'.Positioned dstLabel rrType startIndex := by
  obtain ⟨event, rfl⟩ := hreceives
  have hcoordinates := h.coordinates
  have hfail : StaysWithin dstLabel rrType startIndex (session.controller, .ok .fail) :=
    ⟨hcoordinates, nofun, nofun⟩
  have hreact : StaysWithin dstLabel rrType startIndex (session.react event) := by
    cases event with
    | networkNack => exact hfail
    | timeout => exact hfail
    | data packet accepted =>
        change StaysWithin dstLabel rrType startIndex (session.controller.onData packet accepted)
        unfold onData
        split
        · exact ⟨hcoordinates, nofun, nofun⟩
        · split_ifs
          · exact hcoordinates.onDataValidated _ _
          · exact hfail
  refine ⟨fun outcome houtcome ↦ ?_, fun hmem ↦ ?_, List.cons_ne_nil _ _⟩
  · cases houtcome
    exact hreact
  · rcases List.mem_cons.mp hmem with hnew | hold
    · exact hreact.expected hnew.symm
    · exact h.expected hold

/-- In every state that any sequence of responses leads to, the counters stay between the start
index and the end of the label, the Interest that was expressed last asks within the label, and
`makeLatestInterest` was called in the two steps only. -/
theorem coordinates_run {interestLifetime : ℕ} (hstart : startIndex ≤ dstLabel.length)
    (hrun : Relation.ReflTransGen Receives
      (begin (make dstLabel rrType interestLifetime startIndex)) session) :
    startIndex ≤ session.controller.nFinishedComps ∧
      session.controller.nFinishedComps ≤ dstLabel.length ∧ 1 ≤ session.controller.nTryComps ∧
      (∀ interest, session.pending = some interest →
        session.controller.AsksWithin dstLabel rrType interest) ∧
      Except.error .unexpectedState ∉ session.outcomes := by
  have hpositioned : session.Positioned dstLabel rrType startIndex := by
    induction hrun with
    | refl => exact begin_positioned hstart
    | tail _ hreceives ih => exact hreceives.positioned ih
  have hcoordinates := hpositioned.coordinates
  refine ⟨hcoordinates.started, hcoordinates.finished, hcoordinates.tries, fun interest hpending ↦ ?_,
    hpositioned.expected⟩
  exact (hpositioned.last _ (pending_eq_some hpending)).asks interest rfl

end Session

section Examples

attribute [local instance] ndnPacketFormat

/-- A lookup of `/host`, after the delegation of `/host` has arrived. -/
theorem coordinates_run_host :
    (rootSession.handle (.data hostLink true)).controller.nFinishedComps ≤ [host].length ∧
      Except.error .unexpectedState ∉ (rootSession.handle (.data hostLink true)).outcomes := by
  obtain ⟨-, hfinished, -, -, hexpected⟩ :=
    Session.coordinates_run (Nat.zero_le [host].length)
      (Relation.ReflTransGen.single ⟨.data hostLink true, rfl⟩)
  exact ⟨hfinished, hexpected⟩

end Examples

end Ndns.Clients
