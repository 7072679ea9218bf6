import Ndns.Clients.ResolverSafety

/-!
# How Many Interests a Resolution Takes

Every answer that step QUERY_NS knows moves the end of the query by one component, or leads to the
last query.  The sum of the two counters therefore bounds the number of Interests.  An answer of
another content type is only logged: the same Interest follows, and nothing has moved.
-/

namespace Ndns.Clients

open Ndn

namespace IterativeQueryController

variable {controller next : IterativeQueryController} {data : Data} {contentType : NdnsContentType}

/-- The content types that step QUERY_NS has a branch for. -/
def KnownInNs (contentType : NdnsContentType) : Prop :=
  contentType = .doe ∨ contentType = .link ∨ contentType = .auth

/-- How far the query reaches into the requested label. -/
def queryEnd (controller : IterativeQueryController) : ℕ :=
  controller.nFinishedComps + controller.nTryComps

@[simp]
theorem checkLabelEnd_queryEnd (controller : IterativeQueryController) :
    controller.checkLabelEnd.queryEnd = controller.queryEnd := by
  simp [queryEnd]

/-- Without having reached its end the label is asked for in the same step. -/
theorem checkLabelEnd_queryNs (h : controller.checkLabelEnd.step = .queryNs) :
    controller.step = .queryNs ∧ controller.queryEnd ≤ controller.dstLabel.length := by
  unfold checkLabelEnd at h
  by_cases hend : controller.dstLabel.length < controller.nFinishedComps + controller.nTryComps
  · rw [if_pos hend] at h
    simp only at h
    split_ifs at h
  · rw [if_neg hend] at h
    exact ⟨h, not_lt.mp hend⟩

/-- A known answer after which step QUERY_NS goes on has moved the query by one component. -/
theorem onNsData_queryEnd {middle : IterativeQueryController}
    (hknown : KnownInNs contentType) (h : controller.onNsData data contentType = .ok middle)
    (hagain : middle.step = .queryNs) : middle.queryEnd = controller.queryEnd + 1 := by
  rcases onNsData_eq_ok h with ⟨-, hdoe⟩ | ⟨-, hlink⟩ | ⟨-, rfl⟩ | ⟨hdoe, hlink, hauth, -⟩
  · obtain ⟨rfl, -⟩ := onNsDoe_eq_ok hdoe
    cases hagain
  · obtain ⟨lastLink, -, ⟨rfl, -⟩ | ⟨rfl, -⟩⟩ := onNsLink_eq_ok hlink
    · cases hagain
    · rfl
  · rfl
  · rcases hknown with hcase | hcase | hcase
    · exact absurd hcase hdoe
    · exact absurd hcase hlink
    · exact absurd hcase hauth

/-- What a known answer leads to when another Interest follows. -/
theorem advance_queryEnd (hrunning : controller.hasEnded = false)
    (hknown : controller.step = .queryNs → KnownInNs contentType)
    (h : controller.advance data contentType = .ok next) (hnext : next.hasEnded = false) :
    controller.step = .queryNs ∧
      (next.step = .queryNs → next.queryEnd = controller.queryEnd + 1 ∧
        next.queryEnd ≤ next.dstLabel.length) := by
  rcases advance_eq_ok h hrunning with ⟨hstep, middle, hmiddle, rfl⟩ | ⟨-, rfl⟩
  · refine ⟨hstep, fun hagain ↦ ?_⟩
    obtain ⟨hmiddleStep, hinside⟩ := checkLabelEnd_queryNs hagain
    rw [checkLabelEnd_queryEnd, checkLabelEnd_dstLabel]
    exact ⟨onNsData_queryEnd (hknown hstep) hmiddle hmiddleStep, hinside⟩
  · simp [hasEnded] at hnext

/-- An answer of another content type changes nothing. -/
theorem advance_unknown (hstep : controller.step = .queryNs)
    (hinside : controller.queryEnd ≤ controller.dstLabel.length)
    (hunknown : ¬ KnownInNs contentType) :
    controller.advance data contentType = .ok controller := by
  have hsame : controller.onNsData data contentType = .ok controller := by
    unfold onNsData
    split
    · exact absurd (Or.inl rfl) hunknown
    · exact absurd (Or.inr (Or.inl rfl)) hunknown
    · exact absurd (Or.inr (Or.inr rfl)) hunknown
    · rfl
  have hend : controller.checkLabelEnd = controller := by
    unfold checkLabelEnd
    exact if_neg (not_lt.mpr hinside)
  rw [advance, hstep]
  simp only [hsame, Except.map, hend]

/-- Only a controller that has not ended goes on to another Interest. -/
theorem running_of_conclude {interest : Interest}
    (h : controller.conclude data = (next, .ok (.express interest))) :
    controller.hasEnded = false := by
  unfold conclude at h
  cases hstep : controller.step with
  | queryNs => simp [hasEnded, hstep]
  | queryRr => simp [hasEnded, hstep]
  | answerStub =>
      rw [hstep] at h
      cases hparse : controller.parseFinalResponse data <;> simp [hparse, Except.map] at h
  | abort =>
      rw [hstep] at h
      simp at h

end IterativeQueryController

namespace Session

open IterativeQueryController

variable {session session' : Session} {interest : Interest} {startIndex : ℕ}

/-- Whether a handler has expressed an Interest. -/
def expresses : Outcome → Bool
  | .ok (.express _) => true
  | _ => false

/-- The number of Interests a resolution has expressed, whoever has answered them. -/
def expressed (session : Session) : ℕ := session.outcomes.countP expresses

/-- No more Interests than the part of the label behind the start index has components, and one
more; in step QUERY_NS one for each component the query has moved by. -/
structure WithinBudget (startIndex : ℕ) (session : Session) : Prop where
  total : session.expressed + startIndex ≤ session.controller.dstLabel.length + 1
  position : ∀ interest, session.pending = some interest → session.controller.step = .queryNs →
    session.expressed + startIndex ≤ session.controller.queryEnd ∧
      session.controller.queryEnd ≤ session.controller.dstLabel.length

variable [PacketFormat]

theorem begin_withinBudget {dstLabel : Name} {rrType : Component} {interestLifetime : ℕ}
    (hstart : startIndex ≤ dstLabel.length) :
    (begin (.make dstLabel rrType interestLifetime startIndex)).WithinBudget startIndex := by
  have hcount : (begin (.make dstLabel rrType interestLifetime startIndex)).expressed ≤ 1 :=
    List.countP_le_length
  have hdst : (begin (.make dstLabel rrType interestLifetime startIndex)).controller.dstLabel =
      dstLabel := (Reachable.request ⟨interestLifetime, startIndex, .refl⟩).1
  have hposition : (begin (.make dstLabel rrType interestLifetime startIndex)).controller.step =
      .queryNs → startIndex < dstLabel.length ∧
        (begin (.make dstLabel rrType interestLifetime startIndex)).controller.queryEnd =
          startIndex + 1 := by
    intro hstep
    unfold begin start at hstep ⊢
    split_ifs at hstep ⊢ with hend
    · simp [expressLatest, makeLatestInterest, make, forwardingHint, hasEnded] at hstep
    · simp only [make] at hend
      exact ⟨by omega, by simp [expressLatest, makeLatestInterest, make, forwardingHint, hasEnded,
        queryEnd]⟩
  refine ⟨by rw [hdst]; omega, fun interest hpending hstep ↦ ?_⟩
  obtain ⟨hinside, hend⟩ := hposition hstep
  rw [hdst, hend]
  omega

/-- In step QUERY_NS the packet is a denial, a delegation or an authority marker. -/
def Expects (controller : IterativeQueryController) : Event → Prop
  | .data packet _ => controller.step = .queryNs →
      ∀ inner contentType, unwrap packet = some (inner, contentType) → KnownInNs contentType
  | .networkNack | .timeout => True

/-- A step of a resolution on an event it expects. -/
inductive ExpectedStep : Session → Session → Prop
  | event {session : Session} {interest : Interest} {event : Event}
      (hpending : session.pending = some interest) (hanswers : event.answers interest)
      (hexpected : Expects session.controller event) :
      ExpectedStep session (session.handle event)

theorem ExpectedStep.step (h : ExpectedStep session session') : Step session session' := by
  obtain ⟨hpending, hanswers, -⟩ := h
  exact .event hpending hanswers

theorem expressed_handle (session : Session) (event : Event) :
    (session.handle event).expressed =
      session.expressed + if expresses (session.react event).2 then 1 else 0 := by
  unfold expressed handle
  rw [List.countP_cons]

theorem ExpectedStep.withinBudget (hstep : ExpectedStep session session')
    (hinvariant : session.Invariant) (h : session.WithinBudget startIndex) :
    session'.WithinBudget startIndex := by
  obtain ⟨hpending, hanswers, hexpected⟩ := hstep
  rename_i awaited event
  have hasks := hinvariant.asks awaited hpending
  have hdst := (react_request session event hasks.running).1
  by_cases hexpress : ∃ interest, (session.react event).2 = .ok (.express interest)
  swap
  · have hcount : expresses (session.react event).2 = false := by
      unfold expresses
      split
      case h_1 interest houtcome => exact absurd ⟨interest, houtcome⟩ hexpress
      case h_2 => rfl
    refine ⟨?_, fun interest hnext ↦ absurd ⟨interest, pending_handle.mp hnext⟩ hexpress⟩
    rw [expressed_handle, hcount, if_neg Bool.false_ne_true, add_zero]
    exact h.total.trans_eq (by rw [← hdst]; rfl)
  obtain ⟨interest, hexpress⟩ := hexpress
  cases event with
  | networkNack => cases hexpress
  | timeout => cases hexpress
  | data packet accepted =>
      have hreact : session.controller.onData packet accepted =
          ((session.react (.data packet accepted)).1, .ok (.express interest)) :=
        Prod.ext rfl hexpress
      obtain ⟨inner, contentType, middle, hunwrap, -, hadvance, hconclude⟩ :=
        onData_continues hreact (Or.inl ⟨interest, rfl⟩)
      obtain ⟨hns, hmoved⟩ := advance_queryEnd hasks.running
        (fun hns ↦ hexpected hns inner contentType hunwrap) hadvance (running_of_conclude hconclude)
      obtain ⟨hstepEq, hfinished, htries⟩ := conclude_position middle inner
      rw [hconclude] at hstepEq hfinished htries
      obtain ⟨hbudget, hinside⟩ := h.position awaited hpending hns
      have hkeeps := advance_keeps hadvance hasks.running
      have hcount : (session.handle (.data packet accepted)).expressed = session.expressed + 1 := by
        rw [expressed_handle, hexpress]
        rfl
      have hdst' : (session.handle (.data packet accepted)).controller.dstLabel =
        session.controller.dstLabel := hdst
      refine ⟨by rw [hcount, hdst']; omega, fun _ _ hagain ↦ ?_⟩
      have hend : (session.handle (.data packet accepted)).controller.queryEnd = middle.queryEnd := by
        simp only [queryEnd]
        exact congrArg₂ _ hfinished htries
      obtain ⟨hone, hwithin⟩ := hmoved (hstepEq.symm.trans hagain)
      rw [hcount, hdst', hend]
      rw [hkeeps.dstLabel] at hwithin
      omega

/-- In every run whose steps all meet an expected event, the number of Interests is bounded by the
part of the label behind the start index. -/
theorem expressed_le {dstLabel : Name} {rrType : Component} {interestLifetime : ℕ}
    (hstart : startIndex ≤ dstLabel.length)
    (hrun : Relation.ReflTransGen ExpectedStep
      (begin (.make dstLabel rrType interestLifetime startIndex)) session) :
    session.expressed ≤ dstLabel.length - startIndex + 1 := by
  have hreachable : ∀ {later}, Relation.ReflTransGen ExpectedStep
      (begin (.make dstLabel rrType interestLifetime startIndex)) later →
      later.Reachable dstLabel rrType := fun hlater ↦
    ⟨interestLifetime, startIndex, Relation.ReflTransGen.mono (fun _ _ hstep ↦ hstep.step) _ _ hlater⟩
  have hbudget : session.WithinBudget startIndex := by
    induction hrun with
    | refl => exact begin_withinBudget hstart
    | tail hprevious hstep ih => exact hstep.withinBudget (hreachable hprevious).invariant ih
  have htotal := hbudget.total
  rw [(hreachable hrun).request.1] at htotal
  omega

/-- After an unexpected answer the session asks for the same record again. -/
theorem repeats {dstLabel : Name} {rrType : Component} {packet inner : Data}
    {contentType : NdnsContentType} (hreachable : session.Reachable dstLabel rrType)
    (hpending : session.pending = some interest) (hmatches : packet.matches interest)
    (hstep : session.controller.step = .queryNs)
    (hinside : session.controller.queryEnd ≤ dstLabel.length)
    (hunwrap : unwrap packet = some (inner, contentType)) (hunknown : ¬ KnownInNs contentType) :
    ∃ again, (session.handle (.data packet true)).pending = some again ∧
      again.name = interest.name ∧
      (session.handle (.data packet true)).controller.step = .queryNs ∧
      (session.handle (.data packet true)).controller.queryEnd = session.controller.queryEnd := by
  have hasks := hreachable.invariant.asks interest hpending
  have hinside' : session.controller.queryEnd ≤ session.controller.dstLabel.length := by
    rwa [hreachable.request.1]
  obtain ⟨again, hagain⟩ := expressLatest_outcome hasks.running hasks.hint
  have hreact : session.react (.data packet true) = session.controller.expressLatest := by
    change session.controller.onData packet true = _
    rw [onData, hunwrap]
    simp only [if_true, onDataValidated, advance_unknown hstep hinside' hunknown, conclude, hstep]
  have hpending' : (session.handle (.data packet true)).pending = some again :=
    pending_handle.mpr (by rw [hreact, hagain])
  have hnext : Step session (session.handle (.data packet true)) := .event hpending hmatches
  have hasks' := (hnext.invariant hreachable.invariant).asks again hpending'
  obtain ⟨hsame, hfinished, htries⟩ := conclude_position session.controller inner
  rw [conclude, hstep] at hsame hfinished htries
  change (session.react (.data packet true)).1.Asks again at hasks'
  change ∃ again, _ ∧ _ ∧ (session.react (.data packet true)).1.step = _ ∧
    (session.react (.data packet true)).1.queryEnd = _
  rw [hreact] at hasks' ⊢
  refine ⟨again, hpending', ?_, hsame, congrArg₂ _ hfinished htries⟩
  rw [hasks'.name, hasks.name]
  simp only [zone, queryLabel, queryType, hsame, hstep, hfinished, htries,
    (expressLatest_request session.controller).1]

end Session

section Examples

attribute [local instance] ndnPacketFormat

/-- An answer to the first query of the root session, with the content type of a text record. -/
def textAnswer : Data :=
  ⟨Label.recordName [] [host] Label.nsRrType ++ [firstVersion], NdnsContentType.resp.toCode, 0, [],
    [], []⟩

/-- A delegation of the label of the root session, to nowhere. -/
def linkAnswer : Data :=
  ⟨Label.recordName [] [host] Label.nsRrType ++ [firstVersion], NdnsContentType.link.toCode, 0, [],
    [], []⟩

theorem expressed_le_link :
    (rootSession.handle (.data linkAnswer true)).expressed ≤ 1 - 0 + 1 := by
  have hexpected : Session.Expects rootSession.controller (.data linkAnswer true) := by
    intro _ inner contentType hunwrap
    rw [show IterativeQueryController.unwrap linkAnswer = some (linkAnswer, .link) from rfl] at hunwrap
    cases hunwrap
    exact Or.inr (Or.inl rfl)
  have hstep : Session.ExpectedStep rootSession (rootSession.handle (.data linkAnswer true)) :=
    @Session.ExpectedStep.event _ rootSession ⟨Label.recordName [] [host] Label.nsRrType, true, 4000, []⟩
      (.data linkAnswer true) rfl (List.prefix_append _ _) hexpected
  exact @Session.expressed_le _ 0 _ [host] Label.txtRrType 4000 (by decide) (.single hstep)

/-- A responder that answers a query for a delegation with a text record is asked again, as often
as it likes. -/
theorem expressed_unbounded : ¬ ∃ bound, ∀ session,
    Relation.ReflTransGen Session.Step (.begin (.make [host] Label.txtRrType 4000 0)) session →
      session.expressed ≤ bound := by
  have hrepeats : ∀ count, ∃ session interest,
      Relation.ReflTransGen Session.Step rootSession session ∧ session.pending = some interest ∧
        interest.name = Label.recordName [] [host] Label.nsRrType ∧
        session.controller.step = .queryNs ∧ session.controller.queryEnd = 1 ∧
        session.expressed = count + 1 := by
    intro count
    induction count with
    | zero => exact ⟨rootSession, _, .refl, rfl, rfl, rfl, rfl, rfl⟩
    | succ count ih =>
        obtain ⟨session, interest, hrun, hpending, hname, hstep, hend, hexpressed⟩ := ih
        have hmatches : textAnswer.matches interest := by
          rw [Data.matches, hname]
          exact List.prefix_append _ _
        obtain ⟨again, hagain, hsame, hstep', hend'⟩ := Session.repeats ⟨4000, 0, hrun⟩ hpending
          hmatches hstep (by rw [hend]; decide) (show _ = some (textAnswer, .resp) from rfl)
          (by unfold IterativeQueryController.KnownInNs; decide)
        have hnext : Session.Step session (session.handle (.data textAnswer true)) :=
          .event hpending hmatches
        refine ⟨_, again, hrun.tail hnext, hagain, hsame.trans hname, hstep',
          hend'.trans hend, ?_⟩
        rw [Session.expressed_handle, Session.pending_handle.mp hagain, hexpressed]
        rfl
  rintro ⟨bound, hbound⟩
  obtain ⟨session, -, hrun, -, -, -, -, hexpressed⟩ := hrepeats bound
  have hle := hbound session hrun
  omega

end Examples

end Ndns.Clients
