import Ndns.Clients.IterativeQueryController

/-!
# Runs of the Resolver

Every session that waits for an answer waits for the answer to the Interest its controller
describes, and every handler before the last one has expressed an Interest.  From this invariant
follow what a resolution can report, what makes it advance, and that it reports once.
-/

namespace Ndns.Clients

open Ndn

namespace IterativeQueryController

variable {controller next : IterativeQueryController} {data packet : Data}
  {contentType : NdnsContentType} {interest : Interest} {response : Response}

/-! ## Handlers one by one -/

/-- Where step QUERY_NS is: inside the requested label, or started beyond its end. -/
def WithinLabel (controller : IterativeQueryController) : Prop :=
  controller.step = .queryNs →
    controller.nFinishedComps + controller.nTryComps ≤ controller.dstLabel.length ∨
      controller.dstLabel.length < controller.nFinishedComps

/-- Everything an Interest that was just expressed says about its controller. -/
structure Asks (controller : IterativeQueryController) (interest : Interest) : Prop where
  running : controller.hasEnded = false
  name : interest.name =
    Label.recordName controller.zone controller.queryLabel controller.queryType
  lastLabelType : controller.lastLabelType = controller.queryLabel ++ [controller.queryType]
  tries : 0 < controller.nTryComps
  hint : controller.forwardingHint.isSome
  within : controller.WithinLabel

theorem step_of_running (hrunning : controller.hasEnded = false) :
    controller.step = .queryNs ∨ controller.step = .queryRr := by
  cases hstep : controller.step <;> simp_all [hasEnded]

theorem expressLatest_express (h : controller.expressLatest = (next, .ok (.express interest)))
    (htries : 0 < controller.nTryComps) (hwithin : controller.WithinLabel) :
    next.Asks interest := by
  unfold expressLatest makeLatestInterest at h
  cases hhint : controller.forwardingHint with
  | none => simp [hhint] at h
  | some delegations =>
      cases hended : controller.hasEnded with
      | true => simp [hhint, hended] at h
      | false =>
          simp only [hhint, hended, Bool.false_eq_true, if_false, Prod.mk.injEq, Except.ok.injEq,
            Action.express.injEq] at h
          obtain ⟨rfl, rfl⟩ := h
          exact ⟨hended, rfl, rfl, htries, Option.isSome_iff_exists.mpr ⟨delegations, hhint⟩,
            hwithin⟩

/-- A running controller whose last LINK can be read expresses an Interest. -/
theorem expressLatest_outcome (hrunning : controller.hasEnded = false)
    (hhint : controller.forwardingHint.isSome) :
    ∃ interest, controller.expressLatest.2 = .ok (.express interest) := by
  obtain ⟨delegations, hdelegations⟩ := Option.isSome_iff_exists.mp hhint
  simp only [expressLatest, makeLatestInterest, hdelegations, hrunning, Bool.false_eq_true,
    if_false]
  exact ⟨_, rfl⟩

/-- Expressing never calls back. -/
theorem expressLatest_ne_succeed :
    controller.expressLatest.2 ≠ .ok (.succeed packet response) := by
  unfold expressLatest
  split <;> simp

theorem expressLatest_request (controller : IterativeQueryController) :
    controller.expressLatest.1.dstLabel = controller.dstLabel ∧
      controller.expressLatest.1.rrType = controller.rrType := by
  unfold expressLatest makeLatestInterest
  cases controller.forwardingHint <;> cases hended : controller.hasEnded <;> simp

theorem onNsDoe_eq_ok (h : controller.onNsDoe data = .ok next) :
    next = { controller with step := .queryRr } ∧
      ∃ range, Response.wireDecodeDoe data.content = some range ∧
        isAbsentByRange controller.lastLabelType range = true := by
  unfold onNsDoe isAbsentByDoe at h
  cases hrange : Response.wireDecodeDoe data.content with
  | none => simp [hrange] at h
  | some range =>
      cases habsent : isAbsentByRange controller.lastLabelType range with
      | false => simp [hrange, habsent] at h
      | true =>
          simp only [hrange, habsent, Except.ok.injEq] at h
          exact ⟨h.symm, range, rfl, habsent⟩

theorem onNsLink_eq_ok (h : controller.onNsLink data = .ok next) :
    ∃ lastLink, (lastLink = none ∨ lastLink = some data ∧ (linkDelegations data).isSome) ∧
      ((next = { controller with lastLink := lastLink, step := .answerStub } ∧
        controller.nFinishedComps + controller.nTryComps = controller.dstLabel.length ∧
        controller.rrType = Label.nsRrType) ∨
      (next = { controller with
          lastLink := lastLink
          nFinishedComps := controller.nFinishedComps + controller.nTryComps
          nTryComps := 1 } ∧
        ¬ (controller.nFinishedComps + controller.nTryComps = controller.dstLabel.length ∧
          controller.rrType = Label.nsRrType))) := by
  unfold onNsLink at h
  cases hlink : linkDelegations data with
  | none => simp [hlink] at h
  | some delegations =>
      simp only [hlink] at h
      have hlast : (if delegations.isEmpty then none else some data) = none ∨
          (if delegations.isEmpty then none else some data) = some data ∧
            (linkDelegations data).isSome := by
        split_ifs
        · exact Or.inl rfl
        · exact Or.inr ⟨rfl, by simp [hlink]⟩
      rw [hlink] at hlast
      by_cases hexact : controller.nFinishedComps + controller.nTryComps =
          controller.dstLabel.length ∧ controller.rrType = Label.nsRrType
      · rw [if_pos hexact, Except.ok.injEq] at h
        exact ⟨_, hlast, Or.inl ⟨h.symm, hexact⟩⟩
      · rw [if_neg hexact, Except.ok.injEq] at h
        exact ⟨_, hlast, Or.inr ⟨h.symm, hexact⟩⟩

/-- The four answers in step QUERY_NS. -/
theorem onNsData_eq_ok (h : controller.onNsData data contentType = .ok next) :
    (contentType = .doe ∧ controller.onNsDoe data = .ok next) ∨
      (contentType = .link ∧ controller.onNsLink data = .ok next) ∨
      (contentType = .auth ∧ next = { controller with nTryComps := controller.nTryComps + 1 }) ∨
      (contentType ≠ .doe ∧ contentType ≠ .link ∧ contentType ≠ .auth ∧ next = controller) := by
  unfold onNsData at h
  split at h
  · exact Or.inl ⟨rfl, h⟩
  · exact Or.inr (Or.inl ⟨rfl, h⟩)
  · exact Or.inr (Or.inr (Or.inl ⟨rfl, (Except.ok.inj h).symm⟩))
  · exact Or.inr (Or.inr (Or.inr ⟨‹_›, ‹_›, ‹_›, (Except.ok.inj h).symm⟩))

@[simp]
theorem checkLabelEnd_nFinishedComps (controller : IterativeQueryController) :
    controller.checkLabelEnd.nFinishedComps = controller.nFinishedComps := by
  unfold checkLabelEnd
  split_ifs <;> rfl

@[simp]
theorem checkLabelEnd_nTryComps (controller : IterativeQueryController) :
    controller.checkLabelEnd.nTryComps = controller.nTryComps := by
  unfold checkLabelEnd
  split_ifs <;> rfl

@[simp]
theorem checkLabelEnd_dstLabel (controller : IterativeQueryController) :
    controller.checkLabelEnd.dstLabel = controller.dstLabel := by
  unfold checkLabelEnd
  split_ifs <;> rfl

@[simp]
theorem checkLabelEnd_rrType (controller : IterativeQueryController) :
    controller.checkLabelEnd.rrType = controller.rrType := by
  unfold checkLabelEnd
  split_ifs <;> rfl

theorem checkLabelEnd_step (controller : IterativeQueryController) :
    controller.checkLabelEnd.step = controller.step ∨
      controller.dstLabel.length < controller.nFinishedComps + controller.nTryComps ∧
        controller.checkLabelEnd.step =
          if controller.rrType = Label.nsRrType then .answerStub else .queryRr := by
  unfold checkLabelEnd
  by_cases hend : controller.dstLabel.length < controller.nFinishedComps + controller.nTryComps
  · rw [if_pos hend]
    exact Or.inr ⟨hend, rfl⟩
  · rw [if_neg hend]
    exact Or.inl rfl

/-- What `onDataValidated` does to a controller that waits for an answer. -/
theorem advance_eq_ok (h : controller.advance data contentType = .ok next)
    (hrunning : controller.hasEnded = false) :
    (controller.step = .queryNs ∧ ∃ middle, controller.onNsData data contentType = .ok middle ∧
        next = middle.checkLabelEnd) ∨
      (controller.step = .queryRr ∧ next = { controller with step := .answerStub }) := by
  unfold advance at h
  rcases step_of_running hrunning with hstep | hstep
  · rw [hstep] at h
    cases hmiddle : controller.onNsData data contentType with
    | error fault => simp [hmiddle, Except.map] at h
    | ok middle =>
        simp only [hmiddle, Except.map, Except.ok.injEq] at h
        exact Or.inl ⟨hstep, middle, rfl, h.symm⟩
  · rw [hstep, Except.ok.injEq] at h
    exact Or.inr ⟨hstep, h.symm⟩

@[simp]
theorem checkLabelEnd_forwardingHint (controller : IterativeQueryController) :
    controller.checkLabelEnd.forwardingHint = controller.forwardingHint := by
  unfold checkLabelEnd
  split_ifs <;> rfl

/-- What no answer changes: the request, that there is something to try, and that the last LINK
can be read. -/
structure Keeps (controller next : IterativeQueryController) : Prop where
  dstLabel : next.dstLabel = controller.dstLabel
  rrType : next.rrType = controller.rrType
  tries : 0 < controller.nTryComps → 0 < next.nTryComps
  hint : controller.forwardingHint.isSome → next.forwardingHint.isSome

theorem onNsData_keeps (h : controller.onNsData data contentType = .ok next) :
    controller.Keeps next := by
  rcases onNsData_eq_ok h with ⟨-, hdoe⟩ | ⟨-, hlink⟩ | ⟨-, rfl⟩ | ⟨-, -, -, rfl⟩
  · obtain ⟨rfl, -⟩ := onNsDoe_eq_ok hdoe
    exact ⟨rfl, rfl, id, id⟩
  · obtain ⟨lastLink, hlast, hnext⟩ := onNsLink_eq_ok hlink
    rcases hlast with rfl | ⟨rfl, hsome⟩
    · rcases hnext with ⟨rfl, -⟩ | ⟨rfl, -⟩
      · exact ⟨rfl, rfl, id, fun _ ↦ rfl⟩
      · exact ⟨rfl, rfl, fun _ ↦ Nat.one_pos, fun _ ↦ rfl⟩
    · rcases hnext with ⟨rfl, -⟩ | ⟨rfl, -⟩
      · exact ⟨rfl, rfl, id, fun _ ↦ hsome⟩
      · exact ⟨rfl, rfl, fun _ ↦ Nat.one_pos, fun _ ↦ hsome⟩
  · exact ⟨rfl, rfl, fun _ ↦ Nat.succ_pos _, id⟩
  · exact ⟨rfl, rfl, id, id⟩

theorem advance_withinLabel (h : controller.advance data contentType = .ok next)
    (hrunning : controller.hasEnded = false) : next.WithinLabel := by
  intro hstep
  rcases advance_eq_ok h hrunning with ⟨-, middle, -, rfl⟩ | ⟨-, rfl⟩
  · left
    unfold checkLabelEnd at hstep ⊢
    split_ifs at hstep ⊢ with hend
    exact not_lt.mp hend
  · cases hstep

theorem advance_keeps (h : controller.advance data contentType = .ok next)
    (hrunning : controller.hasEnded = false) : controller.Keeps next := by
  rcases advance_eq_ok h hrunning with ⟨-, middle, hmiddle, rfl⟩ | ⟨-, rfl⟩
  · have hkeeps := onNsData_keeps hmiddle
    exact ⟨by simpa using hkeeps.dstLabel, by simpa using hkeeps.rrType,
      by simpa using hkeeps.tries, by simpa using hkeeps.hint⟩
  · exact ⟨rfl, rfl, id, id⟩

theorem conclude_request (controller : IterativeQueryController) (data : Data) :
    (controller.conclude data).1.dstLabel = controller.dstLabel ∧
      (controller.conclude data).1.rrType = controller.rrType := by
  unfold conclude
  split
  · exact expressLatest_request controller
  · exact expressLatest_request controller
  · exact ⟨rfl, rfl⟩
  · exact ⟨rfl, rfl⟩

theorem conclude_express (h : controller.conclude data = (next, .ok (.express interest))) :
    controller.expressLatest = (next, .ok (.express interest)) := by
  unfold conclude at h
  split at h
  · exact h
  · exact h
  · cases hresponse : controller.parseFinalResponse data <;> simp [hresponse, Except.map] at h
  · simp at h

theorem conclude_succeed (h : controller.conclude data = (next, .ok (.succeed packet response))) :
    controller.step = .answerStub ∧ next = controller ∧ packet = data ∧
      controller.parseFinalResponse data = .ok response := by
  unfold conclude at h
  split at h
  case h_3 hstep =>
    cases hresponse : controller.parseFinalResponse data with
    | error fault => simp [hresponse, Except.map] at h
    | ok parsed =>
        simp only [hresponse, Except.map, Prod.mk.injEq, Except.ok.injEq,
          Action.succeed.injEq] at h
        exact ⟨hstep, h.1.symm, h.2.1.symm, by rw [h.2.2]⟩
  case h_4 hstep => simp at h
  all_goals exact absurd (congrArg Prod.snd h) expressLatest_ne_succeed

theorem onDataValidated_cases
    (controller : IterativeQueryController) (data : Data) (contentType : NdnsContentType) :
    (∃ next, controller.advance data contentType = .ok next ∧
        controller.onDataValidated data contentType = next.conclude data) ∨
      ∃ fault, controller.advance data contentType = .error fault ∧
        controller.onDataValidated data contentType = (controller, .error fault) := by
  unfold onDataValidated
  cases controller.advance data contentType with
  | ok next => exact Or.inl ⟨next, rfl, rfl⟩
  | error fault => exact Or.inr ⟨fault, rfl, rfl⟩

variable [PacketFormat]

/-- A handler that goes on has accepted a packet and asks for the next one. -/
theorem onData_continues {accepted : Bool} {outcome : Outcome}
    (h : controller.onData data accepted = (next, outcome))
    (hgoes : (∃ interest, outcome = .ok (.express interest)) ∨
      ∃ packet response, outcome = .ok (.succeed packet response)) :
    ∃ packet contentType middle, unwrap data = some (packet, contentType) ∧ accepted = true ∧
      controller.advance packet contentType = .ok middle ∧
      middle.conclude packet = (next, outcome) := by
  unfold onData at h
  cases hunwrap : unwrap data with
  | none =>
      simp only [hunwrap, Prod.mk.injEq] at h
      rcases hgoes with ⟨_, rfl⟩ | ⟨_, _, rfl⟩ <;> simp at h
  | some pair =>
      obtain ⟨packet, contentType⟩ := pair
      cases accepted with
      | false =>
          simp only [hunwrap, Bool.false_eq_true, if_false, Prod.mk.injEq] at h
          rcases hgoes with ⟨_, rfl⟩ | ⟨_, _, rfl⟩ <;> simp at h
      | true =>
          simp only [hunwrap, if_true] at h
          rcases onDataValidated_cases controller packet contentType with
            ⟨middle, hadvance, hconclude⟩ | ⟨fault, -, hfault⟩
          · exact ⟨packet, contentType, middle, rfl, rfl, hadvance, hconclude ▸ h⟩
          · rw [hfault, Prod.mk.injEq] at h
            rcases hgoes with ⟨_, rfl⟩ | ⟨_, _, rfl⟩ <;> simp at h

end IterativeQueryController

namespace Session

open IterativeQueryController

variable {session session' : Session} {interest : Interest}

/-! ## The invariant of a run -/

/-- The handlers before the last one have expressed Interests, and a waiting session waits for
the Interest its controller describes. -/
structure Invariant (session : Session) : Prop where
  earlier : ∀ outcome ∈ session.outcomes.tail, ∃ interest, outcome = .ok (.express interest)
  asks : ∀ interest, session.pending = some interest → session.controller.Asks interest

theorem pending_eq_some (h : session.pending = some interest) :
    session.outcomes.head? = some (.ok (.express interest)) := by
  unfold pending at h
  split at h
  · cases h
    assumption
  · cases h

theorem begin_invariant (dstLabel : Name) (rrType : Component)
    (interestLifetime startIndex : ℕ) :
    (begin (.make dstLabel rrType interestLifetime startIndex)).Invariant := by
  refine ⟨by simp [begin], fun interest hpending ↦ ?_⟩
  generalize hcontroller : make dstLabel rrType interestLifetime startIndex = controller at *
  have houtcome : controller.start = ((begin controller).controller, .ok (.express interest)) := by
    have hhead := pending_eq_some hpending
    exact Prod.ext rfl (Option.some.inj hhead)
  have htries : 0 < controller.nTryComps := by
    rw [← hcontroller]
    exact Nat.one_pos
  unfold start at houtcome
  split_ifs at houtcome with hend
  · exact expressLatest_express houtcome htries (fun hstep ↦ by cases hstep)
  · refine expressLatest_express houtcome htries fun _ ↦ ?_
    subst hcontroller
    simp only [make] at hend ⊢
    omega

variable [PacketFormat]

theorem pending_handle {event : Event} :
    (session.handle event).pending = some interest ↔
      (session.react event).2 = .ok (.express interest) := by
  unfold pending handle
  rcases (session.react event).2 with _ | _ | _ | _ <;> simp

theorem Step.invariant (hstep : Step session session') (h : session.Invariant) :
    session'.Invariant := by
  obtain ⟨hpending, -⟩ := hstep
  rename_i awaited event
  refine ⟨?_, fun interest hnext ↦ ?_⟩
  · intro outcome houtcome
    have hmem : outcome ∈ session.outcomes := houtcome
    obtain ⟨head, rest, hlist⟩ := List.exists_cons_of_ne_nil (List.ne_nil_of_mem hmem)
    have hhead := pending_eq_some hpending
    have hearlier := h.earlier
    rw [hlist] at hmem hhead hearlier
    rcases List.mem_cons.mp hmem with rfl | htail
    · exact ⟨awaited, Option.some.inj hhead⟩
    · exact hearlier outcome htail
  · rw [pending_handle] at hnext
    have hasks := h.asks awaited hpending
    cases event with
    | networkNack => cases hnext
    | timeout => cases hnext
    | data packet accepted =>
        have hreact : session.controller.onData packet accepted =
            ((session.react (.data packet accepted)).1, .ok (.express interest)) :=
          Prod.ext rfl hnext
        obtain ⟨inner, contentType, middle, -, -, hadvance, hconclude⟩ :=
          onData_continues hreact (Or.inl ⟨interest, rfl⟩)
        have hkeeps := advance_keeps hadvance hasks.running
        exact expressLatest_express (conclude_express hconclude) (hkeeps.tries hasks.tries)
          (advance_withinLabel hadvance hasks.running)

/-- The invariant holds after every run of events. -/
theorem Reachable.invariant {dstLabel : Name} {rrType : Component}
    (h : session.Reachable dstLabel rrType) : session.Invariant := by
  obtain ⟨interestLifetime, startIndex, hrun⟩ := h
  induction hrun with
  | refl => exact begin_invariant dstLabel rrType interestLifetime startIndex
  | tail _ hstep ih => exact hstep.invariant ih

theorem react_request (session : Session) (event : Event)
    (hrunning : session.controller.hasEnded = false) :
    (session.react event).1.dstLabel = session.controller.dstLabel ∧
      (session.react event).1.rrType = session.controller.rrType := by
  cases event with
  | networkNack => exact ⟨rfl, rfl⟩
  | timeout => exact ⟨rfl, rfl⟩
  | data packet accepted =>
      change (session.controller.onData packet accepted).1.dstLabel = _ ∧
        (session.controller.onData packet accepted).1.rrType = _
      unfold onData
      split
      · exact ⟨rfl, rfl⟩
      · rename_i inner contentType _
        split_ifs
        · rcases onDataValidated_cases session.controller inner contentType with
            ⟨next, hadvance, hconclude⟩ | ⟨fault, -, hfault⟩
          · have hkeeps := advance_keeps hadvance hrunning
            rw [hconclude, ← hkeeps.dstLabel, ← hkeeps.rrType]
            exact conclude_request next inner
          · rw [hfault]
            exact ⟨rfl, rfl⟩
        · exact ⟨rfl, rfl⟩

/-- A resolution keeps asking for what it was started for. -/
theorem Reachable.request {dstLabel : Name} {rrType : Component}
    (h : session.Reachable dstLabel rrType) :
    session.controller.dstLabel = dstLabel ∧ session.controller.rrType = rrType := by
  obtain ⟨interestLifetime, startIndex, hrun⟩ := h
  induction hrun with
  | refl =>
      unfold begin start
      split_ifs
      · exact expressLatest_request _
      · exact expressLatest_request _
  | tail hprevious hstep ih =>
      obtain ⟨hpending, -⟩ := hstep
      rename_i event
      have hinvariant := Reachable.invariant ⟨interestLifetime, startIndex, hprevious⟩
      have hrequest := react_request _ event (hinvariant.asks _ hpending).running
      exact ⟨hrequest.1.trans ih.1, hrequest.2.trans ih.2⟩

end Session

end Ndns.Clients
