import Ndns.Clients.Resolution

/-!
# What a Resolution May Do

The controller never compares names: it relies on the Interest it expressed, and on the packet
inside an `NDNS_NACK` being a denial.  The theorems below say what is left of an answer, of a step
and of a resolution under that reliance.
-/

namespace Ndns.Clients

open Ndn

namespace IterativeQueryController

variable {controller next middle : IterativeQueryController} {data : Data}
  {contentType : NdnsContentType} {response : Response}

/-! ## Answers -/

theorem zone_append_queryLabel (hrunning : controller.hasEnded = false)
    (hend : controller.step = .queryNs →
      controller.dstLabel.length ≤ controller.nFinishedComps + controller.nTryComps) :
    controller.zone ++ controller.queryLabel = controller.dstLabel := by
  rcases step_of_running hrunning with hstep | hstep
  · simp only [zone, queryLabel, hstep, Name.getPrefix, Name.getSubName]
    rw [← List.take_add, List.take_of_length_le (hend hstep)]
  · simp only [zone, queryLabel, hstep, Name.getPrefix]
    exact List.take_append_drop _ _

/-- How step QUERY_NS comes to an end: the whole label was asked for, and the type is NS. -/
theorem onNsData_answerStub (hstep : controller.step = .queryNs)
    (hwithin : controller.WithinLabel) (htries : 0 < controller.nTryComps)
    (h : controller.onNsData data contentType = .ok middle)
    (hanswer : middle.checkLabelEnd.step = .answerStub) :
    controller.rrType = Label.nsRrType ∧
      controller.dstLabel.length ≤ controller.nFinishedComps + controller.nTryComps ∧
      middle.checkLabelEnd.zone = controller.zone := by
  have hzone : ∀ finished, (finished = controller.nFinishedComps ∨
      controller.dstLabel.length ≤ finished ∧
        controller.dstLabel.length ≤ controller.nFinishedComps) →
      controller.dstLabel.take finished = controller.dstLabel.take controller.nFinishedComps := by
    rintro finished (rfl | ⟨hfinished, hlength⟩)
    · rfl
    · rw [List.take_of_length_le hfinished, List.take_of_length_le hlength]
  have hlabelEnd := checkLabelEnd_step middle
  rw [hanswer] at hlabelEnd
  simp only [zone, Name.getPrefix, checkLabelEnd_dstLabel, checkLabelEnd_nFinishedComps]
  have htype : middle.dstLabel.length < middle.nFinishedComps + middle.nTryComps →
      QueryStep.answerStub = (if middle.rrType = Label.nsRrType then .answerStub else .queryRr) →
      middle.rrType = Label.nsRrType := by
    intro _ hif
    split_ifs at hif with hns
    exact hns
  rcases onNsData_eq_ok h with ⟨-, hdoe⟩ | ⟨-, hlink⟩ | ⟨-, rfl⟩ | ⟨-, -, -, rfl⟩
  · obtain ⟨rfl, -⟩ := onNsDoe_eq_ok hdoe
    rcases hlabelEnd with hsame | ⟨hend, hif⟩
    · cases hsame
    · exact ⟨htype hend hif, hend.le, rfl⟩
  · obtain ⟨lastLink, -, ⟨rfl, hexact, hns⟩ | ⟨rfl, hexact⟩⟩ := onNsLink_eq_ok hlink
    · exact ⟨hns, hexact.ge, rfl⟩
    · rcases hlabelEnd with hsame | ⟨hend, hif⟩
      · rw [hstep] at hsame
        cases hsame
      · have hns : controller.rrType = Label.nsRrType := htype hend hif
        have hover : controller.nFinishedComps + controller.nTryComps ≠
            controller.dstLabel.length := fun heq ↦ hexact ⟨heq, hns⟩
        have hlength : controller.dstLabel.length <
            controller.nFinishedComps + controller.nTryComps + 1 := hend
        have hstarted := hwithin hstep
        exact ⟨hns, by omega, hzone _ (Or.inr ⟨by simp only; omega, by omega⟩)⟩
  · rcases hlabelEnd with hsame | ⟨hend, hif⟩
    · rw [hstep] at hsame
      cases hsame
    · simp only at hend
      exact ⟨htype hend hif, by omega, rfl⟩
  · rcases hlabelEnd with hsame | ⟨hend, hif⟩
    · rw [hstep] at hsame
      cases hsame
    · exact ⟨htype hend hif, hend.le, rfl⟩

/-- A controller that comes to an answer has asked for the whole label and the requested type. -/
theorem advance_answerStub {interest : Interest} (hasks : controller.Asks interest)
    (h : controller.advance data contentType = .ok next) (hanswer : next.step = .answerStub) :
    controller.queryType = controller.rrType ∧
      controller.zone ++ controller.queryLabel = controller.dstLabel ∧
      next.zone = controller.zone := by
  rcases advance_eq_ok h hasks.running with ⟨hstep, middle, hmiddle, rfl⟩ | ⟨hstep, rfl⟩
  · obtain ⟨hns, hend, hzone⟩ :=
      onNsData_answerStub hstep hasks.within hasks.tries hmiddle hanswer
    refine ⟨?_, zone_append_queryLabel hasks.running fun _ ↦ hend, hzone⟩
    simp only [queryType, hstep, hns]
  · refine ⟨?_, zone_append_queryLabel hasks.running fun hns ↦ ?_, rfl⟩
    · simp only [queryType, hstep]
    · rw [hstep] at hns
      cases hns

/-- A denial that is accepted in step QUERY_NS has passed the test of its range. -/
theorem advance_doe (hstep : controller.step = .queryNs)
    (h : controller.advance data .doe = .ok next) :
    ∃ range, Response.wireDecodeDoe data.content = some range ∧
      isAbsentByRange controller.lastLabelType range = true := by
  have hrunning : controller.hasEnded = false := by simp [hasEnded, hstep]
  rcases advance_eq_ok h hrunning with ⟨-, middle, hmiddle, -⟩ | ⟨hother, -⟩
  · exact (onNsDoe_eq_ok hmiddle).2
  · rw [hstep] at hother
    cases hother

theorem parseFinalResponse_eq_ok {label : Name} {rrType version : Component}
    (hname : data.name = Label.recordName controller.zone label rrType ++ [version])
    (h : controller.parseFinalResponse data = .ok response) :
    response.zone = controller.zone ∧ response.rrLabel = label ∧ response.rrType = rrType := by
  unfold parseFinalResponse at h
  split at h
  case h_1 flag decoded hdecoded =>
    cases h
    obtain ⟨hzone, hlabel, htype, -⟩ := Response.fromData_eq_ok hname hdecoded
    exact ⟨hzone, hlabel, htype⟩
  all_goals cases h

/-! ## Steps -/

theorem conclude_position (controller : IterativeQueryController) (data : Data) :
    (controller.conclude data).1.step = controller.step ∧
      (controller.conclude data).1.nFinishedComps = controller.nFinishedComps ∧
      (controller.conclude data).1.nTryComps = controller.nTryComps := by
  have hexpress : controller.expressLatest.1.step = controller.step ∧
      controller.expressLatest.1.nFinishedComps = controller.nFinishedComps ∧
      controller.expressLatest.1.nTryComps = controller.nTryComps := by
    unfold expressLatest makeLatestInterest
    cases controller.forwardingHint <;> cases hended : controller.hasEnded <;> simp
  unfold conclude
  split
  · exact hexpress
  · exact hexpress
  · exact ⟨rfl, rfl, rfl⟩
  · exact ⟨rfl, rfl, rfl⟩

/-- What an answer in step QUERY_NS does to the position, by the content type that did it. -/
structure NsStep (controller next : IterativeQueryController) (data : Data)
    (contentType : NdnsContentType) : Prop where
  finished : next.nFinishedComps ≠ controller.nFinishedComps →
    contentType = .link ∧
      next.nFinishedComps = controller.nFinishedComps + controller.nTryComps
  tries : controller.nTryComps < next.nTryComps →
    contentType = .auth ∧ next.nTryComps = controller.nTryComps + 1
  absent : next.step = .queryRr → next.nFinishedComps = controller.nFinishedComps →
    next.nTryComps = controller.nTryComps →
    controller.nFinishedComps + controller.nTryComps ≤ controller.dstLabel.length →
      contentType = .doe ∧ ∃ range, Response.wireDecodeDoe data.content = some range ∧
        isAbsentByRange controller.lastLabelType range = true

theorem NsStep.unmoved (hstep : controller.step = .queryNs) :
    NsStep controller controller data contentType where
  finished hne := absurd rfl hne
  tries hlt := absurd hlt (lt_irrefl _)
  absent hrr := by
    rw [hstep] at hrr
    cases hrr

theorem advance_nsStep (hstep : controller.step = .queryNs) (htries : 0 < controller.nTryComps)
    (h : controller.advance data contentType = .ok next) :
    NsStep controller next data contentType := by
  have hrunning : controller.hasEnded = false := by simp [hasEnded, hstep]
  rcases advance_eq_ok h hrunning with ⟨-, middle, hmiddle, rfl⟩ | ⟨hother, -⟩
  swap
  · rw [hstep] at hother
    cases hother
  have hlabelEnd := checkLabelEnd_step middle
  rcases onNsData_eq_ok hmiddle with ⟨rfl, hdoe⟩ | ⟨rfl, hlink⟩ | ⟨rfl, rfl⟩ | ⟨-, -, -, rfl⟩
  · obtain ⟨rfl, hrange⟩ := onNsDoe_eq_ok hdoe
    exact ⟨fun hne ↦ absurd (checkLabelEnd_nFinishedComps _) hne,
      fun hlt ↦ absurd hlt (by simp), fun _ _ _ _ ↦ ⟨rfl, hrange⟩⟩
  · obtain ⟨lastLink, -, ⟨rfl, -, hns⟩ | ⟨rfl, -⟩⟩ := onNsLink_eq_ok hlink
    · refine ⟨fun hne ↦ absurd (checkLabelEnd_nFinishedComps _) hne,
        fun hlt ↦ absurd hlt (by simp), fun hrr _ _ _ ↦ ?_⟩
      rw [hrr] at hlabelEnd
      rcases hlabelEnd with hsame | ⟨-, hif⟩
      · cases hsame
      · simp only [hns, if_true] at hif
        cases hif
    · exact ⟨fun _ ↦ ⟨rfl, by simp⟩, fun hlt ↦ absurd hlt (by simp; omega),
        fun _ hsame _ _ ↦ by simp at hsame; omega⟩
  · exact ⟨fun hne ↦ absurd (checkLabelEnd_nFinishedComps _) hne, fun _ ↦ ⟨rfl, by simp⟩,
      fun _ _ hsame _ ↦ by simp at hsame⟩
  · refine ⟨fun hne ↦ absurd (checkLabelEnd_nFinishedComps _) hne,
      fun hlt ↦ absurd hlt (by simp), fun hrr _ _ hinside ↦ ?_⟩
    rw [hrr] at hlabelEnd
    rcases hlabelEnd with hsame | ⟨hend, -⟩
    · rw [hstep] at hsame
      cases hsame
    · omega

/-! ## Packets that can be read -/

/-- The bytes the handler reads decode: the range of a denial and the delegations of a LINK in
step QUERY_NS, and otherwise the elements of the content.  A name longer than the zone is what
every packet that matches an Interest has. -/
def Readable (controller : IterativeQueryController) (data : Data)
    (contentType : NdnsContentType) : Prop :=
  controller.zone.length < data.name.length ∧
    match controller.step, contentType with
    | .queryNs, .doe => (Response.wireDecodeDoe data.content).isSome
    | .queryNs, .link => (linkDelegations data).isSome
    | _, _ => NdnsContentType.ofCode data.contentType = .blob ∨
        NdnsContentType.ofCode data.contentType = .key ∨ (parseBlocks data.content).isSome

/-- A denial that does not cover the last query. -/
def Unconvincing (controller : IterativeQueryController) (data : Data)
    (contentType : NdnsContentType) : Prop :=
  controller.step = .queryNs ∧ contentType = .doe ∧
    ∃ range, Response.wireDecodeDoe data.content = some range ∧
      isAbsentByRange controller.lastLabelType range = false

theorem isSome_parseBlocks_of_range (h : (Response.wireDecodeDoe data.content).isSome) :
    (parseBlocks data.content).isSome := by
  unfold Response.wireDecodeDoe at h
  cases hparse : parseBlocks data.content with
  | none => simp [hparse] at h
  | some blocks => rfl

theorem isSome_parseBlocks_of_link (h : (linkDelegations data).isSome) :
    (parseBlocks data.content).isSome := by
  unfold linkDelegations at h
  cases hparse : parseBlocks data.content with
  | none => simp [hparse] at h
  | some blocks => rfl

theorem Readable.content (h : controller.Readable data contentType) :
    NdnsContentType.ofCode data.contentType = .blob ∨
      NdnsContentType.ofCode data.contentType = .key ∨ (parseBlocks data.content).isSome := by
  obtain ⟨-, h⟩ := h
  split at h
  · exact Or.inr (Or.inr (isSome_parseBlocks_of_range h))
  · exact Or.inr (Or.inr (isSome_parseBlocks_of_link h))
  · exact h

theorem Readable.advance {interest : Interest} (hasks : controller.Asks interest)
    (h : controller.Readable data contentType) :
    (∃ next, controller.advance data contentType = .ok next) ∨
      controller.Unconvincing data contentType ∧
        controller.advance data contentType = .error .unconvincingDenial := by
  obtain ⟨-, h⟩ := h
  rcases step_of_running hasks.running with hstep | hstep
  · unfold IterativeQueryController.advance onNsData
    rw [hstep] at h ⊢
    cases contentType
    case doe =>
      obtain ⟨range, hrange⟩ := Option.isSome_iff_exists.mp h
      cases habsent : isAbsentByRange controller.lastLabelType range with
      | true =>
          left
          simp only [onNsDoe, isAbsentByDoe, hrange, habsent]
          exact ⟨_, rfl⟩
      | false =>
          right
          refine ⟨⟨hstep, rfl, range, hrange, habsent⟩, ?_⟩
          simp only [onNsDoe, isAbsentByDoe, hrange, habsent]
          rfl
    case link =>
      obtain ⟨delegations, hdelegations⟩ := Option.isSome_iff_exists.mp h
      left
      simp only [onNsLink, hdelegations]
      split_ifs <;> exact ⟨_, rfl⟩
    all_goals exact Or.inl ⟨_, rfl⟩
  · unfold IterativeQueryController.advance
    rw [hstep]
    exact Or.inl ⟨_, rfl⟩

theorem Readable.conclude {interest : Interest} (hasks : controller.Asks interest)
    (h : controller.Readable data contentType)
    (hadvance : controller.advance data contentType = .ok next) :
    ∃ action, (next.conclude data).2 = .ok action := by
  have hkeeps := advance_keeps hadvance hasks.running
  unfold IterativeQueryController.conclude
  split
  case h_3 hstep =>
    obtain ⟨-, -, hzone⟩ := advance_answerStub hasks hadvance hstep
    obtain ⟨⟨flag, response⟩, hresponse⟩ := @Response.fromData_isOk .default next.zone data
      (hzone ▸ h.1) h.content
    simp only [parseFinalResponse, hresponse]
    exact ⟨_, rfl⟩
  case h_4 => exact ⟨_, rfl⟩
  all_goals
    obtain ⟨interest, houtcome⟩ := @expressLatest_outcome next (by simp [hasEnded, *])
      (hkeeps.hint hasks.hint)
    exact ⟨_, houtcome⟩

variable [PacketFormat]

theorem unwrap_eq_some {packet : Data} (h : unwrap packet = some (data, contentType)) :
    NdnsContentType.ofCode packet.contentType = .nack ∧ contentType = .doe ∧
        (blockFromValue packet.content).bind PacketFormat.decode = some data ∨
      data = packet ∧ contentType = NdnsContentType.ofCode packet.contentType := by
  unfold unwrap at h
  split_ifs at h with hnack
  · obtain ⟨doe, hdoe, hpair⟩ := Option.map_eq_some_iff.mp h
    cases hpair
    exact Or.inl ⟨hnack, rfl, hdoe⟩
  · cases h
    exact Or.inr ⟨rfl, rfl⟩

end IterativeQueryController

namespace Session

open IterativeQueryController

variable [PacketFormat] {dstLabel : Name} {rrType : Component} {session : Session}
  {interest : Interest} {packet data : Data}

/-- A packet that is reported to the caller either is the delivered packet, which is named after
the requested label and type, or was taken out of an `NDNS_NACK`; in step QUERY_NS its range then
proves the absence of the last query. -/
theorem succeed_answer {response : Response} (h : session.Reachable dstLabel rrType)
    (hpending : session.pending = some interest) (hmatch : packet.matches interest)
    (hreport : (session.react (.data packet true)).2 = .ok (.succeed data response)) :
    (data = packet ∧ ∃ zone label extension, zone ++ label = dstLabel ∧
        packet.name = Label.recordName zone label rrType ++ extension ∧
        (extension.length = 1 →
          response.zone ++ response.rrLabel = dstLabel ∧ response.rrType = rrType)) ∨
      (NdnsContentType.ofCode packet.contentType = .nack ∧
        (blockFromValue packet.content).bind PacketFormat.decode = some data ∧
        (session.controller.step = .queryNs →
          ∃ range, Response.wireDecodeDoe data.content = some range ∧
            isAbsentByRange session.controller.lastLabelType range = true)) := by
  have hasks := h.invariant.asks interest hpending
  obtain ⟨hdst, htype⟩ := h.request
  have hreact : session.controller.onData packet true =
      ((session.react (.data packet true)).1, .ok (.succeed data response)) :=
    Prod.ext rfl hreport
  obtain ⟨inner, contentType, next, hunwrap, -, hadvance, hconclude⟩ :=
    onData_continues hreact (Or.inr ⟨data, response, rfl⟩)
  obtain ⟨hanswer, -, rfl, hresponse⟩ := conclude_succeed hconclude
  rcases unwrap_eq_some hunwrap with ⟨hnack, rfl, hinner⟩ | ⟨rfl, -⟩
  · exact Or.inr ⟨hnack, hinner, fun hstep ↦ advance_doe hstep hadvance⟩
  · left
    obtain ⟨hquery, hlabel, hzone⟩ := advance_answerStub hasks hadvance hanswer
    obtain ⟨extension, hextension⟩ := hmatch
    rw [hasks.name, hquery, htype] at hextension
    refine ⟨rfl, session.controller.zone, session.controller.queryLabel, extension,
      hlabel.trans hdst, hextension.symm, fun hone ↦ ?_⟩
    obtain ⟨version, rfl⟩ := List.length_eq_one_iff.mp hone
    rw [← hzone] at hextension
    obtain ⟨hrzone, hrlabel, hrtype⟩ := parseFinalResponse_eq_ok hextension.symm hresponse
    exact ⟨by rw [hrzone, hrlabel, hzone, hlabel, hdst], hrtype⟩

end Session

section Examples

attribute [local instance] ndnPacketFormat

/-- The label that is resolved below. -/
def host : Component := Component.generic [104] (by decide)

def firstVersion : Component := Component.fromVersion 1

/-- A resolution that has reached the zone named by the whole label. -/
def apexSession : Session := .begin (.make [host] Label.txtRrType 4000 1)

/-- A resolution that starts at the root zone. -/
def rootSession : Session := .begin (.make [host] Label.txtRrType 4000 0)

theorem apexSession_reachable : apexSession.Reachable [host] Label.txtRrType := ⟨4000, 1, .refl⟩

theorem rootSession_reachable : rootSession.Reachable [host] Label.txtRrType := ⟨4000, 0, .refl⟩

/-- The answer the apex session asks for. -/
def apexAnswer : Data :=
  ⟨Label.recordName [host] [] Label.txtRrType ++ [firstVersion], 0, 0, [], [], []⟩

/-- An answer whose name is one component too long. -/
def strayAnswer : Data :=
  ⟨Label.recordName [host] [] Label.txtRrType ++ [host, firstVersion], 0, 0, [], [], []⟩

theorem succeed_answer_apex :
    ∃ zone label extension, zone ++ label = [host] ∧
      apexAnswer.name = Label.recordName zone label Label.txtRrType ++ extension := by
  rcases @Session.succeed_answer _ _ _ _ _ apexAnswer apexAnswer _ apexSession_reachable rfl
    (by decide) rfl with ⟨-, zone, label, extension, hlabel, hname, -⟩ | ⟨hnack, -⟩
  · exact ⟨zone, label, extension, hlabel, hname⟩
  · exact absurd hnack (by decide)

/-- The caller can be given a record of another label: the response is read by position. -/
theorem succeed_stray :
    ∃ session interest packet data response,
      Session.Reachable [host] Label.txtRrType session ∧ session.pending = some interest ∧
        packet.matches interest ∧
        (session.react (.data packet true)).2 = .ok (.succeed data response) ∧
        ¬ (response.zone ++ response.rrLabel = [host] ∧ response.rrType = Label.txtRrType) ∧
        ¬ (NdnsContentType.ofCode data.contentType = .doe ∧
          ∃ range, Response.wireDecodeDoe data.content = some range ∧
            IterativeQueryController.isAbsentByRange session.controller.lastLabelType range =
              true) := by
  refine ⟨apexSession, _, strayAnswer, strayAnswer, _, apexSession_reachable, rfl, by decide, rfl,
    by decide, ?_⟩
  rintro ⟨hdoe, -⟩
  exact absurd hdoe (by decide)

end Examples

namespace Session

open IterativeQueryController

variable [PacketFormat] {dstLabel : Name} {rrType : Component} {session : Session}
  {interest : Interest} {packet data : Data}

/-- What a packet delivered in step QUERY_NS can make the resolver do: a child zone is entered only
on a LINK and another component is tried only on an AUTH, both named after the query, and absence
is concluded without reaching the end of the label only from a denial packet, or the packet inside
an `NDNS_NACK`, whose range covers the query. -/
theorem queryNs_step (h : session.Reachable dstLabel rrType)
    (hpending : session.pending = some interest) (hstep : session.controller.step = .queryNs)
    (hmatch : packet.matches interest) :
    let before := session.controller
    let next := (session.react (.data packet true)).1
    let named := Label.recordName before.zone before.queryLabel Label.nsRrType <+: packet.name
    (next.nFinishedComps ≠ before.nFinishedComps →
        NdnsContentType.ofCode packet.contentType = .link ∧ named ∧
          next.nFinishedComps = before.nFinishedComps + before.nTryComps) ∧
      (before.nTryComps < next.nTryComps →
        NdnsContentType.ofCode packet.contentType = .auth ∧ named ∧
          next.nTryComps = before.nTryComps + 1) ∧
      (next.step = .queryRr → next.nFinishedComps = before.nFinishedComps →
        next.nTryComps = before.nTryComps →
        before.nFinishedComps + before.nTryComps ≤ dstLabel.length →
        ∃ data range,
          (data = packet ∧ NdnsContentType.ofCode packet.contentType = .doe ∧ named ∨
            NdnsContentType.ofCode packet.contentType = .nack ∧
              (blockFromValue packet.content).bind PacketFormat.decode = some data) ∧
          Response.wireDecodeDoe data.content = some range ∧
          isAbsentByRange (before.queryLabel ++ [Label.nsRrType]) range = true) := by
  intro before next named
  have hasks := h.invariant.asks interest hpending
  have hnamed : named := by
    have hname := hasks.name
    rw [queryType, hstep] at hname
    rw [Data.matches, hname] at hmatch
    exact hmatch
  have hlast : before.lastLabelType = before.queryLabel ++ [Label.nsRrType] := by
    have hlast := hasks.lastLabelType
    rwa [queryType, hstep] at hlast
  suffices hinner : ∃ data contentType, NsStep before next data contentType ∧
      (data = packet ∧ contentType = NdnsContentType.ofCode packet.contentType ∨
        contentType = .doe ∧ NdnsContentType.ofCode packet.contentType = .nack ∧
          (blockFromValue packet.content).bind PacketFormat.decode = some data) by
    obtain ⟨data, contentType, hmove, hsource⟩ := hinner
    refine ⟨fun hne ↦ ?_, fun hlt ↦ ?_, fun hrr hfinished htries hinside ↦ ?_⟩
    · obtain ⟨rfl, hfinished⟩ := hmove.finished hne
      rcases hsource with ⟨-, hlink⟩ | ⟨hdoe, -⟩
      · exact ⟨hlink.symm, hnamed, hfinished⟩
      · cases hdoe
    · obtain ⟨rfl, htries⟩ := hmove.tries hlt
      rcases hsource with ⟨-, hauth⟩ | ⟨hdoe, -⟩
      · exact ⟨hauth.symm, hnamed, htries⟩
      · cases hdoe
    · rw [← h.request.1] at hinside
      obtain ⟨rfl, range, hrange, habsent⟩ := hmove.absent hrr hfinished htries hinside
      refine ⟨data, range, ?_, hrange, hlast ▸ habsent⟩
      rcases hsource with ⟨hdata, hdoe⟩ | ⟨-, hnack⟩
      · exact Or.inl ⟨hdata, hdoe.symm, hnamed⟩
      · exact Or.inr hnack
  have hnext : next = (session.controller.onData packet true).1 := rfl
  clear_value next
  unfold onData at hnext
  cases hunwrap : unwrap packet with
  | none =>
      rw [hunwrap] at hnext
      rw [hnext]
      exact ⟨packet, _, NsStep.unmoved hstep, Or.inl ⟨rfl, rfl⟩⟩
  | some pair =>
      obtain ⟨data, contentType⟩ := pair
      simp only [hunwrap, if_true] at hnext
      refine ⟨data, contentType, ?_, ?_⟩
      · rcases onDataValidated_cases session.controller data contentType with
          ⟨middle, hadvance, hconclude⟩ | ⟨fault, -, hfault⟩
        · have hmove := advance_nsStep hstep hasks.tries hadvance
          obtain ⟨hsameStep, hsameFinished, hsameTries⟩ := conclude_position middle data
          rw [hconclude] at hnext
          rw [hnext]
          exact ⟨hsameFinished ▸ hmove.finished, hsameTries ▸ hmove.tries,
            by rw [hsameStep, hsameFinished, hsameTries]; exact hmove.absent⟩
        · rw [hnext, hfault]
          exact NsStep.unmoved hstep
      · rcases unwrap_eq_some hunwrap with ⟨hnack, hdoe, hinner⟩ | ⟨hdata, hcontent⟩
        · exact Or.inr ⟨hdoe, hnack, hinner⟩
        · exact Or.inl ⟨hdata, hcontent⟩

end Session

section Examples

attribute [local instance] ndnPacketFormat

/-- A delegation of the resolved label to a zone of its own. -/
def hostLink : Data :=
  ⟨Label.recordName [] [host] Label.nsRrType ++ [firstVersion], 1, 0, [], [], []⟩

/-- A delegation of another zone, whose two names happen to enclose the query. -/
def foreignLink : Data :=
  ⟨Label.recordName [host, host] [] Label.nsRrType ++ [firstVersion], 1, 0,
    (encodeNames [[], [Label.txtRrType]]).getD [], [], []⟩

/-- The delegation of another zone inside an `NDNS_NACK`. -/
def wrappedLink : Data :=
  ⟨Label.recordName [] [host] Label.nsRrType, 3, 0,
    ((Layout.encode foreignLink).map contentOf).getD [], [], []⟩

theorem queryNs_step_link :
    (rootSession.react (.data hostLink true)).1.nFinishedComps = 0 + 1 :=
  ((@Session.queryNs_step _ _ _ _ _ hostLink rootSession_reachable rfl rfl (by decide)).1
    (by decide)).2.2

/-- A delegation of another zone inside an `NDNS_NACK` is taken for a proof of absence. -/
theorem queryNs_wrapped_link :
    ∃ session interest packet,
      Session.Reachable [host] Label.txtRrType session ∧ session.pending = some interest ∧
        session.controller.step = .queryNs ∧ packet.matches interest ∧
        (session.react (.data packet true)).1.step = .queryRr ∧
        (session.react (.data packet true)).1.nTryComps = session.controller.nTryComps ∧
        (session.react (.data packet true)).1.nFinishedComps =
          session.controller.nFinishedComps ∧
        NdnsContentType.ofCode packet.contentType ≠ .doe ∧
        (blockFromValue packet.content).bind PacketFormat.decode = some foreignLink ∧
        NdnsContentType.ofCode foreignLink.contentType ≠ .doe :=
  ⟨rootSession, _, wrappedLink, rootSession_reachable, rfl, rfl, by decide, by decide, by decide,
    by decide, by decide, by decide, by decide⟩

end Examples

/-! ## Outcomes -/

/-- The outcomes that call the user of the resolver back. -/
def Outcome.isCallback : Outcome → Bool
  | .ok (.succeed _ _) => true
  | .ok .fail => true
  | _ => false

theorem Session.Invariant.callbacks_le_one {session : Session} (h : session.Invariant) :
    (session.outcomes.filter Outcome.isCallback).length ≤ 1 := by
  have hearlier := h.earlier
  cases houtcomes : session.outcomes with
  | nil => simp
  | cons last earlier =>
      rw [houtcomes] at hearlier
      have hnone : earlier.filter Outcome.isCallback = [] := by
        rw [List.filter_eq_nil_iff]
        intro outcome houtcome
        obtain ⟨interest, rfl⟩ := hearlier outcome houtcome
        exact Bool.false_ne_true
      rw [List.filter_cons, hnone]
      split_ifs <;> simp

namespace Event

variable [PacketFormat]

/-- The packet of the event can be unwrapped and, when it is accepted, read. -/
def Readable (controller : IterativeQueryController) : Event → Prop
  | .data packet accepted => ∃ data contentType,
      IterativeQueryController.unwrap packet = some (data, contentType) ∧
        (accepted = true → controller.Readable data contentType)
  | .networkNack | .timeout => True

/-- The event delivers a denial of something else than the last query. -/
def Unconvincing (controller : IterativeQueryController) : Event → Prop
  | .data packet accepted => accepted = true ∧ ∃ data contentType,
      IterativeQueryController.unwrap packet = some (data, contentType) ∧
        controller.Unconvincing data contentType
  | .networkNack | .timeout => False

end Event

namespace Session

open IterativeQueryController

variable [PacketFormat] {dstLabel : Name} {rrType : Component} {session : Session}

/-- The handler of a readable event expresses an Interest or calls back, unless the event is an
unconvincing denial. -/
theorem react_readable {interest : Interest} {event : Event}
    (hasks : session.controller.Asks interest) (hreadable : event.Readable session.controller) :
    (event.Unconvincing session.controller →
        (session.react event).2 = .error .unconvincingDenial) ∧
      (¬ event.Unconvincing session.controller →
        ∃ action, (session.react event).2 = .ok action) := by
  cases event with
  | networkNack => exact ⟨False.elim, fun _ ↦ ⟨_, rfl⟩⟩
  | timeout => exact ⟨False.elim, fun _ ↦ ⟨_, rfl⟩⟩
  | data packet accepted =>
      obtain ⟨data, contentType, hunwrap, hread⟩ := hreadable
      have hreact : session.react (.data packet accepted) =
          if accepted then session.controller.onDataValidated data contentType
          else (session.controller, .ok .fail) := by
        change session.controller.onData packet accepted = _
        simp only [onData, hunwrap]
      cases accepted with
      | false => exact ⟨fun h ↦ absurd h.1 (by decide), fun _ ↦ ⟨.fail, by rw [hreact]; rfl⟩⟩
      | true =>
          rw [hreact, if_pos rfl]
          constructor
          · rintro ⟨-, _, _, hsame, hunconvincing⟩
            cases hunwrap.symm.trans hsame
            rcases (hread rfl).advance hasks with ⟨next, hadvance⟩ | ⟨-, hfault⟩
            · obtain ⟨hstep, rfl, range, hrange, habsent⟩ := hunconvincing
              obtain ⟨range', hrange', habsent'⟩ := advance_doe hstep hadvance
              cases hrange.symm.trans hrange'
              rw [habsent] at habsent'
              cases habsent'
            · simp only [onDataValidated, hfault]
          · intro hconvincing
            rcases (hread rfl).advance hasks with ⟨next, hadvance⟩ | ⟨hunconvincing, -⟩
            · obtain ⟨action, haction⟩ := (hread rfl).conclude hasks hadvance
              exact ⟨action, by simpa only [onDataValidated, hadvance] using haction⟩
            · exact absurd ⟨rfl, data, contentType, hunwrap, hunconvincing⟩ hconvincing

/-- A resolution calls back at most once, and every event that can be read and is not an
unconvincing denial leads to a new Interest or to the callback. -/
theorem one_outcome (h : session.Reachable dstLabel rrType) :
    (session.outcomes.filter Outcome.isCallback).length ≤ 1 ∧
      ∀ interest event, session.pending = some interest → event.answers interest →
        event.Readable session.controller →
        (event.Unconvincing session.controller →
            (session.react event).2 = .error .unconvincingDenial) ∧
          (¬ event.Unconvincing session.controller →
            ∃ action, (session.react event).2 = .ok action) :=
  ⟨h.invariant.callbacks_le_one,
    fun interest _ hpending _ hreadable ↦ react_readable (h.invariant.asks interest hpending)
      hreadable⟩

end Session

section Examples

attribute [local instance] ndnPacketFormat

/-- The root session after the delegation of the label. -/
def delegatedSession : Session := rootSession.handle (.data hostLink true)

theorem delegatedSession_reachable : delegatedSession.Reachable [host] Label.txtRrType :=
  ⟨4000, 0, .single (.event rfl (by decide : hostLink.matches _))⟩

/-- A denial of names that do not enclose the query for the delegation. -/
def strayDenial : Data :=
  ⟨Label.recordName [] [host] Label.nsRrType ++ [firstVersion], NdnsContentType.doe.toCode, 0,
    (encodeNames [[host, host], [host, host, host]]).getD [], [], []⟩

/-- With the delegation handled, the answer is handed over; a denial of something else instead of the
delegation makes the handler throw. -/
theorem one_outcome_delegated :
    (delegatedSession.outcomes.filter Outcome.isCallback).length ≤ 1 ∧
      (∃ action, (delegatedSession.react (.data apexAnswer true)).2 = .ok action) ∧
      (rootSession.react (.data strayDenial true)).2 = .error .unconvincingDenial := by
  obtain ⟨hcallbacks, hhandled⟩ := Session.one_outcome delegatedSession_reachable
  have hdenied := (Session.one_outcome rootSession_reachable).2 _ (.data strayDenial true) rfl
    (by decide : strayDenial.matches _) ⟨strayDenial, .doe, rfl, fun _ ↦ ⟨by decide, (by decide :
      (Response.wireDecodeDoe strayDenial.content).isSome)⟩⟩
  have hanswered := hhandled _ (.data apexAnswer true) rfl (by decide : apexAnswer.matches _)
    ⟨apexAnswer, .blob, rfl, fun _ ↦ ⟨by decide, Or.inl (by decide)⟩⟩
  refine ⟨hcallbacks, hanswered.2 ?_, hdenied.1 ?_⟩
  · rintro ⟨-, data, contentType, hunwrap, hstep, -⟩
    exact absurd hstep (by decide)
  · exact ⟨rfl, strayDenial, .doe, rfl, rfl, rfl, _, rfl, by decide⟩

/-- An `NDNS_NACK` without content. -/
def emptyNack : Data := ⟨Label.recordName [] [host] Label.nsRrType, 3, 0, [], [], []⟩

/-- A malformed packet makes the handler throw, and neither callback is called. -/
theorem malformed_escapes :
    ∃ session interest event,
      Session.Reachable [host] Label.txtRrType session ∧ session.pending = some interest ∧
        event.answers interest ∧ (session.react event).2 = .error .malformed :=
  ⟨rootSession, _, .data emptyNack true, rootSession_reachable, rfl,
    (by decide : emptyNack.matches _), by decide⟩

end Examples

end Ndns.Clients
