import Ndns.Clients.IterativeQueryController
import Ndns.Daemon.QueryRules

/-!
# A Resolution inside One Zone

The Interests of a session go to the name server of a zone, whose answers are accepted and handed
to the controller.  A controller that started in the zone stays in it as long as it meets no
delegation, and what it does with the answers to its queries is computed here once.
-/

namespace Ndns.Clients

open Ndn Calls Daemon

/-! ## Round trips -/

section Exchange

variable [PacketFormat] {Keys : Type}

/-- What the reply of the server is for the client: without a matching packet the Interest times
out. -/
def replyEvent (reply : Except Fault (Option Data)) (interest : Interest) : Event :=
  match reply with
  | .ok (some answer) => if answer.matches interest then .data answer true else .timeout
  | _ => .timeout

/-- The pending Interest goes to the server, and its reply to the handler. -/
def exchange (services : Services Keys) (server : NameServer) (state : Session × World Keys) :
    Session × World Keys :=
  match state.1.pending with
  | none => state
  | some interest =>
      let reply := (server.onInterest interest).run (World.handle services) state.2
      (state.1.handle (replyEvent reply.1 interest), reply.2)

/-- The resolution ends with the given packet. -/
def Obtains (services : Services Keys) (server : NameServer) (world : World Keys)
    (controller : IterativeQueryController) (data : Data) : Prop :=
  ∃ rounds response,
    ((exchange services server)^[rounds] (Session.begin controller, world)).1.outcomes.head? =
      some (.ok (.succeed data response))

variable {services : Services Keys} {server : NameServer} {state : Session × World Keys}

/-- A state in which a controller waits for the answer to an Interest. -/
structure Waits (state : Session × World Keys) (controller : IterativeQueryController)
    (interest : Interest) (world : World Keys) : Prop where
  controller_eq : state.1.controller = controller
  last : state.1.outcomes.head? = some (.ok (.express interest))
  world_eq : state.2 = world

/-- A round trip with a matching answer. -/
theorem Waits.exchange {controller : IterativeQueryController} {interest : Interest}
    {world world' : World Keys} {answer : Data} (h : Waits state controller interest world)
    (hrun : (server.onInterest interest).run (World.handle services) world =
      (.ok (some answer), world'))
    (hmatches : answer.matches interest) :
    (exchange services server state).1.controller = (controller.onData answer true).1 ∧
      (exchange services server state).1.outcomes.head? = some (controller.onData answer true).2 ∧
      (exchange services server state).2 = world' := by
  have hpending : state.1.pending = some interest := by rw [Session.pending, h.last]
  have hexchange : Clients.exchange services server state =
      (state.1.handle (.data answer true), world') := by
    rw [Clients.exchange, hpending]
    simp only [h.world_eq, hrun, replyEvent, if_pos hmatches]
  rw [hexchange, ← h.controller_eq]
  exact ⟨rfl, rfl, rfl⟩

/-- A session that waits for nothing stays as it is. -/
theorem exchange_of_pending_none (h : state.1.pending = none) :
    exchange services server state = state := by
  rw [exchange, h]

theorem iterate_of_pending_none (h : state.1.pending = none) (rounds : ℕ) :
    (exchange services server)^[rounds] state = state := by
  induction rounds with
  | zero => rfl
  | succ rounds ih => rw [Function.iterate_succ_apply', ih, exchange_of_pending_none h]

/-- A resolution that has come to an exception obtains nothing. -/
theorem not_obtains_of_error {world : World Keys} {controller : IterativeQueryController}
    {rounds : ℕ} {fault : ControllerFault} (data : Data)
    (h : ((exchange services server)^[rounds] (Session.begin controller, world)).1.outcomes.head? =
      some (.error fault)) : ¬ Obtains services server world controller data := by
  rintro ⟨other, response, hother⟩
  have hnone : ∀ {count outcome}, ((exchange services server)^[count]
      (Session.begin controller, world)).1.outcomes.head? = some outcome →
        (∀ interest, outcome ≠ .ok (.express interest)) →
          ((exchange services server)^[count] (Session.begin controller, world)).1.pending = none := by
    intro count outcome hhead hend
    unfold Session.pending
    rw [hhead]
    split
    case h_1 interest hexpress => exact absurd (Option.some.inj hexpress) (hend interest)
    case h_2 => rfl
  have hsame : (exchange services server)^[rounds] (Session.begin controller, world) =
      (exchange services server)^[other] (Session.begin controller, world) := by
    rcases le_total rounds other with hle | hle
    · obtain ⟨more, rfl⟩ := Nat.exists_eq_add_of_le' hle
      rw [Function.iterate_add_apply, iterate_of_pending_none (hnone h (by simp))]
    · obtain ⟨more, rfl⟩ := Nat.exists_eq_add_of_le' hle
      rw [Function.iterate_add_apply, iterate_of_pending_none (hnone hother (by simp))]
  rw [hsame, hother] at h
  cases h

end Exchange

/-! ## Controllers inside a zone -/

/-- The Interest for a record of the zone. -/
def recordInterest (zoneName label : Name) (type : Component) (interestLifetime : ℕ) : Interest :=
  ⟨Label.recordName zoneName label type, true, interestLifetime, []⟩

namespace IterativeQueryController

/-- A controller that is still in the zone it started in. -/
def inZone (zoneName label : Name) (rrType : Component) (interestLifetime : ℕ) (step : QueryStep)
    (nTryComps : ℕ) (lastLabelType : Name) : IterativeQueryController :=
  ⟨zoneName ++ label, rrType, interestLifetime, step, zoneName.length, nTryComps, none,
    lastLabelType⟩

/-- The controller that asks for the NS record of the first components of the label. -/
def attempt (zoneName label : Name) (rrType : Component) (interestLifetime count : ℕ) :
    IterativeQueryController :=
  inZone zoneName label rrType interestLifetime .queryNs count (label.take count ++ [Label.nsRrType])

/-- The controller that asks for the record itself. -/
def lookup (zoneName label : Name) (rrType : Component) (interestLifetime count : ℕ) :
    IterativeQueryController :=
  inZone zoneName label rrType interestLifetime .queryRr count (label ++ [rrType])

variable {zoneName label lastLabelType : Name} {rrType version : Component}
  {interestLifetime count : ℕ} {step : QueryStep} {data : Data}

@[simp]
theorem zone_inZone :
    (inZone zoneName label rrType interestLifetime step count lastLabelType).zone = zoneName := by
  simp [zone, inZone, Name.getPrefix]

theorem expressLatest_inZone_ns :
    (inZone zoneName label rrType interestLifetime .queryNs count lastLabelType).expressLatest =
      (attempt zoneName label rrType interestLifetime count,
        .ok (.express (recordInterest zoneName (label.take count) Label.nsRrType
          interestLifetime))) := by
  simp [expressLatest, makeLatestInterest, inZone, forwardingHint, hasEnded, queryLabel, queryType,
    zone, Name.getPrefix, Name.getSubName, attempt, Query.toInterest, recordInterest,
    Label.recordName]

theorem expressLatest_inZone_rr :
    (inZone zoneName label rrType interestLifetime .queryRr count lastLabelType).expressLatest =
      (lookup zoneName label rrType interestLifetime count,
        .ok (.express (recordInterest zoneName label rrType interestLifetime))) := by
  simp [expressLatest, makeLatestInterest, inZone, forwardingHint, hasEnded, queryLabel, queryType,
    zone, Name.getPrefix, lookup, Query.toInterest, recordInterest, Label.recordName]

/-- The start asks for the first component, or at once for a record at the apex. -/
theorem start_inZone :
    (make (zoneName ++ label) rrType interestLifetime zoneName.length).start =
      if label = [] then (lookup zoneName label rrType interestLifetime 1,
        .ok (.express (recordInterest zoneName label rrType interestLifetime)))
      else (attempt zoneName label rrType interestLifetime 1,
        .ok (.express (recordInterest zoneName (label.take 1) Label.nsRrType
          interestLifetime))) := by
  unfold start
  by_cases hlabel : label = []
  · rw [if_pos hlabel, if_pos (by simp [make, hlabel])]
    exact expressLatest_inZone_rr
  · rw [if_neg hlabel, if_neg (by simpa [make] using hlabel)]
    exact expressLatest_inZone_ns

/-- A packet named after the record, with content that can be read, is reported. -/
theorem parseFinalResponse_record {controller : IterativeQueryController}
    (hzone : controller.zone = zoneName)
    (hname : data.name = Label.recordName zoneName label rrType ++ [version])
    (hcontent : (parseBlocks data.content).isSome) :
    ∃ response, controller.parseFinalResponse data = .ok response := by
  have hlong : controller.zone.length < data.name.length := by
    rw [hzone, hname, List.length_append, Label.recordName_length]
    omega
  obtain ⟨⟨flag, response⟩, hresponse⟩ := @Response.fromData_isOk .default controller.zone data
    hlong (Or.inr (Or.inr hcontent))
  exact ⟨response, by rw [parseFinalResponse, hresponse]⟩

variable [PacketFormat]

theorem unwrap_of_ne_nack {contentType : NdnsContentType}
    (hcontentType : NdnsContentType.ofCode data.contentType = contentType)
    (hne : contentType ≠ .nack) : unwrap data = some (data, contentType) := by
  rw [unwrap, if_neg (hcontentType ▸ hne), hcontentType]

/-- An AUTH record makes the controller ask for one more component. -/
theorem onData_auth (hauth : NdnsContentType.ofCode data.contentType = .auth)
    (hcount : count < label.length) :
    (attempt zoneName label rrType interestLifetime count).onData data true =
      (attempt zoneName label rrType interestLifetime (count + 1),
        .ok (.express (recordInterest zoneName (label.take (count + 1)) Label.nsRrType
          interestLifetime))) := by
  have hinside : ¬ (zoneName ++ label).length < zoneName.length + (count + 1) := by
    rw [List.length_append]
    omega
  rw [onData, unwrap_of_ne_nack hauth (by decide)]
  simp only [if_true, onDataValidated, advance, attempt, inZone, onNsData, Except.map,
    checkLabelEnd, if_neg hinside, conclude]
  exact expressLatest_inZone_ns

/-- An AUTH record for the whole label makes the controller ask for the record. -/
theorem onData_auth_end (hauth : NdnsContentType.ofCode data.contentType = .auth)
    (hrrType : rrType ≠ Label.nsRrType) :
    (attempt zoneName label rrType interestLifetime label.length).onData data true =
      (lookup zoneName label rrType interestLifetime (label.length + 1),
        .ok (.express (recordInterest zoneName label rrType interestLifetime))) := by
  have hend : (zoneName ++ label).length < zoneName.length + (label.length + 1) := by
    rw [List.length_append]
    omega
  rw [onData, unwrap_of_ne_nack hauth (by decide)]
  simp only [if_true, onDataValidated, advance, attempt, inZone, onNsData, Except.map,
    checkLabelEnd, if_pos hend, if_neg hrrType, conclude]
  exact expressLatest_inZone_rr

/-- A denial of the NS record for the whole label, as the range decides. -/
theorem onData_nack {doe : Data} {range : Name × Name}
    (hunwrap : unwrap data = some (doe, .doe))
    (hrange : Response.wireDecodeDoe doe.content = some range) :
    (attempt zoneName label rrType interestLifetime label.length).onData data true =
      if isAbsentByRange (label ++ [Label.nsRrType]) range = true then
        (lookup zoneName label rrType interestLifetime label.length,
          .ok (.express (recordInterest zoneName label rrType interestLifetime)))
      else (attempt zoneName label rrType interestLifetime label.length,
        .error .unconvincingDenial) := by
  have hinside : ¬ (zoneName ++ label).length < zoneName.length + label.length := by
    rw [List.length_append]
    omega
  rw [onData, hunwrap]
  simp only [if_true, onDataValidated, advance, attempt, inZone, onNsData, onNsDoe, isAbsentByDoe,
    hrange, List.take_length]
  split_ifs with habsent
  · simp only [habsent, Except.map, checkLabelEnd, if_neg hinside, conclude]
    exact expressLatest_inZone_rr
  · simp only [Bool.not_eq_true] at habsent
    simp only [habsent, Except.map]

/-- The record itself ends the resolution. -/
theorem onData_record (hnack : NdnsContentType.ofCode data.contentType ≠ .nack)
    (hname : data.name = Label.recordName zoneName label rrType ++ [version])
    (hcontent : (parseBlocks data.content).isSome) :
    ∃ response, ((lookup zoneName label rrType interestLifetime count).onData data true).2 =
      .ok (.succeed data response) := by
  rw [onData, unwrap_of_ne_nack rfl hnack]
  simp only [if_true, onDataValidated, advance, lookup, inZone, conclude]
  obtain ⟨response, hresponse⟩ := @parseFinalResponse_record zoneName label
    rrType version data (inZone zoneName label rrType interestLifetime .answerStub count (label ++ [rrType]))
    zone_inZone hname hcontent
  exact ⟨response, congrArg (Except.map _) hresponse⟩

/-- A delegation of the whole label ends the resolution of an NS record. -/
theorem onData_link {delegations : List Name}
    (hlink : NdnsContentType.ofCode data.contentType = .link)
    (hdelegations : linkDelegations data = some delegations)
    (hname : data.name = Label.recordName zoneName label Label.nsRrType ++ [version])
    (hcontent : (parseBlocks data.content).isSome) :
    ∃ response, ((attempt zoneName label Label.nsRrType interestLifetime label.length).onData data
      true).2 = .ok (.succeed data response) := by
  have hwhole : zoneName.length + label.length = (zoneName ++ label).length :=
    List.length_append.symm
  have hinside : ¬ (zoneName ++ label).length < zoneName.length + label.length := by omega
  rw [onData, unwrap_of_ne_nack hlink (by decide)]
  simp only [if_true, onDataValidated, advance, attempt, inZone, onNsData, onNsLink, hdelegations,
    and_true, if_pos hwhole, Except.map, checkLabelEnd, if_neg hinside, conclude]
  obtain ⟨response, hresponse⟩ := @parseFinalResponse_record zoneName label Label.nsRrType version
    data ⟨zoneName ++ label, Label.nsRrType, interestLifetime, .answerStub, zoneName.length,
      label.length, if delegations.isEmpty then none else some data,
      label.take label.length ++ [Label.nsRrType]⟩ (by simp [zone, Name.getPrefix]) hname hcontent
  exact ⟨response, congrArg (Except.map _) hresponse⟩

end IterativeQueryController

end Ndns.Clients
