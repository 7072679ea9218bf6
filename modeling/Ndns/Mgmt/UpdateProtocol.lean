import Ndns.Clients.NdnsUpdate
import Ndns.Mgmt.ConvergingUpdates
import Ndns.Mgmt.ReadYourWrites

/-!
# The Update Protocol

Any number of clients send updates to the server of a zone.  Interests and answers can be lost,
delayed and delivered more than once, and the validator of the server accepts packets in any order.
A client that exits with 0 has its packet in the tables, from then on, unless a newer version has
taken its place.
-/

namespace Ndns.Clients

open Ndn Calls Daemon DbMgr NameServer Order.LatestWins

section

variable [PacketFormat] {Keys : Type} {services : Services Keys} {server : NameServer}
  {db : Database} {update : Received}

/-! ## The network -/

/-- The clients, the server with the updates its validator has accepted, and the answers it has
sent. -/
structure UpdateNetwork (Keys : Type) where
  world : World Keys
  clients : List NdnsUpdate
  accepted : List Accepted
  answers : List Data

namespace UpdateNetwork

/-- What can happen.  Nothing is used up, so that the network may deliver it again. -/
inductive Step (services : Services Keys) (server : NameServer) :
    UpdateNetwork Keys → UpdateNetwork Keys → Prop
  | start {network : UpdateNetwork Keys} (update : Received) (interestLifetime : ℕ) :
      Step services server network { network with
        clients := ⟨server.zone.name, interestLifetime, update, false, .waiting⟩ :: network.clients }
  -- `handleUpdate`, when the validator accepts the packet
  | accept {network : UpdateNetwork Keys} {client : NdnsUpdate} {interest : Interest}
      {re : Label.MatchResult} {packet : Received} (hclient : client ∈ network.clients)
      (hinterest : client.makeUpdateInterest = some interest)
      (hmatch : Label.matchInterestName interest.name server.zone.name = .matched re)
      (htype : re.rrType = Label.ndnsUpdateLabel) (hpacket : updatePacket re = some packet) :
      Step services server network
        { network with accepted := (interest, packet) :: network.accepted }
  | process {network : UpdateNetwork Keys} {interest : Interest} {packet : Received}
      (haccepted : (interest, packet) ∈ network.accepted) :
      Step services server network { network with
        world := ((doUpdate server interest packet).run (World.handle services) network.world).2
        answers := ((doUpdate server interest packet).run (World.handle services)
          network.world).1.toOption.join.toList ++ network.answers }
  | deliver {network : UpdateNetwork Keys} {before after : List NdnsUpdate} {client : NdnsUpdate}
      {interest : Interest} {answer : Data} (hclients : network.clients = before ++ client :: after)
      (hphase : client.phase = .waiting) (hinterest : client.makeUpdateInterest = some interest)
      (hanswer : answer ∈ network.answers) (hmatches : answer.matches interest) :
      Step services server network
        { network with clients := before ++ client.onData answer :: after }
  | timeout {network : UpdateNetwork Keys} {before after : List NdnsUpdate} {client : NdnsUpdate}
      (hclients : network.clients = before ++ client :: after) (hphase : client.phase = .waiting) :
      Step services server network { network with clients := before ++ client.onTimeout :: after }
  | validated {network : UpdateNetwork Keys} {before after : List NdnsUpdate} {client : NdnsUpdate}
      (hclients : network.clients = before ++ client :: after) (hphase : client.phase = .verifying) :
      Step services server network
        { network with clients := before ++ client.onDataValidated :: after }
  | rejected {network : UpdateNetwork Keys} {before after : List NdnsUpdate} {client : NdnsUpdate}
      (hclients : network.clients = before ++ client :: after) (hphase : client.phase = .verifying) :
      Step services server network
        { network with clients := before ++ client.onDataValidationFailed :: after }

end UpdateNetwork

/-! ## Settled updates -/

/-- The packet is stored for its record, or a newer version. -/
def Settled (server : NameServer) (update : Received) (db : Database) : Prop :=
  ∃ re, Label.matchDataName update.data.name server.zone.name = .matched re ∧
    Covered (held db server.zone.id re.rrLabel re.rrType) (re.version, update.wire)

/-- Another update does not undo a settled one. -/
theorem Settled.updateDatabase {re : Label.MatchResult} {packet : Received} (hvalid : db.Valid)
    (hsingle : db.SingleVersion) (h : Settled server update db) :
    Settled server update (updateDatabase server re packet db).1 := by
  obtain ⟨own, hmatch, hcovered⟩ := h
  refine ⟨own, hmatch, ?_⟩
  rw [held_updateDatabase hvalid hsingle]
  split_ifs
  · exact hcovered.offer _
  · exact hcovered

theorem updateDatabase_ok_iff {re : Label.MatchResult} {packet : Received} :
    (updateDatabase server re packet db).2 = .updateOk ↔
      ∀ old, held db server.zone.id re.rrLabel re.rrType = some old → old.1 < re.version := by
  unfold updateDatabase held
  cases keyRow db server.zone.id re.rrLabel re.rrType with
  | none => simp
  | some row =>
      by_cases hnewer : row.version < re.version
      · simp [hnewer]
      · simp [hnewer]

/-- `UPDATE_OK` settles the update. -/
theorem settled_of_ok {re : Label.MatchResult} (hvalid : db.Valid) (hsingle : db.SingleVersion)
    (hmatch : Label.matchDataName update.data.name server.zone.name = .matched re)
    (hok : (updateDatabase server re update db).2 = .updateOk) :
    Settled server update (updateDatabase server re update db).1 := by
  refine ⟨re, hmatch, ?_⟩
  rw [held_updateDatabase hvalid hsingle, if_pos ⟨rfl, rfl⟩]
  exact covered_of_newer (updateDatabase_ok_iff.mp hok)

/-! ## The invariant -/

/-- The Interest is one that a client of the zone makes for the packet. -/
def Carries (server : NameServer) (interest : Interest) (packet : Received) : Prop :=
  ∃ component, NdnsUpdate.updateComponent packet.wire = some component ∧
    interest.name = Label.recordName server.zone.name [component] Label.ndnsUpdateLabel

theorem NdnsUpdate.carries {client : NdnsUpdate} {interest : Interest}
    (hzone : client.zone = server.zone.name) (h : client.makeUpdateInterest = some interest) :
    Carries server interest client.update := by
  obtain ⟨component, hcomponent, hname⟩ := name_of_makeUpdateInterest h
  exact ⟨component, hcomponent, hzone ▸ hname⟩

/-- The client has read a success and is not stopped by an error. -/
def NdnsUpdate.Succeeds (client : NdnsUpdate) : Prop :=
  client.hasError = false ∧ (client.phase = .verifying ∨ client.phase = .stopped)

theorem NdnsUpdate.onData_zone (client : NdnsUpdate) (data : Data) :
    (client.onData data).zone = client.zone := by
  unfold onData
  split
  · rfl
  · rfl

theorem NdnsUpdate.onData_update (client : NdnsUpdate) (data : Data) :
    (client.onData data).update = client.update := by
  unfold onData
  split
  · rfl
  · rfl

/-- After a failure no client succeeds. -/
theorem NdnsUpdate.ok_of_succeeds {client : NdnsUpdate} {data : Data} {code : UpdateReturnCode}
    (hcontent : data.content = updateContent code) (h : (client.onData data).Succeeds) :
    code = .updateOk := by
  have herror := h.1
  unfold onData at herror
  rw [parseResponse_updateContent hcontent] at herror
  cases code with
  | updateOk => rfl
  | updateFailure => simp [UpdateReturnCode.toCode] at herror

theorem NdnsUpdate.succeeds_of_exitCode {client : NdnsUpdate} (h : client.exitCode = some 0) :
    client.Succeeds := by
  unfold exitCode at h
  cases hphase : client.phase with
  | waiting => simp [hphase] at h
  | verifying => simp [hphase] at h
  | raised => simp [hphase] at h
  | stopped =>
      simp only [hphase, Option.some.injEq] at h
      refine ⟨?_, Or.inr hphase⟩
      split_ifs at h with herror
      simpa using herror

theorem received_eq {packet packet' : Received} (h : packet.wire = packet'.wire) :
    packet = packet' := by
  obtain ⟨wire, data, hdecode⟩ := packet
  obtain ⟨wire', data', hdecode'⟩ := packet'
  obtain rfl : wire = wire' := h
  obtain rfl := Option.some.inj (hdecode.symm.trans hdecode')
  rfl

/-- An answer belongs to one update, and a success says that the update is settled. -/
def Truthful (server : NameServer) (db : Database) (answer : Data) : Prop :=
  ∃ interest packet version code, Carries server interest packet ∧
    answer.name = interest.name ++ [version] ∧ answer.content = updateContent code ∧
      (code = .updateOk → Settled server packet db)

/-- The tables change in a way that keeps what is settled. -/
theorem Truthful.mono {db' : Database} {answer : Data} (h : Truthful server db answer)
    (hsettled : ∀ packet, Settled server packet db → Settled server packet db') :
    Truthful server db' answer := by
  obtain ⟨interest, packet, version, code, hcarries, hname, hcontent, hok⟩ := h
  exact ⟨interest, packet, version, code, hcarries, hname, hcontent,
    fun hcode ↦ hsettled packet (hok hcode)⟩

namespace UpdateNetwork

/-- What holds of the network at all times. -/
structure Sound (server : NameServer) (network : UpdateNetwork Keys) : Prop where
  valid : network.world.db.Valid
  single : network.world.db.SingleVersion
  zones : ∀ client ∈ network.clients, client.zone = server.zone.name
  accepted : ∀ made ∈ network.accepted, Carries server made.1 made.2
  answers : ∀ answer ∈ network.answers, Truthful server network.world.db answer
  ends : ∀ client ∈ network.clients, client.Succeeds →
    Settled server client.update network.world.db

variable {network network' : UpdateNetwork Keys}

/-- One client goes on. -/
theorem Sound.replace {before after : List NdnsUpdate} {client next : NdnsUpdate}
    (h : Sound server network) (hclients : network.clients = before ++ client :: after)
    (hzone : next.zone = client.zone)
    (hends : next.Succeeds → Settled server next.update network.world.db) :
    Sound server { network with clients := before ++ next :: after } := by
  have hold : ∀ other ∈ before ++ next :: after, other = next ∨ other ∈ network.clients := by
    intro other hother
    rw [hclients]
    rcases List.mem_append.mp hother with hbefore | hrest
    · exact Or.inr (List.mem_append_left _ hbefore)
    · exact (List.mem_cons.mp hrest).imp_right fun hafter ↦
        List.mem_append_right _ (List.mem_cons_of_mem _ hafter)
  have hmem : client ∈ network.clients := hclients ▸ List.mem_append_cons_self
  refine ⟨h.valid, h.single, fun other hother ↦ ?_, h.accepted, h.answers, fun other hother ↦ ?_⟩
  · rcases hold other hother with rfl | hkept
    · exact hzone.trans (h.zones client hmem)
    · exact h.zones other hkept
  · rcases hold other hother with rfl | hkept
    · exact hends
    · exact h.ends other hkept

/-- A client that is given an answer has read a success only when its own update is settled. -/
theorem Sound.deliver {client : NdnsUpdate} {interest : Interest} {answer : Data}
    (h : Sound server network) (hclient : client ∈ network.clients)
    (hinterest : client.makeUpdateInterest = some interest) (hanswer : answer ∈ network.answers)
    (hmatches : answer.matches interest) (hsucceeds : (client.onData answer).Succeeds) :
    Settled server client.update network.world.db := by
  obtain ⟨component, hcomponent, hname⟩ :=
    NdnsUpdate.carries (h.zones client hclient) hinterest
  obtain ⟨interest', packet, version, code, ⟨component', hcomponent', hname'⟩, hanswerName, hcontent,
    hok⟩ := h.answers answer hanswer
  have hsame : interest.name = interest'.name := by
    rw [Data.matches, hanswerName] at hmatches
    have hlength : interest.name.length = interest'.name.length := by
      rw [hname, hname']
      simp [Label.recordName]
    exact (List.prefix_of_prefix_length_le hmatches (List.prefix_append _ _)
      hlength.le).eq_of_length hlength
  have hcomponents : component = component' := by
    rw [hname, hname'] at hsame
    simpa [Label.recordName] using hsame
  subst hcomponents
  have hpacket : packet = client.update :=
    received_eq (NdnsUpdate.wire_eq_of_updateComponent hcomponent' hcomponent)
  rw [← hpacket]
  exact hok (NdnsUpdate.ok_of_succeeds hcontent hsucceeds)

/-- The server processes an update that its validator has accepted. -/
theorem Sound.process {interest : Interest} {packet : Received} (h : Sound server network)
    (haccepted : (interest, packet) ∈ network.accepted) :
    Sound server { network with
      world := ((doUpdate server interest packet).run (World.handle services) network.world).2
      answers := ((doUpdate server interest packet).run (World.handle services)
        network.world).1.toOption.join.toList ++ network.answers } := by
  have hprocessed := @processed_doUpdate server _ _ services network.world h.valid h.single
    (interest, packet)
  have hsettled : ∀ other, Settled server other network.world.db → Settled server other
      ((doUpdate server interest packet).run (World.handle services) network.world).2.db := by
    intro other hother
    rw [db_doUpdate h.valid]
    cases Label.matchDataName packet.data.name server.zone.name with
    | outOfBounds => exact hother
    | noMatch => exact hother
    | matched re => exact hother.updateDatabase h.valid h.single
  refine ⟨hprocessed.valid, hprocessed.single, h.zones, h.accepted, fun answer hanswer ↦ ?_,
    fun client hclient hsucceeds ↦ hsettled _ (h.ends client hclient hsucceeds)⟩
  rcases List.mem_append.mp hanswer with hnew | hold
  · have hreturns : (doUpdate server interest packet).Returns (World.handle services) network.world
        (some answer)
        ((doUpdate server interest packet).run (World.handle services) network.world).2 := by
      refine Prod.ext ?_ rfl
      cases houtcome : ((doUpdate server interest packet).run (World.handle services)
          network.world).1 with
      | error fault => simp [houtcome, Except.toOption] at hnew
      | ok reply =>
          simp only [houtcome, Except.toOption, Option.join_some, Option.mem_toList] at hnew
          rw [hnew]
    obtain ⟨keys, hname⟩ := Mgmt.stamped_doUpdate hreturns
    obtain ⟨re, hmatch, hdb, hcontent⟩ := Mgmt.returns_doUpdate h.valid hreturns
    refine ⟨interest, packet, _, _, h.accepted _ haccepted, hname, hcontent, fun hok ↦ ?_⟩
    rw [hdb]
    exact settled_of_ok h.valid h.single hmatch hok
  · exact (h.answers answer hold).mono hsettled

/-- Every step keeps the invariant. -/
theorem Step.sound (hstep : Step services server network network') (h : Sound server network) :
    Sound server network' := by
  cases hstep with
  | start update interestLifetime =>
      refine ⟨h.valid, h.single, List.forall_mem_cons.mpr ⟨rfl, h.zones⟩, h.accepted, h.answers,
        List.forall_mem_cons.mpr ⟨fun hsucceeds ↦ ?_, h.ends⟩⟩
      rcases hsucceeds.2 with hphase | hphase
      · cases hphase
      · cases hphase
  | @accept client interest re packet hclient hinterest hmatch htype hpacket =>
      have hzone := h.zones client hclient
      obtain ⟨re', hmatch', -, hpacket'⟩ :=
        NdnsUpdate.updatePacket_of_makeUpdateInterest hzone hinterest
      obtain rfl := Label.MatchOutcome.matched.inj (hmatch.symm.trans hmatch')
      obtain rfl := Option.some.inj (hpacket.symm.trans hpacket')
      exact ⟨h.valid, h.single, h.zones,
        List.forall_mem_cons.mpr ⟨NdnsUpdate.carries hzone hinterest, h.accepted⟩, h.answers, h.ends⟩
  | process haccepted => exact h.process haccepted
  | @deliver before after client interest answer hclients _ hinterest hanswer hmatches =>
      have hmem : client ∈ network.clients := hclients ▸ List.mem_append_cons_self
      refine h.replace hclients (NdnsUpdate.onData_zone _ _) fun hsucceeds ↦ ?_
      rw [NdnsUpdate.onData_update]
      exact h.deliver hmem hinterest hanswer hmatches hsucceeds
  | timeout hclients =>
      exact h.replace hclients rfl fun hsucceeds ↦
        absurd hsucceeds.1 (by simp [NdnsUpdate.onTimeout])
  | @validated before after client hclients hphase =>
      have hmem : client ∈ network.clients := hclients ▸ List.mem_append_cons_self
      exact h.replace hclients rfl fun hsucceeds ↦ h.ends client hmem ⟨hsucceeds.1, Or.inl hphase⟩
  | rejected hclients =>
      exact h.replace hclients rfl fun hsucceeds ↦
        absurd hsucceeds.1 (by simp [NdnsUpdate.onDataValidationFailed])

/-- The network before the first client starts. -/
def initial (world : World Keys) : UpdateNetwork Keys := ⟨world, [], [], []⟩

theorem run_sound {world : World Keys} (hvalid : world.db.Valid)
    (hsingle : world.db.SingleVersion)
    (hrun : Relation.ReflTransGen (Step services server) (initial world) network) :
    Sound server network := by
  induction hrun with
  | refl =>
      refine ⟨hvalid, hsingle, ?_, ?_, ?_, ?_⟩
      · simp [initial]
      · simp [initial]
      · simp [initial]
      · simp [initial]
  | tail _ hstep ih => exact hstep.sound ih

/-- At any time in any run of the network, the packet of a client that has exited with 0 is in the
tables, or a newer version of its record. -/
theorem exit_settled {world : World Keys} (hvalid : world.db.Valid)
    (hsingle : world.db.SingleVersion)
    (hrun : Relation.ReflTransGen (Step services server) (initial world) network)
    {client : NdnsUpdate} (hclient : client ∈ network.clients) (hexit : client.exitCode = some 0) :
    Settled server client.update network.world.db :=
  (run_sound hvalid hsingle hrun).ends client hclient (NdnsUpdate.succeeds_of_exitCode hexit)

end UpdateNetwork

end

section Examples

open LocalServices

attribute [local instance] ndnPacketFormat

/-- A client with the second version of the text record. -/
def updater : NdnsUpdate := ⟨[letter 110], 4000, secondPacket, false, .waiting⟩

def updaterInterest : Interest := (updater.makeUpdateInterest).getD ⟨[], true, 0, []⟩

/-- The server processes this update. -/
def updateRun : Except Fault (Option Data) × World ℕ :=
  (doUpdate netServer updaterInterest secondPacket).run (World.handle localServices)
    ⟨firstDatabase, 0⟩

def updateAnswer : Data := updateRun.1.toOption.join.getD ⟨[], 0, 0, [], [], []⟩

/-- The client gets the answer, the validator accepts it, and the packet is in the tables. -/
theorem exit_settled_second : ∃ network : UpdateNetwork ℕ, ∃ client ∈ network.clients,
    client.update = secondPacket ∧ Settled netServer client.update network.world.db := by
  have hinterest : updater.makeUpdateInterest = some updaterInterest := by decide +kernel
  obtain ⟨re, hmatch, htype, hpacket⟩ :=
    @NdnsUpdate.updatePacket_of_makeUpdateInterest _ updater updaterInterest netServer.zone rfl
      hinterest
  have hsome : updateRun.1.toOption.join.isSome := by decide +kernel
  have hanswer : updateAnswer ∈ updateRun.1.toOption.join.toList := by
    rw [Option.mem_toList, Option.eq_some_of_isSome hsome, updateAnswer, Option.get_eq_getD]
  have hmatches : updateAnswer.matches updaterInterest := by decide +kernel
  have hexit : (updater.onData updateAnswer).onDataValidated.exitCode = some 0 := by decide +kernel
  have hverifying : (updater.onData updateAnswer).phase = .verifying := by decide +kernel
  have hrun : Relation.ReflTransGen (UpdateNetwork.Step localServices netServer)
      (.initial ⟨firstDatabase, 0⟩)
      ⟨updateRun.2, [(updater.onData updateAnswer).onDataValidated],
        [(updaterInterest, secondPacket)], updateRun.1.toOption.join.toList ++ []⟩ :=
    ((((Relation.ReflTransGen.single (.start secondPacket 4000)).tail
      (.accept List.mem_cons_self hinterest hmatch htype hpacket)).tail
      (.process List.mem_cons_self)).tail
      (.deliver rfl rfl hinterest (List.mem_append_left _ hanswer) hmatches)).tail
      (@UpdateNetwork.Step.validated _ _ _ _ _ [] [] _ rfl hverifying)
  have hupdate : (updater.onData updateAnswer).update = secondPacket :=
    NdnsUpdate.onData_update updater updateAnswer
  exact ⟨_, (updater.onData updateAnswer).onDataValidated, List.mem_cons_self, hupdate,
    @UpdateNetwork.exit_settled _ _ localServices netServer _ ⟨firstDatabase, 0⟩ firstDatabase_valid
      firstDatabase_singleVersion hrun _ List.mem_cons_self hexit⟩

end Examples

end Ndns.Clients
