import Ndns.Daemon.HealthyDatabase
import Ndns.Daemon.LocalServices
import Ndns.Daemon.NameServer

/-!
# Which Updates Reach the Database

`doUpdate` stores a packet under the label and type it reads off the name by position.  Nothing
compares the beginning of the name with the zone, so what keeps a foreign packet out of the
database is only its length, or a row that is already there.
-/

namespace Ndns.Daemon

open Ndn Calls

namespace NameServer

/-! ## Updates as functions of the tables -/

variable {Keys : Type} {services : Services Keys} {server : NameServer} {re : Label.MatchResult}
  {db : Database}

theorem run_replaceRecord {rrset : Rrset} (hid : rrset.id ≠ 0) (hzone : rrset.zone ≠ none)
    (version : Component) (wire : Block) (world : World Keys) :
    (replaceRecord rrset version wire).run (World.handle services) world =
      if rrset.version < version then
        (.ok .updateOk, { world with db := (
          if world.db.forbidsUpdate rrset.id version then world.db
          else world.db.updateRrset rrset.id rrset.ttl version wire) })
      else (.ok .updateFailure, world) := by
  have hupdate := @DbMgr.run_updateRrset _ services { rrset with version := version, data := wire }
    hid hzone world
  unfold replaceRecord
  by_cases hnewer : rrset.version < version
  · rw [if_pos hnewer, if_pos hnewer, Program.run_bind, hupdate]
    rfl
  · rw [if_neg hnewer, if_neg hnewer]
    rfl

theorem run_insertRecord {rrset : Rrset} (hid : rrset.id = 0) (hzone : rrset.zone = some server.zone)
    {version : Component} {wire : Block} {world : World Keys}
    (hnew : DbMgr.keyRow world.db server.zone.id rrset.label rrset.type = none) :
    (insertRecord server rrset version wire).run (World.handle services) world =
      (.ok .updateOk, { world with db := (world.db.insertRrset server.zone.id rrset.label rrset.type
        version server.zone.ttl wire) }) := by
  have hindex : (world.db.rrsets.any fun row ↦
      row.sameIndex server.zone.id rrset.label rrset.type version) = false := by
    rw [List.any_eq_false]
    intro row hrow hindex
    obtain ⟨hzoneId, hlabel, htype, -⟩ := RrsetRow.sameIndex_iff.mp hindex
    exact DbMgr.keyRow_eq_none.mp hnew row hrow ⟨hzoneId, hlabel, htype⟩
  unfold insertRecord
  have hinsert := @DbMgr.run_insertRrset _ services
    { rrset with version := version, data := wire, ttl := server.zone.ttl } server.zone hid hzone
    server.zone_found world
  rw [Program.run_bind, hinsert]
  simp only [hindex, Bool.false_eq_true, if_false, Program.run_pure]

theorem run_answerName (interest : Interest) (world : World Keys) :
    ∃ name keys, (answerName interest).run (World.handle services) world =
      (.ok name, { world with keys := keys }) :=
  ⟨_, _, rfl⟩

theorem run_signed (signer : Signer) (answer : Data) (world : World Keys) :
    ∃ outcome keys, (signed signer answer).run (World.handle services) world =
      (outcome, { world with keys := keys }) ∧ outcome ≠ .error .undefinedBehavior ∧
        ∀ reply, outcome = .ok reply → reply.content = answer.content := by
  unfold signed orThrow
  rw [Program.run_bind, run_service]
  rcases services.answer (.sign signer answer) world.keys with ⟨_ | signature, keys⟩
  · exact ⟨_, keys, rfl, by simp, fun _ hok ↦ nomatch hok⟩
  · refine ⟨_, keys, rfl, by simp, fun reply hok ↦ ?_⟩
    rw [← Except.ok.inj hok]

variable [PacketFormat] {packet : Received}

/-- The tables and the return code after an update of a healthy database. -/
def updateDatabase (server : NameServer) (re : Label.MatchResult) (packet : Received)
    (db : Database) : Database × UpdateReturnCode :=
  match DbMgr.keyRow db server.zone.id re.rrLabel re.rrType with
  | some row =>
      if row.version < re.version then
        (if db.forbidsUpdate row.id re.version then db
          else db.updateRrset row.id row.ttl re.version packet.wire, .updateOk)
      else (db, .updateFailure)
  | none =>
      (db.insertRrset server.zone.id re.rrLabel re.rrType re.version server.zone.ttl packet.wire,
        .updateOk)

theorem run_applyUpdate {world : World Keys} (hvalid : world.db.Valid) :
    (applyUpdate server re packet).run (World.handle services) world =
      (.ok (updateDatabase server re packet world.db).2,
        { world with db := (updateDatabase server re packet world.db).1 }) := by
  have hzone : DbMgr.resolveZone world.db server.zone = server.zone :=
    if_neg server.zone_found.ne'
  have hfind := @DbMgr.run_findRrset _ services
    (Rrset.keyed server.zone re.rrLabel re.rrType) server.zone rfl world
  rw [hzone] at hfind
  unfold applyUpdate updateDatabase
  rw [Program.run_bind, hfind]
  simp only [DbMgr.pick, if_neg server.zone_found.ne', Rrset.keyed]
  cases hrow : DbMgr.keyRow world.db server.zone.id re.rrLabel re.rrType with
  | none => exact run_insertRecord rfl rfl hrow
  | some row =>
      have hid : row.id ≠ 0 := (hvalid.ids_pos row (DbMgr.keyRow_eq_some hrow).1).ne'
      simp only [hid, ne_eq, not_false_eq_true, decide_true, if_true]
      refine (run_replaceRecord hid (by simp) _ _ _).trans ?_
      by_cases hnewer : row.version < re.version
      · rw [if_pos hnewer]
        exact if_pos hnewer
      · rw [if_neg hnewer]
        exact if_neg hnewer

/-- The database after an update whose name was parsed, whether or not the answer can be signed,
and the return code in the answer. -/
theorem run_doUpdate {interest : Interest} {world : World Keys} (hvalid : world.db.Valid)
    (hmatch : Label.matchDataName packet.data.name server.zone.name = .matched re) :
    ∃ outcome keys, (doUpdate server interest packet).run (World.handle services) world =
        (outcome, ⟨(updateDatabase server re packet world.db).1, keys⟩) ∧
      outcome ≠ .error .undefinedBehavior ∧ ∀ answer, outcome = .ok (some answer) →
        answer.content = updateContent (updateDatabase server re packet world.db).2 := by
  obtain ⟨name, keys, hname⟩ := @run_answerName _ services interest world
  simp only [doUpdate, hmatch]
  rw [Program.run_bind, hname]
  simp only
  have happly : (applyUpdate server re packet).run (World.handle services)
      { world with keys := keys } = _ := run_applyUpdate hvalid
  have hcatch : ((applyUpdate server re packet).tryCatch fun _ ↦ pure .updateFailure).run
      (World.handle services) { world with keys := keys } =
        (.ok (updateDatabase server re packet world.db).2,
          ⟨(updateDatabase server re packet world.db).1, keys⟩) := by
    rw [Program.run_tryCatch, happly]
  rw [Program.run_bind]
  erw [hcatch]
  simp only
  obtain ⟨outcome, keys', hsigned, hdefined, hcontent⟩ := @run_signed _ services
    (.byCertificate server.certName)
    ⟨name, NdnsContentType.resp.toCode, server.contentFreshness,
      updateContent (updateDatabase server re packet world.db).2, [], []⟩
    ⟨(updateDatabase server re packet world.db).1, keys⟩
  rw [Program.run_bind, hsigned]
  cases outcome with
  | error fault => exact ⟨_, keys', rfl, by simpa using hdefined, fun _ hok ↦ nomatch hok⟩
  | ok answer =>
      refine ⟨_, keys', rfl, by simp, fun reply hok ↦ ?_⟩
      rw [← Option.some.inj (Except.ok.inj hok)]
      exact hcontent answer rfl

/-! ## Foreign packets -/

/-- The name starts with the zone and the marker, and has two further components. -/
def InZone (zoneName name : Name) : Prop :=
  ∃ rest, name = zoneName ++ Label.ndnsIterativeQuery :: rest ∧ 2 ≤ rest.length

/-- The two ways a packet is turned away: its name has one or two components more than the zone,
or the record it parses to is stored already, in the version found first or in its own. -/
def TurnedAway (server : NameServer) (packet : Received) (db : Database) : Prop :=
  Label.matchDataName packet.data.name server.zone.name = .noMatch ∨
    ∃ re row, Label.matchDataName packet.data.name server.zone.name = .matched re ∧
      DbMgr.keyRow db server.zone.id re.rrLabel re.rrType = some row ∧
      (re.version ≤ row.version ∨
        ∃ other ∈ db.rrsets, other.indexKey = (server.zone.id, re.rrLabel, re.rrType, re.version))

/-- An update that was parsed changes the database unless the record is there already. -/
theorem updateDatabase_eq_self_iff (hvalid : db.Valid) :
    (updateDatabase server re packet db).1 = db ↔
      ∃ row, DbMgr.keyRow db server.zone.id re.rrLabel re.rrType = some row ∧
        (re.version ≤ row.version ∨
          ∃ other ∈ db.rrsets,
            other.indexKey = (server.zone.id, re.rrLabel, re.rrType, re.version)) := by
  unfold updateDatabase
  cases hfound : DbMgr.keyRow db server.zone.id re.rrLabel re.rrType with
  | none => simpa using Database.insertRrset_ne _ _ _ _ _ _
  | some row =>
      obtain ⟨hrow, hzone, hlabel, htype⟩ := DbMgr.keyRow_eq_some hfound
      simp only [Option.some.injEq, exists_eq_left']
      by_cases hnewer : row.version < re.version
      · have hforbids := Database.forbidsUpdate_iff hvalid hrow hnewer
        rw [hzone, hlabel, htype] at hforbids
        simp only [if_pos hnewer, ← hforbids, not_le.mpr hnewer, false_or]
        split_ifs with hforbidden
        · simp [hforbidden]
        · simpa [hforbidden] using Database.updateRrset_ne hrow hnewer _ _
      · simp only [if_neg hnewer, not_lt.mp hnewer, true_or]

/-- A packet whose name is outside the zone leaves the database as it was, without undefined
behaviour, exactly when its length turns it away or its record is there already. -/
theorem doUpdate_foreign_iff (interest : Interest) (world : World Keys)
    (hvalid : world.db.Valid) :
    (InZone server.zone.name packet.data.name ∨
        ((doUpdate server interest packet).run (World.handle services) world).1 ≠
            .error .undefinedBehavior ∧
          ((doUpdate server interest packet).run (World.handle services) world).2.db = world.db) ↔
      InZone server.zone.name packet.data.name ∨ TurnedAway server packet world.db := by
  refine or_congr Iff.rfl ?_
  cases hmatch : Label.matchDataName packet.data.name server.zone.name with
  | outOfBounds => simp [doUpdate, TurnedAway, hmatch]
  | noMatch => simp [doUpdate, TurnedAway, hmatch]
  | matched re =>
      obtain ⟨outcome, keys, hrun, hdefined, -⟩ : ∃ outcome keys,
          (doUpdate server interest packet).run (World.handle services) world = (outcome, _) ∧ _ :=
        run_doUpdate hvalid hmatch
      rw [hrun]
      simp only [TurnedAway, hmatch, ne_eq, hdefined, not_false_eq_true, true_and,
        updateDatabase_eq_self_iff hvalid]
      simp

end NameServer

namespace NameServer

section Examples

attribute [local instance] ndnPacketFormat

open LocalServices

/-- The database of the zone /n, without records. -/
def netDatabase : Database := ⟨[⟨1, [letter 110], 3600⟩], [], []⟩

/-- A server for the zone /n. -/
def netServer : NameServer := ⟨⟨1, [letter 110], 3600⟩, [], defaultContentFreshness, Nat.one_pos⟩

/-- A record of the zone /o. -/
def orgRecord : Data :=
  ⟨Label.recordName [letter 111] [letter 119] Label.txtRrType ++ [Component.fromVersion 1],
    0, 0, [], [], []⟩

def orgPacket : Received := ⟨(Layout.encode orgRecord).getD Block.invalid, orgRecord, by decide⟩

/-- A packet whose name has one component more than the zone. -/
def shortRecord : Data := ⟨[letter 111, letter 119], 0, 0, [], [], []⟩

def shortPacket : Received :=
  ⟨(Layout.encode shortRecord).getD Block.invalid, shortRecord, by decide⟩

def updateInterest : Interest := ⟨[], true, 4000, []⟩

theorem netDatabase_valid : netDatabase.Valid := by
  constructor <;> simp [netDatabase]

theorem doUpdate_short_packet :
    ((doUpdate netServer updateInterest shortPacket).run (World.handle localServices)
      ⟨netDatabase, 0⟩).2.db = netDatabase := by
  rcases (@doUpdate_foreign_iff _ localServices netServer _ shortPacket updateInterest ⟨netDatabase, 0⟩
    netDatabase_valid).mpr (Or.inr (Or.inl (by decide))) with ⟨rest, hname, -⟩ | ⟨-, hsame⟩
  · exact absurd (List.cons.inj hname).1 (by decide)
  · exact hsame

/-- A record of another zone is stored when its name is long enough. -/
theorem doUpdate_stores_foreign :
    ¬ (InZone netServer.zone.name orgPacket.data.name ∨
      ((doUpdate netServer updateInterest orgPacket).run (World.handle localServices)
          ⟨netDatabase, 0⟩).1 ≠ .error .undefinedBehavior ∧
        ((doUpdate netServer updateInterest orgPacket).run (World.handle localServices)
          ⟨netDatabase, 0⟩).2.db = netDatabase) := by
  rintro (⟨rest, hname, -⟩ | ⟨-, hsame⟩)
  · exact absurd (List.cons.inj hname).1 (by decide)
  · revert hsame
    decide

end Examples

end NameServer

end Ndns.Daemon
