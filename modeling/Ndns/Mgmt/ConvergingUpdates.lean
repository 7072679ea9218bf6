import Ndns.Daemon.FailingStatements
import Ndns.Daemon.StoredNumbers
import Ndns.Mgmt.VersionControl
import Ndns.Order.LatestWins

/-!
# Updates Converge

The validator may take its time with each update, so that the server processes updates in any order.
As long as no two packets have the same name, all orders lead to the same records: of the updates
and of what was stored before, the newest version is stored in the end.
-/

namespace Ndns.Daemon

open Ndn Calls DbMgr Order.LatestWins

variable {server : NameServer} {db : Database} {label : Name} {type : Component}

/-! ## Rows -/

/-- The version and the packet that are stored for a record. -/
def held (db : Database) (zoneId : ℕ) (label : Name) (type : Component) :
    Option (Component × Block) :=
  (keyRow db zoneId label type).map fun row ↦ (row.version, row.data)

/-- The TTL of a record, which is the one of the zone for a new record. -/
def heldTtl (server : NameServer) (db : Database) (label : Name) (type : Component) : ℤ :=
  (keyRow db server.zone.id label type).elim server.zone.ttl RrsetRow.ttl

/-- What a row says about its record. -/
def RrsetRow.content (row : RrsetRow) : Component × Block × ℤ := (row.version, row.data, row.ttl)

theorem map_content_eq (server : NameServer) (db : Database) (label : Name) (type : Component) :
    (keyRow db server.zone.id label type).map RrsetRow.content =
      (held db server.zone.id label type).map fun stored ↦
        (stored.1, stored.2, heldTtl server db label type) := by
  rw [held, heldTtl]
  cases keyRow db server.zone.id label type with
  | none => rfl
  | some row => rfl

theorem keyRow_eq_some_iff {zoneId : ℕ} {row : RrsetRow} (hsingle : db.SingleVersion) :
    keyRow db zoneId label type = some row ↔ row ∈ db.rrsets ∧ row.key = (zoneId, label, type) := by
  constructor
  · exact Mgmt.key_of_keyRow
  · rintro ⟨hrow, hkey⟩
    cases hfound : keyRow db zoneId label type with
    | none => exact absurd hkey (Mgmt.keyRow_eq_none_iff.mp hfound row hrow)
    | some found =>
        obtain ⟨hmem, hfoundKey⟩ := Mgmt.key_of_keyRow hfound
        rw [List.inj_on_of_nodup_map hsingle hmem hrow (hfoundKey.trans hkey.symm)]

/-- An insertion makes a row for its own key and changes no other. -/
theorem keyRow_insertRrset_eq {zoneId zoneId' : ℕ} {label' : Name} {type' : Component}
    (hnone : keyRow db zoneId label type = none) (version : Component) (ttl : ℤ) (data : Block) :
    keyRow (db.insertRrset zoneId label type version ttl data) zoneId' label' type' =
      if (zoneId', label', type') = (zoneId, label, type) then
        some ⟨nextRowId (db.rrsets.map RrsetRow.id), zoneId, label, type, version, ttl, data⟩
      else keyRow db zoneId' label' type' := by
  split_ifs with hsame
  · obtain ⟨rfl, rfl, rfl⟩ : zoneId' = zoneId ∧ label' = label ∧ type' = type := by
      simpa using hsame
    refine keyRow_of_unique (List.mem_append_right _ List.mem_cons_self) ⟨rfl, rfl, rfl⟩ ?_
    intro other hother hkey
    rcases List.mem_append.mp hother with hold | hnew
    · exact absurd hkey (keyRow_eq_none.mp hnone other hold)
    · exact List.mem_singleton.mp hnew
  · rw [keyRow, Database.selectRrset, Database.insertRrset, List.filter_append,
      List.filter_cons_of_neg, List.filter_nil, List.append_nil]
    · rfl
    · rintro hkey
      obtain ⟨rfl, rfl, rfl⟩ := RrsetRow.hasKey_iff.mp hkey
      exact hsame rfl

/-- An update of a row changes the row for its key and no other. -/
theorem keyRow_updateRrset_eq {zoneId zoneId' : ℕ} {label' : Name} {type' : Component} {row : RrsetRow}
    (hvalid : db.Valid) (hsingle : db.SingleVersion) (hrow : keyRow db zoneId label type = some row)
    (ttl : ℤ) (version : Component) (data : Block) :
    keyRow (db.updateRrset row.id ttl version data) zoneId' label' type' =
      if (zoneId', label', type') = (zoneId, label, type) then
        some (row.overwrite ttl version data)
      else keyRow db zoneId' label' type' := by
  split_ifs with hsame
  · obtain ⟨rfl, rfl, rfl⟩ : zoneId' = zoneId ∧ label' = label ∧ type' = type := by
      simpa using hsame
    obtain ⟨hmem, hkey⟩ := keyRow_eq_some hrow
    refine keyRow_updateRrset hvalid hmem hkey (fun other hother hsameKey hid ↦ ?_) ttl data
    refine absurd (congrArg RrsetRow.id (List.inj_on_of_nodup_map hsingle hother hmem ?_)) hid
    rw [RrsetRow.key, RrsetRow.key, hsameKey.1, hsameKey.2.1, hsameKey.2.2, hkey.1, hkey.2.1,
      hkey.2.2]
  · obtain ⟨hmem, hkey⟩ := (keyRow_eq_some_iff hsingle).mp hrow
    cases hother : keyRow db zoneId' label' type' with
    | none =>
        rw [Mgmt.keyRow_eq_none_iff]
        intro updated hupdated hupdatedKey
        obtain ⟨before, hbefore, rfl⟩ := List.mem_map.mp hupdated
        refine Mgmt.keyRow_eq_none_iff.mp hother before hbefore ?_
        split_ifs at hupdatedKey
        · exact hupdatedKey
        · exact hupdatedKey
    | some other =>
        obtain ⟨hotherMem, hotherKey⟩ := (keyRow_eq_some_iff hsingle).mp hother
        rw [keyRow_eq_some_iff (hsingle.updateRrset row.id ttl version data)]
        refine ⟨List.mem_map.mpr ⟨other, hotherMem, if_neg fun hid ↦ hsame ?_⟩, hotherKey⟩
        rw [← hotherKey, ← hkey, List.inj_on_of_nodup_map hvalid.ids hotherMem hmem hid]

/-! ## One update -/

section Updates

variable [PacketFormat] {re : Label.MatchResult} {packet : Received}

/-- What an update makes of the row for a key. -/
theorem keyRow_updateDatabase (hvalid : db.Valid) (hsingle : db.SingleVersion) {zoneId : ℕ} :
    keyRow (NameServer.updateDatabase server re packet db).1 zoneId label type =
      if (zoneId, label, type) = (server.zone.id, re.rrLabel, re.rrType) then
        match keyRow db zoneId label type with
        | none => some ⟨nextRowId (db.rrsets.map RrsetRow.id), server.zone.id, re.rrLabel,
            re.rrType, re.version, server.zone.ttl, packet.wire⟩
        | some row =>
            if row.version < re.version then
              some (row.overwrite row.ttl re.version packet.wire)
            else some row
      else keyRow db zoneId label type := by
  unfold NameServer.updateDatabase
  cases hrow : keyRow db server.zone.id re.rrLabel re.rrType with
  | none =>
      simp only [keyRow_insertRrset_eq hrow]
      split_ifs with hsame
      · obtain ⟨rfl, rfl, rfl⟩ : zoneId = server.zone.id ∧ label = re.rrLabel ∧ type = re.rrType := by
          simpa using hsame
        rw [hrow]
      · rfl
  | some row =>
      obtain ⟨hmem, -⟩ := (keyRow_eq_some_iff hsingle).mp hrow
      by_cases hnewer : row.version < re.version
      · have hforbids := NameServer.not_forbidsUpdate hvalid hsingle hmem hnewer
        simp only [if_pos hnewer, hforbids, Bool.false_eq_true, if_false,
          keyRow_updateRrset_eq hvalid hsingle hrow]
        split_ifs with hsame
        · obtain ⟨rfl, rfl, rfl⟩ : zoneId = server.zone.id ∧ label = re.rrLabel ∧
              type = re.rrType := by simpa using hsame
          simp only [hrow, if_pos hnewer]
        · rfl
      · simp only [if_neg hnewer]
        split_ifs with hsame
        · obtain ⟨rfl, rfl, rfl⟩ : zoneId = server.zone.id ∧ label = re.rrLabel ∧
              type = re.rrType := by simpa using hsame
          simp only [hrow, if_neg hnewer]
        · rfl

/-- For each record, an update is an offer of its version. -/
theorem held_updateDatabase (hvalid : db.Valid) (hsingle : db.SingleVersion) :
    held (NameServer.updateDatabase server re packet db).1 server.zone.id label type =
      if re.rrLabel = label ∧ re.rrType = type then
        offer (held db server.zone.id label type) (re.version, packet.wire)
      else held db server.zone.id label type := by
  have hkey : (server.zone.id, label, type) = (server.zone.id, re.rrLabel, re.rrType) ↔
      re.rrLabel = label ∧ re.rrType = type := by
    simp [eq_comm]
  rw [held, keyRow_updateDatabase hvalid hsingle, held]
  simp only [hkey]
  split_ifs
  · cases keyRow db server.zone.id label type with
    | none => rfl
    | some row =>
        simp only [Option.map_some, offer]
        split_ifs
        · rfl
        · rfl
  · rfl

/-- No update changes the TTL of a record. -/
theorem heldTtl_updateDatabase (hvalid : db.Valid) (hsingle : db.SingleVersion) :
    heldTtl server (NameServer.updateDatabase server re packet db).1 label type =
      heldTtl server db label type := by
  rw [heldTtl, keyRow_updateDatabase hvalid hsingle, heldTtl]
  split_ifs
  · cases keyRow db server.zone.id label type with
    | none => rfl
    | some row =>
        simp only
        split_ifs
        · rfl
        · rfl
  · rfl

/-- What one update leaves in the tables. -/
theorem NameServer.db_doUpdate {Keys : Type} {services : Services Keys} {world : World Keys}
    (hvalid : world.db.Valid) (interest : Interest) :
    ((NameServer.doUpdate server interest packet).run (World.handle services) world).2.db =
      match Label.matchDataName packet.data.name server.zone.name with
      | .matched re => (NameServer.updateDatabase server re packet world.db).1
      | _ => world.db := by
  cases hmatch : Label.matchDataName packet.data.name server.zone.name with
  | outOfBounds => simp [NameServer.doUpdate, hmatch]
  | noMatch => simp [NameServer.doUpdate, hmatch]
  | matched re =>
      obtain ⟨outcome, keys, hrun, -⟩ := @NameServer.run_doUpdate _ services server re _ packet
        interest world hvalid hmatch
      rw [hrun]

end Updates

/-! ## Any number of updates -/

namespace NameServer

variable [PacketFormat] {Keys : Type} {services : Services Keys} {world : World Keys}

/-- An update whose packet the validator has accepted. -/
abbrev Accepted := Interest × Received

/-- A server processes the updates whose packets the validator accepts, in the order in which it
does. -/
def process (services : Services Keys) (server : NameServer) (world : World Keys)
    (updates : List Accepted) : World Keys :=
  updates.foldl
    (fun world update ↦ ((doUpdate server update.1 update.2).run (World.handle services) world).2)
    world

/-- The version and packet of an update, when it is for the given record. -/
def offerOf (server : NameServer) (label : Name) (type : Component) (update : Accepted) :
    Option (Component × Block) :=
  match Label.matchDataName update.2.data.name server.zone.name with
  | .matched re =>
      if re.rrLabel = label ∧ re.rrType = type then some (re.version, update.2.wire) else none
  | _ => none

/-- Packets that are parsed to the same record and version are the same. -/
def Distinguished (server : NameServer) (updates : List Accepted) : Prop :=
  ∀ left ∈ updates, ∀ right ∈ updates, ∀ re,
    Label.matchDataName left.2.data.name server.zone.name = .matched re →
      Label.matchDataName right.2.data.name server.zone.name = .matched re →
        left.2.wire = right.2.wire

theorem offerOf_eq_some {update : Accepted} {made : Component × Block}
    (h : offerOf server label type update = some made) :
    Label.matchDataName update.2.data.name server.zone.name = .matched ⟨label, type, made.1⟩ ∧
      update.2.wire = made.2 := by
  unfold offerOf at h
  split at h
  · next re hmatch =>
      split_ifs at h with hsame
      obtain ⟨rfl, rfl⟩ := hsame
      cases h
      exact ⟨hmatch, rfl⟩
  · cases h

/-- Different packets make different offers. -/
theorem Distinguished.offers {updates : List Accepted} (h : Distinguished server updates) :
    Order.LatestWins.Distinguished (updates.filterMap (offerOf server label type)) := by
  intro left hleft right hright hstamp
  obtain ⟨update, hupdate, hmade⟩ := List.mem_filterMap.mp hleft
  obtain ⟨update', hupdate', hmade'⟩ := List.mem_filterMap.mp hright
  obtain ⟨hmatch, hwire⟩ := offerOf_eq_some hmade
  obtain ⟨hmatch', hwire'⟩ := offerOf_eq_some hmade'
  rw [← hstamp] at hmatch'
  refine Prod.ext hstamp ?_
  rw [← hwire, ← hwire']
  exact h update hupdate update' hupdate' _ hmatch hmatch'

/-- What is held for a record after the updates, and that its TTL stays the same. -/
structure Processed (server : NameServer) (updates : List Accepted) (db db' : Database) : Prop where
  valid : db'.Valid
  single : db'.SingleVersion
  held : ∀ label type, held db' server.zone.id label type =
    (updates.filterMap (offerOf server label type)).foldl offer (held db server.zone.id label type)
  ttl : ∀ label type, heldTtl server db' label type = heldTtl server db label type

/-- One update is processed. -/
theorem processed_doUpdate (hvalid : world.db.Valid) (hsingle : world.db.SingleVersion)
    (update : Accepted) : Processed server [update] world.db
      ((doUpdate server update.1 update.2).run (World.handle services) world).2.db := by
  rw [db_doUpdate hvalid]
  cases hmatch : Label.matchDataName update.2.data.name server.zone.name with
  | outOfBounds => exact ⟨hvalid, hsingle, fun label type ↦ by simp [offerOf, hmatch], fun _ _ ↦ rfl⟩
  | noMatch => exact ⟨hvalid, hsingle, fun label type ↦ by simp [offerOf, hmatch], fun _ _ ↦ rfl⟩
  | matched re =>
      have hkept : Mgmt.Kept (fun _ ↦ False) world.db (updateDatabase server re update.2 world.db).1 :=
        (Mgmt.Kept.refl hvalid hsingle).updateDatabase
      refine ⟨hkept.valid, hkept.single, fun label type ↦ ?_,
        fun label type ↦ heldTtl_updateDatabase hvalid hsingle⟩
      rw [held_updateDatabase hvalid hsingle]
      by_cases hsame : re.rrLabel = label ∧ re.rrType = type
      · simp [offerOf, hmatch, hsame]
      · simp [offerOf, hmatch, hsame]

/-- All updates are processed. -/
theorem processed (hvalid : world.db.Valid) (hsingle : world.db.SingleVersion)
    (updates : List Accepted) :
    Processed server updates world.db (process services server world updates).db := by
  induction updates generalizing world with
  | nil => exact ⟨hvalid, hsingle, fun _ _ ↦ rfl, fun _ _ ↦ rfl⟩
  | cons update updates ih =>
      have hfirst := @processed_doUpdate server _ _ services world hvalid hsingle update
      have hrest := ih hfirst.valid hfirst.single
      refine ⟨hrest.valid, hrest.single, fun label type ↦ ?_, fun label type ↦ ?_⟩
      · rw [← List.singleton_append, List.filterMap_append, List.foldl_append, ← hfirst.held]
        exact hrest.held label type
      · exact (hrest.ttl label type).trans (hfirst.ttl label type)

end NameServer

namespace NameServer

section Examples

attribute [local instance] ndnPacketFormat

open LocalServices

/-- The text record in a third version. -/
def thirdRecord : Data :=
  ⟨Label.recordName [letter 110] [letter 119] Label.txtRrType ++ [Component.fromVersion 3],
    NdnsContentType.resp.toCode, 0, [], [], []⟩

def thirdPacket : Received :=
  ⟨(Layout.encode thirdRecord).getD Block.invalid, thirdRecord, by decide⟩

end Examples

end NameServer

end Ndns.Daemon
