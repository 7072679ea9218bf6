import Ndns.Calls.Refinement
import Ndns.Mgmt.ConvergingUpdates
import Ndns.Mgmt.ZoneFrames

/-!
# The Record Store

What the database manager is for can be said without row ids and zone objects: it keeps the TTL of
each zone, and one version of each record of a zone, a label and a type.  Its operations, as the
name service uses them, refine those of such a store, as long as a record is inserted where there
is none and a zone is removed when it has no records left.
-/

namespace Ndns.Daemon

open Ndn Calls DbMgr

/-! ## The store -/

/-- What is kept of a record. -/
structure StoredRecord where
  version : Component
  ttl : ℤ
  data : Block
deriving DecidableEq

/-- The TTL of each zone, and the records of each zone by label and type. -/
structure RecordStore where
  zones : Name → Option ℤ
  records : Name → Name → Component → Option StoredRecord

namespace RecordStore

def empty : RecordStore := ⟨fun _ ↦ none, fun _ _ _ ↦ none⟩

def setZone (store : RecordStore) (name : Name) (ttl : Option ℤ) : RecordStore :=
  { store with zones := fun other ↦ if other = name then ttl else store.zones other }

def setRecord (store : RecordStore) (zone label : Name) (type : Component)
    (record : Option StoredRecord) : RecordStore :=
  { store with records := fun zone' label' type' ↦
      if zone' = zone ∧ label' = label ∧ type' = type then record
      else store.records zone' label' type' }

def dropType (store : RecordStore) (zone : Name) (type : Component) : RecordStore :=
  { store with records := fun zone' label' type' ↦
      if zone' = zone ∧ type' = type then none else store.records zone' label' type' }

/-- The largest label below the given one with a record of the type, or none if there is none. -/
def IsLowerBound (store : RecordStore) (zone label : Name) (type : Component)
    (answer : Option StoredRecord) : Prop :=
  match answer with
  | none => ∀ other < label, store.records zone other type = none
  | some record => ∃ greatest < label, store.records zone greatest type = some record ∧
      ∀ other < label, store.records zone other type ≠ none → other ≤ greatest

/-- The records of a zone, each of them once, in the order of their labels. -/
structure Lists (store : RecordStore) (zone : Name)
    (listed : List (Name × Component × StoredRecord)) : Prop where
  mem : ∀ label type record,
    (label, type, record) ∈ listed ↔ store.records zone label type = some record
  nodup : (listed.map fun entry ↦ (entry.1, entry.2.1)).Nodup
  sorted : listed.Pairwise fun left right ↦ left.1 ≤ right.1

/-- The zones, each of them once. -/
structure ListsZones (store : RecordStore) (listed : List (Name × ℤ)) : Prop where
  mem : ∀ name ttl, (name, ttl) ∈ listed ↔ store.zones name = some ttl
  nodup : (listed.map Prod.fst).Nodup

end RecordStore

/-! ## Operations -/

/-- The operations on zones and records, by name. -/
inductive StoreCall where
  | findZone (name : Name)
  | insertZone (name : Name) (ttl : ℤ)
  | removeZone (name : Name)
  | listZones
  | findRrset (zone label : Name) (type : Component)
  | findLowerBound (zone label : Name) (type : Component)
  | findRrsets (zone : Name)
  | insertRrset (zone label : Name) (type : Component) (record : StoredRecord)
  | updateRrset (zone label : Name) (type : Component) (record : StoredRecord)
  | removeRrset (zone label : Name) (type : Component)
  | removeRrsetsOfZoneByType (zone : Name) (type : Component)

namespace StoreCall

@[reducible]
def Answer : StoreCall → Type
  | .findZone _ => Option ℤ
  | .insertZone _ _ => Except Fault Unit
  | .removeZone _ => Unit
  | .listZones => List (Name × ℤ)
  | .findRrset _ _ _ => Option StoredRecord
  | .findLowerBound _ _ _ => Option StoredRecord
  | .findRrsets _ => Except Fault (List (Name × Component × StoredRecord))
  | .insertRrset _ _ _ _ => Unit
  | .updateRrset _ _ _ _ => Except Fault Unit
  | .removeRrset _ _ _ => Except Fault Unit
  | .removeRrsetsOfZoneByType _ _ => Except Fault Unit

end StoreCall

/-- The part of a record object that is stored. -/
def Rrset.stored (rrset : Rrset) : StoredRecord := ⟨rrset.version, rrset.ttl, rrset.data⟩

/-- The record that a lookup has found. -/
def foundRecord (result : Bool × Rrset) : Option StoredRecord :=
  if result.1 then some result.2.stored else none

namespace StoreCall

/-- How the name service performs the operations: it makes a zone object of the name and looks it
up, and makes a record object with the zone, the label and the type. -/
def perform : (call : StoreCall) → Prog call.Answer
  | .findZone name => do
      let zone ← DbMgr.findZone (Zone.named name)
      pure (if zone.id = 0 then none else some zone.ttl)
  | .insertZone name ttl => attempt do
      let _ ← DbMgr.insertZone (Zone.make name ttl)
  | .removeZone name => do
      let zone ← DbMgr.findZone (Zone.named name)
      let _ ← DbMgr.removeZone zone
  | .listZones => do
      let zones ← DbMgr.listZones
      pure (zones.map fun zone ↦ (zone.name, zone.ttl))
  | .findRrset zone label type => do
      let result ← DbMgr.findRrset (Rrset.keyed (Zone.named zone) label type)
      pure (foundRecord result)
  | .findLowerBound zone label type => do
      let result ← DbMgr.findLowerBound (Rrset.keyed (Zone.named zone) label type)
      pure (foundRecord result)
  | .findRrsets zone => attempt do
      let rrsets ← DbMgr.findRrsets (Zone.named zone)
      pure (rrsets.map fun rrset ↦ (rrset.label, rrset.type, rrset.stored))
  | .insertRrset zone label type record => do
      let zone ← DbMgr.findZone (Zone.named zone)
      let _ ← DbMgr.insertRrset ⟨0, some zone, label, type, record.version, record.ttl, record.data⟩
  | .updateRrset zone label type record => attempt do
      let (_, rrset) ← DbMgr.findRrset (Rrset.keyed (Zone.named zone) label type)
      DbMgr.updateRrset { rrset with
        version := record.version, ttl := record.ttl, data := record.data }
  | .removeRrset zone label type => attempt do
      let (_, rrset) ← DbMgr.findRrset (Rrset.keyed (Zone.named zone) label type)
      DbMgr.removeRrset rrset
  | .removeRrsetsOfZoneByType zone type => attempt do
      DbMgr.removeRrsetsOfZoneByType (Zone.named zone) type

end StoreCall

/-- An operation on one record, which has to be there. -/
def RecordStore.Requires (store : RecordStore) (zone label : Name) (type : Component) (text : String)
    (answer : Except Fault Unit) (change store' : RecordStore) : Prop :=
  if store.records zone label type = none then
    answer = .error (.dbMgrRrsetError text) ∧ store' = store
  else answer = .ok () ∧ store' = change

/-- What the operations do to a store.  Two of them have a precondition: a second version of a
record and the records of a removed zone would stay in the tables. -/
def storeSpecification : Specification StoreCall.Answer RecordStore where
  pre
    | .removeZone name, store => ∀ label type, store.records name label type = none
    | .insertRrset zone label type _, store => store.records zone label type = none
    | _, _ => True
  post
    | .findZone name, store, answer, store' => answer = store.zones name ∧ store' = store
    | .insertZone name ttl, store, answer, store' =>
        if store.zones name = none then
          answer = .ok () ∧ store' = store.setZone name (some (int32 ttl))
        else answer = .error .dbMgrExecuteError ∧ store' = store
    | .removeZone name, store, _, store' => store' = store.setZone name none
    | .listZones, store, answer, store' => store.ListsZones answer ∧ store' = store
    | .findRrset zone label type, store, answer, store' =>
        answer = store.records zone label type ∧ store' = store
    | .findLowerBound zone label type, store, answer, store' =>
        store.IsLowerBound zone label type answer ∧ store' = store
    | .findRrsets zone, store, answer, store' =>
        store' = store ∧ if store.zones zone = none then
          answer = .error (.dbMgrRrsetError
            "Attempting to find all the rrsets with a zone does not in the database")
        else ∃ listed, answer = .ok listed ∧ store.Lists zone listed
    -- the zone of a new record is created with the default TTL
    | .insertRrset zone label type record, store, _, store' =>
        store' = (if store.zones zone = none then store.setZone zone (some Zone.defaultTtl)
          else store).setRecord zone label type (some record)
    | .updateRrset zone label type record, store, answer, store' =>
        store.Requires zone label type
          "Attempting to replace Rrset that has no assigned id" answer
          (store.setRecord zone label type (some record)) store'
    | .removeRrset zone label type, store, answer, store' =>
        store.Requires zone label type
          "Attempting to remove Rrset that has no assigned id" answer
          (store.setRecord zone label type none) store'
    | .removeRrsetsOfZoneByType zone type, store, answer, store' =>
        if store.zones zone = none then
          answer = .error (.dbMgrRrsetError
            "Attempting to find all the rrsets with a zone does not in the database") ∧
            store' = store
        else answer = .ok () ∧ store' = store.dropType zone type

/-! ## Tables and stores -/

def RrsetRow.stored (row : RrsetRow) : StoredRecord := ⟨row.version, row.ttl, row.data⟩

/-- The tables hold what the store says, in rows with any ids. -/
structure Represents (db : Database) (store : RecordStore) : Prop where
  valid : db.Valid
  single : db.SingleVersion
  noOrphans : Mgmt.NoOrphans db
  zones : ∀ name ttl, store.zones name = some ttl ↔
    ∃ zone ∈ db.zones, zone.name = name ∧ int32 zone.ttl = ttl
  records : ∀ name label type record, store.records name label type = some record ↔
    ∃ zone ∈ db.zones, zone.name = name ∧
      ∃ row ∈ db.rrsets, row.key = (zone.id, label, type) ∧ row.stored = record

theorem represents_empty : Represents Database.empty .empty := by
  refine ⟨Database.valid_empty, Database.singleVersion_empty, ?_, ?_, ?_⟩
  · simp [Mgmt.NoOrphans, Database.empty]
  · simp [RecordStore.empty, Database.empty]
  · simp [RecordStore.empty, Database.empty]

namespace Represents

variable {db : Database} {store : RecordStore} {name label : Name} {type : Component}
  {zone : ZoneRow}

theorem zone_eq (h : Represents db store) {other : ZoneRow} (hzone : zone ∈ db.zones)
    (hother : other ∈ db.zones) : zone.name = other.name ↔ zone = other :=
  ⟨List.inj_on_of_nodup_map h.valid.zoneNames hzone hother, congrArg ZoneRow.name⟩

theorem id_eq (h : Represents db store) {other : ZoneRow} (hzone : zone ∈ db.zones)
    (hother : other ∈ db.zones) : zone.id = other.id ↔ zone = other :=
  ⟨List.inj_on_of_nodup_map h.valid.zoneIds hzone hother, congrArg ZoneRow.id⟩

theorem zones_none (h : Represents db store) :
    store.zones name = none ↔ ∀ zone ∈ db.zones, zone.name ≠ name := by
  rw [Option.eq_none_iff_forall_ne_some]
  constructor
  · intro hnone zone hzone hname
    exact hnone _ ((h.zones name _).mpr ⟨zone, hzone, hname, rfl⟩)
  · intro hnone ttl hsome
    obtain ⟨zone, hzone, hname, -⟩ := (h.zones name ttl).mp hsome
    exact hnone zone hzone hname

/-- What the store has for a zone that is there, by its row. -/
theorem records_of_zone (h : Represents db store) (hzone : zone ∈ db.zones) (label : Name)
    (type : Component) : store.records zone.name label type =
      (keyRow db zone.id label type).map RrsetRow.stored := by
  ext record
  rw [h.records, Option.map_eq_some_iff]
  simp only [keyRow_eq_some_iff h.single]
  constructor
  · rintro ⟨other, hother, hname, row, hrow, hkey, hstored⟩
    obtain rfl := (h.zone_eq hother hzone).mp hname
    exact ⟨row, ⟨hrow, hkey⟩, hstored⟩
  · rintro ⟨row, ⟨hrow, hkey⟩, hstored⟩
    exact ⟨zone, hzone, rfl, row, hrow, hkey, hstored⟩

theorem records_of_absent (h : Represents db store) (habsent : store.zones name = none)
    (label : Name) (type : Component) : store.records name label type = none := by
  rw [Option.eq_none_iff_forall_ne_some]
  intro record hrecord
  obtain ⟨zone, hzone, hname, -⟩ := (h.records name label type record).mp hrecord
  exact h.zones_none.mp habsent zone hzone hname

/-- The lookup of a name: its row, or an object without an id. -/
theorem lookup (h : Represents db store) (name : Name) :
    (∃ zone ∈ db.zones, zone.name = name ∧ zone.id ≠ 0 ∧
        store.zones name = some (int32 zone.ttl) ∧
        lookupZone db (Zone.named name) = ⟨zone.id, name, int32 zone.ttl⟩) ∨
      store.zones name = none ∧ lookupZone db (Zone.named name) = Zone.named name := by
  by_cases hid : (lookupZone db (Zone.named name)).id = 0
  · have habsent := lookupZone_id_eq_zero h.valid hid
    refine Or.inr ⟨h.zones_none.mpr habsent, ?_⟩
    have hname := lookupZone_name db (Zone.named name)
    unfold lookupZone at hid ⊢
    split
    · next row hrow =>
        have hsame := List.find?_some hrow
        exact absurd (by simpa using hsame) (habsent row (List.mem_of_find?_eq_some hrow))
    · rfl
  · obtain ⟨zone, hzone, hname, hlookup⟩ := lookupZone_id_eq hid
    exact Or.inl ⟨zone, hzone, hname, (h.valid.zoneIds_pos zone hzone).ne',
      (h.zones name _).mpr ⟨zone, hzone, hname, rfl⟩, hlookup⟩

/-! ## Changes -/

theorem insertZone (h : Represents db store) (habsent : store.zones name = none) (ttl : ℤ) :
    Represents (db.insertZone name (int32 ttl)) (store.setZone name (some (int32 ttl))) := by
  have hnew := h.zones_none.mp habsent
  refine ⟨h.valid.insertZone _ hnew, h.single, ?_, ?_, ?_⟩
  · intro row hrow
    obtain ⟨zone, hzone, hid⟩ := h.noOrphans row hrow
    exact ⟨zone, List.mem_append_left _ hzone, hid⟩
  · intro other otherTtl
    by_cases hother : other = name
    · subst hother
      have hset : (store.setZone other (some (int32 ttl))).zones other = some (int32 ttl) := if_pos rfl
      rw [hset]
      constructor
      · intro hsame
        exact ⟨_, List.mem_append_right _ List.mem_cons_self, rfl,
          (int32_int32 ttl).trans (Option.some.inj hsame)⟩
      · rintro ⟨zone, hzone, hname, httl⟩
        rcases List.mem_append.mp hzone with hold | hadded
        · exact absurd hname (hnew zone hold)
        · rw [List.mem_singleton.mp hadded, int32_int32] at httl
          rw [httl]
    · have hset : (store.setZone name (some (int32 ttl))).zones other = store.zones other :=
        if_neg hother
      rw [hset, h.zones]
      constructor
      · rintro ⟨zone, hzone, hrest⟩
        exact ⟨zone, List.mem_append_left _ hzone, hrest⟩
      · rintro ⟨zone, hzone, hname, httl⟩
        rcases List.mem_append.mp hzone with hold | hadded
        · exact ⟨zone, hold, hname, httl⟩
        · rw [List.mem_singleton.mp hadded] at hname
          exact absurd hname.symm hother
  · intro other label type record
    have hset : (store.setZone name (some (int32 ttl))).records other label type =
        store.records other label type := rfl
    rw [hset, h.records]
    constructor
    · rintro ⟨zone, hzone, hrest⟩
      exact ⟨zone, List.mem_append_left _ hzone, hrest⟩
    · rintro ⟨zone, hzone, hname, row, hrow, hkey, hstored⟩
      rcases List.mem_append.mp hzone with hold | hadded
      · exact ⟨zone, hold, hname, row, hrow, hkey, hstored⟩
      · -- no row refers to the id of the new zone
        obtain ⟨owner, howner, hid⟩ := h.noOrphans row hrow
        rw [List.mem_singleton.mp hadded] at hkey
        exact absurd (hid.trans (Prod.mk.inj hkey).1) (Database.ne_nextRowId howner)

theorem removeZone (h : Represents db store) (hzone : zone ∈ db.zones)
    (hempty : ∀ label type, store.records zone.name label type = none) :
    Represents { db with zones := db.zones.filter fun other ↦ other.id ≠ zone.id }
      (store.setZone zone.name none) := by
  have hmem : ∀ other, other ∈ (db.zones.filter fun other ↦ other.id ≠ zone.id) ↔
      other ∈ db.zones ∧ other.name ≠ zone.name := by
    intro other
    simp only [List.mem_filter, ne_eq, decide_not, Bool.not_eq_true', decide_eq_false_iff_not]
    refine and_congr_right fun hother ↦ not_congr ?_
    rw [h.id_eq hother hzone, h.zone_eq hother hzone]
  refine ⟨h.valid.filterZones _, h.single, ?_, ?_, ?_⟩
  · intro row hrow
    obtain ⟨owner, howner, hid⟩ := h.noOrphans row hrow
    refine ⟨owner, (hmem owner).mpr ⟨howner, fun hname ↦ ?_⟩, hid⟩
    have hstored := (h.records zone.name row.label row.type row.stored).mpr
      ⟨owner, howner, hname, row, hrow, by rw [RrsetRow.key, hid], rfl⟩
    rw [hempty] at hstored
    cases hstored
  · intro other ttl
    simp only [hmem]
    by_cases hother : other = zone.name
    · have hset : (store.setZone zone.name none).zones other = none := if_pos hother
      rw [hset]
      simp only [reduceCtorEq, false_iff]
      rintro ⟨found, ⟨-, hne⟩, hname, -⟩
      exact hne (hname.trans hother)
    · have hset : (store.setZone zone.name none).zones other = store.zones other := if_neg hother
      rw [hset, h.zones]
      refine exists_congr fun found ↦ ⟨?_, ?_⟩
      · rintro ⟨hfound, hname, httl⟩
        exact ⟨⟨hfound, hname.symm ▸ hother⟩, hname, httl⟩
      · rintro ⟨⟨hfound, -⟩, hrest⟩
        exact ⟨hfound, hrest⟩
  · intro other label type record
    have hset : (store.setZone zone.name none).records other label type =
        store.records other label type := rfl
    simp only [hmem, hset]
    by_cases hother : other = zone.name
    · rw [hother, hempty]
      simp only [reduceCtorEq, false_iff]
      rintro ⟨found, ⟨-, hne⟩, hname, -⟩
      exact hne hname
    · rw [h.records]
      refine exists_congr fun found ↦ ⟨?_, ?_⟩
      · rintro ⟨hfound, hname, hrest⟩
        exact ⟨⟨hfound, hname.symm ▸ hother⟩, hname, hrest⟩
      · rintro ⟨⟨hfound, -⟩, hrest⟩
        exact ⟨hfound, hrest⟩

/-- The records of a store whose zones are those of the tables, and of tables with other rows. -/
theorem of_rows (h : Represents db store) {db' : Database} {store' : RecordStore}
    (hzones : db'.zones = db.zones) (hvalid : db'.Valid) (hsingle : db'.SingleVersion)
    (horphans : Mgmt.NoOrphans db') (hsame : store'.zones = store.zones)
    (hrecords : ∀ zone ∈ db.zones, ∀ label type, store'.records zone.name label type =
      (keyRow db' zone.id label type).map RrsetRow.stored)
    (habsent : ∀ name label type, store.zones name = none → store'.records name label type = none) :
    Represents db' store' := by
  refine ⟨hvalid, hsingle, horphans, ?_, fun name label type record ↦ ?_⟩
  · rw [hsame, hzones]
    exact h.zones
  · rw [hzones]
    constructor
    · intro hrecord
      have hpresent : store.zones name ≠ none := by
        intro hnone
        rw [habsent name label type hnone] at hrecord
        cases hrecord
      rw [ne_eq, h.zones_none] at hpresent
      push Not at hpresent
      obtain ⟨zone, hzone, rfl⟩ := hpresent
      rw [hrecords zone hzone, Option.map_eq_some_iff] at hrecord
      obtain ⟨row, hrow, hstored⟩ := hrecord
      obtain ⟨hmem, hkey⟩ := (keyRow_eq_some_iff hsingle).mp hrow
      exact ⟨zone, hzone, rfl, row, hmem, hkey, hstored⟩
    · rintro ⟨zone, hzone, rfl, row, hmem, hkey, hstored⟩
      rw [hrecords zone hzone, (keyRow_eq_some_iff hsingle).mpr ⟨hmem, hkey⟩, Option.map_some,
        hstored]

/-- The key of another row, by the name of its zone. -/
theorem key_eq_iff (h : Represents db store) (hzone : zone ∈ db.zones) {other : ZoneRow}
    (hother : other ∈ db.zones) {label' : Name} {type' : Component} :
    (other.id, label', type') = (zone.id, label, type) ↔
      other.name = zone.name ∧ label' = label ∧ type' = type := by
  simp only [Prod.mk.injEq]
  rw [h.id_eq hother hzone, h.zone_eq hother hzone]

theorem insertRrset (h : Represents db store) (hzone : zone ∈ db.zones)
    (habsent : store.records zone.name label type = none) (record : StoredRecord) :
    Represents (db.insertRrset zone.id label type record.version record.ttl record.data)
      (store.setRecord zone.name label type (some record)) := by
  rw [h.records_of_zone hzone, Option.map_eq_none_iff] at habsent
  have hkeys := Mgmt.keyRow_eq_none_iff.mp habsent
  refine h.of_rows rfl ?_ (h.single.insertRrset hkeys _ _ _) ?_ rfl ?_ ?_
  · refine h.valid.insertRrset _ _ fun row hrow hindex ↦ hkeys row hrow ?_
    simp only [RrsetRow.indexKey, Prod.mk.injEq] at hindex
    rw [RrsetRow.key, hindex.1, hindex.2.1, hindex.2.2.1]
  · intro row hrow
    rcases List.mem_append.mp hrow with hold | hadded
    · exact h.noOrphans row hold
    · rw [List.mem_singleton.mp hadded]
      exact ⟨zone, hzone, rfl⟩
  · intro other hother label' type'
    rw [keyRow_insertRrset_eq habsent, RecordStore.setRecord]
    simp only [h.key_eq_iff hzone hother, h.records_of_zone hother]
    split_ifs
    · rfl
    · rfl
  · intro name label' type' hnone
    rw [RecordStore.setRecord]
    simp only [h.records_of_absent hnone]
    refine if_neg fun hsame ↦ ?_
    exact h.zones_none.mp hnone zone hzone hsame.1.symm

theorem updateRrset (h : Represents db store) (hzone : zone ∈ db.zones) {row : RrsetRow}
    (hrow : keyRow db zone.id label type = some row) (record : StoredRecord) :
    db.forbidsUpdate row.id record.version = false ∧
      Represents (db.updateRrset row.id record.ttl record.version record.data)
        (store.setRecord zone.name label type (some record)) := by
  obtain ⟨hmem, hkey⟩ := (keyRow_eq_some_iff h.single).mp hrow
  have hallowed : db.forbidsUpdate row.id record.version = false := by
    rw [Database.forbidsUpdate, List.any_eq_false]
    intro same hsame hforbids
    simp only [Bool.decide_and, Bool.and_eq_true, decide_eq_true_eq, List.any_eq_true] at hforbids
    obtain ⟨hid, other, hother, hne, hindex⟩ := hforbids
    obtain ⟨hindexZone, hindexLabel, hindexType, -⟩ := RrsetRow.sameIndex_iff.mp hindex
    have hkeys : other.key = same.key := by
      rw [RrsetRow.key, hindexZone, hindexLabel, hindexType, RrsetRow.key]
    rw [List.inj_on_of_nodup_map h.single hother hsame hkeys] at hne
    exact hne hid
  refine ⟨hallowed, h.of_rows rfl (h.valid.updateRrset _ _ hallowed) (h.single.updateRrset _ _ _ _)
    ?_ rfl ?_ ?_⟩
  · intro updated hupdated
    obtain ⟨before, hbefore, rfl⟩ := List.mem_map.mp hupdated
    obtain ⟨owner, howner, hid⟩ := h.noOrphans before hbefore
    refine ⟨owner, howner, hid.trans ?_⟩
    split_ifs
    · rfl
    · rfl
  · intro other hother label' type'
    rw [keyRow_updateRrset_eq h.valid h.single hrow, RecordStore.setRecord]
    simp only [h.key_eq_iff hzone hother, h.records_of_zone hother]
    split_ifs
    · rfl
    · rfl
  · intro name label' type' hnone
    rw [RecordStore.setRecord]
    simp only [h.records_of_absent hnone]
    refine if_neg fun hsame ↦ ?_
    exact h.zones_none.mp hnone zone hzone hsame.1.symm

/-- Only rows are deleted, and all those of a key or none. -/
theorem filterRrsets (h : Represents db store) {store' : RecordStore} {keep : RrsetRow → Bool}
    {dropped : ZoneRow → Name → Component → Prop} [∀ zone label type, Decidable (dropped zone label type)]
    (hsame : store'.zones = store.zones)
    (hkeep : ∀ zone ∈ db.zones, ∀ row ∈ db.rrsets, row.zoneId = zone.id →
      (keep row = false ↔ dropped zone row.label row.type))
    (hrecords : ∀ zone ∈ db.zones, ∀ label type, store'.records zone.name label type =
      if dropped zone label type then none else store.records zone.name label type)
    (habsent : ∀ name label type, store.zones name = none → store'.records name label type = none) :
    Represents { db with rrsets := db.rrsets.filter keep } store' := by
  refine h.of_rows rfl (h.valid.filterRrsets keep) (h.single.sublist List.filter_sublist) ?_ hsame ?_
    habsent
  · intro row hrow
    exact h.noOrphans row (List.mem_of_mem_filter hrow)
  · intro other hother label type
    rw [hrecords other hother, h.records_of_zone hother]
    cases hrow : keyRow db other.id label type with
    | none =>
        have hnone : keyRow { db with rrsets := db.rrsets.filter keep } other.id label type = none := by
          rw [Mgmt.keyRow_eq_none_iff] at hrow ⊢
          exact fun row hmem ↦ hrow row (List.mem_of_mem_filter hmem)
        rw [hnone]
        exact ite_self _
    | some row =>
        obtain ⟨hmem, hkey⟩ := (keyRow_eq_some_iff h.single).mp hrow
        obtain ⟨hzone, rfl, rfl⟩ : row.zoneId = other.id ∧ row.label = label ∧ row.type = type := by
          simpa [RrsetRow.key] using hkey
        split_ifs with hdropped
        · have hnone : keyRow { db with rrsets := db.rrsets.filter keep } other.id row.label
              row.type = none := by
            rw [Mgmt.keyRow_eq_none_iff]
            intro left hleft hleftKey
            obtain ⟨hleftMem, hkept⟩ := List.mem_filter.mp hleft
            obtain rfl := List.inj_on_of_nodup_map h.single hleftMem hmem (hleftKey.trans hkey.symm)
            rw [(hkeep other hother left hleftMem hzone).mpr hdropped] at hkept
            cases hkept
          rw [hnone]
          rfl
        · have hkept : keep row = true := by
            rw [← Bool.not_eq_false, hkeep other hother row hmem hzone]
            exact hdropped
          rw [(keyRow_eq_some_iff (h.single.sublist List.filter_sublist)).mpr
            ⟨List.mem_filter.mpr ⟨hmem, hkept⟩, hkey⟩]

theorem deleteRrset (h : Represents db store) (hzone : zone ∈ db.zones) {row : RrsetRow}
    (hrow : keyRow db zone.id label type = some row) :
    Represents (db.deleteRrset row.id) (store.setRecord zone.name label type none) := by
  obtain ⟨hmem, hkey⟩ := (keyRow_eq_some_iff h.single).mp hrow
  refine @filterRrsets db store h _ _ (fun other label' type' ↦
    other.name = zone.name ∧ label' = label ∧ type' = type) _ rfl ?_ (fun _ _ _ _ ↦ rfl) ?_
  · intro other hother removed hremoved hzoneId
    rw [← h.key_eq_iff hzone hother, ← hzoneId, ← hkey]
    simp only [ne_eq, decide_not, Bool.not_eq_false', decide_eq_true_eq]
    exact ⟨fun hid ↦ congrArg RrsetRow.key (List.inj_on_of_nodup_map h.valid.ids hremoved hmem hid),
      fun hsame ↦ congrArg RrsetRow.id (List.inj_on_of_nodup_map h.single hremoved hmem hsame)⟩
  · intro name label' type' hnone
    rw [RecordStore.setRecord]
    simp only [h.records_of_absent hnone, ite_self]

theorem deleteRrsetsByType (h : Represents db store) (hzone : zone ∈ db.zones) :
    Represents (db.deleteRrsetsByType zone.id type) (store.dropType zone.name type) := by
  refine @filterRrsets db store h _ _ (fun other _ type' ↦ other.name = zone.name ∧ type' = type) _
    rfl ?_ (fun _ _ _ _ ↦ rfl) ?_
  · intro other hother removed hremoved hzoneId
    simp only [Bool.not_eq_false', RrsetRow.hasType_iff, hzoneId]
    rw [h.id_eq hother hzone, h.zone_eq hother hzone]
  · intro name label' type' hnone
    rw [RecordStore.dropType]
    simp only [h.records_of_absent hnone, ite_self]

end Represents

/-! ## The operations refine the store -/

section

variable {Keys : Type} {services : Services Keys} {db : Database} {store : RecordStore}
  {name label : Name} {type : Component}

/-- The operation does to the tables what is specified. -/
def StoreCall.Refined (services : Services Keys) (call : StoreCall) : Prop :=
  ∀ (world : World Keys) (store : RecordStore), Represents world.db store →
    storeSpecification.pre call store →
      ∃ answer world' store', call.perform.Returns (World.handle services) world answer world' ∧
        storeSpecification.post call store answer store' ∧ Represents world'.db store'

theorem foundRecord_pick {rrset : Rrset} {zone : Zone} {row : Option RrsetRow} (hzone : zone.id ≠ 0)
    (hrow : ∀ found, row = some found → found.id ≠ 0) :
    foundRecord (pick rrset zone row) = row.map RrsetRow.stored := by
  unfold pick
  rw [if_neg hzone]
  cases row with
  | none => rfl
  | some found => exact if_pos (decide_eq_true (hrow found rfl))

/-- What the lookup of a record finds. -/
theorem Represents.run_findRrset {world : World Keys} (h : Represents world.db store)
    (name label : Name) (type : Component) :
    (store.records name label type = none ∧ ∃ rrset, rrset.id = 0 ∧
        (findRrset (Rrset.keyed (Zone.named name) label type)).run (World.handle services) world =
          (.ok (false, rrset), world)) ∨
      ∃ zone ∈ world.db.zones, zone.name = name ∧ ∃ row,
        keyRow world.db zone.id label type = some row ∧ row.id ≠ 0 ∧
        store.records name label type = some row.stored ∧
        ∃ rrset, rrset.id = row.id ∧ rrset.zone ≠ none ∧ rrset.stored = row.stored ∧
          (findRrset (Rrset.keyed (Zone.named name) label type)).run (World.handle services) world =
            (.ok (true, rrset), world) := by
  rw [DbMgr.run_findRrset rfl, Mgmt.ManagementTool.resolveZone_named]
  rcases h.lookup name with ⟨zone, hzone, rfl, hid, -, hlookup⟩ | ⟨habsent, hlookup⟩
  · rw [hlookup, h.records_of_zone hzone]
    simp only [pick, if_neg hid, Rrset.keyed]
    cases hrow : keyRow world.db zone.id label type with
    | none => exact Or.inl ⟨rfl, _, rfl, rfl⟩
    | some row =>
        have hpos := (h.valid.ids_pos row (keyRow_eq_some hrow).1).ne'
        refine Or.inr ⟨zone, hzone, rfl, row, hrow, hpos, rfl,
          { (Rrset.keyed (Zone.named zone.name) label type).fill row with
            zone := some ⟨zone.id, zone.name, int32 zone.ttl⟩ }, rfl, Option.some_ne_none _, rfl, ?_⟩
        simp only [Rrset.fill, Rrset.keyed, decide_eq_true hpos]
  · rw [hlookup, h.records_of_absent habsent]
    exact Or.inl ⟨rfl, _, rfl, rfl⟩

namespace StoreCall

theorem refined_findZone : Refined services (.findZone name) := by
  intro world store h _
  refine ⟨_, world, store, ?_, ⟨rfl, rfl⟩, h⟩
  rw [perform, Program.Returns, Program.run_bind, run_findZone]
  rcases h.lookup name with ⟨zone, -, -, hid, hsome, hlookup⟩ | ⟨hnone, hlookup⟩
  · simp only [hlookup, if_neg hid, hsome, Program.run_pure]
  · rw [hlookup, hnone]
    rfl

theorem refined_insertZone {ttl : ℤ} : Refined services (.insertZone name ttl) := by
  intro world store h _
  have hrun := @run_insertZone _ services (Zone.make name ttl) rfl world
  by_cases hnone : store.zones name = none
  · have hnew := h.zones_none.mp hnone
    rw [if_neg (by simpa [Zone.make] using hnew)] at hrun
    have hspec : storeSpecification.post (.insertZone name ttl) store (.ok ())
        (store.setZone name (some (int32 ttl))) := by
      simp only [storeSpecification, if_pos hnone, and_self]
    refine ⟨.ok (), { world with db := world.db.insertZone name (int32 ttl) }, _, ?_, hspec,
      h.insertZone hnone ttl⟩
    rw [perform, Program.Returns, run_attempt, Program.run_bind, hrun]
    rfl
  · have hspec : storeSpecification.post (.insertZone name ttl) store (.error .dbMgrExecuteError)
        store := by
      simp only [storeSpecification, if_neg hnone, and_self]
    rw [h.zones_none] at hnone
    rw [if_pos (by simpa [Zone.make] using hnone)] at hrun
    refine ⟨.error .dbMgrExecuteError, world, store, ?_, hspec, h⟩
    rw [perform, Program.Returns, run_attempt, Program.run_bind, hrun]

theorem refined_removeZone : Refined services (.removeZone name) := by
  intro world store h hempty
  rcases h.lookup name with ⟨zone, hzone, rfl, hid, -, hlookup⟩ | ⟨hnone, hlookup⟩
  · refine ⟨(), { world with db := { world.db with
      zones := world.db.zones.filter fun other ↦ other.id ≠ zone.id } }, _, ?_, rfl,
      h.removeZone hzone hempty⟩
    rw [perform, Program.Returns, Program.run_bind, run_findZone, hlookup]
    simp only [DbMgr.removeZone, if_neg hid]
    rfl
  · have hsame : store.setZone name none = store := by
      rw [RecordStore.setZone]
      congr 1
      funext other
      split_ifs with hother
      · rw [hother, hnone]
      · rfl
    refine ⟨(), world, store, ?_, hsame.symm, h⟩
    rw [perform, Program.Returns, Program.run_bind, run_findZone, hlookup]
    rfl

theorem refined_listZones : Refined services .listZones := by
  intro world store h _
  refine ⟨_, world, store, rfl, ⟨⟨fun name ttl ↦ ?_, ?_⟩, rfl⟩, h⟩
  · rw [h.zones]
    simp only [List.map_map, List.mem_map, Function.comp_apply, Prod.mk.injEq]
  · rw [List.map_map, List.map_map]
    exact h.valid.zoneNames

theorem refined_findRrset {zone : Name} : Refined services (.findRrset zone label type) := by
  intro world store h _
  refine ⟨_, world, store, ?_, ⟨rfl, rfl⟩, h⟩
  rw [perform, Program.Returns, Program.run_bind]
  rcases @Represents.run_findRrset _ services _ _ h zone label type with ⟨hnone, rrset, -, hrun⟩ |
    ⟨_, -, -, row, -, -, hsome, rrset, -, -, hstored, hrun⟩
  · rw [hrun, hnone]
    rfl
  · rw [hrun, hsome, ← hstored]
    rfl

theorem refined_findLowerBound {zone : Name} :
    Refined services (.findLowerBound zone label type) := by
  intro world store h _
  refine ⟨foundRecord (pick (Rrset.keyed (Zone.named zone) label type)
    (lookupZone world.db (Zone.named zone))
    (lowerBoundRow world.db (lookupZone world.db (Zone.named zone)).id label type)), world, store, ?_,
    ⟨?_, rfl⟩, h⟩
  · rw [perform, Program.Returns, Program.run_bind, run_findLowerBound rfl,
      Mgmt.ManagementTool.resolveZone_named]
    rfl
  rcases h.lookup zone with ⟨owner, howner, rfl, hid, -, hlookup⟩ | ⟨hnone, hlookup⟩
  · have hrecords : ∀ other, store.records owner.name other type =
        (keyRow world.db owner.id other type).map RrsetRow.stored :=
      fun other ↦ h.records_of_zone howner other type
    have hpos : ∀ found, lowerBoundRow world.db owner.id label type = some found → found.id ≠ 0 :=
      fun found hfound ↦
        (h.valid.ids_pos found (lowerBoundRow_eq_some hfound).1.1).ne'
    rw [hlookup, foundRecord_pick hid hpos]
    cases hrow : lowerBoundRow world.db owner.id label type with
    | none =>
        intro other hother
        rw [hrecords, Option.map_eq_none_iff, Mgmt.keyRow_eq_none_iff]
        intro row hmem hkey
        obtain ⟨hzone, rfl, rfl⟩ : row.zoneId = owner.id ∧ row.label = other ∧ row.type = type := by
          simpa [RrsetRow.key] using hkey
        exact lowerBoundRow_eq_none.mp hrow row hmem ⟨hzone, hother, rfl⟩
    | some row =>
        obtain ⟨⟨hmem, hzone, hbelow, rfl⟩, hgreatest⟩ := lowerBoundRow_eq_some hrow
        refine ⟨row.label, hbelow, ?_, fun other hother hpresent ↦ ?_⟩
        · rw [hrecords, (keyRow_eq_some_iff h.single).mpr ⟨hmem, by rw [RrsetRow.key, hzone]⟩,
            Option.map_some]
        · rw [hrecords, ne_eq, Option.map_eq_none_iff, ← ne_eq, Option.ne_none_iff_exists'] at hpresent
          obtain ⟨found, hfound⟩ := hpresent
          obtain ⟨hfoundMem, hfoundZone, rfl, hfoundType⟩ := keyRow_eq_some hfound
          exact hgreatest found hfoundMem hfoundZone hother hfoundType
  · rw [hlookup]
    exact fun other _ ↦ h.records_of_absent hnone other type

/-- The rows of a zone list its records. -/
theorem lists_zoneRows {zone : ZoneRow} (h : Represents db store) (hzone : zone ∈ db.zones) :
    store.Lists zone.name ((zoneRows db zone.id).map fun row ↦ (row.label, row.type, row.stored)) := by
  have hperm : (zoneRows db zone.id).Perm (db.rrsets.filter fun row ↦ row.zoneId = zone.id) :=
    List.perm_insertionSort _ _
  have hmem : ∀ row, row ∈ zoneRows db zone.id ↔ row ∈ db.rrsets ∧ row.zoneId = zone.id := by
    intro row
    rw [hperm.mem_iff, List.mem_filter, decide_eq_true_eq]
  constructor
  · intro label type record
    rw [h.records_of_zone hzone, Option.map_eq_some_iff, List.mem_map]
    simp only [keyRow_eq_some_iff h.single, hmem]
    refine exists_congr fun row ↦ ?_
    simp only [RrsetRow.key, Prod.mk.injEq]
    tauto
  · have hkeys : ((zoneRows db zone.id).map RrsetRow.key).Nodup :=
      (hperm.map _).nodup_iff.mpr (Database.nodup_map_filter h.single _)
    have hsplit : (zoneRows db zone.id).map RrsetRow.key =
        ((zoneRows db zone.id).map fun row ↦ (row.label, row.type)).map (Prod.mk zone.id) := by
      rw [List.map_map]
      refine List.map_congr_left fun row hrow ↦ ?_
      rw [RrsetRow.key, ((hmem row).mp hrow).2, Function.comp_apply]
    rw [hsplit] at hkeys
    rw [List.map_map]
    exact hkeys.of_map
  · refine List.pairwise_map.mpr ((List.pairwise_insertionSort _ _).imp fun hle ↦ ?_)
    have hlabel := RrsetRow.saveName_le_of_indexColumns_le hle
    rwa [← not_lt, saveName_lt_iff, not_lt] at hlabel

/-- The zone of an operation on a whole zone. -/
theorem run_requireZone_named (world : World Keys) :
    (requireZone (Zone.named name)).run (World.handle services) world =
      if (lookupZone world.db (Zone.named name)).id = 0 then
        (.error (.dbMgrRrsetError
          "Attempting to find all the rrsets with a zone does not in the database"), world)
      else (.ok (lookupZone world.db (Zone.named name)), world) := by
  rw [requireZone, Program.run_bind, run_findNewZone, Mgmt.ManagementTool.resolveZone_named]
  simp only
  split_ifs
  · rfl
  · rfl

theorem refined_findRrsets {zone : Name} : Refined services (.findRrsets zone) := by
  intro world store h _
  rcases h.lookup zone with ⟨owner, howner, rfl, hid, hsome, hlookup⟩ | ⟨hnone, hlookup⟩
  · have hspec : storeSpecification.post (.findRrsets owner.name) store
        (.ok ((zoneRows world.db owner.id).map fun row ↦ (row.label, row.type, row.stored))) store := by
      simp only [storeSpecification, hsome, reduceCtorEq, if_false, true_and]
      exact ⟨_, rfl, lists_zoneRows h howner⟩
    refine ⟨_, world, store, ?_, hspec, h⟩
    rw [perform, Program.Returns, run_attempt, Program.run_bind, DbMgr.findRrsets, Program.run_bind,
      run_requireZone_named, hlookup, if_neg hid]
    simp only [Program.run_bind, run_sql, Sql.execute, Program.run_pure, List.map_map]
    rfl
  · have hspec : storeSpecification.post (.findRrsets zone) store (.error (.dbMgrRrsetError
        "Attempting to find all the rrsets with a zone does not in the database")) store := by
      simp only [storeSpecification, if_pos hnone, and_self]
    refine ⟨_, world, store, ?_, hspec, h⟩
    rw [perform, Program.Returns, run_attempt, Program.run_bind, DbMgr.findRrsets, Program.run_bind,
      run_requireZone_named, hlookup]
    rfl

theorem refined_removeRrsetsOfZoneByType {zone : Name} :
    Refined services (.removeRrsetsOfZoneByType zone type) := by
  intro world store h _
  rcases h.lookup zone with ⟨owner, howner, rfl, hid, hsome, hlookup⟩ | ⟨hnone, hlookup⟩
  · have hspec : storeSpecification.post (.removeRrsetsOfZoneByType owner.name type) store (.ok ())
        (store.dropType owner.name type) := by
      simp only [storeSpecification, hsome, reduceCtorEq, if_false, and_self]
    refine ⟨_, { world with db := world.db.deleteRrsetsByType owner.id type }, _, ?_, hspec,
      h.deleteRrsetsByType howner⟩
    rw [perform, Program.Returns, run_attempt, DbMgr.removeRrsetsOfZoneByType, Program.run_bind,
      run_requireZone_named, hlookup, if_neg hid]
    rfl
  · have hspec : storeSpecification.post (.removeRrsetsOfZoneByType zone type) store
        (.error (.dbMgrRrsetError
          "Attempting to find all the rrsets with a zone does not in the database")) store := by
      simp only [storeSpecification, if_pos hnone, and_self]
    refine ⟨_, world, store, ?_, hspec, h⟩
    rw [perform, Program.Returns, run_attempt, DbMgr.removeRrsetsOfZoneByType, Program.run_bind,
      run_requireZone_named, hlookup]
    rfl

theorem refined_insertRrset {zone : Name} {record : StoredRecord} :
    Refined services (.insertRrset zone label type record) := by
  intro world store h habsent
  have hinsert : ∀ (db' : Database) (store' : RecordStore) (owner : ZoneRow),
      Represents db' store' → owner ∈ db'.zones → owner.name = zone →
      store'.records zone label type = none →
      (db'.rrsets.any fun row ↦ row.sameIndex owner.id label type record.version) = false := by
    rintro db' store' owner h' howner rfl hnone
    rw [h'.records_of_zone howner, Option.map_eq_none_iff, keyRow_eq_none] at hnone
    simp only [List.any_eq_false, RrsetRow.sameIndex_iff]
    exact fun row hrow hindex ↦ hnone row hrow ⟨hindex.1, hindex.2.1, hindex.2.2.1⟩
  rcases h.lookup zone with ⟨owner, howner, rfl, hid, hsome, hlookup⟩ | ⟨hnone, hlookup⟩
  · have hspec : storeSpecification.post (.insertRrset owner.name label type record) store ()
        (store.setRecord owner.name label type (some record)) := by
      simp only [storeSpecification, hsome, reduceCtorEq, if_false]
    refine ⟨(), { world with db := (world.db.insertRrset owner.id label type record.version record.ttl
      record.data) }, _, ?_, hspec, h.insertRrset howner habsent record⟩
    rw [perform, Program.Returns, Program.run_bind, run_findZone, hlookup]
    simp only [Program.run_bind]
    rw [run_insertRrset rfl rfl (Nat.pos_of_ne_zero hid)]
    simp only [hinsert world.db store owner h howner rfl habsent, Bool.false_eq_true, if_false]
    rfl
  · have hcreated := h.insertZone hnone Zone.defaultTtl
    have hspec : storeSpecification.post (.insertRrset zone label type record) store ()
        ((store.setZone zone (some (int32 Zone.defaultTtl))).setRecord zone label type
          (some record)) := by
      simp only [storeSpecification, if_pos hnone]
      rfl
    have howner : (⟨nextRowId (world.db.zones.map ZoneRow.id), zone, int32 Zone.defaultTtl⟩ :
        ZoneRow) ∈ (world.db.insertZone zone (int32 Zone.defaultTtl)).zones :=
      List.mem_append_right _ List.mem_cons_self
    have hnew := h.zones_none.mp hnone
    refine ⟨(), { world with db := ((world.db.insertZone zone (int32 Zone.defaultTtl)).insertRrset
      (nextRowId (world.db.zones.map ZoneRow.id)) label type record.version record.ttl record.data) },
      _, ?_, hspec, hcreated.insertRrset howner habsent record⟩
    have hinsertZone := @run_insertZone _ services (Zone.named zone) rfl world
    rw [if_neg (by simpa [Zone.named, Zone.make] using hnew)] at hinsertZone
    have hany : ((world.db.insertZone (Zone.named zone).name
        (int32 (Zone.named zone).ttl)).rrsets.any fun row ↦ row.sameIndex
          (nextRowId (world.db.zones.map ZoneRow.id)) label type record.version) = false :=
      hinsert _ _ _ hcreated howner rfl habsent
    rw [perform, Program.Returns, Program.run_bind, run_findZone, hlookup]
    simp only [Program.run_bind, DbMgr.insertRrset, ne_eq, not_true_eq_false, if_false, hinsertZone,
      run_sql, Sql.execute, hany, Bool.false_eq_true]
    rfl

theorem refined_updateRrset {zone : Name} {record : StoredRecord} :
    Refined services (.updateRrset zone label type record) := by
  intro world store h _
  rcases @Represents.run_findRrset _ services _ _ h zone label type with ⟨hnone, rrset, hid, hrun⟩ |
    ⟨owner, howner, rfl, row, hrow, hpos, hsome, rrset, hid, hzone, -, hrun⟩
  · have hspec : storeSpecification.post (.updateRrset zone label type record) store
        (.error (.dbMgrRrsetError "Attempting to replace Rrset that has no assigned id")) store := by
      simp only [storeSpecification, RecordStore.Requires, if_pos hnone, and_self]
    refine ⟨_, world, store, ?_, hspec, h⟩
    rw [perform, Program.Returns, run_attempt, Program.run_bind, hrun]
    simp only [DbMgr.updateRrset, if_pos hid, Program.run_throw]
  · obtain ⟨hallowed, hupdated⟩ := h.updateRrset howner hrow record
    have hspec : storeSpecification.post (.updateRrset owner.name label type record) store (.ok ())
        (store.setRecord owner.name label type (some record)) := by
      simp only [storeSpecification, RecordStore.Requires, hsome, reduceCtorEq, if_false, and_self]
    refine ⟨_, { world with db := (world.db.updateRrset row.id record.ttl record.version record.data) },
      _, ?_, hspec, hupdated⟩
    have hupdate := @run_updateRrset _ services { rrset with
      version := record.version, ttl := record.ttl, data := record.data } (hid ▸ hpos) hzone world
    simp only [hid, hallowed, Bool.false_eq_true, if_false] at hupdate
    rw [perform, Program.Returns, run_attempt, Program.run_bind, hrun]
    simp only
    rw [hid, hupdate]

theorem refined_removeRrset {zone : Name} : Refined services (.removeRrset zone label type) := by
  intro world store h _
  rcases @Represents.run_findRrset _ services _ _ h zone label type with ⟨hnone, rrset, hid, hrun⟩ |
    ⟨owner, howner, rfl, row, hrow, hpos, hsome, rrset, hid, -, -, hrun⟩
  · have hspec : storeSpecification.post (.removeRrset zone label type) store
        (.error (.dbMgrRrsetError "Attempting to remove Rrset that has no assigned id")) store := by
      simp only [storeSpecification, RecordStore.Requires, if_pos hnone, and_self]
    refine ⟨_, world, store, ?_, hspec, h⟩
    rw [perform, Program.Returns, run_attempt, Program.run_bind, hrun]
    simp only [DbMgr.removeRrset, if_pos hid, Program.run_throw]
  · have hspec : storeSpecification.post (.removeRrset owner.name label type) store (.ok ())
        (store.setRecord owner.name label type none) := by
      simp only [storeSpecification, RecordStore.Requires, hsome, reduceCtorEq, if_false, and_self]
    refine ⟨_, { world with db := world.db.deleteRrset row.id }, _, ?_, hspec,
      h.deleteRrset howner hrow⟩
    rw [perform, Program.Returns, run_attempt, Program.run_bind, hrun]
    simp only
    rw [run_removeRrset (hid ▸ hpos), hid]

theorem refined (services : Services Keys) (call : StoreCall) : Refined services call := by
  cases call with
  | findZone name => exact refined_findZone
  | insertZone name ttl => exact refined_insertZone
  | removeZone name => exact refined_removeZone
  | listZones => exact refined_listZones
  | findRrset zone label type => exact refined_findRrset
  | findLowerBound zone label type => exact refined_findLowerBound
  | findRrsets zone => exact refined_findRrsets
  | insertRrset zone label type record => exact refined_insertRrset
  | updateRrset zone label type record => exact refined_updateRrset
  | removeRrset zone label type => exact refined_removeRrset
  | removeRrsetsOfZoneByType zone type => exact refined_removeRrsetsOfZoneByType

end StoreCall

end

/-! ## Whole programs -/

/-- What the tables say, by name. -/
def Database.store (db : Database) : RecordStore where
  zones name := (db.zones.find? fun zone ↦ zone.name = name).map fun zone ↦ int32 zone.ttl
  records name label type := (db.zones.find? fun zone ↦ zone.name = name).bind fun zone ↦
    (keyRow db zone.id label type).map RrsetRow.stored

theorem represents_store {db : Database} (hvalid : db.Valid) (hsingle : db.SingleVersion)
    (horphans : Mgmt.NoOrphans db) : Represents db db.store := by
  have hfind : ∀ name zone, db.zones.find? (fun zone ↦ zone.name = name) = some zone ↔
      zone ∈ db.zones ∧ zone.name = name := by
    intro name zone
    constructor
    · intro hzone
      exact ⟨List.mem_of_find?_eq_some hzone, by simpa using List.find?_some hzone⟩
    · rintro ⟨hzone, hname⟩
      cases hfound : db.zones.find? fun zone ↦ zone.name = name with
      | none => exact absurd (decide_eq_true hname) (List.find?_eq_none.mp hfound zone hzone)
      | some found =>
          have hsame : found.name = name := by simpa using List.find?_some hfound
          rw [List.inj_on_of_nodup_map hvalid.zoneNames (List.mem_of_find?_eq_some hfound) hzone
            (hsame.trans hname.symm)]
  refine ⟨hvalid, hsingle, horphans, fun name ttl ↦ ?_, fun name label type record ↦ ?_⟩
  · rw [Database.store, Option.map_eq_some_iff]
    simp only [hfind, and_assoc]
  · rw [Database.store, Option.bind_eq_some_iff]
    simp only [hfind, Option.map_eq_some_iff, keyRow_eq_some_iff hsingle, and_assoc]

/-- Whatever a program that keeps to the preconditions does on the tables, it may do on the store
that the tables represent. -/
theorem programs_refine_store {Keys : Type} (services : Services Keys) {world : World Keys}
    (hvalid : world.db.Valid) (hsingle : world.db.SingleVersion) (horphans : Mgmt.NoOrphans world.db)
    {Value : Type} (program : Program StoreCall.Answer Fault Value)
    (hrespects : program.Respects storeSpecification world.db.store) :
    ∃ last, program.Behaves storeSpecification world.db.store
        ((program.implement StoreCall.perform).run (World.handle services) world).1 last ∧
      Represents ((program.implement StoreCall.perform).run (World.handle services) world).2.db
        last := by
  have hrefines : Program.Refines StoreCall.perform (World.handle services) storeSpecification
      fun (world : World Keys) store ↦ Represents world.db store :=
    fun call world store h hpre ↦ StoreCall.refined services call world store h hpre
  exact hrefines.run (represents_store hvalid hsingle horphans) hrespects

/-! ## The updates of the name server -/

/-- An update is stored when it is newer; a record keeps its TTL. -/
def offerRecord (zone label : Name) (type : Component) (record : StoredRecord) :
    Program StoreCall.Answer Fault NameServer.UpdateReturnCode :=
  .call (.findRrset zone label type) fun
    | none => .call (.insertRrset zone label type record) fun _ ↦ .done .updateOk
    | some old =>
        if old.version < record.version then
          .call (.updateRrset zone label type ⟨record.version, old.ttl, record.data⟩) fun _ ↦
            .done .updateOk
        else .done .updateFailure

/-- What an accepted update does to the tables, and what it is answered with, is what the program
may do to the store. -/
theorem updateDatabase_refines [PacketFormat] {server : NameServer} {re : Label.MatchResult}
    {packet : Received} {db : Database} {store : RecordStore} (h : Represents db store)
    (hserved : ∃ zone ∈ db.zones, zone.id = server.zone.id ∧ zone.name = server.zone.name) :
    ∃ last, (offerRecord server.zone.name re.rrLabel re.rrType
        ⟨re.version, server.zone.ttl, packet.wire⟩).Behaves storeSpecification store
          (.ok (NameServer.updateDatabase server re packet db).2) last ∧
      Represents (NameServer.updateDatabase server re packet db).1 last := by
  obtain ⟨zone, hzone, hid, hname⟩ := hserved
  have hrecords := h.records_of_zone hzone re.rrLabel re.rrType
  have hpresent : store.zones zone.name ≠ none := by
    rw [ne_eq, h.zones_none]
    exact fun hnone ↦ hnone zone hzone rfl
  rw [← hname]
  unfold NameServer.updateDatabase
  rw [← hid]
  cases hrow : keyRow db zone.id re.rrLabel re.rrType with
  | none =>
      rw [hrow, Option.map_none] at hrecords
      have hpost : storeSpecification.post (.insertRrset zone.name re.rrLabel re.rrType
          ⟨re.version, server.zone.ttl, packet.wire⟩) store () (store.setRecord zone.name re.rrLabel
            re.rrType (some ⟨re.version, server.zone.ttl, packet.wire⟩)) := by
        simp only [storeSpecification, if_neg hpresent]
      refine ⟨_, .call ⟨rfl, rfl⟩ ?_,
        h.insertRrset hzone hrecords ⟨re.version, server.zone.ttl, packet.wire⟩⟩
      rw [hrecords]
      exact .call hpost .done
  | some row =>
      rw [hrow, Option.map_some] at hrecords
      by_cases hnewer : row.version < re.version
      · obtain ⟨hallowed, hupdated⟩ := h.updateRrset hzone hrow ⟨re.version, row.ttl, packet.wire⟩
        have hpost : storeSpecification.post (.updateRrset zone.name re.rrLabel re.rrType
            ⟨re.version, row.ttl, packet.wire⟩) store (.ok ()) (store.setRecord zone.name re.rrLabel
              re.rrType (some ⟨re.version, row.ttl, packet.wire⟩)) := by
          simp only [storeSpecification, RecordStore.Requires, hrecords, reduceCtorEq, if_false,
            and_self]
        simp only [if_pos hnewer, hallowed, Bool.false_eq_true, if_false]
        refine ⟨_, .call ⟨rfl, rfl⟩ ?_, hupdated⟩
        simp only [hrecords, RrsetRow.stored, if_pos hnewer]
        exact .call hpost .done
      · simp only [if_neg hnewer]
        refine ⟨store, .call ⟨rfl, rfl⟩ ?_, h⟩
        simp only [hrecords, RrsetRow.stored, if_neg hnewer]
        exact .done

section Examples

open LocalServices

/-- A record is added, and then looked up. -/
def addAndFind : Program StoreCall.Answer Fault (Option StoredRecord) :=
  .call (.insertRrset [letter 110] [letter 119] Label.txtRrType ⟨Component.empty, 60, Block.invalid⟩)
    fun _ ↦ .call (.findRrset [letter 110] [letter 119] Label.txtRrType) .done

theorem programs_refine_store_added : ∃ last, addAndFind.Behaves storeSpecification
    Database.empty.store (.ok (some ⟨Component.empty, 60, Block.invalid⟩)) last := by
  have hrespects : addAndFind.Respects storeSpecification Database.empty.store :=
    ⟨rfl, fun _ _ _ ↦ ⟨trivial, fun _ _ _ ↦ trivial⟩⟩
  have hrefines := @programs_refine_store _ localServices ⟨Database.empty, 0⟩ Database.valid_empty
    Database.singleVersion_empty represents_empty.noOrphans _ addAndFind hrespects
  have hrun : ((addAndFind.implement StoreCall.perform).run (World.handle localServices)
      ⟨Database.empty, 0⟩).1 = .ok (some ⟨Component.empty, 60, Block.invalid⟩) := by decide +kernel
  obtain ⟨last, hbehaves, -⟩ := hrefines
  rw [hrun] at hbehaves
  exact ⟨last, hbehaves⟩

end Examples

end Ndns.Daemon
