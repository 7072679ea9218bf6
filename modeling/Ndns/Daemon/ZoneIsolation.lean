import Ndns.Calls.Contracts
import Ndns.Daemon.HealthyDatabase
import Ndns.Daemon.LocalServices

/-!
# What a New Zone Inherits

Zones are told apart by their row id, and a new zone takes the largest id plus one: the id of the
zone that was removed last, if that was the largest.  The cascades the schema declares would take
the rows of a removed zone along, but foreign keys are not enforced on the connections of `DbMgr`,
and `clearAllData` leaves the zone_info table alone.

A chronicle remembers when a zone id was given out and the name of the zone each row was written for
last, which is the name in the zone object of the operation.  The entries of a zone are its own as
long as every zone is inserted under an id that no row refers to, and as long as no write goes
through a zone object to the rows of a zone with another name.  A zone object outlives its zone, so
the id in it may have become that of another one.
-/

namespace Ndns.Daemon

open Ndn Calls

/-! ## The chronicle of a run -/

/-- The name of the zone a write was made for, and when. -/
structure Stamp where
  zoneName : Name
  time : ℕ

structure Chronicle where
  time : ℕ
  /-- When the zone id was given out last. -/
  inserted : ℕ → ℕ
  /-- The last write of the record with the row id. -/
  record : ℕ → Stamp
  /-- The last write of the zone information with the primary key. -/
  info : ℤ × String → Stamp

namespace Chronicle

/-- Nothing has been written. -/
def start : Chronicle := ⟨0, fun _ ↦ 0, fun _ ↦ ⟨[], 0⟩, fun _ ↦ ⟨[], 0⟩⟩

/-- What a statement adds to the chronicle; `addressed` is the name in the zone object of the
operation that makes it. -/
def note (chronicle : Chronicle) (addressed : Name) (db : Database) : Sql → Chronicle
  | .insertZone name _ =>
      if db.zones.any fun zone ↦ saveName zone.name = saveName name then chronicle
      else
        { chronicle with
          time := chronicle.time + 1
          inserted := Function.update chronicle.inserted (nextRowId (db.zones.map ZoneRow.id))
            chronicle.time }
  | .insertRrset zoneId label type version _ _ =>
      if db.rrsets.any fun row ↦ row.sameIndex zoneId label type version then chronicle
      else
        { chronicle with
          time := chronicle.time + 1
          record := Function.update chronicle.record (nextRowId (db.rrsets.map RrsetRow.id))
            ⟨addressed, chronicle.time⟩ }
  | .updateRrset id _ version _ =>
      if db.forbidsUpdate id version then chronicle
      else
        { chronicle with
          time := chronicle.time + 1
          record := Function.update chronicle.record id ⟨addressed, chronicle.time⟩ }
  | .insertZoneInfo zoneId key _ =>
      { chronicle with
        time := chronicle.time + 1
        info := Function.update chronicle.info (zoneId, key) ⟨addressed, chronicle.time⟩ }
  | _ => chronicle

/-- The write was made for the zone, after the zone was inserted. -/
def Owns (chronicle : Chronicle) (zone : ZoneRow) (stamp : Stamp) : Prop :=
  stamp.zoneName = zone.name ∧ chronicle.inserted zone.id < stamp.time

end Chronicle

/-- A database with its chronicle. -/
structure Recorded where
  db : Database
  chronicle : Chronicle

/-- Statements act on the tables and are noted; `DbMgr` makes no requests to services. -/
def Recorded.handle (addressed : Name) : Handler Call.Answer Recorded
  | .sql statement, state =>
      ((statement.execute state.db).1,
        ⟨(statement.execute state.db).2, state.chronicle.note addressed state.db statement⟩)
  | .service request, state => ((LocalServices.answer request 0).1, state)

/-! ## Operations -/

/-- The operations of `DbMgr`, with the objects they are applied to. -/
inductive DbMgr.Operation where
  | insertZone (zone : Zone)
  | findZone (zone : Zone)
  | removeZone (zone : Zone)
  | setZoneInfo (zone : Zone) (key : String) (value : Block)
  | getZoneInfo (zone : Zone)
  | listZones
  | insertRrset (rrset : Rrset)
  | findRrset (rrset : Rrset)
  | findLowerBound (rrset : Rrset)
  | findRrsets (zone : Zone)
  | removeRrsetsOfZoneByType (zone : Zone) (type : Component)
  | removeRrset (rrset : Rrset)
  | updateRrset (rrset : Rrset)
  | clearAllData

/-- A program without its result. -/
def discard {Value : Type} (program : Prog Value) : Prog Unit := program >>= fun _ ↦ pure ()

namespace DbMgr.Operation

/-- The program of an operation, without its result. -/
def program : Operation → Prog Unit
  | .insertZone zone => discard (DbMgr.insertZone zone)
  | .findZone zone => discard (DbMgr.findZone zone)
  | .removeZone zone => discard (DbMgr.removeZone zone)
  | .setZoneInfo zone key value => DbMgr.setZoneInfo zone key value
  | .getZoneInfo zone => discard (DbMgr.getZoneInfo zone)
  | .listZones => discard DbMgr.listZones
  | .insertRrset rrset => discard (DbMgr.insertRrset rrset)
  | .findRrset rrset => discard (DbMgr.findRrset rrset)
  | .findLowerBound rrset => discard (DbMgr.findLowerBound rrset)
  | .findRrsets zone => discard (DbMgr.findRrsets zone)
  | .removeRrsetsOfZoneByType zone type => DbMgr.removeRrsetsOfZoneByType zone type
  | .removeRrset rrset => DbMgr.removeRrset rrset
  | .updateRrset rrset => DbMgr.updateRrset rrset
  | .clearAllData => DbMgr.clearAllData

/-- The name in the zone object an operation writes through. -/
def addressed : Operation → Name
  | .setZoneInfo zone _ _ => zone.name
  | .insertRrset rrset | .updateRrset rrset => (rrset.zone.map Zone.name).getD []
  | _ => []

end DbMgr.Operation

/-! ## Ownership -/

/-- No row refers to the id the next zone will get. -/
def Database.Vacant (db : Database) : Prop :=
  (∀ row ∈ db.rrsets, row.zoneId ≠ nextRowId (db.zones.map ZoneRow.id)) ∧
    ∀ row ∈ db.zoneInfo, row.zoneId ≠ int32 (nextRowId (db.zones.map ZoneRow.id))

/-- Every row that refers to a zone was written for it, after the zone was inserted. -/
structure Recorded.Owned (state : Recorded) : Prop where
  valid : state.db.Valid
  inserted : ∀ zone ∈ state.db.zones, state.chronicle.inserted zone.id < state.chronicle.time
  records : ∀ zone ∈ state.db.zones, ∀ row ∈ state.db.rrsets, row.zoneId = zone.id →
    state.chronicle.Owns zone (state.chronicle.record row.id)
  info : ∀ zone ∈ state.db.zones, ∀ row ∈ state.db.zoneInfo, row.zoneId = int32 zone.id →
    state.chronicle.Owns zone (state.chronicle.info (row.zoneId, row.key))

/-- The statements that keep the rows of a zone its own. -/
def Sql.Isolated (addressed : Name) (db : Database) : Sql → Prop
  | .insertZone name _ => (∀ zone ∈ db.zones, zone.name ≠ name) → db.Vacant
  | .insertZoneInfo zoneId _ _ => ∀ zone ∈ db.zones, int32 zone.id = zoneId → zone.name = addressed
  | .insertRrset zoneId _ _ _ _ _ => ∀ zone ∈ db.zones, zone.id = zoneId → zone.name = addressed
  | .updateRrset id _ _ _ => ∀ row ∈ db.rrsets, row.id = id →
      ∀ zone ∈ db.zones, zone.id = row.zoneId → zone.name = addressed
  | _ => True

namespace Recorded.Owned

variable {state : Recorded} {addressed : Name}

theorem start : Recorded.Owned ⟨Database.empty, Chronicle.start⟩ where
  valid := Database.valid_empty
  inserted := by simp [Database.empty]
  records := by simp [Database.empty]
  info := by simp [Database.empty]

/-- Fewer rows, under the same chronicle. -/
theorem shrink (h : state.Owned) {db : Database} (hvalid : db.Valid)
    (hzones : db.zones ⊆ state.db.zones) (hrrsets : db.rrsets ⊆ state.db.rrsets)
    (hinfo : db.zoneInfo ⊆ state.db.zoneInfo) : Recorded.Owned ⟨db, state.chronicle⟩ where
  valid := hvalid
  inserted zone hzone := h.inserted zone (hzones hzone)
  records zone hzone row hrow := h.records zone (hzones hzone) row (hrrsets hrow)
  info zone hzone row hrow := h.info zone (hzones hzone) row (hinfo hrow)

theorem insertZone (h : state.Owned) {name : Name} (ttl : ℤ)
    (hnew : ∀ zone ∈ state.db.zones, zone.name ≠ name) (hvacant : state.db.Vacant) :
    Recorded.Owned ⟨state.db.insertZone name ttl,
      { state.chronicle with
        time := state.chronicle.time + 1
        inserted := Function.update state.chronicle.inserted
          (nextRowId (state.db.zones.map ZoneRow.id)) state.chronicle.time }⟩ := by
  have hold : ∀ zone ∈ state.db.zones, Function.update state.chronicle.inserted
      (nextRowId (state.db.zones.map ZoneRow.id)) state.chronicle.time zone.id =
        state.chronicle.inserted zone.id := fun zone hzone ↦
    Function.update_of_ne (Database.ne_nextRowId hzone) _ _
  constructor
  · exact h.valid.insertZone ttl hnew
  · intro zone hzone
    rcases List.mem_append.mp hzone with hzone | hzone
    · simp only [hold zone hzone]
      exact (h.inserted zone hzone).trans (Nat.lt_succ_self _)
    · rw [List.mem_singleton.mp hzone]
      simp
  · intro zone hzone row hrow hid
    rcases List.mem_append.mp hzone with hzone | hzone
    · have howns := h.records zone hzone row hrow hid
      exact ⟨howns.1, by simpa only [hold zone hzone] using howns.2⟩
    · rw [List.mem_singleton.mp hzone] at hid
      exact absurd hid (hvacant.1 row hrow)
  · intro zone hzone row hrow hid
    rcases List.mem_append.mp hzone with hzone | hzone
    · have howns := h.info zone hzone row hrow hid
      exact ⟨howns.1, by simpa only [hold zone hzone] using howns.2⟩
    · rw [List.mem_singleton.mp hzone] at hid
      exact absurd hid (hvacant.2 row hrow)

theorem insertRrset (h : state.Owned) {zoneId : ℕ} {label : Name} {type version : Component}
    (ttl : ℤ) (data : Block)
    (hnew : ∀ row ∈ state.db.rrsets, row.indexKey ≠ (zoneId, label, type, version))
    (haddressed : ∀ zone ∈ state.db.zones, zone.id = zoneId → zone.name = addressed) :
    Recorded.Owned ⟨state.db.insertRrset zoneId label type version ttl data,
      { state.chronicle with
        time := state.chronicle.time + 1
        record := Function.update state.chronicle.record
          (nextRowId (state.db.rrsets.map RrsetRow.id)) ⟨addressed, state.chronicle.time⟩ }⟩ := by
  constructor
  · exact h.valid.insertRrset ttl data hnew
  · exact fun zone hzone ↦ (h.inserted zone hzone).trans (Nat.lt_succ_self _)
  · intro zone hzone row hrow hid
    rcases List.mem_append.mp hrow with hrow | hrow
    · simp only [Function.update_of_ne (Database.ne_nextRowId hrow)]
      exact h.records zone hzone row hrow hid
    · rw [List.mem_singleton.mp hrow] at hid ⊢
      simp only [Function.update_self]
      exact ⟨(haddressed zone hzone hid.symm).symm, h.inserted zone hzone⟩
  · exact h.info

theorem updateRrset (h : state.Owned) {id : ℕ} (ttl : ℤ) {version : Component} (data : Block)
    (hallowed : state.db.forbidsUpdate id version = false)
    (haddressed : ∀ row ∈ state.db.rrsets, row.id = id →
      ∀ zone ∈ state.db.zones, zone.id = row.zoneId → zone.name = addressed) :
    Recorded.Owned ⟨state.db.updateRrset id ttl version data,
      { state.chronicle with
        time := state.chronicle.time + 1
        record := Function.update state.chronicle.record id
          ⟨addressed, state.chronicle.time⟩ }⟩ := by
  constructor
  · exact h.valid.updateRrset ttl data hallowed
  · exact fun zone hzone ↦ (h.inserted zone hzone).trans (Nat.lt_succ_self _)
  · intro zone hzone row hrow hzoneId
    obtain ⟨old, hold, rfl⟩ := List.mem_map.mp hrow
    by_cases hid : old.id = id
    · rw [if_pos hid] at hzoneId ⊢
      change state.chronicle.Owns zone (Function.update state.chronicle.record id _ old.id)
      rw [hid, Function.update_self]
      exact ⟨(haddressed old hold hid zone hzone hzoneId.symm).symm, h.inserted zone hzone⟩
    · rw [if_neg hid] at hzoneId ⊢
      simp only [Function.update_of_ne hid]
      exact h.records zone hzone old hold hzoneId
  · exact h.info

theorem insertZoneInfo (h : state.Owned) {zoneId : ℤ} (key : String) (value : Block)
    (haddressed : ∀ zone ∈ state.db.zones, int32 zone.id = zoneId → zone.name = addressed) :
    Recorded.Owned ⟨state.db.insertZoneInfo zoneId key value,
      { state.chronicle with
        time := state.chronicle.time + 1
        info := Function.update state.chronicle.info (zoneId, key)
          ⟨addressed, state.chronicle.time⟩ }⟩ := by
  constructor
  · exact h.valid.insertZoneInfo zoneId key value
  · exact fun zone hzone ↦ (h.inserted zone hzone).trans (Nat.lt_succ_self _)
  · exact h.records
  · intro zone hzone row hrow hid
    rcases List.mem_append.mp hrow with hrow | hrow
    · obtain ⟨hrow, hkept⟩ := List.mem_filter.mp hrow
      have hne : (row.zoneId, row.key) ≠ (zoneId, key) := by simpa [imp_iff_not_or] using hkept
      simp only [Function.update_of_ne hne]
      exact h.info zone hzone row hrow hid
    · rw [List.mem_singleton.mp hrow] at hid ⊢
      simp only [Function.update_self]
      exact ⟨(haddressed zone hzone hid.symm).symm, h.inserted zone hzone⟩

/-- An isolated statement keeps every row with its owner. -/
theorem execute (h : state.Owned) {statement : Sql}
    (hisolated : statement.Isolated addressed state.db) :
    (Recorded.handle addressed (.sql statement) state).2.Owned := by
  have hvalid := statement.execute_valid h.valid
  cases statement with
  | insertZone name ttl =>
      simp only [Recorded.handle, Sql.execute, Chronicle.note]
      split_ifs with hexists
      · exact h
      · have hnew : ∀ zone ∈ state.db.zones, zone.name ≠ name := fun zone hzone hname ↦
          hexists (List.any_eq_true.mpr ⟨zone, hzone, by simpa using hname⟩)
        exact h.insertZone ttl hnew (hisolated hnew)
  | insertZoneInfo zoneId key value => exact h.insertZoneInfo key value hisolated
  | insertRrset zoneId label type version ttl data =>
      simp only [Recorded.handle, Sql.execute, Chronicle.note]
      split_ifs with hexists
      · exact h
      · refine h.insertRrset ttl data (fun row hrow hkey ↦ hexists ?_) hisolated
        simp only [RrsetRow.indexKey, Prod.mk.injEq] at hkey
        exact List.any_eq_true.mpr ⟨row, hrow, by simpa using hkey⟩
  | updateRrset id ttl version data =>
      simp only [Recorded.handle, Sql.execute, Chronicle.note]
      split_ifs with hforbidden
      · exact h
      · exact h.updateRrset ttl data (by simpa using hforbidden) hisolated
  | deleteZone id => exact h.shrink hvalid (List.filter_subset_self _) (List.Subset.refl _) (List.Subset.refl _)
  | deleteRrsetsByType zoneId type =>
      exact h.shrink hvalid (List.Subset.refl _) (List.filter_subset_self _) (List.Subset.refl _)
  | deleteRrset id =>
      exact h.shrink hvalid (List.Subset.refl _) (List.filter_subset_self _) (List.Subset.refl _)
  | clearAllData =>
      exact h.shrink hvalid (List.nil_subset _) (List.nil_subset _) (List.Subset.refl _)
  | selectZoneInfo | selectZone | selectZones | selectRrset | selectLowerBound | selectRrsets =>
      exact h

end Recorded.Owned

/-! ## Runs -/

namespace DbMgr.Operation

/-- A zone that is inserted gets an id that no row refers to. -/
def InsertsVacant (db : Database) (zone : Zone) : Prop :=
  zone.id = 0 → (∀ row ∈ db.zones, row.name ≠ zone.name) → db.Vacant

/-- The condition on an operation: a zone is inserted under an id no row refers to, zone information
and records are stored under an id that stands for zones with the name in the zone object only, and
a record is overwritten through an object that names its zone. -/
def Isolated (db : Database) : Operation → Prop
  | .insertZone zone => InsertsVacant db zone
  | .insertRrset rrset => ∀ zone, rrset.id = 0 → rrset.zone = some zone →
      InsertsVacant db zone ∧ ∀ row ∈ db.zones, row.id = zone.id → row.name = zone.name
  | .setZoneInfo zone _ _ => ∀ row ∈ db.zones, int32 row.id = int32 zone.id → row.name = zone.name
  | .updateRrset rrset => ∀ zone, rrset.zone = some zone → ∀ row ∈ db.rrsets, row.id = rrset.id →
      ∀ owner ∈ db.zones, owner.id = row.zoneId → owner.name = zone.name
  | _ => True

/-- The calls of `DbMgr`, with the condition on its statements. -/
def Allows (addressed : Name) : Call → Recorded → Prop
  | .sql statement, state => statement.Isolated addressed state.db
  | .service _, _ => True

/-- The statements that need no condition. -/
def Harmless : Call → Prop
  | .sql (.insertZone _ _) => False
  | .sql (.insertZoneInfo _ _ _) => False
  | .sql (.insertRrset _ _ _ _ _ _) => False
  | .sql (.updateRrset _ _ _ _) => False
  | _ => True

theorem Harmless.allows {addressed : Name} {call : Call} (h : Harmless call) (state : Recorded) :
    Allows addressed call state := by
  cases call with
  | service request => trivial
  | sql statement => cases statement <;> trivial

/-- A program of harmless statements needs no condition. -/
theorem ensures_of_harmless {Value : Type} {program : Prog Value} {addressed : Name}
    (h : program.CallsOnly Harmless) (state : Recorded) :
    program.Ensures (Recorded.handle addressed) (Allows addressed) (fun _ _ ↦ True) state :=
  (h.ensures state).mono (fun _ state hcall ↦ hcall.allows state) fun _ _ _ ↦ trivial

/-- A statement, and what is done with its answer. -/
theorem harmless_statement {Value : Type} {statement : Sql} {rest : statement.Answer → Prog Value}
    (hstatement : Harmless (.sql statement)) (hrest : ∀ answer, (rest answer).CallsOnly Harmless) :
    (sql statement >>= rest).CallsOnly Harmless := ⟨hstatement, hrest⟩

theorem ensures_statement {Value : Type} {statement : Sql} {rest : statement.Answer → Prog Value}
    {addressed : Name} {state : Recorded} (hstatement : statement.Isolated addressed state.db)
    (hrest : ∀ answer, (rest answer).CallsOnly Harmless) :
    (sql statement >>= rest).Ensures (Recorded.handle addressed) (Allows addressed)
      (fun _ _ ↦ True) state := ⟨hstatement, ensures_of_harmless (hrest _) _⟩

theorem harmless_discard {Value : Type} {program : Prog Value}
    (h : program.CallsOnly Harmless) : (discard program).CallsOnly Harmless :=
  h.bind fun _ ↦ trivial

theorem ensures_discard {Value : Type} {program : Prog Value} {addressed : Name} {state : Recorded}
    (h : program.Ensures (Recorded.handle addressed) (Allows addressed) (fun _ _ ↦ True) state) :
    (discard program).Ensures (Recorded.handle addressed) (Allows addressed) (fun _ _ ↦ True)
      state :=
  h.bind (fun _ _ _ ↦ trivial) fun _ _ _ ↦ trivial

theorem harmless_findZone (zone : Zone) : (DbMgr.findZone zone).CallsOnly Harmless := by
  refine harmless_statement trivial fun selected ↦ ?_
  rcases selected with _ | ⟨rows, _⟩
  · trivial
  · cases rows <;> trivial

theorem harmless_findNewZone (zone : Zone) : (DbMgr.findNewZone zone).CallsOnly Harmless := by
  unfold DbMgr.findNewZone
  split_ifs
  · exact harmless_findZone zone
  · trivial

theorem harmless_findWith {select : ℕ → Prog (Selected RrsetRow)} {rrset : Rrset}
    (hselect : ∀ zoneId, (select zoneId).CallsOnly Harmless) :
    (DbMgr.findWith select rrset).CallsOnly Harmless := by
  unfold DbMgr.findWith
  split
  · trivial
  · refine (harmless_findNewZone _).bind fun zone ↦ ?_
    split_ifs
    · trivial
    · refine (hselect _).bind fun selected ↦ ?_
      rcases selected with _ | ⟨rows, _⟩
      · trivial
      · cases rows <;> trivial

theorem harmless_findRrset (rrset : Rrset) : (DbMgr.findRrset rrset).CallsOnly Harmless := by
  unfold DbMgr.findRrset
  exact harmless_findWith fun _ ↦ ⟨trivial, fun _ ↦ trivial⟩

theorem harmless_findLowerBound (rrset : Rrset) :
    (DbMgr.findLowerBound rrset).CallsOnly Harmless := by
  unfold DbMgr.findLowerBound
  exact harmless_findWith fun _ ↦ ⟨trivial, fun _ ↦ trivial⟩

theorem harmless_requireZone (zone : Zone) : (DbMgr.requireZone zone).CallsOnly Harmless := by
  refine (harmless_findNewZone zone).bind fun zone ↦ ?_
  split_ifs <;> trivial

/-- The zone that is returned is the one given, or a new one, whose id no other zone has. -/
theorem ensures_insertZone {zone : Zone} {state : Recorded} {addressed : Name}
    (h : InsertsVacant state.db zone) :
    (DbMgr.insertZone zone).Ensures (Recorded.handle addressed) (Allows addressed)
      (fun outcome state' ↦ ∀ stored, outcome = .ok stored →
        stored = zone ∧ state' = state ∨
          ∀ row ∈ state'.db.zones, row.id = stored.id → row.name = zone.name) state := by
  unfold DbMgr.insertZone
  split_ifs with hid
  · exact fun stored hok ↦ Or.inl ⟨(Except.ok.inj hok).symm, rfl⟩
  · refine ⟨h (by omega), ?_⟩
    simp only [Recorded.handle, Sql.execute]
    split_ifs
    · intro stored hok
      cases hok
    · intro stored hok
      cases hok
      refine Or.inr fun row hrow hrowId ↦ ?_
      rcases List.mem_append.mp hrow with hold | hnew
      · exact absurd hrowId (Database.ne_nextRowId hold)
      · rw [List.mem_singleton.mp hnew]

theorem ensures_insertRrset {rrset : Rrset} {state : Recorded}
    (h : Isolated state.db (.insertRrset rrset)) :
    (DbMgr.insertRrset rrset).Ensures (Recorded.handle (addressed (.insertRrset rrset)))
      (Allows (addressed (.insertRrset rrset))) (fun _ _ ↦ True) state := by
  unfold DbMgr.insertRrset
  split_ifs with hnew
  · trivial
  · split
    · trivial
    · rename_i zone hzone
      obtain ⟨hvacant, hnamed⟩ := h zone (not_not.mp hnew) hzone
      refine (ensures_insertZone hvacant).bind (fun stored state' hstored ↦ ?_) fun _ _ _ ↦ trivial
      refine ensures_statement ?_ fun written ↦ by cases written <;> trivial
      intro row hrow hid
      rw [addressed, hzone]
      rcases hstored stored rfl with ⟨rfl, rfl⟩ | hstored
      · exact hnamed row hrow hid
      · exact hstored row hrow hid

/-- An operation that meets the condition makes statements that meet theirs. -/
theorem Isolated.ensures {operation : Operation} {state : Recorded}
    (h : Isolated state.db operation) :
    operation.program.Ensures (Recorded.handle operation.addressed) (Allows operation.addressed)
      (fun _ _ ↦ True) state := by
  cases operation with
  | insertZone zone =>
      exact ensures_discard ((ensures_insertZone h).weaken fun _ _ _ ↦ trivial)
  | insertRrset rrset => exact ensures_discard (ensures_insertRrset h)
  | setZoneInfo zone key value =>
      simp only [program, DbMgr.setZoneInfo]
      split_ifs
      · trivial
      · trivial
      · exact ensures_statement h fun written ↦ by cases written <;> trivial
  | updateRrset rrset =>
      simp only [program, DbMgr.updateRrset]
      split_ifs with hid hzone
      · trivial
      · trivial
      · obtain ⟨zone, hsome⟩ := Option.ne_none_iff_exists'.mp hzone
        refine ensures_statement ?_ fun written ↦ by cases written <;> trivial
        intro row hrow hrowId owner howner howned
        simpa [addressed, hsome] using h zone hsome row hrow hrowId owner howner howned
  | findZone zone =>
      exact ensures_of_harmless (harmless_discard (harmless_findZone zone)) state
  | removeZone zone =>
      refine ensures_of_harmless (harmless_discard ?_) state
      unfold DbMgr.removeZone
      split_ifs
      · trivial
      · exact harmless_statement trivial fun written ↦ by cases written <;> trivial
  | getZoneInfo zone =>
      refine ensures_of_harmless (harmless_discard ?_) state
      refine (harmless_findNewZone zone).bind fun zone ↦ ?_
      split_ifs
      · trivial
      · exact harmless_statement trivial fun selected ↦ by cases selected <;> trivial
  | listZones =>
      refine ensures_of_harmless (harmless_discard ?_) state
      exact harmless_statement trivial fun selected ↦ by cases selected <;> trivial
  | findRrset rrset =>
      exact ensures_of_harmless (harmless_discard (harmless_findRrset rrset)) state
  | findLowerBound rrset =>
      exact ensures_of_harmless (harmless_discard (harmless_findLowerBound rrset)) state
  | findRrsets zone =>
      refine ensures_of_harmless (harmless_discard ?_) state
      refine (harmless_requireZone zone).bind fun zone ↦ ?_
      exact harmless_statement trivial fun selected ↦ by cases selected <;> trivial
  | removeRrsetsOfZoneByType zone type =>
      refine ensures_of_harmless ((harmless_requireZone zone).bind fun zone ↦ ?_) state
      exact harmless_statement trivial fun written ↦ by cases written <;> trivial
  | removeRrset rrset =>
      simp only [program, DbMgr.removeRrset]
      split_ifs
      · trivial
      · exact ensures_statement trivial fun written ↦ by cases written <;> trivial
  | clearAllData => exact ensures_statement trivial fun written ↦ by cases written <;> trivial

/-- The database and its chronicle after an operation, whether or not it throws. -/
def step (state : Recorded) (operation : Operation) : Recorded :=
  (operation.program.run (Recorded.handle operation.addressed) state).2

theorem Isolated.owned {operation : Operation} {state : Recorded}
    (h : Isolated state.db operation) (howned : state.Owned) : (step state operation).Owned := by
  have hkeeps := h.ensures.keeps howned fun call state howned hcall ↦ by
    cases call with
    | service request => exact howned
    | sql statement => exact howned.execute hcall
  exact hkeeps.run.2

/-- The state after a run of operations, each of which meets the condition where it is applied. -/
inductive IsolatedRun : Recorded → Prop
  | start : IsolatedRun ⟨Database.empty, Chronicle.start⟩
  | step {state : Recorded} {operation : Operation} (hrun : IsolatedRun state)
      (hisolated : Isolated state.db operation) : IsolatedRun (step state operation)

theorem IsolatedRun.owned {state : Recorded} (h : IsolatedRun state) : state.Owned := by
  induction h with
  | start => exact Recorded.Owned.start
  | step _ hisolated ih => exact hisolated.owned ih

end DbMgr.Operation

/-! ## What the operations on a zone return -/

namespace DbMgr

variable {Keys : Type} {services : Services Keys} {world : World Keys} {zone : Zone}

theorem run_findRrsets_resolved (hid : (resolveZone world.db zone).id ≠ 0) :
    (findRrsets zone).run (World.handle services) world =
      (.ok ((zoneRows world.db (resolveZone world.db zone).id).map
        (restore (resolveZone world.db zone))), world) := by
  simp only [findRrsets, requireZone, Program.run_bind, run_findNewZone, if_neg hid,
    Program.run_pure, run_sql, Sql.execute]
  rfl

/-- A zone object with the id of a zone, or with its name and no id, stands for that zone. -/
theorem resolveZone_id {db : Database} (hvalid : db.Valid) {row : ZoneRow} (hrow : row ∈ db.zones)
    (hzone : zone.id = row.id ∨ zone.id = 0 ∧ zone.name = row.name) :
    (resolveZone db zone).id = row.id := by
  have hpos := hvalid.zoneIds_pos row hrow
  unfold resolveZone
  rcases hzone with hid | ⟨hid, hname⟩
  · rw [if_neg (by omega), hid]
  · rw [if_pos hid]
    have hfound : (lookupZone db zone).id ≠ 0 := fun hnone ↦
      lookupZone_id_eq_zero hvalid hnone row hrow hname.symm
    obtain ⟨found, hmem, hfoundName, heq⟩ := lookupZone_id_eq hfound
    rw [heq, List.inj_on_of_nodup_map hvalid.zoneNames hmem hrow (hfoundName.trans hname)]

/-- In a run that meets the condition, the operations on a zone return what was written for that
zone after its insertion. -/
theorem entries_owned {state : Recorded} (hrun : Operation.IsolatedRun state) {row : ZoneRow}
    (hrow : row ∈ state.db.zones)
    (hzone : zone.id = row.id ∨ zone.id = 0 ∧ zone.name = row.name) (keys : Keys) :
    ∃ entries rrsets,
      (getZoneInfo zone).run (World.handle services) ⟨state.db, keys⟩ =
          (.ok entries, ⟨state.db, keys⟩) ∧
        (findRrsets zone).run (World.handle services) ⟨state.db, keys⟩ =
          (.ok rrsets, ⟨state.db, keys⟩) ∧
        (∀ entry ∈ entries,
          state.chronicle.Owns row (state.chronicle.info (int32 row.id, entry.1))) ∧
        ∀ rrset ∈ rrsets, state.chronicle.Owns row (state.chronicle.record rrset.id) := by
  have howned := hrun.owned
  have hid := resolveZone_id howned.valid hrow hzone
  have hne : (resolveZone state.db zone).id ≠ 0 := by
    rw [hid]
    exact (howned.valid.zoneIds_pos row hrow).ne'
  refine ⟨_, _, run_getZoneInfo hne,
    @run_findRrsets_resolved _ services ⟨state.db, keys⟩ zone hne, fun entry hentry ↦ ?_,
    fun rrset hrrset ↦ ?_⟩
  · obtain ⟨info, hinfo, rfl⟩ := List.mem_map.mp hentry
    obtain ⟨hmem, hzoneId⟩ := List.mem_filter.mp hinfo
    have hzoneId : info.zoneId = int32 row.id := by simpa [hid] using hzoneId
    rw [← hzoneId]
    exact howned.info row hrow info hmem hzoneId
  · obtain ⟨record, hrecord, rfl⟩ := List.mem_map.mp hrrset
    have hmem := (List.perm_insertionSort _ _).mem_iff.mp hrecord
    obtain ⟨hmem, hzoneId⟩ := List.mem_filter.mp hmem
    exact howned.records row hrow record hmem (by simpa [hid] using hzoneId)

section Examples

open LocalServices Operation

def netZone : Zone := ⟨1, [letter 110], 3600⟩

/-- A zone with its signing certificate and a record. -/
def written : Recorded :=
  step (step (step ⟨Database.empty, Chronicle.start⟩ (.insertZone (Zone.named [letter 110])))
    (.setZoneInfo netZone "dsk" Block.invalid))
    (.insertRrset ⟨0, some netZone, [letter 119], Label.txtRrType, Component.fromVersion 1, 3600,
      Block.invalid⟩)

theorem written_isolatedRun : IsolatedRun written := by
  refine .step (.step (.step .start ?_) ?_) ?_
  · intro _ _
    constructor <;> simp [Database.empty]
  · intro row hrow _
    rw [List.mem_singleton.mp hrow]
    rfl
  · intro zone _ hzone
    cases hzone
    refine ⟨fun hid ↦ absurd hid (by decide), fun row hrow _ ↦ ?_⟩
    rw [List.mem_singleton.mp hrow]
    rfl

theorem entries_owned_written : ∃ entries rrsets,
    (getZoneInfo netZone).run (World.handle localServices) ⟨written.db, 0⟩ =
        (.ok entries, ⟨written.db, 0⟩) ∧
      (findRrsets netZone).run (World.handle localServices) ⟨written.db, 0⟩ =
        (.ok rrsets, ⟨written.db, 0⟩) ∧
      (∀ entry ∈ entries, written.chronicle.Owns ⟨1, [letter 110], 3600⟩
        (written.chronicle.info (int32 1, entry.1))) ∧
      ∀ rrset ∈ rrsets, written.chronicle.Owns ⟨1, [letter 110], 3600⟩
        (written.chronicle.record rrset.id) :=
  @entries_owned _ localServices netZone _ written_isolatedRun ⟨1, [letter 110], 3600⟩
    (List.mem_singleton.mpr rfl) (Or.inl rfl) 0

/-- The zone is removed, and another one inserted. -/
def reused : Recorded :=
  step (step written (.removeZone netZone)) (.insertZone (Zone.named [letter 111]))

/-- The new zone is given the id of the removed one, and its certificate. -/
theorem new_zone_inherits : ∃ zone ∈ reused.db.zones, zone.name = [letter 111] ∧
    ∃ entries, (getZoneInfo (Zone.named [letter 111])).run (World.handle localServices)
        ⟨reused.db, 0⟩ = (.ok entries, ⟨reused.db, 0⟩) ∧
      ∃ entry ∈ entries, ¬ reused.chronicle.Owns zone
        (reused.chronicle.info (int32 zone.id, entry.1)) := by
  refine ⟨⟨1, [letter 111], 3600⟩, List.mem_singleton.mpr rfl, rfl, [("dsk", Block.invalid)], rfl,
    _, List.mem_singleton.mpr rfl, ?_⟩
  rintro ⟨-, hlater⟩
  exact absurd hlater (by decide)

/-- A certificate is stored through the object of a zone that was removed before another one was
inserted. -/
def late : Recorded :=
  step (step (step (step ⟨Database.empty, Chronicle.start⟩ (.insertZone (Zone.named [letter 110])))
    (.removeZone netZone)) (.insertZone (Zone.named [letter 111])))
    (.setZoneInfo netZone "dsk" Block.invalid)

/-- The id in the object is that of the new zone by then. -/
theorem new_zone_inherits_late : ∃ zone ∈ late.db.zones, zone.name = [letter 111] ∧
    ∃ entries, (getZoneInfo (Zone.named [letter 111])).run (World.handle localServices)
        ⟨late.db, 0⟩ = (.ok entries, ⟨late.db, 0⟩) ∧
      ∃ entry ∈ entries, ¬ late.chronicle.Owns zone
        (late.chronicle.info (int32 zone.id, entry.1)) := by
  refine ⟨⟨1, [letter 111], 3600⟩, List.mem_singleton.mpr rfl, rfl, [("dsk", Block.invalid)], rfl,
    _, List.mem_singleton.mpr rfl, ?_⟩
  rintro ⟨hname, -⟩
  exact absurd hname (by decide)

end Examples

end DbMgr

end Ndns.Daemon
