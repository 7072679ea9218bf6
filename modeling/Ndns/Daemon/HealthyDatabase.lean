import Ndns.Daemon.Constraints
import Ndns.Daemon.DbMgr

/-!
# The Database Manager on a Healthy Database

Every operation of `DbMgr` has one rule for its run on a healthy database: the pure function of
the tables a lookup computes, and the change a writing operation makes.  Callers use these rules
and never unfold an operation.
-/

namespace Ndns.Daemon

open Ndn Calls

namespace DbMgr

/-- The zone object after a lookup by name. -/
def lookupZone (db : Database) (zone : Zone) : Zone :=
  match db.zones.find? fun row ↦ saveName row.name = saveName zone.name with
  | some row => { zone with id := row.id, ttl := int32 row.ttl }
  | none => { zone with id := 0 }

/-- The zone object an operation on records works with. -/
def resolveZone (db : Database) (zone : Zone) : Zone :=
  if zone.id = 0 then lookupZone db zone else zone

/-- The record object after a lookup in a zone, filled from the first selected row. -/
def pick (rrset : Rrset) (zone : Zone) (row : Option RrsetRow) : Bool × Rrset :=
  if zone.id = 0 then (false, { rrset with zone := some zone })
  else
    match row with
    | some row => (decide (row.id ≠ 0), { rrset.fill row with zone := some zone })
    | none => (false, { rrset with id := 0, zone := some zone })

/-- The row `find` selects. -/
def keyRow (db : Database) (zoneId : ℕ) (label : Name) (type : Component) : Option RrsetRow :=
  (db.selectRrset zoneId label type).head?

/-- The row `findLowerBound` selects. -/
def lowerBoundRow (db : Database) (zoneId : ℕ) (label : Name) (type : Component) :
    Option RrsetRow :=
  (db.selectLowerBound zoneId label type).head?

@[simp]
theorem lookupZone_name (db : Database) (zone : Zone) :
    (lookupZone db zone).name = zone.name := by
  unfold lookupZone
  split <;> rfl

@[simp]
theorem resolveZone_name (db : Database) (zone : Zone) :
    (resolveZone db zone).name = zone.name := by
  unfold resolveZone
  split_ifs <;> simp

variable {Keys : Type} {services : Services Keys} {world world' : World Keys}

theorem run_findZone (zone : Zone) (world : World Keys) :
    (findZone zone).run (World.handle services) world =
      (.ok (lookupZone world.db zone), world) := by
  simp only [findZone, Program.run_bind, run_sql, Sql.execute, List.head?_filter, lookupZone]
  cases world.db.zones.find? fun row ↦ saveName row.name = saveName zone.name <;> rfl

theorem run_findNewZone (zone : Zone) (world : World Keys) :
    (findNewZone zone).run (World.handle services) world =
      (.ok (resolveZone world.db zone), world) := by
  unfold findNewZone resolveZone
  split_ifs with hzone
  · exact run_findZone zone world
  · rfl

theorem run_findWith {select : ℕ → Prog (Selected RrsetRow)} {rows : ℕ → List RrsetRow}
    {rrset : Rrset} {zone : Zone} (hzone : rrset.zone = some zone)
    (hselect : ∀ zoneId, (select zoneId).run (World.handle services) world =
      (.ok (.stepped (rows zoneId) true), world)) :
    (findWith select rrset).run (World.handle services) world =
      (.ok (pick rrset (resolveZone world.db zone)
        (rows (resolveZone world.db zone).id).head?), world) := by
  simp only [findWith, hzone, Program.run_bind, run_findNewZone, pick]
  split_ifs with hid
  · rfl
  · simp only [Program.run_bind, hselect]
    cases (rows (resolveZone world.db zone).id).head? <;> rfl

/-- `find` reads the first row with the key and changes nothing. -/
theorem run_findRrset {rrset : Rrset} {zone : Zone} (hzone : rrset.zone = some zone)
    (world : World Keys) :
    (findRrset rrset).run (World.handle services) world =
      (.ok (pick rrset (resolveZone world.db zone)
        (keyRow world.db (resolveZone world.db zone).id rrset.label rrset.type)), world) := by
  rw [findRrset, run_findWith hzone fun _ ↦ rfl]
  rfl

/-- `findLowerBound` reads the row with the largest label below and changes nothing. -/
theorem run_findLowerBound {rrset : Rrset} {zone : Zone} (hzone : rrset.zone = some zone)
    (world : World Keys) :
    (findLowerBound rrset).run (World.handle services) world =
      (.ok (pick rrset (resolveZone world.db zone)
        (lowerBoundRow world.db (resolveZone world.db zone).id rrset.label rrset.type)),
          world) := by
  rw [findLowerBound, run_findWith hzone fun _ ↦ rfl]
  rfl

/-! ## Lookups in the tables -/

theorem mem_selectRrset {db : Database} {zoneId : ℕ} {label : Name} {type : Component}
    {row : RrsetRow} : row ∈ db.selectRrset zoneId label type ↔
      row ∈ db.rrsets ∧ row.zoneId = zoneId ∧ row.label = label ∧ row.type = type := by
  rw [Database.selectRrset, (List.perm_insertionSort _ _).mem_iff, List.mem_filter,
    RrsetRow.hasKey_iff]

theorem keyRow_eq_some {db : Database} {zoneId : ℕ} {label : Name} {type : Component}
    {row : RrsetRow} (h : keyRow db zoneId label type = some row) :
    row ∈ db.rrsets ∧ row.zoneId = zoneId ∧ row.label = label ∧ row.type = type :=
  mem_selectRrset.mp (List.mem_of_head? h)

theorem keyRow_eq_none {db : Database} {zoneId : ℕ} {label : Name} {type : Component} :
    keyRow db zoneId label type = none ↔
      ∀ row ∈ db.rrsets, ¬ (row.zoneId = zoneId ∧ row.label = label ∧ row.type = type) := by
  rw [keyRow, List.head?_eq_none_iff, List.eq_nil_iff_forall_not_mem]
  simp only [mem_selectRrset, not_and]

/-- The row that is found is the first of its key in the index. -/
theorem keyRow_le {db : Database} {zoneId : ℕ} {label : Name} {type : Component}
    {row other : RrsetRow} (h : keyRow db zoneId label type = some row) (hother : other ∈ db.rrsets)
    (hkey : other.zoneId = zoneId ∧ other.label = label ∧ other.type = type) :
    row.indexColumns ≤ other.indexColumns := by
  have hsorted : (db.selectRrset zoneId label type).Pairwise fun left right ↦
      left.indexColumns ≤ right.indexColumns := List.pairwise_insertionSort _ _
  have hmem : other ∈ db.selectRrset zoneId label type := mem_selectRrset.mpr ⟨hother, hkey⟩
  unfold keyRow at h
  generalize db.selectRrset zoneId label type = sorted at h hsorted hmem
  cases sorted with
  | nil => cases h
  | cons head rest =>
      cases h
      rcases List.mem_cons.mp hmem with rfl | hrest
      · exact le_rfl
      · exact List.rel_of_pairwise_cons hsorted hrest

/-- The row with the least version of a key is the one that is found. -/
theorem keyRow_of_least {db : Database} {zoneId : ℕ} {label : Name} {type : Component}
    {row : RrsetRow} (hrow : row ∈ db.rrsets)
    (hkey : row.zoneId = zoneId ∧ row.label = label ∧ row.type = type)
    (hleast : ∀ other ∈ db.rrsets,
      other.zoneId = zoneId ∧ other.label = label ∧ other.type = type →
        other = row ∨ row.version.encode < other.version.encode) :
    keyRow db zoneId label type = some row := by
  cases hfound : keyRow db zoneId label type with
  | none => exact absurd hkey (keyRow_eq_none.mp hfound row hrow)
  | some found =>
      obtain ⟨hmem, hfoundKey⟩ := keyRow_eq_some hfound
      rcases hleast found hmem hfoundKey with rfl | hlt
      · rfl
      · have hbefore := (RrsetRow.indexColumns_lt_iff (hkey.2.1.trans hfoundKey.2.1.symm)
          (hkey.2.2.trans hfoundKey.2.2.symm)).mpr hlt
        exact absurd (keyRow_le hfound hrow hkey) hbefore.not_ge

/-- The only row of a key is the one that is found. -/
theorem keyRow_of_unique {db : Database} {zoneId : ℕ} {label : Name} {type : Component}
    {row : RrsetRow} (hrow : row ∈ db.rrsets)
    (hkey : row.zoneId = zoneId ∧ row.label = label ∧ row.type = type)
    (hunique : ∀ other ∈ db.rrsets,
      other.zoneId = zoneId ∧ other.label = label ∧ other.type = type → other = row) :
    keyRow db zoneId label type = some row :=
  keyRow_of_least hrow hkey fun other hother hsame ↦ Or.inl (hunique other hother hsame)

theorem lowerBoundRow_eq_some {db : Database} {zoneId : ℕ} {label : Name} {type : Component}
    {row : RrsetRow} (h : lowerBoundRow db zoneId label type = some row) :
    (row ∈ db.rrsets ∧ row.zoneId = zoneId ∧ row.label < label ∧ row.type = type) ∧
      ∀ other ∈ db.rrsets, other.zoneId = zoneId → other.label < label → other.type = type →
        other.label ≤ row.label := by
  have hmem : ∀ other, other ∈ db.selectLowerBound zoneId label type ↔ other ∈ db.rrsets ∧
      other.zoneId = zoneId ∧ other.label < label ∧ other.type = type := by
    intro other
    rw [Database.selectLowerBound, (List.perm_insertionSort _ _).mem_iff, List.mem_filter,
      RrsetRow.isBelow_iff]
  have hsorted : (db.selectLowerBound zoneId label type).Pairwise fun left right ↦
      right.indexColumns ≤ left.indexColumns := List.pairwise_insertionSort _ _
  unfold lowerBoundRow at h
  generalize db.selectLowerBound zoneId label type = sorted at h hmem hsorted
  cases sorted with
  | nil => cases h
  | cons head rest =>
      cases h
      refine ⟨(hmem row).mp List.mem_cons_self, ?_⟩
      intro other hother hzone hbelow htype
      have hin := (hmem other).mpr ⟨hother, hzone, hbelow, htype⟩
      rcases List.mem_cons.mp hin with rfl | hrest
      · exact le_refl _
      · have hle := RrsetRow.saveName_le_of_indexColumns_le (List.rel_of_pairwise_cons hsorted hrest)
        rwa [← not_lt, saveName_lt_iff, not_lt] at hle

theorem lowerBoundRow_eq_none {db : Database} {zoneId : ℕ} {label : Name} {type : Component} :
    lowerBoundRow db zoneId label type = none ↔
      ∀ row ∈ db.rrsets, ¬ (row.zoneId = zoneId ∧ row.label < label ∧ row.type = type) := by
  rw [lowerBoundRow, Database.selectLowerBound, List.head?_eq_none_iff, ← List.length_eq_zero_iff,
    List.length_insertionSort, List.length_eq_zero_iff]
  simp [List.filter_eq_nil_iff]

/-- A lookup depends on the zones table and on the name. -/
theorem lookupZone_id_congr {db db' : Database} {zone zone' : Zone} (hzones : db.zones = db'.zones)
    (hname : zone.name = zone'.name) : (lookupZone db zone).id = (lookupZone db' zone').id := by
  unfold lookupZone
  rw [hzones, hname]
  split <;> rfl

theorem lookupZone_id_eq {db : Database} {zone : Zone} (h : (lookupZone db zone).id ≠ 0) :
    ∃ row ∈ db.zones, row.name = zone.name ∧
      lookupZone db zone = { zone with id := row.id, ttl := int32 row.ttl } := by
  unfold lookupZone at h ⊢
  cases hrow : db.zones.find? fun row ↦ saveName row.name = saveName zone.name with
  | none =>
      simp only [hrow] at h
      exact absurd rfl h
  | some row =>
      have hname := List.find?_some hrow
      exact ⟨row, List.mem_of_find?_eq_some hrow, by simpa using hname, rfl⟩

theorem lookupZone_id_eq_zero {db : Database} (hvalid : db.Valid) {zone : Zone}
    (h : (lookupZone db zone).id = 0) : ∀ row ∈ db.zones, row.name ≠ zone.name := by
  intro row hrow hname
  unfold lookupZone at h
  cases hfind : db.zones.find? fun row ↦ saveName row.name = saveName zone.name with
  | none =>
      have hnone := List.find?_eq_none.mp hfind row hrow
      simp [hname] at hnone
  | some found =>
      simp only [hfind] at h
      exact absurd h (hvalid.zoneIds_pos found (List.mem_of_find?_eq_some hfind)).ne'

/-! ## Writing -/

theorem run_insertRrset {rrset : Rrset} {zone : Zone} (hid : rrset.id = 0)
    (hzone : rrset.zone = some zone) (hpos : 0 < zone.id) (world : World Keys) :
    (insertRrset rrset).run (World.handle services) world =
      if world.db.rrsets.any fun row ↦
          row.sameIndex zone.id rrset.label rrset.type rrset.version then
        (.error .dbMgrExecuteError, world)
      else
        (.ok { rrset with id := nextRowId (world.db.rrsets.map RrsetRow.id) },
          { world with db := (world.db.insertRrset zone.id rrset.label rrset.type rrset.version
              rrset.ttl rrset.data) }) := by
  rw [insertRrset, if_neg (by simp [hid])]
  simp only [hzone, insertZone, if_pos hpos, Program.run_bind, Program.run_pure, run_sql,
    Sql.execute]
  split_ifs
  · rfl
  · simp only [Program.run_pure, ← hzone]

theorem run_insertZone {zone : Zone} (hid : zone.id = 0) (world : World Keys) :
    (insertZone zone).run (World.handle services) world =
      if world.db.zones.any fun row ↦ saveName row.name = saveName zone.name then
        (.error .dbMgrExecuteError, world)
      else
        (.ok { zone with id := nextRowId (world.db.zones.map ZoneRow.id) },
          { world with db := world.db.insertZone zone.name (int32 zone.ttl) }) := by
  rw [insertZone, if_neg (by simp [hid])]
  simp only [Program.run_bind, run_sql, Sql.execute]
  split_ifs <;> rfl

theorem run_removeRrset {rrset : Rrset} (hid : rrset.id ≠ 0) (world : World Keys) :
    (removeRrset rrset).run (World.handle services) world =
      (.ok (), { world with db := world.db.deleteRrset rrset.id }) := by
  rw [removeRrset, if_neg hid]
  rfl

theorem run_updateRrset {rrset : Rrset} (hid : rrset.id ≠ 0) (hzone : rrset.zone ≠ none)
    (world : World Keys) :
    (updateRrset rrset).run (World.handle services) world =
      (.ok (), { world with db :=
        if world.db.forbidsUpdate rrset.id rrset.version then world.db
        else world.db.updateRrset rrset.id rrset.ttl rrset.version rrset.data }) := by
  rw [updateRrset, if_neg hid, if_neg hzone]
  simp only [Program.run_bind, run_sql, Sql.execute]
  split_ifs <;> rfl

theorem run_requireZone {zone : Zone} (hid : zone.id ≠ 0) (world : World Keys) :
    (requireZone zone).run (World.handle services) world = (.ok zone, world) := by
  rw [requireZone, findNewZone, if_neg hid]
  simp only [Program.run_bind, Program.run_pure, if_neg hid]

/-- The rows of a zone in the order `findRrsets` selects them. -/
def zoneRows (db : Database) (zoneId : ℕ) : List RrsetRow :=
  db.selectRrsets zoneId

theorem run_findRrsets {zone : Zone} (hid : zone.id ≠ 0) (world : World Keys) :
    (findRrsets zone).run (World.handle services) world =
      (.ok ((zoneRows world.db zone.id).map (restore zone)), world) := by
  simp only [findRrsets, Program.run_bind, run_requireZone hid, run_sql, Sql.execute]
  rfl

theorem run_removeRrsetsOfZoneByType {zone : Zone} (hid : zone.id ≠ 0) (type : Component)
    (world : World Keys) :
    (removeRrsetsOfZoneByType zone type).run (World.handle services) world =
      (.ok (), { world with db := world.db.deleteRrsetsByType zone.id type }) := by
  simp only [removeRrsetsOfZoneByType, Program.run_bind, run_requireZone hid, run_sql, Sql.execute]
  rfl

theorem run_setZoneInfo {zone : Zone} (hid : zone.id ≠ 0) {key : String} (hkey : key.utf8ByteSize ≤ 10)
    (value : Block) (world : World Keys) :
    (setZoneInfo zone key value).run (World.handle services) world =
      (.ok (), { world with db := world.db.insertZoneInfo (int32 zone.id) key value }) := by
  rw [setZoneInfo, if_neg hid, if_neg (by omega)]
  rfl

theorem run_getZoneInfo {zone : Zone} {world : World Keys}
    (hid : (resolveZone world.db zone).id ≠ 0) :
    (getZoneInfo zone).run (World.handle services) world =
      (.ok ((world.db.zoneInfo.filter fun row ↦
        row.zoneId = int32 (resolveZone world.db zone).id).map fun row ↦ (row.key, row.value)),
          world) := by
  simp only [getZoneInfo, Program.run_bind, run_findNewZone, if_neg hid, run_sql, Sql.execute]
  rfl

end DbMgr

/-! ## Whole programs -/

/-- Every program keeps the constraints of the schema. -/
theorem Database.Valid.run {Keys Value : Type} {services : Services Keys} {world : World Keys}
    (h : world.db.Valid) (program : Prog Value) :
    (program.run (World.handle services) world).2.db.Valid := by
  induction program generalizing world with
  | done value => exact h
  | raise fault => exact h
  | call request next ih =>
      refine ih _ ?_
      cases request with
      | sql statement => exact statement.execute_valid h
      | service request => exact h

theorem valid_of_returns {Keys Value : Type} {services : Services Keys} {program : Prog Value}
    {world world' : World Keys} {value : Value} (hvalid : world.db.Valid)
    (h : program.Returns (World.handle services) world value world') : world'.db.Valid := by
  have hrun := @Database.Valid.run _ _ services _ hvalid program
  rwa [h] at hrun

/-- A call that leaves the database alone and reads zones at most. -/
def Call.Reads : Call → Prop
  | .service _ => True
  | .sql (.selectZone _) => True
  | .sql _ => False

theorem Call.Reads.handle_db {Keys : Type} {services : Services Keys} {call : Call}
    (h : call.Reads) (world : World Keys) :
    (World.handle services call world).2.db = world.db := by
  cases call with
  | service request => rfl
  | sql statement => cases statement <;> first | rfl | exact h.elim

/-- A program that makes reading calls only leaves the database alone. -/
theorem db_of_reads {Keys Value : Type} {services : Services Keys} {program : Prog Value}
    (h : program.CallsOnly Call.Reads) (world : World Keys) :
    (program.run (World.handle services) world).2.db = world.db :=
  @Program.CallsOnly.run_rel _ _ _ _ _ (World.handle services) _
    (fun before after : World Keys ↦ after.db = before.db) (fun _ ↦ rfl)
    (fun hfirst hsecond ↦ hsecond.trans hfirst) (fun _ world hcall ↦ hcall.handle_db world) _ h
    world

theorem db_of_returns {Keys Value : Type} {services : Services Keys} {program : Prog Value}
    (h : program.CallsOnly Call.Reads) {world world' : World Keys} {value : Value}
    (hreturns : program.Returns (World.handle services) world value world') :
    world'.db = world.db := by
  rw [← db_of_reads h world, hreturns]

end Ndns.Daemon
