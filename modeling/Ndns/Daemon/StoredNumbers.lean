import Ndns.Daemon.HealthyDatabase
import Ndns.Daemon.LocalServices

/-!
# Numbers in the Tables

The record functions bind and read all numbers with the 64-bit calls.  The zone functions use the
32-bit calls for the time to live, and the functions on zone information for the id of the zone, so
these numbers come back as they were exactly up to the largest signed number of 32 bits.
-/

namespace Ndns.Daemon

open Ndn Calls DbMgr Database

theorem int32_eq_self_iff {value : ℤ} (h : 0 ≤ value) : int32 value = value ↔ value < 2 ^ 31 := by
  rw [int32, Int.bmod_def]
  split <;> omega

theorem int32_int32 (value : ℤ) : int32 (int32 value) = int32 value := Int.bmod_bmod

variable {Keys : Type} {services : Services Keys} {world : World Keys} {zone : Zone} {rrset : Rrset}

/-! ## Zones -/

/-- A new zone is inserted, and both ways to read it back give the id and the time to live it was
inserted with. -/
def ZoneSurvives (services : Services Keys) (world : World Keys) (zone : Zone) : Prop :=
  ∃ inserted world', (insertZone zone).Returns (World.handle services) world inserted world' ∧
    inserted.id = nextRowId (world.db.zones.map ZoneRow.id) ∧
    (∀ ttl, (findZone (Zone.make zone.name ttl)).Returns (World.handle services) world'
      ⟨inserted.id, zone.name, zone.ttl⟩ world') ∧
    ∃ zones, listZones.Returns (World.handle services) world' zones world' ∧
      ⟨inserted.id, zone.name, zone.ttl⟩ ∈ zones

/-- What the lookup of a zone that was just inserted finds. -/
theorem lookupZone_inserted {name : Name} (habsent : ∀ row ∈ world.db.zones, row.name ≠ name)
    (ttl stored : ℤ) : lookupZone (world.db.insertZone name stored) (Zone.make name ttl) =
      ⟨nextRowId (world.db.zones.map ZoneRow.id), name, int32 stored⟩ := by
  have hnone : world.db.zones.find? (fun row ↦ row.name = name) = none := by
    simpa [List.find?_eq_none] using habsent
  simp [lookupZone, Database.insertZone, Zone.make, List.find?_append, hnone]

theorem run_listZones (world : World Keys) : listZones.run (World.handle services) world =
    (.ok (world.db.zones.map fun row ↦ ⟨row.id, row.name, int32 row.ttl⟩), world) := rfl

theorem zoneSurvives_iff (hnew : zone.id = 0)
    (habsent : ∀ row ∈ world.db.zones, row.name ≠ zone.name) (httl : 0 ≤ zone.ttl) :
    ZoneSurvives services world zone ↔ zone.ttl < 2 ^ 31 := by
  have hany : (world.db.zones.any fun row ↦ saveName row.name = saveName zone.name) = false := by
    simpa using habsent
  have hinsert := @run_insertZone _ services _ hnew world
  rw [hany, if_neg Bool.false_ne_true] at hinsert
  have hfind : ∀ ttl, (findZone (Zone.make zone.name ttl)).run (World.handle services)
      { world with db := world.db.insertZone zone.name (int32 zone.ttl) } =
        (.ok ⟨nextRowId (world.db.zones.map ZoneRow.id), zone.name, int32 zone.ttl⟩,
          { world with db := world.db.insertZone zone.name (int32 zone.ttl) }) := by
    intro ttl
    rw [run_findZone, lookupZone_inserted habsent, int32_int32]
  constructor
  · rintro ⟨inserted, world', hreturns, -, hfound, -⟩
    cases hinsert.symm.trans hreturns
    have hsame := (hfind 0).symm.trans (hfound 0)
    simp only [Prod.mk.injEq, Except.ok.injEq, Zone.mk.injEq, true_and, and_true] at hsame
    exact (int32_eq_self_iff httl).mp hsame
  · intro hsmall
    have hsame := (int32_eq_self_iff httl).mpr hsmall
    rw [hsame] at hinsert hfind
    refine ⟨_, _, hinsert, rfl, hfind, _, run_listZones _, ?_⟩
    refine List.mem_map.mpr ⟨_, List.mem_append_right _ List.mem_cons_self, ?_⟩
    rw [hsame]

/-! ## Information about zones -/

/-- The two functions on zone information write and read the rows with the id of the zone, and no
others. -/
structure InfoOfZone (services : Services Keys) (zone : Zone) : Prop where
  writes : ∀ world : World Keys, ∀ key value, key.utf8ByteSize ≤ 10 →
    ∃ world', (setZoneInfo zone key value).Returns (World.handle services) world () world' ∧
      ⟨zone.id, key, value⟩ ∈ world'.db.zoneInfo ∧
      ∀ row : ZoneInfoRow, row.zoneId ≠ zone.id →
        (row ∈ world'.db.zoneInfo ↔ row ∈ world.db.zoneInfo)
  reads : ∀ world : World Keys, (getZoneInfo zone).Returns (World.handle services) world
    ((world.db.zoneInfo.filter fun row ↦ row.zoneId = (zone.id : ℤ)).map fun row ↦ (row.key, row.value))
    world

theorem infoOfZone_iff [Nonempty Keys] (hid : zone.id ≠ 0) :
    InfoOfZone services zone ↔ zone.id < 2 ^ 31 := by
  have hcast : (0 : ℤ) ≤ zone.id := Int.natCast_nonneg _
  constructor
  · rintro ⟨hwrites, -⟩
    obtain ⟨keys⟩ := ‹Nonempty Keys›
    obtain ⟨world', hset, hmem, -⟩ := hwrites ⟨Database.empty, keys⟩ "" Block.invalid (by decide)
    rw [Program.Returns, run_setZoneInfo hid (by decide)] at hset
    have hworld := (congrArg Prod.snd hset).symm
    simp only at hworld
    rw [hworld] at hmem
    have hrow : (⟨zone.id, "", Block.invalid⟩ : ZoneInfoRow) = ⟨int32 zone.id, "", Block.invalid⟩ :=
      List.mem_singleton.mp hmem
    obtain ⟨hsame, -⟩ := ZoneInfoRow.mk.inj hrow
    have hsmall := (int32_eq_self_iff hcast).mp hsame.symm
    omega
  · intro hsmall
    have hsame : int32 zone.id = zone.id := (int32_eq_self_iff hcast).mpr (by omega)
    constructor
    · intro world key value hkey
      refine ⟨_, run_setZoneInfo hid hkey value world, ?_, fun row hrow ↦ ?_⟩
      · rw [hsame]
        exact List.mem_append_right _ List.mem_cons_self
      · rw [hsame]
        simp only [Database.insertZoneInfo, List.mem_append, List.mem_filter, List.mem_singleton]
        constructor
        · rintro (⟨hold, -⟩ | rfl)
          · exact hold
          · exact absurd rfl hrow
        · intro hold
          exact Or.inl ⟨hold, by simp [hrow]⟩
    · intro world
      have hresolve : resolveZone world.db zone = zone := if_neg hid
      have hrun := @run_getZoneInfo _ services zone world (by rwa [hresolve])
      rwa [hresolve, hsame] at hrun

/-! ## Records -/

/-- The lookup of a record gives the id and the time to live. -/
def FindsRecord (services : Services Keys) (world : World Keys) (zone : Zone) (label : Name)
    (type : Component) (id : ℕ) (ttl : ℤ) : Prop :=
  ∃ found, (findRrset (Rrset.keyed zone label type)).Returns (World.handle services) world
    (true, found) world ∧ found.id = id ∧ found.ttl = ttl

/-- Among the records of the zone is one with the id and the time to live. -/
def ListsRecord (services : Services Keys) (world : World Keys) (zone : Zone) (label : Name)
    (type : Component) (id : ℕ) (ttl : ℤ) : Prop :=
  ∃ rrsets, (findRrsets zone).Returns (World.handle services) world rrsets world ∧
    ∃ found ∈ rrsets, found.label = label ∧ found.type = type ∧ found.id = id ∧ found.ttl = ttl

theorem findsRecord_of_keyRow {label : Name} {type : Component} {row : RrsetRow}
    (hid : zone.id ≠ 0) (hpos : row.id ≠ 0) (hrow : keyRow world.db zone.id label type = some row) :
    FindsRecord services world zone label type row.id row.ttl := by
  have hresolve : resolveZone world.db zone = zone := if_neg hid
  have hfind := @run_findRrset _ services (Rrset.keyed zone label type) zone rfl world
  have hkey : keyRow world.db zone.id (Rrset.keyed zone label type).label
      (Rrset.keyed zone label type).type = some row := hrow
  rw [hresolve, hkey, pick, if_neg hid] at hfind
  simp only [hpos, ne_eq, not_false_eq_true, decide_true] at hfind
  exact ⟨_, hfind, rfl, rfl⟩

theorem listsRecord_of_mem {row : RrsetRow} (hid : zone.id ≠ 0) (hmem : row ∈ world.db.rrsets)
    (hzone : row.zoneId = zone.id) :
    ListsRecord services world zone row.label row.type row.id row.ttl := by
  refine ⟨_, run_findRrsets hid world, restore zone row, List.mem_map.mpr ⟨row, ?_, rfl⟩, rfl, rfl,
    rfl, rfl⟩
  apply (List.perm_insertionSort _ _).mem_iff.mpr
  simp [hmem, hzone]

/-- A version comes before all other ones that are stored under a key; the rows with the given id do
not count. -/
def Leads (db : Database) (zoneId : ℕ) (label : Name) (type version : Component) (id : ℕ) : Prop :=
  ∀ row ∈ db.rrsets, row.zoneId = zoneId ∧ row.label = label ∧ row.type = type → row.id ≠ id →
    version.encode < row.version.encode

/-- A record that is inserted, and a record that is updated, can be read with the numbers that were
written: by the listing of the zone always, and by the lookup when its version is the first one of
its key in the index. -/
structure RecordsSurvive (services : Services Keys) (world : World Keys) (zone : Zone) : Prop where
  inserted : ∀ rrset : Rrset, rrset.id = 0 → rrset.zone = some zone →
    (∀ row ∈ world.db.rrsets, row.indexKey ≠ (zone.id, rrset.label, rrset.type, rrset.version)) →
      ∃ inserted world', (insertRrset rrset).Returns (World.handle services) world inserted world' ∧
        inserted.id = nextRowId (world.db.rrsets.map RrsetRow.id) ∧
        ListsRecord services world' zone rrset.label rrset.type inserted.id rrset.ttl ∧
        (Leads world.db zone.id rrset.label rrset.type rrset.version 0 →
          FindsRecord services world' zone rrset.label rrset.type inserted.id rrset.ttl)
  updated : ∀ (rrset : Rrset), ∀ row ∈ world.db.rrsets,
    row.zoneId = zone.id ∧ row.label = rrset.label ∧ row.type = rrset.type →
    rrset.id = row.id → rrset.zone = some zone →
    world.db.forbidsUpdate rrset.id rrset.version = false →
      ∃ world', (updateRrset rrset).Returns (World.handle services) world () world' ∧
        ListsRecord services world' zone rrset.label rrset.type rrset.id rrset.ttl ∧
        (Leads world.db zone.id rrset.label rrset.type rrset.version rrset.id →
          FindsRecord services world' zone rrset.label rrset.type rrset.id rrset.ttl)

/-- The row under a key after the insertion of its first version. -/
theorem keyRow_insertRrset {db : Database} {zoneId : ℕ} {label : Name} {type version : Component}
    (hvalid : db.Valid) (hleads : Leads db zoneId label type version 0) (ttl : ℤ) (data : Block) :
    keyRow (db.insertRrset zoneId label type version ttl data) zoneId label type =
      some ⟨nextRowId (db.rrsets.map RrsetRow.id), zoneId, label, type, version, ttl, data⟩ := by
  refine keyRow_of_least (List.mem_append_right _ List.mem_cons_self) ⟨rfl, rfl, rfl⟩ ?_
  intro other hother hkey
  rcases List.mem_append.mp hother with hold | hnew
  · exact Or.inr (hleads other hold hkey (hvalid.ids_pos other hold).ne')
  · exact Or.inl (List.mem_singleton.mp hnew)

/-- The row under a key after it was updated to the first version. -/
theorem keyRow_updateRrset {db : Database} {zoneId : ℕ} {label : Name} {type version : Component}
    {row : RrsetRow} (hvalid : db.Valid) (hrow : row ∈ db.rrsets)
    (hkey : row.zoneId = zoneId ∧ row.label = label ∧ row.type = type)
    (hleads : Leads db zoneId label type version row.id) (ttl : ℤ) (data : Block) :
    keyRow (db.updateRrset row.id ttl version data) zoneId label type =
      some (row.overwrite ttl version data) := by
  refine keyRow_of_least (List.mem_map.mpr ⟨row, hrow, if_pos rfl⟩) hkey ?_
  intro other hother hsame
  obtain ⟨old, hold, rfl⟩ := List.mem_map.mp hother
  by_cases hid : old.id = row.id
  · obtain rfl := List.inj_on_of_nodup_map hvalid.ids hold hrow hid
    exact Or.inl (if_pos rfl)
  · rw [if_neg hid] at hsame ⊢
    exact Or.inr (hleads old hold hsame hid)

theorem recordsSurvive (hvalid : world.db.Valid) (hid : zone.id ≠ 0) :
    RecordsSurvive services world zone := by
  constructor
  · intro rrset hnew hzone hfree
    have hany : (world.db.rrsets.any fun row ↦
        row.sameIndex zone.id rrset.label rrset.type rrset.version) = false := by
      simp only [List.any_eq_false, RrsetRow.sameIndex_iff]
      rintro row hrow ⟨hrowZone, hlabel, htype, hversion⟩
      exact hfree row hrow (by rw [RrsetRow.indexKey, hrowZone, hlabel, htype, hversion])
    have hinsert := @run_insertRrset _ services rrset zone hnew hzone (Nat.pos_of_ne_zero hid) world
    rw [hany, if_neg Bool.false_ne_true] at hinsert
    have hlists := @listsRecord_of_mem _ services { world with db := (world.db.insertRrset zone.id
      rrset.label rrset.type rrset.version rrset.ttl rrset.data) } zone _ hid
      (List.mem_append_right _ List.mem_cons_self) rfl
    refine ⟨_, _, hinsert, rfl, hlists, fun hleads ↦ ?_⟩
    have hkey := keyRow_insertRrset hvalid hleads rrset.ttl rrset.data
    exact @findsRecord_of_keyRow _ services { world with db := (world.db.insertRrset zone.id
      rrset.label rrset.type rrset.version rrset.ttl rrset.data) } zone _ _ _ hid
      (nextRowId_pos _).ne' hkey
  · rintro rrset row hrow ⟨hrowZone, hlabel, htype⟩ hsame hzone hallowed
    have hpos : row.id ≠ 0 := (hvalid.ids_pos row hrow).ne'
    have hupdate := @run_updateRrset _ services rrset (hsame ▸ hpos) (by simp [hzone]) world
    rw [hallowed, if_neg Bool.false_ne_true, hsame] at hupdate
    rw [hsame, ← hlabel, ← htype]
    have hlists := @listsRecord_of_mem _ services { world with db := (world.db.updateRrset row.id
      rrset.ttl rrset.version rrset.data) } zone (row.overwrite rrset.ttl rrset.version rrset.data)
      hid (List.mem_map.mpr ⟨row, hrow, if_pos rfl⟩) hrowZone
    refine ⟨_, hupdate, hlists, fun hleads ↦ ?_⟩
    have hkey := keyRow_updateRrset hvalid hrow ⟨hrowZone, rfl, rfl⟩ hleads rrset.ttl rrset.data
    exact @findsRecord_of_keyRow _ services { world with db := (world.db.updateRrset row.id
      rrset.ttl rrset.version rrset.data) } zone _ _
      (row.overwrite rrset.ttl rrset.version rrset.data) hid hpos hkey

/-! ## All numbers -/

/-- The numbers of records are kept.  Those of a zone are kept, whatever the tables hold, exactly
when the time to live is a signed number of 32 bits, and its information is its own exactly when its
id is one. -/
theorem numbers_survive_iff (hvalid : world.db.Valid) [Nonempty Keys] :
    (∀ zone : Zone, zone.id = 0 → (∀ row ∈ world.db.zones, row.name ≠ zone.name) → 0 ≤ zone.ttl →
      (ZoneSurvives services world zone ↔ zone.ttl < 2 ^ 31)) ∧
    ∀ zone : Zone, zone.id ≠ 0 → RecordsSurvive services world zone ∧
      (InfoOfZone services zone ↔ zone.id < 2 ^ 31) :=
  ⟨fun _ hnew habsent httl ↦ zoneSurvives_iff hnew habsent httl,
    fun _ hid ↦ ⟨recordsSurvive hvalid hid, infoOfZone_iff hid⟩⟩

section Examples

open LocalServices

theorem numbers_survive_hour :
    ZoneSurvives localServices ⟨Database.empty, 0⟩ (Zone.make [letter 110] 3600) ∧
      InfoOfZone localServices ⟨1, [letter 110], 3600⟩ := by
  have hnumbers := @numbers_survive_iff _ localServices ⟨Database.empty, 0⟩ Database.valid_empty _
  exact ⟨(hnumbers.1 (Zone.make [letter 110] 3600) rfl nofun (by decide)).mpr (by decide),
    (hnumbers.2 ⟨1, [letter 110], 3600⟩ (by decide)).2.mpr (by decide)⟩

/-- A time to live of 2^31 seconds is read back as a negative number, and the information of a zone
with id 2^32 + 1 is that of the zone with id 1. -/
theorem numbers_truncated :
    ((insertZone (Zone.make [letter 110] (2 ^ 31)) >>= fun zone ↦ findZone zone).run
        (World.handle localServices) ⟨Database.empty, 0⟩).1 = .ok ⟨1, [letter 110], -2 ^ 31⟩ ∧
      ((setZoneInfo ⟨2 ^ 32 + 1, [letter 110], 3600⟩ "ksk" Block.invalid >>= fun _ ↦
          getZoneInfo ⟨1, [], 3600⟩).run (World.handle localServices) ⟨Database.empty, 0⟩).1 =
        .ok [("ksk", Block.invalid)] :=
  ⟨by decide +kernel, by decide +kernel⟩

end Examples

end Ndns.Daemon
