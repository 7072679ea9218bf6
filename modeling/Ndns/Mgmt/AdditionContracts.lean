import Ndns.Mgmt.OperationContracts
import Ndns.Mgmt.DenialFreshness

/-!
# Contracts of Additions and Removals

One rule for each operation, about runs that may end in an exception.  A caller says which changes
are allowed and proves that the changes of the operation are; the rule supplies what the operation
has found out by the time it makes them.
-/

namespace Ndns.Daemon.DbMgr

open Ndn Calls

/-- A zone object that was looked up is not changed by another lookup. -/
theorem resolveZone_resolveZone (db : Database) (zone : Zone) :
    resolveZone db (resolveZone db zone) = resolveZone db zone := by
  by_cases hid : (resolveZone db zone).id = 0
  · have hzero : zone.id = 0 := by
      by_contra hne
      rw [resolveZone, if_neg hne] at hid
      exact hne hid
    rw [resolveZone, if_pos hid]
    rw [resolveZone, if_pos hzero] at hid ⊢
    unfold lookupZone at hid ⊢
    cases hrow : db.zones.find? fun row ↦ saveName row.name = saveName zone.name with
    | none => simp only [hrow]
    | some row => simp only [hrow]
  · exact if_neg hid

/-- The id of the zone a record goes to, and the tables the record is added to: those at hand, or
the ones with the zone as a new one. -/
def Enters (db : Database) (name : Name) (zoneId : ℕ) (db' : Database) : Prop :=
  (zoneId ≠ 0 ∧ db' = db) ∨
    ((∀ row ∈ db.zones, row.name ≠ name) ∧ zoneId = nextRowId (db.zones.map ZoneRow.id) ∧
      ∃ ttl, db' = db.insertZone name ttl)

theorem Opens.enters {db db' : Database} {zone stored : Zone} (h : Opens db zone stored db') :
    Enters db zone.name stored.id db' := by
  rcases h with ⟨hid, rfl, rfl⟩ | ⟨-, habsent, rfl, rfl⟩
  · exact Or.inl ⟨hid, rfl⟩
  · exact Or.inr ⟨habsent, rfl, _, rfl⟩

theorem Enters.rrsets {db db' : Database} {name : Name} {zoneId : ℕ}
    (h : Enters db name zoneId db') : db'.rrsets = db.rrsets := by
  rcases h with ⟨-, rfl⟩ | ⟨-, -, _, rfl⟩ <;> rfl

/-- No row refers to the id a zone with this name would get. -/
def Vacant (db : Database) (name : Name) : Prop :=
  (∀ row ∈ db.zones, row.name ≠ name) →
    ∀ row ∈ db.rrsets, row.zoneId ≠ nextRowId (db.zones.map ZoneRow.id)

/-- The tables without the row that a new version of a record replaces. -/
inductive Cleared (db : Database) (zoneId : ℕ) (rrset : Rrset) : Database → Prop
  | absent (hrow : zoneId ≠ 0 → keyRow db zoneId rrset.label rrset.type = none) :
      Cleared db zoneId rrset db
  | older {row : RrsetRow} (hid : zoneId ≠ 0)
      (hrow : keyRow db zoneId rrset.label rrset.type = some row)
      (hversion : row.version < rrset.version) : Cleared db zoneId rrset (db.deleteRrset row.id)

variable {db cleared : Database} {zoneId : ℕ} {rrset : Rrset}

theorem Cleared.zones (h : Cleared db zoneId rrset cleared) : cleared.zones = db.zones := by
  cases h <;> rfl

theorem Cleared.sublist (h : Cleared db zoneId rrset cleared) :
    cleared.rrsets.Sublist db.rrsets := by
  cases h with
  | absent _ => exact List.Sublist.refl _
  | older _ _ _ => exact List.filter_sublist

theorem Cleared.valid (h : Cleared db zoneId rrset cleared) (hvalid : db.Valid) : cleared.Valid := by
  cases h with
  | absent _ => exact hvalid
  | older _ _ _ => exact hvalid.filterRrsets _

/-- When each key has one row, the key of the record has none afterwards. -/
theorem Cleared.absent_key (h : Cleared db zoneId rrset cleared) (hsingle : db.SingleVersion)
    (hid : zoneId ≠ 0) : ∀ row ∈ cleared.rrsets, row.key ≠ (zoneId, rrset.label, rrset.type) := by
  cases h with
  | absent hrow =>
      rw [keyRow_eq_none] at hrow
      intro row hmem hkey
      exact hrow hid row hmem (by simpa [RrsetRow.key] using hkey)
  | older _ hrow _ =>
      intro row hmem hkey
      obtain ⟨hold, hne⟩ := List.mem_filter.mp hmem
      obtain ⟨hfound, hzoneId, hlabel, htype⟩ := keyRow_eq_some hrow
      have hsame := List.inj_on_of_nodup_map hsingle hold hfound
        (hkey.trans (by rw [RrsetRow.key, hzoneId, hlabel, htype]))
      exact of_decide_eq_true hne (congrArg RrsetRow.id hsame)

end Ndns.Daemon.DbMgr

namespace Ndns.Daemon

/-- A lookup does not change which zone an object stands for. -/
theorem Zone.Resolves.resolveZone_id {db : Database} {zone zone' : Zone} (hvalid : db.Valid)
    (h : zone.Resolves db zone') :
    (DbMgr.resolveZone db zone').id = (DbMgr.resolveZone db zone).id := by
  by_cases hid : zone.id = 0
  · by_cases hid' : zone'.id = 0
    · rw [DbMgr.resolveZone, if_pos hid', DbMgr.resolveZone, if_pos hid]
      exact DbMgr.lookupZone_id_congr rfl h.name
    · have hstored : zone'.Stored db := fun _ ↦ h.found hid hid'
      rw [DbMgr.resolveZone, if_neg hid', DbMgr.resolveZone, if_pos hid,
        ← Mgmt.lookupZone_id_of_stored hvalid hstored hid']
      exact DbMgr.lookupZone_id_congr rfl h.name
  · rw [h.known hid]

end Ndns.Daemon

namespace Ndns.Mgmt.ManagementTool

open Ndn Calls Daemon DbMgr

variable {Keys : Type} {services : Services Keys} {Change : Database → Database → Prop}
  {db : Database} {rrset : Rrset} {zone : Zone}

/-! ## The version check -/

/-- No lookup is made for a record without a zone. -/
theorem findRrset_unassigned (h : rrset.zone = none) : DbMgr.findRrset rrset =
    throw (.dbMgrRrsetError "Rrset has not been assigned to a zone") := by
  unfold DbMgr.findRrset DbMgr.findWith
  rw [h]

theorem meets_checkRrsetVersion {post : Except Fault Rrset → Database → Prop} (hvalid : db.Valid)
    (hzone : rrset.zone = some zone)
    (hdelete : ∀ row, (resolveZone db zone).id ≠ 0 →
      keyRow db (resolveZone db zone).id rrset.label rrset.type = some row →
        row.version < rrset.version → Change db (db.deleteRrset row.id))
    (hcleared : ∀ cleared, Cleared db (resolveZone db zone).id rrset cleared →
      post (.ok { rrset with zone := some (resolveZone db zone) }) cleared)
    (hfault : ∀ fault, post (.error fault) db) :
    Meets services Change (checkRrsetVersion rrset) db post := by
  have hfind : ∀ keys, (DbMgr.findRrset rrset).run (World.handle services) ⟨db, keys⟩ =
      (.ok (pick rrset (resolveZone db zone)
        (keyRow db (resolveZone db zone).id rrset.label rrset.type)), ⟨db, keys⟩) :=
    fun keys ↦ run_findRrset hzone ⟨db, keys⟩
  refine meets_known (selects_findRrset rrset) hfind ?_
  rcases pick_cases rrset (resolveZone db zone)
    (keyRow db (resolveZone db zone).id rrset.label rrset.type) with
    ⟨htrue, hid, row, hrow, hrowId, hfilled⟩ | ⟨hfalse, hnone⟩
  · simp only [htrue, if_true, hfilled]
    refine meets_require (fun _ ↦ meets_require (fun hversion ↦ ?_) fun _ ↦ hfault _)
      fun _ ↦ hfault _
    have hremove : Meets services Change
        (DbMgr.removeRrset { rrset.fill row with zone := some (resolveZone db zone) }) db
        fun outcome db' ↦ outcome = .ok () ∧ db' = db.deleteRrset row.id :=
      meets_removeRrset hrowId (hdelete row hid hrow hversion) ⟨rfl, rfl⟩
    refine hremove.bind ?_ ?_
    · rintro _ _ ⟨-, rfl⟩
      exact meets_pure (hcleared _ (.older hid hrow hversion))
    · rintro fault _ ⟨hok, -⟩
      cases hok
  · simp only [hfalse, Bool.false_eq_true, if_false, shareZone_pick]
    refine meets_pure (hcleared db (.absent fun hid ↦ ?_))
    cases hrow : keyRow db (resolveZone db zone).id rrset.label rrset.type with
    | none => rfl
    | some row =>
        exact absurd (hnone hid row hrow) (hvalid.ids_pos row (keyRow_eq_some hrow).1).ne'

/-! ## One zone behind two objects -/

/-- Lookups depend on the zones table only. -/
theorem resolveZone_congr {db' : Database} (h : db'.zones = db.zones) (zone : Zone) :
    resolveZone db' zone = resolveZone db zone := by
  unfold resolveZone lookupZone
  rw [h]

theorem lookupZone_id_eq_zero_of_absent (h : ∀ row ∈ db.zones, row.name ≠ zone.name) :
    (lookupZone db zone).id = 0 := by
  by_contra hne
  obtain ⟨row, hrow, hname, -⟩ := lookupZone_id_eq hne
  exact h row hrow hname

/-- A new zone is found under its name. -/
theorem lookupZone_insertZone (h : ∀ row ∈ db.zones, row.name ≠ zone.name) (ttl : ℤ) :
    (lookupZone (db.insertZone zone.name ttl) zone).id =
      nextRowId (db.zones.map ZoneRow.id) := by
  have hnone : db.zones.find? (fun row ↦ row.name = zone.name) = none := by
    simpa [List.find?_eq_none] using h
  simp [lookupZone, Database.insertZone, List.find?_append, hnone]

/-- Two objects that stand for the same zone. -/
def SameZone (db : Database) (zone zone' : Zone) : Prop :=
  zone.name = zone'.name ∧ (resolveZone db zone).id = (resolveZone db zone').id

theorem SameZone.resolve {zone' : Zone} (h : SameZone db zone zone') :
    SameZone db (resolveZone db zone) zone' := by
  refine ⟨(resolveZone_name db zone).trans h.1, ?_⟩
  rw [resolveZone_resolveZone]
  exact h.2

theorem SameZone.congr {zone' : Zone} {db' : Database} (h : SameZone db zone zone')
    (hzones : db'.zones = db.zones) : SameZone db' zone zone' := by
  rw [SameZone, resolveZone_congr hzones, resolveZone_congr hzones]
  exact h

/-- A record of the second object goes to the zone of the first one. -/
theorem SameZone.opens {zone' stored : Zone} {db' : Database} (h : SameZone db zone zone')
    (hopen : Opens db zone' stored db') :
    ((resolveZone db zone).id ≠ 0 → stored.id = (resolveZone db zone).id ∧ db' = db) ∧
      (zone'.id = 0 → (resolveZone db zone).id = 0) ∧ SameZone db' zone stored := by
  rcases hopen with ⟨hid, rfl, rfl⟩ | ⟨hid, habsent, rfl, rfl⟩
  · have hresolve : (resolveZone db' stored).id = stored.id := by rw [resolveZone, if_neg hid]
    exact ⟨fun _ ↦ ⟨by rw [h.2, hresolve], rfl⟩, fun hzero ↦ absurd hzero hid, h⟩
  · have hzero : (resolveZone db zone).id = 0 := by
      rw [h.2, resolveZone, if_pos hid]
      exact lookupZone_id_eq_zero_of_absent habsent
    have hzone : zone.id = 0 := by
      by_contra hne
      rw [resolveZone, if_neg hne] at hzero
      exact hne hzero
    refine ⟨fun hne ↦ absurd hzero hne, fun _ ↦ hzero, h.1, ?_⟩
    rw [← h.1] at habsent
    rw [resolveZone, if_pos hzone, ← h.1, lookupZone_insertZone habsent, resolveZone,
      if_neg (nextRowId_pos _).ne']

/-- The id of the zone of an object, and the tables with this zone in them. -/
def Houses (db : Database) (zone : Zone) (zoneId : ℕ) (db' : Database) : Prop :=
  ((resolveZone db zone).id ≠ 0 ∧ zoneId = (resolveZone db zone).id ∧ db' = db) ∨
    ((resolveZone db zone).id = 0 ∧ (∀ row ∈ db.zones, row.name ≠ zone.name) ∧
      zoneId = nextRowId (db.zones.map ZoneRow.id) ∧ ∃ ttl, db' = db.insertZone zone.name ttl)

theorem SameZone.houses {zone' stored : Zone} {db' : Database} (h : SameZone db zone zone')
    (hopen : Opens db zone' stored db') :
    Houses db zone stored.id db' ∧ SameZone db' zone stored := by
  obtain ⟨hknown, hzero, hsame⟩ := h.opens hopen
  refine ⟨?_, hsame⟩
  by_cases hid : (resolveZone db zone).id = 0
  · rcases hopen with ⟨hne, rfl, -⟩ | ⟨-, hnames, rfl, rfl⟩
    · rw [h.2, resolveZone, if_neg hne] at hid
      exact absurd hid hne
    · rw [← h.1] at hnames ⊢
      exact Or.inr ⟨hid, hnames, rfl, _, rfl⟩
  · exact Or.inl ⟨hid, hknown hid⟩

theorem Houses.enters {zoneId : ℕ} {db' : Database} (h : Houses db zone zoneId db') :
    Enters db zone.name zoneId db' := by
  rcases h with ⟨hid, rfl, rfl⟩ | ⟨-, hnames, rfl, ttl, rfl⟩
  · exact Or.inl ⟨hid, rfl⟩
  · exact Or.inr ⟨hnames, rfl, ttl, rfl⟩

theorem Houses.known {zoneId : ℕ} {db' : Database} (h : Houses db zone zoneId db')
    (hid : zone.id ≠ 0) : zoneId = zone.id ∧ db' = db := by
  have hresolve : resolveZone db zone = zone := if_neg hid
  rcases h with ⟨-, rfl, rfl⟩ | ⟨hzero, -⟩
  · rw [hresolve]
    exact ⟨rfl, rfl⟩
  · rw [hresolve] at hzero
    exact absurd hzero hid

/-- A zone object without an id is that of a zone in the tables afterwards. -/
theorem Houses.listed {zoneId : ℕ} {db' : Database} (h : Houses db zone zoneId db')
    (hid : zone.id = 0) : ∃ row ∈ db'.zones, row.name = zone.name := by
  rcases h with ⟨hne, -, rfl⟩ | ⟨-, -, -, ttl, rfl⟩
  · rw [resolveZone, if_pos hid] at hne
    obtain ⟨row, hrow, hname, -⟩ := lookupZone_id_eq hne
    exact ⟨row, hrow, hname⟩
  · exact ⟨_, List.mem_append_right _ List.mem_cons_self, rfl⟩

/-- An object of the zone that may have been looked up in between. -/
structure Tracks (db : Database) (zone zone' : Zone) : Prop where
  same : SameZone db zone zone'
  known : zone.id ≠ 0 → zone' = zone

theorem Tracks.resolve {zone' : Zone} (h : Tracks db zone zone') :
    Tracks db zone (resolveZone db zone') := by
  refine ⟨⟨h.same.1.trans (resolveZone_name db zone').symm, ?_⟩, fun hid ↦ ?_⟩
  · rw [resolveZone_resolveZone]
    exact h.same.2
  · rw [h.known hid, resolveZone, if_neg hid]

theorem Tracks.congr {zone' : Zone} {db' : Database} (h : Tracks db zone zone')
    (hzones : db'.zones = db.zones) : Tracks db' zone zone' := ⟨h.same.congr hzones, h.known⟩

/-- It is still one when the zone has been inserted. -/
theorem Tracks.houses {zone' : Zone} {zoneId : ℕ} {db' : Database} (h : Tracks db zone zone')
    (hhouses : Houses db zone zoneId db') : Tracks db' zone zone' := by
  rcases hhouses with ⟨-, -, rfl⟩ | ⟨hzero, hnames, -, ttl, rfl⟩
  · exact h
  · have hzeroOf : ∀ other : Zone, (resolveZone db other).id = 0 → other.id = 0 := by
      intro other hother
      by_contra hne
      rw [resolveZone, if_neg hne] at hother
      exact hne hother
    have hzero' := hzeroOf zone' (h.same.2.symm.trans hzero)
    refine ⟨⟨h.same.1, ?_⟩, h.known⟩
    rw [resolveZone, if_pos (hzeroOf zone hzero), resolveZone, if_pos hzero']
    exact lookupZone_id_congr rfl h.same.1

/-! ## Storing a record -/

/-- The changes that storing a record makes before its regeneration, and the regeneration itself. -/
structure Stores (services : Services Keys) [PacketFormat] (Change : Database → Database → Prop)
    (db : Database) (zone : Zone) (rrset : Rrset) (post : Database → Prop) : Prop where
  same : post db
  delete : ∀ row, zone.id ≠ 0 → keyRow db zone.id rrset.label rrset.type = some row →
    row.version < rrset.version → Change db (db.deleteRrset row.id)
  enter : ∀ zoneId db', zone.id = 0 → Enters db zone.name zoneId db' → Change db db'
  insert : ∀ cleared zoneId db', Cleared db zone.id rrset cleared →
    Enters cleared zone.name zoneId db' → (zone.id ≠ 0 → zoneId = zone.id ∧ db' = cleared) →
    (∀ row ∈ db'.rrsets, row.key ≠ (zoneId, rrset.label, rrset.type)) →
    Change db' (db'.insertRrset zoneId rrset.label rrset.type rrset.version rrset.ttl rrset.data) ∧
      ∀ stored : Zone, stored.id = zoneId → stored.name = zone.name →
        Meets services Change (generateDoe stored)
          (db'.insertRrset zoneId rrset.label rrset.type rrset.version rrset.ttl rrset.data)
          fun _ db'' ↦ post db''

variable [PacketFormat]

/-- The changes of storing any record object, when nothing is known of the rows of its key.  An
object with an id is not inserted, and the unique index may refuse a new one. -/
structure Storing (services : Services Keys) (Change : Database → Database → Prop) (db : Database)
    (zone : Zone) (rrset : Rrset) (post : Except Fault Unit → Database → Prop) : Prop where
  fault : ∀ fault, post (.error fault) db
  delete : ∀ row, zone.id ≠ 0 → keyRow db zone.id rrset.label rrset.type = some row →
    row.version < rrset.version → Change db (db.deleteRrset row.id)
  keep : rrset.id ≠ 0 → ∀ cleared, Cleared db zone.id rrset cleared →
    Meets services Change (generateDoe zone) cleared
      fun outcome db' ↦ post (outcome.map fun _ ↦ ()) db'
  enter : rrset.id = 0 → ∀ stored db', Opens db zone stored db' → zone.id = 0 → Change db db'
  refuse : rrset.id = 0 → ∀ cleared stored db', Cleared db zone.id rrset cleared →
    Opens cleared zone stored db' →
    (∃ row ∈ db'.rrsets, row.indexKey = (stored.id, rrset.label, rrset.type, rrset.version)) →
    post (.error .dbMgrExecuteError) db'
  insert : rrset.id = 0 → ∀ cleared stored db', Cleared db zone.id rrset cleared →
    Opens cleared zone stored db' →
    (∀ row ∈ db'.rrsets, row.indexKey ≠ (stored.id, rrset.label, rrset.type, rrset.version)) →
    Change db' (db'.insertRrset stored.id rrset.label rrset.type rrset.version rrset.ttl
        rrset.data) ∧
      Meets services Change (generateDoe stored)
        (db'.insertRrset stored.id rrset.label rrset.type rrset.version rrset.ttl rrset.data)
        fun outcome db'' ↦ post (outcome.map fun _ ↦ ()) db''

/-- Storing any record object. -/
theorem tryMeets_store {post : Except Fault Unit → Database → Prop} (hvalid : db.Valid)
    (hzone : rrset.zone = some zone)
    (h : Storing services Change db (resolveZone db zone) rrset post) :
    Meets services Change (store rrset) db post := by
  have hcheck : Meets services Change (checkRrsetVersion rrset) db fun outcome cleared ↦
      match outcome with
      | .ok checked => checked = { rrset with zone := some (resolveZone db zone) } ∧
          Cleared db (resolveZone db zone).id rrset cleared
      | .error fault => post (.error fault) cleared :=
    meets_checkRrsetVersion hvalid hzone h.delete (fun _ hcleared ↦ ⟨rfl, hcleared⟩) h.fault
  refine hcheck.bind ?_ fun _ _ hpost ↦ hpost
  rintro _ cleared ⟨rfl, hcleared⟩
  generalize resolveZone db zone = found at h hcleared
  have hsame : found.id = 0 → cleared = db := by
    intro hzero
    cases hcleared with
    | absent _ => rfl
    | older hid _ _ => exact absurd hzero hid
  have hinsert : Meets services Change
      (DbMgr.insertRrset { rrset with zone := some found }) cleared fun outcome db' ↦
        match outcome with
        | .ok inserted => ∃ stored, inserted.zone = some stored ∧
            Meets services Change (generateDoe stored) db'
              fun outcome db'' ↦ post (outcome.map fun _ ↦ ()) db''
        | .error fault => post (.error fault) db' := by
    by_cases hnew : rrset.id = 0
    · refine meets_tryInsertRrset hnew rfl ?_ ?_ ?_ ?_
      · intro stored db' hopens hzero
        rw [hsame hzero] at hopens ⊢
        exact h.enter hnew stored db' hopens hzero
      · intro stored db' hopens hfree
        obtain ⟨hchange, hgenerate⟩ := h.insert hnew cleared stored db' hcleared hopens hfree
        exact ⟨hchange, stored, rfl, hgenerate⟩
      · intro stored db' hopens hconflict
        exact h.refuse hnew cleared stored db' hcleared hopens hconflict
      · intro fault hzero
        rw [hsame hzero]
        exact h.fault fault
    · unfold DbMgr.insertRrset
      rw [if_pos hnew]
      exact meets_pure ⟨found, rfl, h.keep hnew cleared hcleared⟩
  refine hinsert.bind ?_ fun _ _ hpost ↦ hpost
  rintro inserted db' ⟨stored, hstored, hgenerate⟩
  simp only [hstored]
  exact hgenerate.bind (fun _ _ hpost ↦ meets_pure hpost) fun _ _ hpost ↦ hpost

/-- Storing a new record, when each key has one row. -/
theorem meets_store {post : Database → Prop} (hvalid : db.Valid) (hsingle : db.SingleVersion)
    (hnew : rrset.id = 0) (hzone : rrset.zone = some zone)
    (hvacant : (resolveZone db zone).id = 0 → Vacant db zone.name)
    (h : Stores services Change db (resolveZone db zone) rrset post) :
    Meets services Change (store rrset) db fun _ db' ↦ post db' := by
  have hname := resolveZone_name db zone
  generalize hresolve : resolveZone db zone = found at h hvacant hname
  have hknown : ∀ cleared stored db', Opens cleared found stored db' →
      found.id ≠ 0 → stored.id = found.id ∧ db' = cleared := by
    rintro cleared stored db' (⟨-, rfl, rfl⟩ | ⟨hzero, -⟩) hid
    · exact ⟨rfl, rfl⟩
    · exact absurd hzero hid
  have habsent : ∀ cleared stored db', Cleared db found.id rrset cleared →
      Opens cleared found stored db' →
        ∀ row ∈ db'.rrsets, row.key ≠ (stored.id, rrset.label, rrset.type) := by
    intro cleared stored db' hcleared hopens
    rw [hopens.rrsets]
    rcases hopens with ⟨hid, rfl, -⟩ | ⟨hzero, hnames, rfl, -⟩
    · exact hcleared.absent_key hsingle hid
    · cases hcleared with
      | absent _ =>
          rw [hname] at hnames
          intro row hrow hkey
          exact hvacant hzero hnames row hrow (congrArg Prod.fst hkey)
      | older hid _ _ => exact absurd hzero hid
  refine tryMeets_store hvalid hzone ?_
  rw [hresolve]
  constructor
  · exact fun _ ↦ h.same
  · exact h.delete
  · exact fun hne ↦ absurd hnew hne
  · exact fun _ stored db' hopens hzero ↦ h.enter stored.id db' hzero hopens.enters
  · rintro - cleared stored db' hcleared hopens ⟨row, hrow, hindex⟩
    exact absurd (key_of_indexKey hindex) (habsent cleared stored db' hcleared hopens row hrow)
  · intro _ cleared stored db' hcleared hopens _
    obtain ⟨hchange, hgenerate⟩ := h.insert cleared stored.id db' hcleared hopens.enters
      (hknown cleared stored db' hopens) (habsent cleared stored db' hcleared hopens)
    exact ⟨hchange, hgenerate stored rfl hopens.name⟩

/-! ## Additions -/

theorem selects_refuse (rrset : Rrset) (contentType : NdnsContentType) (fault : Fault) :
    (refuse rrset contentType fault).CallsOnly Call.Selects := by
  refine (selects_findRrset rrset).bind fun found ↦ ?_
  dsimp only
  split_ifs
  · exact (selects_of_reads callsOnly_orThrow).bind fun _ ↦
      (selects_of_reads callsOnly_require).bind fun _ ↦ trivial
  · trivial

theorem selects_checkNoDelegation (rrset : Rrset) (prefixes : List Name) :
    (checkNoDelegation rrset prefixes).CallsOnly Call.Selects := by
  induction prefixes generalizing rrset with
  | nil => trivial
  | cons labelPrefix rest ih => exact (selects_refuse _ _ _).bind fun _ ↦ ih _

theorem selects_checkNotAuth (rrset : Rrset) : (checkNotAuth rrset).CallsOnly Call.Selects := by
  unfold checkNotAuth
  split_ifs
  · exact selects_refuse _ _ _
  · trivial

theorem meets_addRrset {post : Except Fault Unit → Database → Prop}
    (hzone : rrset.zone = some zone) (hfault : ∀ fault, post (.error fault) db)
    (hstore : ((resolveZone db zone).id ≠ 0 →
        NsDiffers db (resolveZone db zone).id rrset.label .auth) →
      Meets services Change (store { rrset with zone := some (resolveZone db zone) }) db post) :
    Meets services Change (addRrset rrset) db post := by
  refine meets_select (selects_refuse _ _ _) ?_ hfault
  intro keys keys' copy hrefuse
  have hzone' : ({ rrset with type := Label.nsRrType } : Rrset).zone = some zone := hzone
  obtain ⟨-, rfl, hallowed⟩ := returns_refuse hzone' hrefuse
  exact hstore hallowed

/-- The loop of AUTH records, with any tables: the invariant says what is known with some prefixes
still ahead. -/
theorem tryMeets_createAuth {Inv : List Name → Database → Prop} {factory : RrsetFactory}
    {authTtl : ℤ} {prefixes : List Name} (hvalid : ∀ remaining db, Inv remaining db → db.Valid)
    (hfound : ∀ labelPrefix rest db row, Inv (labelPrefix :: rest) db →
      (resolveZone db zone).id ≠ 0 →
      keyRow db (resolveZone db zone).id labelPrefix Label.nsRrType = some row → Inv rest db)
    (hopen : ∀ labelPrefix rest db zoneId db' version data, Inv (labelPrefix :: rest) db →
      Houses db zone zoneId db' → (resolveZone db zone).id = 0 →
      RrsetFactory.Carries data
        (Label.recordName zone.name labelPrefix Label.nsRrType ++ [version]) .auth [] →
        Change db db')
    (hrefuse : ∀ labelPrefix rest db zoneId db' version, Inv (labelPrefix :: rest) db →
      Houses db zone zoneId db' → (resolveZone db zone).id = 0 →
      (∃ row ∈ db'.rrsets, row.indexKey = (zoneId, labelPrefix, Label.nsRrType, version)) →
        ∃ remaining, Inv remaining db')
    (hinsert : ∀ labelPrefix rest db zoneId db' version ttl data, Inv (labelPrefix :: rest) db →
      Houses db zone zoneId db' →
      (∀ row ∈ db'.rrsets, row.indexKey ≠ (zoneId, labelPrefix, Label.nsRrType, version)) →
      ((resolveZone db zone).id ≠ 0 →
        ∀ row ∈ db'.rrsets, row.key ≠ (zoneId, labelPrefix, Label.nsRrType)) →
      RrsetFactory.Carries data
        (Label.recordName zone.name labelPrefix Label.nsRrType ++ [version]) .auth [] →
        Change db' (db'.insertRrset zoneId labelPrefix Label.nsRrType version ttl data) ∧
        Inv rest (db'.insertRrset zoneId labelPrefix Label.nsRrType version ttl data))
    {zone' : Zone} (hzone : rrset.zone = some zone') (htracks : Tracks db zone zone')
    (hsame : SameZone db zone factory.zone) (hinv : Inv prefixes db) :
    Meets services Change (createAuth factory authTtl rrset prefixes) db fun outcome db' ↦
      match outcome with
      | .ok result => Inv [] db' ∧ ∃ zone'', result = { rrset with zone := some zone'' } ∧
          Tracks db' zone zone''
      | .error _ => ∃ remaining, Inv remaining db' := by
  induction prefixes generalizing db rrset zone' factory with
  | nil => exact meets_pure ⟨hinv, zone', by rw [← hzone], htracks⟩
  | cons labelPrefix rest ih =>
      have hzone' : (nsAt rrset labelPrefix).zone = some zone' := hzone
      have hfind : ∀ keys, (DbMgr.findRrset (nsAt rrset labelPrefix)).run (World.handle services)
          ⟨db, keys⟩ = (.ok (pick (nsAt rrset labelPrefix) (resolveZone db zone')
            (keyRow db (resolveZone db zone').id labelPrefix Label.nsRrType)), ⟨db, keys⟩) :=
        fun keys ↦ run_findRrset hzone' ⟨db, keys⟩
      refine meets_known (selects_findRrset _) hfind ?_
      rcases pick_cases (nsAt rrset labelPrefix) (resolveZone db zone')
        (keyRow db (resolveZone db zone').id labelPrefix Label.nsRrType) with
        ⟨htrue, hid, row, hrow, -, -⟩ | ⟨hfalse, hnone⟩
      · rw [← htracks.same.2] at hid hrow
        simp only [htrue, if_true, shareZone_pick]
        exact ih rfl htracks.resolve hsame (hfound _ _ _ _ hinv hid hrow)
      · rw [← htracks.same.2] at hnone
        simp only [hfalse, Bool.false_eq_true, if_false, shareZone_pick]
        refine meets_select (selects_of_reads (RrsetFactory.reads_generateRrset _ _ _ _ _ _ _)) ?_
          fun _ ↦ ⟨_, hinv⟩
        intro keys keys' auth hauth
        obtain ⟨-, hauthId, hauthZone, rfl, htype, bytes, hbytes, hcarries⟩ :=
          RrsetFactory.returns_generateRrset hauth
        obtain rfl : [] = bytes := Option.some.inj hbytes
        rw [← hsame.1] at hcarries
        have hinserted : Meets services Change (DbMgr.insertRrset auth) db fun outcome db' ↦
            match outcome with
            | .ok inserted => ∃ stored, inserted.zone = some stored ∧ Inv rest db' ∧
                Tracks db' zone (resolveZone db zone') ∧ SameZone db' zone stored
            | .error _ => ∃ remaining, Inv remaining db' := by
          have habsent : ∀ stored db', Opens db factory.zone stored db' →
              (resolveZone db zone).id ≠ 0 → ∀ row ∈ db'.rrsets,
                row.key ≠ (stored.id, auth.label, Label.nsRrType) := by
            intro stored db' hopens hid
            rw [hopens.rrsets, ((hsame.opens hopens).1 hid).1]
            refine keyRow_eq_none_iff.mp ?_
            cases hkeyRow : keyRow db (resolveZone db zone).id auth.label Label.nsRrType with
            | none => rfl
            | some found =>
                exact absurd (hnone hid found hkeyRow)
                  ((hvalid _ _ hinv).ids_pos found (keyRow_eq_some hkeyRow).1).ne'
          refine meets_tryInsertRrset hauthId hauthZone ?_ ?_ ?_ fun _ _ ↦ ⟨_, hinv⟩
          · intro stored db' hopens hzero
            exact hopen _ _ _ _ _ _ _ hinv (hsame.houses hopens).1 ((hsame.opens hopens).2.1 hzero)
              hcarries
          · intro stored db' hopens hfree
            obtain ⟨hhouses, hsame'⟩ := hsame.houses hopens
            rw [htype] at hfree ⊢
            obtain ⟨hchange, hrest⟩ := hinsert auth.label rest db stored.id db' auth.version auth.ttl
              auth.data hinv hhouses hfree (habsent stored db' hopens) hcarries
            exact ⟨hchange, stored, rfl, hrest, (htracks.resolve.houses hhouses).congr rfl,
              hsame'.congr rfl⟩
          · intro stored db' hopens hconflict
            rw [htype] at hconflict
            by_cases hid : (resolveZone db zone).id = 0
            · exact hrefuse _ _ _ _ _ _ hinv (hsame.houses hopens).1 hid hconflict
            · obtain ⟨row, hrow, hindex⟩ := hconflict
              exact absurd (key_of_indexKey hindex) (habsent stored db' hopens hid row hrow)
        refine hinserted.bind ?_ fun _ _ hfault ↦ hfault
        rintro inserted db' ⟨stored, hstored, hrest, htracks', hsame'⟩
        simp only [hstored, Option.getD_some]
        exact ih rfl htracks' hsame' hrest

/-- The loop of AUTH records, when no rows are left from an earlier zone. -/
theorem meets_createAuth {Inv : List Name → Database → Prop} {factory : RrsetFactory} {authTtl : ℤ}
    {prefixes : List Name} (hvalid : ∀ remaining db, Inv remaining db → db.Valid)
    (hvacant : zone.id = 0 → ∀ remaining db, Inv remaining db → Vacant db zone.name)
    (hfound : ∀ labelPrefix rest db row, Inv (labelPrefix :: rest) db →
      keyRow db (resolveZone db zone).id labelPrefix Label.nsRrType = some row → Inv rest db)
    (hinsert : ∀ labelPrefix rest db zoneId db' version ttl data, Inv (labelPrefix :: rest) db →
      Houses db zone zoneId db' →
      (∀ row ∈ db'.rrsets, row.key ≠ (zoneId, labelPrefix, Label.nsRrType)) →
      RrsetFactory.Carries data
        (Label.recordName zone.name labelPrefix Label.nsRrType ++ [version]) .auth [] →
        (zone.id = 0 → Change db db') ∧
        Change db' (db'.insertRrset zoneId labelPrefix Label.nsRrType version ttl data) ∧
        Inv rest (db'.insertRrset zoneId labelPrefix Label.nsRrType version ttl data))
    {zone' : Zone} (hzone : rrset.zone = some zone') (htracks : Tracks db zone zone')
    (hsame : SameZone db zone factory.zone) (hinv : Inv prefixes db) :
    Meets services Change (createAuth factory authTtl rrset prefixes) db fun outcome db' ↦
      match outcome with
      | .ok result => Inv [] db' ∧ ∃ zone'', result = { rrset with zone := some zone'' } ∧
          Tracks db' zone zone''
      | .error _ => ∃ remaining, Inv remaining db' := by
  have hzero : ∀ db, (resolveZone db zone).id = 0 → zone.id = 0 := by
    intro db hresolve
    by_contra hne
    rw [resolveZone, if_neg hne] at hresolve
    exact hne hresolve
  have habsent : ∀ labelPrefix rest db zoneId db', Inv (labelPrefix :: rest) db →
      Houses db zone zoneId db' → ((resolveZone db zone).id ≠ 0 →
        ∀ row ∈ db'.rrsets, row.key ≠ (zoneId, labelPrefix, Label.nsRrType)) →
      ∀ row ∈ db'.rrsets, row.key ≠ (zoneId, labelPrefix, Label.nsRrType) := by
    intro labelPrefix rest db zoneId db' hinv hhouses hknown
    by_cases hid : (resolveZone db zone).id = 0
    · rcases hhouses with ⟨hne, -⟩ | ⟨-, hnames, rfl, ttl, rfl⟩
      · exact absurd hid hne
      · intro row hrow hkey
        exact hvacant (hzero db hid) _ _ hinv hnames row hrow (congrArg Prod.fst hkey)
    · exact hknown hid
  refine tryMeets_createAuth hvalid (fun _ _ _ _ hinv _ hrow ↦ hfound _ _ _ _ hinv hrow) ?_ ?_ ?_
    hzone htracks hsame hinv
  · intro labelPrefix rest db zoneId db' version data hinv hhouses hid hcarries
    exact (hinsert labelPrefix rest db zoneId db' version 0 data hinv hhouses
      (habsent labelPrefix rest db zoneId db' hinv hhouses fun hne ↦ absurd hid hne) hcarries).1
        (hzero db hid)
  · rintro labelPrefix rest db zoneId db' version hinv hhouses hid ⟨row, hrow, hindex⟩
    exact absurd (key_of_indexKey hindex)
      (habsent labelPrefix rest db zoneId db' hinv hhouses (fun hne ↦ absurd hid hne) row hrow)
  · intro labelPrefix rest db zoneId db' version ttl data hinv hhouses _ hknown hcarries
    exact (hinsert labelPrefix rest db zoneId db' version ttl data hinv hhouses
      (habsent labelPrefix rest db zoneId db' hinv hhouses hknown) hcarries).2

theorem meets_addMultiLevelLabelRrset {factory : RrsetFactory} {authTtl : ℤ}
    {post : Except Fault Unit → Database → Prop} (hvalid : db.Valid) (hzone : rrset.zone = some zone)
    (hfault : ∀ fault, post (.error fault) db)
    (hcreate : ∀ zone', Tracks db zone zone' →
      (zone.id ≠ 0 → ∀ labelPrefix ∈ properPrefixes rrset.label,
        NsDiffers db zone.id labelPrefix .link) →
      (zone.id ≠ 0 → rrset.type = Label.nsRrType → NsDiffers db zone.id rrset.label .auth) →
      Meets services Change (createAuth factory authTtl { rrset with zone := some zone' }
        (properPrefixes rrset.label) >>= store) db post) :
    Meets services Change (addMultiLevelLabelRrset rrset factory authTtl) db post := by
  unfold addMultiLevelLabelRrset
  split_ifs with hlabel
  · exact meets_select (selects_checkNoDelegation _ _) (fun _ _ _ _ ↦ meets_throw (hfault _)) hfault
  · refine meets_select (selects_checkNoDelegation _ _) ?_ hfault
    intro keys keys' checked hdelegation
    obtain ⟨-, zone₁, hresolve₁, rfl, hnolink⟩ := returns_checkNoDelegation hzone hdelegation
    refine meets_select (selects_checkNotAuth _) ?_ hfault
    intro keys₁ keys₁' checked₁ hauth
    obtain ⟨-, zone₂, hresolve₂, rfl, hnotAuth⟩ := returns_checkNotAuth rfl hauth
    have hresolve := hresolve₁.trans hresolve₂
    refine hcreate zone₂ ⟨⟨hresolve.name.symm, (hresolve.resolveZone_id hvalid).symm⟩,
      hresolve.known⟩ hnolink fun hid ↦ ?_
    have hresolved : resolveZone db zone = zone := if_neg hid
    rw [hresolve₁.known hid, hresolved] at hnotAuth
    exact hnotAuth hid

theorem meets_addRrsetFromFile {zoneName inputDskCertName : Name} {inFile : String} {ttl : ℤ}
    {needResign : Bool} {post : Except Fault Unit → Database → Prop}
    (hfault : ∀ fault, post (.error fault) db)
    (hstore : ∀ keys₁ keys₁' packet keys₂ keys₂' dskCertName data wire keys₃ re,
      (lookupZone db (Zone.named zoneName)).id ≠ 0 →
      (loadData inFile).Returns (World.handle services) ⟨db, keys₁⟩ packet ⟨db, keys₁'⟩ →
      (resign needResign dskCertName packet).Returns (World.handle services) ⟨db, keys₂⟩
        (data, wire) ⟨db, keys₂'⟩ →
      (parseRrset zoneName data).Returns (World.handle services) ⟨db, keys₃⟩ re ⟨db, keys₃⟩ →
      Meets services Change (store ⟨0, some (lookupZone db (Zone.named zoneName)), re.rrLabel,
        re.rrType, re.version, if ttl = defaultRrTtl then
          (lookupZone db (Zone.named zoneName)).ttl else ttl, wire⟩) db post) :
    Meets services Change (addRrsetFromFile zoneName inFile ttl inputDskCertName needResign) db post := by
  have hfind : ∀ keys, (DbMgr.findZone (Zone.named zoneName)).run (World.handle services)
      ⟨db, keys⟩ = (.ok (lookupZone db (Zone.named zoneName)), ⟨db, keys⟩) :=
    fun keys ↦ run_findZone _ ⟨db, keys⟩
  refine meets_known (selects_of_reads (reads_findZone _)) hfind ?_
  refine meets_require (fun hid ↦ ?_) fun _ ↦ hfault _
  refine meets_select (selects_of_reads (reads_chooseDskCert _ _)) ?_ hfault
  intro _ _ dskCertName _
  refine meets_select (selects_of_reads (reads_loadData _)) ?_ hfault
  intro keys₁ keys₁' packet hload
  refine meets_select (selects_of_reads (reads_resign _ _ _)) ?_ hfault
  rintro keys₂ keys₂' ⟨data, wire⟩ hresign
  refine meets_select (selects_of_reads (reads_parseRrset _ _)) ?_ hfault
  intro keys₃ keys₃' re hparse
  have hkeys : keys₃ = keys₃' := by
    unfold parseRrset at hparse
    split at hparse
    · exact congrArg World.keys (Program.returns_pure.mp hparse).2
    · exact (Program.returns_throw.mp hparse).elim
    · exact (Program.returns_throw.mp hparse).elim
  exact hstore _ _ _ _ _ _ _ _ _ _ hid hload hresign (hkeys ▸ hparse)

/-! ## Records without a zone -/

theorem checkNoDelegation_unassigned (h : rrset.zone = none) (labelPrefix : Name)
    (rest : List Name) : checkNoDelegation rrset (labelPrefix :: rest) =
      throw (.dbMgrRrsetError "Rrset has not been assigned to a zone") := by
  have hfind : DbMgr.findRrset (nsAt rrset labelPrefix) = throw _ := findRrset_unassigned h
  rw [checkNoDelegation, refuse, hfind]
  rfl

theorem meets_store_unassigned {post : Database → Prop} (h : rrset.zone = none) (hsame : post db) :
    Meets services Change (store rrset) db fun _ db' ↦ post db' := by
  unfold store checkRrsetVersion
  rw [findRrset_unassigned h]
  exact meets_throw hsame

theorem meets_addRrset_unassigned {post : Database → Prop} (h : rrset.zone = none)
    (hsame : post db) : Meets services Change (addRrset rrset) db fun _ db' ↦ post db' := by
  have hfind : DbMgr.findRrset { rrset with type := Label.nsRrType } = throw _ :=
    findRrset_unassigned h
  unfold addRrset refuse
  rw [hfind]
  exact meets_throw hsame

theorem meets_addMultiLevelLabelRrset_unassigned {factory : RrsetFactory} {authTtl : ℤ}
    {post : Database → Prop} (h : rrset.zone = none) (hsame : post db) :
    Meets services Change (addMultiLevelLabelRrset rrset factory authTtl) db
      fun _ db' ↦ post db' := by
  unfold addMultiLevelLabelRrset
  split_ifs
  · rw [checkNoDelegation_unassigned h]
    exact meets_throw hsame
  · cases hprefixes : properPrefixes rrset.label with
    | cons labelPrefix rest =>
        rw [checkNoDelegation_unassigned h]
        exact meets_throw hsame
    | nil =>
        rw [checkNoDelegation, Program.pure_bind]
        unfold checkNotAuth
        split_ifs
        · unfold refuse
          rw [findRrset_unassigned h]
          exact meets_throw hsame
        · rw [Program.pure_bind, hprefixes, createAuth, Program.pure_bind]
          exact meets_store_unassigned h hsame

/-! ## Removals -/

theorem meets_removeRrSet {zoneName label : Name} {type : Component}
    {post : Except Fault Unit → Database → Prop} (hsame : post (.ok ()) db)
    (hremove : ∀ row, (resolveZone db (Zone.named zoneName)).id ≠ 0 →
      keyRow db (resolveZone db (Zone.named zoneName)).id label type = some row →
      Change db (db.deleteRrset row.id) ∧
        Meets services Change (generateDoe (resolveZone db (Zone.named zoneName)))
          (db.deleteRrset row.id) fun outcome db' ↦ post (outcome.map fun _ ↦ ()) db') :
    Meets services Change (removeRrSet zoneName label type) db post := by
  have hfind : ∀ keys, (DbMgr.findRrset (Rrset.keyed (Zone.named zoneName) label type)).run
      (World.handle services) ⟨db, keys⟩ = (.ok (pick (Rrset.keyed (Zone.named zoneName) label type)
        (resolveZone db (Zone.named zoneName)) (keyRow db
          (resolveZone db (Zone.named zoneName)).id label type)), ⟨db, keys⟩) :=
    fun keys ↦ run_findRrset rfl ⟨db, keys⟩
  refine meets_known (selects_findRrset _) hfind ?_
  rcases pick_cases (Rrset.keyed (Zone.named zoneName) label type)
    (resolveZone db (Zone.named zoneName))
    (keyRow db (resolveZone db (Zone.named zoneName)).id label type) with
    ⟨htrue, hid, row, hrow, hrowId, hfilled⟩ | ⟨hfalse, -⟩
  · simp only [htrue, if_true, hfilled]
    obtain ⟨hchange, hgenerate⟩ := hremove row hid hrow
    have hdelete : Meets services Change (DbMgr.removeRrset
        { (Rrset.keyed (Zone.named zoneName) label type).fill row with
          zone := some (resolveZone db (Zone.named zoneName)) }) db
        fun outcome db' ↦ outcome = .ok () ∧ db' = db.deleteRrset row.id :=
      meets_removeRrset hrowId hchange ⟨rfl, rfl⟩
    refine hdelete.bind ?_ ?_
    · rintro _ _ ⟨-, rfl⟩
      exact hgenerate.bind (fun _ _ hpost ↦ meets_pure hpost) fun _ _ hpost ↦ hpost
    · rintro fault _ ⟨hok, -⟩
      cases hok
  · simp only [hfalse, Bool.false_eq_true, if_false]
    exact meets_pure hsame

end Ndns.Mgmt.ManagementTool
