import Ndns.Mgmt.CreationRules

/-!
# Changes of One Zone

A write through an object of a zone touches the rows of this zone only, as long as the object has
the id of the zone with its name.  The relation is reflexive and transitive, so it carries over to
the operations of the management tool.
-/

namespace Ndns.Daemon

/-- The id of a zone object is the one of the zone with its name. -/
def Zone.Stored (db : Database) (zone : Zone) : Prop :=
  zone.id ≠ 0 → ∃ row ∈ db.zones, row.id = zone.id ∧ row.name = zone.name

theorem Zone.Resolves.stored {db : Database} {zone zone' : Zone} (h : zone.Resolves db zone')
    (hstored : zone.Stored db) : zone'.Stored db := by
  intro hid
  by_cases hzero : zone.id = 0
  · exact h.found hzero hid
  · obtain rfl := h.known hzero
    exact hstored hid

end Ndns.Daemon

namespace Ndns.Mgmt

open Ndn Calls Daemon

/-- A zone object with the id of the zone finds this zone by its name. -/
theorem lookupZone_id_of_stored {db : Database} {zone : Zone} (hvalid : db.Valid) (hstored : zone.Stored db)
    (hid : zone.id ≠ 0) : (DbMgr.lookupZone db zone).id = zone.id := by
  obtain ⟨row, hrow, hrowId, hname⟩ := hstored hid
  have hfound : (DbMgr.lookupZone db zone).id ≠ 0 :=
    fun hzero ↦ DbMgr.lookupZone_id_eq_zero hvalid hzero row hrow hname
  obtain ⟨found, hfoundMem, hfoundName, hlookup⟩ := DbMgr.lookupZone_id_eq hfound
  rw [hlookup, ← hrowId, List.inj_on_of_nodup_map hvalid.zoneNames hfoundMem hrow
    (hfoundName.trans hname.symm)]

/-! ## The relation -/

/-- The rows of a zone. -/
def rowsOf (db : Database) (zoneId : ℕ) : List RrsetRow :=
  db.rrsets.filter fun row ↦ row.zoneId = zoneId

theorem denials_eq_rowsOf (db : Database) (zoneId : ℕ) : denials db zoneId =
    (rowsOf db zoneId).filter fun row ↦ row.type.encode = Label.doeRrType.encode := by
  rw [denials, rowsOf, List.filter_filter]
  exact List.filter_congr fun row _ ↦ by simp [RrsetRow.hasType, Bool.and_comm]

theorem records_eq_rowsOf (db : Database) (zoneId : ℕ) : records db zoneId =
    (rowsOf db zoneId).filter fun row ↦ row.type ≠ Label.doeRrType := by
  rw [records, rowsOf, List.filter_filter]
  exact List.filter_congr fun row _ ↦ by simp [Bool.and_comm]

/-- Only the zone with the given name and its rows have changed; the zone may be new. -/
structure Touches (zoneName : Name) (db db' : Database) : Prop where
  kept : ∀ zone ∈ db.zones, zone ∈ db'.zones
  new : ∀ zone ∈ db'.zones, zone ∈ db.zones ∨ zone.name = zoneName
  rows : ∀ zone ∈ db.zones, zone.name ≠ zoneName → rowsOf db' zone.id = rowsOf db zone.id

namespace Touches

variable {zoneName : Name} {db db' db'' : Database}

theorem refl (zoneName : Name) (db : Database) : Touches zoneName db db :=
  ⟨fun _ h ↦ h, fun _ h ↦ Or.inl h, fun _ _ _ ↦ rfl⟩

theorem trans (h : Touches zoneName db db') (h' : Touches zoneName db' db'') :
    Touches zoneName db db'' where
  kept zone hzone := h'.kept zone (h.kept zone hzone)
  new zone hzone := (h'.new zone hzone).elim (h.new zone) Or.inr
  rows zone hzone hname := (h'.rows zone (h.kept zone hzone) hname).trans (h.rows zone hzone hname)

theorem stored (h : Touches zoneName db db') {zone : Zone} (hzone : zone.Stored db) :
    zone.Stored db' := by
  intro hid
  obtain ⟨row, hrow, hsame⟩ := hzone hid
  exact ⟨row, h.kept row hrow, hsame⟩

/-- The zone rows of two names have different ids. -/
theorem ne_id (hvalid : db.Valid) {zone other : ZoneRow} (hzone : zone ∈ db.zones)
    (hother : other ∈ db.zones) (hname : zone.name ≠ other.name) : zone.id ≠ other.id := by
  intro hid
  exact hname (congrArg ZoneRow.name (List.inj_on_of_nodup_map hvalid.zoneIds hzone hother hid))

theorem insertZone (db : Database) (zoneName : Name) (ttl : ℤ) :
    Touches zoneName db (db.insertZone zoneName ttl) where
  kept zone hzone := List.mem_append_left _ hzone
  new zone hzone := by
    rcases List.mem_append.mp hzone with hold | hnew
    · exact Or.inl hold
    · exact Or.inr (by rw [List.mem_singleton.mp hnew])
  rows _ _ _ := rfl

theorem insertRrset (hvalid : db.Valid) {row : ZoneRow} (hrow : row ∈ db.zones) (label : Name)
    (type version : Component) (ttl : ℤ) (data : Block) :
    Touches row.name db (db.insertRrset row.id label type version ttl data) where
  kept _ hzone := hzone
  new _ hzone := Or.inl hzone
  rows zone hzone hname := by
    have hne := ne_id hvalid hrow hzone hname.symm
    simp [rowsOf, Database.insertRrset, hne]

theorem deleteRrset (hvalid : db.Valid) {zone : ZoneRow} (hzone : zone ∈ db.zones)
    {row : RrsetRow} (hrow : row ∈ db.rrsets) (hzoneId : row.zoneId = zone.id) :
    Touches zone.name db (db.deleteRrset row.id) where
  kept _ hzone := hzone
  new _ hzone := Or.inl hzone
  rows other hother hname := by
    rw [rowsOf, Database.deleteRrset, List.filter_filter, rowsOf]
    refine List.filter_congr fun candidate hcandidate ↦ ?_
    by_cases hid : candidate.id = row.id
    · obtain rfl := List.inj_on_of_nodup_map hvalid.ids hcandidate hrow hid
      have hne := ne_id hvalid hzone hother hname.symm
      simp [hzoneId, hne]
    · simp [hid]

end Touches

/-! ## Writes through objects -/

variable {Keys : Type} {services : Services Keys} {world world' : World Keys} {rrset result : Rrset}
  {zone : Zone}

theorem touches_insertRrset (hvalid : world.db.Valid) (hzone : rrset.zone = some zone)
    (hstored : zone.Stored world.db)
    (h : (DbMgr.insertRrset rrset).Returns (World.handle services) world result world') :
    Touches zone.name world.db world'.db ∧
      ∃ zone', result.zone = some zone' ∧ zone'.name = zone.name ∧ zone'.Stored world'.db := by
  rcases DbMgr.returns_insertRrset hzone h with
    ⟨-, rfl, rfl⟩ | ⟨stored, middle, -, hinsertZone, -, rfl, rfl⟩
  · exact ⟨Touches.refl _ _, zone, hzone, rfl, hstored⟩
  · have hvalid' := valid_of_returns hvalid hinsertZone
    obtain ⟨hname, htouches, row, hrow, hid, hrowName⟩ : stored.name = zone.name ∧
        Touches zone.name world.db middle.db ∧
        ∃ row ∈ middle.db.zones, row.id = stored.id ∧ row.name = zone.name := by
      rcases DbMgr.returns_insertZone hinsertZone with ⟨hid, rfl, rfl⟩ | ⟨-, hnew, rfl, rfl⟩
      · exact ⟨rfl, Touches.refl _ _, hstored hid⟩
      · exact ⟨rfl, Touches.insertZone _ _ _, _,
          List.mem_append_right _ List.mem_cons_self, rfl, rfl⟩
    have hinsert := Touches.insertRrset hvalid' hrow rrset.label rrset.type rrset.version rrset.ttl
      rrset.data
    rw [hid, hrowName] at hinsert
    exact ⟨htouches.trans hinsert, stored, rfl, hname,
      fun _ ↦ ⟨row, hrow, hid, hrowName.trans hname.symm⟩⟩

theorem touches_checkRrsetVersion (hvalid : world.db.Valid) (hzone : rrset.zone = some zone)
    (hstored : zone.Stored world.db)
    (h : (ManagementTool.checkRrsetVersion rrset).Returns (World.handle services) world result
      world') :
    Touches zone.name world.db world'.db ∧
      ∃ zone', zone.Resolves world.db zone' ∧ result = { rrset with zone := some zone' } := by
  have hresolve := Zone.Resolves.resolveZone world.db zone
  obtain ⟨rfl, ⟨rfl, -⟩ | ⟨hid, row, hrow, -, rfl⟩⟩ :=
    ManagementTool.returns_checkRrsetVersion hzone h
  · exact ⟨Touches.refl _ _, _, hresolve, rfl⟩
  · obtain ⟨zoneRow, hzoneRow, hzoneId, hzoneName⟩ := hresolve.stored hstored hid
    obtain ⟨hmem, hrowZone, -⟩ := DbMgr.keyRow_eq_some hrow
    have hdelete := Touches.deleteRrset hvalid hzoneRow hmem (hrowZone.trans hzoneId.symm)
    rw [hzoneName, hresolve.name] at hdelete
    exact ⟨hdelete, _, hresolve, rfl⟩

end Ndns.Mgmt
