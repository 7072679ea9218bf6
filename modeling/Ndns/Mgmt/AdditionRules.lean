import Ndns.Mgmt.DenialRecords

/-!
# What an Addition Does

Each part of an addition has one rule that says, case by case, which record object and which
tables it leaves.  Facts about whole additions are derived from these rules.
-/

namespace Ndns.Daemon

open Ndn Calls

namespace DbMgr

variable {Keys : Type} {services : Services Keys} {world world' : World Keys}

@[simp]
theorem pick_zone (rrset : Rrset) (zone : Zone) (row : Option RrsetRow) :
    (pick rrset zone row).2.zone = some zone := by
  unfold pick
  split_ifs
  · rfl
  · cases row <;> rfl

@[simp]
theorem shareZone_pick (original rrset : Rrset) (zone : Zone) (row : Option RrsetRow) :
    original.shareZone (pick rrset zone row).2 = { original with zone := some zone } := by
  rw [Rrset.shareZone, pick_zone]

/-- A record is found when its zone is known and its row has an id. -/
theorem pick_cases (rrset : Rrset) (zone : Zone) (row : Option RrsetRow) :
    ((pick rrset zone row).1 = true ∧ zone.id ≠ 0 ∧ ∃ found, row = some found ∧ found.id ≠ 0 ∧
        (pick rrset zone row).2 = { rrset.fill found with zone := some zone }) ∨
      ((pick rrset zone row).1 = false ∧
        (zone.id ≠ 0 → ∀ found, row = some found → found.id = 0)) := by
  unfold pick
  by_cases hzone : zone.id = 0
  · simp [hzone]
  · cases row with
    | none => simp [hzone]
    | some found =>
        by_cases hid : found.id = 0
        · simp [hzone, hid]
        · simp [hzone, hid]

theorem returns_findRrset {rrset : Rrset} {zone : Zone} (hzone : rrset.zone = some zone)
    {result : Bool × Rrset} :
    (findRrset rrset).Returns (World.handle services) world result world' ↔
      pick rrset (resolveZone world.db zone)
          (keyRow world.db (resolveZone world.db zone).id rrset.label rrset.type) = result ∧
        world = world' :=
  Program.returns_iff_of_run (run_findRrset hzone world)

theorem returns_insertZone {zone stored : Zone}
    (h : (insertZone zone).Returns (World.handle services) world stored world') :
    (zone.id ≠ 0 ∧ stored = zone ∧ world' = world) ∨
      (zone.id = 0 ∧ (∀ row ∈ world.db.zones, row.name ≠ zone.name) ∧
        stored = { zone with id := nextRowId (world.db.zones.map ZoneRow.id) } ∧
        world' = { world with db := world.db.insertZone zone.name (int32 zone.ttl) }) := by
  by_cases hid : zone.id = 0
  · right
    rw [Program.Returns, run_insertZone hid] at h
    split_ifs at h with hexists
    · cases (Prod.mk.inj h).1
    · obtain ⟨hstored, rfl⟩ := Prod.mk.inj h
      refine ⟨hid, fun row hrow hname ↦ hexists ?_, (Except.ok.inj hstored).symm, rfl⟩
      exact List.any_eq_true.mpr ⟨row, hrow, by simpa using hname⟩
  · left
    rw [insertZone, if_pos (Nat.pos_of_ne_zero hid), Program.returns_pure] at h
    exact ⟨hid, h.1.symm, h.2.symm⟩

/-- An insertion does nothing to an object with an id; else it adds the row, and the zone as well
when its object has no id. -/
theorem returns_insertRrset {rrset result : Rrset} {zone : Zone} (hzone : rrset.zone = some zone)
    (h : (insertRrset rrset).Returns (World.handle services) world result world') :
    (rrset.id ≠ 0 ∧ result = rrset ∧ world' = world) ∨
      ∃ stored middle, rrset.id = 0 ∧
        (insertZone zone).Returns (World.handle services) world stored middle ∧
        (∀ row ∈ middle.db.rrsets,
          row.indexKey ≠ (stored.id, rrset.label, rrset.type, rrset.version)) ∧
        result = { rrset with
          id := nextRowId (middle.db.rrsets.map RrsetRow.id)
          zone := some stored } ∧
        world' = { middle with db := (middle.db.insertRrset stored.id rrset.label rrset.type
          rrset.version rrset.ttl rrset.data) } := by
  by_cases hid : rrset.id = 0
  · right
    rw [insertRrset, if_neg (by simp [hid])] at h
    simp only [hzone] at h
    obtain ⟨stored, middle, hstored, h⟩ := Program.returns_bind.mp h
    refine ⟨stored, middle, hid, hstored, ?_⟩
    rw [Program.Returns, Program.run_bind, run_sql] at h
    simp only [Sql.execute] at h
    split_ifs at h with hexists
    · cases (Prod.mk.inj h).1
    · obtain ⟨hresult, rfl⟩ := Prod.mk.inj h
      refine ⟨fun row hrow hkey ↦ hexists ?_, (Except.ok.inj hresult).symm, rfl⟩
      simp only [RrsetRow.indexKey, Prod.mk.injEq] at hkey
      exact List.any_eq_true.mpr ⟨row, hrow, by simpa using hkey⟩
  · left
    rw [insertRrset, if_pos hid, Program.returns_pure] at h
    exact ⟨hid, h.1.symm, h.2.symm⟩

end DbMgr

/-- What a lookup may do to a zone object: one without an id is looked up by name. -/
structure Zone.Resolves (db : Database) (zone zone' : Zone) : Prop where
  name : zone'.name = zone.name
  known : zone.id ≠ 0 → zone' = zone
  found : zone.id = 0 → zone'.id ≠ 0 → ∃ row ∈ db.zones, row.id = zone'.id ∧ row.name = zone'.name

namespace Zone.Resolves

variable {db : Database} {zone zone' zone'' : Zone}

theorem refl (db : Database) (zone : Zone) : Resolves db zone zone :=
  ⟨rfl, fun _ ↦ rfl, fun hzero hne ↦ absurd hzero hne⟩

theorem trans (h : Resolves db zone zone') (h' : Resolves db zone' zone'') :
    Resolves db zone zone'' where
  name := h'.name.trans h.name
  known := by
    intro hid
    obtain rfl := h.known hid
    exact h'.known hid
  found := by
    intro hzero hne
    by_cases hid : zone'.id = 0
    · exact h'.found hid hne
    · obtain rfl := h'.known hid
      exact h.found hzero hid

theorem resolveZone (db : Database) (zone : Zone) :
    Resolves db zone (DbMgr.resolveZone db zone) where
  name := DbMgr.resolveZone_name db zone
  known := fun hid ↦ if_neg hid
  found := by
    intro hzero hne
    rw [DbMgr.resolveZone, if_pos hzero] at hne ⊢
    obtain ⟨row, hrow, hname, hlookup⟩ := DbMgr.lookupZone_id_eq hne
    exact ⟨row, hrow, by rw [hlookup], by rw [hname, DbMgr.lookupZone_name]⟩

end Zone.Resolves

end Ndns.Daemon

namespace Ndns.Mgmt.ManagementTool

open Ndn Calls Daemon

variable {Keys : Type} {services : Services Keys} {world world' : World Keys}
  {rrset result : Rrset} {zone : Zone}

/-- The version check removes the older record, when there is one. -/
theorem returns_checkRrsetVersion (hzone : rrset.zone = some zone)
    (h : (checkRrsetVersion rrset).Returns (World.handle services) world result world') :
    result = { rrset with zone := some (DbMgr.resolveZone world.db zone) } ∧
      ((world = world' ∧ ((DbMgr.resolveZone world.db zone).id ≠ 0 → ∀ row,
          DbMgr.keyRow world.db (DbMgr.resolveZone world.db zone).id rrset.label rrset.type =
            some row → row.id = 0)) ∨
        (DbMgr.resolveZone world.db zone).id ≠ 0 ∧ ∃ row,
          DbMgr.keyRow world.db (DbMgr.resolveZone world.db zone).id rrset.label rrset.type =
            some row ∧
          row.version < rrset.version ∧
          world' = { world with db := world.db.deleteRrset row.id }) := by
  obtain ⟨⟨found, original⟩, _, hfind, h⟩ := Program.returns_bind.mp h
  obtain ⟨hpick, rfl⟩ := (DbMgr.returns_findRrset hzone).mp hfind
  have horiginal := congrArg Prod.snd hpick
  have hfound := congrArg Prod.fst hpick
  simp only at horiginal hfound h
  rcases DbMgr.pick_cases rrset (DbMgr.resolveZone world.db zone) (DbMgr.keyRow world.db
    (DbMgr.resolveZone world.db zone).id rrset.label rrset.type) with
    ⟨htrue, hid, row, hrow, hrowId, hfilled⟩ | ⟨hfalse, hnone⟩
  · rw [hfound.symm.trans htrue, if_pos rfl] at h
    simp only [Program.returns_bind, returns_require, Program.returns_pure] at h
    obtain ⟨_, _, ⟨-, rfl⟩, _, _, ⟨hnewer, rfl⟩, _, removed, hremove, rfl, rfl⟩ := h
    rw [← horiginal] at hnewer hremove ⊢
    rw [hfilled] at hnewer hremove
    obtain ⟨-, rfl⟩ := (Program.returns_iff_of_run (DbMgr.run_removeRrset hrowId _)).mp hremove
    rw [DbMgr.shareZone_pick]
    exact ⟨rfl, Or.inr ⟨hid, row, hrow, hnewer, rfl⟩⟩
  · rw [hfound.symm.trans hfalse, if_neg Bool.false_ne_true, Program.returns_pure, ← horiginal,
      DbMgr.shareZone_pick] at h
    obtain ⟨rfl, rfl⟩ := h
    exact ⟨rfl, Or.inl ⟨rfl, hnone⟩⟩

variable [PacketFormat]

/-- A check that passes only resolves the zone of the record. -/
theorem returns_refuse {contentType : NdnsContentType} {fault : Fault}
    (hzone : rrset.zone = some zone)
    (h : (refuse rrset contentType fault).Returns (World.handle services) world result world') :
    world = world' ∧ result = { rrset with zone := some (DbMgr.resolveZone world.db zone) } ∧
      ((DbMgr.resolveZone world.db zone).id ≠ 0 → ∀ row,
        DbMgr.keyRow world.db (DbMgr.resolveZone world.db zone).id rrset.label rrset.type =
            some row →
          row.id ≠ 0 → ∃ data, PacketFormat.decode row.data = some data ∧
            NdnsContentType.ofCode data.contentType ≠ contentType) := by
  obtain ⟨⟨found, copy⟩, _, hfind, h⟩ := Program.returns_bind.mp h
  obtain ⟨hpick, rfl⟩ := (DbMgr.returns_findRrset hzone).mp hfind
  have hcopy := congrArg Prod.snd hpick
  have hfound := congrArg Prod.fst hpick
  simp only at hcopy hfound h
  rcases DbMgr.pick_cases rrset (DbMgr.resolveZone world.db zone) (DbMgr.keyRow world.db
    (DbMgr.resolveZone world.db zone).id rrset.label rrset.type) with
    ⟨htrue, -, row, hrow, -, hfilled⟩ | ⟨hfalse, hnone⟩
  · rw [hfound.symm.trans htrue, if_pos rfl] at h
    simp only [Program.returns_bind, returns_orThrow, returns_require, Program.returns_pure] at h
    obtain ⟨data, _, ⟨hdecode, rfl⟩, _, _, ⟨hallowed, rfl⟩, rfl, rfl⟩ := h
    rw [← hcopy, hfilled] at hdecode
    rw [← hcopy, DbMgr.shareZone_pick]
    refine ⟨rfl, rfl, fun _ row' hrow' _ ↦ ⟨data, ?_, hallowed⟩⟩
    rw [hrow, Option.some.injEq] at hrow'
    rwa [← hrow']
  · rw [hfound.symm.trans hfalse, if_neg Bool.false_ne_true, Program.returns_pure, ← hcopy,
      DbMgr.shareZone_pick] at h
    obtain ⟨rfl, rfl⟩ := h
    exact ⟨rfl, rfl, fun hid row hrow hne ↦ absurd (hnone hid row hrow) hne⟩

/-- Storing a record: the version check, the insertion, and a regeneration. -/
theorem returns_store (h : (store rrset).Returns (World.handle services) world () world') :
    ∃ checked checkedWorld inserted insertedWorld stored regenerated,
      (checkRrsetVersion rrset).Returns (World.handle services) world checked checkedWorld ∧
      (DbMgr.insertRrset checked).Returns (World.handle services) checkedWorld inserted
        insertedWorld ∧
      inserted.zone = some stored ∧
      (generateDoe stored).Returns (World.handle services) insertedWorld regenerated world' := by
  obtain ⟨checked, checkedWorld, hcheck, h⟩ := Program.returns_bind.mp h
  obtain ⟨inserted, insertedWorld, hinsert, h⟩ := Program.returns_bind.mp h
  cases hstored : inserted.zone with
  | none => simp [hstored] at h
  | some stored =>
      simp only [hstored] at h
      obtain ⟨regenerated, _, hgenerate, h⟩ := Program.returns_bind.mp h
      obtain ⟨-, rfl⟩ := Program.returns_pure.mp h
      exact ⟨checked, checkedWorld, inserted, insertedWorld, stored, regenerated, hcheck, hinsert,
        hstored, hgenerate⟩

/-- A stored NS record has another content type than the given one. -/
def NsDiffers (db : Database) (zoneId : ℕ) (label : Name) (contentType : NdnsContentType) : Prop :=
  ∀ row, DbMgr.keyRow db zoneId label Label.nsRrType = some row → row.id ≠ 0 →
    ∃ data, PacketFormat.decode row.data = some data ∧
      NdnsContentType.ofCode data.contentType ≠ contentType

theorem returns_addRrset (hzone : rrset.zone = some zone)
    (h : (addRrset rrset).Returns (World.handle services) world () world') :
    ∃ zone', zone.Resolves world.db zone' ∧
      ((DbMgr.resolveZone world.db zone).id ≠ 0 →
        NsDiffers world.db (DbMgr.resolveZone world.db zone).id rrset.label .auth) ∧
      (store { rrset with zone := some zone' }).Returns (World.handle services) world ()
        world' := by
  obtain ⟨copy, _, hrefuse, h⟩ := Program.returns_bind.mp h
  have hzone' : ({ rrset with type := Label.nsRrType } : Rrset).zone = some zone := hzone
  obtain ⟨rfl, rfl, hallowed⟩ := returns_refuse hzone' hrefuse
  exact ⟨_, Zone.Resolves.resolveZone world.db zone, hallowed, h⟩

theorem returns_checkNoDelegation {prefixes : List Name} (hzone : rrset.zone = some zone)
    (h : (checkNoDelegation rrset prefixes).Returns (World.handle services) world result world') :
    world = world' ∧ ∃ zone', zone.Resolves world.db zone' ∧
      result = { rrset with zone := some zone' } ∧
      (zone.id ≠ 0 → ∀ labelPrefix ∈ prefixes, NsDiffers world.db zone.id labelPrefix .link) := by
  induction prefixes generalizing rrset zone world with
  | nil =>
      obtain ⟨rfl, rfl⟩ := Program.returns_pure.mp h
      exact ⟨rfl, zone, Zone.Resolves.refl _ _, by rw [← hzone], by simp⟩
  | cons labelPrefix rest ih =>
      obtain ⟨prefixNsRr, _, hrefuse, h⟩ := Program.returns_bind.mp h
      have hzone' : (nsAt rrset labelPrefix).zone = some zone := hzone
      obtain ⟨rfl, rfl, hallowed⟩ := returns_refuse hzone' hrefuse
      have hresolve := Zone.Resolves.resolveZone world.db zone
      obtain ⟨rfl, zone', hrest, rfl, hdiffers⟩ := ih rfl h
      refine ⟨rfl, zone', hresolve.trans hrest, rfl, fun hid labelPrefix' hprefix ↦ ?_⟩
      rw [hresolve.known hid] at hallowed hdiffers
      rcases List.mem_cons.mp hprefix with rfl | hprefix
      · exact hallowed hid
      · exact hdiffers hid labelPrefix' hprefix

theorem returns_checkNotAuth (hzone : rrset.zone = some zone)
    (h : (checkNotAuth rrset).Returns (World.handle services) world result world') :
    world = world' ∧ ∃ zone', zone.Resolves world.db zone' ∧
      result = { rrset with zone := some zone' } ∧
      ((DbMgr.resolveZone world.db zone).id ≠ 0 → rrset.type = Label.nsRrType →
        NsDiffers world.db (DbMgr.resolveZone world.db zone).id rrset.label .auth) := by
  unfold checkNotAuth at h
  split_ifs at h with htype
  · obtain ⟨rfl, rfl, hallowed⟩ := returns_refuse hzone h
    refine ⟨rfl, _, Zone.Resolves.resolveZone world.db zone, rfl, fun hid _ ↦ ?_⟩
    rw [htype] at hallowed
    exact hallowed hid
  · obtain ⟨rfl, rfl⟩ := Program.returns_pure.mp h
    exact ⟨rfl, zone, Zone.Resolves.refl _ _, by rw [← hzone], fun _ hns ↦ absurd hns htype⟩

/-- One prefix: its NS record exists, or a new AUTH record is inserted. -/
theorem returns_createAuth_cons {factory : RrsetFactory} {authTtl : ℤ} {labelPrefix : Name}
    {rest : List Name} (hzone : rrset.zone = some zone)
    (h : (createAuth factory authTtl rrset (labelPrefix :: rest)).Returns (World.handle services)
      world result world') :
    ∃ zone', zone.Resolves world.db zone' ∧
      ((zone'.id ≠ 0 ∧
          (∃ row, DbMgr.keyRow world.db zone'.id labelPrefix Label.nsRrType = some row) ∧
          (createAuth factory authTtl { rrset with zone := some zone' } rest).Returns
            (World.handle services) world result world') ∨
        (zone'.id ≠ 0 → ∀ row,
            DbMgr.keyRow world.db zone'.id labelPrefix Label.nsRrType = some row → row.id = 0) ∧
          ∃ auth authWorld inserted insertedWorld,
            (factory.generateAuthRrset labelPrefix versionUseUnixTimestamp authTtl).Returns
              (World.handle services) world auth authWorld ∧
            (DbMgr.insertRrset auth).Returns (World.handle services) authWorld inserted
              insertedWorld ∧
            (createAuth { factory with zone := inserted.zone.getD factory.zone } authTtl
              { rrset with zone := some zone' } rest).Returns (World.handle services)
                insertedWorld result world') := by
  obtain ⟨⟨found, prefixNsRr⟩, _, hfind, h⟩ := Program.returns_bind.mp h
  have hzone' : (nsAt rrset labelPrefix).zone = some zone := hzone
  obtain ⟨hpick, rfl⟩ := (DbMgr.returns_findRrset hzone').mp hfind
  have hcopy := congrArg Prod.snd hpick
  have hfound := congrArg Prod.fst hpick
  simp only at hcopy hfound h
  refine ⟨_, Zone.Resolves.resolveZone world.db zone, ?_⟩
  rcases DbMgr.pick_cases (nsAt rrset labelPrefix) (DbMgr.resolveZone world.db zone)
    (DbMgr.keyRow world.db (DbMgr.resolveZone world.db zone).id (nsAt rrset labelPrefix).label
      (nsAt rrset labelPrefix).type) with ⟨htrue, hid, row, hrow, -, -⟩ | ⟨hfalse, hnone⟩
  · rw [hfound.symm.trans htrue, if_pos rfl, ← hcopy, DbMgr.shareZone_pick] at h
    exact Or.inl ⟨hid, ⟨row, hrow⟩, h⟩
  · rw [hfound.symm.trans hfalse, if_neg Bool.false_ne_true, ← hcopy, DbMgr.shareZone_pick] at h
    obtain ⟨auth, authWorld, hauth, h⟩ := Program.returns_bind.mp h
    obtain ⟨inserted, insertedWorld, hinsert, h⟩ := Program.returns_bind.mp h
    exact Or.inr ⟨hnone, auth, authWorld, inserted, insertedWorld, hauth, hinsert, h⟩

end Ndns.Mgmt.ManagementTool
