import Ndns.Mgmt.RowNames

/-!
# What an Operation Leaves Alone

An operation on a zone changes rows of this zone only, whether it returns or throws.  Among the
records of the zone, one that writes records changes those under the label and type it is for, and
new AUTH records at the proper prefixes of this label.

Rows are written by their own id, by the id of a zone and by the type within a zone, so the frame is
a relation between the tables before and after a statement, for the id under which the rows of the
zone are stored.
-/

namespace Ndns.Mgmt

open Ndn Calls Daemon DbMgr NameServer

/-! ## Rows that stay -/

section Rows

variable {db : Database} {keep : RrsetRow → Bool} {id : ℕ}

theorem filter_deleteRrset (hrows : ∀ row ∈ db.rrsets, row.id = id → keep row = false) :
    (db.deleteRrset id).rrsets.filter keep = db.rrsets.filter keep := by
  rw [Database.deleteRrset, List.filter_filter]
  refine List.filter_congr fun row hrow ↦ ?_
  by_cases hid : row.id = id
  · simp [hrows row hrow hid]
  · simp [hid]

/-- An update keeps the rows of a kind that does not depend on what is overwritten. -/
theorem filter_updateRrset {ttl : ℤ} {version : Component} {data : Block}
    (hkeep : ∀ row, keep (row.overwrite ttl version data) = keep row)
    (hrows : ∀ row ∈ db.rrsets, row.id = id → keep row = false) :
    (db.updateRrset id ttl version data).rrsets.filter keep = db.rrsets.filter keep := by
  have hfilter : db.rrsets.filter (keep ∘ fun row ↦
      if row.id = id then row.overwrite ttl version data else row) = db.rrsets.filter keep := by
    refine List.filter_congr fun row _ ↦ ?_
    simp only [Function.comp]
    split_ifs
    · exact hkeep row
    · rfl
  rw [Database.updateRrset, List.filter_map, hfilter]
  refine (List.map_congr_left fun row hrow ↦ ?_).trans (List.map_id _)
  obtain ⟨hmem, hkept⟩ := List.mem_filter.mp hrow
  refine if_neg fun hid ↦ ?_
  rw [hrows row hmem hid] at hkept
  cases hkept

end Rows

/-- Every row refers to a zone. -/
def NoOrphans (db : Database) : Prop := ∀ row ∈ db.rrsets, ∃ zone ∈ db.zones, zone.id = row.zoneId

/-! ## The id of a zone object -/

namespace ManagementTool

/-- The id that rows stored through a zone object are given: that of the zone, or else of the zone
that is inserted. -/
def homeId (db : Database) (zone : Zone) : ℕ :=
  if (resolveZone db zone).id = 0 then nextRowId (db.zones.map ZoneRow.id)
  else (resolveZone db zone).id

variable {db db' : Database} {zone zone' : Zone}

theorem homeId_congr (h : db'.zones = db.zones) (zone : Zone) :
    homeId db' zone = homeId db zone := by
  rw [homeId, resolveZone_congr h, h, homeId]

theorem SameZone.homeId_eq (h : SameZone db zone zone') : homeId db zone = homeId db zone' := by
  rw [homeId, h.2, homeId]

theorem SameZone.refl (db : Database) (zone : Zone) : SameZone db zone zone := ⟨rfl, rfl⟩

theorem Houses.homeId_eq {zoneId : ℕ} (h : Houses db zone zoneId db') :
    zoneId = homeId db zone ∧ homeId db' zone = homeId db zone := by
  rcases h with ⟨hid, rfl, rfl⟩ | ⟨hzero, hnames, rfl, ttl, rfl⟩
  · exact ⟨by rw [homeId, if_neg hid], rfl⟩
  · have hzone : zone.id = 0 := by
      by_contra hne
      rw [resolveZone, if_neg hne] at hzero
      exact hne hzero
    have hnew : (resolveZone (db.insertZone zone.name ttl) zone).id =
        nextRowId (db.zones.map ZoneRow.id) := by
      rw [resolveZone, if_pos hzone]
      exact lookupZone_insertZone hnames ttl
    refine ⟨by rw [homeId, if_pos hzero], ?_⟩
    rw [homeId, hnew, if_neg (nextRowId_pos _).ne', homeId, if_pos hzero]

theorem resolveZone_named (db : Database) (zoneName : Name) :
    resolveZone db (Zone.named zoneName) = lookupZone db (Zone.named zoneName) := if_pos rfl

theorem homeId_named {zoneName : Name} (h : (lookupZone db (Zone.named zoneName)).id ≠ 0) :
    homeId db (Zone.named zoneName) = (lookupZone db (Zone.named zoneName)).id := by
  rw [homeId, resolveZone_named, if_neg h]

theorem homeId_of_opens {cleared : Database} {stored : Zone}
    (h : Opens cleared (resolveZone db zone) stored db') (hzones : cleared.zones = db.zones) :
    stored.id = homeId db zone := by
  rcases h with ⟨hid, rfl, -⟩ | ⟨hzero, -, rfl, -⟩
  · rw [homeId, if_neg hid]
  · rw [homeId, if_pos hzero, hzones]

/-- The id is that of a zone in the tables, once the zone is there. -/
theorem Houses.mem_zones {zoneId : ℕ} (h : Houses db zone zoneId db') (hstored : zone.Stored db) :
    ∃ row ∈ db'.zones, row.id = zoneId := by
  rcases h with ⟨hid, rfl, rfl⟩ | ⟨-, -, rfl, ttl, rfl⟩
  · obtain ⟨row, hrow, hrowId, -⟩ := (Zone.Resolves.resolveZone db' zone).stored hstored hid
    exact ⟨row, hrow, hrowId⟩
  · exact ⟨_, List.mem_append_right _ List.mem_cons_self, rfl⟩

theorem Houses.stored {zoneId : ℕ} (h : Houses db zone zoneId db') (hstored : zone.Stored db) :
    zone.Stored db' := by
  intro hid
  obtain ⟨row, hrow, hsame⟩ := hstored hid
  rcases h with ⟨-, -, rfl⟩ | ⟨-, -, -, ttl, rfl⟩
  · exact ⟨row, hrow, hsame⟩
  · exact ⟨row, List.mem_append_left _ hrow, hsame⟩

theorem Houses.noOrphans {zoneId : ℕ} (h : Houses db zone zoneId db') (horphans : NoOrphans db) :
    NoOrphans db' := by
  rcases h with ⟨-, -, rfl⟩ | ⟨-, -, -, ttl, rfl⟩
  · exact horphans
  · intro row hrow
    obtain ⟨owner, howner, hid⟩ := horphans row hrow
    exact ⟨owner, List.mem_append_left _ howner, hid⟩

theorem Houses.valid {zoneId : ℕ} (h : Houses db zone zoneId db') (hvalid : db.Valid) :
    db'.Valid := by
  rcases h with ⟨-, -, rfl⟩ | ⟨-, hnames, -, ttl, rfl⟩
  · exact hvalid
  · exact hvalid.insertZone ttl hnames

/-- An object that was looked up in between has the id of a zone, if any. -/
theorem Tracks.stored (h : Tracks db zone zone') (hstored : zone.Stored db) : zone'.Stored db := by
  intro hid
  by_cases hzero : zone.id = 0
  · have hresolve : (resolveZone db zone).id = zone'.id := by
      rw [h.same.2, resolveZone, if_neg hid]
    obtain ⟨row, hrow, hrowId, hname⟩ :=
      (Zone.Resolves.resolveZone db zone).found hzero (hresolve ▸ hid)
    exact ⟨row, hrow, hrowId.trans hresolve,
      hname.trans ((resolveZone_name db zone).trans h.same.1)⟩
  · rw [h.known hzero] at hid ⊢
    exact hstored hid

/-- A zone object that was opened finds its zone by the name. -/
theorem lookupZone_of_opens {stored : Zone} (hvalid : db.Valid) (hstored : zone.Stored db)
    (h : Opens db zone stored db') : (lookupZone db' stored).id = stored.id := by
  rcases h with ⟨hid, rfl, rfl⟩ | ⟨-, hnames, rfl, rfl⟩
  · exact lookupZone_id_of_stored hvalid hstored hid
  · have hfound := lookupZone_insertZone hnames (int32 zone.ttl)
    rw [← hfound]
    exact lookupZone_id_congr rfl rfl

section Housing

variable {label : Name} {home : ℕ}

/-- What is known of the tables while AUTH records are created for an addition. -/
structure Housing (zone : Zone) (home : ℕ) (label : Name) (remaining : List Name) (db : Database) :
    Prop where
  valid : db.Valid
  noOrphans : NoOrphans db
  stored : zone.Stored db
  home : homeId db zone = home
  prefixes : ∀ labelPrefix ∈ remaining, labelPrefix ∈ properPrefixes label

theorem Housing.rest {labelPrefix : Name} {rest : List Name}
    (h : Housing zone home label (labelPrefix :: rest) db) : Housing zone home label rest db :=
  ⟨h.valid, h.noOrphans, h.stored, h.home,
    fun other hother ↦ h.prefixes other (List.mem_cons_of_mem _ hother)⟩

theorem Housing.houses {db' : Database} {zoneId : ℕ} {remaining : List Name}
    (h : Housing zone home label remaining db) (hhouses : Houses db zone zoneId db') :
    Housing zone home label remaining db' ∧ zoneId = home := by
  obtain ⟨hid, hhome⟩ := hhouses.homeId_eq
  exact ⟨⟨hhouses.valid h.valid, hhouses.noOrphans h.noOrphans, hhouses.stored h.stored,
    hhome.trans h.home, h.prefixes⟩, hid.trans h.home⟩

theorem Housing.insertRrset {remaining : List Name} {other : Name} {type version : Component}
    (h : Housing zone home label remaining db) (howner : ∃ row ∈ db.zones, row.id = home)
    (hfree : ∀ row ∈ db.rrsets, row.indexKey ≠ (home, other, type, version)) (ttl : ℤ)
    (data : Block) :
    Housing zone home label remaining (db.insertRrset home other type version ttl data) := by
  refine ⟨h.valid.insertRrset ttl data hfree, fun row hrow ↦ ?_, h.stored,
    (homeId_congr rfl zone).trans h.home, h.prefixes⟩
  rcases List.mem_append.mp hrow with hold | hnew
  · exact h.noOrphans row hold
  · rw [List.mem_singleton.mp hnew]
    exact howner

end Housing

end ManagementTool

/-! ## Changes under one id -/

/-- Nothing has changed but the zones with the name, and the rows under the id. -/
structure Within (zoneName : Name) (home : ℕ) (db db' : Database) : Prop where
  zones : db'.zones.filter (fun row ↦ row.name ≠ zoneName) =
    db.zones.filter fun row ↦ row.name ≠ zoneName
  info : ∀ other ≠ int32 home, db'.zoneInfo.filter (fun row ↦ row.zoneId = other) =
    db.zoneInfo.filter fun row ↦ row.zoneId = other
  rows : ∀ other ≠ home, rowsOf db' other = rowsOf db other

namespace Within

variable {zoneName : Name} {home : ℕ} {db db' db'' : Database}

theorem refl (zoneName : Name) (home : ℕ) (db : Database) : Within zoneName home db db :=
  ⟨rfl, fun _ _ ↦ rfl, fun _ _ ↦ rfl⟩

theorem trans (h : Within zoneName home db db') (h' : Within zoneName home db' db'') :
    Within zoneName home db db'' where
  zones := h'.zones.trans h.zones
  info other hother := (h'.info other hother).trans (h.info other hother)
  rows other hother := (h'.rows other hother).trans (h.rows other hother)

theorem symm (h : Within zoneName home db db') : Within zoneName home db' db :=
  ⟨h.zones.symm, fun other hother ↦ (h.info other hother).symm,
    fun other hother ↦ (h.rows other hother).symm⟩

/-- A change of the records only. -/
theorem of_rows (hzones : db'.zones = db.zones) (hinfo : db'.zoneInfo = db.zoneInfo)
    (hrows : ∀ other ≠ home, rowsOf db' other = rowsOf db other) : Within zoneName home db db' :=
  ⟨by rw [hzones], fun _ _ ↦ by rw [hinfo], hrows⟩

theorem insertZone (db : Database) (zoneName : Name) (home : ℕ) (ttl : ℤ) :
    Within zoneName home db (db.insertZone zoneName ttl) := by
  refine ⟨?_, fun _ _ ↦ rfl, fun _ _ ↦ rfl⟩
  simp [Database.insertZone, List.filter_append]

theorem insertZoneInfo (db : Database) (zoneName : Name) (home : ℕ) (key : String) (value : Block) :
    Within zoneName home db (db.insertZoneInfo (int32 home) key value) := by
  refine ⟨rfl, fun other hother ↦ ?_, fun _ _ ↦ rfl⟩
  rw [Database.insertZoneInfo, List.filter_append, List.filter_filter,
    List.filter_cons_of_neg (by simpa using hother.symm), List.filter_nil, List.append_nil]
  refine List.filter_congr fun row _ ↦ ?_
  by_cases hrow : row.zoneId = other
  · simp [hrow, hother]
  · simp [hrow]

theorem insertRrset (db : Database) (zoneName : Name) (home : ℕ) (label : Name)
    (type version : Component) (ttl : ℤ) (data : Block) :
    Within zoneName home db (db.insertRrset home label type version ttl data) := by
  refine of_rows rfl rfl fun other hother ↦ ?_
  simp [rowsOf, Database.insertRrset, hother.symm]

theorem deleteRrset {id : ℕ} (hrows : ∀ row ∈ db.rrsets, row.id = id → row.zoneId = home) :
    Within zoneName home db (db.deleteRrset id) := by
  refine of_rows rfl rfl fun other hother ↦ filter_deleteRrset fun row hrow hid ↦ ?_
  rw [hrows row hrow hid]
  exact decide_eq_false hother.symm

theorem deleteRrsetsByType (db : Database) (zoneName : Name) (home : ℕ) (type : Component) :
    Within zoneName home db (db.deleteRrsetsByType home type) := by
  refine of_rows rfl rfl fun other hother ↦ ?_
  rw [rowsOf, Database.deleteRrsetsByType, List.filter_filter, rowsOf]
  refine List.filter_congr fun row _ ↦ ?_
  by_cases hrow : row.zoneId = other
  · simp [RrsetRow.hasType, hrow, hother]
  · simp [hrow]

theorem updateRrset {id : ℕ} (hrows : ∀ row ∈ db.rrsets, row.id = id → row.zoneId = home)
    (ttl : ℤ) (version : Component) (data : Block) :
    Within zoneName home db (db.updateRrset id ttl version data) := by
  refine of_rows rfl rfl fun other hother ↦ filter_updateRrset (fun _ ↦ rfl) fun row hrow hid ↦ ?_
  rw [hrows row hrow hid]
  exact decide_eq_false hother.symm

/-- The zones that are removed have the name. -/
theorem filterZones {id : ℕ} (hrows : ∀ row ∈ db.zones, row.id = id → row.name = zoneName) :
    Within zoneName home db { db with zones := db.zones.filter fun row ↦ row.id ≠ id } := by
  refine ⟨?_, fun _ _ ↦ rfl, fun _ _ ↦ rfl⟩
  rw [List.filter_filter]
  refine List.filter_congr fun row hrow ↦ ?_
  by_cases hid : row.id = id
  · simp [hrows row hrow hid]
  · simp [hid]

end Within

/-- The removal of a zone removes its rows and the zone. -/
theorem ManagementTool.within_deleteZone {Keys : Type} {services : Services Keys} {zoneName : Name}
    {db : Database} (hvalid : db.Valid) :
    Meets services (Within zoneName (ManagementTool.homeId db (Zone.named zoneName))) (ManagementTool.deleteZone zoneName) db
      fun _ _ ↦ True := by
  refine @ManagementTool.meets_deleteZone _ services _ db zoneName
    (fun db' ↦ db'.zones = db.zones ∧ db'.rrsets.Sublist db.rrsets) (fun _ ↦ True)
    ⟨rfl, List.Sublist.refl _⟩ (fun _ _ ↦ trivial) ?_ ?_
  · rintro hid row hrow hzoneId db' ⟨hzones, hrows⟩
    refine ⟨Within.deleteRrset fun other hother hsame ↦ ?_, hzones, List.filter_sublist.trans hrows⟩
    rw [List.inj_on_of_nodup_map hvalid.ids (hrows.subset hother) hrow hsame, hzoneId,
      ManagementTool.homeId_named hid]
  · rintro db' ⟨hzones, -⟩ hid
    refine ⟨Within.filterZones fun row hrow hrowId ↦ ?_, trivial⟩
    obtain ⟨found, hfound, hname, hlookup⟩ := lookupZone_id_eq hid
    rw [hlookup] at hrowId
    rw [hzones] at hrow hfound
    rw [List.inj_on_of_nodup_map hvalid.zoneIds hrow hfound hrowId, hname]
    rfl

/-! ## Other zones -/

/-- The zones with other names, their information and their rows are what they were. -/
structure Undisturbed (zoneName : Name) (db db' : Database) : Prop where
  zones : db'.zones.filter (fun row ↦ row.name ≠ zoneName) =
    db.zones.filter fun row ↦ row.name ≠ zoneName
  info : ∀ zone ∈ db.zones, zone.name ≠ zoneName →
    db'.zoneInfo.filter (fun row ↦ row.zoneId = int32 zone.id) =
      db.zoneInfo.filter fun row ↦ row.zoneId = int32 zone.id
  rows : ∀ zone ∈ db.zones, zone.name ≠ zoneName → rowsOf db' zone.id = rowsOf db zone.id

/-- The id under which the rows of the zone with a name are stored, by the time they are. -/
structure IsHome (db : Database) (zoneName : Name) (home : ℕ) : Prop where
  ne : ∀ zone ∈ db.zones, zone.name ≠ zoneName → zone.id ≠ home
  named : ∀ zone ∈ db.zones, zone.name = zoneName → zone.id = home
  le : home ≤ 2 ^ 31

section Undisturbed

variable {db db' : Database} {zoneName : Name} {home : ℕ}

theorem nextRowId_le {ids : List ℕ} {bound : ℕ} (hpos : 0 < bound) (h : ∀ id ∈ ids, id < bound) :
    nextRowId ids ≤ bound := by
  have hmax : ids.foldr max 0 < bound := by
    induction ids with
    | nil => exact hpos
    | cons head ids ih =>
        rw [List.foldr_cons]
        exact max_lt (h head List.mem_cons_self) (ih fun id hid ↦ h id (List.mem_cons_of_mem _ hid))
  exact hmax

theorem int32_ne {left right : ℕ} (hleft : left < 2 ^ 32) (hright : right < 2 ^ 32)
    (hne : left ≠ right) : int32 left ≠ int32 right := by
  intro hsame
  have hmod := congrArg (· % ((2 ^ 32 : ℕ) : ℤ)) hsame
  simp only [int32, Int.bmod_emod] at hmod
  omega

theorem isHome_homeId {zone : Zone} (hvalid : db.Valid) (hids : ∀ zone ∈ db.zones, zone.id < 2 ^ 31)
    (hstored : zone.Stored db) : IsHome db zone.name (ManagementTool.homeId db zone) := by
  have hnext : nextRowId (db.zones.map ZoneRow.id) ≤ 2 ^ 31 := by
    refine nextRowId_le (by decide) fun id hid ↦ ?_
    obtain ⟨row, hrow, rfl⟩ := List.mem_map.mp hid
    exact hids row hrow
  by_cases hid : (resolveZone db zone).id = 0
  · have hzone : zone.id = 0 := by
      by_contra hne
      rw [resolveZone, if_neg hne] at hid
      exact hne hid
    rw [ManagementTool.homeId, if_pos hid]
    refine ⟨fun other hother _ ↦ Database.ne_nextRowId hother, fun other hother hname ↦ ?_, hnext⟩
    rw [resolveZone, if_pos hzone] at hid
    exact absurd hname (lookupZone_id_eq_zero hvalid hid other hother)
  · obtain ⟨row, hrow, hrowId, hname⟩ := (Zone.Resolves.resolveZone db zone).stored hstored hid
    rw [resolveZone_name] at hname
    rw [ManagementTool.homeId, if_neg hid, ← hrowId]
    refine ⟨fun other hother hotherName ↦ ?_, fun other hother hotherName ↦ ?_,
      (hids row hrow).le⟩
    · exact Touches.ne_id hvalid hother hrow fun hsame ↦ hotherName (hsame.trans hname)
    · rw [List.inj_on_of_nodup_map hvalid.zoneNames hother hrow (hotherName.trans hname.symm)]

theorem Within.undisturbed (h : Within zoneName home db db')
    (hids : ∀ zone ∈ db.zones, zone.id < 2 ^ 31)
    (hne : ∀ zone ∈ db.zones, zone.name ≠ zoneName → zone.id ≠ home) (hle : home ≤ 2 ^ 31) :
    Undisturbed zoneName db db' := by
  refine ⟨h.zones, fun zone hzone hname ↦ h.info _ ?_,
    fun zone hzone hname ↦ h.rows _ (hne zone hzone hname)⟩
  have hlt := hids zone hzone
  exact int32_ne (by omega) (by omega) (hne zone hzone hname)

end Undisturbed

/-! ## Changes of one record -/

/-- The records under an id that are not meant by a label and type. -/
def bystanders (db : Database) (home : ℕ) (label : Name) (type : Component) : List RrsetRow :=
  (records db home).filter fun row ↦ ¬ (row.label = label ∧ row.type = type)

section Bystanders

variable {label : Name} {type : Component} {home : ℕ} {db db' : Database}

theorem bystanders_eq_filter : bystanders db home label type = db.rrsets.filter fun row ↦
    row.zoneId = home ∧ row.type ≠ Label.doeRrType ∧ ¬ (row.label = label ∧ row.type = type) := by
  rw [bystanders, records, List.filter_filter]
  refine List.filter_congr fun row _ ↦ ?_
  rw [← Bool.decide_and]
  exact decide_eq_decide.mpr (by tauto)

theorem mem_bystanders {row : RrsetRow} : row ∈ bystanders db home label type ↔
    row ∈ db.rrsets ∧ row.zoneId = home ∧ row.type ≠ Label.doeRrType ∧
      ¬ (row.label = label ∧ row.type = type) := by
  rw [bystanders_eq_filter, List.mem_filter, decide_eq_true_iff]

/-- A proper prefix is another label. -/
theorem ne_of_mem_properPrefixes {labelPrefix : Name}
    (h : labelPrefix ∈ ManagementTool.properPrefixes label) : labelPrefix ≠ label := by
  obtain ⟨index, hindex, rfl⟩ := List.mem_map.mp h
  rw [List.mem_range] at hindex
  intro hsame
  have hlength := congrArg List.length hsame
  rw [Name.getPrefix, List.length_take] at hlength
  omega

end Bystanders

section Operations

variable [PacketFormat]

/-- A row of the AUTH record that an addition makes at a proper prefix of its label. -/
structure IsNewAuth (zoneName : Name) (home : ℕ) (label : Name) (db : Database) (row : RrsetRow) :
    Prop where
  zoneId : row.zoneId = home
  type : row.type = Label.nsRrType
  labelPrefix : row.label ∈ ManagementTool.properPrefixes label
  packet : RrsetFactory.Carries row.data
    (Label.recordName zoneName row.label Label.nsRrType ++ [row.version]) .auth []
  absent : ∀ old ∈ db.rrsets, old.key ≠ row.key

/-- A change under one id that is confined to the records of a label and type, to new AUTH records
and to denial records. -/
structure Confined (zoneName : Name) (home : ℕ) (label : Name) (type : Component)
    (db db' : Database) : Prop where
  within : Within zoneName home db db'
  kept : ∀ row ∈ db.zones, row ∈ db'.zones
  named : (∀ row ∈ db.zones, row.name = zoneName → row.id = home) →
    ∀ row ∈ db'.zones, row.name = zoneName → row.id = home
  bystanders : ∃ created, bystanders db' home label type = bystanders db home label type ++ created ∧
    ∀ row ∈ created, IsNewAuth zoneName home label db row

namespace Confined

variable {zoneName label : Name} {type : Component} {home : ℕ} {db db' db'' : Database}

theorem refl (zoneName : Name) (home : ℕ) (label : Name) (type : Component) (db : Database) :
    Confined zoneName home label type db db :=
  ⟨Within.refl _ _ _, fun _ hrow ↦ hrow, id, [], (List.append_nil _).symm, by simp⟩

theorem trans (h : Confined zoneName home label type db db')
    (h' : Confined zoneName home label type db' db'') :
    Confined zoneName home label type db db'' := by
  obtain ⟨created, hrows, hcreated⟩ := h.bystanders
  obtain ⟨created', hrows', hcreated'⟩ := h'.bystanders
  refine ⟨h.within.trans h'.within, fun row hrow ↦ h'.kept row (h.kept row hrow), h'.named ∘ h.named, created ++ created',
    by rw [hrows', hrows, List.append_assoc], fun row hrow ↦ ?_⟩
  rcases List.mem_append.mp hrow with hfirst | hsecond
  · exact hcreated row hfirst
  · obtain ⟨hzoneId, htype, hbefore, hpacket, habsent⟩ := hcreated' row hsecond
    refine ⟨hzoneId, htype, hbefore, hpacket, fun old hold hkey ↦ ?_⟩
    -- an older row of the key is a bystander, and so would still be there
    have hstays : old ∈ Mgmt.bystanders db home label type := by
      simp only [RrsetRow.key, Prod.mk.injEq] at hkey
      refine mem_bystanders.mpr ⟨hold, hkey.1.trans hzoneId, ?_, fun hsame ↦ ?_⟩
      · rw [hkey.2.2, htype]
        decide
      · exact ne_of_mem_properPrefixes hbefore (hkey.2.1.symm.trans hsame.1)
    refine habsent old ?_ hkey
    exact (mem_bystanders.mp (hrows ▸ List.mem_append_left created hstays)).1

/-- A change that keeps the zones and the records under the id. -/
theorem of_records (hwithin : Within zoneName home db db') (hzones : db'.zones = db.zones)
    (hrecords : records db' home = records db home) : Confined zoneName home label type db db' := by
  refine ⟨hwithin, fun _ hrow ↦ hzones ▸ hrow, fun h ↦ hzones ▸ h, [], ?_, by simp⟩
  rw [List.append_nil, Mgmt.bystanders, hrecords, Mgmt.bystanders]

theorem insertZone (hhome : home = nextRowId (db.zones.map ZoneRow.id)) (ttl : ℤ) :
    Confined zoneName home label type db (db.insertZone zoneName ttl) := by
  refine ⟨Within.insertZone _ _ _ _, fun _ hrow ↦ List.mem_append_left _ hrow, ?_, [],
    (List.append_nil _).symm, by simp⟩
  intro hnamed row hrow hname
  rcases List.mem_append.mp hrow with hold | hnew
  · exact hnamed row hold hname
  · rw [List.mem_singleton.mp hnew, hhome]

/-- The record an operation is for. -/
theorem insertRrset (db : Database) (version : Component) (ttl : ℤ) (data : Block) :
    Confined zoneName home label type db (db.insertRrset home label type version ttl data) := by
  refine ⟨Within.insertRrset _ _ _ _ _ _ _ _, fun _ hrow ↦ hrow, id, [], ?_, by simp⟩
  by_cases htype : type = Label.doeRrType <;>
    simp [Mgmt.bystanders, records, Database.insertRrset, htype]

theorem insertAuth {labelPrefix : Name} {version : Component} {data : Block}
    (hbefore : labelPrefix ∈ ManagementTool.properPrefixes label)
    (hpacket : RrsetFactory.Carries data
      (Label.recordName zoneName labelPrefix Label.nsRrType ++ [version]) .auth [])
    (habsent : ∀ row ∈ db.rrsets, row.key ≠ (home, labelPrefix, Label.nsRrType)) (ttl : ℤ) :
    Confined zoneName home label type db
      (db.insertRrset home labelPrefix Label.nsRrType version ttl data) := by
  have htype : Label.nsRrType ≠ Label.doeRrType := by decide
  refine ⟨Within.insertRrset _ _ _ _ _ _ _ _, fun _ hrow ↦ hrow, id,
    [⟨nextRowId (db.rrsets.map RrsetRow.id), home, labelPrefix, Label.nsRrType, version, ttl,
      data⟩], ?_, ?_⟩
  · simp [Mgmt.bystanders, records, Database.insertRrset, htype, ne_of_mem_properPrefixes hbefore]
  · intro row hrow
    rw [List.mem_singleton.mp hrow]
    exact ⟨rfl, rfl, hbefore, hpacket, habsent⟩

theorem deleteRrset {id : ℕ} (hrows : ∀ row ∈ db.rrsets, row.id = id → row.key = (home, label, type)) :
    Confined zoneName home label type db (db.deleteRrset id) := by
  refine ⟨Within.deleteRrset fun row hrow hid ↦ congrArg Prod.fst (hrows row hrow hid),
    fun _ hrow ↦ hrow, fun h ↦ h, [], ?_, by simp⟩
  rw [List.append_nil, bystanders_eq_filter, bystanders_eq_filter]
  refine filter_deleteRrset fun row hrow hid ↦ ?_
  have hkey := hrows row hrow hid
  simp only [RrsetRow.key, Prod.mk.injEq] at hkey
  simp [hkey.2.1, hkey.2.2]

theorem updateRrset {id : ℕ} (hrows : ∀ row ∈ db.rrsets, row.id = id → row.key = (home, label, type))
    (ttl : ℤ) (version : Component) (data : Block) :
    Confined zoneName home label type db (db.updateRrset id ttl version data) := by
  refine ⟨Within.updateRrset (fun row hrow hid ↦ congrArg Prod.fst (hrows row hrow hid)) _ _ _,
    fun _ hrow ↦ hrow, fun h ↦ h, [], ?_, by simp⟩
  rw [List.append_nil, bystanders_eq_filter, bystanders_eq_filter]
  refine filter_updateRrset (fun _ ↦ rfl) fun row hrow hid ↦ ?_
  have hkey := hrows row hrow hid
  simp only [RrsetRow.key, Prod.mk.injEq] at hkey
  simp [hkey.2.1, hkey.2.2]

end Confined

/-! ## Regenerations -/

namespace ManagementTool

variable {Keys : Type} {services : Services Keys} {zoneName label : Name} {type : Component}
  {home : ℕ} {base db : Database}

theorem Rebuilding.within {regenerated : ℕ} (h : Rebuilding zoneName regenerated base db)
    (hhome : regenerated ≠ 0 → regenerated = home) (name : Name) :
    Within name home base db ∧ db.zones = base.zones ∧ records db home = records base home := by
  rcases h with rfl | ⟨hid, part, -, happends⟩
  · exact ⟨Within.refl _ _ _, rfl, rfl⟩
  · obtain rfl := hhome hid
    have hzones : db.zones = base.zones ∧ db.zoneInfo = base.zoneInfo := by
      obtain ⟨rows, -, rfl⟩ := happends
      exact ⟨rfl, rfl⟩
    refine ⟨Within.of_rows hzones.1 hzones.2 fun other hother ↦ ?_, hzones.1,
      happends.records regenerated⟩
    refine happends.other fun row hrow ↦ ?_
    simp [(RrsetRow.hasType_iff.mp hrow).1, hother.symm]

/-- A regeneration changes denial records only. -/
theorem confined_generateDoe {zone : Zone} (hhome : (lookupZone db zone).id ≠ 0 →
    (lookupZone db zone).id = home) :
    Meets services (Confined zoneName home label type) (generateDoe zone) db fun _ _ ↦ True := by
  refine (tryMeets_generateDoe fun db₁ db₂ h₁ h₂ ↦ ?_).weaken fun _ _ _ ↦ trivial
  obtain ⟨hwithin₁, hzones₁, hrecords₁⟩ := h₁.within hhome zoneName
  obtain ⟨hwithin₂, hzones₂, hrecords₂⟩ := h₂.within hhome zoneName
  exact Confined.of_records (hwithin₁.symm.trans hwithin₂) (hzones₂.trans hzones₁.symm)
    (hrecords₂.trans hrecords₁.symm)

/-! ## Storing a record -/

section Storing

variable {rrset : Rrset} {zone : Zone}

theorem confined_store (hvalid : db.Valid) (hnew : rrset.id = 0) (hzone : rrset.zone = some zone)
    (hstored : zone.Stored db) :
    Meets services (Confined zone.name (homeId db zone) rrset.label rrset.type) (store rrset) db
      fun _ _ ↦ True := by
  have hstored' : (resolveZone db zone).Stored db :=
    (Zone.Resolves.resolveZone db zone).stored hstored
  have hname : (resolveZone db zone).name = zone.name := resolveZone_name db zone
  refine tryMeets_store hvalid hzone ?_
  constructor
  · exact fun _ ↦ trivial
  · intro row hid hrow _
    obtain ⟨hmem, hkey⟩ := key_of_keyRow hrow
    refine Confined.deleteRrset fun other hother hsame ↦ ?_
    rw [List.inj_on_of_nodup_map hvalid.ids hother hmem hsame, hkey, homeId, if_neg hid]
  · exact fun hne ↦ absurd hnew hne
  · rintro - stored db' (⟨hne, -⟩ | ⟨-, -, -, rfl⟩) hzero
    · exact absurd hzero hne
    · rw [hname]
      refine Confined.insertZone ?_ _
      rw [homeId, if_pos hzero]
  · exact fun _ _ _ _ _ _ _ ↦ trivial
  · intro _ cleared stored db' hcleared hopens _
    have hid := homeId_of_opens hopens hcleared.zones
    have hclearedStored : (resolveZone db zone).Stored cleared := fun hne ↦ by
      rw [hcleared.zones]
      exact hstored' hne
    have hlookup := lookupZone_of_opens (hcleared.valid hvalid) hclearedStored hopens
    rw [hid] at hlookup ⊢
    refine ⟨Confined.insertRrset _ _ _ _, confined_generateDoe fun _ ↦ ?_⟩
    rw [← hlookup]
    exact lookupZone_id_congr rfl rfl

theorem confined_addRrset (hvalid : db.Valid) (hnew : rrset.id = 0)
    (hzone : rrset.zone = some zone) (hstored : zone.Stored db) :
    Meets services (Confined zone.name (homeId db zone) rrset.label rrset.type) (addRrset rrset) db
      fun _ _ ↦ True := by
  refine meets_addRrset hzone (fun _ ↦ trivial) fun _ ↦ ?_
  have hhome : homeId db (resolveZone db zone) = homeId db zone := by
    rw [homeId, resolveZone_resolveZone, homeId]
  have hstore := @confined_store _ _ services db { rrset with zone := some (resolveZone db zone) } _
    hvalid hnew rfl ((Zone.Resolves.resolveZone db zone).stored hstored)
  rwa [hhome, resolveZone_name] at hstore

theorem confined_addMultiLevelLabelRrset {factory : RrsetFactory} {authTtl : ℤ}
    (hvalid : db.Valid) (horphans : NoOrphans db) (hnew : rrset.id = 0)
    (hzone : rrset.zone = some zone) (hstored : zone.Stored db)
    (hsame : SameZone db zone factory.zone) :
    Meets services (Confined zone.name (homeId db zone) rrset.label rrset.type)
      (addMultiLevelLabelRrset rrset factory authTtl) db fun _ _ ↦ True := by
  refine meets_addMultiLevelLabelRrset hvalid hzone (fun _ ↦ trivial) fun zone' htracks _ _ ↦ ?_
  have hcreate := @tryMeets_createAuth _ services
    (Confined zone.name (homeId db zone) rrset.label rrset.type) db
    { rrset with zone := some zone' } zone _ (Housing zone (homeId db zone) rrset.label) factory
    authTtl (properPrefixes rrset.label) (fun _ _ hinv ↦ hinv.valid)
    (fun _ _ _ _ hinv _ _ ↦ hinv.rest) ?_ ?_ ?_ zone' rfl htracks hsame
    ⟨hvalid, horphans, hstored, rfl, fun _ h ↦ h⟩
  · refine hcreate.bind ?_ fun _ _ _ ↦ trivial
    rintro result db' ⟨hinv, zone'', rfl, htracks'⟩
    have hstore := @confined_store _ _ services db' { rrset with zone := some zone'' } zone''
      hinv.valid hnew rfl (htracks'.stored hinv.stored)
    rwa [← htracks'.same.1, ← htracks'.same.homeId_eq, hinv.home] at hstore
  · intro labelPrefix rest db₁ zoneId db' version data hinv hhouses hzero _
    rcases hhouses with ⟨hne, -⟩ | ⟨-, -, -, ttl, rfl⟩
    · exact absurd hzero hne
    · refine Confined.insertZone ?_ ttl
      rw [← hinv.home, homeId, if_pos hzero]
  · exact fun _ _ _ _ _ _ hinv hhouses _ _ ↦ ⟨_, (hinv.houses hhouses).1⟩
  · intro labelPrefix rest db₁ zoneId db' version ttl data hinv hhouses hfree hknown hcarries
    obtain ⟨hinv', rfl⟩ := hinv.houses hhouses
    have habsent : ∀ row ∈ db'.rrsets, row.key ≠ (homeId db zone, labelPrefix, Label.nsRrType) := by
      by_cases hid : (resolveZone db₁ zone).id = 0
      · -- the zone is new, and so has no rows
        rcases hhouses with ⟨hne, -⟩ | ⟨-, -, hnext, _, rfl⟩
        · exact absurd hid hne
        · intro row hrow hkey
          obtain ⟨owner, howner, hownerId⟩ := hinv.noOrphans row hrow
          have hrowId : row.zoneId = homeId db zone := congrArg Prod.fst hkey
          exact Database.ne_nextRowId howner (hownerId.trans (hrowId.trans hnext))
      · exact hknown hid
    exact ⟨Confined.insertAuth (hinv.prefixes _ List.mem_cons_self) hcarries habsent ttl,
      hinv'.rest.insertRrset (hhouses.mem_zones hinv.stored) hfree ttl data⟩

/-- The label and type a file is for are those of the packet it holds. -/
theorem confined_addRrsetFromFile {zoneName inputDskCertName : Name} {inFile : String} {ttl : ℤ}
    {needResign : Bool} (hvalid : db.Valid)
    (hpacket : ∀ packet, FileHolds services inFile packet → InZone zoneName packet.data.name) :
    Meets services AnyChange (addRrsetFromFile zoneName inFile ttl inputDskCertName needResign) db
      fun _ db' ↦ db' = db ∨ ∃ packet label type version, FileHolds services inFile packet ∧
        packet.data.name = Label.recordName zoneName label type ++ [version] ∧
        Confined zoneName (homeId db (Zone.named zoneName)) label type db db' := by
  refine meets_addRrsetFromFile (fun _ ↦ Or.inl rfl) ?_
  intro _ _ packet _ _ _ data wire _ re hid hload hresign hparse
  have hholds := holds_of_loadData hload
  obtain ⟨label, type, version, hname⟩ := eq_recordName_of_inZone (hpacket packet hholds)
  obtain ⟨flag, hre⟩ := fromData_of_parseRrset hparse
  obtain ⟨-, hdataName, -, -⟩ := fromData_of_resign hresign
  obtain ⟨-, hlabel, htype, -⟩ := Clients.Response.fromData_eq_ok (hdataName.trans hname) hre
  have hresolve := resolveZone_named db zoneName
  have hstored : (lookupZone db (Zone.named zoneName)).Stored db := by
    rw [← hresolve]
    exact (Zone.Resolves.resolveZone db (Zone.named zoneName)).stored fun hne ↦ absurd rfl hne
  have hhome : homeId db (lookupZone db (Zone.named zoneName)) =
      homeId db (Zone.named zoneName) := by
    rw [← hresolve, homeId, resolveZone_resolveZone, homeId]
  refine (((confined_store hvalid rfl rfl hstored).change (Confined.refl _ _ _ _)
    Confined.trans).mono fun _ _ _ ↦ trivial).weaken fun _ db' hend ↦ ?_
  have hconfined := hend.2
  rw [hhome, lookupZone_name, hlabel, htype] at hconfined
  exact Or.inr ⟨packet, label, type, version, hholds, hname, hconfined⟩

theorem confined_removeRrSet {zoneName label : Name} {type : Component} (hvalid : db.Valid) :
    Meets services (Confined zoneName (homeId db (Zone.named zoneName)) label type)
      (removeRrSet zoneName label type) db fun _ _ ↦ True := by
  refine meets_removeRrSet trivial fun row hid hrow ↦ ?_
  rw [resolveZone_named] at hid hrow ⊢
  have hhome := homeId_named hid
  obtain ⟨hmem, hkey⟩ := key_of_keyRow hrow
  refine ⟨Confined.deleteRrset fun other hother hsame ↦ ?_, confined_generateDoe fun _ ↦ ?_⟩
  · rw [List.inj_on_of_nodup_map hvalid.ids hother hmem hsame, hkey, hhome]
  · rw [hhome]
    exact lookupZone_id_congr rfl (lookupZone_name _ _)

end Storing

/-! ## Zones -/

/-- A new zone gets an id that no zone has. -/
theorem within_createZone {zoneName parentZoneName kskCertName dskCertName dkeyCertName : Name}
    {cacheTtl : ℤ} (hvalid : db.Valid) :
    Meets services (Within zoneName (nextRowId (db.zones.map ZoneRow.id)))
      (createZone zoneName parentZoneName cacheTtl kskCertName dskCertName dkeyCertName) db
      fun _ _ ↦ True := by
  refine @meets_createZone _ services _ db _ zoneName parentZoneName kskCertName dskCertName
    dkeyCertName cacheTtl (fun _ ↦ True) (fun db' ↦ db'.Valid ∧ ∃ row ∈ db'.zones,
      row.id = nextRowId (db.zones.map ZoneRow.id) ∧ row.name = zoneName) trivial ?_
  intro _ _ _ _ _ _ _ _ _ _ _ _
  refine ⟨trivial, fun _ _ ↦ trivial, fun _ hinv ↦ hinv.1, fun ttl hnames ↦ ?_, ?_, ?_, ?_⟩
  · exact ⟨Within.insertZone _ _ _ _, hvalid.insertZone ttl hnames, _,
      List.mem_append_right _ List.mem_cons_self, rfl, rfl⟩
  · intro cert _ db' version ttl data hinv _ _ habsent
    exact ⟨Within.insertRrset _ _ _ _ _ _ _ _,
      hinv.1.insertRrset ttl data fun row hrow hindex ↦ habsent row hrow (key_of_indexKey hindex),
      hinv.2⟩
  · exact fun db' key value hinv ↦ ⟨Within.insertZoneInfo _ _ _ _ _,
      hinv.1.insertZoneInfo _ _ _, hinv.2⟩
  · rintro db' stored ⟨hvalid', row, hrow, hid, hname⟩ hstoredName
    have hhome : (lookupZone db' stored).id ≠ 0 →
        (lookupZone db' stored).id = nextRowId (db.zones.map ZoneRow.id) := by
      intro hne
      obtain ⟨found, hfound, hfoundName, hlookup⟩ := lookupZone_id_eq hne
      rw [hlookup, List.inj_on_of_nodup_map hvalid'.zoneNames hfound hrow
        (hfoundName.trans (hstoredName.trans hname.symm)), hid]
    refine ((tryMeets_generateDoe fun db₁ db₂ h₁ h₂ ↦ ?_).valid hvalid').weaken
      fun outcome db'' hend ↦ ⟨hend.2, row, ?_, hid, hname⟩
    · exact (h₁.within hhome zoneName).1.symm.trans (h₂.within hhome zoneName).1
    · rw [(hend.1.rebuilding.within hhome zoneName).2.1]
      exact hrow

end ManagementTool

/-! ## Updates -/

theorem confined_updateDatabase {server : NameServer} {re : Label.MatchResult} {packet : Received}
    {db : Database} (hvalid : db.Valid) :
    Confined server.zone.name server.zone.id re.rrLabel re.rrType db
      (NameServer.updateDatabase server re packet db).1 := by
  unfold NameServer.updateDatabase
  cases hrow : keyRow db server.zone.id re.rrLabel re.rrType with
  | none => exact Confined.insertRrset _ _ _ _
  | some row =>
      simp only
      split_ifs
      · exact Confined.refl _ _ _ _ _
      · obtain ⟨hmem, hkey⟩ := key_of_keyRow hrow
        refine Confined.updateRrset (fun other hother hsame ↦ ?_) _ _ _
        rw [List.inj_on_of_nodup_map hvalid.ids hother hmem hsame, hkey]
      · exact Confined.refl _ _ _ _ _

/-! ## The frame -/

/-- In the zone with the name, the records under other labels and types are what they were, but for
new AUTH records at proper prefixes of the label. -/
def SparesOthers (zoneName label : Name) (type : Component) (db db' : Database) : Prop :=
  (∀ row ∈ db.zones, row ∈ db'.zones) ∧ ∀ zone ∈ db'.zones, zone.name = zoneName →
    ∃ created, bystanders db' zone.id label type = bystanders db zone.id label type ++ created ∧
      ∀ row ∈ created, IsNewAuth zoneName zone.id label db row

theorem Confined.sparesOthers {db db' : Database} {zoneName label : Name} {type : Component}
    {home : ℕ} (h : Confined zoneName home label type db db')
    (hhome : IsHome db zoneName home) : SparesOthers zoneName label type db db' := by
  refine ⟨h.kept, fun zone hzone hname ↦ ?_⟩
  rw [h.named hhome.named zone hzone hname]
  exact h.bystanders

namespace Edit

/-- An operation on the zone with a name: new record objects of the zone, and packets that are named
after it. -/
def BoundTo {Keys : Type} (services : Services Keys) (db : Database) (zoneName : Name) : Edit → Prop
  | .operation (.createZone name _ _ _ _ _) => name = zoneName
  | .operation (.addRrset rrset) => rrset.id = 0 ∧
      ∃ zone, rrset.zone = some zone ∧ zone.name = zoneName ∧ zone.Stored db
  | .operation (.addMultiLevelLabelRrset rrset zoneRrFactory _) => rrset.id = 0 ∧
      ∃ zone, rrset.zone = some zone ∧ zone.name = zoneName ∧ zone.Stored db ∧
        ManagementTool.SameZone db zone zoneRrFactory.zone
  | .operation (.addRrsetFromFile name inFile _ _ _) => name = zoneName ∧
      ∀ packet, ManagementTool.FileHolds services inFile packet → InZone zoneName packet.data.name
  | .operation (.removeRrSet name _ _) => name = zoneName
  | .operation (.doUpdate server _ packet) => server.zone.name = zoneName ∧
      Listed db server.zone ∧ InZone zoneName packet.data.name
  | .deleteZone name => name = zoneName

/-- The operation adds, updates or removes a record. -/
def WritesRecord : Edit → Prop
  | .operation (.createZone _ _ _ _ _ _) | .deleteZone _ => False
  | _ => True

/-- The label and type an operation is for. -/
def Targets {Keys : Type} (services : Services Keys) (label : Name) (type : Component) :
    Edit → Prop
  | .operation (.addRrset rrset) | .operation (.addMultiLevelLabelRrset rrset _ _) =>
      rrset.label = label ∧ rrset.type = type
  | .operation (.addRrsetFromFile zoneName inFile _ _ _) => ∃ packet version,
      ManagementTool.FileHolds services inFile packet ∧
        packet.data.name = Label.recordName zoneName label type ++ [version]
  | .operation (.removeRrSet _ removedLabel removedType) =>
      removedLabel = label ∧ removedType = type
  | .operation (.doUpdate server _ packet) => ∃ version,
      packet.data.name = Label.recordName server.zone.name label type ++ [version]
  | _ => False

variable {Keys : Type} {services : Services Keys} {db : Database} {zoneName : Name} {edit : Edit}

/-- The tables before and after the operation: nothing outside of the zone has changed, and an
operation for a record has spared the others. -/
def Framed {Keys : Type} (services : Services Keys) (zoneName : Name) (edit : Edit)
    (db db' : Database) : Prop :=
  Undisturbed zoneName db db' ∧ (edit.WritesRecord → db' = db ∨
    ∃ label type, edit.Targets services label type ∧ SparesOthers zoneName label type db db')

theorem framed_of_confined {label : Name} {type : Component} {home : ℕ} {db' : Database}
    (hids : ∀ zone ∈ db.zones, zone.id < 2 ^ 31) (hhome : IsHome db zoneName home)
    (htarget : edit.Targets services label type)
    (h : Confined zoneName home label type db db') : edit.Framed services zoneName db db' :=
  ⟨h.within.undisturbed hids hhome.ne hhome.le,
    fun _ ↦ Or.inr ⟨label, type, htarget, h.sparesOthers hhome⟩⟩

theorem meets_framed {Value : Type} {program : Prog Value} {label : Name} {type : Component}
    {home : ℕ} (hids : ∀ zone ∈ db.zones, zone.id < 2 ^ 31) (hhome : IsHome db zoneName home)
    (htarget : edit.Targets services label type)
    (h : Meets services (Confined zoneName home label type) program db fun _ _ ↦ True) :
    Meets services AnyChange program db fun _ db' ↦ edit.Framed services zoneName db db' :=
  ((h.change (Confined.refl _ _ _ _) Confined.trans).mono fun _ _ _ ↦ trivial).weaken
    fun _ _ hend ↦ framed_of_confined hids hhome htarget hend.2

/-- An operation on a zone with other results than records. -/
theorem meets_framed_zone {Value : Type} {program : Prog Value} {home : ℕ}
    (hids : ∀ zone ∈ db.zones, zone.id < 2 ^ 31)
    (hne : ∀ zone ∈ db.zones, zone.name ≠ zoneName → zone.id ≠ home) (hle : home ≤ 2 ^ 31)
    (hwrites : ¬ edit.WritesRecord)
    (h : Meets services (Within zoneName home) program db fun _ _ ↦ True) :
    Meets services AnyChange program db fun _ db' ↦ edit.Framed services zoneName db db' :=
  ((h.change (Within.refl _ _) Within.trans).mono fun _ _ _ ↦ trivial).weaken
    fun _ _ hend ↦ ⟨hend.2.undisturbed hids hne hle, fun hrecord ↦ absurd hrecord hwrites⟩

/-- An operation on one zone changes no row of another one, and among the records of the zone those
it is for, whether it returns or throws. -/
theorem BoundTo.framed (h : edit.BoundTo services db zoneName) (hvalid : db.Valid)
    (horphans : NoOrphans db) (hids : ∀ zone ∈ db.zones, zone.id < 2 ^ 31) (keys : Keys) :
    edit.Framed services zoneName db
      (edit.program.run (World.handle services) ⟨db, keys⟩).2.db := by
  have hhome : ∀ zone : Zone, zone.Stored db →
      IsHome db zone.name (ManagementTool.homeId db zone) :=
    fun _ hstored ↦ isHome_homeId hvalid hids hstored
  have hnamed : ∀ name, IsHome db name (ManagementTool.homeId db (Zone.named name)) :=
    fun name ↦ hhome (Zone.named name) fun hne ↦ absurd rfl hne
  have hmeets : Meets services AnyChange edit.program db
      fun _ db' ↦ edit.Framed services zoneName db db' := by
    cases edit with
    | deleteZone name =>
        obtain rfl : name = zoneName := h
        exact (meets_framed_zone hids (hnamed name).ne (hnamed name).le id
          (ManagementTool.within_deleteZone hvalid)).discard _
    | operation writing =>
        cases writing with
        | createZone name parentZoneName cacheTtl kskCertName dskCertName dkeyCertName =>
            obtain rfl : name = zoneName := h
            have hle : nextRowId (db.zones.map ZoneRow.id) ≤ 2 ^ 31 := by
              refine nextRowId_le (by decide) fun id hid ↦ ?_
              obtain ⟨row, hrow, rfl⟩ := List.mem_map.mp hid
              exact hids row hrow
            exact (meets_framed_zone hids (fun zone hzone _ ↦ Database.ne_nextRowId hzone) hle id
              (ManagementTool.within_createZone hvalid)).discard _
        | addRrset rrset =>
            obtain ⟨hnew, zone, hzone, rfl, hstored⟩ := h
            have htarget : Targets services rrset.label rrset.type
                (.operation (.addRrset rrset)) := ⟨rfl, rfl⟩
            exact (meets_framed hids (hhome zone hstored) htarget
              (ManagementTool.confined_addRrset hvalid hnew hzone hstored)).discard _
        | addMultiLevelLabelRrset rrset zoneRrFactory authTtl =>
            obtain ⟨hnew, zone, hzone, rfl, hstored, hsame⟩ := h
            have htarget : Targets services rrset.label rrset.type
                (.operation (.addMultiLevelLabelRrset rrset zoneRrFactory authTtl)) := ⟨rfl, rfl⟩
            exact (meets_framed hids (hhome zone hstored) htarget
              (ManagementTool.confined_addMultiLevelLabelRrset hvalid horphans hnew hzone hstored
                hsame)).discard _
        | addRrsetFromFile name inFile ttl inputDskCertName needResign =>
            obtain ⟨rfl, hpacket⟩ := h
            have hunchanged : Framed services name
                (.operation (.addRrsetFromFile name inFile ttl inputDskCertName needResign)) db db :=
              ⟨(Within.refl _ _ _).undisturbed hids (hnamed name).ne (hnamed name).le,
                fun _ ↦ Or.inl rfl⟩
            refine ((ManagementTool.confined_addRrsetFromFile hvalid hpacket).weaken ?_).discard _
            rintro _ db' (rfl | ⟨packet, label, type, version, hholds, hname, hconfined⟩)
            · exact hunchanged
            · exact framed_of_confined hids (hnamed name) ⟨packet, version, hholds, hname⟩ hconfined
        | removeRrSet name label type =>
            obtain rfl : name = zoneName := h
            have htarget : Targets services label type
                (.operation (.removeRrSet name label type)) := ⟨rfl, rfl⟩
            exact (meets_framed hids (hnamed name) htarget
              (ManagementTool.confined_removeRrSet hvalid)).discard _
        | doUpdate server interest packet =>
            obtain ⟨rfl, ⟨row, hrow, hrowId, hrowName⟩, hpacket⟩ := h
            have hserver : ManagementTool.homeId db server.zone = server.zone.id := by
              have hresolve : resolveZone db server.zone = server.zone :=
                if_neg server.zone_found.ne'
              rw [ManagementTool.homeId, hresolve, if_neg server.zone_found.ne']
            have hserverHome := hhome server.zone fun _ ↦ ⟨row, hrow, hrowId, hrowName⟩
            rw [hserver] at hserverHome
            obtain ⟨label, type, version, hname⟩ := eq_recordName_of_inZone hpacket
            have hupdate := @meets_doUpdate _ services db _ server interest packet
              (Framed services server.zone.name (.operation (.doUpdate server interest packet)) db)
              hvalid ⟨(Within.refl _ _ _).undisturbed hids hserverHome.ne hserverHome.le,
                fun _ ↦ Or.inl rfl⟩ ?_
            · refine hupdate.bind (fun answer _ hend ↦ ?_) fun _ _ hend ↦ hend
              cases answer <;> exact meets_pure hend
            · intro re hmatch
              rw [hname, Label.matchDataName_recordName, Label.MatchOutcome.matched.injEq] at hmatch
              have hconfined := @confined_updateDatabase _ server re packet db hvalid
              rw [← hmatch] at hconfined ⊢
              exact framed_of_confined hids hserverHome ⟨version, hname⟩ hconfined
  exact hmeets.run keys

end Edit

end Operations

section Examples

open LocalServices

attribute [local instance] ndnPacketFormat

/-- The first record of the zone /o is no matter to the zone /n. -/
theorem framed_orgAddition : orgAddition.Framed localServices [letter 111] createdDatabase
    (orgAddition.program.run (World.handle localServices) ⟨createdDatabase, 0⟩).2.db := by
  have hbound : orgAddition.BoundTo localServices createdDatabase [letter 111] :=
    ⟨rfl, Zone.named [letter 111], rfl, rfl, fun hne ↦ absurd rfl hne⟩
  exact hbound.framed (creation_step.valid Database.valid_empty) (by unfold NoOrphans; decide +kernel)
    (by decide +kernel) 0

end Examples

end Ndns.Mgmt
