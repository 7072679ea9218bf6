import Ndns.Mgmt.ZoneListing

/-!
# The Zones of one Database

Creations, removals of zones and additions of records leave every zone of the database served, not
only the one they are for.  A removal takes all rows of its zone, so that a zone made later starts
without records even when it is given the same id.
-/

namespace Ndns.Mgmt

open Ndn Calls Daemon DbMgr ManagementTool

/-! ## Removals -/

section Removals

variable {Keys : Type} {services : Services Keys} {world world' : World Keys}

theorem run_removeAll {rrsets : List Rrset} (hids : ∀ rrset ∈ rrsets, rrset.id ≠ 0) :
    (removeAll rrsets).run (World.handle services) world =
      (.ok (), { world with db := { world.db with
        rrsets := world.db.rrsets.filter fun row ↦ row.id ∉ rrsets.map Rrset.id } }) := by
  induction rrsets generalizing world with
  | nil => simp [removeAll]
  | cons rrset rest ih =>
      rw [removeAll, Program.run_bind, run_removeRrset (hids rrset List.mem_cons_self)]
      simp only
      rw [ih fun other hother ↦ hids other (List.mem_cons_of_mem _ hother), Database.deleteRrset,
        List.filter_filter]
      have hrows : world.db.rrsets.filter (fun row ↦ row.id ∉ rest.map Rrset.id ∧
          row.id ≠ rrset.id) = world.db.rrsets.filter fun row ↦
            row.id ∉ (rrset :: rest).map Rrset.id := by
        refine List.filter_congr fun row _ ↦ ?_
        rw [decide_eq_decide, List.map_cons, List.mem_cons, not_or]
        exact and_comm
      rw [← hrows]
      simp

theorem run_removeZone {zone : Zone} (hid : zone.id ≠ 0) :
    (DbMgr.removeZone zone).run (World.handle services) world =
      (.ok (Zone.named []), { world with db := { world.db with
        zones := world.db.zones.filter fun other ↦ other.id ≠ zone.id } }) := by
  rw [DbMgr.removeZone, if_neg hid]
  rfl

/-- The tables without a zone. -/
def withoutZone (db : Database) (zoneId : ℕ) : Database :=
  { db with
    zones := db.zones.filter fun zone ↦ zone.id ≠ zoneId
    rrsets := db.rrsets.filter fun row ↦ row.zoneId ≠ zoneId }

/-- A removal takes a zone and all of its rows. -/
theorem returns_deleteZone {zoneName : Name} (hvalid : world.db.Valid)
    (h : (deleteZone zoneName).Returns (World.handle services) world () world') :
    ∃ zone ∈ world.db.zones, zone.name = zoneName ∧ world'.db = withoutZone world.db zone.id := by
  obtain ⟨found, _, hfind, h⟩ := Program.returns_bind.mp h
  obtain ⟨hlookup, rfl⟩ := (Program.returns_iff_of_run (run_findZone _ _)).mp hfind
  obtain ⟨_, _, hrequire, h⟩ := Program.returns_bind.mp h
  obtain ⟨hid, rfl⟩ := returns_require.mp hrequire
  obtain ⟨rrsets, _, hselect, h⟩ := Program.returns_bind.mp h
  obtain ⟨hrrsets, rfl⟩ := (Program.returns_iff_of_run (run_findRrsets hid _)).mp hselect
  have hids : ∀ rrset ∈ rrsets, rrset.id ≠ 0 := by
    intro rrset hrrset
    rw [← hrrsets] at hrrset
    obtain ⟨row, hrow, rfl⟩ := List.mem_map.mp hrrset
    exact (hvalid.ids_pos row (mem_zoneRows.mp hrow).1).ne'
  obtain ⟨_, middle, hremove, h⟩ := Program.returns_bind.mp h
  obtain ⟨-, rfl⟩ := (Program.returns_iff_of_run (run_removeAll hids)).mp hremove
  obtain ⟨again, _, hagain, h⟩ := Program.returns_bind.mp h
  obtain ⟨hagainLookup, rfl⟩ := (Program.returns_iff_of_run (run_findZone _ _)).mp hagain
  rw [← hlookup] at hid
  obtain ⟨zone, hzone, hname, hfound⟩ := lookupZone_id_eq hid
  have hfoundId : found.id = zone.id := by rw [← hlookup, hfound]
  have hagainId : again.id = zone.id := by
    rw [← hagainLookup, ← hfoundId, ← hlookup]
    exact lookupZone_id_congr rfl (lookupZone_name _ _)
  have hrows : world.db.rrsets.filter (fun row ↦ row.id ∉ rrsets.map Rrset.id) =
      world.db.rrsets.filter fun row ↦ row.zoneId ≠ zone.id := by
    refine List.filter_congr fun row hrow ↦ ?_
    rw [decide_eq_decide, not_iff_not, ← hrrsets, List.map_map, List.mem_map, hfoundId]
    constructor
    · rintro ⟨other, hother, hsame⟩
      obtain ⟨hmem, hzoneId⟩ := mem_zoneRows.mp hother
      rw [← hzoneId, List.inj_on_of_nodup_map hvalid.ids hmem hrow hsame]
    · intro hzoneId
      exact ⟨row, mem_zoneRows.mpr ⟨hrow, hzoneId⟩, rfl⟩
  refine ⟨zone, hzone, hname, ?_⟩
  have hne : again.id ≠ 0 := by
    rw [hagainId, ← hfoundId, ← hlookup]
    exact hid
  rw [if_neg hne] at h
  obtain ⟨_, _, hgone, h⟩ := Program.returns_bind.mp h
  obtain ⟨-, rfl⟩ := Program.returns_pure.mp h
  obtain ⟨-, rfl⟩ := (Program.returns_iff_of_run (run_removeZone hne)).mp hgone
  rw [withoutZone, ← hrows, hagainId]

end Removals

/-! ## Hosted zones -/

section

variable [PacketFormat]

/-- Every zone of the database is served. -/
structure Hosts (db : Database) : Prop where
  valid : db.Valid
  noOrphans : NoOrphans db
  serves : ∀ zone ∈ db.zones, Serves zone.name zone.id db

theorem hosts_empty : Hosts Database.empty :=
  ⟨Database.valid_empty, by simp [NoOrphans, Database.empty], by simp [Database.empty]⟩

/-- What a zone is served with are its rows. -/
theorem Serves.of_rows {zoneName : Name} {zoneId : ℕ} {db db' : Database}
    (h : Serves zoneName zoneId db) (hvalid : db'.Valid)
    (hzone : ∃ row ∈ db'.zones, row.id = zoneId ∧ row.name = zoneName)
    (hrows : rowsOf db' zoneId = rowsOf db zoneId) : Serves zoneName zoneId db' := by
  have hrecords : records db' zoneId = records db zoneId := by
    rw [records_eq_rowsOf, hrows, ← records_eq_rowsOf]
  refine ⟨hvalid, hzone, hrecords.symm ▸ h.shape, ?_⟩
  rw [Chained, denials_eq_rowsOf, hrows, ← denials_eq_rowsOf, recordNames, hrecords, ← recordNames]
  exact h.chained

/-- A change of the zones of a database with one of the tools, by any process; only some zones may be
removed. -/
inductive ManagesZones (mayDelete : Name → Prop) (db db' : Database) : Prop
  | creates {Keys : Type} {services : Services Keys} {keys keys' : Keys} {zone : Zone}
      {zoneName parentZoneName kskCertName dskCertName dkeyCertName : Name} {cacheTtl : ℤ}
      (h : (createZone zoneName parentZoneName cacheTtl kskCertName dskCertName
        dkeyCertName).Returns (World.handle services) ⟨db, keys⟩ zone ⟨db', keys'⟩)
  | deletes {Keys : Type} {services : Services Keys} {keys keys' : Keys} {zoneName : Name}
      (hmay : mayDelete zoneName)
      (h : (deleteZone zoneName).Returns (World.handle services) ⟨db, keys⟩ () ⟨db', keys'⟩)
  | adds (h : AddsRecord db db')

variable {mayDelete : Name → Prop} {db db' : Database}

/-- A creation adds a zone with the next id, and rows under this id only. -/
theorem created_of_returns {Keys : Type} {services : Services Keys} {keys keys' : Keys} {zone : Zone}
    {zoneName parentZoneName kskCertName dskCertName dkeyCertName : Name} {cacheTtl : ℤ}
    (hvalid : db.Valid) (hcreate : (createZone zoneName parentZoneName cacheTtl kskCertName
      dskCertName dkeyCertName).Returns (World.handle services) ⟨db, keys⟩ zone ⟨db', keys'⟩) :
    zone.id = nextRowId (db.zones.map ZoneRow.id) ∧
      db'.zones = db.zones ++ [⟨zone.id, zoneName, int32 cacheTtl⟩] ∧
      ∀ other ≠ zone.id, rowsOf db' other = rowsOf db other := by
  have hends := @createZone_ends _ services db _ zoneName parentZoneName kskCertName dskCertName
    dkeyCertName cacheTtl hvalid keys
  rw [show (createZone zoneName parentZoneName cacheTtl kskCertName dskCertName dkeyCertName).run
    (World.handle services) ⟨db, keys⟩ = _ from hcreate] at hends
  obtain ⟨_, _, _, _, -, -, -, hestablished⟩ := hends
  obtain ⟨-, hwithin⟩ := ((@within_createZone _ _ services db zoneName parentZoneName kskCertName
    dskCertName dkeyCertName cacheTtl hvalid).change (Within.refl _ _) Within.trans).run keys
  rw [hcreate] at hwithin
  have hnew : zone.id = nextRowId (db.zones.map ZoneRow.id) := hestablished.object.2
  rw [← hnew] at hwithin
  exact ⟨hnew, hestablished.zones, hwithin.rows⟩

theorem Hosts.creates {Keys : Type} {services : Services Keys} {keys keys' : Keys} {zone : Zone}
    {zoneName parentZoneName kskCertName dskCertName dkeyCertName : Name} {cacheTtl : ℤ}
    (h : Hosts db) (hcreate : (createZone zoneName parentZoneName cacheTtl kskCertName dskCertName
      dkeyCertName).Returns (World.handle services) ⟨db, keys⟩ zone ⟨db', keys'⟩) : Hosts db' := by
  have hvalid : db'.Valid := valid_of_returns h.valid hcreate
  obtain ⟨hnew, hzones, hrows⟩ := created_of_returns h.valid hcreate
  have hne : ∀ row ∈ db.zones, row.id ≠ zone.id :=
    fun row hrow ↦ hnew ▸ Database.ne_nextRowId hrow
  refine ⟨hvalid, fun row hrow ↦ ?_, fun row hrow ↦ ?_⟩
  · by_cases hsame : row.zoneId = zone.id
    · exact ⟨_, hzones ▸ List.mem_append_right _ List.mem_cons_self, hsame.symm⟩
    · have hmem : row ∈ rowsOf db' row.zoneId := List.mem_filter.mpr ⟨hrow, decide_eq_true rfl⟩
      rw [hrows _ hsame] at hmem
      obtain ⟨owner, howner, hid⟩ := h.noOrphans row (List.mem_of_mem_filter hmem)
      exact ⟨owner, hzones ▸ List.mem_append_left _ howner, hid⟩
  · rw [hzones] at hrow
    rcases List.mem_append.mp hrow with hold | hcreated
    · exact (h.serves row hold).of_rows hvalid
        ⟨row, hzones ▸ List.mem_append_left _ hold, rfl, rfl⟩ (hrows _ (hne row hold))
    · rw [List.mem_singleton.mp hcreated]
      have hworld : Hosts (World.mk db keys).db := h
      exact serves_createZone hworld.valid hworld.noOrphans hcreate

theorem Hosts.deletes {Keys : Type} {services : Services Keys} {keys keys' : Keys} {zoneName : Name}
    (h : Hosts db)
    (hdelete : (deleteZone zoneName).Returns (World.handle services) ⟨db, keys⟩ () ⟨db', keys'⟩) :
    Hosts db' := by
  have hvalid : db'.Valid := valid_of_returns h.valid hdelete
  obtain ⟨zone, -, -, hdb⟩ := returns_deleteZone h.valid hdelete
  obtain rfl : db' = withoutZone db zone.id := hdb
  refine ⟨hvalid, fun row hrow ↦ ?_, fun row hrow ↦ ?_⟩
  · obtain ⟨hmem, hkept⟩ := List.mem_filter.mp hrow
    obtain ⟨owner, howner, hid⟩ := h.noOrphans row hmem
    refine ⟨owner, List.mem_filter.mpr ⟨howner, ?_⟩, hid⟩
    rwa [hid]
  · obtain ⟨hmem, hkept⟩ := List.mem_filter.mp hrow
    have hne : row.id ≠ zone.id := of_decide_eq_true hkept
    refine (h.serves row hmem).of_rows hvalid ⟨row, hrow, rfl, rfl⟩ ?_
    rw [rowsOf, withoutZone, List.filter_filter, rowsOf]
    refine List.filter_congr fun other _ ↦ ?_
    by_cases hother : other.zoneId = row.id
    · simp [hother, hne]
    · simp [hother]

theorem Hosts.adds (h : Hosts db) (hadds : AddsRecord db db') : Hosts db' := by
  obtain ⟨horphans, -⟩ := others_addsRecord h.valid h.noOrphans hadds
  have hserves : ∀ zone ∈ db.zones, Serves zone.name zone.id db' :=
    fun zone hzone ↦ (h.serves zone hzone).addsRecord hadds
  obtain ⟨Keys, services, keys, keys', other, label, dsk, type, version, ttl, delegations, strings,
    htype, hreturns⟩ := hadds
  have hvalid : db'.Valid := valid_of_returns h.valid hreturns
  obtain ⟨factory, _, _, -, hfactory, hid, -⟩ := returns_addRr htype hreturns
  obtain ⟨found, hfound, hfoundName, -⟩ := lookupZone_id_eq (hfactory ▸ hid)
  have htouches : Touches other db db' := touches_addRr h.valid htype hreturns
  refine ⟨hvalid, horphans, fun zone hzone ↦ ?_⟩
  rcases htouches.new zone hzone with hold | hname
  · exact hserves zone hold
  · -- the zone was there before the addition
    obtain rfl := List.inj_on_of_nodup_map hvalid.zoneNames hzone (htouches.kept found hfound)
      (hname.trans hfoundName.symm)
    exact hserves zone hfound

theorem Hosts.manages (h : Hosts db) (hmanages : ManagesZones mayDelete db db') : Hosts db' := by
  cases hmanages with
  | creates hcreate => exact h.creates hcreate
  | deletes _ hdelete => exact h.deletes hdelete
  | adds hadds => exact h.adds hadds

/-- A zone that may not be removed stays, with its id. -/
theorem Hosts.keeps (h : Hosts db) (hmanages : ManagesZones mayDelete db db') {zone : ZoneRow}
    (hzone : zone ∈ db.zones) (hkept : ¬ mayDelete zone.name) : zone ∈ db'.zones := by
  cases hmanages with
  | creates hcreate =>
      obtain ⟨-, hzones, -⟩ := created_of_returns h.valid hcreate
      exact hzones ▸ List.mem_append_left _ hzone
  | deletes hmay hdelete =>
      obtain ⟨removed, hremoved, hname, hdb⟩ := returns_deleteZone h.valid hdelete
      obtain rfl : db' = withoutZone db removed.id := hdb
      refine List.mem_filter.mpr ⟨hzone, decide_eq_true fun hid ↦ hkept ?_⟩
      rwa [List.inj_on_of_nodup_map h.valid.zoneIds hzone hremoved hid, hname]
  | adds hadds =>
      obtain ⟨Keys, services, keys, keys', other, label, dsk, type, version, ttl, delegations,
        strings, htype, hreturns⟩ := hadds
      have htouches : Touches other db db' := touches_addRr h.valid htype hreturns
      exact htouches.kept zone hzone

/-- Whatever zones have been made, removed and added to, all that are there are served, and those
that may not be removed stay. -/
theorem hosts_run (h : Hosts db) (hmanages : Relation.ReflTransGen (ManagesZones mayDelete) db db') :
    Hosts db' ∧ ∀ zone ∈ db.zones, ¬ mayDelete zone.name → zone ∈ db'.zones := by
  induction hmanages with
  | refl => exact ⟨h, fun _ hzone _ ↦ hzone⟩
  | tail _ hstep ih =>
      obtain ⟨hhosts, hkeeps⟩ := ih
      exact ⟨hhosts.manages hstep,
        fun zone hzone hkept ↦ hhosts.keeps hstep (hkeeps zone hzone hkept) hkept⟩

end

end Ndns.Mgmt
