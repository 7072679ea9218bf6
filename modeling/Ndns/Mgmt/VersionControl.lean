import Ndns.Mgmt.ZoneContracts

/-!
# One Current Version of each Record

The unique index of the records includes the version, so it allows several versions of one record.
That there is never more than one comes from what the operations find out before they insert, and
no version is replaced by an older one.  The exception is an addition that creates its zone: the
zone may be given an id that rows of a removed zone still carry.
-/

namespace Ndns.Daemon.Database

open Ndn DbMgr

variable {db db' db'' : Database}

/-! ## One row for each key -/

theorem singleVersion_empty : empty.SingleVersion := List.nodup_nil

theorem SingleVersion.sublist (h : db.SingleVersion) (hrows : db'.rrsets.Sublist db.rrsets) :
    db'.SingleVersion := List.Nodup.sublist (hrows.map _) h

theorem SingleVersion.insertRrset (h : db.SingleVersion) {zoneId : ℕ} {label : Name}
    {type : Component} (habsent : ∀ row ∈ db.rrsets, row.key ≠ (zoneId, label, type))
    (version : Component) (ttl : ℤ) (data : Block) :
    (db.insertRrset zoneId label type version ttl data).SingleVersion :=
  nodup_map_append_singleton h habsent

theorem SingleVersion.updateRrset (h : db.SingleVersion) (id : ℕ) (ttl : ℤ) (version : Component)
    (data : Block) : (db.updateRrset id ttl version data).SingleVersion := by
  have hkeys : (db.updateRrset id ttl version data).rrsets.map RrsetRow.key =
      db.rrsets.map RrsetRow.key := by
    rw [Database.updateRrset, List.map_map]
    refine List.map_congr_left fun row _ ↦ ?_
    simp only [Function.comp]
    split_ifs <;> rfl
  rw [SingleVersion, hkeys]
  exact h

/-! ## Newer versions -/

/-- Every record is still there, in a version that is not older, unless its key was removed.
Denial records are not meant. -/
def Advances (removed : ℕ × Name × Component → Prop) (db db' : Database) : Prop :=
  ∀ row ∈ db.rrsets, row.type ≠ Label.doeRrType → ¬ removed row.key →
    ∃ row' ∈ db'.rrsets, row'.key = row.key ∧ row.version ≤ row'.version

variable {removed : ℕ × Name × Component → Prop}

theorem Advances.of_subset
    (h : ∀ row ∈ db.rrsets, row.type ≠ Label.doeRrType → ¬ removed row.key → row ∈ db'.rrsets) :
    Advances removed db db' :=
  fun row hrow htype hkey ↦ ⟨row, h row hrow htype hkey, rfl, le_rfl⟩

theorem Advances.refl (removed : ℕ × Name × Component → Prop) (db : Database) :
    Advances removed db db := of_subset fun _ hrow _ _ ↦ hrow

theorem Advances.trans (h : Advances removed db db') (h' : Advances removed db' db'') :
    Advances removed db db'' := by
  intro row hrow htype hkey
  obtain ⟨row', hrow', hkey', hversion⟩ := h row hrow htype hkey
  have htype' : row'.type ≠ Label.doeRrType := by
    have hsame : row'.type = row.type := congrArg (fun key ↦ key.2.2) hkey'
    rwa [hsame]
  obtain ⟨row'', hrow'', hkey'', hversion'⟩ := h' row' hrow' htype' (hkey'.symm ▸ hkey)
  exact ⟨row'', hrow'', hkey''.trans hkey', hversion.trans hversion'⟩

theorem Advances.weaken (h : Advances (fun _ ↦ False) db db') : Advances removed db db' :=
  fun row hrow htype _ ↦ h row hrow htype not_false

/-- A new version takes the place of an older one. -/
theorem Advances.replace {zoneId : ℕ} {rrset : Rrset} {cleared : Database} (hvalid : db.Valid)
    (hcleared : Cleared db zoneId rrset cleared) (hrows : db'.rrsets = cleared.rrsets) :
    Advances removed db (db'.insertRrset zoneId rrset.label rrset.type rrset.version rrset.ttl
      rrset.data) := by
  intro row hrow _ _
  by_cases hmem : row ∈ cleared.rrsets
  · exact ⟨row, List.mem_append_left _ (hrows ▸ hmem), rfl, le_rfl⟩
  · refine ⟨_, List.mem_append_right _ List.mem_cons_self, ?_⟩
    cases hcleared with
    | absent _ => exact absurd hrow hmem
    | @older old hid hold hversion =>
        obtain ⟨holdMem, hzone, hlabel, htype⟩ := keyRow_eq_some hold
        have hsame : row.id = old.id := by
          by_contra hne
          exact hmem (List.mem_filter.mpr ⟨hrow, by simpa using hne⟩)
        rw [List.inj_on_of_nodup_map hvalid.ids hrow holdMem hsame]
        exact ⟨by rw [RrsetRow.key, RrsetRow.key, hzone, hlabel, htype], hversion.le⟩

end Ndns.Daemon.Database

namespace Ndns.Mgmt

open Ndn Calls Daemon DbMgr Database

/-! ## What keeps the records -/

/-- The constraints of the schema, one row for each key, and no record in an older version than in
the tables to start with. -/
structure Kept (removed : ℕ × Name × Component → Prop) (initial db : Database) : Prop where
  valid : db.Valid
  single : db.SingleVersion
  advances : Advances removed initial db

variable {Keys : Type} {services : Services Keys} {initial db db' : Database}
  {removed : ℕ × Name × Component → Prop}

theorem Kept.refl (hvalid : db.Valid) (hsingle : db.SingleVersion) : Kept removed db db :=
  ⟨hvalid, hsingle, Advances.refl _ _⟩

theorem Kept.insertRrset (h : Kept removed initial db) {zoneId : ℕ} {label : Name} {type : Component}
    (habsent : ∀ row ∈ db.rrsets, row.key ≠ (zoneId, label, type)) (version : Component) (ttl : ℤ)
    (data : Block) : Kept removed initial (db.insertRrset zoneId label type version ttl data) where
  valid := h.valid.insertRrset ttl data fun row hrow hindex ↦ habsent row hrow (by
    simp only [RrsetRow.indexKey, Prod.mk.injEq] at hindex
    rw [RrsetRow.key, hindex.1, hindex.2.1, hindex.2.2.1])
  single := h.single.insertRrset habsent _ _ _
  advances := h.advances.trans (Advances.of_subset fun _ hrow _ _ ↦ List.mem_append_left _ hrow)

theorem Kept.insertZone (h : Kept removed initial db) {name : Name}
    (hnew : ∀ row ∈ db.zones, row.name ≠ name) (ttl : ℤ) :
    Kept removed initial (db.insertZone name ttl) :=
  ⟨h.valid.insertZone ttl hnew, h.single, h.advances⟩

theorem Kept.enters (h : Kept removed initial db) {name : Name} {zoneId : ℕ}
    (henters : Enters db name zoneId db') : Kept removed initial db' := by
  rcases henters with ⟨-, rfl⟩ | ⟨hnew, -, ttl, rfl⟩
  · exact h
  · exact h.insertZone hnew ttl

theorem Kept.insertZoneInfo (h : Kept removed initial db) (zoneId : ℤ) (key : String)
    (value : Block) : Kept removed initial (db.insertZoneInfo zoneId key value) :=
  ⟨h.valid.insertZoneInfo zoneId key value, h.single, h.advances⟩

/-- A record of a removed key may be deleted. -/
theorem Kept.deleteRrset (h : Kept removed initial db) {row : RrsetRow}
    (hremoved : ∀ other ∈ db.rrsets, other.id = row.id → removed other.key) :
    Kept removed initial (db.deleteRrset row.id) where
  valid := h.valid.filterRrsets _
  single := h.single.sublist List.filter_sublist
  advances := h.advances.trans (Advances.of_subset fun other hother _ hkey ↦
    List.mem_filter.mpr ⟨hother, decide_eq_true fun hid ↦ hkey (hremoved other hother hid)⟩)

/-- Nothing is asked of the single changes here. -/
abbrev AnyChange : Database → Database → Prop := fun _ _ ↦ True

theorem ManagementTool.keeps_deleteZone {zoneName : Name} (h : Kept removed initial db)
    (hremoved : ∀ row ∈ db.zones, row.name = zoneName → ∀ label type,
      removed (row.id, label, type)) :
    Meets services AnyChange (deleteZone zoneName) db fun _ db' ↦ Kept removed initial db' := by
  refine @meets_deleteZone _ services AnyChange db zoneName
    (fun db' ↦ Kept removed initial db' ∧ db'.rrsets.Sublist db.rrsets) _ ⟨h, List.Sublist.refl _⟩
    (fun _ hinv ↦ hinv.1) ?_ ?_
  · rintro hid row hrow hzoneId db' ⟨hkept, hrows⟩
    obtain ⟨zoneRow, hzoneRow, hname, hlookup⟩ := lookupZone_id_eq hid
    refine ⟨trivial, hkept.deleteRrset fun other hother hsame ↦ ?_, List.filter_sublist.trans hrows⟩
    rw [List.inj_on_of_nodup_map h.valid.ids (hrows.subset hother) hrow hsame, RrsetRow.key,
      hzoneId, hlookup]
    exact hremoved zoneRow hzoneRow hname _ _
  · rintro db' ⟨hkept, -⟩ -
    exact ⟨trivial, hkept.valid.filterZones _, hkept.single, hkept.advances⟩

section Operations

variable [PacketFormat]

/-- A regeneration, finished or not, leaves one row for each key. -/
theorem singleVersion_regenerated {zoneName : Name} {zoneId : ℕ} (hsingle : db.SingleVersion)
    (h : ManagementTool.Regenerated zoneName zoneId db db') : db'.SingleVersion := by
  obtain rfl | ⟨-, chain, hnodup, rows, hrows, rfl⟩ := h
  · exact hsingle
  · have hkeys : rows.map RrsetRow.key =
        (chain.map Prod.fst).map fun label ↦ (zoneId, label, Label.doeRrType) := by
      clear hnodup
      induction hrows with
      | nil => rfl
      | cons hhead _ ih =>
          rw [List.map_cons, List.map_cons, List.map_cons, ih, RrsetRow.key, hhead.zoneId,
            hhead.label, hhead.type]
    rw [SingleVersion, List.map_append, List.nodup_append]
    refine ⟨nodup_map_filter hsingle _, ?_, ?_⟩
    · rw [hkeys]
      exact hnodup.map fun left right hsame ↦ (Prod.mk.inj (Prod.mk.inj hsame).2).1
    · rintro _ hold _ hnew rfl
      obtain ⟨row, hrow, hkey⟩ := List.mem_map.mp hold
      rw [← hkey, hkeys] at hnew
      obtain ⟨label, -, hlabel⟩ := List.mem_map.mp hnew
      simp only [RrsetRow.key, Prod.mk.injEq] at hlabel
      have hkeep := (List.mem_filter.mp hrow).2
      rw [RrsetRow.hasType_iff.mpr ⟨hlabel.1.symm, hlabel.2.2.symm⟩] at hkeep
      cases hkeep

theorem Kept.regenerated (h : Kept removed initial db) {zoneName : Name} {zoneId : ℕ}
    (hregenerated : ManagementTool.Regenerated zoneName zoneId db db') (hvalid : db'.Valid) :
    Kept removed initial db' where
  valid := hvalid
  single := singleVersion_regenerated h.single hregenerated
  advances := by
    refine h.advances.trans (Advances.of_subset fun row hrow htype _ ↦ ?_)
    obtain rfl | ⟨-, chain, -, rows, -, rfl⟩ := hregenerated
    · exact hrow
    · refine List.mem_append_left _ (List.mem_filter.mpr ⟨hrow, ?_⟩)
      simp [RrsetRow.hasType, htype]

namespace ManagementTool

variable {rrset : Rrset} {zone : Zone}

theorem keeps_generateDoe (h : Kept removed initial db) (zone : Zone) :
    Meets services AnyChange (generateDoe zone) db fun _ db' ↦ Kept removed initial db' :=
  ((meets_generateDoe h.single fun _ _ _ _ ↦ trivial).valid h.valid).weaken
    fun _ _ hend ↦ h.regenerated hend.1 hend.2

theorem keeps_store (h : Kept removed initial db) (hnew : rrset.id = 0)
    (hzone : rrset.zone = some zone)
    (hvacant : (resolveZone db zone).id = 0 → Vacant db zone.name) :
    Meets services AnyChange (store rrset) db fun _ db' ↦ Kept removed initial db' := by
  refine meets_store h.valid h.single hnew hzone hvacant
    ⟨h, fun _ _ _ _ ↦ trivial, fun _ _ _ _ ↦ trivial, ?_⟩
  intro cleared zoneId db' hcleared henters hknown habsent
  refine ⟨trivial, fun stored _ _ ↦ keeps_generateDoe ?_ stored⟩
  have hcleared' : Kept (fun _ ↦ True) cleared cleared :=
    Kept.refl (hcleared.valid h.valid) (h.single.sublist hcleared.sublist)
  have hinserted := (hcleared'.enters henters).insertRrset habsent rrset.version rrset.ttl rrset.data
  refine ⟨hinserted.valid, hinserted.single, h.advances.trans ?_⟩
  by_cases hid : (resolveZone db zone).id = 0
  · cases hcleared with
    | absent _ => exact Advances.of_subset fun _ hrow _ _ ↦
        List.mem_append_left _ (henters.rrsets ▸ hrow)
    | older hne _ _ => exact absurd hid hne
  · obtain ⟨rfl, rfl⟩ := hknown hid
    exact Advances.replace h.valid hcleared rfl

theorem keeps_addRrset (h : Kept removed initial db) (hnew : rrset.id = 0)
    (hzone : rrset.zone = some zone)
    (hvacant : (resolveZone db zone).id = 0 → Vacant db zone.name) :
    Meets services AnyChange (addRrset rrset) db fun _ db' ↦ Kept removed initial db' := by
  refine meets_addRrset hzone (fun _ ↦ h) fun _ ↦ keeps_store h hnew rfl ?_
  rw [resolveZone_resolveZone, resolveZone_name]
  exact hvacant

theorem keeps_addMultiLevelLabelRrset {factory : RrsetFactory} {authTtl : ℤ}
    (h : Kept removed initial db) (hnew : rrset.id = 0) (hzone : rrset.zone = some zone)
    (hvacant : (resolveZone db zone).id = 0 → Vacant db zone.name)
    (hsame : SameZone db zone factory.zone) :
    Meets services AnyChange (addMultiLevelLabelRrset rrset factory authTtl) db
      fun _ db' ↦ Kept removed initial db' := by
  have hvacant' : zone.id = 0 → Vacant db zone.name := by
    intro hzero hnames
    refine hvacant ?_ hnames
    rw [resolveZone, if_pos hzero]
    exact lookupZone_id_eq_zero_of_absent hnames
  refine meets_addMultiLevelLabelRrset h.valid hzone (fun _ ↦ h) fun zone' htracks _ _ ↦ ?_
  have hauth := @meets_createAuth _ services AnyChange db { rrset with zone := some zone' } zone _
    (fun _ db' ↦ Kept removed initial db' ∧ (zone.id = 0 → Vacant db' zone.name)) factory authTtl
    (properPrefixes rrset.label) (fun _ _ hinv ↦ hinv.1.valid) (fun hzero _ _ hinv ↦ hinv.2 hzero)
    (fun _ _ _ _ hinv _ ↦ hinv) ?_ zone' rfl htracks hsame ⟨h, hvacant'⟩
  · refine hauth.bind ?_ ?_
    · rintro result db' ⟨⟨hkept, hvacantEnd⟩, zone'', rfl, htracks'⟩
      refine keeps_store hkept hnew rfl fun hmissing ↦ ?_
      rw [← htracks'.same.1]
      refine hvacantEnd ?_
      by_contra hid
      rw [htracks'.known hid, resolveZone, if_neg hid] at hmissing
      exact hid hmissing
    · rintro fault db' ⟨remaining, hkept, -⟩
      exact hkept
  · intro labelPrefix rest db₁ zoneId db' version ttl data hinv hhouses habsent _
    refine ⟨fun _ ↦ trivial, trivial, (hinv.1.enters hhouses.enters).insertRrset habsent _ _ _, ?_⟩
    intro hzero hnames
    obtain ⟨row, hrow, hrowName⟩ := hhouses.listed hzero
    exact absurd hrowName (hnames row hrow)

theorem keeps_addRrsetFromFile {zoneName inputDskCertName : Name} {inFile : String} {ttl : ℤ}
    {needResign : Bool} (h : Kept removed initial db) :
    Meets services AnyChange (addRrsetFromFile zoneName inFile ttl inputDskCertName needResign) db
      fun _ db' ↦ Kept removed initial db' := by
  refine meets_addRrsetFromFile (fun _ ↦ h) ?_
  intro _ _ _ _ _ _ _ _ _ _ hid _ _ _
  refine keeps_store h rfl rfl fun hmissing ↦ ?_
  rw [resolveZone, if_neg hid] at hmissing
  exact absurd hmissing hid

theorem keeps_removeRrSet {zoneName label : Name} {type : Component} (h : Kept removed initial db)
    (hremoved : ∀ row ∈ db.zones, row.name = zoneName → removed (row.id, label, type)) :
    Meets services AnyChange (removeRrSet zoneName label type) db
      fun _ db' ↦ Kept removed initial db' := by
  refine meets_removeRrSet h fun row hid hrow ↦ ⟨trivial, keeps_generateDoe ?_ _⟩
  obtain ⟨zoneRow, hzoneRow, hzoneId, hname⟩ :=
    (Zone.Resolves.resolveZone db (Zone.named zoneName)).found rfl hid
  obtain ⟨hmem, hkey⟩ := key_of_keyRow hrow
  refine h.deleteRrset fun other hother hsame ↦ ?_
  rw [List.inj_on_of_nodup_map h.valid.ids hother hmem hsame, hkey, ← hzoneId]
  exact hremoved zoneRow hzoneRow (hname.trans (resolveZone_name _ _))

theorem keeps_createZone {zoneName parentZoneName kskCertName dskCertName dkeyCertName : Name}
    {cacheTtl : ℤ} (h : Kept removed initial db) :
    Meets services AnyChange
      (createZone zoneName parentZoneName cacheTtl kskCertName dskCertName dkeyCertName) db
      fun _ db' ↦ Kept removed initial db' := by
  refine meets_createZone (Kept removed initial) h fun _ _ _ _ _ _ _ _ _ _ _ _ ↦ ?_
  exact ⟨h, fun _ hkept ↦ hkept, fun _ hinv ↦ hinv.valid, fun ttl hnew ↦ ⟨trivial, h.insertZone hnew ttl⟩,
    fun _ _ _ _ _ _ hinv _ _ habsent ↦ ⟨trivial, hinv.insertRrset habsent _ _ _⟩,
    fun _ _ _ hinv ↦ ⟨trivial, hinv.insertZoneInfo _ _ _⟩,
    fun _ stored hinv _ ↦ keeps_generateDoe hinv stored⟩

end ManagementTool

/-- An update replaces a row by a newer version, or inserts one under a key that has none. -/
theorem Kept.updateDatabase {server : NameServer} {re : Label.MatchResult} {packet : Received}
    (h : Kept removed initial db) :
    Kept removed initial (NameServer.updateDatabase server re packet db).1 := by
  unfold NameServer.updateDatabase
  cases hrow : keyRow db server.zone.id re.rrLabel re.rrType with
  | none => exact h.insertRrset (keyRow_eq_none_iff.mp hrow) _ _ _
  | some row =>
      simp only
      split_ifs with hnewer hforbidden
      · exact h
      · refine ⟨h.valid.updateRrset _ _ (by simpa using hforbidden), h.single.updateRrset _ _ _ _,
          h.advances.trans fun other hother _ _ ↦
            ⟨_, List.mem_map.mpr ⟨other, hother, rfl⟩, ?_⟩⟩
        obtain ⟨hmem, -⟩ := keyRow_eq_some hrow
        split_ifs with hid
        · rw [List.inj_on_of_nodup_map h.valid.ids hother hmem hid]
          exact ⟨rfl, hnewer.le⟩
        · exact ⟨rfl, le_rfl⟩
      · exact h

/-- What an update does to the tables. -/
theorem meets_doUpdate {server : NameServer} {interest : Interest} {packet : Received}
    {post : Database → Prop} (hvalid : db.Valid) (hsame : post db)
    (hmatched : ∀ re, Label.matchDataName packet.data.name server.zone.name = .matched re →
      post (NameServer.updateDatabase server re packet db).1) :
    Meets services AnyChange (server.doUpdate interest packet) db fun _ db' ↦ post db' := by
  intro keys
  refine (Program.ensures_of_run ?_).mono (fun _ _ _ ↦ Or.inr trivial) fun _ _ hend ↦ hend
  cases hmatch : Label.matchDataName packet.data.name server.zone.name with
  | outOfBounds => simpa [NameServer.doUpdate, hmatch] using hsame
  | noMatch => simpa [NameServer.doUpdate, hmatch] using hsame
  | matched re =>
      have hworld : (World.mk db keys).db.Valid := hvalid
      obtain ⟨outcome, keys', hupdated, -⟩ := @NameServer.run_doUpdate _ services server re _ packet
        interest ⟨db, keys⟩ hworld hmatch
      rw [hupdated]
      exact hmatched re hmatch

/-! ## Runs -/

/-- The operations that write records, and the removal of a zone. -/
inductive Edit where
  | operation (operation : Operation)
  | deleteZone (zoneName : Name)

namespace Edit

def program : Edit → Prog Bool
  | .operation writing => writing.program
  | .deleteZone zoneName => do
      ManagementTool.deleteZone zoneName
      pure true

/-- The record objects are new ones, and the factory of an addition is one of the zone of its
record. -/
def Proper (db : Database) : Edit → Prop
  | .operation (.addRrset rrset) => rrset.id = 0
  | .operation (.addMultiLevelLabelRrset rrset zoneRrFactory _) => rrset.id = 0 ∧
      ∀ zone, rrset.zone = some zone → ManagementTool.SameZone db zone zoneRrFactory.zone
  | _ => True

/-- An addition that creates its zone finds no rows under the id of the new zone. -/
def Housed (db : Database) : Edit → Prop
  | .operation (.addRrset rrset) | .operation (.addMultiLevelLabelRrset rrset _ _) =>
      ∀ zone, rrset.zone = some zone → (resolveZone db zone).id = 0 → Vacant db zone.name
  | _ => True

/-- The keys of the records an operation is there to remove. -/
def Removes (db : Database) : Edit → ℕ × Name × Component → Prop
  | .operation (.removeRrSet zoneName label type), key =>
      ∃ zone ∈ db.zones, zone.name = zoneName ∧ key = (zone.id, label, type)
  | .deleteZone zoneName, key => ∃ zone ∈ db.zones, zone.name = zoneName ∧ key.1 = zone.id
  | _, _ => False

/-- The operation ends, normally or with an exception, for some behaviour of the services. -/
def Step (edit : Edit) (db db' : Database) : Prop :=
  edit.Proper db ∧ ∃ (Keys : Type) (services : Services Keys) (keys keys' : Keys)
    (outcome : Except Fault Bool),
    edit.program.run (World.handle services) ⟨db, keys⟩ = (outcome, ⟨db', keys'⟩) ∧
      outcome ≠ .error .undefinedBehavior ∧ outcome ≠ .error .nonTermination

/-- An operation that meets the condition keeps the records. -/
theorem Step.kept {edit : Edit} (h : edit.Step db db') (hhoused : edit.Housed db)
    (hvalid : db.Valid) (hsingle : db.SingleVersion) : Kept (edit.Removes db) db db' := by
  obtain ⟨hproper, Keys, services, keys, keys', outcome, hrun, -⟩ := h
  have hstart : Kept (edit.Removes db) db db := Kept.refl hvalid hsingle
  have hmeets : Meets services AnyChange edit.program db
      fun _ db'' ↦ Kept (edit.Removes db) db db'' := by
    cases edit with
    | deleteZone zoneName =>
        exact (ManagementTool.keeps_deleteZone hstart fun row hrow hname _ _ ↦
          ⟨row, hrow, hname, rfl⟩).discard _
    | operation writing =>
        cases writing with
        | createZone zoneName parentZoneName cacheTtl kskCertName dskCertName dkeyCertName =>
            exact (ManagementTool.keeps_createZone hstart).discard _
        | addRrset rrset =>
            have hadd : Meets services AnyChange (ManagementTool.addRrset rrset) db
                fun _ db'' ↦ Kept (Removes db (.operation (.addRrset rrset))) db db'' := by
              cases hzone : rrset.zone with
              | none => exact ManagementTool.meets_addRrset_unassigned hzone hstart
              | some zone =>
                  exact ManagementTool.keeps_addRrset hstart hproper hzone (hhoused zone hzone)
            exact hadd.discard _
        | addMultiLevelLabelRrset rrset zoneRrFactory authTtl =>
            have hadd : Meets services AnyChange
                (ManagementTool.addMultiLevelLabelRrset rrset zoneRrFactory authTtl) db
                  fun _ db'' ↦ Kept (Removes db (.operation
                    (.addMultiLevelLabelRrset rrset zoneRrFactory authTtl))) db db'' := by
              cases hzone : rrset.zone with
              | none => exact ManagementTool.meets_addMultiLevelLabelRrset_unassigned hzone hstart
              | some zone =>
                  exact ManagementTool.keeps_addMultiLevelLabelRrset hstart hproper.1 hzone
                    (hhoused zone hzone) (hproper.2 zone hzone)
            exact hadd.discard _
        | addRrsetFromFile zoneName inFile ttl inputDskCertName needResign =>
            exact (ManagementTool.keeps_addRrsetFromFile hstart).discard _
        | removeRrSet zoneName label type =>
            exact (ManagementTool.keeps_removeRrSet hstart fun row hrow hname ↦
              ⟨row, hrow, hname, rfl⟩).discard _
        | doUpdate server interest packet =>
            have hupdate := @meets_doUpdate _ services db _ server interest packet
              (Kept (Removes db (.operation (.doUpdate server interest packet))) db) hvalid hstart
                fun _ _ ↦ hstart.updateDatabase
            refine hupdate.bind (fun answer _ hend ↦ ?_) fun _ _ hend ↦ hend
            cases answer <;> exact meets_pure hend
  have hend := hmeets.run keys
  rwa [hrun] at hend

/-- In a run whose additions find no rows under the id of a zone they create, there is one row for
each key, and an operation replaces no record by an older version. -/
theorem run_singleVersion {edit : Edit}
    (hrun : Relation.ReflTransGen (fun before after ↦
      ∃ edit : Edit, edit.Housed before ∧ edit.Step before after) Database.empty db)
    (hhoused : edit.Housed db) (hstep : edit.Step db db') :
    db'.SingleVersion ∧ db.Advances (edit.Removes db) db' := by
  have hstate : db.Valid ∧ db.SingleVersion := by
    clear hhoused hstep
    induction hrun with
    | refl => exact ⟨valid_empty, singleVersion_empty⟩
    | tail _ hstep ih =>
        obtain ⟨edit, hhoused, hstep⟩ := hstep
        have hkept := hstep.kept hhoused ih.1 ih.2
        exact ⟨hkept.valid, hkept.single⟩
  have hkept := hstep.kept hhoused hstate.1 hstate.2
  exact ⟨hkept.single, hkept.advances⟩

end Edit

end Operations

section Examples

open LocalServices NameServer Edit

attribute [local instance] ndnPacketFormat

/-- The state after an operation of the process with the key chain in memory. -/
def afterEdit (edit : Edit) (db : Database) : Database :=
  (edit.program.run (World.handle localServices) ⟨db, 0⟩).2.db

/-- A record of the zone /o, which is not in the database. -/
def orgRrset : Rrset :=
  ⟨0, some (Zone.named [letter 111]), [letter 119], Label.txtRrType, Component.fromVersion 2, 3600,
    (Layout.encode ⟨Label.recordName [letter 111] [letter 119] Label.txtRrType ++
      [Component.fromVersion 2], 0, 0, [], [], []⟩).getD Block.invalid⟩

def netRemoval : Edit := .deleteZone [letter 110]

def orgAddition : Edit := .operation (.addRrset orgRrset)

def lateUpdate : Database := afterEdit (.operation insertion) (afterEdit netRemoval createdDatabase)

theorem creation_edit : (Edit.operation creation).Step Database.empty createdDatabase :=
  ⟨trivial, ℕ, localServices, 0, _, .ok true, Prod.ext rfl rfl, nofun, nofun⟩

theorem insertion_edit : (Edit.operation insertion).Step createdDatabase updatedDatabase :=
  ⟨trivial, ℕ, localServices, 0, _, .ok true, Prod.ext rfl rfl, nofun, nofun⟩

theorem run_singleVersion_insertion : updatedDatabase.SingleVersion ∧
    createdDatabase.Advances ((Edit.operation insertion).Removes createdDatabase)
      updatedDatabase :=
  run_singleVersion (Relation.ReflTransGen.single ⟨.operation creation, trivial, creation_edit⟩)
    trivial insertion_edit

theorem netRemoval_step : netRemoval.Step createdDatabase (afterEdit netRemoval createdDatabase) :=
  ⟨trivial, ℕ, localServices, 0, _, .ok true, Prod.ext rfl rfl, nofun, nofun⟩

set_option maxRecDepth 8000 in
theorem lateUpdate_step :
    (Edit.operation insertion).Step (afterEdit netRemoval createdDatabase) lateUpdate :=
  ⟨trivial, ℕ, localServices, 0, _, .ok true, Prod.ext rfl rfl, nofun, nofun⟩

set_option maxRecDepth 8000 in
theorem orgAddition_step : orgAddition.Step lateUpdate (afterEdit orgAddition lateUpdate) :=
  ⟨rfl, ℕ, localServices, 0, _, .ok true, Prod.ext rfl rfl, nofun, nofun⟩

set_option maxRecDepth 8000 in
/-- The new zone is given the id of the removed one, under which a server stored a record. -/
theorem two_versions : ∃ db, Relation.ReflTransGen (fun before after ↦
    ∃ edit : Edit, edit.Step before after) Database.empty db ∧ ¬ db.SingleVersion := by
  refine ⟨afterEdit orgAddition lateUpdate, (((Relation.ReflTransGen.single
    ⟨_, creation_edit⟩).tail ⟨_, netRemoval_step⟩).tail ⟨_, lateUpdate_step⟩).tail
      ⟨_, orgAddition_step⟩, ?_⟩
  change ¬ ((afterEdit orgAddition lateUpdate).rrsets.map RrsetRow.key).Nodup
  decide

end Examples

end Ndns.Mgmt
