import Ndns.Daemon.UpdateIntegrity
import Ndns.Mgmt.ZoneChanges
import Mathlib.Logic.Relation

/-!
# Freshness of the Denial Chain

Every operation of the management tool changes the rows of one zone and ends with a regeneration of
its chain.  An update by the name server changes rows as well, but it never regenerates: the chain
stays what it should be exactly as long as updates replace records that are there already.
-/

namespace Ndns.Mgmt

open Ndn Calls Daemon

variable {Keys : Type} {services : Services Keys} {world world' : World Keys} {rrset result : Rrset}
  {zone : Zone}

namespace ManagementTool

theorem reads_chooseDskCert (inputDskCertName zoneIdentityName : Name) :
    (chooseDskCert inputDskCertName zoneIdentityName).CallsOnly Call.Reads := by
  unfold chooseDskCert
  split_ifs
  · exact (CertHelper.reads_getDefaultKeyNameOfIdentity _).bind fun _ ↦
      CertHelper.reads_getDefaultCertificateNameOfIdentity _
  · exact (reads_matchCertificate _ _).bind fun _ ↦ callsOnly_require.bind fun _ ↦ trivial

theorem reads_parseRrset (zoneName : Name) (data : Data) :
    (parseRrset zoneName data).CallsOnly Call.Reads := by
  unfold parseRrset
  split <;> trivial

end ManagementTool

/-! ## Fresh chains -/

section Fresh

variable [PacketFormat]

/-- The label and the range of a denial record, as its packet is read by a client. -/
def denialOf (row : RrsetRow) : Option Denial :=
  (PacketFormat.decode row.data).bind fun data ↦
    (Clients.Response.wireDecodeDoe data.content).map fun range ↦ (row.label, range)

/-- The denial records of a zone are the ones a regeneration makes from its other records. -/
def Fresh (db : Database) (zoneId : ℕ) : Prop :=
  ((denials db zoneId).map denialOf).Perm ((denialChain (recordNames db zoneId)).map some)

theorem IsDenial.denialOf_eq {zoneName : Name} {zoneId : ℕ} {row : RrsetRow} {denial : Denial}
    (h : IsDenial zoneName zoneId row denial) : denialOf row = some denial := by
  obtain ⟨data, hdecode, hwire⟩ := h.wireDecodeDoe
  rw [denialOf, hdecode, Option.bind_some, hwire, Option.map_some, h.label]

/-- A regeneration leaves a fresh chain. -/
theorem Regenerates.fresh {zoneName : Name} {zoneId : ℕ} {db db' : Database}
    (h : Regenerates zoneName zoneId db db') : Fresh db' zoneId := by
  rw [Fresh, h.recordNames]
  refine List.Perm.of_eq ?_
  have hdenials := h.denials
  generalize Mgmt.denials db' zoneId = rows, denialChain (Mgmt.recordNames db zoneId) = chain
    at hdenials ⊢
  induction hdenials with
  | nil => rfl
  | cons hhead _ ih => rw [List.map_cons, List.map_cons, hhead.denialOf_eq, ih]

/-- Freshness depends on the rows of the zone only. -/
theorem Fresh.congr {db db' : Database} {zoneId : ℕ} (hrows : rowsOf db' zoneId = rowsOf db zoneId)
    (h : Fresh db zoneId) : Fresh db' zoneId := by
  rw [Fresh, denials_eq_rowsOf, recordNames, records_eq_rowsOf, hrows, ← denials_eq_rowsOf,
    ← records_eq_rowsOf, ← recordNames]
  exact h

/-- The chain of every zone is fresh. -/
def AllFresh (db : Database) : Prop := ∀ zone ∈ db.zones, Fresh db zone.id

/-- A change of one zone after which the chain of this zone is fresh. -/
structure Refreshes (zoneName : Name) (db db' : Database) : Prop where
  touches : Touches zoneName db db'
  fresh : ∀ zone ∈ db'.zones, zone.name = zoneName → Fresh db' zone.id

theorem Refreshes.allFresh {zoneName : Name} {db db' : Database} (h : Refreshes zoneName db db')
    (hfresh : AllFresh db) : AllFresh db' := by
  intro zone hzone
  by_cases hname : zone.name = zoneName
  · exact h.fresh zone hzone hname
  · have hold := (h.touches.new zone hzone).resolve_right hname
    exact (hfresh zone hold).congr (h.touches.rows zone hold hname)

theorem Touches.refreshes {zoneName : Name} {db db' db'' : Database} (h : Touches zoneName db db')
    (h' : Refreshes zoneName db' db'') : Refreshes zoneName db db'' :=
  ⟨h.trans h'.touches, h'.fresh⟩

theorem refreshes_generateDoe {zone' : Zone} (hvalid : world.db.Valid)
    (h : (ManagementTool.generateDoe zone).Returns (World.handle services) world zone' world') :
    Refreshes zone.name world.db world'.db := by
  obtain ⟨rfl, hid, -, hregenerates⟩ := ManagementTool.returns_generateDoe h
  obtain ⟨row, hrow, hname, hlookup⟩ := DbMgr.lookupZone_id_eq hid
  have hrowId : (DbMgr.lookupZone world.db zone).id = row.id := by rw [hlookup]
  rw [hrowId] at hregenerates
  obtain ⟨hzones, -⟩ := hregenerates.zones
  refine ⟨⟨fun _ hzone ↦ hzones ▸ hzone, fun _ hzone ↦ Or.inl (hzones ▸ hzone), ?_⟩, ?_⟩
  · intro other hother hotherName
    have hne := Touches.ne_id hvalid hrow hother (hname ▸ hotherName.symm)
    refine hregenerates.other fun candidate hcandidate ↦ ?_
    simp [(RrsetRow.hasType_iff.mp hcandidate).1, hne]
  · intro other hother hotherName
    rw [hzones] at hother
    obtain rfl := List.inj_on_of_nodup_map hvalid.zoneNames hother hrow
      (hotherName.trans hname.symm)
    exact hregenerates.fresh

/-! ## The operations of the management tool -/

namespace ManagementTool

theorem refreshes_store (hvalid : world.db.Valid) (hzone : rrset.zone = some zone)
    (hstored : zone.Stored world.db)
    (h : (store rrset).Returns (World.handle services) world () world') :
    Refreshes zone.name world.db world'.db := by
  obtain ⟨checked, checkedWorld, inserted, insertedWorld, stored, regenerated, hcheck, hinsert,
    hinsertedZone, hgenerate⟩ := returns_store h
  have hvalid₁ := valid_of_returns hvalid hcheck
  have hvalid₂ := valid_of_returns hvalid₁ hinsert
  obtain ⟨htouches₁, zone₁, hresolve, rfl⟩ := touches_checkRrsetVersion hvalid hzone hstored hcheck
  obtain ⟨htouches₂, zone₂, hzone₂, hname₂, -⟩ := touches_insertRrset hvalid₁ rfl
    (htouches₁.stored (hresolve.stored hstored)) hinsert
  obtain rfl := Option.some.inj (hinsertedZone.symm.trans hzone₂)
  have hrefreshes := refreshes_generateDoe hvalid₂ hgenerate
  rw [hname₂] at hrefreshes
  rw [hresolve.name] at hrefreshes htouches₂
  exact (htouches₁.trans htouches₂).refreshes hrefreshes

theorem refreshes_addRrset (hvalid : world.db.Valid) (hzone : rrset.zone = some zone)
    (hstored : zone.Stored world.db)
    (h : (addRrset rrset).Returns (World.handle services) world () world') :
    Refreshes zone.name world.db world'.db := by
  obtain ⟨zone', hresolve, -, hstore⟩ := returns_addRrset hzone h
  have hrefreshes := refreshes_store hvalid rfl (hresolve.stored hstored) hstore
  rwa [hresolve.name] at hrefreshes

theorem touches_createAuth {prefixes : List Name} {factory : RrsetFactory} {authTtl : ℤ}
    (hvalid : world.db.Valid) (hzone : rrset.zone = some zone) (hstored : zone.Stored world.db)
    (hfactory : factory.zone.Stored world.db) (hsame : factory.zone.name = zone.name)
    (h : (createAuth factory authTtl rrset prefixes).Returns (World.handle services) world result
      world') :
    Touches zone.name world.db world'.db ∧ ∃ zone', result = { rrset with zone := some zone' } ∧
      zone'.name = zone.name ∧ zone'.Stored world'.db := by
  induction prefixes generalizing factory rrset zone world with
  | nil =>
      obtain ⟨rfl, rfl⟩ := Program.returns_pure.mp h
      exact ⟨Touches.refl _ _, zone, by rw [← hzone], rfl, hstored⟩
  | cons labelPrefix rest ih =>
      obtain ⟨zone', hresolve, ⟨-, -, h⟩ | ⟨-, auth, authWorld, inserted, insertedWorld, hauth,
        hinsert, h⟩⟩ := returns_createAuth_cons hzone h
      · obtain ⟨htouches, zone'', rfl, hname, hstored'⟩ := ih hvalid rfl
          (hresolve.stored hstored) hfactory (hsame.trans hresolve.name.symm) h
        rw [hresolve.name] at htouches hname
        exact ⟨htouches, zone'', rfl, hname, hstored'⟩
      · obtain ⟨hdb, -, hauthZone, -⟩ := RrsetFactory.returns_generateRrset hauth
        rw [← hdb] at hvalid hfactory
        obtain ⟨htouches, stored, hinsertedZone, hstoredName, hstored'⟩ :=
          touches_insertRrset hvalid hauthZone hfactory hinsert
        rw [hdb, hsame] at htouches
        rw [hsame] at hstoredName
        simp only [hinsertedZone, Option.getD_some] at h
        obtain ⟨htouches', zone'', rfl, hname, hstored''⟩ := ih (valid_of_returns hvalid hinsert) rfl
          (htouches.stored (hresolve.stored hstored)) hstored'
          (hstoredName.trans hresolve.name.symm) h
        rw [hresolve.name] at htouches' hname
        exact ⟨htouches.trans htouches', zone'', rfl, hname, hstored''⟩

theorem refreshes_addMultiLevelLabelRrset {factory : RrsetFactory} {authTtl : ℤ}
    (hvalid : world.db.Valid) (hzone : rrset.zone = some zone) (hstored : zone.Stored world.db)
    (hfactory : factory.zone.Stored world.db) (hsame : factory.zone.name = zone.name)
    (h : (addMultiLevelLabelRrset rrset factory authTtl).Returns (World.handle services) world ()
      world') :
    Refreshes zone.name world.db world'.db := by
  unfold addMultiLevelLabelRrset at h
  split_ifs at h
  · obtain ⟨_, _, -, hthrow⟩ := Program.returns_bind.mp h
    exact (Program.returns_throw.mp hthrow).elim
  · obtain ⟨_, _, hdelegation, h⟩ := Program.returns_bind.mp h
    obtain ⟨rfl, zone₁, hresolve₁, rfl, -⟩ := returns_checkNoDelegation hzone hdelegation
    obtain ⟨_, _, hauth, h⟩ := Program.returns_bind.mp h
    obtain ⟨rfl, zone₂, hresolve₂, rfl, -⟩ := returns_checkNotAuth rfl hauth
    obtain ⟨_, created, hcreate, h⟩ := Program.returns_bind.mp h
    have hresolve := hresolve₁.trans hresolve₂
    obtain ⟨htouches, zone₃, rfl, hname, hstored₃⟩ := touches_createAuth hvalid rfl
      (hresolve.stored hstored) hfactory (hsame.trans hresolve.name.symm) hcreate
    have hrefreshes := refreshes_store (valid_of_returns hvalid hcreate) rfl hstored₃ h
    rw [hname, hresolve.name] at hrefreshes
    rw [hresolve.name] at htouches
    exact htouches.refreshes hrefreshes

theorem reads_loadData (inFile : String) : (loadData inFile).CallsOnly Call.Reads := by
  refine reads_service.bind fun loaded ↦ ?_
  rcases loaded with _ | wire
  · trivial
  · exact callsOnly_orThrow

theorem reads_resign (needResign : Bool) (dskCertName : Name) (packet : Received) :
    (resign needResign dskCertName packet).CallsOnly Call.Reads := by
  unfold resign
  split_ifs
  · exact reads_service.bind fun _ ↦ callsOnly_orThrow.bind fun _ ↦ callsOnly_orThrow.bind fun _ ↦ trivial
  · trivial

theorem refreshes_addRrsetFromFile {zoneName inputDskCertName : Name} {inFile : String} {ttl : ℤ}
    {needResign : Bool} (hvalid : world.db.Valid)
    (h : (addRrsetFromFile zoneName inFile ttl inputDskCertName needResign).Returns
      (World.handle services) world () world') :
    Refreshes zoneName world.db world'.db := by
  obtain ⟨zone, _, hfind, h⟩ := Program.returns_bind.mp h
  obtain ⟨rfl, rfl⟩ := (Program.returns_iff_of_run (DbMgr.run_findZone _ world)).mp hfind
  obtain ⟨_, _, hrequire, h⟩ := Program.returns_bind.mp h
  obtain ⟨hid, rfl⟩ := returns_require.mp hrequire
  obtain ⟨_, chosen, hchoose, h⟩ := Program.returns_bind.mp h
  obtain ⟨packet, loaded, hload, h⟩ := Program.returns_bind.mp h
  obtain ⟨⟨data, wire⟩, resigned, hresign, h⟩ := Program.returns_bind.mp h
  obtain ⟨re, parsed, hparse, h⟩ := Program.returns_bind.mp h
  have hdb : parsed.db = world.db := by
    rw [db_of_returns (reads_parseRrset _ _) hparse, db_of_returns (reads_resign _ _ _) hresign,
      db_of_returns (reads_loadData _) hload, db_of_returns (reads_chooseDskCert _ _) hchoose]
  obtain ⟨row, hrow, hname, hlookup⟩ := DbMgr.lookupZone_id_eq hid
  have hstored : (DbMgr.lookupZone world.db (Zone.named zoneName)).Stored parsed.db := by
    intro _
    rw [hdb, DbMgr.lookupZone_name]
    exact ⟨row, hrow, by rw [hlookup], hname⟩
  have hrefreshes := refreshes_store (hdb ▸ hvalid) rfl hstored h
  rwa [DbMgr.lookupZone_name, hdb] at hrefreshes

/-- The removal of a record refreshes its zone, unless there is no such record. -/
theorem refreshes_removeRrSet {zoneName label : Name} {type : Component} (hvalid : world.db.Valid)
    (h : (removeRrSet zoneName label type).Returns (World.handle services) world () world') :
    world'.db = world.db ∨ Refreshes zoneName world.db world'.db := by
  obtain ⟨⟨found, rrset⟩, _, hfind, h⟩ := Program.returns_bind.mp h
  have hzone : (Rrset.keyed (Zone.named zoneName) label type).zone = some (Zone.named zoneName) :=
    rfl
  obtain ⟨hpick, rfl⟩ := (DbMgr.returns_findRrset hzone).mp hfind
  have hrrset := congrArg Prod.snd hpick
  have hfound := congrArg Prod.fst hpick
  simp only at hrrset hfound h
  have hresolve := Zone.Resolves.resolveZone world.db (Zone.named zoneName)
  rcases DbMgr.pick_cases (Rrset.keyed (Zone.named zoneName) label type)
    (DbMgr.resolveZone world.db (Zone.named zoneName)) (DbMgr.keyRow world.db
      (DbMgr.resolveZone world.db (Zone.named zoneName)).id label type) with
    ⟨htrue, hid, row, hrow, hrowId, hfilled⟩ | ⟨hfalse, -⟩
  · right
    have hrrsetEq := hrrset.symm.trans hfilled
    rw [hfound.symm.trans htrue, if_pos rfl, hrrsetEq] at h
    obtain ⟨_, _, hremove, h⟩ := Program.returns_bind.mp h
    obtain ⟨-, rfl⟩ := (Program.returns_iff_of_run (DbMgr.run_removeRrset hrowId world)).mp hremove
    obtain ⟨_, _, hgenerate, h⟩ := Program.returns_bind.mp h
    obtain ⟨-, rfl⟩ := Program.returns_pure.mp h
    obtain ⟨zoneRow, hzoneRow, hzoneId, hzoneName⟩ := hresolve.found rfl hid
    obtain ⟨hmem, hrowZone, -⟩ := DbMgr.keyRow_eq_some hrow
    have hdelete := Touches.deleteRrset hvalid hzoneRow hmem (hrowZone.trans hzoneId.symm)
    have hrefreshes := refreshes_generateDoe (hvalid.filterRrsets _) hgenerate
    rw [hzoneName] at hdelete
    rw [hresolve.name] at hdelete hrefreshes
    exact hdelete.refreshes hrefreshes
  · left
    rw [hfound.symm.trans hfalse, if_neg Bool.false_ne_true, Program.returns_pure] at h
    rw [h.2]

theorem refreshes_createZone {zoneName parentZoneName kskCertName dskCertName dkeyCertName : Name}
    {cacheTtl : ℤ} {zone' : Zone} (hvalid : world.db.Valid)
    (h : (createZone zoneName parentZoneName cacheTtl kskCertName dskCertName dkeyCertName).Returns
      (World.handle services) world zone' world') :
    Refreshes zoneName world.db world'.db := by
  obtain ⟨added, middle, rfl, hcreates, hvalid', hgenerate⟩ := returns_createZone hvalid h
  obtain ⟨ttl, hzones⟩ := hcreates.zones
  obtain ⟨first, second, hrows, hfirst, hsecond, -⟩ := hcreates.rows
  have htouches : Touches added.name world.db middle.db := by
    refine ⟨fun zone hzone ↦ ?_, fun zone hzone ↦ ?_, fun zone hzone _ ↦ ?_⟩
    · rw [hzones]
      exact List.mem_append_left _ hzone
    · rw [hzones] at hzone
      rcases List.mem_append.mp hzone with hold | hnew
      · exact Or.inl hold
      · exact Or.inr (by rw [List.mem_singleton.mp hnew])
    · have hne : added.id ≠ zone.id := by
        rw [hcreates.zoneId_eq]
        exact (Database.ne_nextRowId hzone).symm
      simp [rowsOf, hrows, hfirst, hsecond, hne]
  exact htouches.refreshes (refreshes_generateDoe hvalid' hgenerate)

end ManagementTool

/-! ## Updates -/

/-- An update that replaces a record leaves every chain fresh. -/
theorem AllFresh.updateRrset {db : Database} (hvalid : db.Valid) (h : AllFresh db)
    {row : RrsetRow} (hrow : row ∈ db.rrsets) (htype : row.type ≠ Label.doeRrType) (ttl : ℤ)
    (version : Component) (data : Block) : AllFresh (db.updateRrset row.id ttl version data) := by
  intro zone hzone
  let update : RrsetRow → RrsetRow := fun other ↦
    if other.id = row.id then other.overwrite ttl version data else other
  have hsame : ∀ other, (update other).zoneId = other.zoneId ∧ (update other).type = other.type ∧
      recordKey (update other) = recordKey other := by
    intro other
    simp only [update]
    split_ifs <;> exact ⟨rfl, rfl, rfl⟩
  have hdenials : denials (db.updateRrset row.id ttl version data) zone.id =
      denials db zone.id := by
    have hfilter : (fun other : RrsetRow ↦ other.hasType zone.id Label.doeRrType) ∘ update =
        fun other ↦ other.hasType zone.id Label.doeRrType := by
      funext other
      simp [RrsetRow.hasType, (hsame other).1, (hsame other).2.1]
    refine (@List.filter_map _ _ update _ _).trans ?_
    rw [hfilter]
    refine (List.map_congr_left fun other hother ↦ ?_).trans (List.map_id _)
    obtain ⟨hmem, -, hdoe⟩ := mem_denials.mp hother
    refine if_neg fun hid ↦ htype ?_
    rw [← List.inj_on_of_nodup_map hvalid.ids hmem hrow hid, hdoe]
  have hnames : recordNames (db.updateRrset row.id ttl version data) zone.id =
      recordNames db zone.id := by
    have hfilter : (fun other : RrsetRow ↦
        decide (other.zoneId = zone.id ∧ other.type ≠ Label.doeRrType)) ∘ update =
          fun other ↦ decide (other.zoneId = zone.id ∧ other.type ≠ Label.doeRrType) := by
      funext other
      simp [(hsame other).1, (hsame other).2.1]
    have hrecords : records (db.updateRrset row.id ttl version data) zone.id =
        (records db zone.id).map update := by
      refine (@List.filter_map _ _ update _ _).trans ?_
      rw [hfilter]
      rfl
    have hkeys : recordKey ∘ update = recordKey := funext fun other ↦ (hsame other).2.2
    rw [recordNames, hrecords, List.map_map, hkeys, recordNames]
  rw [Fresh, hdenials, hnames]
  exact h zone hzone

/-- An insertion without a regeneration leaves the chain of the zone one denial short. -/
theorem AllFresh.not_insertRrset {db : Database} (h : AllFresh db) {zoneRow : ZoneRow}
    (hzone : zoneRow ∈ db.zones) {type : Component} (htype : type ≠ Label.doeRrType) (label : Name)
    (version : Component) (ttl : ℤ) (data : Block) :
    ¬ AllFresh (db.insertRrset zoneRow.id label type version ttl data) := by
  intro hfresh
  have hbefore := (h zoneRow hzone).length_eq
  have hafter := (hfresh zoneRow hzone).length_eq
  have hdenials : denials (db.insertRrset zoneRow.id label type version ttl data) zoneRow.id =
      denials db zoneRow.id := by
    simp [denials, Database.insertRrset, RrsetRow.hasType, htype]
  have hlength : (recordNames (db.insertRrset zoneRow.id label type version ttl data)
      zoneRow.id).length = (recordNames db zoneRow.id).length + 1 := by
    simp [recordNames, records, Database.insertRrset, htype]
  rw [hdenials] at hafter
  simp only [List.length_map, length_denialChain] at hbefore hafter
  split_ifs at hbefore hafter <;> omega

theorem returns_doUpdate {server : NameServer} {interest : Interest} {packet : Received}
    {answer : Data} (hvalid : world.db.Valid)
    (h : (server.doUpdate interest packet).Returns (World.handle services) world (some answer)
      world') :
    ∃ re, Label.matchDataName packet.data.name server.zone.name = .matched re ∧
      world'.db = (NameServer.updateDatabase server re packet world.db).1 ∧
      answer.content =
        NameServer.updateContent (NameServer.updateDatabase server re packet world.db).2 := by
  cases hmatch : Label.matchDataName packet.data.name server.zone.name with
  | outOfBounds => simp [NameServer.doUpdate, hmatch] at h
  | noMatch => simp [NameServer.doUpdate, hmatch] at h
  | matched re =>
      obtain ⟨outcome, keys, hrun, -, hcontent⟩ := @NameServer.run_doUpdate _ services server re _
        packet interest world hvalid hmatch
      rw [Program.Returns, hrun] at h
      exact ⟨re, rfl, by rw [← (Prod.mk.inj h).2], hcontent _ (Prod.mk.inj h).1⟩

/-! ## Runs -/

/-- The operations that write records, with what they are called with. -/
inductive Operation where
  | createZone (zoneName parentZoneName : Name) (cacheTtl : ℤ)
      (kskCertName dskCertName dkeyCertName : Name)
  | addRrset (rrset : Rrset)
  | addMultiLevelLabelRrset (rrset : Rrset) (zoneRrFactory : RrsetFactory) (authTtl : ℤ)
  | addRrsetFromFile (zoneName : Name) (inFile : String) (ttl : ℤ) (inputDskCertName : Name)
      (needResign : Bool)
  | removeRrSet (zoneName label : Name) (type : Component)
  | doUpdate (server : NameServer) (interest : Interest) (packet : Received)

namespace Operation

/-- The operation, and whether it counts: an update only with the answer UPDATE_OK. -/
def program : Operation → Prog Bool
  | .createZone zoneName parentZoneName cacheTtl kskCertName dskCertName dkeyCertName => do
      let _ ← ManagementTool.createZone zoneName parentZoneName cacheTtl kskCertName dskCertName
        dkeyCertName
      pure true
  | .addRrset rrset => do
      ManagementTool.addRrset rrset
      pure true
  | .addMultiLevelLabelRrset rrset zoneRrFactory authTtl => do
      ManagementTool.addMultiLevelLabelRrset rrset zoneRrFactory authTtl
      pure true
  | .addRrsetFromFile zoneName inFile ttl inputDskCertName needResign => do
      ManagementTool.addRrsetFromFile zoneName inFile ttl inputDskCertName needResign
      pure true
  | .removeRrSet zoneName label type => do
      ManagementTool.removeRrSet zoneName label type
      pure true
  | .doUpdate server interest packet => do
      match ← server.doUpdate interest packet with
      | some answer => pure (decide (answer.content = NameServer.updateContent .updateOk))
      | none => pure false

/-- The zone objects come from the database, those of one addition are the same, and an update is
for a record that is no denial record. -/
def Proper (db : Database) : Operation → Prop
  | .addRrset rrset => ∃ zone, rrset.zone = some zone ∧ zone.Stored db
  | .addMultiLevelLabelRrset rrset zoneRrFactory _ =>
      ∃ zone, rrset.zone = some zone ∧ zone.Stored db ∧ zoneRrFactory.zone.Stored db ∧
        zoneRrFactory.zone.name = zone.name
  | .doUpdate server _ packet => server.zone.Stored db ∧
      ∀ re, Label.matchDataName packet.data.name server.zone.name = .matched re →
        re.rrType ≠ Label.doeRrType
  | _ => True

/-- An update replaces a record that is there already. -/
def Replaces (db : Database) : Operation → Prop
  | .doUpdate server _ packet =>
      ∃ re row, Label.matchDataName packet.data.name server.zone.name = .matched re ∧
        DbMgr.keyRow db server.zone.id re.rrLabel re.rrType = some row
  | _ => True

/-- The operation ends normally, with any behaviour of the key chain and the other services. -/
def Step (db : Database) (operation : Operation) (db' : Database) : Prop :=
  operation.Proper db ∧ ∃ (Keys : Type) (services : Services Keys) (keys keys' : Keys),
    operation.program.Returns (World.handle services) ⟨db, keys⟩ true ⟨db', keys'⟩

theorem Step.valid {db db' : Database} {operation : Operation} (h : Step db operation db')
    (hvalid : db.Valid) : db'.Valid := by
  obtain ⟨-, Keys, services, keys, keys', hreturns⟩ := h
  have hworld : (World.mk db keys).db.Valid := hvalid
  exact valid_of_returns hworld hreturns

/-- After an operation the chains are fresh, unless it was an update that inserted a record. -/
theorem Step.allFresh_iff {db db' : Database} {operation : Operation} (h : Step db operation db')
    (hvalid : db.Valid) (hfresh : AllFresh db) : AllFresh db' ↔ operation.Replaces db := by
  obtain ⟨hproper, Keys, services, keys, keys', hreturns⟩ := h
  have hworld : (World.mk db keys).db.Valid := hvalid
  cases operation with
  | createZone zoneName parentZoneName cacheTtl kskCertName dskCertName dkeyCertName =>
      obtain ⟨_, _, hcreate, h⟩ := Program.returns_bind.mp hreturns
      obtain ⟨-, rfl⟩ := Program.returns_pure.mp h
      exact iff_of_true ((ManagementTool.refreshes_createZone hworld hcreate).allFresh hfresh) trivial
  | addRrset rrset =>
      obtain ⟨zone, hzone, hstored⟩ := hproper
      obtain ⟨_, _, hadd, h⟩ := Program.returns_bind.mp hreturns
      obtain ⟨-, rfl⟩ := Program.returns_pure.mp h
      exact iff_of_true ((ManagementTool.refreshes_addRrset hworld hzone hstored hadd).allFresh
        hfresh) trivial
  | addMultiLevelLabelRrset rrset zoneRrFactory authTtl =>
      obtain ⟨zone, hzone, hstored, hfactory, hsame⟩ := hproper
      obtain ⟨_, _, hadd, h⟩ := Program.returns_bind.mp hreturns
      obtain ⟨-, rfl⟩ := Program.returns_pure.mp h
      exact iff_of_true ((ManagementTool.refreshes_addMultiLevelLabelRrset hworld hzone hstored
        hfactory hsame hadd).allFresh hfresh) trivial
  | addRrsetFromFile zoneName inFile ttl inputDskCertName needResign =>
      obtain ⟨_, _, hadd, h⟩ := Program.returns_bind.mp hreturns
      obtain ⟨-, rfl⟩ := Program.returns_pure.mp h
      exact iff_of_true ((ManagementTool.refreshes_addRrsetFromFile hworld hadd).allFresh hfresh)
        trivial
  | removeRrSet zoneName label type =>
      obtain ⟨_, _, hremove, h⟩ := Program.returns_bind.mp hreturns
      obtain ⟨-, rfl⟩ := Program.returns_pure.mp h
      refine iff_of_true ?_ trivial
      rcases ManagementTool.refreshes_removeRrSet hworld hremove with hsame | hrefreshes
      · rw [show db' = db from hsame]
        exact hfresh
      · exact hrefreshes.allFresh hfresh
  | doUpdate server interest packet =>
      obtain ⟨answer, _, hupdate, h⟩ := Program.returns_bind.mp hreturns
      cases answer with
      | none => simp at h
      | some answer =>
          obtain ⟨-, rfl⟩ := Program.returns_pure.mp h
          obtain ⟨re, hmatch, hdb, -⟩ := returns_doUpdate hworld hupdate
          have htype := hproper.2 re hmatch
          rw [show db' = (NameServer.updateDatabase server re packet db).1 from hdb]
          unfold NameServer.updateDatabase
          cases hrow : DbMgr.keyRow db server.zone.id re.rrLabel re.rrType with
          | none =>
              obtain ⟨zoneRow, hzoneRow, hzoneId, -⟩ := hproper.1 server.zone_found.ne'
              refine iff_of_false ?_ ?_
              · rw [← hzoneId]
                exact hfresh.not_insertRrset hzoneRow htype _ _ _ _
              · rintro ⟨re', row, hmatch', hrow'⟩
                cases hmatch.symm.trans hmatch'
                cases hrow.symm.trans hrow'
          | some row =>
              refine iff_of_true ?_ ⟨re, row, hmatch, hrow⟩
              obtain ⟨hmem, -, -, hrowType⟩ := DbMgr.keyRow_eq_some hrow
              simp only
              split_ifs
              · exact hfresh
              · exact hfresh.updateRrset hvalid hmem (hrowType ▸ htype) _ _ _
              · exact hfresh

/-- A state reached by operations that meet the condition has valid tables and fresh chains. -/
theorem allFresh_of_run {db : Database}
    (hrun : Relation.ReflTransGen (fun before after ↦
      ∃ operation : Operation, operation.Replaces before ∧ Step before operation after)
      Database.empty db) : db.Valid ∧ AllFresh db := by
  induction hrun with
  | refl => exact ⟨Database.valid_empty, by simp [AllFresh, Database.empty]⟩
  | tail _ hstep ih =>
      obtain ⟨operation, hreplaces, hstep⟩ := hstep
      exact ⟨hstep.valid ih.1, (hstep.allFresh_iff ih.1 ih.2).mpr hreplaces⟩

/-- As long as all updates replace records the chains are fresh, and the first update that inserts
one leaves a chain that is not. -/
theorem run_allFresh {db db' : Database} {operation : Operation}
    (hrun : Relation.ReflTransGen (fun before after ↦
      ∃ operation : Operation, operation.Replaces before ∧ Step before operation after)
      Database.empty db) (hstep : Step db operation db') :
    AllFresh db ∧ (AllFresh db' ↔ operation.Replaces db) := by
  obtain ⟨hvalid, hfresh⟩ := allFresh_of_run hrun
  exact ⟨hfresh, hstep.allFresh_iff hvalid hfresh⟩

end Operation

end Fresh

section Examples

open LocalServices NameServer Operation

attribute [local instance] ndnPacketFormat

/-- The zone /n, created in an empty database. -/
def creation : Operation := .createZone [letter 110] [] 3600 [] [] []

def createdDatabase : Database :=
  (creation.program.run (World.handle localServices) ⟨Database.empty, 0⟩).2.db

theorem creation_step : Step Database.empty creation createdDatabase :=
  ⟨trivial, ℕ, localServices, 0, _, Prod.ext rfl rfl⟩

/-- An update with a new record of the zone /n. -/
def netRecord : Data :=
  ⟨Label.recordName [letter 110] [letter 119] Label.txtRrType ++ [Component.fromVersion 1],
    0, 0, [], [], []⟩

def netPacket : Received := ⟨(Layout.encode netRecord).getD Block.invalid, netRecord, by decide⟩

def insertion : Operation := .doUpdate netServer updateInterest netPacket

def updatedDatabase : Database :=
  (insertion.program.run (World.handle localServices) ⟨createdDatabase, 0⟩).2.db

theorem insertion_step : Step createdDatabase insertion updatedDatabase := by
  refine ⟨⟨fun _ ↦ ⟨⟨1, [letter 110], 3600⟩, by decide, rfl, rfl⟩, fun re hmatch ↦ ?_⟩,
    ℕ, localServices, 0, _, Prod.ext rfl rfl⟩
  have hre : Label.MatchOutcome.matched ⟨[letter 119], Label.txtRrType, Component.fromVersion 1⟩ =
    .matched re := hmatch
  cases hre
  decide

theorem run_allFresh_insertion :
    AllFresh createdDatabase ∧ (AllFresh updatedDatabase ↔ insertion.Replaces createdDatabase) :=
  run_allFresh (Relation.ReflTransGen.single ⟨creation, trivial, creation_step⟩) insertion_step

/-- After the creation of a zone and an update with a new record, the chain is not fresh. -/
theorem stale_after_update : ∃ db, Relation.ReflTransGen (fun before after ↦
    ∃ operation : Operation, Step before operation after) Database.empty db ∧ ¬ AllFresh db := by
  refine ⟨updatedDatabase, (Relation.ReflTransGen.single ⟨creation, creation_step⟩).tail
    ⟨insertion, insertion_step⟩, fun hfresh ↦ ?_⟩
  have hzone : updatedDatabase.zones = [⟨1, [letter 110], 3600⟩] := rfl
  have hlength := (hfresh ⟨1, [letter 110], 3600⟩ (by simp [hzone])).length_eq
  revert hlength
  decide

end Examples

end Ndns.Mgmt
