import Ndns.Mgmt.DurableAdditions
import Ndns.Mgmt.Resolvability
import Ndns.Mgmt.SameAnswers

/-!
# Removals Undo Additions

A record that is added to a served zone and removed again leaves no trace in the answers, if there
was no record of its key before, and if all the AUTH records above its label were there: those that
the addition creates stay behind, and a query for one of them is not denied any more.
-/

namespace Ndns.Mgmt

open Ndn Calls Daemon Clients

theorem mem_properPrefixes {label part : Name} :
    part ∈ ManagementTool.properPrefixes label ↔ IsPart part label := by
  rw [ManagementTool.properPrefixes, List.mem_map, isPart_iff]
  simp only [List.mem_range, Name.getPrefix]
  constructor
  · rintro ⟨index, hindex, rfl⟩
    exact ⟨index, by omega, rfl⟩
  · rintro ⟨index, hindex, rfl⟩
    exact ⟨index, by omega, rfl⟩

section

variable [PacketFormat] {Keys : Type} {services : Services Keys} {world world' : World Keys}
  {zone : Zone}

/-! ## The records of an addition -/

/-- AUTH records under new keys with the given labels. -/
def NewAuths (zoneName : Name) (labels : Name → Prop) (rows auths : List RrsetRow) : Prop :=
  ∀ auth ∈ auths, labels auth.label ∧ IsAuth zoneName auth ∧
    ∀ row ∈ rows, recordKey row ≠ recordKey auth

/-- The loop of `addMultiLevelLabelRrset` appends AUTH records where there are none. -/
theorem records_createAuth {rrset result : Rrset} {factory : RrsetFactory} {authTtl : ℤ}
    {prefixes : List Name} (hvalid : world.db.Valid)
    (hkeys : ((records world.db zone.id).map recordKey).Nodup) (hid : zone.id ≠ 0)
    (hzone : rrset.zone = some zone) (hfactory : factory.zone = zone)
    (h : (ManagementTool.createAuth factory authTtl rrset prefixes).Returns (World.handle services)
      world result world') :
    result = rrset ∧ world'.db.Valid ∧ ((records world'.db zone.id).map recordKey).Nodup ∧
      ∃ auths, records world'.db zone.id = records world.db zone.id ++ auths ∧
        NewAuths zone.name (· ∈ prefixes) (records world.db zone.id) auths := by
  induction prefixes generalizing rrset factory world with
  | nil =>
      obtain ⟨rfl, rfl⟩ := Program.returns_pure.mp h
      exact ⟨rfl, hvalid, hkeys, [], (List.append_nil _).symm, by simp [NewAuths]⟩
  | cons labelPrefix rest ih =>
      have hrrset : { rrset with zone := some zone } = rrset := by rw [← hzone]
      obtain ⟨zone', hresolve, hcase⟩ := ManagementTool.returns_createAuth_cons hzone h
      obtain rfl := hresolve.known hid
      rw [hrrset] at hcase
      rcases hcase with ⟨-, -, hrest⟩ | ⟨hnone, auth, authWorld, inserted, insertedWorld, hauth,
        hinsert, hrest⟩
      · obtain ⟨hresult, hvalid', hkeys', auths, hrecords, hauths⟩ :=
          ih hvalid hkeys hzone hfactory hrest
        exact ⟨hresult, hvalid', hkeys', auths, hrecords, fun auth hauth ↦
          ⟨List.mem_cons_of_mem _ (hauths auth hauth).1, (hauths auth hauth).2⟩⟩
      · have hvalid₁ := valid_of_returns (valid_of_returns hvalid hauth) hinsert
        obtain ⟨hinsertedZone, -, row, hrecords, hlabel, hisAuth⟩ :=
          insert_auth hfactory hid hauth hinsert
        have habsent : ∀ other ∈ records world.db zone'.id, recordKey other ≠ recordKey row := by
          intro other hother hkey
          obtain ⟨hotherLabel, hotherType⟩ := recordKey_eq_iff.mp hkey
          have hfound := keyRow_of_mem hkeys hother
          rw [hotherLabel, hlabel, hotherType, hisAuth.1] at hfound
          exact (hvalid.ids_pos other (mem_records.mp hother).1).ne' (hnone hid other hfound)
        have hkeys₁ : ((records insertedWorld.db zone'.id).map recordKey).Nodup := by
          rw [hrecords]
          exact Database.nodup_map_append_singleton hkeys habsent
        rw [hinsertedZone] at hrest
        obtain ⟨hresult, hvalid', hkeys', auths, hrecords', hauths⟩ :=
          ih hvalid₁ hkeys₁ hzone rfl hrest
        rw [hrecords] at hrecords' hauths
        refine ⟨hresult, hvalid', hkeys', row :: auths,
          by rw [hrecords', List.append_assoc, List.singleton_append], ?_⟩
        intro auth' hauth'
        rcases List.mem_cons.mp hauth' with rfl | hauth'
        · exact ⟨hlabel ▸ List.mem_cons_self, hisAuth, habsent⟩
        · obtain ⟨hmem, hisAuth', habsent'⟩ := hauths auth' hauth'
          exact ⟨List.mem_cons_of_mem _ hmem, hisAuth',
            fun other hother ↦ habsent' other (List.mem_append_left _ hother)⟩

/-- Storing a record replaces the record of its key. -/
theorem records_store {rrset : Rrset} (hvalid : world.db.Valid)
    (hkeys : ((records world.db zone.id).map recordKey).Nodup) (hid : zone.id ≠ 0)
    (hzone : rrset.zone = some zone) (hnew : rrset.id = 0) (htype : rrset.type ≠ Label.doeRrType)
    (h : (ManagementTool.store rrset).Returns (World.handle services) world () world') :
    ∃ id, records world'.db zone.id =
      replaceRow (records world.db zone.id) (insertedRow rrset id zone.id) := by
  have hend := (@ManagementTool.completes_store _ services world.db rrset zone _ hvalid hzone).run
    world.keys
  have hresolve : DbMgr.resolveZone world.db zone = zone := if_neg hid
  rw [h, hresolve] at hend
  cases hend () rfl with
  | kept hknown => exact absurd hnew hknown
  | @inserted cleared opened _ stored _ hcleared hopens hfree hregenerates _ =>
      rcases hopens with ⟨-, rfl, rfl⟩ | ⟨hzero, -⟩
      · refine ⟨nextRowId (opened.rrsets.map RrsetRow.id), ?_⟩
        rw [hregenerates.records, records_insertRrset htype]
        cases hcleared with
        | absent hnone =>
            refine (replaceRow_of_absent fun other hother hkey ↦ ?_).symm
            obtain ⟨hlabel, hotherType⟩ := recordKey_eq_iff.mp hkey
            have hfound := keyRow_of_mem hkeys hother
            rw [hlabel, hotherType] at hfound
            exact absurd ((hnone hid).symm.trans hfound) (by simp)
        | @older old _ hold _ =>
            obtain ⟨hmem, hlabel, holdType⟩ := mem_records_of_keyRow htype hold
            have hkey : ∀ id, recordKey old = recordKey (insertedRow rrset id stored.id) :=
              fun id ↦ recordKey_eq_iff.mpr ⟨hlabel, holdType⟩
            rw [records_deleteRrset hvalid hkeys hmem, hkey]
            rfl
      · exact absurd hzero hid

/-- The rows of a served zone after the addition of a record. -/
def AddedRows (zoneName : Name) (rrset : Rrset) (rows rows' : List RrsetRow) : Prop :=
  ∃ auths id zoneId, rows' = replaceRow (rows ++ auths) (insertedRow rrset id zoneId) ∧
    NewAuths zoneName (IsPart · rrset.label) rows auths

theorem records_addMultiLevelLabelRrset {rrset : Rrset} {factory : RrsetFactory} {authTtl : ℤ}
    (hvalid : world.db.Valid) (hkeys : ((records world.db zone.id).map recordKey).Nodup)
    (hid : zone.id ≠ 0) (hzone : rrset.zone = some zone) (hnew : rrset.id = 0)
    (htype : rrset.type ≠ Label.doeRrType) (hfactory : factory.zone = zone)
    (h : (ManagementTool.addMultiLevelLabelRrset rrset factory authTtl).Returns
      (World.handle services) world () world') :
    AddedRows zone.name rrset (records world.db zone.id) (records world'.db zone.id) := by
  have hrrset : { rrset with zone := some zone } = rrset := by rw [← hzone]
  unfold ManagementTool.addMultiLevelLabelRrset at h
  split_ifs at h with hlabel
  · obtain ⟨_, _, -, hthrow⟩ := Program.returns_bind.mp h
    exact (Program.returns_throw.mp hthrow).elim
  · obtain ⟨_, _, hdelegation, h⟩ := Program.returns_bind.mp h
    obtain ⟨rfl, zone₁, hresolve₁, rfl, -⟩ := ManagementTool.returns_checkNoDelegation hzone hdelegation
    obtain rfl := hresolve₁.known hid
    rw [hrrset] at h
    obtain ⟨_, _, hauth, h⟩ := Program.returns_bind.mp h
    obtain ⟨rfl, zone₂, hresolve₂, rfl, -⟩ := ManagementTool.returns_checkNotAuth hzone hauth
    obtain rfl := hresolve₂.known hid
    rw [hrrset] at h
    obtain ⟨result, created, hcreate, hstore⟩ := Program.returns_bind.mp h
    obtain ⟨rfl, hvalid', hkeys', auths, hrecords, hauths⟩ :=
      records_createAuth hvalid hkeys hid hzone hfactory hcreate
    obtain ⟨id, hstored⟩ := records_store hvalid' hkeys' hid hzone hnew htype hstore
    rw [hrecords] at hstored
    refine ⟨auths, id, zone₂.id, hstored, fun auth hmem ↦ ?_⟩
    obtain ⟨hpart, hrest⟩ := hauths auth hmem
    exact ⟨mem_properPrefixes.mp hpart, hrest⟩

theorem records_addRrset {rrset : Rrset} (hvalid : world.db.Valid)
    (hkeys : ((records world.db zone.id).map recordKey).Nodup) (hid : zone.id ≠ 0)
    (hzone : rrset.zone = some zone) (hnew : rrset.id = 0) (htype : rrset.type ≠ Label.doeRrType)
    (h : (ManagementTool.addRrset rrset).Returns (World.handle services) world () world') :
    AddedRows zone.name rrset (records world.db zone.id) (records world'.db zone.id) := by
  have hrrset : { rrset with zone := some zone } = rrset := by rw [← hzone]
  obtain ⟨zone', hresolve, -, hstore⟩ := ManagementTool.returns_addRrset hzone h
  obtain rfl := hresolve.known hid
  rw [hrrset] at hstore
  obtain ⟨id, hstored⟩ := records_store hvalid hkeys hid hzone hnew htype hstore
  exact ⟨[], id, zone'.id, by rw [hstored, List.append_nil], by simp [NewAuths]⟩

/-- The record of a command line has the type on it. -/
theorem type_generateNamedRrset {factory : RrsetFactory} {label : Name} {type : Component}
    {version : ℕ} {ttl : ℤ} {delegations : List Name} {strings : List Blob} {rrset : Rrset}
    (htype : type = Label.nsRrType ∨ type = Label.txtRrType)
    (h : (ManagementTool.generateNamedRrset factory label type version ttl delegations
      strings).Returns (World.handle services) world rrset world') : rrset.type = type := by
  unfold ManagementTool.generateNamedRrset at h
  split_ifs at h with hns htxt
  · rw [(RrsetFactory.returns_generateRrset h).2.2.2.2.1, hns]
  · rw [(RrsetFactory.returns_generateRrset h).2.2.2.2.1, htxt]
  · exact (htype.elim hns htxt).elim

/-- The zone of the factory is the served one. -/
theorem Serves.lookupZone {zoneName : Name} {zoneId : ℕ} {db : Database} (h : Serves zoneName zoneId db) :
    (DbMgr.lookupZone db (Zone.named zoneName)).id = zoneId := by
  obtain ⟨row, hrow, hrowId, hrowName⟩ := h.zone
  have hne : (DbMgr.lookupZone db (Zone.named zoneName)).id ≠ 0 :=
    fun hzero ↦ DbMgr.lookupZone_id_eq_zero h.valid hzero row hrow hrowName
  obtain ⟨found, hfound, hfoundName, hlookup⟩ := DbMgr.lookupZone_id_eq hne
  obtain rfl := List.inj_on_of_nodup_map h.valid.zoneNames hfound hrow
    (hfoundName.trans hrowName.symm)
  rw [hlookup, hrowId]

section Additions

variable {zoneName label dsk : Name} {zoneId : ℕ} {type : Component} {version : ℕ} {ttl : ℤ}
  {delegations : List Name} {strings : List Blob}

/-- The records of a served zone after an addition from the command line. -/
theorem records_addRr (hserves : Serves zoneName zoneId world.db)
    (htype : type = Label.nsRrType ∨ type = Label.txtRrType)
    (h : (ManagementTool.addRr zoneName label type version ttl dsk delegations strings).Returns
      (World.handle services) world () world') :
    ∃ rrset, rrset.label = label ∧ rrset.type = type ∧
      AddedRows zoneName rrset (records world.db zoneId) (records world'.db zoneId) := by
  obtain ⟨made, madeWorld, hmake, h⟩ := Program.returns_bind.mp h
  obtain ⟨outcome, checkWorld, hcheck, h⟩ := Program.returns_bind.mp h
  obtain ⟨factory, raised, hraise, h⟩ := Program.returns_bind.mp h
  obtain ⟨rrset, middle, hgenerate, h⟩ := Program.returns_bind.mp h
  have hmadeDb := db_of_returns (RrsetFactory.reads_make _ _) hmake
  obtain ⟨hmadeZone, hmadeNew⟩ := RrsetFactory.returns_make hmake
  obtain ⟨-, hzone, hid, hcheckDb⟩ := RrsetFactory.returns_checkZoneKey hmadeNew
    (Program.returns_bind.mpr ⟨outcome, checkWorld, hcheck, hraise⟩)
  rw [hmadeZone, hmadeDb] at hzone
  obtain ⟨hdb, hnew, hrrsetZone, hlabel, hadded⟩ := added_generateNamedRrset htype hgenerate
  have hname : factory.zone.name = zoneName := by
    rw [hzone, DbMgr.lookupZone_name]
    rfl
  have hzoneId : factory.zone.id = zoneId := by rw [hzone, hserves.lookupZone]
  rw [← hdb.trans (hcheckDb.trans hmadeDb)] at hserves
  rw [← hdb.trans (hcheckDb.trans hmadeDb), ← hname]
  have hkeys := hserves.shape.keys
  rw [← hzoneId] at hkeys ⊢
  refine ⟨rrset, hlabel, type_generateNamedRrset htype hgenerate, ?_⟩
  split_ifs at h
  · exact records_addMultiLevelLabelRrset hserves.valid hkeys hid hrrsetZone hnew hadded.type_ne rfl h
  · exact records_addRrset hserves.valid hkeys hid hrrsetZone hnew hadded.type_ne h

/-! ## The records of a removal -/

/-- A removal leaves a zone that answers without the record of the key. -/
theorem records_removeRrSet (hserves : Serves zoneName zoneId world.db)
    (htype : type ≠ Label.doeRrType)
    (h : (ManagementTool.removeRrSet zoneName label type).Returns (World.handle services) world ()
      world') :
    Answering zoneName zoneId world'.db ∧ records world'.db zoneId =
      (records world.db zoneId).filter fun row ↦ recordKey row ≠ toLex (label, type) := by
  obtain ⟨⟨found, rrset⟩, _, hfind, h⟩ := Program.returns_bind.mp h
  have hzone : (Rrset.keyed (Zone.named zoneName) label type).zone = some (Zone.named zoneName) :=
    rfl
  obtain ⟨hpick, rfl⟩ := (DbMgr.returns_findRrset hzone).mp hfind
  have hrrset := congrArg Prod.snd hpick
  have hfound := congrArg Prod.fst hpick
  simp only at hrrset hfound h
  have hresolve : DbMgr.resolveZone world.db (Zone.named zoneName) =
      DbMgr.lookupZone world.db (Zone.named zoneName) := if_pos rfl
  have hname : (DbMgr.lookupZone world.db (Zone.named zoneName)).name = zoneName := by
    rw [DbMgr.lookupZone_name]
    rfl
  have hpick_cases := DbMgr.pick_cases (Rrset.keyed (Zone.named zoneName) label type)
    (DbMgr.lookupZone world.db (Zone.named zoneName)) (DbMgr.keyRow world.db zoneId label type)
  rw [hresolve, hserves.lookupZone] at hrrset hfound
  rcases hpick_cases with ⟨htrue, hid, row, hrow, hrowId, hfilled⟩ | ⟨hfalse, hnone⟩
  · have hrrsetEq := hrrset.symm.trans hfilled
    rw [hfound.symm.trans htrue, if_pos rfl, hrrsetEq] at h
    obtain ⟨_, _, hremove, h⟩ := Program.returns_bind.mp h
    obtain ⟨-, rfl⟩ := (Program.returns_iff_of_run (DbMgr.run_removeRrset hrowId world)).mp hremove
    obtain ⟨regenerated, last, hgenerate, h⟩ := Program.returns_bind.mp h
    obtain ⟨-, rfl⟩ := Program.returns_pure.mp h
    replace hgenerate : (ManagementTool.generateDoe _).Returns (World.handle services)
        ⟨world.db.deleteRrset row.id, world.keys⟩ regenerated last := hgenerate
    have hvalid := valid_of_returns (hserves.valid.filterRrsets _) hgenerate
    obtain ⟨rfl, -, hnonempty, hregenerates⟩ := ManagementTool.returns_generateDoe hgenerate
    have hzoneId : (DbMgr.lookupZone (world.db.deleteRrset row.id)
        (DbMgr.lookupZone world.db (Zone.named zoneName))).id = zoneId := by
      rw [← hserves.lookupZone]
      exact DbMgr.lookupZone_id_congr rfl (hname.trans rfl)
    rw [hname, hzoneId] at hregenerates
    rw [hzoneId, ← hregenerates.records] at hnonempty
    obtain ⟨hmem, hlabel, hrowType⟩ := mem_records_of_keyRow htype hrow
    have hrecords := hregenerates.records zoneId
    rw [records_deleteRrset hserves.valid hserves.shape.keys hmem, recordKey, hlabel, hrowType]
      at hrecords
    refine ⟨⟨hvalid, ?_, hnonempty, hregenerates.chained⟩, hrecords⟩
    rw [hrecords]
    exact Database.nodup_map_filter hserves.shape.keys _
  · rw [hfound.symm.trans hfalse, if_neg Bool.false_ne_true, Program.returns_pure] at h
    rw [← h.2]
    refine ⟨hserves.answering, (List.filter_eq_self.mpr fun row hrow ↦ decide_eq_true ?_).symm⟩
    intro hkey
    obtain ⟨hlabel, hrowType⟩ := Prod.ext_iff.mp (toLex_inj.mp hkey)
    have hrowKey := keyRow_of_mem hserves.shape.keys hrow
    rw [show row.label = label from hlabel, show row.type = type from hrowType] at hrowKey
    have hzone : (DbMgr.lookupZone world.db (Zone.named zoneName)).id ≠ 0 := by
      rw [hserves.lookupZone]
      obtain ⟨zoneRow, hzoneRow, rfl, -⟩ := hserves.zone
      exact (hserves.valid.zoneIds_pos zoneRow hzoneRow).ne'
    exact (hserves.valid.ids_pos row (mem_records.mp hrow).1).ne' (hnone hzone row hrowKey)

/-! ## Both together -/

theorem AnswersAlike.symm {server : NameServer} {db db' : Database}
    (h : AnswersAlike services server db db') : AnswersAlike services server db' db :=
  fun interest re hmatch hupdate hdoe keys keys' ↦
    (h interest re hmatch hupdate hdoe keys' keys).symm

/-- The records of an addition are made by the factory of the zone. -/
theorem carries_of_made {zoneName : Name} {row : RrsetRow}
    (h : IsLink zoneName row ∨ IsAuth zoneName row ∨ IsText zoneName row) :
    Queried row.type ∧ ∃ contentType content, RowCarries zoneName row contentType content ∧
      (contentType = .link ∨ contentType = .auth ∨ contentType = .resp) := by
  rcases h with ⟨htype, _, content, -, hcarries⟩ | ⟨htype, hcarries⟩ | ⟨htype, _, content, -, hcarries⟩
  · exact ⟨htype ▸ queried_ns, .link, content, hcarries, Or.inl rfl⟩
  · exact ⟨htype ▸ queried_ns, .auth, [], hcarries, Or.inr (Or.inl rfl)⟩
  · exact ⟨htype ▸ queried_txt, .resp, content, hcarries, Or.inr (Or.inr rfl)⟩

/-- After an addition and a removal of the same key, the server answers all queries as before
exactly if there was no record of the key and all parts of its label had NS records. -/
theorem removal_undoes_iff {Keys' Serving : Type} {services' : Services Keys'}
    {serving : Services Serving} [Nonempty Serving] {server : NameServer} {keys' : Keys'}
    {removed : World Keys'} (hserves : Serves server.zone.name server.zone.id world.db)
    (hsigns : serving.SignsByDefault) (htype : type = Label.nsRrType ∨ type = Label.txtRrType)
    (hadd : (ManagementTool.addRr server.zone.name label type version ttl dsk delegations
      strings).Returns (World.handle services) world () world')
    (hremove : (ManagementTool.removeRrSet server.zone.name label type).Returns
      (World.handle services') ⟨world'.db, keys'⟩ () removed) :
    AnswersAlike serving server world.db removed.db ↔
      DbMgr.keyRow world.db server.zone.id label type = none ∧ ∀ part, IsPart part label →
        ∃ auth ∈ records world.db server.zone.id, auth.label = part ∧
          auth.type = Label.nsRrType := by
  have hdoe : type ≠ Label.doeRrType := by
    rcases htype with rfl | rfl <;> decide
  have hadded := serves_addRr hserves htype hadd
  obtain ⟨rrset, hlabel, hrrsetType, auths, id, zoneId, hrows, hauths⟩ :=
    records_addRr hserves htype hadd
  obtain ⟨hanswering, hremoved⟩ :=
    @records_removeRrSet _ _ services' ⟨world'.db, keys'⟩ _ _ _ _ _ hadded hdoe hremove
  have hkey : recordKey (insertedRow rrset id zoneId) = toLex (label, type) := by
    rw [← hlabel, ← hrrsetType]
    rfl
  have hleft : records removed.db server.zone.id =
      (records world.db server.zone.id ++ auths).filter fun row ↦
        recordKey row ≠ toLex (label, type) := by
    rw [hremoved, hrows, replaceRow, hkey, List.filter_append, List.filter_filter]
    simp [hkey]
  constructor
  · intro halike
    constructor
    · by_contra hne
      obtain ⟨row, hrow⟩ := Option.ne_none_iff_exists'.mp hne
      obtain ⟨hmem, rfl, rfl⟩ := mem_records_of_keyRow hdoe hrow
      have hmade : IsLink server.zone.name row ∨ IsAuth server.zone.name row ∨
          IsText server.zone.name row := by
        rcases htype with hns | htxt
        · exact (hserves.shape.ns row hmem hns).imp_right Or.inl
        · exact Or.inr (Or.inr (hserves.shape.txt row hmem htxt))
      obtain ⟨hqueried, contentType, content, hcarries, hcontentType⟩ := carries_of_made hmade
      refine hanswering.not_alike hserves.valid hsigns hqueried ?_ hrow hcarries hcontentType
        halike.symm
      rw [DbMgr.keyRow_eq_none]
      rintro other hother ⟨hzone, hotherLabel, hotherType⟩
      have hmem' : other ∈ records removed.db server.zone.id :=
        mem_records.mpr ⟨hother, hzone, hotherType ▸ hdoe⟩
      rw [hremoved, List.mem_filter] at hmem'
      refine of_decide_eq_true hmem'.2 ?_
      rw [recordKey, hotherLabel, hotherType]
    · intro part hpart
      by_contra hmissing
      have hnew : insertedRow rrset id zoneId ∈ records world'.db server.zone.id := by
        rw [hrows]
        exact mem_replaceRow.mpr (Or.inr rfl)
      have hnewType : (insertedRow rrset id zoneId).type = Label.nsRrType ∨
          (insertedRow rrset id zoneId).type = Label.txtRrType := by
        rwa [insertedRow, hrrsetType]
      have hnewPart : IsPart part (insertedRow rrset id zoneId).label := by
        rwa [insertedRow, hlabel]
      obtain ⟨auth, hauth, rfl, hisAuth⟩ := hadded.shape.parts _ hnew hnewType part hnewPart
      have hmem : auth ∈ records removed.db server.zone.id := by
        rw [hremoved, List.mem_filter, decide_eq_true_iff]
        refine ⟨hauth, fun hauthKey ↦ hpart.2.2 ?_⟩
        exact congrArg Prod.fst (toLex_inj.mp hauthKey)
      obtain ⟨hqueried, contentType, content, hcarries, hcontentType⟩ :=
        carries_of_made (Or.inr (Or.inl hisAuth))
      refine hserves.answering.not_alike hanswering.valid hsigns hqueried ?_
        (keyRow_of_mem hanswering.keys hmem) hcarries hcontentType halike
      rw [DbMgr.keyRow_eq_none]
      rintro other hother ⟨hzone, hotherLabel, hotherType⟩
      rw [hisAuth.1] at hotherType
      refine hmissing ⟨other, mem_records.mpr ⟨hother, hzone, ?_⟩, hotherLabel, hotherType⟩
      rw [hotherType]
      decide
  · rintro ⟨hnone, hparts⟩
    have hempty : auths = [] := by
      refine List.eq_nil_iff_forall_not_mem.mpr fun auth hauth ↦ ?_
      obtain ⟨hpart, hisAuth, habsent⟩ := hauths auth hauth
      obtain ⟨row, hrow, hrowLabel, hrowType⟩ := hparts _ (hlabel ▸ hpart)
      exact habsent row hrow (recordKey_eq_iff.mpr ⟨hrowLabel, hrowType.trans hisAuth.1.symm⟩)
    have hsame : records removed.db server.zone.id = records world.db server.zone.id := by
      rw [hleft, hempty, List.append_nil]
      refine List.filter_eq_self.mpr fun row hrow ↦ decide_eq_true fun hrowKey ↦ ?_
      obtain ⟨hrowLabel, hrowType⟩ := Prod.ext_iff.mp (toLex_inj.mp hrowKey)
      have hfound := keyRow_of_mem hserves.shape.keys hrow
      rw [show row.label = label from hrowLabel, show row.type = type from hrowType, hnone] at hfound
      cases hfound
    exact hserves.answering.alike hanswering hsigns
      (samePackets_of_records hserves.shape.keys hsame)

end Additions

end

section Examples

open LocalServices NameServer

attribute [local instance] ndnPacketFormat

theorem serves_netZone : Serves netServer.zone.name netServer.zone.id netZone :=
  serves_createZone Database.valid_empty (by simp [Database.empty]) netZone_step

/-- The removal of a TXT record from the zone. -/
def removal (label : Name) (db : Database) : Except Fault Unit × World ℕ :=
  (ManagementTool.removeRrSet [letter 110] label Label.txtRrType).run (World.handle localServices)
    ⟨db, 0⟩

/-- Where a label is of one part, a TXT record comes and goes without a trace.  Where it is of two,
an AUTH record stays. -/
theorem removal_undoes_texts :
    AnswersAlike localServices netServer netZone
        (removal [letter 119] (withText [letter 119] netZone)).2.db ∧
      ¬ AnswersAlike localServices netServer netZone
        (removal [letter 97, letter 119] (withText [letter 97, letter 119] netZone)).2.db := by
  have hsigns : localServices.SignsByDefault := fun _ _ ↦ rfl
  have hiff : ∀ label : Name,
      ((ManagementTool.addRr [letter 110] label Label.txtRrType 1 3600 [] [] []).run
        (World.handle localServices) ⟨netZone, 0⟩).1 = .ok () →
      (removal label (withText label netZone)).1 = .ok () →
      (AnswersAlike localServices netServer netZone (removal label (withText label netZone)).2.db ↔
        DbMgr.keyRow netZone 1 label Label.txtRrType = none ∧ ∀ part, IsPart part label →
          ∃ auth ∈ records netZone 1, auth.label = part ∧ auth.type = Label.nsRrType) := by
    intro label hadd hremove
    exact @removal_undoes_iff _ _ localServices ⟨netZone, 0⟩ _ label [] Label.txtRrType 1 3600 [] [] _
      _ localServices localServices _ netServer 0 _ serves_netZone hsigns (Or.inr rfl)
      (Prod.ext hadd rfl) (Prod.ext hremove rfl)
  constructor
  · rw [hiff [letter 119] (by decide +kernel) (by decide +kernel)]
    refine ⟨by decide +kernel, fun part hpart ↦ ?_⟩
    obtain ⟨index, hindex, -⟩ := isPart_iff.mp hpart
    exact absurd hindex (by simp)
  · rw [hiff [letter 97, letter 119] (by decide +kernel) (by decide +kernel)]
    rintro ⟨-, hparts⟩
    obtain ⟨auth, hauth, -, hns⟩ := hparts [letter 97] (isPart_iff.mpr ⟨0, by simp, rfl⟩)
    have hnone : ∀ row ∈ records netZone 1, row.type ≠ Label.nsRrType := by decide +kernel
    exact hnone auth hauth hns

end Examples

end Ndns.Mgmt
