import Ndns.Mgmt.DenialFreshness
import Ndns.Mgmt.ZoneShape

/-!
# Served Zones

A served zone has records of the right shape and a chain over them.  `createZone` makes one, and
every addition the way `ndns-add-rr` makes it keeps it one, whether the addition is to this zone or
to another one.
-/

namespace Ndns.Mgmt

open Ndn Calls Daemon

variable {Keys : Type} {services : Services Keys} {world world' : World Keys} {zone : Zone}

/-- An insertion through an object of a known zone. -/
theorem insertRrset_known {rrset result : Rrset} (hzone : rrset.zone = some zone)
    (hid : zone.id ≠ 0) (hnew : rrset.id = 0)
    (h : (DbMgr.insertRrset rrset).Returns (World.handle services) world result world') :
    result.zone = some zone ∧
      world' = { world with db := (world.db.insertRrset zone.id rrset.label rrset.type
        rrset.version rrset.ttl rrset.data) } := by
  rcases DbMgr.returns_insertRrset hzone h with ⟨hne, -⟩ | ⟨stored, _, -, hinsert, -, rfl, rfl⟩
  · exact absurd hnew hne
  · rcases DbMgr.returns_insertZone hinsert with ⟨-, rfl, rfl⟩ | ⟨hzero, -⟩
    · exact ⟨rfl, rfl⟩
    · exact absurd hzero hid

variable [PacketFormat]

/-! ## Served zones -/

/-- A zone whose records have the shape and whose denial records are the chain. -/
structure Serves (zoneName : Name) (zoneId : ℕ) (db : Database) : Prop where
  valid : db.Valid
  zone : ∃ row ∈ db.zones, row.id = zoneId ∧ row.name = zoneName
  shape : ZoneShape zoneName (records db zoneId)
  chained : Chained zoneName zoneId db

/-- A regeneration serves a zone whose records have the shape. -/
theorem serves_generateDoe {regenerated : Zone} (hvalid : world.db.Valid)
    (hstored : zone.Stored world.db) (hid : zone.id ≠ 0)
    (hshape : ZoneShape zone.name (records world.db zone.id))
    (h : (ManagementTool.generateDoe zone).Returns (World.handle services) world regenerated
      world') :
    Serves zone.name zone.id world'.db := by
  have hvalid' := valid_of_returns hvalid h
  obtain ⟨rfl, -, -, hregenerates⟩ := ManagementTool.returns_generateDoe h
  rw [lookupZone_id_of_stored hvalid hstored hid] at hregenerates
  refine ⟨hvalid', ?_, ?_, hregenerates.chained⟩
  · rw [hregenerates.zones.1]
    exact hstored hid
  · rw [hregenerates.records]
    exact hshape

/-- Storing a record replaces it and regenerates the chain. -/
theorem serves_store {rrset : Rrset} (hvalid : world.db.Valid) (hzone : rrset.zone = some zone)
    (hstored : zone.Stored world.db) (hid : zone.id ≠ 0) (hnew : rrset.id = 0)
    (htype : rrset.type ≠ Label.doeRrType) (hkeys : ((records world.db zone.id).map recordKey).Nodup)
    (hshape : ∀ id, ZoneShape zone.name
      (replaceRow (records world.db zone.id) (insertedRow rrset id zone.id)))
    (h : (ManagementTool.store rrset).Returns (World.handle services) world () world') :
    Serves zone.name zone.id world'.db := by
  obtain ⟨checked, checkedWorld, inserted, insertedWorld, stored, regenerated, hcheck, hinsert,
    hinsertedZone, hgenerate⟩ := ManagementTool.returns_store h
  have hvalid₁ := valid_of_returns hvalid hcheck
  have hvalid₂ := valid_of_returns hvalid₁ hinsert
  have hresolve : DbMgr.resolveZone world.db zone = zone := if_neg hid
  obtain ⟨rfl, hchecked⟩ := ManagementTool.returns_checkRrsetVersion hzone hcheck
  have hrrset : { rrset with zone := some zone } = rrset := by rw [← hzone]
  rw [hresolve] at hchecked hinsert
  rw [hrrset] at hinsert
  obtain ⟨hsame, rfl⟩ := insertRrset_known hzone hid hnew hinsert
  obtain rfl := Option.some.inj (hinsertedZone.symm.trans hsame)
  have hstored' : stored.Stored checkedWorld.db := by
    intro hne
    have hzones : checkedWorld.db.zones = world.db.zones := by
      rcases hchecked with ⟨rfl, -⟩ | ⟨-, row, -, -, rfl⟩ <;> rfl
    rw [hzones]
    exact hstored hne
  refine serves_generateDoe hvalid₂ hstored' hid ?_ hgenerate
  rw [records_insertRrset htype]
  have hreplace : ∀ id, records checkedWorld.db stored.id ++ [insertedRow rrset id stored.id] =
      replaceRow (records world.db stored.id) (insertedRow rrset id stored.id) := by
    intro id
    rcases hchecked with ⟨rfl, hnone⟩ | ⟨-, old, hold, -, rfl⟩
    · refine (replaceRow_of_absent fun other hother hkey ↦ ?_).symm
      obtain ⟨hlabel, hotherType⟩ := recordKey_eq_iff.mp hkey
      have hrow := keyRow_of_mem hkeys hother
      rw [hlabel, hotherType] at hrow
      exact (hvalid.ids_pos other (mem_records.mp hother).1).ne' (hnone hid other hrow)
    · obtain ⟨hmem, hlabel, holdType⟩ := mem_records_of_keyRow htype hold
      have hkey : recordKey old = recordKey (insertedRow rrset id stored.id) :=
        recordKey_eq_iff.mpr ⟨hlabel, holdType⟩
      rw [records_deleteRrset hvalid hkeys hmem, hkey]
      rfl
  exact (hreplace _).symm ▸ hshape _

/-! ## Additions -/

/-- An NS record that differs from a content type was not made with it. -/
theorem not_carries_of_nsDiffers {zoneName : Name} {zoneId : ℕ} {db : Database} {label : Name}
    {contentType : NdnsContentType} (hvalid : db.Valid)
    (hkeys : ((records db zoneId).map recordKey).Nodup)
    (h : ManagementTool.NsDiffers db zoneId label contentType) {row : RrsetRow}
    (hrow : row ∈ records db zoneId) (hlabel : row.label = label)
    (htype : row.type = Label.nsRrType) {content : Blob}
    (hcarries : RowCarries zoneName row contentType content)
    (hcode : NdnsContentType.ofCode contentType.toCode = contentType) : False := by
  have hkey := keyRow_of_mem hkeys hrow
  rw [hlabel, htype] at hkey
  obtain ⟨data, hdecode, hdiffers⟩ := h row hkey (hvalid.ids_pos row (mem_records.mp hrow).1).ne'
  rw [(hcarries.decode hdecode).2.1] at hdiffers
  exact hdiffers hcode

/-- The record of an object was made by the factory for an addition. -/
def Added (zoneName : Name) (rrset : Rrset) : Prop :=
  IsLink zoneName (insertedRow rrset 0 0) ∨ IsText zoneName (insertedRow rrset 0 0)

theorem Added.type_ne {zoneName : Name} {rrset : Rrset} (h : Added zoneName rrset) :
    rrset.type ≠ Label.doeRrType := by
  rcases h with ⟨hns, -⟩ | ⟨htxt, -⟩
  · rintro hdoe
    exact absurd (hns.symm.trans hdoe) (by decide)
  · rintro hdoe
    exact absurd (htxt.symm.trans hdoe) (by decide)

theorem Added.row {zoneName : Name} {rrset : Rrset} (h : Added zoneName rrset) (id zoneId : ℕ) :
    IsLink zoneName (insertedRow rrset id zoneId) ∨
      IsAuth zoneName (insertedRow rrset id zoneId) ∨
      IsText zoneName (insertedRow rrset id zoneId) := by
  rcases h with hlink | htext
  · exact Or.inl hlink
  · exact Or.inr (Or.inr htext)

/-- The addition of a record with a label of at most one component. -/
theorem serves_addRrset {rrset : Rrset} (h : Serves zone.name zone.id world.db)
    (hzone : rrset.zone = some zone) (hid : zone.id ≠ 0) (hnew : rrset.id = 0)
    (hadded : Added zone.name rrset) (hlabel : rrset.label.length ≤ 1)
    (hreturns : (ManagementTool.addRrset rrset).Returns (World.handle services) world () world') :
    Serves zone.name zone.id world'.db := by
  obtain ⟨zone', hresolve, hdiffers, hstore⟩ := ManagementTool.returns_addRrset hzone hreturns
  obtain rfl := hresolve.known hid
  have hrrset : { rrset with zone := some zone' } = rrset := by rw [← hzone]
  have hresolved : DbMgr.resolveZone world.db zone' = zone' := if_neg hid
  rw [hrrset] at hstore
  rw [hresolved] at hdiffers
  refine serves_store h.valid hzone (fun _ ↦ h.zone) hid hnew hadded.type_ne h.shape.keys
    (fun id ↦ h.shape.replaceRow (hadded.row id zone'.id) ?_ ?_) hstore
  · intro part hpart
    obtain ⟨index, hindex, -⟩ := isPart_iff.mp hpart
    have hshort : (insertedRow rrset id zone'.id).label.length ≤ 1 := hlabel
    omega
  · intro other hother hkey hauth
    exact not_carries_of_nsDiffers h.valid h.shape.keys (hdiffers hid) hother
      (recordKey_eq_iff.mp hkey).1 hauth.1 hauth.2 rfl

/-- The generation and insertion of one AUTH record. -/
theorem insert_auth {auth inserted : Rrset} {factory : RrsetFactory} {authTtl : ℤ} {label : Name}
    {authWorld insertedWorld : World Keys} (hfactory : factory.zone = zone) (hid : zone.id ≠ 0)
    (hauth : (factory.generateAuthRrset label versionUseUnixTimestamp authTtl).Returns
      (World.handle services) world auth authWorld)
    (hinsert : (DbMgr.insertRrset auth).Returns (World.handle services) authWorld inserted
      insertedWorld) :
    inserted.zone = some zone ∧ insertedWorld.db.zones = world.db.zones ∧
      ∃ row, records insertedWorld.db zone.id = records world.db zone.id ++ [row] ∧
        row.label = label ∧ IsAuth zone.name row := by
  obtain ⟨hdb, hauthId, hauthZone, hauthLabel, hauthType, bytes, hbytes, hcarries⟩ :=
    RrsetFactory.returns_generateRrset hauth
  rw [hfactory] at hauthZone hcarries
  cases hbytes
  obtain ⟨hinsertedZone, rfl⟩ := insertRrset_known hauthZone hid hauthId hinsert
  refine ⟨hinsertedZone, (congrArg Database.zones hdb :),
    insertedRow auth (nextRowId (authWorld.db.rrsets.map RrsetRow.id)) zone.id, ?_, hauthLabel,
    hauthType, ?_⟩
  · rw [records_insertRrset (hauthType ▸ by decide), hdb]
    rfl
  · rw [← hauthLabel, ← hauthType] at hcarries
    exact hcarries

/-- The AUTH records that an addition creates: from some prefix on they were missing, and
afterwards all proper prefixes have one. -/
theorem shape_createAuth {rrset result : Rrset} {factory : RrsetFactory} {authTtl : ℤ}
    {label : Name} {count : ℕ} (start : ℕ) (hcount : start + count + 1 = label.length)
    (hvalid : world.db.Valid) (hstored : zone.Stored world.db) (hid : zone.id ≠ 0)
    (hzone : rrset.zone = some zone) (hfactory : factory.zone = zone)
    (hshape : ZoneShape zone.name (records world.db zone.id))
    (hdone : ∀ index < start, ∃ auth ∈ records world.db zone.id,
      auth.label = label.take (index + 1) ∧ IsAuth zone.name auth)
    (hnolink : ∀ part, IsPart part label → ∀ row ∈ records world.db zone.id, row.label = part →
      ¬ IsLink zone.name row)
    (h : (ManagementTool.createAuth factory authTtl rrset
      ((List.range' start count).map fun index ↦ label.getPrefix (index + 1))).Returns
        (World.handle services) world result world') :
    result = rrset ∧ world'.db.Valid ∧ zone.Stored world'.db ∧
      ZoneShape zone.name (records world'.db zone.id) ∧
      (∀ part, IsPart part label → ∃ auth ∈ records world'.db zone.id, auth.label = part ∧
        IsAuth zone.name auth) ∧
      ∀ row ∈ records world'.db zone.id, row ∈ records world.db zone.id ∨
        row.label.length < label.length := by
  induction count generalizing start rrset factory world with
  | zero =>
      obtain ⟨rfl, rfl⟩ := Program.returns_pure.mp h
      refine ⟨rfl, hvalid, hstored, hshape, fun part hpart ↦ ?_, fun row hrow ↦ Or.inl hrow⟩
      obtain ⟨index, hindex, rfl⟩ := isPart_iff.mp hpart
      exact hdone index (by omega)
  | succ count ih =>
      rw [List.range'_succ, List.map_cons] at h
      have hpart : IsPart (label.getPrefix (start + 1)) label :=
        isPart_iff.mpr ⟨start, by omega, rfl⟩
      have hrrset : { rrset with zone := some zone } = rrset := by rw [← hzone]
      obtain ⟨zone', hresolve, hcase⟩ := ManagementTool.returns_createAuth_cons hzone h
      obtain rfl := hresolve.known hid
      rcases hcase with ⟨-, ⟨row, hrow⟩, hrest⟩ | ⟨hnone, auth, authWorld, inserted, insertedWorld,
        hauth, hinsert, hrest⟩
      · obtain ⟨hmem, hlabel, htype⟩ := mem_records_of_keyRow (by decide) hrow
        have hisAuth := (hshape.ns row hmem htype).resolve_left (hnolink _ hpart row hmem hlabel)
        refine ih (start + 1) (by omega) hvalid hstored hzone hfactory hshape ?_ hnolink
          (hrrset ▸ hrest)
        intro index hindex
        rcases Nat.lt_succ_iff_lt_or_eq.mp hindex with hlt | rfl
        · exact hdone index hlt
        · exact ⟨row, hmem, hlabel, hisAuth⟩
      · have hvalid' := valid_of_returns (valid_of_returns hvalid hauth) hinsert
        obtain ⟨hinsertedZone, hzones, row, hrecords, hrowLabel, hrowAuth⟩ :=
          insert_auth hfactory hid hauth hinsert
        have habsent : ∀ other ∈ records world.db zone'.id, recordKey other ≠ recordKey row := by
          intro other hother hkey
          obtain ⟨hlabel, htype⟩ := recordKey_eq_iff.mp hkey
          have hfound := keyRow_of_mem hshape.keys hother
          rw [hlabel, hrowLabel, htype, hrowAuth.1] at hfound
          exact (hvalid.ids_pos other (mem_records.mp hother).1).ne' (hnone hid other hfound)
        have hshape' : ZoneShape zone'.name (records world.db zone'.id ++ [row]) := by
          refine hshape.append (Or.inr (Or.inl hrowAuth)) (fun part hrowPart ↦ ?_) habsent
          obtain ⟨index, hindex, rfl⟩ := isPart_iff.mp hrowPart
          rw [hrowLabel, Name.getPrefix, List.length_take] at hindex
          obtain ⟨found, hfound, hfoundLabel, hfoundAuth⟩ := hdone index (by omega)
          refine ⟨found, hfound, ?_, hfoundAuth⟩
          rw [hfoundLabel, hrowLabel, Name.getPrefix, List.take_take, min_eq_left (by omega)]
        have hstored' : zone'.Stored insertedWorld.db := by
          rw [Zone.Stored, hzones]
          exact hstored
        simp only [hinsertedZone, Option.getD_some] at hrest
        rw [hrrset] at hrest
        have hdone' : ∀ index < start + 1, ∃ found ∈ records world.db zone'.id ++ [row],
            found.label = label.take (index + 1) ∧ IsAuth zone'.name found := by
          intro index hindex
          rcases Nat.lt_succ_iff_lt_or_eq.mp hindex with hlt | rfl
          · obtain ⟨found, hfound, hfoundAuth⟩ := hdone index hlt
            exact ⟨found, List.mem_append_left _ hfound, hfoundAuth⟩
          · exact ⟨row, List.mem_append_right _ List.mem_cons_self, hrowLabel, hrowAuth⟩
        have hnolink' : ∀ part, IsPart part label → ∀ other ∈ records world.db zone'.id ++ [row],
            other.label = part → ¬ IsLink zone'.name other := by
          intro part hpart' other hother hlabel
          rcases List.mem_append.mp hother with hold | hnew
          · exact hnolink part hpart' other hold hlabel
          · rw [List.mem_singleton.mp hnew]
            exact fun hlink ↦ hlink.not_isAuth hrowAuth
        rw [← hrecords] at hshape' hdone' hnolink'
        obtain ⟨hresult, hvalid'', hstored'', hshape'', hparts, hrows⟩ := ih (start + 1)
          (by omega) hvalid' hstored' hzone rfl hshape' hdone' hnolink' hrest
        refine ⟨hresult, hvalid'', hstored'', hshape'', hparts, fun other hother ↦ ?_⟩
        rcases hrows other hother with hold | hshort
        · rw [hrecords] at hold
          rcases List.mem_append.mp hold with hold | hnew
          · exact Or.inl hold
          · right
            rw [List.mem_singleton.mp hnew, hrowLabel, Name.getPrefix, List.length_take]
            omega
        · exact Or.inr hshort

/-- The addition of a record with a longer label. -/
theorem serves_addMultiLevelLabelRrset {rrset : Rrset} {factory : RrsetFactory} {authTtl : ℤ}
    (h : Serves zone.name zone.id world.db) (hzone : rrset.zone = some zone) (hid : zone.id ≠ 0)
    (hnew : rrset.id = 0) (hadded : Added zone.name rrset) (hfactory : factory.zone = zone)
    (hreturns : (ManagementTool.addMultiLevelLabelRrset rrset factory authTtl).Returns
      (World.handle services) world () world') :
    Serves zone.name zone.id world'.db := by
  have hrrset : { rrset with zone := some zone } = rrset := by rw [← hzone]
  unfold ManagementTool.addMultiLevelLabelRrset at hreturns
  split_ifs at hreturns with hlabel
  · obtain ⟨_, _, -, hthrow⟩ := Program.returns_bind.mp hreturns
    exact (Program.returns_throw.mp hthrow).elim
  · obtain ⟨_, _, hdelegation, hreturns⟩ := Program.returns_bind.mp hreturns
    obtain ⟨rfl, zone₁, hresolve₁, rfl, hnolink⟩ :=
      ManagementTool.returns_checkNoDelegation hzone hdelegation
    obtain rfl := hresolve₁.known hid
    rw [hrrset] at hreturns
    obtain ⟨_, _, hauth, hreturns⟩ := Program.returns_bind.mp hreturns
    obtain ⟨rfl, zone₂, hresolve₂, rfl, hnotAuth⟩ := ManagementTool.returns_checkNotAuth hzone hauth
    obtain rfl := hresolve₂.known hid
    have hresolved : DbMgr.resolveZone world.db zone₂ = zone₂ := if_neg hid
    rw [hresolved] at hnotAuth
    rw [hrrset] at hreturns
    obtain ⟨_, created, hcreate, hstore⟩ := Program.returns_bind.mp hreturns
    have hpos : 0 < rrset.label.length := List.length_pos_of_ne_nil hlabel
    rw [ManagementTool.properPrefixes, List.range_eq_range'] at hcreate
    have hnolink' : ∀ part, IsPart part rrset.label → ∀ row ∈ records world.db zone₂.id,
        row.label = part → ¬ IsLink zone₂.name row := by
      rintro part hpart row hrow hrowLabel ⟨htype, _, _, -, hcarries⟩
      obtain ⟨index, hindex, rfl⟩ := isPart_iff.mp hpart
      refine not_carries_of_nsDiffers h.valid h.shape.keys (hnolink hid _ ?_) hrow hrowLabel htype
        hcarries rfl
      exact List.mem_map.mpr ⟨index, List.mem_range.mpr (by omega), rfl⟩
    obtain ⟨hresult, hvalid, hstored, hshape, hparts, hrows⟩ := shape_createAuth 0 (by omega) h.valid
      (fun _ ↦ h.zone) hid hzone hfactory h.shape (fun index hindex ↦ absurd hindex (by omega))
      hnolink' hcreate
    rw [hresult] at hstore
    refine serves_store hvalid hzone hstored hid hnew hadded.type_ne hshape.keys
      (fun id ↦ hshape.replaceRow (hadded.row id zone₂.id) hparts ?_) hstore
    intro other hother hkey hisAuth
    obtain ⟨hotherLabel, hotherType⟩ := recordKey_eq_iff.mp hkey
    rcases hrows other hother with hold | hshort
    · exact not_carries_of_nsDiffers h.valid h.shape.keys
        (hnotAuth hid (hotherType.symm.trans hisAuth.1)) hold hotherLabel hisAuth.1 hisAuth.2 rfl
    · exact absurd (congrArg List.length hotherLabel) hshort.ne

/-! ## Additions from the command line -/

/-- The record of a command line is made by the factory of its zone. -/
theorem added_generateNamedRrset {factory : RrsetFactory} {label : Name} {type : Component}
    {version : ℕ} {ttl : ℤ} {delegations : List Name} {strings : List Blob} {rrset : Rrset}
    (htype : type = Label.nsRrType ∨ type = Label.txtRrType)
    (h : (ManagementTool.generateNamedRrset factory label type version ttl delegations
      strings).Returns (World.handle services) world rrset world') :
    world'.db = world.db ∧ rrset.id = 0 ∧ rrset.zone = some factory.zone ∧ rrset.label = label ∧
      Added factory.zone.name rrset := by
  unfold ManagementTool.generateNamedRrset at h
  split_ifs at h with hns htxt
  · obtain ⟨hdb, hid, hzone, rfl, hrrsetType, content, hcontent, hcarries⟩ :=
      RrsetFactory.returns_generateRrset h
    rw [← hrrsetType] at hcarries
    exact ⟨hdb, hid, hzone, rfl, Or.inl ⟨hrrsetType, delegations, content, hcontent, hcarries⟩⟩
  · obtain ⟨hdb, hid, hzone, rfl, hrrsetType, content, hcontent, hcarries⟩ :=
      RrsetFactory.returns_generateRrset h
    rw [← hrrsetType] at hcarries
    exact ⟨hdb, hid, hzone, rfl, Or.inr ⟨hrrsetType, strings, content, hcontent, hcarries⟩⟩
  · exact (htype.elim hns htxt).elim

/-- An addition from the command line, after the factory has made the record. -/
theorem returns_addRr {zoneName label dsk : Name} {type : Component} {version : ℕ} {ttl : ℤ}
    {delegations : List Name} {strings : List Blob}
    (htype : type = Label.nsRrType ∨ type = Label.txtRrType)
    (h : (ManagementTool.addRr zoneName label type version ttl dsk delegations strings).Returns
      (World.handle services) world () world') :
    ∃ factory rrset middle, middle.db = world.db ∧
      factory.zone = DbMgr.lookupZone world.db (Zone.named zoneName) ∧ factory.zone.id ≠ 0 ∧
      rrset.id = 0 ∧ rrset.zone = some factory.zone ∧ rrset.label = label ∧
      Added zoneName rrset ∧
      ((1 < label.length ∧ (ManagementTool.addMultiLevelLabelRrset rrset factory ttl).Returns
          (World.handle services) middle () world') ∨
        (label.length ≤ 1 ∧
          (ManagementTool.addRrset rrset).Returns (World.handle services) middle () world')) := by
  obtain ⟨made, madeWorld, hmake, h⟩ := Program.returns_bind.mp h
  obtain ⟨outcome, checkWorld, hcheck, h⟩ := Program.returns_bind.mp h
  obtain ⟨factory, raised, hraise, h⟩ := Program.returns_bind.mp h
  obtain ⟨rrset, middle, hgenerate, h⟩ := Program.returns_bind.mp h
  have hmadeDb := db_of_returns (RrsetFactory.reads_make _ _) hmake
  obtain ⟨hmadeZone, hmadeNew⟩ := RrsetFactory.returns_make hmake
  obtain ⟨-, hzone, hid, hcheckDb⟩ := RrsetFactory.returns_checkZoneKey hmadeNew
    (Program.returns_bind.mpr ⟨outcome, checkWorld, hcheck, hraise⟩)
  rw [hmadeZone, hmadeDb] at hzone
  obtain ⟨hdb, hnew, hrrsetZone, hlabel, hadded⟩ := added_generateNamedRrset htype hgenerate
  have hname : factory.zone.name = zoneName := by
    rw [hzone, DbMgr.lookupZone_name]
    rfl
  rw [hname] at hadded
  refine ⟨factory, rrset, middle, hdb.trans (hcheckDb.trans hmadeDb), hzone, hid, hnew, hrrsetZone,
    hlabel, hadded, ?_⟩
  split_ifs at h with hlength
  · exact Or.inl ⟨hlength, h⟩
  · exact Or.inr ⟨not_lt.mp hlength, h⟩

section Additions

variable {zoneName label dsk : Name} {zoneId : ℕ} {type : Component} {version : ℕ} {ttl : ℤ}
  {delegations : List Name} {strings : List Blob}

/-- An addition to a served zone. -/
theorem serves_addRr (h : Serves zoneName zoneId world.db)
    (htype : type = Label.nsRrType ∨ type = Label.txtRrType)
    (hreturns : (ManagementTool.addRr zoneName label type version ttl dsk delegations
      strings).Returns (World.handle services) world () world') :
    Serves zoneName zoneId world'.db := by
  obtain ⟨factory, rrset, middle, hdb, hfactory, hid, hnew, hzone, rfl, hadded, hcase⟩ :=
    returns_addRr htype hreturns
  obtain ⟨found, hfound, hfoundName, hlookup⟩ := DbMgr.lookupZone_id_eq (hfactory ▸ hid)
  obtain ⟨row, hrow, hrowId, hrowName⟩ := h.zone
  obtain rfl := List.inj_on_of_nodup_map h.valid.zoneNames hfound hrow
    (hfoundName.trans hrowName.symm)
  have hname : factory.zone.name = zoneName := by
    rw [hfactory, DbMgr.lookupZone_name]
    rfl
  have hzoneId : factory.zone.id = zoneId := by
    rw [hfactory, hlookup, hrowId]
  rw [← hname, ← hzoneId, ← hdb] at h
  rw [← hname] at hadded ⊢
  rw [← hzoneId]
  rcases hcase with ⟨-, hmulti⟩ | ⟨hlength, hsingle⟩
  · exact serves_addMultiLevelLabelRrset h hzone hid hnew hadded rfl hmulti
  · exact serves_addRrset h hzone hid hnew hadded hlength hsingle

/-- An addition touches its own zone only. -/
theorem touches_addRr (hvalid : world.db.Valid)
    (htype : type = Label.nsRrType ∨ type = Label.txtRrType)
    (hreturns : (ManagementTool.addRr zoneName label type version ttl dsk delegations
      strings).Returns (World.handle services) world () world') :
    Touches zoneName world.db world'.db := by
  obtain ⟨factory, rrset, middle, hdb, hfactory, hid, hnew, hzone, rfl, hadded, hcase⟩ :=
    returns_addRr htype hreturns
  obtain ⟨found, hfound, hfoundName, hlookup⟩ := DbMgr.lookupZone_id_eq (hfactory ▸ hid)
  have hname : factory.zone.name = zoneName := by
    rw [hfactory, DbMgr.lookupZone_name]
    rfl
  have hstored : factory.zone.Stored middle.db := by
    intro _
    rw [hdb, hname]
    exact ⟨found, hfound, by rw [hfactory, hlookup], hfoundName⟩
  rw [← hdb, ← hname]
  rw [← hdb] at hvalid
  rcases hcase with ⟨-, hmulti⟩ | ⟨-, hsingle⟩
  · exact (ManagementTool.refreshes_addMultiLevelLabelRrset hvalid hzone hstored hstored rfl
      hmulti).touches
  · exact (ManagementTool.refreshes_addRrset hvalid hzone hstored hsingle).touches

end Additions

/-- A zone stays served while another one is changed. -/
theorem Serves.of_touches {zoneName other : Name} {zoneId : ℕ} {db db' : Database}
    (h : Serves zoneName zoneId db) (hother : other ≠ zoneName) (htouches : Touches other db db')
    (hvalid : db'.Valid) : Serves zoneName zoneId db' := by
  obtain ⟨row, hrow, rfl, rfl⟩ := h.zone
  have hrows := htouches.rows row hrow hother.symm
  have hrecords : records db' row.id = records db row.id := by
    rw [records_eq_rowsOf, hrows, ← records_eq_rowsOf]
  refine ⟨hvalid, ⟨row, htouches.kept row hrow, rfl, rfl⟩, hrecords.symm ▸ h.shape, ?_⟩
  rw [Chained, denials_eq_rowsOf, hrows, ← denials_eq_rowsOf, recordNames, hrecords, ← recordNames]
  exact h.chained

/-- A new zone is served, when no records were left under its id. -/
theorem serves_createZone {zoneName parentZoneName kskCertName dskCertName dkeyCertName : Name}
    {cacheTtl : ℤ} {zone' : Zone} (hvalid : world.db.Valid)
    (howned : ∀ row ∈ world.db.rrsets, ∃ zone ∈ world.db.zones, zone.id = row.zoneId)
    (h : (ManagementTool.createZone zoneName parentZoneName cacheTtl kskCertName dskCertName
      dkeyCertName).Returns (World.handle services) world zone' world') :
    Serves zoneName zone'.id world'.db := by
  obtain ⟨added, middle, rfl, hcreates, hvalid', hgenerate⟩ :=
    ManagementTool.returns_createZone hvalid h
  obtain ⟨ttl, hzones⟩ := hcreates.zones
  obtain ⟨first, second, hrows, hfirst, hsecond, hfirstType, hsecondType, hlabels, -⟩ :=
    hcreates.rows
  have hid : added.id ≠ 0 := hcreates.zoneId_eq ▸ (nextRowId_pos _).ne'
  have hstored : added.Stored middle.db := by
    intro _
    rw [hzones]
    exact ⟨_, List.mem_append_right _ List.mem_cons_self, rfl, rfl⟩
  have hold : records world.db added.id = [] := by
    rw [records, List.filter_eq_nil_iff]
    intro row hrow hboth
    obtain ⟨zone, hzone, hzoneId⟩ := howned row hrow
    have hne : zone.id ≠ added.id := hcreates.zoneId_eq ▸ Database.ne_nextRowId hzone
    exact hne (hzoneId.trans (of_decide_eq_true hboth).1)
  have hrecords : records middle.db added.id = [first, second] := by
    have hcert : Label.certRrType ≠ Label.doeRrType := by decide
    rw [records, hrows, List.filter_append]
    refine (congrArg (· ++ _) hold).trans ?_
    simp [hfirst, hsecond, hfirstType, hsecondType, hcert]
  have hshape : ZoneShape added.name (records middle.db added.id) := by
    have hcert : ∀ row ∈ [first, second], row.type = Label.certRrType := by
      simp [hfirstType, hsecondType]
    rw [hrecords]
    refine ⟨?_, ?_, ?_, ?_, ?_⟩
    · simp [recordKey, hlabels]
    · intro row hrow htype
      exact absurd ((hcert row hrow).symm.trans htype) (by decide)
    · intro row hrow htype
      exact absurd ((hcert row hrow).symm.trans htype) (by decide)
    · rintro row hrow (htype | htype)
      · exact absurd ((hcert row hrow).symm.trans htype) (by decide)
      · exact absurd ((hcert row hrow).symm.trans htype) (by decide)
    · exact ⟨first, by simp, second, by simp, hfirstType, hsecondType, hlabels⟩
  have hserves := serves_generateDoe hvalid' hstored hid hshape hgenerate
  obtain ⟨rfl, -⟩ := ManagementTool.returns_generateDoe hgenerate
  rwa [lookupZone_id_of_stored hvalid' hstored hid]

/-! ## Runs -/

/-- One addition of an NS or TXT record to some zone, with any key chain. -/
def AddsRecord (db db' : Database) : Prop :=
  ∃ (Keys : Type) (services : Services Keys) (keys keys' : Keys) (zoneName label dsk : Name)
    (type : Component) (version : ℕ) (ttl : ℤ) (delegations : List Name) (strings : List Blob),
    (type = Label.nsRrType ∨ type = Label.txtRrType) ∧
      (ManagementTool.addRr zoneName label type version ttl dsk delegations strings).Returns
        (World.handle services) ⟨db, keys⟩ () ⟨db', keys'⟩

theorem Serves.addsRecord {zoneName : Name} {zoneId : ℕ} {db db' : Database}
    (h : Serves zoneName zoneId db) (hadds : AddsRecord db db') : Serves zoneName zoneId db' := by
  obtain ⟨Keys, services, keys, keys', other, label, dsk, type, version, ttl, delegations, strings,
    htype, hreturns⟩ := hadds
  have hworld : Serves zoneName zoneId (World.mk db keys).db := h
  by_cases hother : other = zoneName
  · subst hother
    exact serves_addRr hworld htype hreturns
  · exact h.of_touches hother (touches_addRr hworld.valid htype hreturns)
      (valid_of_returns hworld.valid hreturns)

/-- A zone is served after its creation and any additions. -/
theorem serves_run {zoneName parentZoneName kskCertName dskCertName dkeyCertName : Name}
    {cacheTtl : ℤ} {zone' : Zone} {db : Database} (hvalid : world.db.Valid)
    (howned : ∀ row ∈ world.db.rrsets, ∃ zone ∈ world.db.zones, zone.id = row.zoneId)
    (hcreate : (ManagementTool.createZone zoneName parentZoneName cacheTtl kskCertName dskCertName
      dkeyCertName).Returns (World.handle services) world zone' world')
    (hadditions : Relation.ReflTransGen AddsRecord world'.db db) :
    Serves zoneName zone'.id db := by
  induction hadditions with
  | refl => exact serves_createZone hvalid howned hcreate
  | tail _ hadds ih => exact ih.addsRecord hadds

end Ndns.Mgmt
