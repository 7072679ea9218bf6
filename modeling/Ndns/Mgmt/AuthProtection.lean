import Ndns.Mgmt.DelegationTree
import Ndns.Mgmt.RowNames

/-!
# Protection of AUTH Records

Each way of writing a record has its own idea of which record may not be overridden.  `addRrset`
and `addMultiLevelLabelRrset` look for an AUTH record first; `addRrsetFromFile` and `doUpdate` only
compare versions, and so replace an AUTH record by whatever is newer.
-/

namespace Ndns.Mgmt

open Ndn Calls Daemon DbMgr Database NameServer

/-! ## Zones of a growing database -/

/-- An object that stands for a zone stood for it before other zones were added. -/
theorem resolveZone_id_of_grown {db db' : Database} {zone : Zone} {zoneId : ℕ} (hvalid : db.Valid)
    (hvalid' : db'.Valid) (hgrown : ∀ row ∈ db.zones, row ∈ db'.zones)
    (hlisted : ∃ row ∈ db.zones, row.id = zoneId) (h : (resolveZone db' zone).id = zoneId) :
    (resolveZone db zone).id = zoneId := by
  by_cases hid : zone.id = 0
  · obtain ⟨row, hrow, rfl⟩ := hlisted
    have hpos : row.id ≠ 0 := (hvalid.zoneIds_pos row hrow).ne'
    rw [resolveZone, if_pos hid] at h ⊢
    obtain ⟨found, hfound, hname, hlookup⟩ := lookupZone_id_eq (h ▸ hpos)
    rw [hlookup] at h
    have hsame : found = row :=
      List.inj_on_of_nodup_map hvalid'.zoneIds hfound (hgrown row hrow) h
    rw [hsame] at hname
    have hstored : (⟨row.id, zone.name, zone.ttl⟩ : Zone).Stored db := fun _ ↦ ⟨row, hrow, rfl, hname⟩
    exact (lookupZone_id_congr rfl rfl).trans (lookupZone_id_of_stored hvalid hstored hpos)
  · rw [resolveZone, if_neg hid] at h ⊢
    exact h

theorem mem_records_of_key {db : Database} {zoneId : ℕ} {label : Name} {row : RrsetRow}
    (hkey : row.key = (zoneId, label, Label.nsRrType)) :
    row ∈ records db zoneId ↔ row ∈ db.rrsets := by
  simp only [RrsetRow.key, Prod.mk.injEq] at hkey
  rw [mem_records, hkey.2.2]
  exact and_iff_left ⟨hkey.1, by decide⟩

/-! ## AUTH records at a label -/

section Protection

variable [PacketFormat]

/-- There is an NS record at the label, and it is an AUTH record. -/
def AuthAt (zoneId : ℕ) (label : Name) (db : Database) : Prop :=
  (∃ row ∈ db.rrsets, row.key = (zoneId, label, Label.nsRrType)) ∧
    ∀ row ∈ db.rrsets, row.key = (zoneId, label, Label.nsRrType) → HoldsNs .auth row

/-- The content type of a packet in an element. -/
def Encloses (contentType : NdnsContentType) (data : Block) : Prop :=
  ∃ packet, PacketFormat.decode data = some packet ∧
    NdnsContentType.ofCode packet.contentType = contentType

section Rows

variable {db db' : Database} {zoneId : ℕ} {label : Name}

theorem authAt_congr (h : records db' zoneId = records db zoneId) :
    AuthAt zoneId label db' ↔ AuthAt zoneId label db := by
  have hmem : ∀ row : RrsetRow, row.key = (zoneId, label, Label.nsRrType) →
      (row ∈ db'.rrsets ↔ row ∈ db.rrsets) := by
    intro row hkey
    rw [← mem_records_of_key hkey, h, mem_records_of_key hkey]
  constructor
  · rintro ⟨⟨row, hrow, hkey⟩, hall⟩
    exact ⟨⟨row, (hmem row hkey).mp hrow, hkey⟩,
      fun other hother hotherKey ↦ hall other ((hmem other hotherKey).mpr hother) hotherKey⟩
  · rintro ⟨⟨row, hrow, hkey⟩, hall⟩
    exact ⟨⟨row, (hmem row hkey).mpr hrow, hkey⟩,
      fun other hother hotherKey ↦ hall other ((hmem other hotherKey).mp hother) hotherKey⟩

/-- A check for AUTH records would have found it. -/
theorem AuthAt.not_nsDiffers (h : AuthAt zoneId label db) (hvalid : db.Valid)
    (hdiffers : ManagementTool.NsDiffers db zoneId label .auth) : False := by
  obtain ⟨⟨row, hrow, hkey⟩, hall⟩ := h
  cases hfound : keyRow db zoneId label Label.nsRrType with
  | none => exact keyRow_eq_none_iff.mp hfound row hrow hkey
  | some found =>
      obtain ⟨hmem, hfoundKey⟩ := key_of_keyRow hfound
      obtain ⟨-, packet, hdecode, hauth⟩ := hall found hmem hfoundKey
      obtain ⟨packet', hdecode', hne⟩ := hdiffers found hfound (hvalid.ids_pos found hmem).ne'
      rw [hdecode, Option.some.injEq] at hdecode'
      exact hne (hdecode' ▸ hauth)

theorem AuthAt.insertRrset (h : AuthAt zoneId label db) {other : ℕ} {newLabel : Name}
    {type version : Component} {ttl : ℤ} {data : Block}
    (hdata : (other, newLabel, type) = (zoneId, label, Label.nsRrType) → Encloses .auth data) :
    AuthAt zoneId label (db.insertRrset other newLabel type version ttl data) := by
  obtain ⟨⟨row, hrow, hkey⟩, hall⟩ := h
  refine ⟨⟨row, List.mem_append_left _ hrow, hkey⟩, fun row' hrow' hkey' ↦ ?_⟩
  rcases List.mem_append.mp hrow' with hold | hnew
  · exact hall row' hold hkey'
  · rw [List.mem_singleton.mp hnew] at hkey' ⊢
    exact ⟨(Prod.mk.inj (Prod.mk.inj hkey').2).2, hdata hkey'⟩

/-- The last one may be another AUTH record. -/
theorem authAt_insertRrset (hall : ∀ row ∈ db.rrsets,
      row.key = (zoneId, label, Label.nsRrType) → HoldsNs .auth row)
    (version : Component) (ttl : ℤ) (data : Block) :
    AuthAt zoneId label (db.insertRrset zoneId label Label.nsRrType version ttl data) ↔
      Encloses .auth data := by
  constructor
  · rintro ⟨-, hall'⟩
    exact (hall' _ (List.mem_append_right _ List.mem_cons_self) rfl).2
  · intro hdata
    refine ⟨⟨_, List.mem_append_right _ List.mem_cons_self, rfl⟩, fun row hrow hkey ↦ ?_⟩
    rcases List.mem_append.mp hrow with hold | hnew
    · exact hall row hold hkey
    · rw [List.mem_singleton.mp hnew]
      exact ⟨rfl, hdata⟩

theorem AuthAt.deleteRrset (h : AuthAt zoneId label db) (hvalid : db.Valid) {old : RrsetRow}
    (hold : old ∈ db.rrsets) (hkey : old.key ≠ (zoneId, label, Label.nsRrType)) :
    AuthAt zoneId label (db.deleteRrset old.id) := by
  obtain ⟨⟨row, hrow, hrowKey⟩, hall⟩ := h
  refine ⟨⟨row, List.mem_filter.mpr ⟨hrow, decide_eq_true fun hid ↦ hkey ?_⟩, hrowKey⟩,
    fun other hother ↦ hall other (List.mem_of_mem_filter hother)⟩
  rw [← List.inj_on_of_nodup_map hvalid.ids hrow hold hid]
  exact hrowKey

theorem AuthAt.updateRrset (h : AuthAt zoneId label db) (hvalid : db.Valid) {old : RrsetRow}
    (hold : old ∈ db.rrsets) {ttl : ℤ} {version : Component} {data : Block}
    (hdata : old.key = (zoneId, label, Label.nsRrType) → Encloses .auth data) :
    AuthAt zoneId label (db.updateRrset old.id ttl version data) := by
  obtain ⟨⟨row, hrow, hkey⟩, hall⟩ := h
  refine ⟨⟨_, List.mem_map_of_mem hrow, ?_⟩, fun other hother hotherKey ↦ ?_⟩
  · split_ifs
    · exact hkey
    · exact hkey
  · obtain ⟨before, hbefore, rfl⟩ := List.mem_map.mp hother
    split_ifs at hotherKey ⊢ with hid
    · have hsame : before = old := List.inj_on_of_nodup_map hvalid.ids hbefore hold hid
      exact ⟨(hall before hbefore hotherKey).1, hdata (hsame ▸ hotherKey)⟩
    · exact hall before hbefore hotherKey

/-- The updated row holds the new packet. -/
theorem encloses_of_authAt_updateRrset {old : RrsetRow} (hold : old ∈ db.rrsets)
    (hkey : old.key = (zoneId, label, Label.nsRrType)) {ttl : ℤ} {version : Component} {data : Block}
    (h : AuthAt zoneId label (db.updateRrset old.id ttl version data)) : Encloses .auth data := by
  have hmem : old.overwrite ttl version data ∈ (db.updateRrset old.id ttl version data).rrsets :=
    List.mem_map.mpr ⟨old, hold, if_pos rfl⟩
  exact (h.2 _ hmem hkey).2

end Rows

namespace ManagementTool

variable {Keys : Type} {services : Services Keys} {world world' : World Keys} {zoneId : ℕ}
  {label : Name} {rrset result : Rrset} {zone : Zone}

/-! ## Storing -/

/-- The records after an addition that returns: an older row is gone, and the new one is there,
unless the record object has an id. -/
theorem records_of_store (hvalid : world.db.Valid) (hzone : rrset.zone = some zone)
    (h : (store rrset).Returns (World.handle services) world () world') :
    ∃ cleared, Cleared world.db (resolveZone world.db zone).id rrset cleared ∧
      ((rrset.id ≠ 0 ∧ ∀ other, records world'.db other = records cleared other) ∨
        rrset.id = 0 ∧ ∃ (newId : ℕ) (opened : Database), opened.rrsets = cleared.rrsets ∧
          (newId = (resolveZone world.db zone).id ∨ (resolveZone world.db zone).id = 0 ∧
            newId = nextRowId (world.db.zones.map ZoneRow.id)) ∧
          ∀ other, records world'.db other = records (opened.insertRrset newId rrset.label
            rrset.type rrset.version rrset.ttl rrset.data) other) := by
  obtain ⟨checked, checkedWorld, inserted, insertedWorld, stored, regenerated, hcheck, hinsert,
    -, hgenerate⟩ := returns_store h
  obtain ⟨rfl, hchecked⟩ := returns_checkRrsetVersion hzone hcheck
  obtain ⟨-, -, -, hregenerates⟩ := returns_generateDoe hgenerate
  generalize resolveZone world.db zone = found at hchecked hinsert
  have hzones : checkedWorld.db.zones = world.db.zones := by
    rcases hchecked with ⟨rfl, -⟩ | ⟨-, row, -, -, rfl⟩ <;> rfl
  refine ⟨checkedWorld.db, ?_, ?_⟩
  · rcases hchecked with ⟨rfl, hnone⟩ | ⟨hid, row, hrow, hversion, rfl⟩
    · refine .absent fun hid ↦ ?_
      cases hrow : keyRow world.db found.id rrset.label rrset.type with
      | none => rfl
      | some row => exact absurd (hnone hid row hrow) (hvalid.ids_pos row (keyRow_eq_some hrow).1).ne'
    · exact .older hid hrow hversion
  · rcases returns_insertRrset rfl hinsert with ⟨hid, -, rfl⟩ | ⟨stored', middle, hid, hopen, -, -,
      rfl⟩
    · exact Or.inl ⟨hid, hregenerates.records⟩
    · refine Or.inr ⟨hid, stored'.id, middle.db, ?_, ?_, hregenerates.records⟩
      · rcases returns_insertZone hopen with ⟨-, -, rfl⟩ | ⟨-, -, -, rfl⟩ <;> rfl
      · rcases returns_insertZone hopen with ⟨-, rfl, -⟩ | ⟨hzero, -, rfl, -⟩
        · exact Or.inl rfl
        · exact Or.inr ⟨hzero, by rw [← hzones]⟩

/-- A record with another key, or with an AUTH packet, leaves an AUTH record at the label. -/
theorem authAt_store (hvalid : world.db.Valid) (hlisted : ∃ row ∈ world.db.zones, row.id = zoneId)
    (hauth : AuthAt zoneId label world.db) (hzone : rrset.zone = some zone)
    (hdata : ((resolveZone world.db zone).id, rrset.label, rrset.type) =
      (zoneId, label, Label.nsRrType) → rrset.id = 0 ∧ Encloses .auth rrset.data)
    (h : (store rrset).Returns (World.handle services) world () world') :
    AuthAt zoneId label world'.db := by
  obtain ⟨cleared, hcleared, hend⟩ := records_of_store hvalid hzone h
  by_cases hkey : ((resolveZone world.db zone).id, rrset.label, rrset.type) =
      (zoneId, label, Label.nsRrType)
  · obtain ⟨hnew, hdata⟩ := hdata hkey
    simp only [Prod.mk.injEq] at hkey
    obtain ⟨row, hrow, hrowId⟩ := hlisted
    have hid : (resolveZone world.db zone).id ≠ 0 :=
      hkey.1.trans hrowId.symm ▸ (hvalid.zoneIds_pos row hrow).ne'
    rcases hend with ⟨hne, -⟩ | ⟨-, newId, opened, hrows, hnewId, hrecords⟩
    · exact absurd hnew hne
    · obtain rfl := hnewId.resolve_right fun hzero ↦ hid hzero.1
      refine (authAt_congr (hrecords zoneId)).mpr ?_
      rw [hkey.1, hkey.2.1, hkey.2.2]
      refine (authAt_insertRrset (fun other hother ↦ hauth.2 other ?_) _ _ _).mpr hdata
      rw [hrows] at hother
      exact hcleared.sublist.subset hother
  · have hkept : AuthAt zoneId label cleared := by
      cases hcleared with
      | absent _ => exact hauth
      | older _ hrow _ =>
          obtain ⟨hmem, hrowKey⟩ := key_of_keyRow hrow
          exact hauth.deleteRrset hvalid hmem (hrowKey.symm ▸ hkey)
    rcases hend with ⟨-, hrecords⟩ | ⟨-, newId, opened, hrows, hnewId, hrecords⟩
    · exact (authAt_congr (hrecords zoneId)).mpr hkept
    · refine (authAt_congr (hrecords zoneId)).mpr ?_
      have hopened : AuthAt zoneId label opened := ⟨hrows ▸ hkept.1, hrows ▸ hkept.2⟩
      refine hopened.insertRrset fun hnewKey ↦ absurd ?_ hkey
      rcases hnewId with rfl | ⟨-, hfresh⟩
      · exact hnewKey
      · obtain ⟨row, hrow, hrowId⟩ := hlisted
        have hsame : newId = zoneId := congrArg Prod.fst hnewKey
        exact absurd (hrowId.trans (hsame.symm.trans hfresh)) (ne_nextRowId hrow)

/-- A record with the key of an AUTH record and another content type takes its place. -/
theorem not_authAt_store (hvalid : world.db.Valid) (hzone : rrset.zone = some zone)
    (hid : (resolveZone world.db zone).id ≠ 0)
    (hkey : ((resolveZone world.db zone).id, rrset.label, rrset.type) =
      (zoneId, label, Label.nsRrType)) (hnew : rrset.id = 0)
    (hdata : ¬ Encloses .auth rrset.data)
    (h : (store rrset).Returns (World.handle services) world () world') :
    ¬ AuthAt zoneId label world'.db := by
  obtain ⟨cleared, -, hend⟩ := records_of_store hvalid hzone h
  rcases hend with ⟨hne, -⟩ | ⟨-, newId, opened, -, hnewId, hrecords⟩
  · exact absurd hnew hne
  · obtain rfl := hnewId.resolve_right fun hzero ↦ hid hzero.1
    simp only [Prod.mk.injEq] at hkey
    intro hauth
    rw [authAt_congr (hrecords zoneId), hkey.1, hkey.2.1, hkey.2.2] at hauth
    exact hdata (hauth.2 _ (List.mem_append_right _ List.mem_cons_self) rfl).2

/-! ## The operations of the tool -/

theorem authAt_addRrset (hvalid : world.db.Valid)
    (hlisted : ∃ row ∈ world.db.zones, row.id = zoneId) (hauth : AuthAt zoneId label world.db)
    (h : (addRrset rrset).Returns (World.handle services) world () world') :
    AuthAt zoneId label world'.db := by
  cases hzone : rrset.zone with
  | none =>
      have hfind : findRrset { rrset with type := Label.nsRrType } = throw _ :=
        findRrset_unassigned hzone
      unfold addRrset refuse at h
      rw [hfind] at h
      simp at h
  | some zone =>
      obtain ⟨zone', hresolve, hdiffers, hstore⟩ := returns_addRrset hzone h
      refine authAt_store hvalid hlisted hauth rfl (fun hkey ↦ ?_) hstore
      rw [hresolve.resolveZone_id hvalid, Prod.mk.injEq, Prod.mk.injEq] at hkey
      obtain ⟨row, hrow, hrowId⟩ := hlisted
      have hid : (resolveZone world.db zone).id ≠ 0 :=
        hkey.1.trans hrowId.symm ▸ (hvalid.zoneIds_pos row hrow).ne'
      have hnot := hdiffers hid
      rw [hkey.1, hkey.2.1] at hnot
      exact (hauth.not_nsDiffers hvalid hnot).elim

/-- The AUTH records an addition creates are no danger to others, even with the factory of another
zone. -/
theorem authAt_createAuth {factory : RrsetFactory} {authTtl : ℤ} {prefixes : List Name}
    (hvalid : world.db.Valid) (hlisted : ∃ row ∈ world.db.zones, row.id = zoneId)
    (hauth : AuthAt zoneId label world.db) (hzone : rrset.zone = some zone)
    (h : (createAuth factory authTtl rrset prefixes).Returns (World.handle services) world result
      world') :
    AuthAt zoneId label world'.db ∧ world'.db.Valid ∧
      (∃ row ∈ world'.db.zones, row.id = zoneId) ∧ ∃ zone', result = { rrset with zone := some zone' } ∧
        ((resolveZone world'.db zone').id = zoneId → (resolveZone world.db zone).id = zoneId) := by
  induction prefixes generalizing factory rrset zone world with
  | nil =>
      obtain ⟨rfl, rfl⟩ := Program.returns_pure.mp h
      exact ⟨hauth, hvalid, hlisted, zone, by rw [← hzone], id⟩
  | cons labelPrefix rest ih =>
      obtain ⟨zone₁, hresolve, hcase⟩ := returns_createAuth_cons hzone h
      rcases hcase with ⟨-, -, hrest⟩ | ⟨-, auth, authWorld, inserted, insertedWorld, hgenerate,
        hinsert, hrest⟩
      · obtain ⟨hauth', hvalid', hlisted', zone', hresult, hsame⟩ := ih hvalid hlisted hauth rfl hrest
        refine ⟨hauth', hvalid', hlisted', zone', hresult, fun hid ↦ ?_⟩
        exact (hresolve.resolveZone_id hvalid).symm.trans (hsame hid)
      · obtain ⟨hdb, hauthId, hauthZone, -, -, bytes, -, hcarries⟩ :=
          RrsetFactory.returns_generateRrset hgenerate
        have hvalid₁ := valid_of_returns (valid_of_returns hvalid hgenerate) hinsert
        obtain ⟨-, packet, hdecode, -, hcode, -⟩ := hcarries
        have hencloses : Encloses .auth auth.data := ⟨packet, hdecode, by rw [hcode]; rfl⟩
        have hgrown : AuthAt zoneId label insertedWorld.db ∧
            ∀ row ∈ world.db.zones, row ∈ insertedWorld.db.zones := by
          rcases returns_insertRrset hauthZone hinsert with ⟨hne, -⟩ | ⟨stored, middle, -, hopen, -, -,
            rfl⟩
          · exact absurd hauthId hne
          · rcases returns_insertZone hopen with ⟨-, rfl, rfl⟩ | ⟨-, -, rfl, rfl⟩
            · refine ⟨AuthAt.insertRrset (hdb.symm ▸ hauth) fun _ ↦ hencloses, fun row hrow ↦ ?_⟩
              exact hdb.symm ▸ hrow
            · have hopened : AuthAt zoneId label
                  (authWorld.db.insertZone factory.zone.name (int32 factory.zone.ttl)) := by
                rw [hdb]
                exact ⟨hauth.1, hauth.2⟩
              refine ⟨hopened.insertRrset fun _ ↦ hencloses, fun row hrow ↦ ?_⟩
              exact List.mem_append_left _ (hdb.symm ▸ hrow)
        obtain ⟨row, hrow, hrowId⟩ := hlisted
        obtain ⟨hauth', hvalid', hlisted', zone', hresult, hsame⟩ :=
          ih hvalid₁ ⟨row, hgrown.2 row hrow, hrowId⟩ hgrown.1 rfl hrest
        refine ⟨hauth', hvalid', hlisted', zone', hresult, fun hid ↦ ?_⟩
        exact (hresolve.resolveZone_id hvalid).symm.trans
          (resolveZone_id_of_grown hvalid hvalid₁ hgrown.2 ⟨row, hrow, hrowId⟩ (hsame hid))

theorem authAt_addMultiLevelLabelRrset {factory : RrsetFactory} {authTtl : ℤ}
    (hvalid : world.db.Valid) (hlisted : ∃ row ∈ world.db.zones, row.id = zoneId)
    (hauth : AuthAt zoneId label world.db)
    (h : (addMultiLevelLabelRrset rrset factory authTtl).Returns (World.handle services) world ()
      world') : AuthAt zoneId label world'.db := by
  cases hzone : rrset.zone with
  | none =>
      have hmeets := @meets_addMultiLevelLabelRrset_unassigned _ services AnyChange world.db rrset _
        factory authTtl (AuthAt zoneId label) hzone hauth
      have hend := hmeets.run world.keys
      rwa [show (addMultiLevelLabelRrset rrset factory authTtl).run (World.handle services)
        ⟨world.db, world.keys⟩ = _ from h] at hend
  | some zone =>
      unfold addMultiLevelLabelRrset at h
      split_ifs at h with hlabel
      · obtain ⟨_, _, -, hthrow⟩ := Program.returns_bind.mp h
        exact (Program.returns_throw.mp hthrow).elim
      · obtain ⟨_, _, hdelegation, h⟩ := Program.returns_bind.mp h
        obtain ⟨rfl, zone₁, hresolve₁, rfl, -⟩ := returns_checkNoDelegation hzone hdelegation
        obtain ⟨_, _, hnotAuth, h⟩ := Program.returns_bind.mp h
        obtain ⟨rfl, zone₂, hresolve₂, rfl, hdiffers⟩ := returns_checkNotAuth rfl hnotAuth
        obtain ⟨_, created, hcreate, hstore⟩ := Program.returns_bind.mp h
        obtain ⟨hauth', hvalid', hlisted', zone₃, rfl, hsame⟩ :=
          authAt_createAuth hvalid hlisted hauth rfl hcreate
        refine authAt_store hvalid' hlisted' hauth' rfl (fun hkey ↦ ?_) hstore
        rw [Prod.mk.injEq, Prod.mk.injEq] at hkey
        have hid : (resolveZone world.db zone₁).id = zoneId :=
          (hresolve₂.resolveZone_id hvalid).symm.trans (hsame hkey.1)
        obtain ⟨row, hrow, hrowId⟩ := hlisted
        have hnot := hdiffers (hid.trans hrowId.symm ▸ (hvalid.zoneIds_pos row hrow).ne') hkey.2.2
        rw [hid] at hnot
        exact (hauth.not_nsDiffers hvalid (hkey.2.1 ▸ hnot)).elim

/-- The file does not change. -/
def StableFiles (services : Services Keys) : Prop :=
  ∀ file keys keys', (services.answer (.load file) keys).1 = (services.answer (.load file) keys').1

theorem FileHolds.unique {inFile : String} {packet packet' : Received} (hstable : StableFiles services)
    (h : FileHolds services inFile packet) (h' : FileHolds services inFile packet') :
    packet = packet' := by
  obtain ⟨keys, wire, hwire, hpacket⟩ := h
  obtain ⟨keys', wire', hwire', hpacket'⟩ := h'
  rw [hstable inFile keys keys', hwire', Loaded.contents.injEq, Option.some.injEq] at hwire
  rw [← hwire, hpacket', Option.some.injEq] at hpacket
  exact hpacket.symm

/-- The packet in the file is read as the NS record at a label of the zone, and is no AUTH
record. -/
def FileOverrides (services : Services Keys) (db : Database) (zoneId : ℕ) (label : Name)
    (zoneName : Name) (inFile : String) : Prop :=
  ∃ packet flag re, FileHolds services inFile packet ∧
    Clients.Response.default.fromData zoneName packet.data = .ok (flag, re) ∧
    ((lookupZone db (Zone.named zoneName)).id, re.rrLabel, re.rrType) =
      (zoneId, label, Label.nsRrType) ∧
    NdnsContentType.ofCode packet.data.contentType ≠ .auth

theorem authAt_addRrsetFromFile_iff {zoneName inputDskCertName : Name} {inFile : String} {ttl : ℤ}
    {needResign : Bool} (hvalid : world.db.Valid)
    (hlisted : ∃ row ∈ world.db.zones, row.id = zoneId) (hauth : AuthAt zoneId label world.db)
    (hstable : StableFiles services)
    (h : (addRrsetFromFile zoneName inFile ttl inputDskCertName needResign).Returns
      (World.handle services) world () world') :
    AuthAt zoneId label world'.db ↔
      ¬ FileOverrides services world.db zoneId label zoneName inFile := by
  obtain ⟨zone, _, hfind, h⟩ := Program.returns_bind.mp h
  obtain ⟨rfl, rfl⟩ := (Program.returns_iff_of_run (run_findZone _ world)).mp hfind
  obtain ⟨_, _, hrequire, h⟩ := Program.returns_bind.mp h
  obtain ⟨hid, rfl⟩ := returns_require.mp hrequire
  obtain ⟨_, chosen, hchoose, h⟩ := Program.returns_bind.mp h
  obtain ⟨packet, loaded, hload, h⟩ := Program.returns_bind.mp h
  obtain ⟨⟨data, wire⟩, resigned, hresign, h⟩ := Program.returns_bind.mp h
  obtain ⟨re, parsed, hparse, hstore⟩ := Program.returns_bind.mp h
  have hdb : parsed.db = world.db := by
    rw [db_of_returns (reads_parseRrset _ _) hparse, db_of_returns (reads_resign _ _ _) hresign,
      db_of_returns (reads_loadData _) hload, db_of_returns (reads_chooseDskCert _ _) hchoose]
  obtain ⟨flag, hre⟩ := fromData_of_parseRrset hparse
  obtain ⟨hdecode, -, hcontentType, hsame⟩ := fromData_of_resign hresign
  have hresolve : resolveZone parsed.db (lookupZone world.db (Zone.named zoneName)) =
      lookupZone world.db (Zone.named zoneName) := if_neg hid
  rw [hsame] at hre
  rw [← hdb] at hvalid hlisted hauth
  constructor
  · rintro hauth' ⟨packet', flag', re', hholds, hre', hkey, hne⟩
    obtain rfl := hholds.unique hstable (holds_of_loadData hload)
    rw [hre, Except.ok.injEq, Prod.mk.injEq] at hre'
    refine not_authAt_store hvalid rfl (by rwa [hresolve]) ?_ rfl ?_ hstore hauth'
    · rw [hresolve, hre'.2]
      exact hkey
    · rintro ⟨data', hdecode', hcode⟩
      rw [hdecode, Option.some.injEq] at hdecode'
      rw [← hdecode', hcontentType] at hcode
      exact hne hcode
  · intro hnot
    refine authAt_store hvalid hlisted hauth rfl (fun hkey ↦ ⟨rfl, data, hdecode, ?_⟩) hstore
    by_contra hne
    rw [hresolve] at hkey
    rw [hcontentType] at hne
    exact hnot ⟨packet, flag, re, holds_of_loadData hload, hre, hkey, hne⟩

end ManagementTool

/-! ## Updates -/

/-- The packet is read as the NS record at a label of the zone, is no AUTH record, and is stored. -/
def UpdateOverrides (db : Database) (zoneId : ℕ) (label : Name) (server : NameServer)
    (packet : Received) : Prop :=
  (∃ re, Label.matchDataName packet.data.name server.zone.name = .matched re ∧
    (server.zone.id, re.rrLabel, re.rrType) = (zoneId, label, Label.nsRrType)) ∧
    NdnsContentType.ofCode packet.data.contentType ≠ .auth ∧ ¬ TurnedAway server packet db

theorem authAt_updateDatabase_iff {db : Database} {zoneId : ℕ} {label : Name} {server : NameServer}
    {re : Label.MatchResult} {packet : Received} (hvalid : db.Valid) (hauth : AuthAt zoneId label db)
    (hmatch : Label.matchDataName packet.data.name server.zone.name = .matched re) :
    AuthAt zoneId label (updateDatabase server re packet db).1 ↔
      ¬ UpdateOverrides db zoneId label server packet := by
  have hsame := @updateDatabase_eq_self_iff server re db _ packet hvalid
  have hoverrides : UpdateOverrides db zoneId label server packet ↔
      (server.zone.id, re.rrLabel, re.rrType) = (zoneId, label, Label.nsRrType) ∧
        NdnsContentType.ofCode packet.data.contentType ≠ .auth ∧
        (updateDatabase server re packet db).1 ≠ db := by
    rw [UpdateOverrides, TurnedAway, hmatch, ne_eq, ne_eq, hsame]
    simp
  have hencloses : Encloses .auth packet.wire ↔
      NdnsContentType.ofCode packet.data.contentType = .auth := by
    simp [Encloses, packet.decode_wire]
  rw [hoverrides]
  constructor
  · rintro hauth' ⟨hkey, hcode, hchanged⟩
    refine hcode (hencloses.mp ?_)
    unfold NameServer.updateDatabase at hauth' hchanged
    cases hrow : keyRow db server.zone.id re.rrLabel re.rrType with
    | none =>
        simp only [hrow] at hauth'
        exact (hauth'.2 _ (List.mem_append_right _ List.mem_cons_self) hkey).2
    | some row =>
        obtain ⟨hmem, hrowKey⟩ := key_of_keyRow hrow
        simp only [hrow] at hauth' hchanged
        split_ifs at hauth' hchanged
        · exact absurd rfl hchanged
        · exact encloses_of_authAt_updateRrset hmem (hrowKey.trans hkey) hauth'
        · exact absurd rfl hchanged
  · intro hnot
    by_cases hunchanged : (updateDatabase server re packet db).1 = db
    · rw [hunchanged]
      exact hauth
    · have hdata : (server.zone.id, re.rrLabel, re.rrType) = (zoneId, label, Label.nsRrType) →
          Encloses .auth packet.wire := by
        intro hkey
        rw [hencloses]
        by_contra hcode
        exact hnot ⟨hkey, hcode, hunchanged⟩
      unfold NameServer.updateDatabase
      cases hrow : keyRow db server.zone.id re.rrLabel re.rrType with
      | none => exact hauth.insertRrset hdata
      | some row =>
          obtain ⟨hmem, hrowKey⟩ := key_of_keyRow hrow
          simp only
          split_ifs
          · exact hauth
          · exact hauth.updateRrset hvalid hmem (hrowKey ▸ hdata)
          · exact hauth

/-! ## Writes -/

namespace Operation

/-- The ways a record is written. -/
def Writes : Operation → Prop
  | .createZone _ _ _ _ _ _ | .removeRrSet _ _ _ => False
  | _ => True

/-- The record takes the place of the NS record at the label, and is no AUTH record. -/
def Overrides {Keys : Type} (services : Services Keys) (db : Database) (zoneId : ℕ) (label : Name) :
    Operation → Prop
  | .addRrsetFromFile zoneName inFile _ _ _ =>
      ManagementTool.FileOverrides services db zoneId label zoneName inFile
  | .doUpdate server _ packet => UpdateOverrides db zoneId label server packet
  | _ => False

/-- A write that returns, or is answered with UPDATE_OK, leaves an AUTH record at the label, unless
a file or an update has a record for this label that is no AUTH record. -/
theorem authAt_iff {Keys : Type} {services : Services Keys} {operation : Operation}
    {db db' : Database} {zoneId : ℕ} {label : Name} {keys keys' : Keys} (hvalid : db.Valid)
    (hstable : ManagementTool.StableFiles services) (hlisted : ∃ row ∈ db.zones, row.id = zoneId)
    (hauth : AuthAt zoneId label db) (hwrites : operation.Writes)
    (h : operation.program.Returns (World.handle services) ⟨db, keys⟩ true ⟨db', keys'⟩) :
    AuthAt zoneId label db' ↔ ¬ operation.Overrides services db zoneId label := by
  have hworld : (World.mk db keys).db.Valid := hvalid
  cases operation with
  | createZone zoneName parentZoneName cacheTtl kskCertName dskCertName dkeyCertName =>
      exact hwrites.elim
  | removeRrSet zoneName label type => exact hwrites.elim
  | addRrset rrset =>
      obtain ⟨_, _, hadd, h⟩ := Program.returns_bind.mp h
      obtain ⟨-, rfl⟩ := Program.returns_pure.mp h
      exact iff_of_true (ManagementTool.authAt_addRrset hworld hlisted hauth hadd) not_false
  | addMultiLevelLabelRrset rrset zoneRrFactory authTtl =>
      obtain ⟨_, _, hadd, h⟩ := Program.returns_bind.mp h
      obtain ⟨-, rfl⟩ := Program.returns_pure.mp h
      exact iff_of_true
        (ManagementTool.authAt_addMultiLevelLabelRrset hworld hlisted hauth hadd) not_false
  | addRrsetFromFile zoneName inFile ttl inputDskCertName needResign =>
      obtain ⟨_, _, hadd, h⟩ := Program.returns_bind.mp h
      obtain ⟨-, rfl⟩ := Program.returns_pure.mp h
      exact ManagementTool.authAt_addRrsetFromFile_iff hworld hlisted hauth hstable hadd
  | doUpdate server interest packet =>
      obtain ⟨answer, _, hupdate, h⟩ := Program.returns_bind.mp h
      cases answer with
      | none => simp at h
      | some answer =>
          obtain ⟨-, rfl⟩ := Program.returns_pure.mp h
          obtain ⟨re, hmatch, hdb, -⟩ := returns_doUpdate hworld hupdate
          rw [show db' = (NameServer.updateDatabase server re packet db).1 from hdb]
          exact authAt_updateDatabase_iff hvalid hauth hmatch

end Operation

end Protection

section Examples

open LocalServices Operation

attribute [local instance] ndnPacketFormat

/-- The NS record at /w of the zone /n, with a content type and a version. -/
def nsRecord (contentType : NdnsContentType) (version : ℕ) : Data :=
  ⟨Label.recordName [letter 110] [letter 119] Label.nsRrType ++ [Component.fromVersion version],
    contentType.toCode, 0, [], [], []⟩

/-- The zone /n with an AUTH record at /w. -/
def authDatabase : Database :=
  ⟨[⟨1, [letter 110], 3600⟩], [], [⟨1, 1, [letter 119], Label.nsRrType, Component.fromVersion 1,
    3600, (Layout.encode (nsRecord .auth 1)).getD Block.invalid⟩]⟩

def linkPacket : Received :=
  ⟨(Layout.encode (nsRecord .link 2)).getD Block.invalid, nsRecord .link 2, by decide⟩

def linkUpdate : Operation := .doUpdate netServer updateInterest linkPacket

theorem authDatabase_valid : authDatabase.Valid := by
  constructor <;> simp [authDatabase]

theorem authAt_authDatabase : AuthAt 1 [letter 119] authDatabase := by
  refine ⟨⟨_, List.mem_cons_self, rfl⟩, fun row hrow _ ↦ ?_⟩
  rw [List.mem_singleton.mp hrow]
  exact ⟨rfl, nsRecord .auth 1, by decide, rfl⟩

theorem authAt_linkUpdate :
    AuthAt 1 [letter 119]
        (linkUpdate.program.run (World.handle localServices) ⟨authDatabase, 0⟩).2.db ↔
      ¬ linkUpdate.Overrides localServices authDatabase 1 [letter 119] :=
  authAt_iff authDatabase_valid (fun _ _ _ ↦ rfl) ⟨_, List.mem_cons_self, rfl⟩ authAt_authDatabase
    trivial (Prod.ext rfl rfl)

/-- An update with a newer LINK record for the label is stored. -/
theorem auth_overridden : AuthAt 1 [letter 119] authDatabase ∧ linkUpdate.Writes ∧
    (linkUpdate.program.run (World.handle localServices) ⟨authDatabase, 0⟩).1 = .ok true ∧
    ¬ AuthAt 1 [letter 119]
      (linkUpdate.program.run (World.handle localServices) ⟨authDatabase, 0⟩).2.db := by
  refine ⟨authAt_authDatabase, trivial, rfl, fun hauth ↦ ?_⟩
  have hrow : (linkUpdate.program.run (World.handle localServices) ⟨authDatabase, 0⟩).2.db.rrsets =
      [⟨1, 1, [letter 119], Label.nsRrType, Component.fromVersion 2, 3600, linkPacket.wire⟩] := by
    decide
  obtain ⟨-, packet, hdecode, hcode⟩ := hauth.2 _ (hrow ▸ List.mem_cons_self) rfl
  cases (linkPacket.decode_wire.symm.trans hdecode)
  exact absurd hcode (by decide)

end Examples

end Ndns.Mgmt
