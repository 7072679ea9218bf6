import Ndns.Mgmt.Resolvability
import Ndns.Mgmt.VersionControl

/-!
# The Delegation Tree of a Zone

An addition with a longer label creates the AUTH records above it before the version check, so it
may end in an exception after some of them are stored.  The shape of the zone holds after each
single statement: AUTH records come shortest first, none is ever replaced, and the record itself
comes last.
-/

namespace Ndns.Mgmt

open Ndn Calls Daemon DbMgr Database

/-! ## Records after a statement -/

section Records

variable {db db' : Database} {zoneId other : ℕ}

theorem records_insertRrset_other (hne : other ≠ zoneId) (label : Name) (type version : Component)
    (ttl : ℤ) (data : Block) :
    records (db.insertRrset other label type version ttl data) zoneId = records db zoneId := by
  simp [records, Database.insertRrset, hne]

theorem records_deleteRrset_other (hvalid : db.Valid) {old : RrsetRow} (hold : old ∈ db.rrsets)
    (hne : old.zoneId ≠ zoneId) : records (db.deleteRrset old.id) zoneId = records db zoneId := by
  rw [records, Database.deleteRrset, List.filter_filter, records]
  refine List.filter_congr fun row hrow ↦ ?_
  by_cases hid : row.id = old.id
  · have hsame : row = old := List.inj_on_of_nodup_map hvalid.ids hrow hold hid
    simp [hsame, hne]
  · simp [hid]

end Records

/-- The prefixes that are left after some of them. -/
theorem ManagementTool.drop_properPrefixes {label labelPrefix : Name} {rest : List Name} {count : ℕ}
    (h : labelPrefix :: rest = (ManagementTool.properPrefixes label).drop count) :
    count + 1 < label.length ∧ labelPrefix = label.take (count + 1) ∧
      rest = (ManagementTool.properPrefixes label).drop (count + 1) := by
  have hlength : count < (ManagementTool.properPrefixes label).length := by
    by_contra hle
    rw [List.drop_eq_nil_of_le (not_lt.mp hle)] at h
    cases h
  rw [List.drop_eq_getElem_cons hlength, List.cons.injEq] at h
  rw [ManagementTool.properPrefixes, List.length_map, List.length_range] at hlength
  refine ⟨by omega, ?_, h.2⟩
  rw [h.1]
  simp [ManagementTool.properPrefixes, Name.getPrefix]

/-! ## The tree -/

section Tree

variable [PacketFormat]

/-- An NS record whose packet has the content type. -/
def HoldsNs (contentType : NdnsContentType) (row : RrsetRow) : Prop :=
  row.type = Label.nsRrType ∧ ∃ data, PacketFormat.decode row.data = some data ∧
    NdnsContentType.ofCode data.contentType = contentType

/-- At each proper prefix of the label of an NS or TXT record there is exactly one NS record, and it
is an AUTH record. -/
def AuthAbove (zoneId : ℕ) (db : Database) : Prop :=
  ∀ row ∈ db.rrsets, row.zoneId = zoneId →
    row.type = Label.nsRrType ∨ row.type = Label.txtRrType → ∀ part, IsPart part row.label →
      ∃ auth, HoldsNs .auth auth ∧ ∀ other,
        other ∈ db.rrsets ∧ other.key = (zoneId, part, Label.nsRrType) ↔ other = auth

/-- No NS or TXT record is strictly below a delegation. -/
theorem AuthAbove.not_below_link {zoneId : ℕ} {db : Database} (h : AuthAbove zoneId db)
    {row link : RrsetRow} (hrow : row ∈ db.rrsets) (hzone : row.zoneId = zoneId)
    (htype : row.type = Label.nsRrType ∨ row.type = Label.txtRrType) (hlink : link ∈ db.rrsets)
    (hlinkZone : link.zoneId = zoneId) (hdelegates : HoldsNs .link link) :
    ¬ IsPart link.label row.label := by
  intro hpart
  obtain ⟨auth, ⟨-, data, hdecode, hauth⟩, hunique⟩ := h row hrow hzone htype _ hpart
  obtain ⟨hns, data', hdecode', hcode⟩ := hdelegates
  have hsame : link = auth := (hunique link).mp ⟨hlink, by rw [RrsetRow.key, hlinkZone, hns]⟩
  rw [hsame, hdecode, Option.some.injEq] at hdecode'
  rw [← hdecode', hauth] at hcode
  cases hcode

/-- A zone of the right shape has the tree. -/
theorem authAbove_of_shape {zoneName : Name} {zoneId : ℕ} {db : Database}
    (h : ZoneShape zoneName (records db zoneId)) : AuthAbove zoneId db := by
  have hrecord : ∀ row ∈ db.rrsets, row.zoneId = zoneId →
      row.type = Label.nsRrType ∨ row.type = Label.txtRrType → row ∈ records db zoneId := by
    intro row hrow hzone htype
    refine mem_records.mpr ⟨hrow, hzone, fun hdoe ↦ ?_⟩
    rcases htype with hns | htxt
    · exact absurd (hns.symm.trans hdoe) (by decide)
    · exact absurd (htxt.symm.trans hdoe) (by decide)
  intro row hrow hzone htype part hpart
  obtain ⟨auth, hauth, hlabel, hisAuth⟩ := h.parts row (hrecord row hrow hzone htype) htype part
    hpart
  obtain ⟨hns, hcarries⟩ := hisAuth
  obtain ⟨data, hdecode, -, hcode, -⟩ := hcarries.decodes
  refine ⟨auth, ⟨hns, data, hdecode, by rw [hcode]; rfl⟩, fun other ↦ ⟨?_, ?_⟩⟩
  · rintro ⟨hother, hkey⟩
    simp only [RrsetRow.key, Prod.mk.injEq] at hkey
    refine List.inj_on_of_nodup_map h.keys (hrecord other hother hkey.1 (Or.inl hkey.2.2)) hauth ?_
    exact recordKey_eq_iff.mpr ⟨hkey.2.1.trans hlabel.symm, hkey.2.2.trans hns.symm⟩
  · rintro rfl
    obtain ⟨hmem, hid, -⟩ := mem_records.mp hauth
    exact ⟨hmem, by rw [RrsetRow.key, hid, hlabel, hns]⟩

/-! ## Statements of an addition -/

/-- The zone and the shape of its records, as an invariant of the statements. -/
structure Shaped (zoneName : Name) (zoneId : ℕ) (db : Database) : Prop where
  zone : ∃ row ∈ db.zones, row.id = zoneId ∧ row.name = zoneName
  shape : ZoneShape zoneName (records db zoneId)

theorem Shaped.congr {zoneName : Name} {zoneId : ℕ} {db db' : Database}
    (h : Shaped zoneName zoneId db) (hzones : db'.zones = db.zones)
    (hrecords : records db' zoneId = records db zoneId) : Shaped zoneName zoneId db' :=
  ⟨hzones ▸ h.zone, hrecords ▸ h.shape⟩

/-- What an addition knows when it stores its record, if the record is one of the zone. -/
structure Prepared (zoneName : Name) (db : Database) (zone : Zone) (rrset : Rrset) : Prop where
  added : Added zoneName rrset
  parts : ∀ part, IsPart part rrset.label →
    ∃ auth ∈ records db zone.id, auth.label = part ∧ IsAuth zoneName auth
  replaces : ∀ row ∈ records db zone.id, row.label = rrset.label → row.type = rrset.type →
    ¬ IsAuth zoneName row

namespace ManagementTool

variable {Keys : Type} {services : Services Keys} {db : Database} {rrset : Rrset} {zone : Zone}
  {zoneName : Name} {zoneId : ℕ}

theorem shapes_generateDoe (h : Shaped zoneName zoneId db) (hsingle : db.SingleVersion)
    (stored : Zone) :
    Meets services (fun _ db' ↦ Shaped zoneName zoneId db') (generateDoe stored) db
      fun _ db' ↦ Shaped zoneName zoneId db' := by
  have hshaped : ∀ {name : Name} {regenerated : ℕ} {db' : Database},
      Regenerated name regenerated db db' → Shaped zoneName zoneId db' := by
    intro _ _ _ hregenerated
    exact h.congr hregenerated.zones (hregenerated.records zoneId)
  exact (meets_generateDoe hsingle fun _ _ _ h' ↦ hshaped h').weaken fun _ _ h' ↦ hshaped h'

/-- A record of the zone is stored under a prepared label, one of another zone leaves it alone. -/
theorem shapes_store (h : Shaped zoneName zoneId db) (hvalid : db.Valid)
    (hsingle : db.SingleVersion) (hnew : rrset.id = 0) (hzone : rrset.zone = some zone)
    (hid : zone.id ≠ 0) (hprepared : zone.id = zoneId → Prepared zoneName db zone rrset) :
    Meets services (fun _ db' ↦ Shaped zoneName zoneId db') (store rrset) db
      fun _ db' ↦ Shaped zoneName zoneId db' := by
  have hresolve : resolveZone db zone = zone := if_neg hid
  have hdelete : ∀ row, keyRow db zone.id rrset.label rrset.type = some row →
      Shaped zoneName zoneId (db.deleteRrset row.id) ∧
        (zone.id = zoneId → Prepared zoneName (db.deleteRrset row.id) zone rrset) := by
    intro row hrow
    by_cases hsame : zone.id = zoneId
    · obtain ⟨hadded, hparts, hreplaces⟩ := hprepared hsame
      rw [hsame] at hrow hparts hreplaces ⊢
      obtain ⟨hmem, hlabel, htype⟩ := mem_records_of_keyRow hadded.type_ne hrow
      have hkept : ∀ other ∈ records db zoneId, recordKey other = recordKey row →
          ¬ IsAuth zoneName other := by
        intro other hother hkey
        obtain ⟨hotherLabel, hotherType⟩ := recordKey_eq_iff.mp hkey
        exact hreplaces other hother (hotherLabel.trans hlabel) (hotherType.trans htype)
      have hrowType : row.type = Label.nsRrType ∨ row.type = Label.txtRrType := by
        rw [htype]
        rcases hadded with ⟨hns, -⟩ | ⟨htxt, -⟩
        · exact Or.inl hns
        · exact Or.inr htxt
      have hrecords := records_deleteRrset hvalid h.shape.keys hmem
      refine ⟨⟨h.zone, ?_⟩, fun _ ↦ ⟨hadded, ?_, ?_⟩⟩
      · rw [hrecords]
        exact h.shape.erase hrowType hkept
      · intro part hpart
        obtain ⟨auth, hauth, hauthLabel, hisAuth⟩ := hparts part hpart
        rw [hsame, hrecords]
        exact ⟨auth, List.mem_filter.mpr ⟨hauth, decide_eq_true fun hkey ↦
          hkept auth hauth hkey hisAuth⟩, hauthLabel, hisAuth⟩
      · intro other hother
        rw [hsame, hrecords] at hother
        exact hreplaces other (List.mem_of_mem_filter hother)
    · refine ⟨?_, fun hsame' ↦ absurd hsame' hsame⟩
      obtain ⟨hmem, hrowZone, -⟩ := keyRow_eq_some hrow
      exact h.congr rfl (records_deleteRrset_other hvalid hmem (hrowZone ▸ hsame))
  have hstores : Stores services (fun _ db' ↦ Shaped zoneName zoneId db') db zone rrset
      (Shaped zoneName zoneId) := by
    refine ⟨h, fun row _ hrow _ ↦ (hdelete row hrow).1, fun _ _ hzero ↦ absurd hzero hid, ?_⟩
    intro cleared storedId db' hcleared _ hknown habsent
    obtain ⟨rfl, rfl⟩ := hknown hid
    have hcleared' : Shaped zoneName zoneId db' ∧
        (zone.id = zoneId → Prepared zoneName db' zone rrset) := by
      cases hcleared with
      | absent _ => exact ⟨h, hprepared⟩
      | older _ hrow _ => exact hdelete _ hrow
    have hinserted : Shaped zoneName zoneId (db'.insertRrset zone.id rrset.label rrset.type
        rrset.version rrset.ttl rrset.data) := by
      by_cases hsame : zone.id = zoneId
      · obtain ⟨hadded, hparts, -⟩ := hcleared'.2 hsame
        rw [hsame] at hparts habsent ⊢
        refine ⟨hcleared'.1.zone, ?_⟩
        rw [records_insertRrset hadded.type_ne]
        refine hcleared'.1.shape.append (hadded.row _ zoneId) hparts fun other hother hkey ↦ ?_
        obtain ⟨hotherMem, hotherZone, -⟩ := mem_records.mp hother
        obtain ⟨hlabel, htype⟩ := recordKey_eq_iff.mp hkey
        exact habsent other hotherMem (by rw [RrsetRow.key, hotherZone, hlabel, htype])
      · exact hcleared'.1.congr rfl (records_insertRrset_other hsame _ _ _ _ _)
    have hsingle' : (db'.insertRrset zone.id rrset.label rrset.type rrset.version rrset.ttl
        rrset.data).SingleVersion :=
      (hsingle.sublist hcleared.sublist).insertRrset habsent _ _ _
    exact ⟨hinserted, fun stored _ _ ↦ shapes_generateDoe hinserted hsingle' stored⟩
  rw [← hresolve] at hstores
  exact meets_store hvalid hsingle hnew hzone (fun hzero ↦ absurd (hresolve ▸ hzero) hid) hstores

theorem shapes_addRrset (h : Shaped zoneName zoneId db) (hvalid : db.Valid)
    (hsingle : db.SingleVersion) (hnew : rrset.id = 0) (hzone : rrset.zone = some zone)
    (hid : zone.id ≠ 0) (hadded : zone.id = zoneId → Added zoneName rrset)
    (hlabel : rrset.label.length ≤ 1) :
    Meets services (fun _ db' ↦ Shaped zoneName zoneId db') (addRrset rrset) db
      fun _ db' ↦ Shaped zoneName zoneId db' := by
  have hresolve : resolveZone db zone = zone := if_neg hid
  refine meets_addRrset hzone (fun _ ↦ h) fun hdiffers ↦ ?_
  rw [hresolve] at hdiffers ⊢
  refine shapes_store h hvalid hsingle hnew rfl hid fun hsame ↦ ⟨hadded hsame, ?_, ?_⟩
  · intro part hpart
    obtain ⟨index, hindex, -⟩ := isPart_iff.mp hpart
    exact absurd hlabel (by simp only at hindex; omega)
  · intro row hrow hrowLabel _ hisAuth
    have hkeys : ((records db zone.id).map recordKey).Nodup := hsame ▸ h.shape.keys
    exact not_carries_of_nsDiffers hvalid hkeys (hdiffers hid) hrow hrowLabel hisAuth.1 hisAuth.2 rfl

/-- What the loop of AUTH records knows with some prefixes still ahead. -/
structure Preparing (zoneName : Name) (zoneId : ℕ) (base : Database) (zone : Zone) (label : Name)
    (remaining : List Name) (db : Database) : Prop where
  valid : db.Valid
  single : db.SingleVersion
  shaped : Shaped zoneName zoneId db
  done : ∃ count, remaining = (properPrefixes label).drop count ∧ (zone.id = zoneId →
    ∀ index < count, index + 1 < label.length → ∃ auth ∈ records db zoneId,
      auth.label = label.take (index + 1) ∧ IsAuth zoneName auth)
  noLink : zone.id = zoneId → ∀ part, IsPart part label → ∀ row ∈ records db zoneId,
    row.label = part → ¬ IsLink zoneName row
  rows : zone.id = zoneId → ∀ row ∈ records db zoneId,
    row ∈ records base zoneId ∨ row.label.length < label.length

section Preparation

variable {base : Database} {label labelPrefix : Name} {rest : List Name}

/-- An NS record that is there already is an AUTH record. -/
theorem Preparing.found (h : Preparing zoneName zoneId base zone label (labelPrefix :: rest) db)
    {row : RrsetRow} (hrow : keyRow db zone.id labelPrefix Label.nsRrType = some row) :
    Preparing zoneName zoneId base zone label rest db := by
  obtain ⟨count, hremaining, hdone⟩ := h.done
  obtain ⟨hcount, hprefix, hrest⟩ := drop_properPrefixes hremaining
  refine { h with done := ⟨count + 1, hrest, fun hsame index hindex hlabel ↦ ?_⟩ }
  rcases Nat.lt_succ_iff_lt_or_eq.mp hindex with hlt | rfl
  · exact hdone hsame index hlt hlabel
  · rw [hsame] at hrow
    obtain ⟨hmem, hrowLabel, htype⟩ := mem_records_of_keyRow (by decide) hrow
    have hpart : IsPart labelPrefix label := isPart_iff.mpr ⟨index, hcount, hprefix⟩
    exact ⟨row, hmem, hrowLabel.trans hprefix, (h.shaped.shape.ns row hmem htype).resolve_left
      (h.noLink hsame labelPrefix hpart row hmem hrowLabel)⟩

/-- A missing one is inserted below the AUTH records that are there by then. -/
theorem Preparing.insert (h : Preparing zoneName zoneId base zone label (labelPrefix :: rest) db)
    (habsent : ∀ row ∈ db.rrsets, row.key ≠ (zone.id, labelPrefix, Label.nsRrType))
    {version : Component} {data : Block} (hcarries : zone.id = zoneId → RrsetFactory.Carries data
      (Label.recordName zoneName labelPrefix Label.nsRrType ++ [version]) .auth []) (ttl : ℤ) :
    Preparing zoneName zoneId base zone label rest
      (db.insertRrset zone.id labelPrefix Label.nsRrType version ttl data) := by
  obtain ⟨count, hremaining, hdone⟩ := h.done
  obtain ⟨hcount, hprefix, hrest⟩ := drop_properPrefixes hremaining
  have hvalid : (db.insertRrset zone.id labelPrefix Label.nsRrType version ttl data).Valid :=
    h.valid.insertRrset ttl data fun row hrow hindex ↦ habsent row hrow (by
      simp only [RrsetRow.indexKey, Prod.mk.injEq] at hindex
      rw [RrsetRow.key, hindex.1, hindex.2.1, hindex.2.2.1])
  have hsingle := h.single.insertRrset habsent version ttl data
  by_cases hsame : zone.id = zoneId
  · have hrecords := @records_insertRrset db zoneId Label.nsRrType (by decide) labelPrefix version
      ttl data
    rw [hsame] at hvalid hsingle habsent ⊢
    have hdone := hdone hsame
    have hnoLink := h.noLink hsame
    have hrows := h.rows hsame
    generalize hrow : (⟨nextRowId (db.rrsets.map RrsetRow.id), zoneId, labelPrefix, Label.nsRrType,
      version, ttl, data⟩ : RrsetRow) = row at hrecords
    have hisAuth : IsAuth zoneName row := by
      rw [← hrow]
      exact ⟨rfl, hcarries hsame⟩
    have hrowLabel : row.label = label.take (count + 1) := by rw [← hrow, ← hprefix]
    have hshape : ZoneShape zoneName (records db zoneId ++ [row]) := by
      refine h.shaped.shape.append (Or.inr (Or.inl hisAuth)) (fun part hpart ↦ ?_) fun other hother hkey ↦ ?_
      · obtain ⟨index, hindex, rfl⟩ := isPart_iff.mp hpart
        rw [hrowLabel, List.length_take] at hindex
        obtain ⟨auth, hauth, hauthLabel, hauthIs⟩ := hdone index (by omega) (by omega)
        refine ⟨auth, hauth, ?_, hauthIs⟩
        rw [hauthLabel, hrowLabel, List.take_take, min_eq_left (by omega)]
      · obtain ⟨hmem, hzone, -⟩ := mem_records.mp hother
        obtain ⟨hlabel, htype⟩ := recordKey_eq_iff.mp hkey
        exact habsent other hmem (by rw [RrsetRow.key, hzone, hlabel, htype, ← hrow])
    refine ⟨hvalid, hsingle, ⟨h.shaped.zone, hrecords ▸ hshape⟩, ⟨count + 1, hrest, ?_⟩, ?_, ?_⟩
    · intro _ index hindex hlabel
      rw [hrecords]
      rcases Nat.lt_succ_iff_lt_or_eq.mp hindex with hlt | rfl
      · obtain ⟨auth, hauth, hfound⟩ := hdone index hlt hlabel
        exact ⟨auth, List.mem_append_left _ hauth, hfound⟩
      · exact ⟨row, List.mem_append_right _ List.mem_cons_self, hrowLabel, hisAuth⟩
    · intro _ part hpart other hother hlabel
      rw [hrecords] at hother
      rcases List.mem_append.mp hother with hold | hnew
      · exact hnoLink part hpart other hold hlabel
      · rw [List.mem_singleton.mp hnew]
        exact fun hlink ↦ hlink.not_isAuth hisAuth
    · intro _ other hother
      rw [hrecords] at hother
      rcases List.mem_append.mp hother with hold | hnew
      · exact hrows other hold
      · right
        rw [List.mem_singleton.mp hnew, hrowLabel, List.length_take]
        omega
  · refine ⟨hvalid, hsingle, ?_, ⟨count + 1, hrest, fun hsame' ↦ absurd hsame' hsame⟩,
      fun hsame' ↦ absurd hsame' hsame, fun hsame' ↦ absurd hsame' hsame⟩
    exact h.shaped.congr rfl (records_insertRrset_other hsame _ _ _ _ _)

end Preparation

theorem shapes_addMultiLevelLabelRrset {factory : RrsetFactory} {authTtl : ℤ}
    (h : Shaped zoneName zoneId db) (hvalid : db.Valid) (hsingle : db.SingleVersion)
    (hnew : rrset.id = 0) (hzone : rrset.zone = some zone) (hid : zone.id ≠ 0)
    (hadded : zone.id = zoneId → Added zoneName rrset)
    (hname : zone.id = zoneId → zone.name = zoneName) (hsame : SameZone db zone factory.zone) :
    Meets services (fun _ db' ↦ Shaped zoneName zoneId db')
      (addMultiLevelLabelRrset rrset factory authTtl) db
      fun _ db' ↦ Shaped zoneName zoneId db' := by
  refine meets_addMultiLevelLabelRrset hvalid hzone (fun _ ↦ h) fun zone' htracks hnolink hnotAuth ↦ ?_
  have hstart : Preparing zoneName zoneId db zone rrset.label (properPrefixes rrset.label) db := by
    refine ⟨hvalid, hsingle, h, ⟨0, rfl, fun _ index hindex ↦ absurd hindex (by omega)⟩, ?_,
      fun _ row hrow ↦ Or.inl hrow⟩
    rintro hzoneId part hpart row hrow hrowLabel ⟨htype, _, _, -, hcarries⟩
    obtain ⟨index, hindex, rfl⟩ := isPart_iff.mp hpart
    rw [← hzoneId] at hrow
    have hkeys : ((records db zone.id).map recordKey).Nodup := hzoneId ▸ h.shape.keys
    refine not_carries_of_nsDiffers hvalid hkeys (hnolink hid _ ?_) hrow hrowLabel htype hcarries rfl
    exact List.mem_map.mpr ⟨index, List.mem_range.mpr (by omega), rfl⟩
  have hauth := @meets_createAuth _ services (fun _ db' ↦ Shaped zoneName zoneId db') db
    { rrset with zone := some zone' } zone _ (Preparing zoneName zoneId db zone rrset.label) factory
    authTtl (properPrefixes rrset.label) (fun _ _ hinv ↦ hinv.valid)
    (fun hzero ↦ absurd hzero hid)
    (fun _ _ _ _ hinv hrow ↦ hinv.found (by rwa [resolveZone, if_neg hid] at hrow)) ?_ zone' rfl
    htracks hsame hstart
  · refine hauth.bind ?_ fun fault db' hfault ↦ ?_
    · rintro result db' ⟨hprepared, zone'', rfl, htracks'⟩
      obtain ⟨count, hremaining, hdone⟩ := hprepared.done
      refine shapes_store hprepared.shaped hprepared.valid hprepared.single hnew rfl
        (by rwa [htracks'.known hid]) ?_
      rw [htracks'.known hid]
      intro hzoneId
      refine ⟨hadded hzoneId, ?_, ?_⟩
      · intro part hpart
        obtain ⟨index, hindex, rfl⟩ := isPart_iff.mp hpart
        have hcount : index < count := by
          have hlength := List.drop_eq_nil_iff.mp hremaining.symm
          rw [properPrefixes, List.length_map, List.length_range] at hlength
          have hindex' : index + 1 < rrset.label.length := hindex
          omega
        rw [hzoneId]
        exact hdone hzoneId index hcount hindex
      · intro row hrow hrowLabel htype hisAuth
        rw [hzoneId] at hrow
        rcases hprepared.rows hzoneId row hrow with hold | hshort
        · rw [← hzoneId] at hold
          have hkeys : ((records db zone.id).map recordKey).Nodup := hzoneId ▸ h.shape.keys
          exact not_carries_of_nsDiffers hvalid hkeys
            (hnotAuth hid (htype.symm.trans hisAuth.1)) hold hrowLabel hisAuth.1 hisAuth.2 rfl
        · exact absurd (congrArg List.length hrowLabel) hshort.ne
    · obtain ⟨remaining, hprepared⟩ := hfault
      exact hprepared.shaped
  · intro labelPrefix rest db₁ storedId db' version ttl data hinv hhouses habsent hcarries
    obtain ⟨rfl, rfl⟩ := hhouses.known hid
    have hprepared := hinv.insert habsent (fun hzoneId ↦ hname hzoneId ▸ hcarries) ttl
    exact ⟨fun hzero ↦ absurd hzero hid, hprepared.shaped, hprepared⟩

/-! ## Additions from the command line -/

variable {label dsk : Name} {type : Component} {version : ℕ} {ttl : ℤ} {delegations : List Name}
  {strings : List Blob}

/-- An addition that ends in an exception before it has a record has only read the tables. -/
theorem meets_addRr {Change : Database → Database → Prop} {post : Database → Prop}
    (htype : type = Label.nsRrType ∨ type = Label.txtRrType) (hsame : post db)
    (hmulti : ∀ factory rrset, factory.zone = lookupZone db (Zone.named zoneName) →
      factory.zone.id ≠ 0 → rrset.id = 0 → rrset.zone = some factory.zone →
      Added zoneName rrset →
        Meets services Change (addMultiLevelLabelRrset rrset factory ttl) db fun _ db' ↦ post db')
    (hsingle : ∀ rrset, (lookupZone db (Zone.named zoneName)).id ≠ 0 → rrset.id = 0 →
      rrset.zone = some (lookupZone db (Zone.named zoneName)) → Added zoneName rrset →
      rrset.label.length ≤ 1 →
        Meets services Change (addRrset rrset) db fun _ db' ↦ post db') :
    Meets services Change (addRr zoneName label type version ttl dsk delegations strings) db
      fun _ db' ↦ post db' := by
  refine meets_select (selects_of_reads (RrsetFactory.reads_make _ _)) ?_ fun _ ↦ hsame
  intro keys keys' made hmake
  obtain ⟨hmadeZone, hmadeNew⟩ := RrsetFactory.returns_make hmake
  refine meets_checkZoneKey hmadeNew (fun factory hfactory hid ↦ ?_) fun _ ↦ hsame
  rw [hmadeZone] at hfactory
  have hgenerate : (generateNamedRrset factory label type version ttl delegations
      strings).CallsOnly Call.Selects := by
    unfold generateNamedRrset
    split_ifs
    · exact selects_of_reads (RrsetFactory.reads_generateRrset _ _ _ _ _ _ _)
    · exact selects_of_reads (RrsetFactory.reads_generateRrset _ _ _ _ _ _ _)
    · trivial
  refine meets_select hgenerate ?_ fun _ ↦ hsame
  intro keys₁ keys₁' rrset hrrset
  obtain ⟨-, hnew, hzone, rfl, hadded⟩ := added_generateNamedRrset htype hrrset
  have hname : factory.zone.name = zoneName := by
    rw [hfactory, lookupZone_name]
    rfl
  rw [hname] at hadded
  split_ifs with hlength
  · exact hmulti factory rrset hfactory hid hnew hzone hadded
  · rw [hfactory] at hid hzone
    exact hsingle rrset hid hnew hzone hadded (not_lt.mp hlength)

theorem shapes_addRr {other : Name} (htype : type = Label.nsRrType ∨ type = Label.txtRrType)
    (h : Shaped zoneName zoneId db) (hvalid : db.Valid) (hsingle : db.SingleVersion) :
    Meets services (fun _ db' ↦ Shaped zoneName zoneId db')
      (addRr other label type version ttl dsk delegations strings) db
      fun _ db' ↦ Shaped zoneName zoneId db' := by
  have hother : (lookupZone db (Zone.named other)).id ≠ 0 →
      (lookupZone db (Zone.named other)).id = zoneId → other = zoneName := by
    intro hid hsame
    obtain ⟨found, hfound, hname, hlookup⟩ := lookupZone_id_eq hid
    obtain ⟨row, hrow, hrowId, rfl⟩ := h.zone
    rw [hlookup] at hsame
    rw [List.inj_on_of_nodup_map hvalid.zoneIds hfound hrow (hsame.trans hrowId.symm)] at hname
    exact hname.symm
  refine meets_addRr htype h ?_ ?_
  · intro factory rrset hfactory hid hnew hrrsetZone hadded
    rw [hfactory] at hid
    refine shapes_addMultiLevelLabelRrset h hvalid hsingle hnew hrrsetZone (by rwa [hfactory]) ?_ ?_
      ⟨rfl, rfl⟩
    · rw [hfactory]
      exact fun hsame ↦ hother hid hsame ▸ hadded
    · rw [hfactory, lookupZone_name]
      exact hother hid
  · intro rrset hid hnew hrrsetZone hadded hlength
    exact shapes_addRrset h hvalid hsingle hnew hrrsetZone hid
      (fun hsame ↦ hother hid hsame ▸ hadded) hlength

theorem keeps_addRr (htype : type = Label.nsRrType ∨ type = Label.txtRrType) (hvalid : db.Valid)
    (hsingle : db.SingleVersion) :
    Meets services AnyChange (addRr zoneName label type version ttl dsk delegations strings) db
      fun _ db' ↦ db'.Valid ∧ db'.SingleVersion := by
  have hstart : Kept (fun _ ↦ False) db db := Kept.refl hvalid hsingle
  have hkeeps : Meets services AnyChange
      (addRr zoneName label type version ttl dsk delegations strings) db
        fun _ db' ↦ Kept (fun _ ↦ False) db db' := by
    refine meets_addRr htype hstart ?_ ?_
    · intro factory rrset _ hid hnew hzone _
      refine keeps_addMultiLevelLabelRrset hstart hnew hzone (fun hzero ↦ ?_) ⟨rfl, rfl⟩
      exact absurd (congrArg Zone.id (if_neg hid : resolveZone db factory.zone = _) ▸ hzero) hid
    · intro rrset hid hnew hzone _ _
      refine keeps_addRrset hstart hnew hzone fun hzero ↦ ?_
      exact absurd (congrArg Zone.id (if_neg hid : resolveZone db _ = _) ▸ hzero) hid
  exact hkeeps.weaken fun _ _ hkept ↦ ⟨hkept.valid, hkept.single⟩

end ManagementTool

/-! ## Runs -/

/-- An addition of an NS or TXT record to some zone that returns or throws. -/
def Attempts (db db' : Database) : Prop :=
  ∃ (Keys : Type) (services : Services Keys) (keys keys' : Keys) (zoneName label dsk : Name)
    (type : Component) (version : ℕ) (ttl : ℤ) (delegations : List Name) (strings : List Blob)
    (outcome : Except Fault Unit),
    (type = Label.nsRrType ∨ type = Label.txtRrType) ∧
      (ManagementTool.addRr zoneName label type version ttl dsk delegations strings).run
        (World.handle services) ⟨db, keys⟩ = (outcome, ⟨db', keys'⟩) ∧
      outcome ≠ .error .undefinedBehavior ∧ outcome ≠ .error .nonTermination

theorem Attempts.shaped {zoneName : Name} {zoneId : ℕ} {db db' : Database}
    (h : db.Valid ∧ db.SingleVersion ∧ Shaped zoneName zoneId db) (hattempts : Attempts db db') :
    db'.Valid ∧ db'.SingleVersion ∧ Shaped zoneName zoneId db' := by
  obtain ⟨hvalid, hsingle, hshaped⟩ := h
  obtain ⟨Keys, services, keys, keys', other, label, dsk, type, version, ttl, delegations, strings,
    outcome, htype, hrun, -⟩ := hattempts
  have hkept := (@ManagementTool.keeps_addRr _ _ services db other label dsk type version ttl
    delegations strings htype hvalid hsingle).run keys
  have hshape := (@ManagementTool.shapes_addRr _ _ services db zoneName zoneId label dsk type version
    ttl delegations strings other htype hshaped hvalid hsingle).run keys
  rw [hrun] at hkept hshape
  exact ⟨hkept.1, hkept.2, hshape⟩

/-- After the creation of a zone and any attempts to add records, in every state the next attempt
goes through, the proper prefixes of NS and TXT records have one NS record each, an AUTH record,
and none of them is a delegation. -/
theorem run_authAbove {Keys : Type} {services : Services Keys} {world world' : World Keys}
    {zoneName parentZoneName kskCertName dskCertName dkeyCertName : Name} {cacheTtl : ℤ}
    {zone' : Zone} (hvalid : world.db.Valid) (hsingle : world.db.SingleVersion)
    (howned : ∀ row ∈ world.db.rrsets, ∃ zone ∈ world.db.zones, zone.id = row.zoneId)
    (hcreate : (ManagementTool.createZone zoneName parentZoneName cacheTtl kskCertName dskCertName
      dkeyCertName).Returns (World.handle services) world zone' world')
    {db : Database} (hattempts : Relation.ReflTransGen Attempts world'.db db) {Adding : Type}
    (adding : Services Adding) (keys : Adding) (other label dsk : Name) {type : Component}
    (htype : type = Label.nsRrType ∨ type = Label.txtRrType) (version : ℕ) (ttl : ℤ)
    (delegations : List Name) (strings : List Blob) :
    ∀ later ∈ (ManagementTool.addRr other label type version ttl dsk delegations strings).visited
        (World.handle adding) ⟨db, keys⟩,
      AuthAbove zone'.id later.db ∧
        ∀ row ∈ later.db.rrsets, row.zoneId = zone'.id →
          row.type = Label.nsRrType ∨ row.type = Label.txtRrType →
          ∀ link ∈ later.db.rrsets, link.zoneId = zone'.id → HoldsNs .link link →
            ¬ IsPart link.label row.label := by
  have hstart : world'.db.Valid ∧ world'.db.SingleVersion ∧ Shaped zoneName zone'.id world'.db := by
    have hserves := serves_createZone hvalid howned hcreate
    have hkept := (@ManagementTool.keeps_createZone _ services _ _ (fun _ ↦ False) _ zoneName
      parentZoneName kskCertName dskCertName dkeyCertName cacheTtl
      (Kept.refl hvalid hsingle)).run world.keys
    rw [show (ManagementTool.createZone zoneName parentZoneName cacheTtl kskCertName dskCertName
      dkeyCertName).run (World.handle services) ⟨world.db, world.keys⟩ = _ from hcreate] at hkept
    exact ⟨hkept.valid, hkept.single, hserves.zone, hserves.shape⟩
  have hreached : db.Valid ∧ db.SingleVersion ∧ Shaped zoneName zone'.id db := by
    induction hattempts with
    | refl => exact hstart
    | tail _ hattempt ih => exact Attempts.shaped ih hattempt
  have hmeets := @ManagementTool.shapes_addRr _ _ adding db zoneName zone'.id label dsk type version
    ttl delegations strings other htype hreached.2.2 hreached.1 hreached.2.1
  intro later hlater
  have hauth := authAbove_of_shape (hmeets.visited hreached.2.2 keys later hlater).shape
  exact ⟨hauth, fun row hrow hzone hrowType link hlink hlinkZone hdelegates ↦
    hauth.not_below_link hrow hzone hrowType hlink hlinkZone hdelegates⟩

end Tree

section Examples

open LocalServices

attribute [local instance] ndnPacketFormat

theorem attempts_withText (label : Name) (db : Database)
    (h : ((ManagementTool.addRr [letter 110] label Label.txtRrType 1 3600 [] [] []).run
      (World.handle localServices) ⟨db, 0⟩).1 = .ok ()) : Attempts db (withText label db) :=
  ⟨ℕ, localServices, 0, _, [letter 110], label, [], Label.txtRrType, 1, 3600, [], [], .ok (),
    Or.inr rfl, Prod.ext h rfl, nofun, nofun⟩

/-- The addition of a TXT record at /w/v, twice: the second attempt finds a duplicate. -/
theorem authAbove_repeated :
    (ManagementTool.addRr [letter 110] [letter 119, letter 118] Label.txtRrType 1 3600 [] []
      []).visited (World.handle localServices) ⟨withText [letter 119, letter 118] netZone, 0⟩ ≠ [] ∧
    ∀ later ∈ (ManagementTool.addRr [letter 110] [letter 119, letter 118] Label.txtRrType 1 3600 []
      [] []).visited (World.handle localServices) ⟨withText [letter 119, letter 118] netZone, 0⟩,
      AuthAbove 1 later.db := by
  have hattempt : Attempts netZone (withText [letter 119, letter 118] netZone) :=
    attempts_withText _ _ (by decide +kernel)
  exact ⟨nofun, fun later hlater ↦ (run_authAbove Database.valid_empty singleVersion_empty
    (by simp [Database.empty]) netZone_step (Relation.ReflTransGen.single hattempt) localServices 0
    [letter 110] [letter 119, letter 118] [] (Or.inr rfl) 1 3600 [] [] later hlater).1⟩

/-- An update of the zone /n with a record at /w/v. -/
def nestedRecord : Data :=
  ⟨Label.recordName [letter 110] [letter 119, letter 118] Label.txtRrType ++
    [Component.fromVersion 1], 0, 0, [], [], []⟩

def nestedPacket : Received :=
  ⟨(Layout.encode nestedRecord).getD Block.invalid, nestedRecord, by decide⟩

def nestedUpdate : Edit :=
  .operation (.doUpdate NameServer.netServer NameServer.updateInterest nestedPacket)

/-- The tables after the server of the removed zone /n has stored the record. -/
def lateNested : Database := afterEdit nestedUpdate (afterEdit netRemoval createdDatabase)

/-- The zone /o, created in these tables. -/
def reusedZone : World ℕ :=
  ((ManagementTool.createZone [letter 111] [] 3600 [] [] []).run (World.handle localServices)
    ⟨lateNested, 0⟩).2

/-- The addition of a TXT record to this zone. -/
def orgText : Except Fault Unit × World ℕ :=
  (ManagementTool.addRr [letter 111] [letter 120] Label.txtRrType 1 3600 [] [] []).run
    (World.handle localServices) ⟨reusedZone.db, 0⟩

set_option maxRecDepth 8000 in
theorem nestedUpdate_step : nestedUpdate.Step (afterEdit netRemoval createdDatabase) lateNested :=
  ⟨trivial, ℕ, localServices, 0, _, .ok true, Prod.ext rfl rfl, nofun, nofun⟩

/-- A TXT record at /w/v without an NS record at /w. -/
theorem not_authAbove_of_missing {db : Database}
    (h : (∃ row ∈ db.rrsets, row.zoneId = 1 ∧ row.type = Label.txtRrType ∧
      row.label = [letter 119, letter 118]) ∧
      ∀ row ∈ db.rrsets, row.key ≠ (1, [letter 119], Label.nsRrType)) : ¬ AuthAbove 1 db := by
  obtain ⟨⟨row, hrow, hzone, htype, hlabel⟩, hmissing⟩ := h
  intro habove
  have hpart : IsPart [letter 119] row.label := by
    rw [hlabel]
    exact ⟨by decide, by decide, by decide⟩
  obtain ⟨auth, -, honly⟩ := habove row hrow hzone (Or.inr htype) _ hpart
  obtain ⟨hauth, hkey⟩ := (honly auth).mpr rfl
  exact hmissing auth hauth hkey

set_option maxRecDepth 8000 in
/-- A zone created under the id of a removed one starts with the record at /w/v and without an AUTH
record at /w, and an addition does not change that. -/
theorem not_authAbove_reused : ∃ before zone' world' db,
    Relation.ReflTransGen (fun left right ↦ ∃ edit : Edit, edit.Step left right) Database.empty
      before ∧
    (ManagementTool.createZone [letter 111] [] 3600 [] [] []).Returns (World.handle localServices)
      ⟨before, 0⟩ zone' world' ∧
    Attempts world'.db db ∧ ¬ AuthAbove zone'.id world'.db ∧ ¬ AuthAbove zone'.id db := by
  refine ⟨lateNested, ⟨1, [letter 111], 3600⟩, reusedZone, orgText.2.db, ?_,
    Prod.ext (by decide +kernel) rfl, ?_, not_authAbove_of_missing (by decide +kernel),
    not_authAbove_of_missing (by decide +kernel)⟩
  · exact ((Relation.ReflTransGen.single ⟨_, creation_edit⟩).tail ⟨_, netRemoval_step⟩).tail
      ⟨_, nestedUpdate_step⟩
  · exact ⟨ℕ, localServices, 0, _, [letter 111], [letter 120], [], Label.txtRrType, 1, 3600, [], [],
      .ok (), Or.inr rfl, Prod.ext (by decide +kernel) rfl, nofun, nofun⟩

end Examples

end Ndns.Mgmt
