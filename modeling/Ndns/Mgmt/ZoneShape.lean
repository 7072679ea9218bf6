import Ndns.Mgmt.DenialRecords

/-!
# The Shape of a Zone

What the records of a zone look like when they were all made by `createZone` and `ndns-add-rr`:
each label and type is stored once, the packets are those of the factory, and every NS and TXT
record below another label has an AUTH record there.  One rule says when replacing a record keeps
the shape, and every addition is an instance of it.
-/

namespace Ndns.Mgmt

open Ndn Calls Daemon

/-! ## Records and tables -/

/-- A record takes the place of the one with its label and type, if there is one. -/
def replaceRow (rows : List RrsetRow) (row : RrsetRow) : List RrsetRow :=
  rows.filter (fun other ↦ recordKey other ≠ recordKey row) ++ [row]

theorem mem_replaceRow {rows : List RrsetRow} {row other : RrsetRow} :
    other ∈ replaceRow rows row ↔
      other ∈ rows ∧ recordKey other ≠ recordKey row ∨ other = row := by
  simp [replaceRow]

theorem recordKey_eq_iff {left right : RrsetRow} :
    recordKey left = recordKey right ↔ left.label = right.label ∧ left.type = right.type := by
  simp [recordKey]

theorem records_insertRrset {db : Database} {zoneId : ℕ} {type : Component}
    (htype : type ≠ Label.doeRrType) (label : Name) (version : Component) (ttl : ℤ)
    (data : Block) :
    records (db.insertRrset zoneId label type version ttl data) zoneId = records db zoneId ++
      [⟨nextRowId (db.rrsets.map RrsetRow.id), zoneId, label, type, version, ttl, data⟩] := by
  simp [records, Database.insertRrset, htype]

/-- Without a record of the key there is nothing to replace. -/
theorem replaceRow_of_absent {rows : List RrsetRow} {row : RrsetRow}
    (h : ∀ other ∈ rows, recordKey other ≠ recordKey row) : replaceRow rows row = rows ++ [row] := by
  rw [replaceRow, List.filter_eq_self.mpr fun other hother ↦ by simpa using h other hother]

/-- Deleting a row removes the record of its key. -/
theorem records_deleteRrset {db : Database} (hvalid : db.Valid) {zoneId : ℕ}
    (hkeys : ((records db zoneId).map recordKey).Nodup) {old : RrsetRow}
    (hold : old ∈ records db zoneId) :
    records (db.deleteRrset old.id) zoneId =
      (records db zoneId).filter fun other ↦ recordKey other ≠ recordKey old := by
  have hfilter : records (db.deleteRrset old.id) zoneId =
      (records db zoneId).filter fun other ↦ other.id ≠ old.id := by
    rw [records, Database.deleteRrset, List.filter_filter, records, List.filter_filter]
    exact List.filter_congr fun other _ ↦ Bool.and_comm _ _
  rw [hfilter]
  refine List.filter_congr fun other hother ↦ ?_
  rw [decide_eq_decide, not_iff_not]
  constructor
  · intro hid
    rw [List.inj_on_of_nodup_map hvalid.ids (mem_records.mp hother).1 (mem_records.mp hold).1 hid]
  · intro hsame
    rw [List.inj_on_of_nodup_map hkeys hother hold hsame]

/-- The first row of a key is the record with this key. -/
theorem keyRow_of_mem {db : Database} {zoneId : ℕ}
    (hkeys : ((records db zoneId).map recordKey).Nodup) {row : RrsetRow}
    (hrow : row ∈ records db zoneId) :
    DbMgr.keyRow db zoneId row.label row.type = some row := by
  obtain ⟨hmem, hzone, htype⟩ := mem_records.mp hrow
  cases hfind : DbMgr.keyRow db zoneId row.label row.type with
  | none => exact absurd ⟨hzone, rfl, rfl⟩ (DbMgr.keyRow_eq_none.mp hfind row hmem)
  | some found =>
      obtain ⟨hfound, hfoundZone, hfoundLabel, hfoundType⟩ := DbMgr.keyRow_eq_some hfind
      have hrecord : found ∈ records db zoneId :=
        mem_records.mpr ⟨hfound, hfoundZone, hfoundType ▸ htype⟩
      rw [List.inj_on_of_nodup_map hkeys hrecord hrow
        (recordKey_eq_iff.mpr ⟨hfoundLabel, hfoundType⟩)]

theorem mem_records_of_keyRow {db : Database} {zoneId : ℕ} {label : Name} {type : Component}
    (htype : type ≠ Label.doeRrType) {row : RrsetRow}
    (h : DbMgr.keyRow db zoneId label type = some row) :
    row ∈ records db zoneId ∧ row.label = label ∧ row.type = type := by
  obtain ⟨hmem, hzone, hlabel, hrowType⟩ := DbMgr.keyRow_eq_some h
  exact ⟨mem_records.mpr ⟨hmem, hzone, hrowType ▸ htype⟩, hlabel, hrowType⟩

/-- A label strictly between the apex and the given one. -/
def IsPart (part label : Name) : Prop := part ≠ [] ∧ part <+: label ∧ part ≠ label

theorem isPart_iff {part label : Name} :
    IsPart part label ↔ ∃ index, index + 1 < label.length ∧ part = label.take (index + 1) := by
  constructor
  · rintro ⟨hne, hinitial, hproper⟩
    have hpos : 0 < part.length := List.length_pos_of_ne_nil hne
    have hlt : part.length < label.length :=
      lt_of_le_of_ne hinitial.length_le fun hlength ↦ hproper (hinitial.eq_of_length hlength)
    refine ⟨part.length - 1, by omega, ?_⟩
    rw [Nat.sub_add_cancel hpos]
    exact List.prefix_iff_eq_take.mp hinitial
  · rintro ⟨index, hindex, rfl⟩
    refine ⟨fun hnil ↦ ?_, List.take_prefix _ _, fun hsame ↦ ?_⟩
    · have hlength := congrArg List.length hnil
      rw [List.length_take, List.length_nil] at hlength
      omega
    · have hlength := congrArg List.length hsame
      rw [List.length_take] at hlength
      omega

/-- The row an insertion adds for an object. -/
def insertedRow (rrset : Rrset) (id zoneId : ℕ) : RrsetRow :=
  ⟨id, zoneId, rrset.label, rrset.type, rrset.version, rrset.ttl, rrset.data⟩

variable [PacketFormat]

/-! ## Packets of records -/

/-- The packet of a row is one the factory of the zone made for it. -/
def RowCarries (zoneName : Name) (row : RrsetRow) (contentType : NdnsContentType)
    (content : Blob) : Prop :=
  RrsetFactory.Carries row.data
    (Label.recordName zoneName row.label row.type ++ [row.version]) contentType content

/-- A delegation to another zone. -/
def IsLink (zoneName : Name) (row : RrsetRow) : Prop :=
  row.type = Label.nsRrType ∧ ∃ names content, encodeNames names = some content ∧
    RowCarries zoneName row .link content

/-- An NS record that says that the zone itself is responsible for longer labels. -/
def IsAuth (zoneName : Name) (row : RrsetRow) : Prop :=
  row.type = Label.nsRrType ∧ RowCarries zoneName row .auth []

def IsText (zoneName : Name) (row : RrsetRow) : Prop :=
  row.type = Label.txtRrType ∧ ∃ strings content,
    RrsetFactory.encodeStrings strings = some content ∧ RowCarries zoneName row .resp content

/-- The content type of a packet is the one it was made with. -/
theorem RowCarries.decode {zoneName : Name} {row : RrsetRow} {contentType : NdnsContentType}
    {content : Blob} (h : RowCarries zoneName row contentType content) {data : Data}
    (hdecode : PacketFormat.decode row.data = some data) :
    data.name = Label.recordName zoneName row.label row.type ++ [row.version] ∧
      data.contentType = contentType.toCode ∧ data.content = content := by
  obtain ⟨data', hdecode', hfields⟩ := h.decodes
  cases hdecode.symm.trans hdecode'
  exact hfields

theorem IsLink.not_isAuth {zoneName : Name} {row : RrsetRow} (h : IsLink zoneName row) :
    ¬ IsAuth zoneName row := by
  rintro ⟨-, hauth⟩
  obtain ⟨-, _, _, -, hlink⟩ := h
  obtain ⟨data, hdecode, -⟩ := hauth.decodes
  have hcode := (hauth.decode hdecode).2.1.symm.trans (hlink.decode hdecode).2.1
  cases hcode

/-! ## The shape -/

structure ZoneShape (zoneName : Name) (rows : List RrsetRow) : Prop where
  keys : (rows.map recordKey).Nodup
  ns : ∀ row ∈ rows, row.type = Label.nsRrType → IsLink zoneName row ∨ IsAuth zoneName row
  txt : ∀ row ∈ rows, row.type = Label.txtRrType → IsText zoneName row
  parts : ∀ row ∈ rows, row.type = Label.nsRrType ∨ row.type = Label.txtRrType →
    ∀ part, IsPart part row.label → ∃ auth ∈ rows, auth.label = part ∧ IsAuth zoneName auth
  certs : ∃ left ∈ rows, ∃ right ∈ rows, left.type = Label.certRrType ∧
    right.type = Label.certRrType ∧ left.label ≠ right.label

/-- An NS or TXT record that is no AUTH record can be removed. -/
theorem ZoneShape.erase {zoneName : Name} {rows : List RrsetRow} (h : ZoneShape zoneName rows)
    {row : RrsetRow} (htype : row.type = Label.nsRrType ∨ row.type = Label.txtRrType)
    (herased : ∀ other ∈ rows, recordKey other = recordKey row → ¬ IsAuth zoneName other) :
    ZoneShape zoneName (rows.filter fun other ↦ recordKey other ≠ recordKey row) := by
  have hmem : ∀ other, (other ∈ rows.filter fun other ↦ recordKey other ≠ recordKey row) ↔
      other ∈ rows ∧ recordKey other ≠ recordKey row := by simp
  refine ⟨Database.nodup_map_filter h.keys _, ?_, ?_, ?_, ?_⟩
  · exact fun other hother ↦ h.ns other ((hmem other).mp hother).1
  · exact fun other hother ↦ h.txt other ((hmem other).mp hother).1
  · intro other hother hotherType part hpart
    obtain ⟨auth, hauth, hlabel, hisAuth⟩ := h.parts other ((hmem other).mp hother).1 hotherType
      part hpart
    exact ⟨auth, (hmem auth).mpr ⟨hauth, fun hkey ↦ herased auth hauth hkey hisAuth⟩, hlabel,
      hisAuth⟩
  · have hkeep : ∀ cert ∈ rows, cert.type = Label.certRrType →
        cert ∈ rows.filter fun other ↦ recordKey other ≠ recordKey row := by
      intro cert hcert hcertType
      refine (hmem cert).mpr ⟨hcert, fun hkey ↦ ?_⟩
      rw [(recordKey_eq_iff.mp hkey).2] at hcertType
      rcases htype with hns | htxt
      · exact absurd (hcertType.symm.trans hns) (by decide)
      · exact absurd (hcertType.symm.trans htxt) (by decide)
    obtain ⟨left, hleft, right, hright, hleftType, hrightType, hlabels⟩ := h.certs
    exact ⟨left, hkeep left hleft hleftType, right, hkeep right hright hrightType, hleftType,
      hrightType, hlabels⟩

/-- A new NS or TXT record keeps the shape when its label is prepared by AUTH records. -/
theorem ZoneShape.append {zoneName : Name} {rows : List RrsetRow} (h : ZoneShape zoneName rows)
    {row : RrsetRow} (hrow : IsLink zoneName row ∨ IsAuth zoneName row ∨ IsText zoneName row)
    (hparts : ∀ part, IsPart part row.label → ∃ auth ∈ rows, auth.label = part ∧
      IsAuth zoneName auth)
    (habsent : ∀ other ∈ rows, recordKey other ≠ recordKey row) :
    ZoneShape zoneName (rows ++ [row]) := by
  refine ⟨Database.nodup_map_append_singleton h.keys habsent, ?_, ?_, ?_, ?_⟩
  · intro other hother hns
    rcases List.mem_append.mp hother with hmem | hnew
    · exact h.ns other hmem hns
    · rw [List.mem_singleton.mp hnew] at hns ⊢
      rcases hrow with hlink | hauth | ⟨htxt, -⟩
      · exact Or.inl hlink
      · exact Or.inr hauth
      · exact absurd (hns.symm.trans htxt) (by decide)
  · intro other hother htxt
    rcases List.mem_append.mp hother with hmem | hnew
    · exact h.txt other hmem htxt
    · rw [List.mem_singleton.mp hnew] at htxt ⊢
      rcases hrow with ⟨hns, -⟩ | ⟨hns, -⟩ | htext
      · exact absurd (htxt.symm.trans hns) (by decide)
      · exact absurd (htxt.symm.trans hns) (by decide)
      · exact htext
  · intro other hother hotherType part hpart
    obtain ⟨auth, hauth, hlabel, hisAuth⟩ : ∃ auth ∈ rows, auth.label = part ∧
        IsAuth zoneName auth := by
      rcases List.mem_append.mp hother with hmem | hnew
      · exact h.parts other hmem hotherType part hpart
      · rw [List.mem_singleton.mp hnew] at hpart
        exact hparts part hpart
    exact ⟨auth, List.mem_append_left _ hauth, hlabel, hisAuth⟩
  · obtain ⟨left, hleft, right, hright, hrest⟩ := h.certs
    exact ⟨left, List.mem_append_left _ hleft, right, List.mem_append_left _ hright, hrest⟩

/-- A record takes the place of another one that is no AUTH record. -/
theorem ZoneShape.replaceRow {zoneName : Name} {rows : List RrsetRow} (h : ZoneShape zoneName rows)
    {row : RrsetRow} (hrow : IsLink zoneName row ∨ IsAuth zoneName row ∨ IsText zoneName row)
    (hparts : ∀ part, IsPart part row.label → ∃ auth ∈ rows, auth.label = part ∧
      IsAuth zoneName auth)
    (hreplaced : ∀ other ∈ rows, recordKey other = recordKey row → ¬ IsAuth zoneName other) :
    ZoneShape zoneName (replaceRow rows row) := by
  have htype : row.type = Label.nsRrType ∨ row.type = Label.txtRrType := by
    rcases hrow with ⟨hns, -⟩ | ⟨hns, -⟩ | ⟨htxt, -⟩
    · exact Or.inl hns
    · exact Or.inl hns
    · exact Or.inr htxt
  refine (h.erase htype hreplaced).append hrow (fun part hpart ↦ ?_) fun other hother ↦ ?_
  · obtain ⟨auth, hauth, hlabel, hisAuth⟩ := hparts part hpart
    refine ⟨auth, List.mem_filter.mpr ⟨hauth, decide_eq_true fun hkey ↦ ?_⟩, hlabel, hisAuth⟩
    exact hreplaced auth hauth hkey hisAuth
  · exact of_decide_eq_true (List.mem_filter.mp hother).2

end Ndns.Mgmt
