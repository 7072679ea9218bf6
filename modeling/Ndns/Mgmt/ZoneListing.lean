import Ndns.Clients.RecordFormat
import Ndns.Mgmt.CertificateNames
import Ndns.Mgmt.DelegationTree
import Ndns.Mgmt.ListZone
import Ndns.Mgmt.ZoneFrames

/-!
# What a Listing Prints

Every row of a zone that was created and added to can be read, and a listing of it only fails at the
assertion: a delegation is printed once for each of its name servers, and the assertion wants one.
The rows that no addition touches are the certificates of the creation.
-/

namespace Ndns.Mgmt

open Ndn Calls Daemon Clients DbMgr Response

/-! ## Loops that can fail -/

section Loops

variable {α β Fault : Type} {f : α → Except Fault β}

theorem mapM_eq_ok_iff {xs : List α} {ys : List β} :
    xs.mapM f = .ok ys ↔ List.Forall₂ (fun x y ↦ f x = .ok y) xs ys := by
  induction xs generalizing ys with
  | nil =>
      rw [List.mapM_nil, List.forall₂_nil_left_iff]
      exact ⟨fun h ↦ (Except.ok.inj h).symm, fun h ↦ h ▸ rfl⟩
  | cons x xs ih =>
      rw [List.mapM_cons, List.forall₂_cons_left_iff]
      cases hx : f x with
      | error fault => simp [bind, Except.bind]
      | ok y =>
          cases hxs : xs.mapM f with
          | error fault =>
              have hnone : ∀ rest, ¬ List.Forall₂ (fun x y ↦ f x = .ok y) xs rest := by
                intro rest hrest
                rw [← ih, hxs] at hrest
                cases hrest
              simp [bind, Except.bind, hnone]
          | ok rest =>
              have hrest : ∀ other, List.Forall₂ (fun x y ↦ f x = .ok y) xs other ↔ rest = other := by
                intro other
                rw [← ih, hxs, Except.ok.injEq]
              simp [bind, Except.bind, pure, Except.pure, hrest, eq_comm]

theorem mem_of_mapM_eq_error {xs : List α} {fault : Fault} (h : xs.mapM f = .error fault) :
    ∃ x ∈ xs, f x = .error fault := by
  induction xs with
  | nil => cases h
  | cons x xs ih =>
      rw [List.mapM_cons] at h
      cases hx : f x with
      | error other =>
          rw [hx] at h
          cases h
          exact ⟨x, List.mem_cons_self, hx⟩
      | ok y =>
          cases hxs : xs.mapM f with
          | error other =>
              rw [hx, hxs] at h
              cases h
              obtain ⟨found, hfound, hfault⟩ := ih hxs
              exact ⟨found, List.mem_cons_of_mem x hfound, hfault⟩
          | ok rest =>
              rw [hx, hxs] at h
              cases h

/-- Two loops one after the other end normally when their bodies do for every element. -/
theorem bind_mapM_eq_ok_iff {γ : Type} {g : β → Except Fault γ} {xs : List α} {zs : List γ} :
    (xs.mapM f >>= fun ys ↦ ys.mapM g) = .ok zs ↔
      List.Forall₂ (fun x z ↦ (f x >>= g) = .ok z) xs zs := by
  have hstep : (xs.mapM f >>= fun ys ↦ ys.mapM g) = .ok zs ↔
      ∃ ys, List.Forall₂ (fun x y ↦ f x = .ok y) xs ys ∧
        List.Forall₂ (fun y z ↦ g y = .ok z) ys zs := by
    simp only [← mapM_eq_ok_iff]
    cases xs.mapM f <;> simp [bind, Except.bind]
  have hbody : ∀ x z, (f x >>= g) = .ok z ↔ ∃ y, f x = .ok y ∧ g y = .ok z := by
    intro x z
    cases f x <;> simp [bind, Except.bind]
  rw [hstep]
  simp only [hbody]
  clear hstep
  constructor
  · rintro ⟨ys, hfirst, hsecond⟩
    induction hfirst generalizing zs with
    | nil =>
        cases hsecond
        exact .nil
    | cons hhead _ ih =>
        cases hsecond with
        | cons hnext hsecond => exact .cons ⟨_, hhead, hnext⟩ (ih hsecond)
  · intro h
    induction h with
    | nil => exact ⟨[], .nil, .nil⟩
    | cons hhead _ ih =>
        obtain ⟨y, hfirst, hsecond⟩ := hhead
        obtain ⟨ys, hys, hzs⟩ := ih
        exact ⟨y :: ys, .cons hfirst hys, .cons hsecond hzs⟩

theorem mem_of_bind_mapM_eq_error {γ : Type} {g : β → Except Fault γ} {xs : List α} {fault : Fault}
    (h : (xs.mapM f >>= fun ys ↦ ys.mapM g) = .error fault) :
    ∃ x ∈ xs, (f x >>= g) = .error fault := by
  cases hys : xs.mapM f with
  | error other =>
      rw [hys] at h
      cases h
      obtain ⟨x, hx, hfault⟩ := mem_of_mapM_eq_error hys
      exact ⟨x, hx, by rw [hfault]; rfl⟩
  | ok ys =>
      rw [hys] at h
      obtain ⟨y, hy, hfault⟩ := mem_of_mapM_eq_error h
      obtain ⟨x, hx, hread⟩ := forall₂_mem_right (mapM_eq_ok_iff.mp hys) hy
      exact ⟨x, hx, by rw [hread]; exact hfault⟩

theorem exists_forall₂ {related : α → β → Prop} {xs : List α} (h : ∀ x ∈ xs, ∃ y, related x y) :
    ∃ ys, List.Forall₂ related xs ys := by
  induction xs with
  | nil => exact ⟨[], .nil⟩
  | cons x xs ih =>
      obtain ⟨y, hy⟩ := h x List.mem_cons_self
      obtain ⟨ys, hys⟩ := ih fun other hother ↦ h other (List.mem_cons_of_mem x hother)
      exact ⟨y :: ys, .cons hy hys⟩

/-- When only one element contributes to a flattened list, the list is its contribution. -/
theorem flatten_of_filter_eq_singleton {γ : Type} {related : α → β → Prop} {keep : α → Bool}
    {part : β → List γ} {xs : List α} {ys : List β} (h : List.Forall₂ related xs ys)
    (hempty : ∀ x y, related x y → keep x = false → part y = []) {x : α}
    (hfilter : xs.filter keep = [x]) :
    ∃ y, related x y ∧ (ys.map part).flatten = part y := by
  induction h with
  | nil => cases hfilter
  | @cons head y xs ys hhead htail ih =>
      rw [List.map_cons, List.flatten_cons]
      cases hkeep : keep head with
      | true =>
          rw [List.filter_cons_of_pos hkeep, List.cons.injEq] at hfilter
          obtain ⟨rfl, hnone⟩ := hfilter
          refine ⟨y, hhead, ?_⟩
          have hrest : (ys.map part).flatten = [] := by
            rw [List.flatten_eq_nil_iff]
            intro rest hrest
            obtain ⟨other, hother, rfl⟩ := List.mem_map.mp hrest
            obtain ⟨before, hbefore, hrelated⟩ := forall₂_mem_right htail hother
            exact hempty before other hrelated
              (Bool.eq_false_iff.mpr (List.filter_eq_nil_iff.mp hnone before hbefore))
          rw [hrest, List.append_nil]
      | false =>
          rw [List.filter_cons_of_neg (by simp [hkeep])] at hfilter
          obtain ⟨other, hother, hrest⟩ := ih hfilter
          exact ⟨other, hother, by rw [hempty head y hhead hkeep, List.nil_append, hrest]⟩

end Loops

/-! ## Record lines -/

/-- The fields of the record lines under a label and type. -/
def recordFields (label : Name) (type : Component) (pieces : List Piece) : List Field :=
  pieces.filterMap fun piece ↦
    match piece with
    | .record otherLabel _ otherType field =>
        if otherLabel = label ∧ otherType = type then field else none
    | _ => none

theorem recordFields_flatten (label : Name) (type : Component) (zoneName : Name)
    (parts : List (List Piece)) : recordFields label type (.zone zoneName :: parts.flatten) =
      (parts.map (recordFields label type)).flatten := by
  rw [recordFields, List.filterMap_cons, List.filterMap_flatten]
  rfl

theorem recordFields_lines (label : Name) (ttl : ℤ) (type : Component) (fields : List Field) :
    recordFields label type (fields.map fun field ↦ .record label ttl type (some field)) =
      fields := by
  rw [recordFields, List.filterMap_map]
  refine (List.filterMap_congr fun field _ ↦ ?_).trans List.filterMap_some
  exact if_pos ⟨rfl, rfl⟩

theorem ManagementTool.mapM_rrAt {Line : Type} (re : Response) (line : Block → Line) :
    (List.range re.rrs.length).mapM (fun index ↦ (ManagementTool.rrAt re index).map line) =
      .ok (re.rrs.map line) := by
  rw [mapM_eq_ok_iff, List.forall₂_iff_get]
  refine ⟨by simp, fun index hindex hline ↦ ?_⟩
  have hlt : index < re.rrs.length := by simpa using hindex
  simp [ManagementTool.rrAt, List.getElem?_eq_getElem hlt, Except.map]

theorem not_isRaw_iff {contentType : NdnsContentType} :
    ¬ IsRaw contentType ↔ contentType ≠ .blob ∧ contentType ≠ .key := not_or

/-- The elements of a delegation are the names of its name servers. -/
theorem length_of_mapM_ofBlock {blocks : List Block} {names : List Name}
    (h : blocks.mapM Name.ofBlock = some names) : blocks.length = names.length := by
  induction blocks generalizing names with
  | nil =>
      rw [List.mapM_nil] at h
      cases h
      rfl
  | cons block blocks ih =>
      rw [List.mapM_cons] at h
      obtain ⟨name, -, h⟩ := Option.bind_eq_some_iff.mp h
      obtain ⟨rest, hrest, h⟩ := Option.bind_eq_some_iff.mp h
      cases h
      rw [List.length_cons, ih hrest, List.length_cons]

/-- The rows that are not made by additions. -/
def others (db : Database) (zoneId : ℕ) : List RrsetRow :=
  (records db zoneId).filter fun row ↦ row.type ≠ Label.nsRrType ∧ row.type ≠ Label.txtRrType

theorem mem_zoneRows {db : Database} {zoneId : ℕ} {row : RrsetRow} :
    row ∈ zoneRows db zoneId ↔ row ∈ db.rrsets ∧ row.zoneId = zoneId := by
  rw [zoneRows, Database.selectRrsets, (List.perm_insertionSort _ _).mem_iff, List.mem_filter,
    decide_eq_true_iff]

/-- A record is the only row of its label and type. -/
theorem filter_zoneRows {db : Database} {zoneId : ℕ} {row : RrsetRow}
    (hkeys : ((records db zoneId).map recordKey).Nodup) (hrow : row ∈ records db zoneId) :
    (zoneRows db zoneId).filter (fun other ↦ other.label = row.label ∧ other.type = row.type) =
      [row] := by
  have hrecords : (db.rrsets.filter fun other ↦ other.zoneId = zoneId).filter
      (fun other ↦ other.label = row.label ∧ other.type = row.type) =
        (records db zoneId).filter fun other ↦ recordKey other = recordKey row := by
    rw [records, List.filter_filter, List.filter_filter]
    refine List.filter_congr fun other _ ↦ ?_
    rw [← Bool.decide_and, ← Bool.decide_and]
    refine decide_eq_decide.mpr ⟨?_, ?_⟩
    · rintro ⟨⟨hlabel, htype⟩, hzone⟩
      exact ⟨recordKey_eq_iff.mpr ⟨hlabel, htype⟩, hzone, htype ▸ (mem_records.mp hrow).2.2⟩
    · rintro ⟨hkey, hzone, -⟩
      exact ⟨recordKey_eq_iff.mp hkey, hzone⟩
  have hperm : ((zoneRows db zoneId).filter fun other ↦
      other.label = row.label ∧ other.type = row.type).Perm
        ((records db zoneId).filter fun other ↦ recordKey other = recordKey row) := by
    rw [← hrecords]
    exact (List.perm_insertionSort _ _).filter _
  have hcount : ((records db zoneId).filter fun other ↦ recordKey other = recordKey row).length =
      1 := by
    have hmem : recordKey row ∈ (records db zoneId).map recordKey := List.mem_map_of_mem hrow
    have hone := List.count_eq_one_of_mem hkeys hmem
    rw [List.count_eq_length_filter, List.filter_map, List.length_map] at hone
    rw [← hone]
    exact congrArg List.length (List.filter_congr fun other _ ↦ (beq_eq_decide _ _).symm)
  obtain ⟨other, hother⟩ := List.length_eq_one_iff.mp (hperm.length_eq.trans hcount)
  have hmem : row ∈ (zoneRows db zoneId).filter fun other ↦
      other.label = row.label ∧ other.type = row.type :=
    List.mem_filter.mpr ⟨mem_zoneRows.mpr ⟨(mem_records.mp hrow).1, (mem_records.mp hrow).2.1⟩,
      decide_eq_true ⟨rfl, rfl⟩⟩
  rw [hother] at hmem ⊢
  rw [List.mem_singleton.mp hmem]

section Listing

variable [PacketFormat]

namespace ManagementTool

variable {certificateText : Block → Option String} {zoneName : Name} {printRaw : Bool}
  {rrset : Rrset} {data : Data} {re : Response}

/-! ## One record -/

/-- What both loops make of one record. -/
def listRow (certificateText : Block → Option String) (zoneName : Name) (printRaw : Bool)
    (rrset : Rrset) : Except ListingFault (List Piece) :=
  (readRrset zoneName rrset).bind fun (data, re) ↦
    listRrset certificateText printRaw rrset data re

theorem listRow_eq (hread : readRrset zoneName rrset = .ok (data, re)) :
    listRow certificateText zoneName printRaw rrset =
      listRrset certificateText printRaw rrset data re := by
  rw [listRow, hread]
  rfl

/-- The header and the lines of a record that is not raw. -/
theorem listRrset_of_not_raw (hraw : ¬ IsRaw re.contentType) :
    listRrset certificateText printRaw rrset data re = (listLines rrset re).map
      (.rrset rrset.label rrset.type rrset.version data.signatureInfo :: ·) := by
  unfold listRrset
  cases listLines rrset re with
  | error fault => rfl
  | ok lines => exact if_pos (not_isRaw_iff.mp hraw)

/-- A record that is neither raw nor an NS record has a line for each element. -/
theorem listLines_elements (hraw : ¬ IsRaw re.contentType) (hauth : re.contentType ≠ .auth)
    (htype : rrset.type ≠ Label.nsRrType) : listLines rrset re = .ok (re.rrs.map fun block ↦
      .record rrset.label rrset.ttl rrset.type (some (if rrset.type = Label.txtRrType
        then .text block.value else .base64 block.encode))) := by
  have hcount : iteration re = re.rrs.length := if_neg (by
    rintro (hblob | hkey | hisAuth)
    · exact hraw (Or.inl hblob)
    · exact hraw (Or.inr hkey)
    · exact hauth hisAuth)
  rw [listLines, hcount, ← mapM_rrAt]
  congr 1
  funext index
  rw [listField, if_pos (not_isRaw_iff.mp hraw), if_neg htype]
  split_ifs <;> cases rrAt re index <;> rfl

theorem listLines_auth (hauth : re.contentType = .auth) (htype : rrset.type = Label.nsRrType) :
    listLines rrset re =
      .ok [.record rrset.label rrset.ttl rrset.type (some .ndnsAuth)] := by
  have hcount : iteration re = 1 := if_pos (Or.inr (Or.inr hauth))
  have htxt : rrset.type ≠ Label.txtRrType := by
    rw [htype]
    decide
  have hraw : re.contentType ≠ .blob ∧ re.contentType ≠ .key := by
    rw [hauth]
    exact ⟨nofun, nofun⟩
  have hfield : ∀ index, listField rrset re index = .ok (some .ndnsAuth) := by
    intro index
    rw [listField, if_pos hraw, if_neg htxt, if_pos htype, if_neg (not_not.mpr hcount), if_pos hauth]
  rw [listLines, hcount, mapM_eq_ok_iff]
  exact .cons (by rw [hfield]; rfl) .nil

/-- A delegation has as many elements as name servers, and the assertion allows one. -/
theorem listLines_link {names : List Name} (hlink : re.contentType = .link)
    (htype : rrset.type = Label.nsRrType) (hlength : re.rrs.length = names.length)
    (hnames : (PacketFormat.decode rrset.data).bind linkDelegations = some names) :
    listLines rrset re = if names.length = 0 then .ok []
      else if names.length = 1 then
        .ok [.record rrset.label rrset.ttl rrset.type (some (.delegations names))]
      else .error .assertion := by
  have htxt : rrset.type ≠ Label.txtRrType := by
    rw [htype]
    decide
  have hraw : re.contentType ≠ .blob ∧ re.contentType ≠ .key := by
    rw [hlink]
    exact ⟨nofun, nofun⟩
  have hauth : re.contentType ≠ .auth := by
    rw [hlink]
    exact nofun
  have hcount : iteration re = names.length := by
    rw [iteration, if_neg, hlength]
    exact not_or.mpr ⟨hraw.1, not_or.mpr ⟨hraw.2, hauth⟩⟩
  have hfield : ∀ index, listField rrset re index = if names.length = 1
      then .ok (some (.delegations names)) else .error .assertion := by
    intro index
    rw [listField, if_pos hraw, if_neg htxt, if_pos htype, hcount, if_neg hauth, hnames]
    split_ifs <;> first | rfl | contradiction
  rw [listLines, hcount]
  split_ifs with hnone hone
  · rw [hnone]
    rfl
  · rw [hone, mapM_eq_ok_iff]
    exact .cons (by rw [hfield, if_pos hone]; rfl) .nil
  · obtain ⟨count, hsome⟩ := Nat.exists_eq_succ_of_ne_zero hnone
    rw [hsome, List.range_succ_eq_map, List.mapM_cons, hfield, if_neg hone]
    rfl

/-- A raw record has one line, and the end of it. -/
theorem listRrset_raw (hraw : IsRaw re.contentType) :
    listRrset certificateText printRaw rrset data re =
      (listContent certificateText printRaw rrset data re).map
        (.record rrset.label rrset.ttl rrset.type none :: ·) := by
  have hcount : iteration re = 1 := if_pos (by
    rcases hraw with hblob | hkey
    · exact Or.inl hblob
    · exact Or.inr (Or.inl hkey))
  have hraw' : ¬ (re.contentType ≠ .blob ∧ re.contentType ≠ .key) := by
    rw [← not_isRaw_iff, not_not]
    exact hraw
  have hlines : listLines rrset re = .ok [.record rrset.label rrset.ttl rrset.type none] := by
    rw [listLines, hcount, mapM_eq_ok_iff]
    exact .cons (by rw [listField, if_neg hraw']; rfl) .nil
  unfold listRrset
  rw [hlines]
  refine (if_neg hraw').trans ?_
  cases listContent certificateText printRaw rrset data re <;> rfl

/-! ## The whole listing -/

theorem listRrsets_eq (rrsets : List Rrset) :
    listRrsets certificateText zoneName printRaw rrsets =
      (rrsets.mapM (fun rrset ↦ (readRrset zoneName rrset).map (rrset, ·)) >>= fun responses ↦
        responses.mapM fun (response : Rrset × Data × Response) ↦ listRrset certificateText printRaw
          response.1 response.2.1 response.2.2).map (.zone zoneName :: ·.flatten) := by
  rw [listRrsets]
  cases rrsets.mapM fun rrset ↦ (readRrset zoneName rrset).map (rrset, ·) with
  | error fault => rfl
  | ok responses =>
      change (do
        let pieces ← responses.mapM fun (response : Rrset × Data × Response) ↦
          listRrset certificateText printRaw response.1 response.2.1 response.2.2
        pure (.zone zoneName :: pieces.flatten)) = Except.map _ (responses.mapM _)
      cases responses.mapM fun (response : Rrset × Data × Response) ↦
        listRrset certificateText printRaw response.1 response.2.1 response.2.2 <;> rfl

theorem listRow_eq_bind (rrset : Rrset) : listRow certificateText zoneName printRaw rrset =
    ((readRrset zoneName rrset).map (rrset, ·) >>= fun (response : Rrset × Data × Response) ↦
      listRrset certificateText printRaw response.1 response.2.1 response.2.2) := by
  rw [listRow]
  cases readRrset zoneName rrset <;> rfl

/-- A listing that ends normally consists of what is listed for each row. -/
theorem listRrsets_eq_ok_iff {rrsets : List Rrset} {pieces : List Piece} :
    listRrsets certificateText zoneName printRaw rrsets = .ok pieces ↔
      ∃ parts, List.Forall₂ (fun rrset part ↦
        listRow certificateText zoneName printRaw rrset = .ok part) rrsets parts ∧
          .zone zoneName :: parts.flatten = pieces := by
  simp only [listRow_eq_bind, ← bind_mapM_eq_ok_iff]
  rw [listRrsets_eq]
  generalize (rrsets.mapM _ >>= _ : Except ListingFault (List (List Piece))) = parts
  cases parts <;> simp [Except.map]

theorem mem_of_listRrsets_eq_error {rrsets : List Rrset} {fault : ListingFault}
    (h : listRrsets certificateText zoneName printRaw rrsets = .error fault) :
    ∃ rrset ∈ rrsets, listRow certificateText zoneName printRaw rrset = .error fault := by
  simp only [listRow_eq_bind]
  refine mem_of_bind_mapM_eq_error ?_
  rw [listRrsets_eq] at h
  generalize (rrsets.mapM _ >>= _ : Except ListingFault (List (List Piece))) = parts at h ⊢
  cases parts with
  | error other => exact congrArg Except.error (Except.error.inj h)
  | ok parts => cases h

/-- The lines of a record stand under its label and type. -/
theorem recordFields_listRow {part : List Piece}
    (h : listRow certificateText zoneName printRaw rrset = .ok part) {label : Name}
    {type : Component} (hother : ¬ (rrset.label = label ∧ rrset.type = type)) :
    recordFields label type part = [] := by
  cases hread : readRrset zoneName rrset with
  | error fault =>
      rw [listRow, hread] at h
      cases h
  | ok response =>
      obtain ⟨data, re⟩ := response
      rw [listRow_eq hread] at h
      by_cases hraw : IsRaw re.contentType
      · rw [listRrset_raw hraw] at h
        unfold listContent at h
        split_ifs at h
        · cases htext : certificateText rrset.data with
          | none =>
              rw [htext] at h
              cases h
          | some text =>
              rw [htext] at h
              cases h
              simp [recordFields, hother]
        · cases h
          simp [recordFields, hother]
        · cases h
          simp [recordFields, hother]
      · rw [listRrset_of_not_raw hraw] at h
        cases hlines : listLines rrset re with
        | error fault =>
            rw [hlines] at h
            cases h
        | ok lines =>
            rw [hlines] at h
            cases h
            refine List.filterMap_eq_nil_iff.mpr fun piece hpiece ↦ ?_
            rcases List.mem_cons.mp hpiece with rfl | hline
            · rfl
            · obtain ⟨index, -, hfield⟩ := forall₂_mem_right (mapM_eq_ok_iff.mp hlines) hline
              cases hvalue : listField rrset re index with
              | error fault =>
                  rw [hvalue] at hfield
                  cases hfield
              | ok field =>
                  rw [hvalue] at hfield
                  cases hfield
                  exact if_neg hother

end ManagementTool

/-! ## The rows of a zone -/

section Rows

open ManagementTool

variable {certificateText : Block → Option String} {zoneName : Name} {printRaw : Bool} {zone : Zone}
  {row : RrsetRow}

/-- The packet of a row is read as it was made. -/
theorem readRrset_carries {contentType : NdnsContentType} {content : Blob} {blocks : List Block}
    (h : RowCarries zoneName row contentType content)
    (hcode : NdnsContentType.ofCode contentType.toCode = contentType)
    (hraw : ¬ IsRaw contentType) (hblocks : parseBlocks content = some blocks) (zone : Zone) :
    ∃ data re, readRrset zoneName (restore zone row) = .ok (data, re) ∧
      PacketFormat.decode row.data = some data ∧ data.contentType = contentType.toCode ∧
      data.content = content ∧ re.contentType = contentType ∧ re.rrs = blocks := by
  obtain ⟨data, hdecode, hname, htype, hcontent⟩ := h.decodes
  have hread := @fromData_recordName Response.default _ _ _ _ _ hname
  rw [htype, hcode, hcontent, wireDecode_of_parseBlocks hraw hblocks] at hread
  have hrow : PacketFormat.decode (restore zone row).data = some data := hdecode
  simp only [readRrset, hrow, hread, Except.map]
  exact ⟨data, _, rfl, hdecode, htype, hcontent, rfl, List.nil_append blocks⟩

theorem listRow_auth (h : IsAuth zoneName row) (zone : Zone) :
    ∃ signatureInfo, listRow certificateText zoneName printRaw (restore zone row) =
      .ok [.rrset row.label row.type row.version signatureInfo,
        .record row.label row.ttl row.type (some .ndnsAuth)] := by
  obtain ⟨htype, hcarries⟩ := h
  obtain ⟨data, re, hread, -, -, -, hauth, -⟩ := readRrset_carries hcarries rfl (by decide) rfl zone
  refine ⟨data.signatureInfo, ?_⟩
  rw [listRow_eq hread, listRrset_of_not_raw (by rw [hauth]; decide), listLines_auth hauth htype]
  rfl

theorem listRow_link (h : IsLink zoneName row) (zone : Zone) :
    ∃ signatureInfo names, (PacketFormat.decode row.data).bind linkDelegations = some names ∧
      listRow certificateText zoneName printRaw (restore zone row) =
        (if names.length = 0 then .ok []
          else if names.length = 1 then
            .ok [.record row.label row.ttl row.type (some (.delegations names))]
          else .error .assertion : Except ListingFault (List Piece)).map
            (.rrset row.label row.type row.version signatureInfo :: ·) := by
  obtain ⟨htype, names, content, hnames, hcarries⟩ := h
  obtain ⟨blocks, hblocks, hlink, hmap⟩ := parseBlocks_of_encodeNames hnames
  obtain ⟨data, re, hread, hdecode, hcode, hcontent, hlinkType, hrrs⟩ :=
    readRrset_carries hcarries rfl (by decide) hblocks zone
  have hdelegations : (PacketFormat.decode row.data).bind linkDelegations = some names := by
    have hlinkCode : data.contentType = linkContentType := hcode
    rw [hdecode, Option.bind_some, linkDelegations, if_pos hlinkCode, hcontent, hblocks,
      Option.bind_some, hlink]
  refine ⟨data.signatureInfo, names, hdelegations, ?_⟩
  have hlines := @listLines_link _ (restore zone row) re names hlinkType htype
    (by rw [hrrs, length_of_mapM_ofBlock hmap]) hdelegations
  rw [listRow_eq hread, listRrset_of_not_raw (by rw [hlinkType]; decide), hlines]
  rfl

theorem listRow_text (h : IsText zoneName row) (zone : Zone) :
    ∃ data strings, PacketFormat.decode row.data = some data ∧
      RrsetFactory.wireDecodeTxt data.content = some strings ∧
      listRow certificateText zoneName printRaw (restore zone row) =
        .ok (.rrset row.label row.type row.version data.signatureInfo ::
          (strings.map Field.text).map fun field ↦
            .record row.label row.ttl row.type (some field)) := by
  obtain ⟨htype, strings, content, hstrings, hcarries⟩ := h
  obtain ⟨blocks, hblocks, hvalues⟩ := parseBlocks_of_encodeStrings hstrings
  obtain ⟨data, re, hread, hdecode, -, hcontent, hresp, hrrs⟩ :=
    readRrset_carries hcarries rfl (by decide) hblocks zone
  have hraw : ¬ IsRaw re.contentType := by
    rw [hresp]
    decide
  have htxt : (restore zone row).type = Label.txtRrType := htype
  have hns : (restore zone row).type ≠ Label.nsRrType := by
    rw [htxt]
    decide
  refine ⟨data, strings, hdecode, ?_, ?_⟩
  · rw [RrsetFactory.wireDecodeTxt, hcontent, hblocks, Option.map_some, hvalues]
  · rw [listRow_eq hread, listRrset_of_not_raw hraw,
      listLines_elements hraw (by simp [hresp]) hns, hrrs, ← hvalues, List.map_map, List.map_map]
    simp only [htxt, htype, if_true, Except.map]
    rfl

theorem listRow_denial {zoneId : ℕ} {denial : Denial} (h : IsDenial zoneName zoneId row denial)
    (zone : Zone) :
    ∃ part, listRow certificateText zoneName printRaw (restore zone row) = .ok part := by
  obtain ⟨content, hnames, hcarries⟩ := h.packet
  obtain ⟨blocks, hblocks, -⟩ := parseBlocks_of_encodeNames hnames
  rw [← h.label, ← h.type] at hcarries
  obtain ⟨data, re, hread, -, -, -, hdoe, -⟩ :=
    readRrset_carries hcarries rfl (by decide) hblocks zone
  have hraw : ¬ IsRaw re.contentType := by
    rw [hdoe]
    decide
  have hns : (restore zone row).type ≠ Label.nsRrType := by
    intro htype
    exact absurd (h.type.symm.trans htype) (by decide)
  rw [listRow_eq hread, listRrset_of_not_raw hraw,
    listLines_elements hraw (by rw [hdoe]; nofun) hns]
  exact ⟨_, rfl⟩

/-- The row of a certificate, whose content is kept as it is. -/
def IsCertificate (zoneName : Name) (row : RrsetRow) : Prop :=
  row.type = Label.certRrType ∧
    ∀ zone, ∃ data re, readRrset zoneName (restore zone row) = .ok (data, re) ∧ IsRaw re.contentType

/-- The listing of a certificate depends on the library. -/
theorem listRow_certificate (h : IsCertificate zoneName row) (zone : Zone) :
    (listRow certificateText zoneName printRaw (restore zone row) = .error .certificate ∨
      ∃ part, listRow certificateText zoneName printRaw (restore zone row) = .ok part) ∧
    ((∃ part, listRow certificateText zoneName printRaw (restore zone row) = .ok part) ↔
      (printRaw = true → ∀ data re, readRrset zoneName (restore zone row) = .ok (data, re) →
        re.rrType = Label.certRrType → (certificateText row.data).isSome)) := by
  obtain ⟨data, re, hread, hraw⟩ := h.2 zone
  have honly : (∀ data' re', readRrset zoneName (restore zone row) = .ok (data', re') →
      re'.rrType = Label.certRrType → (certificateText row.data).isSome) ↔
        (re.rrType = Label.certRrType → (certificateText row.data).isSome) := by
    constructor
    · exact fun hall ↦ hall data re hread
    · intro hsome data' re' hread'
      cases hread.symm.trans hread'
      exact hsome
  have htext : certificateText (restore zone row).data = certificateText row.data := rfl
  rw [honly, listRow_eq hread, listRrset_raw hraw, listContent, htext]
  cases printRaw with
  | false => simp [Except.map]
  | true =>
      by_cases hcert : re.rrType = Label.certRrType
      · cases certificateText row.data <;> simp [hcert, Except.map]
      · simp [hcert, Except.map]

/-- What a listing prints for the NS and TXT records of a zone. -/
def ListsRecords (rows : List RrsetRow) (outcome : Except ListingFault (List Piece)) : Prop :=
  ∃ pieces, outcome = .ok pieces ∧ ∀ row ∈ rows,
    (row.type = Label.nsRrType → (recordFields row.label row.type pieces).length = 1) ∧
    (row.type = Label.txtRrType → ∃ data strings, PacketFormat.decode row.data = some data ∧
      RrsetFactory.wireDecodeTxt data.content = some strings ∧
      recordFields row.label row.type pieces = strings.map .text)

/-- Each delegation has one name server and, when raw content is asked for, the library can print
the certificates. -/
structure Listable (certificateText : Block → Option String) (zoneName : Name) (printRaw : Bool)
    (rows : List RrsetRow) : Prop where
  delegations : ∀ row ∈ rows, HoldsNs .link row →
    ∃ nameServer, (PacketFormat.decode row.data).bind linkDelegations = some [nameServer]
  certificates : printRaw = true → ∀ row ∈ rows, row.type = Label.certRrType → ∀ data re,
    readRrset zoneName (restore (Zone.named zoneName) row) = .ok (data, re) →
      re.rrType = Label.certRrType → (certificateText row.data).isSome

/-- The rows of a served zone: those of the additions, denial records and certificates. -/
theorem Serves.row_cases {zoneId : ℕ} {db : Database} (h : Serves zoneName zoneId db)
    (hothers : ∀ row ∈ others db zoneId, IsCertificate zoneName row)
    (hrow : row ∈ zoneRows db zoneId) :
    (∃ denial, IsDenial zoneName zoneId row denial) ∨
      row ∈ records db zoneId ∧ (IsLink zoneName row ∨ IsAuth zoneName row ∨ IsText zoneName row ∨
        IsCertificate zoneName row) := by
  obtain ⟨hmem, hzone⟩ := mem_zoneRows.mp hrow
  by_cases hdoe : row.type = Label.doeRrType
  · obtain ⟨denial, -, hdenial⟩ := forall₂_mem_left h.chained (mem_denials.mpr ⟨hmem, hzone, hdoe⟩)
    exact Or.inl ⟨denial, hdenial⟩
  · have hrecord : row ∈ records db zoneId := mem_records.mpr ⟨hmem, hzone, hdoe⟩
    refine Or.inr ⟨hrecord, ?_⟩
    by_cases hns : row.type = Label.nsRrType
    · rcases h.shape.ns row hrecord hns with hlink | hauth
      · exact Or.inl hlink
      · exact Or.inr (Or.inl hauth)
    · by_cases htxt : row.type = Label.txtRrType
      · exact Or.inr (Or.inr (Or.inl (h.shape.txt row hrecord htxt)))
      · exact Or.inr (Or.inr (Or.inr (hothers row
          (List.mem_filter.mpr ⟨hrecord, decide_eq_true ⟨hns, htxt⟩⟩))))

/-- A delegation with one name server is listed in one line, others are not. -/
theorem listRow_link_iff (h : IsLink zoneName row) (zone : Zone) :
    (listRow certificateText zoneName printRaw (restore zone row) = .error .assertion ∨
      ∃ part, listRow certificateText zoneName printRaw (restore zone row) = .ok part) ∧
    ((∃ part, listRow certificateText zoneName printRaw (restore zone row) = .ok part ∧
        (recordFields row.label row.type part).length = 1) ↔
      ∃ nameServer, (PacketFormat.decode row.data).bind linkDelegations = some [nameServer]) := by
  obtain ⟨signatureInfo, names, hnames, hlist⟩ := @listRow_link _ certificateText _ printRaw _ h zone
  rw [hlist, hnames]
  match names with
  | [] => simp [Except.map, recordFields]
  | [nameServer] => simp [Except.map, recordFields]
  | _ :: _ :: _ => simp [Except.map]

section Served

variable {zoneId : ℕ} {db : Database}

/-- What is listed for a row of a served zone. -/
theorem Serves.listRow_cases (h : Serves zoneName zoneId db)
    (hothers : ∀ row ∈ others db zoneId, IsCertificate zoneName row)
    (hrow : row ∈ zoneRows db zoneId) (zone : Zone) :
    (∃ part, listRow certificateText zoneName printRaw (restore zone row) = .ok part) ∨
      listRow certificateText zoneName printRaw (restore zone row) = .error .assertion ∨
      listRow certificateText zoneName printRaw (restore zone row) = .error .certificate := by
  rcases h.row_cases hothers hrow with ⟨denial, hdenial⟩ | ⟨-, hlink | hauth | htext | hcert⟩
  · exact Or.inl (listRow_denial hdenial zone)
  · rcases (listRow_link_iff hlink zone).1 with hfault | hpart
    · exact Or.inr (Or.inl hfault)
    · exact Or.inl hpart
  · obtain ⟨_, hlist⟩ := listRow_auth hauth zone
    exact Or.inl ⟨_, hlist⟩
  · obtain ⟨_, _, -, -, hlist⟩ := listRow_text htext zone
    exact Or.inl ⟨_, hlist⟩
  · rcases (listRow_certificate hcert zone).1 with hfault | hpart
    · exact Or.inr (Or.inr hfault)
    · exact Or.inl hpart

/-- The record lines under the key of a record are those of its row. -/
theorem recordFields_of_listRrsets (hkeys : ((records db zoneId).map recordKey).Nodup)
    {pieces : List Piece} (hlist : listRrsets certificateText zoneName printRaw
      ((zoneRows db zoneId).map (restore zone)) = .ok pieces) (hrow : row ∈ records db zoneId) :
    ∃ part, listRow certificateText zoneName printRaw (restore zone row) = .ok part ∧
      recordFields row.label row.type pieces = recordFields row.label row.type part := by
  obtain ⟨parts, hparts, rfl⟩ := listRrsets_eq_ok_iff.mp hlist
  rw [recordFields_flatten]
  refine flatten_of_filter_eq_singleton (List.forall₂_map_left_iff.mp hparts) ?_
    (filter_zoneRows hkeys hrow)
  intro other part hpart hkeep
  exact recordFields_listRow hpart (of_decide_eq_false hkeep)

theorem IsLink.holdsNs (h : IsLink zoneName row) : HoldsNs .link row := by
  obtain ⟨htype, _, _, -, hcarries⟩ := h
  obtain ⟨data, hdecode, -, hcode, -⟩ := hcarries.decodes
  exact ⟨htype, data, hdecode, by rw [hcode]; rfl⟩

theorem HoldsNs.isLink (h : HoldsNs .link row) (hrow : IsLink zoneName row ∨ IsAuth zoneName row) :
    IsLink zoneName row := by
  refine hrow.resolve_right fun hauth ↦ ?_
  obtain ⟨-, data, hdecode, hcode⟩ := h
  rw [(hauth.2.decode hdecode).2.1] at hcode
  cases hcode

theorem Serves.listsRecords_of_listable (h : Serves zoneName zoneId db)
    (hothers : ∀ row ∈ others db zoneId, IsCertificate zoneName row)
    (hlistable : Listable certificateText zoneName printRaw (records db zoneId)) (zone : Zone) :
    ListsRecords (records db zoneId) (listRrsets certificateText zoneName printRaw
      ((zoneRows db zoneId).map (restore zone))) := by
  have hlink : ∀ row ∈ records db zoneId, IsLink zoneName row →
      ∃ part, listRow certificateText zoneName printRaw (restore zone row) = .ok part ∧
        (recordFields row.label row.type part).length = 1 := by
    intro row hrow hisLink
    exact (listRow_link_iff hisLink zone).2.mpr (hlistable.delegations row hrow hisLink.holdsNs)
  have hrows : ∀ rrset ∈ (zoneRows db zoneId).map (restore zone),
      ∃ part, listRow certificateText zoneName printRaw rrset = .ok part := by
    intro rrset hrrset
    obtain ⟨row, hrow, rfl⟩ := List.mem_map.mp hrrset
    rcases h.row_cases hothers hrow with ⟨denial, hdenial⟩ | ⟨hrecord, hisLink | hauth | htext | hcert⟩
    · exact listRow_denial hdenial zone
    · obtain ⟨part, hpart, -⟩ := hlink row hrecord hisLink
      exact ⟨part, hpart⟩
    · obtain ⟨_, hlist⟩ := listRow_auth hauth zone
      exact ⟨_, hlist⟩
    · obtain ⟨_, _, -, -, hlist⟩ := listRow_text htext zone
      exact ⟨_, hlist⟩
    · exact (listRow_certificate hcert zone).2.mpr fun hprint ↦
        hlistable.certificates hprint row hrecord hcert.1
  obtain ⟨parts, hparts⟩ := exists_forall₂ hrows
  have hlist := listRrsets_eq_ok_iff.mpr ⟨parts, hparts, rfl⟩
  refine ⟨_, hlist, fun row hrow ↦ ?_⟩
  obtain ⟨part, hpart, hfields⟩ := recordFields_of_listRrsets h.shape.keys hlist hrow
  rw [hfields]
  constructor
  · intro hns
    rcases h.shape.ns row hrow hns with hisLink | hauth
    · obtain ⟨part', hpart', hlength⟩ := hlink row hrow hisLink
      cases hpart.symm.trans hpart'
      exact hlength
    · obtain ⟨_, hauthPart⟩ := @listRow_auth _ certificateText _ printRaw _ hauth zone
      cases hpart.symm.trans hauthPart
      simp [recordFields]
  · intro htxt
    obtain ⟨data, strings, hdecode, hstrings, htextPart⟩ :=
      @listRow_text _ certificateText _ printRaw _ (h.shape.txt row hrow htxt) zone
    cases hpart.symm.trans htextPart
    exact ⟨data, strings, hdecode, hstrings, recordFields_lines _ _ _ _⟩

/-- The listing of the rows of a served zone. -/
theorem Serves.listsRecords_iff (h : Serves zoneName zoneId db)
    (hothers : ∀ row ∈ others db zoneId, IsCertificate zoneName row) (zone : Zone) :
    (∀ fault, listRrsets certificateText zoneName printRaw ((zoneRows db zoneId).map (restore zone)) =
      .error fault → fault = .assertion ∨ fault = .certificate) ∧
    (ListsRecords (records db zoneId) (listRrsets certificateText zoneName printRaw
        ((zoneRows db zoneId).map (restore zone))) ↔
      Listable certificateText zoneName printRaw (records db zoneId)) := by
  constructor
  · intro fault hfault
    obtain ⟨rrset, hrrset, hrow⟩ := mem_of_listRrsets_eq_error hfault
    obtain ⟨row, hmem, rfl⟩ := List.mem_map.mp hrrset
    rcases @Serves.listRow_cases _ certificateText _ printRaw _ _ _ h hothers hmem zone with
      ⟨part, hpart⟩ | hassertion | hcertificate
    · cases hrow.symm.trans hpart
    · exact Or.inl (Except.error.inj (hrow.symm.trans hassertion))
    · exact Or.inr (Except.error.inj (hrow.symm.trans hcertificate))
  · refine ⟨?_, fun hlistable ↦ h.listsRecords_of_listable hothers hlistable zone⟩
    rintro ⟨pieces, hlist, hlines⟩
    constructor
    · intro row hrow hdelegates
      obtain ⟨part, hpart, hfields⟩ := recordFields_of_listRrsets h.shape.keys hlist hrow
      have hlength := (hlines row hrow).1 hdelegates.1
      rw [hfields] at hlength
      exact (listRow_link_iff (hdelegates.isLink (h.shape.ns row hrow hdelegates.1)) zone).2.mp
        ⟨part, hpart, hlength⟩
    · intro hprint row hrow htype
      obtain ⟨part, hpart, -⟩ := recordFields_of_listRrsets h.shape.keys hlist hrow
      have hcert : IsCertificate zoneName row := by
        refine hothers row (List.mem_filter.mpr ⟨hrow, decide_eq_true ?_⟩)
        rw [htype]
        exact ⟨by decide, by decide⟩
      exact (listRow_certificate hcert zone).2.mp ⟨part, hpart⟩ hprint

end Served

/-! ## Certificates -/

theorem Confined.others_eq {home : ℕ} {label : Name} {type : Component} {db db' : Database}
    (h : Confined zoneName home label type db db')
    (htype : type = Label.nsRrType ∨ type = Label.txtRrType) : others db' home = others db home := by
  have hothers : ∀ db'' : Database, others db'' home = (Mgmt.bystanders db'' home label type).filter
      fun row ↦ row.type ≠ Label.nsRrType ∧ row.type ≠ Label.txtRrType := by
    intro db''
    rw [others, Mgmt.bystanders, List.filter_filter]
    refine List.filter_congr fun row _ ↦ ?_
    rw [← Bool.decide_and]
    refine decide_eq_decide.mpr ⟨fun hrow ↦ ⟨hrow, fun hkey ↦ ?_⟩, fun hrow ↦ hrow.1⟩
    rw [← hkey.2] at htype
    exact htype.elim hrow.1 hrow.2
  obtain ⟨created, hrows, hcreated⟩ := h.bystanders
  have hnone : created.filter (fun row ↦ row.type ≠ Label.nsRrType ∧ row.type ≠ Label.txtRrType) =
      [] := by
    refine List.filter_eq_nil_iff.mpr fun row hrow hkept ↦ ?_
    exact (of_decide_eq_true hkept).1 (hcreated row hrow).type
  rw [hothers, hrows, List.filter_append, hnone, List.append_nil, ← hothers]

theorem Confined.noOrphans {home : ℕ} {label : Name} {type : Component} {db db' : Database}
    (h : Confined zoneName home label type db db') (hhome : ∃ zone ∈ db.zones, zone.id = home)
    (horphans : NoOrphans db) : NoOrphans db' := by
  intro row hrow
  by_cases hsame : row.zoneId = home
  · obtain ⟨owner, howner, hid⟩ := hhome
    exact ⟨owner, h.kept owner howner, hid.trans hsame.symm⟩
  · have hmem : row ∈ rowsOf db' row.zoneId := List.mem_filter.mpr ⟨hrow, decide_eq_true rfl⟩
    rw [h.within.rows _ hsame] at hmem
    obtain ⟨owner, howner, hid⟩ := horphans row (List.mem_of_mem_filter hmem)
    exact ⟨owner, h.kept owner howner, hid⟩

/-- An addition keeps the rows of each zone that are not made by additions. -/
theorem others_addsRecord {db db' : Database} (hvalid : db.Valid) (horphans : NoOrphans db)
    (hadds : AddsRecord db db') :
    NoOrphans db' ∧ ∀ zone ∈ db.zones, others db' zone.id = others db zone.id := by
  obtain ⟨Keys, services, keys, keys', other, label, dsk, type, version, ttl, delegations, strings,
    htype, hreturns⟩ := hadds
  obtain ⟨factory, rrset, middle, hdb, hfactory, hid, hnew, hzone, hlabel, hadded, hcase⟩ :=
    returns_addRr htype hreturns
  obtain ⟨found, hfound, hfoundName, hlookup⟩ := lookupZone_id_eq (hfactory ▸ hid)
  have hfoundId : found.id = factory.zone.id := by rw [hfactory, hlookup]
  have hstored : factory.zone.Stored db := by
    intro _
    refine ⟨found, hfound, hfoundId, ?_⟩
    rw [hfactory, lookupZone_name]
    exact hfoundName
  have hhome : homeId db factory.zone = factory.zone.id := by
    rw [homeId, resolveZone, if_neg hid, if_neg hid]
  have hrrsetType : rrset.type = Label.nsRrType ∨ rrset.type = Label.txtRrType :=
    hadded.imp And.left And.left
  obtain ⟨middleDb, middleKeys⟩ := middle
  obtain rfl : middleDb = db := hdb
  have hconfined : Confined factory.zone.name (homeId middleDb factory.zone) rrset.label rrset.type
      middleDb db' := by
    rcases hcase with ⟨-, hmulti⟩ | ⟨-, hsingle⟩
    · have hmeets := ((@confined_addMultiLevelLabelRrset _ _ services _ _ _ factory ttl hvalid
        horphans hnew hzone hstored (SameZone.refl _ _)).change (Confined.refl _ _ _ _)
          Confined.trans).run middleKeys
      rw [hmulti] at hmeets
      exact hmeets.2
    · have hmeets := ((@confined_addRrset _ _ services _ _ _ hvalid hnew hzone hstored).change
        (Confined.refl _ _ _ _) Confined.trans).run middleKeys
      rw [hsingle] at hmeets
      exact hmeets.2
  rw [hhome, ← hfoundId] at hconfined
  refine ⟨hconfined.noOrphans ⟨found, hfound, rfl⟩ horphans, fun row hrow ↦ ?_⟩
  by_cases hsame : row.id = found.id
  · rw [hsame]
    exact hconfined.others_eq hrrsetType
  · rw [others, records_eq_rowsOf, hconfined.within.rows _ hsame, ← records_eq_rowsOf, others]

/-- The certificates that a key chain lists: named after their keys, and packets of type KEY. -/
structure KeepsCertificates {Keys : Type} (services : Services Keys) : Prop where
  names : NamesKeys services
  contentType : ∀ identity keys certificates cert,
    (services.answer (.certificates identity) keys).1 = some certificates → cert ∈ certificates →
      cert.contentType = NdnsContentType.key.toCode

section Creation

variable {Keys : Type} {services : Services Keys} {world world' : World Keys}
  {parentZoneName kskCertName dskCertName dkeyCertName : Name} {cacheTtl : ℤ} {zone' : Zone}

theorem isCertificate_of_obtained (hkeeps : KeepsCertificates services) {db : Database}
    {certName : Name} {cert : Data} {zoneId : ℕ}
    (hobtained : Obtained services db (zoneIdentity zoneName) certName cacheTtl cert)
    (h : HoldsCert zoneName zoneId cacheTtl cert row) : IsCertificate zoneName row := by
  obtain ⟨signingKey, keys, key, keys', hreturns⟩ := hobtained
  have hcode : cert.contentType = NdnsContentType.key.toCode := by
    rcases returns_obtainCertificate hreturns with ⟨-, -, hnew, -⟩ | ⟨-, -, -, _, _, hlisted, hmem⟩
    · exact hnew
    · exact hkeeps.contentType _ _ _ _ hlisted hmem
  obtain ⟨keyId, issuer, version, hname⟩ := certifies_of_obtainCertificate hkeeps.names hreturns
  have hrecord : cert.name =
      Label.recordName zoneName [CertHelper.keyComponent, keyId] issuer ++ [version] := by
    rw [hname, zoneIdentity, Label.recordName]
    simp
  refine ⟨h.type, fun zone ↦ ?_⟩
  have hrow : PacketFormat.decode (restore zone row).data = some cert :=
    PacketFormat.decode_of_encode h.data
  have hread := @fromData_recordName Response.default _ _ _ _ _ hrecord
  rw [hcode, wireDecode_raw (Or.inr rfl)] at hread
  simp only [readRrset, hrow, hread, Except.map]
  exact ⟨cert, _, rfl, Or.inr rfl⟩

/-- The certificates are the only records of a new zone. -/
theorem others_createZone (hkeeps : KeepsCertificates services) (hvalid : world.db.Valid)
    (horphans : NoOrphans world.db)
    (h : (createZone zoneName parentZoneName cacheTtl kskCertName dskCertName dkeyCertName).Returns
      (World.handle services) world zone' world') :
    NoOrphans world'.db ∧ ∀ row ∈ others world'.db zone'.id, IsCertificate zoneName row := by
  constructor
  · obtain ⟨added, middle, -, hcreates, -, hgenerate⟩ := returns_createZone hvalid h
    obtain ⟨rfl, hid, -, hregenerates⟩ := returns_generateDoe hgenerate
    obtain ⟨stored, hstored, -, hlookup⟩ := lookupZone_id_eq hid
    obtain ⟨ttl, hzones⟩ := hcreates.zones
    obtain ⟨first, second, hrows, hfirst, hsecond, -⟩ := hcreates.rows
    have hmiddle : NoOrphans middle.db := by
      intro row hrow
      rw [hrows] at hrow
      rw [hzones]
      rcases List.mem_append.mp hrow with hold | hnew
      · obtain ⟨owner, howner, hownerId⟩ := horphans row hold
        exact ⟨owner, List.mem_append_left _ howner, hownerId⟩
      · refine ⟨_, List.mem_append_right _ List.mem_cons_self, ?_⟩
        rcases List.mem_pair.mp hnew with rfl | rfl
        · exact hfirst.symm
        · exact hsecond.symm
    intro row hrow
    rw [hregenerates.zones.1]
    rcases mem_of_appends hregenerates hrow with hold | ⟨denial, -, hdenial⟩
    · exact hmiddle row (List.mem_of_mem_filter hold)
    · exact ⟨stored, hstored, by rw [hdenial.zoneId, hlookup]⟩
  · have hends := @createZone_ends _ services _ _ zoneName parentZoneName kskCertName dskCertName
      dkeyCertName cacheTtl hvalid world.keys
    rw [show (createZone zoneName parentZoneName cacheTtl kskCertName dskCertName dkeyCertName).run
      (World.handle services) ⟨world.db, world.keys⟩ = _ from h] at hends
    obtain ⟨identity, dkeyCert, kskCert, dskCert, -, hksk, hdsk, hestablished⟩ := hends
    obtain ⟨kskRow, dskRow, hrecords, hkskRow, hdskRow, -⟩ := hestablished.records
    have hold : records world.db zone'.id = [] := by
      rw [records, List.filter_eq_nil_iff]
      intro row hrow hboth
      obtain ⟨owner, howner, hownerId⟩ := horphans row hrow
      have hne := @Database.ne_nextRowId _ ZoneRow.id _ _ howner
      refine hne ?_
      rw [hownerId, (of_decide_eq_true hboth).1, hestablished.object.2]
    intro row hrow
    have hmem := List.mem_of_mem_filter hrow
    rw [hrecords, hold, List.nil_append] at hmem
    rcases List.mem_pair.mp hmem with rfl | rfl
    · exact isCertificate_of_obtained hkeeps hksk hkskRow
    · exact isCertificate_of_obtained hkeeps hdsk hdskRow

/-- After the creation of a zone and any additions, a listing of the zone ends normally, with one
line for each NS record and one for each string of a TXT record, exactly when each delegation has one
name server and the certificates can be printed if they are asked for.  Otherwise it stops at the
assertion or at a certificate, and never at an access out of range. -/
theorem listZone_lists_iff (hkeeps : KeepsCertificates services) (hvalid : world.db.Valid)
    (horphans : NoOrphans world.db)
    (hcreate : (createZone zoneName parentZoneName cacheTtl kskCertName dskCertName
      dkeyCertName).Returns (World.handle services) world zone' world')
    {db : Database} (hadditions : Relation.ReflTransGen AddsRecord world'.db db) {Listing : Type}
    (listing : Services Listing) (keys : Listing) (certificateText : Block → Option String)
    (printRaw : Bool) :
    ∃ outcome, (listZone certificateText zoneName printRaw).run (World.handle listing) ⟨db, keys⟩ =
        (.ok outcome, ⟨db, keys⟩) ∧
      (∀ fault, outcome = .error fault → fault = .assertion ∨ fault = .certificate) ∧
      (ListsRecords (records db zone'.id) outcome ↔
        Listable certificateText zoneName printRaw (records db zone'.id)) := by
  have hserves := serves_run hvalid horphans hcreate hadditions
  have hothers : NoOrphans db ∧ ∀ row ∈ others db zone'.id, IsCertificate zoneName row := by
    obtain ⟨horphans', hcerts⟩ := others_createZone hkeeps hvalid horphans hcreate
    induction hadditions with
    | refl => exact ⟨horphans', hcerts⟩
    | @tail before after hbefore hadds ih =>
        have hbeforeServes := serves_run hvalid horphans hcreate hbefore
        obtain ⟨hbeforeOrphans, hbeforeCerts⟩ := ih hbeforeServes
        obtain ⟨horphans'', hsame⟩ := others_addsRecord hbeforeServes.valid hbeforeOrphans hadds
        obtain ⟨row, hrow, hrowId, -⟩ := hbeforeServes.zone
        rw [← hrowId] at hbeforeCerts ⊢
        exact ⟨horphans'', hsame row hrow ▸ hbeforeCerts⟩
  obtain ⟨row, hrow, hrowId, hrowName⟩ := hserves.zone
  have hfound : (lookupZone db (Zone.named zoneName)).id ≠ 0 := fun hzero ↦
    lookupZone_id_eq_zero hserves.valid hzero row hrow hrowName
  obtain ⟨stored, hstored, hstoredName, hlookup⟩ := lookupZone_id_eq hfound
  have hid : (lookupZone db (Zone.named zoneName)).id = zone'.id := by
    rw [hlookup, ← hrowId, List.inj_on_of_nodup_map hserves.valid.zoneNames hstored hrow
      (hstoredName.trans hrowName.symm)]
  refine ⟨_, ?_, @Serves.listsRecords_iff _ certificateText zoneName printRaw _ _ hserves hothers.2
    (lookupZone db (Zone.named zoneName))⟩
  rw [listZone, Program.run_bind, run_findZone]
  simp only [require]
  rw [if_pos hfound]
  simp only [Program.run_bind, Program.run_pure, run_findRrsets hfound, hid]

end Creation

end Rows

end Listing

section Examples

open LocalServices ManagementTool

attribute [local instance] ndnPacketFormat

/-- The addition of a delegation at /w to the zone /n. -/
def delegation (nameServers : List Name) : Except Fault Unit × World ℕ :=
  (addRr [letter 110] [letter 119] Label.nsRrType 1 3600 [] nameServers []).run
    (World.handle localServices) ⟨netZone, 0⟩

/-- The listing of the zone /n afterwards. -/
def listing (nameServers : List Name) : Except Fault (Except ListingFault (List Piece)) :=
  ((listZone (fun _ ↦ some "") [letter 110] false).run (World.handle localServices)
    ⟨(delegation nameServers).2.db, 0⟩).1

theorem keepsCertificates_localServices : KeepsCertificates localServices := by
  refine ⟨namesKeys_localServices, ?_⟩
  rintro identity keys certificates cert hcertificates hcert
  cases hcertificates
  rw [List.mem_singleton.mp hcert]
  rfl

theorem delegation_adds {nameServers : List Name} (h : (delegation nameServers).1 = .ok ()) :
    AddsRecord netZone (delegation nameServers).2.db := by
  have hreturns : delegation nameServers = (.ok (), (delegation nameServers).2) := Prod.ext h rfl
  exact ⟨ℕ, localServices, 0, (delegation nameServers).2.keys, [letter 110], [letter 119], [],
    Label.nsRrType, 1, 3600, nameServers, [], Or.inl rfl, hreturns⟩

theorem listZone_lists_one : ∃ outcome, listing [[letter 97]] = .ok outcome ∧
    (ListsRecords (records (delegation [[letter 97]]).2.db 1) outcome ↔
      Listable (fun _ ↦ some "") [letter 110] false
        (records (delegation [[letter 97]]).2.db 1)) := by
  have hadditions : Relation.ReflTransGen AddsRecord netZone (delegation [[letter 97]]).2.db :=
    Relation.ReflTransGen.single (delegation_adds (by decide +kernel))
  obtain ⟨outcome, hrun, -, hlists⟩ := listZone_lists_iff keepsCertificates_localServices
    Database.valid_empty (by simp [NoOrphans, Database.empty]) netZone_step hadditions localServices
    (0 : ℕ) (fun _ ↦ some "") false
  exact ⟨outcome, congrArg Prod.fst hrun, hlists⟩

/-- The listing stops at the assertion when the delegation has two name servers, and has no line for
it when there is none. -/
theorem listing_not_lists :
    AddsRecord netZone (delegation [[letter 97], [letter 98]]).2.db ∧
      listing [[letter 97], [letter 98]] = .ok (.error .assertion) ∧
    AddsRecord netZone (delegation []).2.db ∧
      (∃ row ∈ records (delegation []).2.db 1,
        row.label = [letter 119] ∧ row.type = Label.nsRrType) ∧
      (listing []).map (·.map (recordFields [letter 119] Label.nsRrType)) = .ok (.ok []) :=
  ⟨delegation_adds (by decide +kernel), by decide +kernel, delegation_adds (by decide +kernel),
    by decide +kernel, by decide +kernel⟩

end Examples

end Ndns.Mgmt
