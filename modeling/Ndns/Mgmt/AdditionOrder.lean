import Ndns.Mgmt.CreationRules
import Ndns.Mgmt.FinishedOperations
import Ndns.Mgmt.ServedZones

/-!
# The Order of Additions

TXT records with different labels are added one after the other, the way `ndns-add-rr` does it.  The
AUTH records one addition creates are visible to the checks of the next ones, and the two entry
points check for them differently: only the one for short labels refuses a TXT record at a label
that has an AUTH record.  So an order succeeds exactly when no record with a short label comes after
one with a label below it, and all orders that succeed end with the same TXT records, AUTH labels and
ranges.
-/

namespace Ndns.Mgmt

open Ndn Calls Daemon Order.CircularRanges

variable {Keys : Type} {services : Services Keys} {db db' : Database} {zone : Zone}

/-- The command line of one addition of a TXT record. -/
structure TextRecord where
  label : Name
  version : ℕ
  ttl : ℤ
  dsk : Name
  strings : List Blob
deriving DecidableEq

instance (part label : Name) : Decidable (IsPart part label) :=
  inferInstanceAs (Decidable (part ≠ [] ∧ part <+: label ∧ part ≠ label))

/-- The first record does not stand in the way of the second one: their labels are apart, or the
second one's is long. -/
def TextRecord.Admits (earlier later : TextRecord) : Prop :=
  later.label.length ≤ 1 → ¬ IsPart later.label earlier.label

instance (earlier later : TextRecord) : Decidable (earlier.Admits later) :=
  inferInstanceAs (Decidable (_ → _))

/-- The time to live a record gets in a zone. -/
def TextRecord.ttlIn (record : TextRecord) (zone : Zone) : ℤ :=
  if record.ttl = defaultRrTtl then zone.ttl else record.ttl

/-- The names in the chain of a zone after some TXT records were added. -/
def namesWith (rows : List RrsetRow) (records : List TextRecord) : Set Name :=
  {name | (∃ row ∈ rows, name = row.label ++ [row.type]) ∨
    ∃ record ∈ records, name = record.label ++ [Label.txtRrType] ∨
      ∃ part, IsPart part record.label ∧ name = part ++ [Label.nsRrType]}

section Additions

variable [PacketFormat]

namespace ManagementTool

def addText (zoneName : Name) (record : TextRecord) : Prog Unit :=
  addRr zoneName record.label Label.txtRrType record.version record.ttl record.dsk [] record.strings

/-- The additions of some TXT records in a given order. -/
def addAll (zoneName : Name) : List TextRecord → Prog Unit
  | [] => pure ()
  | record :: rest => do
      addText zoneName record
      addAll zoneName rest

/-- The services work for a zone and issue the records that some additions involve. -/
structure Equipped (services : Services Keys) (certName : Name) (zone : Zone)
    (rows : List RrsetRow) (records : List TextRecord) : Prop where
  holds : services.HoldsKeys (zoneIdentity zone.name) certName
  lists : ∀ record ∈ records, record.dsk ≠ defaultCert →
    services.Lists (zoneIdentity zone.name) record.dsk
  ttl : ∀ record ∈ records, 0 ≤ record.ttlIn zone
  texts : ∀ record ∈ records, ∃ content, RrsetFactory.encodeStrings record.strings = some content ∧
    services.IssuesRecord (RrsetFactory.chosenCert certName record.dsk) zone.name record.label
      Label.txtRrType .resp (record.ttlIn zone) content
  auths : ∀ record ∈ records, ∀ part, IsPart part record.label →
    services.IssuesRecord (RrsetFactory.chosenCert certName record.dsk) zone.name part
      Label.nsRrType .auth (record.ttlIn zone) []
  denials : IssuesDenials services certName zone.name (namesWith rows records)

end ManagementTool

/-! ## The zone after some additions -/

/-- A row that holds a TXT record. -/
structure HoldsText (zone : Zone) (record : TextRecord) (row : RrsetRow) : Prop where
  label : row.label = record.label
  type : row.type = Label.txtRrType
  version : record.version ≠ versionUseUnixTimestamp →
    row.version = Component.fromVersion record.version
  ttl : row.ttl = record.ttlIn zone
  carries : ∃ content, RrsetFactory.encodeStrings record.strings = some content ∧
    RowCarries zone.name row .resp content

/-- A zone that has grown from some rows by the additions of some TXT records. -/
structure Grown (zone : Zone) (base : List RrsetRow) (done : List TextRecord) (db : Database) :
    Prop where
  valid : db.Valid
  known : Known zone db
  keys : ((records db zone.id).map recordKey).Nodup
  chained : Chained zone.name zone.id db
  kept : ∀ row ∈ base, row ∈ records db zone.id ∧ row.type ≠ Label.nsRrType ∧
    row.type ≠ Label.txtRrType
  rows : ∀ row ∈ records db zone.id, row ∈ base ∨ (∃ record ∈ done, HoldsText zone record row) ∨
    IsAuth zone.name row ∧ ∃ record ∈ done, IsPart row.label record.label
  texts : ∀ record ∈ done, ∃ row ∈ records db zone.id, HoldsText zone record row
  auths : ∀ record ∈ done, ∀ part, IsPart part record.label → ∃ row ∈ records db zone.id,
    row.label = part ∧ row.type = Label.nsRrType

section Grown

variable {base : List RrsetRow} {done : List TextRecord}

/-- The NS records are the AUTH records above the labels of TXT records. -/
theorem Grown.auth (h : Grown zone base done db) {row : RrsetRow} (hrow : row ∈ records db zone.id)
    (htype : row.type = Label.nsRrType) :
    IsAuth zone.name row ∧ ∃ record ∈ done, IsPart row.label record.label := by
  rcases h.rows row hrow with hbase | ⟨record, hrecord, hholds⟩ | hauth
  · exact absurd htype (h.kept row hbase).2.1
  · exact absurd (htype.symm.trans hholds.type) (by decide)
  · exact hauth

/-- The TXT records are those that were added. -/
theorem Grown.text (h : Grown zone base done db) {row : RrsetRow} (hrow : row ∈ records db zone.id)
    (htype : row.type = Label.txtRrType) : ∃ record ∈ done, HoldsText zone record row := by
  rcases h.rows row hrow with hbase | hholds | ⟨hauth, -⟩
  · exact absurd htype (h.kept row hbase).2.2
  · exact hholds
  · exact absurd (htype.symm.trans hauth.1) (by decide)

/-- Which keys there are depends on the records that were added only. -/
theorem Grown.mem_keys (h : Grown zone base done db) (key : Name ×ₗ Component) :
    key ∈ (records db zone.id).map recordKey ↔ key ∈ base.map recordKey ∨
      ∃ record ∈ done, key = toLex (record.label, Label.txtRrType) ∨
        ∃ part, IsPart part record.label ∧ key = toLex (part, Label.nsRrType) := by
  constructor
  · intro hkey
    obtain ⟨row, hrow, rfl⟩ := List.mem_map.mp hkey
    rcases h.rows row hrow with hbase | ⟨record, hrecord, hholds⟩ | ⟨hauth, record, hrecord, hpart⟩
    · exact Or.inl (List.mem_map_of_mem hbase)
    · refine Or.inr ⟨record, hrecord, Or.inl ?_⟩
      rw [recordKey, hholds.label, hholds.type]
    · refine Or.inr ⟨record, hrecord, Or.inr ⟨row.label, hpart, ?_⟩⟩
      rw [recordKey, hauth.1]
  · rintro (hbase | ⟨record, hrecord, rfl | ⟨part, hpart, rfl⟩⟩)
    · obtain ⟨row, hrow, rfl⟩ := List.mem_map.mp hbase
      exact List.mem_map_of_mem (h.kept row hrow).1
    · obtain ⟨row, hrow, hholds⟩ := h.texts record hrecord
      refine List.mem_map.mpr ⟨row, hrow, ?_⟩
      rw [recordKey, hholds.label, hholds.type]
    · obtain ⟨row, hrow, hlabel, htype⟩ := h.auths record hrecord part hpart
      refine List.mem_map.mpr ⟨row, hrow, ?_⟩
      rw [recordKey, hlabel, htype]

/-- An addition leaves a zone that has grown by its record. -/
theorem Grown.adds (h : Grown zone base done db) {record : TextRecord} {rrset : Rrset}
    (hvalid : db'.Valid)
    (hholds : ∀ id, HoldsText zone record (insertedRow rrset id zone.id))
    (hadds : ManagementTool.Adds zone rrset db db') :
    Grown zone base (done ++ [record]) db' := by
  obtain ⟨rows, id, hgains, hrows⟩ := hadds.gains
  have hlabel : rrset.label = record.label := (hholds id).label
  have hold : ∀ row ∈ records db zone.id, row ∈ records db' zone.id := by
    intro row hrow
    rw [hgains.records]
    exact List.mem_append_left _ hrow
  have hdone : ∀ other ∈ done, other ∈ done ++ [record] :=
    fun other hother ↦ List.mem_append_left _ hother
  have hlast : record ∈ done ++ [record] := List.mem_append_right _ List.mem_cons_self
  refine ⟨hvalid, h.known.congr hgains.zones, hadds.keys, hadds.chained, ?_, ?_, ?_, ?_⟩
  · exact fun row hrow ↦ ⟨hold row (h.kept row hrow).1, (h.kept row hrow).2⟩
  · intro row hrow
    rw [hgains.records] at hrow
    rcases List.mem_append.mp hrow with hrow | hrow
    · rcases h.rows row hrow with hbase | ⟨other, hother, htext⟩ | ⟨hauth, other, hother, hpart⟩
      · exact Or.inl hbase
      · exact Or.inr (Or.inl ⟨other, hdone other hother, htext⟩)
      · exact Or.inr (Or.inr ⟨hauth, other, hdone other hother, hpart⟩)
    · rcases List.mem_append.mp hrow with hrow | hrow
      · obtain ⟨hpart, hauth⟩ := hrows row hrow
        exact Or.inr (Or.inr ⟨hauth, record, hlast, hlabel ▸ hpart⟩)
      · rw [List.mem_singleton.mp hrow]
        exact Or.inr (Or.inl ⟨record, hlast, hholds id⟩)
  · intro other hother
    rcases List.mem_append.mp hother with hother | hother
    · obtain ⟨row, hrow, htext⟩ := h.texts other hother
      exact ⟨row, hold row hrow, htext⟩
    · rw [List.mem_singleton.mp hother]
      refine ⟨insertedRow rrset id zone.id, ?_, hholds id⟩
      rw [hgains.records]
      exact List.mem_append_right _ (List.mem_append_right _ List.mem_cons_self)
  · intro other hother part hpart
    rcases List.mem_append.mp hother with hother | hother
    · obtain ⟨row, hrow, hrest⟩ := h.auths other hother part hpart
      exact ⟨row, hold row hrow, hrest⟩
    · rw [List.mem_singleton.mp hother] at hpart
      exact hadds.parts part (hlabel ▸ hpart)

/-- An addition under a new label finishes, unless the label is short and has an AUTH record. -/
theorem Grown.finishes_addText {certName : Name} {all : List TextRecord} {record : TextRecord}
    (h : Grown zone base done db) (hequipped : ManagementTool.Equipped services certName zone base all)
    (hdone : ∀ other ∈ done, other ∈ all) (hrecord : record ∈ all)
    (hnew : record.label ∉ done.map TextRecord.label) (hfree : ∀ other ∈ done, other.Admits record) :
    Finishes services (ManagementTool.addText zone.name record) db
      fun _ db' ↦ Grown zone base (done ++ [record]) db' := by
  obtain ⟨content, hcontent, hissues⟩ := hequipped.texts record hrecord
  have htxt : Label.txtRrType ≠ Label.nsRrType := by decide
  have hdoe : Label.txtRrType ≠ Label.doeRrType := by decide
  have hnames : ∀ name ∈ recordNames db zone.id, name ∈ namesWith base all := by
    intro name hname
    obtain ⟨row, hrow, rfl⟩ := mem_recordNames.mp hname
    rcases h.rows row hrow with hbase | ⟨other, hother, hholds⟩ | ⟨hauth, other, hother, hpart⟩
    · exact Or.inl ⟨row, hbase, rfl⟩
    · exact Or.inr ⟨other, hdone other hother, Or.inl (by rw [hholds.label, hholds.type])⟩
    · exact Or.inr ⟨other, hdone other hother, Or.inr ⟨row.label, hpart, by rw [hauth.1]⟩⟩
  have hname : record.label ++ [Label.txtRrType] ∈ namesWith base all :=
    Or.inr ⟨record, hrecord, Or.inl rfl⟩
  have habsent : DbMgr.keyRow db zone.id record.label Label.txtRrType = none := by
    cases hrow : DbMgr.keyRow db zone.id record.label Label.txtRrType with
    | none => rfl
    | some row =>
        obtain ⟨hmem, hlabel, htype⟩ := mem_records_of_keyRow hdoe hrow
        obtain ⟨other, hother, hholds⟩ := h.text hmem htype
        refine absurd (List.mem_map.mpr ⟨other, hother, ?_⟩) hnew
        rw [← hholds.label, hlabel]
  have hzone : (DbMgr.lookupZone db (Zone.named zone.name)).id ≠ 0 :=
    h.known.lookup.symm ▸ h.known.id
  have hfinishes : Finishes services (ManagementTool.addText zone.name record) db
      fun _ db' ↦ ∃ rrset, (∀ id, HoldsText zone record (insertedRow rrset id zone.id)) ∧
        ManagementTool.Adds zone rrset db db' := by
    refine RrsetFactory.finishes_checkedFactory hequipped.holds (hequipped.lists record hrecord)
      hzone ?_
    rw [h.known.lookup, ManagementTool.generateNamedRrset, if_neg htxt, if_pos rfl,
      RrsetFactory.generateTxtRrset, hcontent]
    have hgenerate := @RrsetFactory.finishes_generateRrset _ services db _
      ⟨zone, RrsetFactory.chosenCert certName record.dsk, true⟩ record.label Label.txtRrType .resp
      record.ttl content record.version rfl (hequipped.ttl record hrecord) hissues
    refine hgenerate.bind fun rrset db₁ hgenerated ↦ ?_
    obtain ⟨rfl, hgenerated⟩ := hgenerated
    have hholds : ∀ id, HoldsText zone record (insertedRow rrset id zone.id) := by
      intro id
      refine ⟨hgenerated.label, hgenerated.type, hgenerated.version, hgenerated.ttl, content,
        hcontent, ?_⟩
      have hcarries := hgenerated.carries
      rw [← hgenerated.label, ← hgenerated.type] at hcarries
      exact hcarries
    have hlabel := hgenerated.label
    have htype := hgenerated.type
    rw [← hlabel] at hname habsent ⊢
    rw [← htype] at hname habsent htxt hdoe
    split_ifs with hlength
    · have hauths : ∀ part, IsPart part rrset.label →
          part ++ [Label.nsRrType] ∈ namesWith base all ∧ ∀ row,
            DbMgr.keyRow db₁ zone.id part Label.nsRrType = some row → IsAuth zone.name row := by
        intro part hpart
        rw [hlabel] at hpart
        refine ⟨Or.inr ⟨record, hrecord, Or.inr ⟨part, hpart, rfl⟩⟩, fun row hrow ↦ ?_⟩
        obtain ⟨hmem, -, hns⟩ := mem_records_of_keyRow (by decide) hrow
        exact (h.auth hmem hns).1
      have hadds := @ManagementTool.finishes_addMultiLevelLabelRrset _ services db₁ zone _ rrset
        certName (namesWith base all) ⟨zone, RrsetFactory.chosenCert certName record.dsk, true⟩
        record.ttl hequipped.holds h.known hgenerated.zone hgenerated.id hdoe htxt h.valid h.keys
        habsent hequipped.denials hnames hname hlength hauths rfl rfl (hequipped.ttl record hrecord)
        fun part hpart ↦ hequipped.auths record hrecord part (hlabel ▸ hpart)
      exact hadds.weaken fun _ _ hadds ↦ ⟨rrset, hholds, hadds⟩
    · have hshort := not_lt.mp hlength
      have hnone : DbMgr.keyRow db₁ zone.id rrset.label Label.nsRrType = none := by
        cases hrow : DbMgr.keyRow db₁ zone.id rrset.label Label.nsRrType with
        | none => rfl
        | some row =>
            obtain ⟨hmem, hrowLabel, hns⟩ := mem_records_of_keyRow (by decide) hrow
            obtain ⟨-, other, hother, hpart⟩ := h.auth hmem hns
            exact absurd (hlabel ▸ hrowLabel ▸ hpart) (hfree other hother (hlabel ▸ hshort))
      have hadds := ManagementTool.finishes_addRrset hequipped.holds h.known hgenerated.zone
        hgenerated.id hdoe h.keys habsent hequipped.denials hnames hname hshort hnone
      exact hadds.weaken fun _ _ hadds ↦ ⟨rrset, hholds, hadds⟩
  have hvalid := hfinishes.and_returns fun keys _ world' hreturns ↦
    @valid_of_returns _ _ services _ _ _ _ h.valid hreturns
  refine hvalid.weaken fun _ db' hend ↦ ?_
  obtain ⟨⟨rrset, hholds, hadds⟩, hvalid'⟩ := hend
  exact h.adds hvalid' hholds hadds

/-- A short label with an AUTH record refuses its TXT record. -/
theorem Grown.admits_of_returns (h : Grown zone base done db) {record other : TextRecord}
    (hother : other ∈ done) {keys : Keys} {world' : World Keys}
    (hreturns : (ManagementTool.addText zone.name record).Returns (World.handle services) ⟨db, keys⟩ ()
      world') : other.Admits record := by
  intro hshort hpart
  obtain ⟨row, hrow, hrowLabel, hns⟩ := h.auths other hother record.label hpart
  have hauth := (h.auth hrow hns).1
  obtain ⟨factory, rrset, middle, hdb, hfactory, hid, -, hrrsetZone, hlabel, -, hcase⟩ :=
    returns_addRr (Or.inr rfl) hreturns
  have hzone : factory.zone = zone := hfactory.trans h.known.lookup
  rcases hcase with ⟨hlong, -⟩ | ⟨-, hadd⟩
  · omega
  · obtain ⟨zone', hresolve, hdiffers, -⟩ := ManagementTool.returns_addRrset hrrsetZone hadd
    obtain rfl := hresolve.known hid
    have hresolved : DbMgr.resolveZone middle.db factory.zone = factory.zone := if_neg hid
    rw [hresolved, hzone, hlabel, hdb] at hdiffers
    exact not_carries_of_nsDiffers h.valid h.keys (hdiffers h.known.id) hrow hrowLabel hns hauth.2
      rfl

/-- The next addition of an order, and the records it leaves to add. -/
theorem Grown.step {certName : Name} {all rest : List TextRecord} {record : TextRecord}
    (h : Grown zone base done db) (hequipped : ManagementTool.Equipped services certName zone base all)
    (hall : ∀ other ∈ done ++ record :: rest, other ∈ all)
    (hlabels : ((done ++ record :: rest).map TextRecord.label).Nodup)
    (hfree : ∀ other ∈ done, other.Admits record) :
    Finishes services (ManagementTool.addText zone.name record) db
      fun _ db' ↦ Grown zone base (done ++ [record]) db' := by
  apply h.finishes_addText hequipped
  · exact fun other hother ↦ hall other (List.mem_append_left _ hother)
  · exact hall record (List.mem_append_right _ List.mem_cons_self)
  · rw [List.map_append, List.map_cons, List.nodup_append] at hlabels
    exact fun hmem ↦ hlabels.2.2 _ hmem _ List.mem_cons_self rfl
  · exact hfree

/-- All additions of an order finish when no record stands in the way of a later one. -/
theorem Grown.finishes_addAll {certName : Name} {all order : List TextRecord}
    (h : Grown zone base done db) (hequipped : ManagementTool.Equipped services certName zone base all)
    (hall : ∀ record ∈ done ++ order, record ∈ all)
    (hlabels : ((done ++ order).map TextRecord.label).Nodup)
    (hfree : (done ++ order).Pairwise TextRecord.Admits) :
    Finishes services (ManagementTool.addAll zone.name order) db
      fun _ db' ↦ Grown zone base (done ++ order) db' := by
  induction order generalizing done db with
  | nil =>
      rw [List.append_nil]
      exact finishes_pure h
  | cons record rest ih =>
      have hadmits : ∀ other ∈ done, other.Admits record :=
        fun other hother ↦ (List.pairwise_append.mp hfree).2.2 other hother record List.mem_cons_self
      refine (h.step hequipped hall hlabels hadmits).bind fun _ db₁ hgrown ↦ ?_
      rw [List.append_cons] at hall hlabels hfree ⊢
      exact ih hgrown hall hlabels hfree

/-- When all additions of an order return, no record stood in the way of a later one. -/
theorem Grown.pairwise_of_returns {certName : Name} {all order : List TextRecord}
    (h : Grown zone base done db) (hequipped : ManagementTool.Equipped services certName zone base all)
    (hall : ∀ record ∈ done ++ order, record ∈ all)
    (hlabels : ((done ++ order).map TextRecord.label).Nodup)
    (hdone : done.Pairwise TextRecord.Admits) {keys : Keys} {world' : World Keys}
    (hreturns : (ManagementTool.addAll zone.name order).Returns (World.handle services) ⟨db, keys⟩ ()
      world') : (done ++ order).Pairwise TextRecord.Admits := by
  induction order generalizing done db keys with
  | nil =>
      rw [List.append_nil]
      exact hdone
  | cons record rest ih =>
      obtain ⟨_, middle, hfirst, hrest⟩ := Program.returns_bind.mp hreturns
      have hadmits : ∀ other ∈ done, other.Admits record :=
        fun other hother ↦ h.admits_of_returns hother hfirst
      have hgrown := (h.step hequipped hall hlabels hadmits).returns hfirst
      have hnext : (done ++ [record]).Pairwise TextRecord.Admits := by
        refine List.pairwise_append.mpr ⟨hdone, List.pairwise_singleton _ _, ?_⟩
        intro other hother later hlater
        rw [List.mem_singleton.mp hlater]
        exact hadmits other hother
      rw [List.append_cons] at hall hlabels ⊢
      exact ih hgrown hall hlabels hnext hrest

end Grown

/-! ## What an order leaves -/

/-- The TXT records of a zone, its AUTH labels and its ranges.  A version that is the time of an
addition is left out. -/
@[ext]
structure ZoneView where
  texts : Set (Name × Option Component × ℤ × Option Blob)
  auths : Set Name
  ranges : Set Denial

/-- The record of this label asks for the time as its version. -/
def Timed (records : List TextRecord) (label : Name) : Prop :=
  ∃ record ∈ records, record.label = label ∧ record.version = versionUseUnixTimestamp

instance (records : List TextRecord) (label : Name) : Decidable (Timed records label) :=
  inferInstanceAs (Decidable (∃ record ∈ records, _))

def zoneView (all : List TextRecord) (zoneId : ℕ) (db : Database) : ZoneView where
  texts := {text | ∃ row ∈ records db zoneId, row.type = Label.txtRrType ∧ text = (row.label,
    if Timed all row.label then none else some row.version, row.ttl,
    (PacketFormat.decode row.data).map Data.content)}
  auths := {label | ∃ row ∈ records db zoneId, row.type = Label.nsRrType ∧ row.label = label ∧
    (PacketFormat.decode row.data).map (fun data ↦ NdnsContentType.ofCode data.contentType) =
      some .auth}
  ranges := {denial | ∃ row ∈ denials db zoneId, row.label = denial.1 ∧
    (PacketFormat.decode row.data).bind (fun data ↦ Clients.Response.wireDecodeDoe data.content) =
      some denial.2}

/-- What the view shows of a TXT record. -/
def TextRecord.view (all : List TextRecord) (zone : Zone) (record : TextRecord) :
    Name × Option Component × ℤ × Option Blob :=
  (record.label, if Timed all record.label then none else some (Component.fromVersion record.version),
    record.ttlIn zone, RrsetFactory.encodeStrings record.strings)

theorem HoldsText.view {record : TextRecord} {row : RrsetRow} {all : List TextRecord}
    (h : HoldsText zone record row) (hrecord : record ∈ all) :
    (row.label, if Timed all row.label then none else some row.version, row.ttl,
      (PacketFormat.decode row.data).map Data.content) = record.view all zone := by
  obtain ⟨content, hcontent, hcarries⟩ := h.carries
  obtain ⟨data, hdecode, -, -, hdata⟩ := hcarries.decodes
  have hversion : (if Timed all record.label then none else some row.version) =
      if Timed all record.label then none else some (Component.fromVersion record.version) := by
    split_ifs with htimed
    · rfl
    · have hgiven : record.version ≠ versionUseUnixTimestamp :=
        fun htime ↦ htimed ⟨record, hrecord, rfl, htime⟩
      rw [h.version hgiven]
  rw [TextRecord.view, h.label, hversion, h.ttl, hdecode, Option.map_some, hdata, hcontent]

section Views

variable {base : List RrsetRow} {done done' all : List TextRecord}

theorem Grown.texts_eq (h : Grown zone base done db) (hdone : ∀ record ∈ done, record ∈ all) :
    (zoneView all zone.id db).texts = {text | ∃ record ∈ done, text = record.view all zone} := by
  ext text
  constructor
  · rintro ⟨row, hrow, htype, rfl⟩
    obtain ⟨record, hrecord, hholds⟩ := h.text hrow htype
    exact ⟨record, hrecord, hholds.view (hdone record hrecord)⟩
  · rintro ⟨record, hrecord, rfl⟩
    obtain ⟨row, hrow, hholds⟩ := h.texts record hrecord
    exact ⟨row, hrow, hholds.type, (hholds.view (hdone record hrecord)).symm⟩

theorem Grown.auths_eq (h : Grown zone base done db) :
    (zoneView all zone.id db).auths = {label | ∃ record ∈ done, IsPart label record.label} := by
  ext label
  constructor
  · rintro ⟨row, hrow, htype, rfl, -⟩
    exact (h.auth hrow htype).2
  · rintro ⟨record, hrecord, hpart⟩
    obtain ⟨row, hrow, hlabel, htype⟩ := h.auths record hrecord label hpart
    obtain ⟨data, hdecode, -, hcode, -⟩ := (h.auth hrow htype).1.2.decodes
    refine ⟨row, hrow, htype, hlabel, ?_⟩
    rw [hdecode, Option.map_some, hcode]
    rfl

/-- A chained zone shows the denials of its chain. -/
theorem ranges_eq (h : Chained zone.name zone.id db) :
    (zoneView all zone.id db).ranges = {denial | denial ∈ denialChain (recordNames db zone.id)} := by
  have hrow : ∀ {row : RrsetRow} {denial : Denial}, IsDenial zone.name zone.id row denial →
      (PacketFormat.decode row.data).bind (fun data ↦
        Clients.Response.wireDecodeDoe data.content) = some denial.2 := by
    intro row denial hdenial
    obtain ⟨data, hdecode, hrange⟩ := hdenial.wireDecodeDoe
    rw [hdecode, Option.bind_some, hrange]
  ext denial
  constructor
  · rintro ⟨row, hmem, hlabel, hrange⟩
    obtain ⟨other, hother, hdenial⟩ := forall₂_mem_left h hmem
    have hsame : other = denial :=
      Prod.ext (hdenial.label.symm.trans hlabel) (Option.some.inj ((hrow hdenial).symm.trans hrange))
    exact hsame ▸ hother
  · intro hmem
    obtain ⟨row, hrowMem, hdenial⟩ := forall₂_mem_right h hmem
    exact ⟨row, hrowMem, hdenial.label, hrow hdenial⟩

/-- Zones that have grown by the same records show the same. -/
theorem Grown.view_eq (h : Grown zone base done db) (h' : Grown zone base done' db')
    (hdone : ∀ record ∈ done, record ∈ all) (hsame : ∀ record, record ∈ done ↔ record ∈ done') :
    zoneView all zone.id db = zoneView all zone.id db' := by
  have hdone' : ∀ record ∈ done', record ∈ all :=
    fun record hrecord ↦ hdone record ((hsame record).mpr hrecord)
  have hkeys : ((records db zone.id).map recordKey).Perm ((records db' zone.id).map recordKey) := by
    refine (List.perm_ext_iff_of_nodup h.keys h'.keys).mpr fun key ↦ ?_
    rw [h.mem_keys, h'.mem_keys]
    simp only [hsame]
  have hnames : recordNames db zone.id = recordNames db' zone.id := by
    rw [recordNames, insertionSort_eq_of_perm hkeys, recordNames]
  have htexts : (zoneView all zone.id db).texts = (zoneView all zone.id db').texts := by
    rw [h.texts_eq hdone, h'.texts_eq hdone']
    simp only [hsame]
  have hauths : (zoneView all zone.id db).auths = (zoneView all zone.id db').auths := by
    rw [h.auths_eq, h'.auths_eq]
    simp only [hsame]
  have hranges : (zoneView all zone.id db).ranges = (zoneView all zone.id db').ranges := by
    rw [ranges_eq h.chained, ranges_eq h'.chained, hnames]
  exact ZoneView.ext htexts hauths hranges

end Views

/-! ## Independence of the order -/

namespace ManagementTool

/-- Every order of the additions succeeds, and all end with the same view. -/
def OrderFree (services : Services Keys) (zone : Zone) (records : List TextRecord)
    (db : Database) : Prop :=
  ∃ view, ∀ order, order.Perm records → Finishes services (addAll zone.name order) db
    fun _ db' ↦ zoneView records zone.id db' = view

section Creation

variable {Keys' : Type} {creator : Services Keys'} {world world' : World Keys'}
  {zoneName parentZoneName kskCertName dskCertName dkeyCertName : Name} {cacheTtl : ℤ}
  {created : Zone}

/-- A new zone holds certificates only. -/
theorem certificates_createZone (hvalid : world.db.Valid)
    (howned : ∀ row ∈ world.db.rrsets, ∃ zone ∈ world.db.zones, zone.id = row.zoneId)
    (h : (createZone zoneName parentZoneName cacheTtl kskCertName dskCertName
      dkeyCertName).Returns (World.handle creator) world created world') :
    ∀ row ∈ records world'.db created.id, row.type = Label.certRrType := by
  obtain ⟨added, middle, rfl, hcreates, hvalid', hgenerate⟩ := returns_createZone hvalid h
  obtain ⟨ttl, hzones⟩ := hcreates.zones
  obtain ⟨first, second, hrows, -, -, hfirstType, hsecondType, -⟩ := hcreates.rows
  have hid : added.id ≠ 0 := hcreates.zoneId_eq ▸ (nextRowId_pos _).ne'
  have hstored : added.Stored middle.db := by
    intro _
    rw [hzones]
    exact ⟨_, List.mem_append_right _ List.mem_cons_self, rfl, rfl⟩
  obtain ⟨rfl, -, -, hregenerates⟩ := returns_generateDoe hgenerate
  rw [lookupZone_id_of_stored hvalid' hstored hid] at hregenerates ⊢
  rw [hregenerates.records]
  intro row hrow
  obtain ⟨hmem, hzone, -⟩ := mem_records.mp hrow
  rw [hrows] at hmem
  rcases List.mem_append.mp hmem with hold | hnew
  · obtain ⟨owner, howner, hownerId⟩ := howned row hold
    have hne : owner.id ≠ added.id := hcreates.zoneId_eq ▸ Database.ne_nextRowId howner
    exact absurd (hownerId.trans hzone) hne
  · rcases List.mem_cons.mp hnew with rfl | hnew
    · exact hfirstType
    · rw [List.mem_singleton.mp hnew, hsecondType]

/-- A new zone has grown by no record. -/
theorem grown_createZone (hvalid : world.db.Valid)
    (howned : ∀ row ∈ world.db.rrsets, ∃ zone ∈ world.db.zones, zone.id = row.zoneId)
    (h : (createZone zoneName parentZoneName cacheTtl kskCertName dskCertName
      dkeyCertName).Returns (World.handle creator) world created world') :
    (DbMgr.lookupZone world'.db (Zone.named zoneName)).id = created.id ∧
      Grown (DbMgr.lookupZone world'.db (Zone.named zoneName)) (records world'.db created.id) []
        world'.db := by
  have hserves := serves_createZone hvalid howned h
  have hcerts := certificates_createZone hvalid howned h
  obtain ⟨row, hrow, hrowId, hrowName⟩ := hserves.zone
  have hpos : created.id ≠ 0 := hrowId ▸ (hserves.valid.zoneIds_pos row hrow).ne'
  have hlookup : (DbMgr.lookupZone world'.db ⟨created.id, zoneName, Zone.defaultTtl⟩).id =
      created.id :=
    lookupZone_id_of_stored hserves.valid (fun _ ↦ ⟨row, hrow, hrowId, hrowName⟩) hpos
  have hid : (DbMgr.lookupZone world'.db (Zone.named zoneName)).id = created.id :=
    (DbMgr.lookupZone_id_congr rfl rfl).trans hlookup
  have hname : (DbMgr.lookupZone world'.db (Zone.named zoneName)).name = zoneName :=
    DbMgr.lookupZone_name _ _
  refine ⟨hid, hserves.valid, ⟨hid.symm ▸ hpos, by rw [hname]⟩, ?_, ?_, ?_, ?_, ?_, ?_⟩
  · rw [hid]
    exact hserves.shape.keys
  · rw [hid, hname]
    exact hserves.chained
  · intro row hrow
    rw [hid, hcerts row hrow]
    exact ⟨hrow, by decide, by decide⟩
  · intro row hrow
    rw [hid] at hrow
    exact Or.inl hrow
  · simp
  · simp

/-- The additions of an order finish with a zone that has grown by its records, unless a record
stands in the way of a later one. -/
theorem finishes_order_iff {certName : Name} {base : List RrsetRow} {records order : List TextRecord}
    {zone : Zone} {db : Database} [Nonempty Keys] (h : Grown zone base [] db)
    (hequipped : Equipped services certName zone base records)
    (hdistinct : (records.map TextRecord.label).Nodup) (horder : order.Perm records) :
    (order.Pairwise TextRecord.Admits → Finishes services (addAll zone.name order) db
        fun _ db' ↦ Grown zone base order db') ∧
      ∀ Ends, Finishes services (addAll zone.name order) db Ends →
        order.Pairwise TextRecord.Admits := by
  have hall : ∀ record ∈ [] ++ order, record ∈ records := fun record ↦ horder.mem_iff.mp
  have hlabels : (([] ++ order).map TextRecord.label).Nodup :=
    (horder.map TextRecord.label).nodup_iff.mpr hdistinct
  refine ⟨h.finishes_addAll hequipped hall hlabels, fun Ends hfinishes ↦ ?_⟩
  obtain ⟨keys⟩ := ‹Nonempty Keys›
  obtain ⟨_, last, hreturns, -⟩ := hfinishes ⟨db, keys⟩ rfl
  exact h.pairwise_of_returns hequipped hall hlabels List.Pairwise.nil hreturns

/-- Adding TXT records with different labels to a new zone succeeds in an order exactly when no
record with a label of one component comes after one with a label below it, and all orders in which
it succeeds end with the same view. -/
theorem orders_agree_iff {certName : Name} {records : List TextRecord} [Nonempty Keys]
    (hvalid : world.db.Valid)
    (howned : ∀ row ∈ world.db.rrsets, ∃ zone ∈ world.db.zones, zone.id = row.zoneId)
    (hcreate : (createZone zoneName parentZoneName cacheTtl kskCertName dskCertName
      dkeyCertName).Returns (World.handle creator) world created world')
    (hequipped : Equipped services certName (DbMgr.lookupZone world'.db (Zone.named zoneName))
      (Mgmt.records world'.db created.id) records)
    (hdistinct : (records.map TextRecord.label).Nodup) :
    ∃ view, ∀ order, order.Perm records →
      (Finishes services (addAll zoneName order) world'.db (fun _ db' ↦
          zoneView records (DbMgr.lookupZone world'.db (Zone.named zoneName)).id db' = view) ↔
        order.Pairwise TextRecord.Admits) := by
  obtain ⟨-, hgrown⟩ := grown_createZone hvalid howned hcreate
  have hname : (DbMgr.lookupZone world'.db (Zone.named zoneName)).name = zoneName :=
    DbMgr.lookupZone_name _ _
  generalize DbMgr.lookupZone world'.db (Zone.named zoneName) = zone at hequipped hgrown hname ⊢
  subst hname
  have hends := fun (order : List TextRecord) (horder : order.Perm records) ↦
    finishes_order_iff hgrown hequipped hdistinct horder
  by_cases hsome : ∃ order : List TextRecord, order.Perm records ∧ order.Pairwise TextRecord.Admits
  · obtain ⟨first, hfirst, hadmits⟩ := hsome
    obtain ⟨keys⟩ := ‹Nonempty Keys›
    obtain ⟨_, last, -, hlast⟩ := (hends first hfirst).1 hadmits ⟨world'.db, keys⟩ rfl
    refine ⟨zoneView records zone.id last.db, fun order horder ↦ ⟨(hends order horder).2 _, ?_⟩⟩
    intro hpairwise
    refine ((hends order horder).1 hpairwise).weaken fun _ db' hgrown' ↦ ?_
    exact hgrown'.view_eq hlast (fun record ↦ horder.mem_iff.mp)
      fun record ↦ horder.mem_iff.trans hfirst.mem_iff.symm
  · refine ⟨zoneView records zone.id world'.db, fun order horder ↦ ⟨(hends order horder).2 _, ?_⟩⟩
    exact fun hpairwise ↦ absurd ⟨order, horder, hpairwise⟩ hsome

/-- Adding TXT records with different labels to a new zone is independent of the order exactly when
no label of one component is a part of another label. -/
theorem orderFree_iff {certName : Name} {records : List TextRecord} [Nonempty Keys]
    (hvalid : world.db.Valid)
    (howned : ∀ row ∈ world.db.rrsets, ∃ zone ∈ world.db.zones, zone.id = row.zoneId)
    (hcreate : (createZone zoneName parentZoneName cacheTtl kskCertName dskCertName
      dkeyCertName).Returns (World.handle creator) world created world')
    (hequipped : Equipped services certName (DbMgr.lookupZone world'.db (Zone.named zoneName))
      (Mgmt.records world'.db created.id) records)
    (hdistinct : (records.map TextRecord.label).Nodup) :
    OrderFree services (DbMgr.lookupZone world'.db (Zone.named zoneName)) records world'.db ↔
      ∀ record ∈ records, ∀ other ∈ records, record.label.length ≤ 1 →
        ¬ IsPart record.label other.label := by
  obtain ⟨-, hgrown⟩ := grown_createZone hvalid howned hcreate
  generalize DbMgr.lookupZone world'.db (Zone.named zoneName) = zone at hequipped hgrown ⊢
  have hends := fun (order : List TextRecord) (horder : order.Perm records) ↦
    finishes_order_iff hgrown hequipped hdistinct horder
  constructor
  · rintro ⟨view, hview⟩ record hrecord other hother hshort hpart
    have hne : record ≠ other := by
      rintro rfl
      exact hpart.2.2 rfl
    have hrest : record ∈ records.erase other := (List.mem_erase_of_ne hne).mpr hrecord
    have horder : (other :: record :: (records.erase other).erase record).Perm records :=
      (((List.perm_cons_erase hrest).symm.cons other).trans (List.perm_cons_erase hother).symm)
    have hpairwise := (hends _ horder).2 _ (hview _ horder)
    exact List.rel_of_pairwise_cons hpairwise List.mem_cons_self hshort hpart
  · intro hfree
    have hfinishes : ∀ order, order.Perm records → Finishes services (addAll zone.name order)
        world'.db fun _ db' ↦ Grown zone (Mgmt.records world'.db created.id) order db' := by
      intro order horder
      refine (hends order horder).1 (List.pairwise_of_forall_mem_list fun other hother record hrecord ↦ ?_)
      exact hfree record (horder.mem_iff.mp hrecord) other (horder.mem_iff.mp hother)
    obtain ⟨keys⟩ := ‹Nonempty Keys›
    obtain ⟨_, last, -, hlast⟩ := hfinishes records (List.Perm.refl _) ⟨world'.db, keys⟩ rfl
    refine ⟨zoneView records zone.id last.db, fun order horder ↦ ?_⟩
    refine (hfinishes order horder).weaken fun _ db' hgrown' ↦ ?_
    exact hgrown'.view_eq hlast (fun record ↦ horder.mem_iff.mp) fun record ↦ horder.mem_iff

end Creation

end ManagementTool

end Additions

section Examples

open LocalServices ManagementTool

attribute [local instance] ndnPacketFormat

theorem length_namesWith {rows : List RrsetRow} {records : List TextRecord}
    (hrows : ∀ row ∈ rows, (saveName (row.label ++ [row.type])).length < 2 ^ 30)
    (hrecords : ∀ record ∈ records, (saveName record.label).length < 2 ^ 20) :
    ∀ name ∈ namesWith rows records, (saveName name).length < 2 ^ 30 := by
  have hns : (saveName [Label.nsRrType]).length < 2 ^ 20 := by decide
  have htxt : (saveName [Label.txtRrType]).length < 2 ^ 20 := by decide
  rintro name (⟨row, hrow, rfl⟩ | ⟨record, hrecord, rfl | ⟨part, hpart, rfl⟩⟩)
  · exact hrows row hrow
  · have hlabel := hrecords record hrecord
    rw [length_saveName_append]
    omega
  · have hlabel := hrecords record hrecord
    have hlength := length_saveName_le_of_prefix hpart.2.1
    rw [length_saveName_append]
    omega

/-- The key chain in memory is equipped for records of a reasonable size. -/
theorem equipped_localServices {zone : Zone} {rows : List RrsetRow} {records : List TextRecord}
    (hzone : (saveName zone.name).length < 2 ^ 30)
    (hrows : ∀ row ∈ rows, (saveName (row.label ++ [row.type])).length < 2 ^ 30)
    (hrecords : ∀ record ∈ records, (saveName record.label).length < 2 ^ 20)
    (hplain : ∀ record ∈ records, record.dsk = defaultCert ∧ record.strings = [] ∧
      0 ≤ record.ttlIn zone ∧ (record.ttlIn zone * 1000).toNat < 2 ^ 64) :
    Equipped localServices (certificateName (LocalServices.keyName (zoneIdentity zone.name))) zone rows
      records := by
  have hname : ∀ {label : Name} {type : Component}, (saveName label).length < 2 ^ 30 →
      (saveName [type]).length < 2 ^ 30 →
      (saveName (Label.recordName zone.name label type)).length < 2 ^ 59 := by
    intro label type hlabel htype
    have hmarker : (saveName [Label.ndnsIterativeQuery]).length < 2 ^ 30 := by decide
    rw [Label.recordName, length_saveName_append, length_saveName_append,
      ← List.singleton_append, length_saveName_append]
    omega
  have hempty : ([] : Blob).length < 2 ^ 60 := by decide
  refine ⟨localServices_holdsKeys _, ?_, ?_, ?_, ?_, ?_⟩
  · exact fun record hrecord hne ↦ absurd (hplain record hrecord).1 hne
  · exact fun record hrecord ↦ (hplain record hrecord).2.2.1
  · intro record hrecord
    obtain ⟨-, hstrings, -, httl⟩ := hplain record hrecord
    have hlabel := hrecords record hrecord
    refine ⟨[], hstrings ▸ rfl, localServices_issuesRecord (hname (by omega) (by decide))
      (by decide) httl hempty⟩
  · intro record hrecord part hpart
    have hlabel := hrecords record hrecord
    have hlength := length_saveName_le_of_prefix hpart.2.1
    exact localServices_issuesRecord (hname (by omega) (by decide)) (by decide)
      (hplain record hrecord).2.2.2 hempty
  · intro denial hlabel hlower hupper
    have hsizes := length_namesWith hrows hrecords
    have hlabelSize : (saveName denial.1).length < 2 ^ 30 := by
      rcases hlabel with hguard | hmem
      · rw [hguard]
        decide
      · exact hsizes _ hmem
    obtain ⟨content, hcontent, hcontentSize⟩ := encodeNames_of_small
      ((hsizes _ hlower).trans (by decide)) ((hsizes _ hupper).trans (by decide))
    exact ⟨content, hcontent, localServices_issuesRecord (hname hlabelSize (by decide)) (by decide)
      (by decide) hcontentSize⟩

/-- The zone object of /n in the database it was created in. -/
def createdZone : Zone := DbMgr.lookupZone createdDatabase (Zone.named [letter 110])

/-- A record with the time as its version below /a, and a record at /c. -/
def separateRecords : List TextRecord :=
  [⟨[letter 97, letter 98], versionUseUnixTimestamp, defaultRrTtl, [], []⟩,
    ⟨[letter 99], 1, 60, [], []⟩]

theorem created_returns : (createZone [letter 110] [] 3600 [] [] []).Returns
    (World.handle localServices) ⟨Database.empty, 0⟩ createdZone ⟨createdDatabase, 9⟩ :=
  Prod.ext (by decide +kernel) rfl

theorem orderFree_separate : OrderFree localServices createdZone separateRecords createdDatabase := by
  have hequipped : Equipped localServices
      (certificateName (LocalServices.keyName (zoneIdentity createdZone.name))) createdZone
      (records createdDatabase createdZone.id) separateRecords :=
    equipped_localServices (by decide +kernel) (by decide +kernel) (by decide +kernel)
      (by decide +kernel)
  exact (orderFree_iff Database.valid_empty (by simp [Database.empty]) created_returns hequipped
    (by decide)).mpr (by decide)

/-- A record at /a/b, and a record at /a. -/
def nestedRecords : List TextRecord :=
  [⟨[letter 97, letter 98], 1, 60, [], []⟩, ⟨[letter 97], 1, 60, [], []⟩]

theorem orders_agree_nested : ∃ view,
    ¬ Finishes localServices (addAll [letter 110] nestedRecords) createdDatabase
        (fun _ db' ↦ zoneView nestedRecords createdZone.id db' = view) ∧
      Finishes localServices (addAll [letter 110] nestedRecords.reverse) createdDatabase
        fun _ db' ↦ zoneView nestedRecords createdZone.id db' = view := by
  have hequipped : Equipped localServices
      (certificateName (LocalServices.keyName (zoneIdentity createdZone.name))) createdZone
      (records createdDatabase createdZone.id) nestedRecords :=
    equipped_localServices (by decide +kernel) (by decide +kernel) (by decide +kernel)
      (by decide +kernel)
  obtain ⟨view, hview⟩ := orders_agree_iff Database.valid_empty (by simp [Database.empty])
    created_returns hequipped (by decide)
  refine ⟨view, fun hfinishes ↦ ?_, (hview _ (List.reverse_perm _)).mpr (by decide)⟩
  exact absurd ((hview _ (List.Perm.refl _)).mp hfinishes) (by decide)

/-- The AUTH record at /a that the record at /a/b needs refuses the record at /a, which makes no
trouble when it is added first. -/
theorem nestedRecords_refused :
    (createZone [letter 110] [] 3600 [] [] []).Returns (World.handle localServices)
      ⟨Database.empty, 0⟩ createdZone ⟨createdDatabase, 9⟩ ∧
    (nestedRecords.map TextRecord.label).Nodup ∧
    ((addAll [letter 110] nestedRecords).run (World.handle localServices) ⟨createdDatabase, 9⟩).1 =
      .error (.managementToolError "Can not add this Rrset: it overrides a NDNS_AUTH record" []) ∧
    ∃ last, (addAll [letter 110] nestedRecords.reverse).Returns (World.handle localServices)
      ⟨createdDatabase, 9⟩ () last :=
  ⟨created_returns, by decide, by decide +kernel, _, Prod.ext (by decide +kernel) rfl⟩

end Examples

end Ndns.Mgmt
