import Ndns.Daemon.Issuers
import Ndns.Mgmt.DenialSoundness
import Ndns.Mgmt.LoopBounds
import Ndns.Mgmt.ServedZones

/-!
# Operations That Finish

With services that issue the records involved, the parts of an addition finish: a regeneration, the
checks that find nothing to object to, the creation of the AUTH records, and the storing of a record
under a new key.
-/

namespace Ndns.Mgmt

open Ndn Calls Daemon Order.CircularRanges

variable {Keys : Type} {services : Services Keys} {db db' : Database} {zone : Zone}

/-! ## Known zones -/

/-- The zone object is the one a lookup of its name gives. -/
structure Known (zone : Zone) (db : Database) : Prop where
  id : zone.id ≠ 0
  lookup : DbMgr.lookupZone db (Zone.named zone.name) = zone

theorem Known.congr (h : Known zone db) (hzones : db'.zones = db.zones) : Known zone db' := by
  refine ⟨h.id, Eq.trans ?_ h.lookup⟩
  rw [DbMgr.lookupZone, hzones, ← DbMgr.lookupZone]

theorem Known.lookupZone (h : Known zone db) : DbMgr.lookupZone db zone = zone := by
  have hlookup := h.lookup
  have hname : (Zone.named zone.name).name = zone.name := rfl
  unfold DbMgr.lookupZone at hlookup ⊢
  rw [hname] at hlookup
  cases hrow : db.zones.find? fun row ↦ saveName row.name = saveName zone.name with
  | some row =>
      rw [hrow] at hlookup
      exact hlookup
  | none =>
      rw [hrow] at hlookup
      exact absurd (congrArg Zone.id hlookup).symm h.id

/-- The records of a zone before and after some are added at the end. -/
structure Gains (zoneId : ℕ) (rows : List RrsetRow) (db db' : Database) : Prop where
  zones : db'.zones = db.zones
  records : records db' zoneId = records db zoneId ++ rows

theorem Gains.refl (zoneId : ℕ) (db : Database) : Gains zoneId [] db db :=
  ⟨rfl, (List.append_nil _).symm⟩

theorem Gains.trans {zoneId : ℕ} {rows rows' : List RrsetRow} {db'' : Database}
    (h : Gains zoneId rows db db') (h' : Gains zoneId rows' db' db'') :
    Gains zoneId (rows ++ rows') db db'' :=
  ⟨h'.zones.trans h.zones, by rw [h'.records, h.records, List.append_assoc]⟩

/-- A record under a new key repeats no key. -/
theorem Gains.nodup_keys {zoneId : ℕ} {row : RrsetRow} (h : Gains zoneId [row] db db')
    (hkeys : ((Mgmt.records db zoneId).map recordKey).Nodup)
    (habsent : DbMgr.keyRow db zoneId row.label row.type = none) :
    ((Mgmt.records db' zoneId).map recordKey).Nodup := by
  rw [h.records]
  refine Database.nodup_map_append_singleton hkeys fun other hother hkey ↦ ?_
  obtain ⟨hlabel, htype⟩ := recordKey_eq_iff.mp hkey
  obtain ⟨hmem, hzone, -⟩ := mem_records.mp hother
  exact DbMgr.keyRow_eq_none.mp habsent other hmem ⟨hzone, hlabel, htype⟩

/-- A lookup through an object of a known zone. -/
theorem finishes_findRrset {rrset : Rrset} (hzone : rrset.zone = some zone) (hid : zone.id ≠ 0) :
    Finishes services (DbMgr.findRrset rrset) db fun answer db' ↦
      answer = DbMgr.pick rrset zone (DbMgr.keyRow db zone.id rrset.label rrset.type) ∧
        db' = db := by
  refine finishes_of_run (fun keys ↦ ⟨keys, ?_⟩) ⟨rfl, rfl⟩
  rw [DbMgr.run_findRrset hzone, DbMgr.resolveZone, if_neg hid]

theorem pick_none {rrset : Rrset} (hzone : rrset.zone = some zone) (hid : zone.id ≠ 0) :
    DbMgr.pick rrset zone none = (false, { rrset with id := 0 }) := by
  rw [DbMgr.pick, if_neg hid, ← hzone]

theorem pick_some {rrset : Rrset} (hid : zone.id ≠ 0) {row : RrsetRow} (hrow : row.id ≠ 0) :
    DbMgr.pick rrset zone (some row) = (true, { rrset.fill row with zone := some zone }) := by
  rw [DbMgr.pick, if_neg hid]
  exact Prod.ext (decide_eq_true hrow) rfl

/-- A record under a new key is inserted. -/
theorem finishes_insertRrset {rrset : Rrset} (hzone : rrset.zone = some zone) (hid : zone.id ≠ 0)
    (hnew : rrset.id = 0) (habsent : DbMgr.keyRow db zone.id rrset.label rrset.type = none) :
    Finishes services (DbMgr.insertRrset rrset) db fun inserted db' ↦ inserted.zone = some zone ∧
      db' = db.insertRrset zone.id rrset.label rrset.type rrset.version rrset.ttl rrset.data := by
  have hfree : ¬ db.rrsets.any fun row ↦
      row.sameIndex zone.id rrset.label rrset.type rrset.version := by
    intro hany
    obtain ⟨row, hrow, hsame⟩ := List.any_eq_true.mp hany
    obtain ⟨hrowZone, hlabel, hrowType, -⟩ := RrsetRow.sameIndex_iff.mp hsame
    exact DbMgr.keyRow_eq_none.mp habsent row hrow ⟨hrowZone, hlabel, hrowType⟩
  have hrun : ∀ keys, ∃ keys', (DbMgr.insertRrset rrset).run (World.handle services) ⟨db, keys⟩ =
      (.ok { rrset with id := nextRowId (db.rrsets.map RrsetRow.id) },
        ⟨db.insertRrset zone.id rrset.label rrset.type rrset.version rrset.ttl rrset.data, keys'⟩) := by
    intro keys
    refine ⟨keys, ?_⟩
    rw [DbMgr.run_insertRrset hnew hzone (Nat.pos_of_ne_zero hid), if_neg hfree]
  exact finishes_of_run hrun ⟨hzone, rfl⟩

namespace ManagementTool

/-- The object whose zone was looked up already is the object itself. -/
theorem shareZone_of_zone {rrset copy : Rrset} (hzone : rrset.zone = some zone)
    (hcopy : copy.zone = some zone) : rrset.shareZone copy = rrset := by
  rw [Rrset.shareZone, hcopy, ← hzone]

theorem mem_properPrefixes {part label : Name} :
    part ∈ properPrefixes label ↔ IsPart part label := by
  rw [isPart_iff, properPrefixes, List.mem_map]
  constructor
  · rintro ⟨index, hindex, rfl⟩
    exact ⟨index, by rw [List.mem_range] at hindex; omega, rfl⟩
  · rintro ⟨index, hindex, rfl⟩
    exact ⟨index, List.mem_range.mpr (by omega), rfl⟩

/-- No denial record stands at the label of a denial, and none will twice. -/
structure Vacant (zoneId : ℕ) (chain : List Denial) (db : Database) : Prop where
  labels : (chain.map Prod.fst).Nodup
  absent : ∀ denial ∈ chain, DbMgr.keyRow db zoneId denial.1 Label.doeRrType = none

theorem Vacant.left {zoneId : ℕ} {chain chain' : List Denial}
    (h : Vacant zoneId (chain ++ chain') db) : Vacant zoneId chain db := by
  refine ⟨?_, fun denial hdenial ↦ h.absent denial (List.mem_append_left _ hdenial)⟩
  have hlabels := h.labels
  rw [List.map_append] at hlabels
  exact hlabels.of_append_left

/-- Without its denial records a zone has room for the chain over its records. -/
theorem vacant_recordNames {zoneId : ℕ} (hkeys : ((records db zoneId).map recordKey).Nodup) :
    Vacant zoneId (denialChain (recordNames db zoneId))
      (db.deleteRrsetsByType zoneId Label.doeRrType) := by
  refine ⟨nodup_denialLabels (nodup_recordNames hkeys) nil_notMem_recordNames, fun denial _ ↦ ?_⟩
  apply DbMgr.keyRow_eq_none.mpr
  rintro row hrow ⟨hzone, -, htype⟩
  have hkept := (List.mem_filter.mp hrow).2
  rw [RrsetRow.hasType_iff.mpr ⟨hzone, htype⟩] at hkept
  cases hkept

variable [PacketFormat]

/-! ## Regenerations -/

/-- The packet of a denial record is issued. -/
def IssuesDenial (services : Services Keys) (certName zoneName : Name) (denial : Denial) : Prop :=
  ∃ content, encodeNames [denial.2.1, denial.2.2] = some content ∧
    services.IssuesRecord certName zoneName denial.1 Label.doeRrType .doe defaultCacheTtl content

/-- The packets of all denial records over some names are issued. -/
def IssuesDenials (services : Services Keys) (certName zoneName : Name) (names : Set Name) : Prop :=
  ∀ denial : Denial, denial.1 = [] ∨ denial.1 ∈ names → denial.2.1 ∈ names → denial.2.2 ∈ names →
    IssuesDenial services certName zoneName denial

theorem IssuesDenials.chain {certName zoneName : Name} {names : List Name} {all : Set Name}
    (h : IssuesDenials services certName zoneName all) (hnames : ∀ name ∈ names, name ∈ all) :
    ∀ denial ∈ denialChain names, IssuesDenial services certName zoneName denial := by
  intro denial hdenial
  rcases mem_denialChain.mp hdenial with ⟨hrange, hlabel⟩ | ⟨first, rest, rfl, rfl⟩
  · obtain ⟨hstart, hstop⟩ := mem_ranges hrange
    apply h denial
    · exact Or.inr (hlabel ▸ hnames _ hstart)
    · exact hnames _ hstart
    · exact hnames _ hstop
  · have hclosing : closing first rest ∈ ranges (first :: rest) := by
      rw [ranges, rangesFrom_eq]
      exact List.mem_append_right _ List.mem_cons_self
    obtain ⟨hstart, hstop⟩ := mem_ranges hclosing
    exact h _ (Or.inl rfl) (hnames _ hstart) (hnames _ hstop)

theorem Vacant.right {zoneName : Name} {zoneId : ℕ} {chain chain' : List Denial}
    (h : Vacant zoneId (chain ++ chain') db) (happends : Appends zoneName zoneId chain db db') :
    Vacant zoneId chain' db' := by
  have hlabels := h.labels
  rw [List.map_append, List.nodup_append] at hlabels
  obtain ⟨rows, hrows, rfl⟩ := happends
  refine ⟨hlabels.2.1, fun denial hdenial ↦ DbMgr.keyRow_eq_none.mpr ?_⟩
  intro row hrow
  rcases List.mem_append.mp hrow with hold | hnew
  · exact DbMgr.keyRow_eq_none.mp (h.absent denial (List.mem_append_right _ hdenial)) row hold
  · obtain ⟨other, hother, hisDenial⟩ := forall₂_mem_left hrows hnew
    rintro ⟨-, hlabel, -⟩
    apply hlabels.2.2 other.1 (List.mem_map_of_mem hother) denial.1 (List.mem_map_of_mem hdenial)
    rw [← hlabel, hisDenial.label]

section Chain

variable {factory : RrsetFactory}

theorem finishes_insertDoe {label lowerLabel upperLabel : Name} (hchecked : factory.checked = true)
    (hid : factory.zone.id ≠ 0)
    (hissues : IssuesDenial services factory.dskCertName factory.zone.name
      (label, lowerLabel, upperLabel))
    (habsent : DbMgr.keyRow db factory.zone.id label Label.doeRrType = none) :
    Finishes services (insertDoe factory label lowerLabel upperLabel) db fun _ db' ↦
      Appends factory.zone.name factory.zone.id [(label, lowerLabel, upperLabel)] db db' := by
  have hfinishes : Finishes services (insertDoe factory label lowerLabel upperLabel) db
      fun _ _ ↦ True := by
    obtain ⟨content, hcontent, hissues⟩ := hissues
    unfold insertDoe RrsetFactory.generateDoeRrset
    rw [hcontent]
    have httl : factory.effectiveTtl defaultCacheTtl = defaultCacheTtl := if_neg (by decide)
    rw [← httl] at hissues
    have hgenerate := @RrsetFactory.finishes_generateRrset _ services db _ factory label
      Label.doeRrType .doe defaultCacheTtl content versionUseUnixTimestamp hchecked
      (httl ▸ (by decide : (0 : ℤ) ≤ defaultCacheTtl)) hissues
    refine hgenerate.bind fun doe db₁ hdoe ↦ ?_
    obtain ⟨rfl, hdoe⟩ := hdoe
    rw [← hdoe.label, ← hdoe.type] at habsent
    have hinsert := @finishes_insertRrset _ services _ _ _ hdoe.zone hid hdoe.id habsent
    exact hinsert.bind fun _ _ _ ↦ finishes_pure trivial
  refine (hfinishes.and_returns fun keys _ world' hreturns ↦ ?_).weaken fun _ _ hend ↦ hend.2
  exact returns_insertDoe hid hreturns

theorem finishes_insertRanges {first : Rrset} {rest : List Rrset} (hchecked : factory.checked = true)
    (hid : factory.zone.id ≠ 0)
    (hissues : ∀ denial ∈ (neighbours (doeName first) (rest.map doeName)).map
      (fun range ↦ (range.1, range)),
      IssuesDenial services factory.dskCertName factory.zone.name denial)
    (hvacant : Vacant factory.zone.id ((neighbours (doeName first) (rest.map doeName)).map
      fun range ↦ (range.1, range)) db) :
    Finishes services (insertRanges factory (first :: rest)) db fun _ db' ↦
      Appends factory.zone.name factory.zone.id ((neighbours (doeName first)
        (rest.map doeName)).map fun range ↦ (range.1, range)) db db' := by
  induction rest generalizing first db with
  | nil => exact finishes_pure (Appends.nil db)
  | cons second rest ih =>
      rw [List.map_cons, neighbours, List.map_cons] at hissues hvacant ⊢
      have hhead := hissues _ List.mem_cons_self
      have hinsert := finishes_insertDoe hchecked hid hhead (hvacant.absent _ List.mem_cons_self)
      refine hinsert.bind fun _ db₁ happends ↦ ?_
      rw [← List.singleton_append] at hvacant
      have hrest := ih (fun denial hdenial ↦ hissues denial (List.mem_cons_of_mem _ hdenial))
        (hvacant.right happends)
      exact hrest.weaken fun _ _ hrest ↦ happends.append hrest

/-- The chain over some records is inserted when each of its packets is issued. -/
theorem finishes_insertChain {allRecords : List Rrset} (hne : allRecords ≠ [])
    (hchecked : factory.checked = true) (hid : factory.zone.id ≠ 0)
    (hissues : ∀ denial ∈ denialChain (allRecords.map doeName),
      IssuesDenial services factory.dskCertName factory.zone.name denial)
    (hvacant : Vacant factory.zone.id (denialChain (allRecords.map doeName)) db) :
    Finishes services (insertChain factory allRecords) db fun _ db' ↦
      Appends factory.zone.name factory.zone.id (denialChain (allRecords.map doeName)) db db' := by
  obtain ⟨first, rest, rfl⟩ := List.exists_cons_of_ne_nil hne
  have hlastName : doeName (rest.getLastD first) = (rest.map doeName).getLastD (doeName first) :=
    List.getLastD_map.symm
  rw [List.map_cons, denialChain, ranges, rangesFrom_eq, List.map_append, closing, ← hlastName,
    List.append_assoc] at hissues hvacant ⊢
  have hranges := finishes_insertRanges hchecked hid
    (fun denial hdenial ↦ hissues denial (List.mem_append_left _ hdenial)) hvacant.left
  refine hranges.bind fun _ db₁ happends₁ ↦ ?_
  have hvacant₁ := hvacant.right happends₁
  have hlast := finishes_insertDoe hchecked hid
    (hissues _ (List.mem_append_right _ List.mem_cons_self)) (hvacant₁.absent _ List.mem_cons_self)
  refine hlast.bind fun _ db₂ happends₂ ↦ ?_
  have hvacant₂ := hvacant₁.right happends₂
  have hguard := finishes_insertDoe hchecked hid
    (hissues _ (List.mem_append_right _ (List.mem_cons_of_mem _ List.mem_cons_self)))
    (hvacant₂.absent _ List.mem_cons_self)
  refine hguard.weaken fun _ db₃ happends₃ ↦ ?_
  exact happends₁.append (happends₂.append happends₃)

end Chain

/-- A regeneration finishes when the packets of the chain are issued. -/
theorem finishes_generateDoe {certName : Name}
    (hholds : services.HoldsKeys (zoneIdentity zone.name) certName) (hknown : Known zone db)
    (hne : records db zone.id ≠ []) (hkeys : ((records db zone.id).map recordKey).Nodup)
    (hissues : ∀ denial ∈ denialChain (recordNames db zone.id),
      IssuesDenial services certName zone.name denial) :
    Finishes services (generateDoe zone) db fun _ db' ↦ Regenerates zone.name zone.id db db' := by
  have hlookup := hknown.lookupZone
  have hid : (DbMgr.lookupZone db zone).id ≠ 0 := hlookup.symm ▸ hknown.id
  have hfinishes : Finishes services (generateDoe zone) db fun _ _ ↦ True := by
    rintro ⟨tables, keys⟩ hdb
    obtain rfl : db = tables := hdb.symm
    obtain ⟨allRecords, hnames, hrun⟩ := @run_generateDoe _ _ services db zone hid keys
    rw [hlookup] at hnames hrun
    have hdeleted : Known zone (db.deleteRrsetsByType zone.id Label.doeRrType) := hknown.congr rfl
    have hnonempty : allRecords ≠ [] := by
      rintro rfl
      exact hne (recordNames_eq_nil.mp hnames.symm)
    have hfound : (DbMgr.lookupZone (db.deleteRrsetsByType zone.id Label.doeRrType)
        (Zone.named zone.name)).id ≠ 0 := hdeleted.lookup.symm ▸ hknown.id
    have hchain := @finishes_insertChain _ services (db.deleteRrsetsByType zone.id Label.doeRrType)
      _ ⟨zone, certName, true⟩ allRecords hnonempty rfl hknown.id (hnames.symm ▸ hissues)
      (hnames.symm ▸ vacant_recordNames hkeys)
    have hrebuild : Finishes services (rebuild zone allRecords)
        (db.deleteRrsetsByType zone.id Label.doeRrType) fun _ _ ↦ True := by
      refine RrsetFactory.finishes_checkedFactory hholds (fun hdefault ↦ absurd rfl hdefault)
        hfound ?_
      rw [hdeleted.lookup, RrsetFactory.chosenCert, if_pos rfl]
      exact hchain.bind fun _ _ _ ↦ finishes_pure trivial
    obtain ⟨value, world', hreturns, -⟩ := hrebuild ⟨_, keys⟩ rfl
    exact ⟨value, world', hrun.trans hreturns, trivial⟩
  refine (hfinishes.and_returns fun keys regenerated world' hreturns ↦ ?_).weaken
    fun _ _ hend ↦ hend.2
  obtain ⟨rfl, -, -, hregenerates⟩ := returns_generateDoe hreturns
  rwa [hlookup] at hregenerates

/-! ## Checks -/

/-- A check refuses nothing when the record it looks for is absent, or of another content type. -/
theorem finishes_refuse {rrset : Rrset} {contentType : NdnsContentType} {fault : Fault}
    (hzone : rrset.zone = some zone) (hid : zone.id ≠ 0)
    (hrow : ∀ row, DbMgr.keyRow db zone.id rrset.label rrset.type = some row → row.id ≠ 0 ∧
      ∃ data, PacketFormat.decode row.data = some data ∧
        NdnsContentType.ofCode data.contentType ≠ contentType) :
    Finishes services (refuse rrset contentType fault) db fun result db' ↦
      result.zone = some zone ∧ db' = db := by
  refine (finishes_findRrset hzone hid).bind fun answer db₁ hanswer ↦ ?_
  obtain ⟨rfl, rfl⟩ := hanswer
  cases hfound : DbMgr.keyRow db₁ zone.id rrset.label rrset.type with
  | none =>
      rw [pick_none hzone hid]
      exact finishes_pure ⟨hzone, rfl⟩
  | some row =>
      obtain ⟨hrowId, data, hdecode, hdiffers⟩ := hrow row hfound
      have hfill : (rrset.fill row).data = row.data := rfl
      rw [pick_some hid hrowId]
      simp only [if_true, hfill, hdecode, orThrow, Program.pure_bind, require, if_pos hdiffers]
      exact finishes_pure ⟨rfl, rfl⟩

/-- No proper prefix holds a delegation. -/
theorem finishes_checkNoDelegation {rrset : Rrset} {parts : List Name}
    (hzone : rrset.zone = some zone) (hid : zone.id ≠ 0)
    (hrow : ∀ part ∈ parts, ∀ row, DbMgr.keyRow db zone.id part Label.nsRrType = some row →
      row.id ≠ 0 ∧ ∃ data, PacketFormat.decode row.data = some data ∧
        NdnsContentType.ofCode data.contentType ≠ .link) :
    Finishes services (checkNoDelegation rrset parts) db fun result db' ↦
      result = rrset ∧ db' = db := by
  induction parts with
  | nil => exact finishes_pure ⟨rfl, rfl⟩
  | cons part rest ih =>
      have hcheck := @finishes_refuse _ services db zone _ (nsAt rrset part) .link
        (.managementToolError "Cannot override (NDNS_LINK)" part) hzone hid
        (hrow part List.mem_cons_self)
      refine hcheck.bind fun copy db₁ hcopy ↦ ?_
      obtain ⟨hcopyZone, rfl⟩ := hcopy
      rw [shareZone_of_zone hzone hcopyZone]
      exact ih fun other hother ↦ hrow other (List.mem_cons_of_mem _ hother)

/-! ## AUTH records -/

/-- The missing AUTH records are created, and nothing else is. -/
theorem finishes_createAuth {rrset : Rrset} {factory : RrsetFactory} {authTtl : ℤ}
    {parts : List Name} (hzone : rrset.zone = some zone) (hid : zone.id ≠ 0)
    (hfactory : factory.zone = zone) (hchecked : factory.checked = true)
    (httl : 0 ≤ factory.effectiveTtl authTtl)
    (hissues : ∀ part ∈ parts, services.IssuesRecord factory.dskCertName zone.name part
      Label.nsRrType .auth (factory.effectiveTtl authTtl) [])
    (hvalid : db.Valid) (hkeys : ((records db zone.id).map recordKey).Nodup) :
    Finishes services (createAuth factory authTtl rrset parts) db fun result db' ↦
      result = rrset ∧ ∃ rows, Gains zone.id rows db db' ∧
        (∀ row ∈ rows, row.label ∈ parts ∧ IsAuth zone.name row) ∧
        ((records db' zone.id).map recordKey).Nodup ∧
        ∀ part ∈ parts, ∃ row ∈ records db' zone.id, row.label = part ∧
          row.type = Label.nsRrType := by
  induction parts generalizing db with
  | nil =>
      refine finishes_pure ⟨rfl, [], Gains.refl _ _, ?_, hkeys, ?_⟩
      · simp
      · simp
  | cons part rest ih =>
      have hrest := fun other hother ↦ hissues other (List.mem_cons_of_mem part hother)
      have hns : Label.nsRrType ≠ Label.doeRrType := by decide
      have hnsZone : (nsAt rrset part).zone = some zone := hzone
      have hfind : Finishes services (DbMgr.findRrset (nsAt rrset part)) db fun answer db' ↦
          answer = DbMgr.pick (nsAt rrset part) zone
            (DbMgr.keyRow db zone.id part Label.nsRrType) ∧ db' = db :=
        finishes_findRrset hnsZone hid
      refine hfind.bind fun answer db₁ hanswer ↦ ?_
      obtain ⟨rfl, rfl⟩ := hanswer
      cases hfound : DbMgr.keyRow db₁ zone.id part Label.nsRrType with
      | some row =>
          obtain ⟨hmem, hlabel, htype⟩ := mem_records_of_keyRow hns hfound
          rw [pick_some hid (hvalid.ids_pos row (mem_records.mp hmem).1).ne']
          simp only [if_true]
          rw [shareZone_of_zone hzone rfl]
          refine (ih hrest hvalid hkeys).weaken fun result db' hend ↦ ?_
          obtain ⟨hresult, rows, hgains, hrows, hkeys', hparts⟩ := hend
          refine ⟨hresult, rows, hgains, fun other hother ↦ ?_, hkeys', ?_⟩
          · exact ⟨List.mem_cons_of_mem _ (hrows other hother).1, (hrows other hother).2⟩
          · refine List.forall_mem_cons.mpr ⟨⟨row, ?_, hlabel, htype⟩, hparts⟩
            rw [hgains.records]
            exact List.mem_append_left _ hmem
      | none =>
          have hpick : DbMgr.pick (nsAt rrset part) zone none = (false, nsAt rrset part) :=
            pick_none hnsZone hid
          rw [hpick]
          simp only [Bool.false_eq_true, if_false]
          have hauthIssues : services.IssuesRecord factory.dskCertName factory.zone.name part
              Label.nsRrType .auth (factory.effectiveTtl authTtl) [] := by
            rw [hfactory]
            exact hissues part List.mem_cons_self
          have hgenerate := @RrsetFactory.finishes_generateRrset _ services db₁ _ factory part
            Label.nsRrType .auth authTtl [] versionUseUnixTimestamp hchecked httl hauthIssues
          refine hgenerate.bind fun auth db₂ hauth ↦ ?_
          obtain ⟨rfl, hauth⟩ := hauth
          have hauthZone : auth.zone = some zone := hfactory ▸ hauth.zone
          have habsent : DbMgr.keyRow db₂ zone.id auth.label auth.type = none := by
            rw [hauth.label, hauth.type]
            exact hfound
          have hinsert := (finishes_insertRrset hauthZone hid hauth.id habsent).and_returns
            fun keys _ world' hreturns ↦ @valid_of_returns _ _ services _ _ _ _ hvalid hreturns
          refine hinsert.bind fun inserted db₃ hinserted ↦ ?_
          obtain ⟨⟨hinsertedZone, hdb₃⟩, hvalid₃⟩ := hinserted
          have hsame : { factory with zone := zone } = factory := by rw [← hfactory]
          rw [shareZone_of_zone hzone hnsZone, hinsertedZone, Option.getD_some, hsame]
          have hrow : ∃ row, Gains zone.id [row] db₂ db₃ ∧ row.label = part ∧
              IsAuth zone.name row := by
            have hcarries := hauth.carries
            rw [hfactory] at hcarries
            refine ⟨insertedRow auth (nextRowId (db₂.rrsets.map RrsetRow.id)) zone.id, ?_, ?_⟩
            · rw [hdb₃]
              exact ⟨rfl, records_insertRrset (hauth.type ▸ hns) _ _ _ _⟩
            · refine ⟨hauth.label, hauth.type, ?_⟩
              rw [← hauth.label, ← hauth.type] at hcarries
              exact hcarries
          obtain ⟨row, hgain, hlabel, hisAuth⟩ := hrow
          rw [← hlabel, ← hisAuth.1] at hfound
          have hkeys₃ := hgain.nodup_keys hkeys hfound
          refine (ih hrest hvalid₃ hkeys₃).weaken fun result db' hend ↦ ?_
          obtain ⟨hresult, rows, hgains, hrows, hkeys', hparts⟩ := hend
          refine ⟨hresult, row :: rows, hgain.trans hgains, ?_, hkeys', ?_⟩
          · refine List.forall_mem_cons.mpr ⟨⟨hlabel ▸ List.mem_cons_self, hisAuth⟩, ?_⟩
            intro other hother
            exact ⟨List.mem_cons_of_mem _ (hrows other hother).1, (hrows other hother).2⟩
          · refine List.forall_mem_cons.mpr ⟨⟨row, ?_, hlabel, hisAuth.1⟩, hparts⟩
            rw [hgains.records, hgain.records]
            exact List.mem_append_left _ (List.mem_append_right _ List.mem_cons_self)

/-! ## Storing -/

/-- Storing a record under a new key finishes with the record added and the chain over all. -/
theorem finishes_store {rrset : Rrset} {certName : Name} {names : Set Name}
    (hholds : services.HoldsKeys (zoneIdentity zone.name) certName) (hknown : Known zone db)
    (hzone : rrset.zone = some zone) (hnew : rrset.id = 0) (htype : rrset.type ≠ Label.doeRrType)
    (hkeys : ((records db zone.id).map recordKey).Nodup)
    (habsent : DbMgr.keyRow db zone.id rrset.label rrset.type = none)
    (hissues : IssuesDenials services certName zone.name names)
    (hnames : ∀ name ∈ recordNames db zone.id, name ∈ names)
    (hname : rrset.label ++ [rrset.type] ∈ names) :
    Finishes services (store rrset) db fun _ db' ↦
      (∃ id, Gains zone.id [insertedRow rrset id zone.id] db db') ∧
        ((records db' zone.id).map recordKey).Nodup ∧ Chained zone.name zone.id db' := by
  have hcheck : Finishes services (checkRrsetVersion rrset) db fun checked db' ↦
      checked = rrset ∧ db' = db := by
    refine (finishes_findRrset hzone hknown.id).bind fun answer db₁ hanswer ↦ ?_
    obtain ⟨rfl, rfl⟩ := hanswer
    rw [habsent, pick_none hzone hknown.id]
    exact finishes_pure ⟨rfl, rfl⟩
  refine hcheck.bind fun checked db₁ hchecked ↦ ?_
  obtain ⟨rfl, rfl⟩ := hchecked
  refine (finishes_insertRrset hzone hknown.id hnew habsent).bind fun inserted db₂ hinserted ↦ ?_
  obtain ⟨hinsertedZone, hdb₂⟩ := hinserted
  have hgains : Gains zone.id [insertedRow checked (nextRowId (db₁.rrsets.map RrsetRow.id)) zone.id]
      db₁ db₂ := by
    rw [hdb₂]
    exact ⟨rfl, records_insertRrset htype _ _ _ _⟩
  rw [hinsertedZone]
  have hne : records db₂ zone.id ≠ [] := by
    rw [hgains.records]
    simp
  have hkeys₂ := hgains.nodup_keys hkeys habsent
  have hnames₂ : ∀ name ∈ recordNames db₂ zone.id, name ∈ names := by
    intro name hmem
    obtain ⟨row, hrow, rfl⟩ := mem_recordNames.mp hmem
    rw [hgains.records] at hrow
    rcases List.mem_append.mp hrow with hold | hnewRow
    · exact hnames _ (mem_recordNames.mpr ⟨row, hold, rfl⟩)
    · rw [List.mem_singleton.mp hnewRow]
      exact hname
  have hgenerate := finishes_generateDoe hholds (hknown.congr hgains.zones) hne hkeys₂
    (hissues.chain hnames₂)
  refine hgenerate.bind fun _ db₃ hregenerates ↦ finishes_pure
    ⟨⟨nextRowId (db₁.rrsets.map RrsetRow.id), ?_⟩, ?_, hregenerates.chained⟩
  · exact ⟨hregenerates.zones.1.trans hgains.zones, (hregenerates.records _).trans hgains.records⟩
  · rwa [hregenerates.records]

/-! ## Additions -/

/-- What an addition finds and leaves: the AUTH records it created, the record, and the chain. -/
structure Adds (zone : Zone) (rrset : Rrset) (db db' : Database) : Prop where
  gains : ∃ rows id, Gains zone.id (rows ++ [insertedRow rrset id zone.id]) db db' ∧
    ∀ row ∈ rows, IsPart row.label rrset.label ∧ IsAuth zone.name row
  parts : ∀ part, IsPart part rrset.label → ∃ row ∈ records db' zone.id, row.label = part ∧
    row.type = Label.nsRrType
  keys : ((records db' zone.id).map recordKey).Nodup
  chained : Chained zone.name zone.id db'

section Additions

variable {rrset : Rrset} {certName : Name} {names : Set Name}

/-- The addition of a record with a label of at most one component, where no AUTH record is. -/
theorem finishes_addRrset
    (hholds : services.HoldsKeys (zoneIdentity zone.name) certName) (hknown : Known zone db)
    (hzone : rrset.zone = some zone) (hnew : rrset.id = 0) (htype : rrset.type ≠ Label.doeRrType)
    (hkeys : ((records db zone.id).map recordKey).Nodup)
    (habsent : DbMgr.keyRow db zone.id rrset.label rrset.type = none)
    (hissues : IssuesDenials services certName zone.name names)
    (hnames : ∀ name ∈ recordNames db zone.id, name ∈ names)
    (hname : rrset.label ++ [rrset.type] ∈ names) (hlabel : rrset.label.length ≤ 1)
    (hfree : DbMgr.keyRow db zone.id rrset.label Label.nsRrType = none) :
    Finishes services (addRrset rrset) db fun _ db' ↦ Adds zone rrset db db' := by
  have hnone : ∀ part, ¬ IsPart part rrset.label := by
    intro part hpart
    obtain ⟨index, hindex, -⟩ := isPart_iff.mp hpart
    omega
  have hrefuse := @finishes_refuse _ services db zone _ { rrset with type := Label.nsRrType } .auth
    (.managementToolError "Can not add this Rrset: it overrides a NDNS_AUTH record" [])
    hzone hknown.id fun row hrow ↦ by rw [hfree] at hrow; cases hrow
  refine hrefuse.bind fun copy db₁ hcopy ↦ ?_
  obtain ⟨hcopyZone, rfl⟩ := hcopy
  rw [shareZone_of_zone hzone hcopyZone]
  have hstore := finishes_store hholds hknown hzone hnew htype hkeys habsent hissues hnames hname
  refine hstore.weaken fun _ db₂ hend ↦ ?_
  obtain ⟨⟨id, hgains⟩, hkeys₂, hchained⟩ := hend
  refine ⟨⟨[], id, hgains, ?_⟩, fun part hpart ↦ absurd hpart (hnone part), hkeys₂, hchained⟩
  simp

/-- The addition of a record with a longer label, where no prefix is delegated. -/
theorem finishes_addMultiLevelLabelRrset {factory : RrsetFactory} {authTtl : ℤ}
    (hholds : services.HoldsKeys (zoneIdentity zone.name) certName) (hknown : Known zone db)
    (hzone : rrset.zone = some zone) (hnew : rrset.id = 0) (htype : rrset.type ≠ Label.doeRrType)
    (hns : rrset.type ≠ Label.nsRrType) (hvalid : db.Valid)
    (hkeys : ((records db zone.id).map recordKey).Nodup)
    (habsent : DbMgr.keyRow db zone.id rrset.label rrset.type = none)
    (hissues : IssuesDenials services certName zone.name names)
    (hnames : ∀ name ∈ recordNames db zone.id, name ∈ names)
    (hname : rrset.label ++ [rrset.type] ∈ names) (hlabel : 1 < rrset.label.length)
    (hauths : ∀ part, IsPart part rrset.label → part ++ [Label.nsRrType] ∈ names ∧
      ∀ row, DbMgr.keyRow db zone.id part Label.nsRrType = some row → IsAuth zone.name row)
    (hfactory : factory.zone = zone) (hchecked : factory.checked = true)
    (httl : 0 ≤ factory.effectiveTtl authTtl)
    (hissuesAuth : ∀ part, IsPart part rrset.label → services.IssuesRecord factory.dskCertName
      zone.name part Label.nsRrType .auth (factory.effectiveTtl authTtl) []) :
    Finishes services (addMultiLevelLabelRrset rrset factory authTtl) db
      fun _ db' ↦ Adds zone rrset db db' := by
  have hne : rrset.label ≠ [] := List.ne_nil_of_length_pos (by omega)
  unfold addMultiLevelLabelRrset
  rw [if_neg hne]
  have hdelegation : Finishes services (checkNoDelegation rrset (properPrefixes rrset.label)) db
      fun result db' ↦ result = rrset ∧ db' = db := by
    refine finishes_checkNoDelegation hzone hknown.id fun part hpart row hrow ↦ ?_
    have hisAuth := (hauths part (mem_properPrefixes.mp hpart)).2 row hrow
    obtain ⟨hmem, -⟩ := DbMgr.keyRow_eq_some hrow
    obtain ⟨data, hdecode, -, hcode, -⟩ := hisAuth.2.decodes
    refine ⟨(hvalid.ids_pos row hmem).ne', data, hdecode, ?_⟩
    rw [hcode]
    decide
  refine hdelegation.bind fun result db₁ hresult ↦ ?_
  obtain ⟨rfl, rfl⟩ := hresult
  rw [checkNotAuth, if_neg hns, Program.pure_bind]
  have hcreate := @finishes_createAuth _ services db₁ zone _ result factory authTtl
    (properPrefixes result.label) hzone hknown.id hfactory hchecked httl
    (fun part hpart ↦ hissuesAuth part (mem_properPrefixes.mp hpart)) hvalid hkeys
  refine hcreate.bind fun created db₂ hcreated ↦ ?_
  obtain ⟨rfl, rows, hgains, hrows, hkeys₂, hparts⟩ := hcreated
  have hrows' : ∀ row ∈ rows, IsPart row.label created.label ∧ IsAuth zone.name row :=
    fun row hrow ↦ (hrows row hrow).imp_left mem_properPrefixes.mp
  have habsent₂ : DbMgr.keyRow db₂ zone.id created.label created.type = none := by
    cases hrow : DbMgr.keyRow db₂ zone.id created.label created.type with
    | none => rfl
    | some row =>
        obtain ⟨hmem, hrowLabel, hrowType⟩ := mem_records_of_keyRow htype hrow
        rw [hgains.records] at hmem
        rcases List.mem_append.mp hmem with hold | hnewRow
        · obtain ⟨hrow₁, hrowZone, -⟩ := mem_records.mp hold
          exact (DbMgr.keyRow_eq_none.mp habsent row hrow₁ ⟨hrowZone, hrowLabel, hrowType⟩).elim
        · exact absurd (hrowType.symm.trans (hrows' row hnewRow).2.1) hns
  have hnames₂ : ∀ name ∈ recordNames db₂ zone.id, name ∈ names := by
    intro name hmem
    obtain ⟨row, hrow, rfl⟩ := mem_recordNames.mp hmem
    rw [hgains.records] at hrow
    rcases List.mem_append.mp hrow with hold | hnewRow
    · exact hnames _ (mem_recordNames.mpr ⟨row, hold, rfl⟩)
    · rw [(hrows' row hnewRow).2.1]
      exact (hauths _ (hrows' row hnewRow).1).1
  have hstore := finishes_store hholds (hknown.congr hgains.zones) hzone hnew htype hkeys₂
    habsent₂ hissues hnames₂ hname
  refine hstore.weaken fun _ db₃ hend ↦ ?_
  obtain ⟨⟨id, hstored⟩, hkeys₃, hchained⟩ := hend
  refine ⟨⟨rows, id, hgains.trans hstored, hrows'⟩, fun part hpart ↦ ?_, hkeys₃, hchained⟩
  obtain ⟨row, hrow, hrowLabel, hrowType⟩ := hparts part (mem_properPrefixes.mpr hpart)
  refine ⟨row, ?_, hrowLabel, hrowType⟩
  rw [hstored.records]
  exact List.mem_append_left _ hrow

end Additions

end ManagementTool

end Ndns.Mgmt
