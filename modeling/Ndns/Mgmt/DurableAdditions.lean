import Ndns.Mgmt.ZoneFrames

/-!
# Additions that Last

An addition is a version check that removes the row it finds, an insertion that passes over an
object that has an id already, and a regeneration.  What a lookup finds afterwards is therefore
decided by two things: whether the object is a new one, and which rows under the key of the record
are behind the first one.
-/

namespace Ndns.Daemon.DbMgr

open Ndn

/-! ## Rows under a key -/

/-- The rows under a key, in the order in which they are found: the least version first. -/
def rowsAt (db : Database) (zoneId : ℕ) (label : Name) (type : Component) : List RrsetRow :=
  db.selectRrset zoneId label type

variable {db db' : Database} {zoneId : ℕ} {label : Name} {type : Component}

theorem keyRow_eq_head? : keyRow db zoneId label type = (rowsAt db zoneId label type).head? := rfl

theorem mem_rowsAt {row : RrsetRow} : row ∈ rowsAt db zoneId label type ↔
    row ∈ db.rrsets ∧ row.zoneId = zoneId ∧ row.label = label ∧ row.type = type := mem_selectRrset

theorem rowsAt_congr (h : db'.rrsets = db.rrsets) :
    rowsAt db' zoneId label type = rowsAt db zoneId label type := by
  rw [rowsAt, rowsAt, Database.selectRrset, Database.selectRrset, h]

theorem mem_rowsAt_insertRrset {version : Component} {ttl : ℤ} {data : Block} {row : RrsetRow} :
    row ∈ rowsAt (db.insertRrset zoneId label type version ttl data) zoneId label type ↔
      row ∈ rowsAt db zoneId label type ∨
        row = ⟨nextRowId (db.rrsets.map RrsetRow.id), zoneId, label, type, version, ttl, data⟩ := by
  rw [mem_rowsAt, mem_rowsAt, Database.insertRrset, List.mem_append, List.mem_singleton]
  constructor
  · rintro ⟨hold | rfl, hkey⟩
    · exact Or.inl ⟨hold, hkey⟩
    · exact Or.inr rfl
  · rintro (⟨hold, hkey⟩ | rfl)
    · exact ⟨Or.inl hold, hkey⟩
    · exact ⟨Or.inr rfl, rfl, rfl, rfl⟩

/-- A row with another label is not among them. -/
theorem rowsAt_insertRrset_of_ne {other : Name} (hne : other ≠ label) (otherId : ℕ)
    (otherType version : Component) (ttl : ℤ) (data : Block) :
    rowsAt (db.insertRrset otherId other otherType version ttl data) zoneId label type =
      rowsAt db zoneId label type := by
  rw [rowsAt, Database.selectRrset, Database.insertRrset, List.filter_append, rowsAt,
    Database.selectRrset, List.filter_cons_of_neg (by simp [hne]), List.filter_nil, List.append_nil]

/-- The unique index tells the rows of a key apart. -/
theorem eq_of_mem_rowsAt {row other : RrsetRow} (hvalid : db.Valid)
    (hrow : row ∈ rowsAt db zoneId label type) (hother : other ∈ rowsAt db zoneId label type)
    (hversion : row.version = other.version) : row = other := by
  obtain ⟨hmem, hkey⟩ := mem_rowsAt.mp hrow
  obtain ⟨hotherMem, hotherKey⟩ := mem_rowsAt.mp hother
  refine List.inj_on_of_nodup_map hvalid.index hmem hotherMem ?_
  rw [RrsetRow.indexKey, RrsetRow.indexKey, hkey.1, hkey.2.1, hkey.2.2, hotherKey.1, hotherKey.2.1,
    hotherKey.2.2, hversion]

/-- The removal of the row that is found leaves the others in their order. -/
theorem rowsAt_deleteRrset {row : RrsetRow} (hvalid : db.Valid)
    (hrow : keyRow db zoneId label type = some row) :
    rowsAt (db.deleteRrset row.id) zoneId label type = (rowsAt db zoneId label type).tail := by
  have hswap : (rowsAt (db.deleteRrset row.id) zoneId label type).Perm
      ((rowsAt db zoneId label type).filter fun other ↦ other.id ≠ row.id) := by
    refine (List.perm_insertionSort _ _).trans ?_
    refine List.Perm.trans (List.Perm.of_eq ?_) ((List.perm_insertionSort _ _).filter _).symm
    rw [Database.deleteRrset, List.filter_filter, List.filter_filter]
    exact List.filter_congr fun other _ ↦ Bool.and_comm _ _
  have htail : ((rowsAt db zoneId label type).filter fun other ↦ other.id ≠ row.id) =
      (rowsAt db zoneId label type).tail := by
    have hnodup : ((rowsAt db zoneId label type).map RrsetRow.id).Nodup :=
      (((List.perm_insertionSort _ _).map _).nodup_iff).mpr
        (hvalid.ids.sublist (List.filter_sublist.map _))
    rw [keyRow_eq_head?] at hrow
    obtain ⟨rest, hrows⟩ := List.head?_eq_some_iff.mp hrow
    rw [hrows] at hnodup ⊢
    rw [List.filter_cons_of_neg (by simp), List.tail_cons, List.filter_eq_self]
    intro other hother
    rw [List.map_cons, List.nodup_cons] at hnodup
    refine decide_eq_true fun hsame ↦ hnodup.1 ?_
    rw [← hsame]
    exact List.mem_map_of_mem hother
  rw [htail] at hswap
  have hsorted : (rowsAt db zoneId label type).Pairwise fun left right ↦
      left.indexColumns ≤ right.indexColumns := List.pairwise_insertionSort _ _
  refine hswap.eq_of_pairwise (fun left right hleft hright hle hge ↦ ?_)
    (List.pairwise_insertionSort _ _) hsorted.tail
  have hright' := List.mem_of_mem_tail hright
  have hleft' := List.mem_of_mem_tail (hswap.mem_iff.mp hleft)
  refine eq_of_mem_rowsAt hvalid hleft' hright' ?_
  obtain ⟨-, -, hlabel, htype⟩ := mem_rowsAt.mp hleft'
  obtain ⟨-, -, hlabel', htype'⟩ := mem_rowsAt.mp hright'
  have hbefore := RrsetRow.indexColumns_lt_iff (hlabel.trans hlabel'.symm) (htype.trans htype'.symm)
  have hafter := RrsetRow.indexColumns_lt_iff (hlabel'.trans hlabel.symm) (htype'.trans htype.symm)
  exact Component.encode_inj.mp (le_antisymm (not_lt.mp fun hlt ↦ hle.not_gt (hafter.mpr hlt))
    (not_lt.mp fun hlt ↦ hge.not_gt (hbefore.mpr hlt)))

theorem Cleared.rowsAt {rrset : Rrset} {cleared : Database} (h : Cleared db zoneId rrset cleared)
    (hvalid : db.Valid) (hid : zoneId ≠ 0) :
    rowsAt cleared zoneId rrset.label rrset.type =
      (DbMgr.rowsAt db zoneId rrset.label rrset.type).tail := by
  cases h with
  | absent hrow =>
      have hnone := hrow hid
      rw [keyRow_eq_head?, List.head?_eq_none_iff] at hnone
      rw [hnone, List.tail_nil]
  | older _ hrow _ => exact rowsAt_deleteRrset hvalid hrow

end Ndns.Daemon.DbMgr

namespace Ndns.Mgmt.ManagementTool

open Ndn Calls Daemon DbMgr

variable {Keys : Type} {services : Services Keys} {db db' : Database} {rrset : Rrset}
  {zone zone' : Zone}

theorem homeId_ne_zero (db : Database) (zone : Zone) : homeId db zone ≠ 0 := by
  unfold homeId
  split_ifs with hid
  · exact (nextRowId_pos _).ne'
  · exact hid

theorem Houses.resolves {zoneId : ℕ} (h : Houses db zone zoneId db') :
    (resolveZone db' zone).id = homeId db zone := by
  have hne : (resolveZone db' zone).id ≠ 0 := by
    rcases h with ⟨hid, -, rfl⟩ | ⟨hzero, hnames, -, ttl, rfl⟩
    · exact hid
    · have hzone : zone.id = 0 := by
        by_contra hne
        rw [resolveZone, if_neg hne] at hzero
        exact hne hzero
      rw [resolveZone, if_pos hzone, lookupZone_insertZone hnames]
      exact (nextRowId_pos _).ne'
  rw [← h.homeId_eq.2, homeId, if_neg hne]

/-! ## Lookups after an addition -/

/-- A row that holds a record. -/
def Holds (rrset : Rrset) (row : RrsetRow) : Prop :=
  row.version = rrset.version ∧ row.ttl = rrset.ttl ∧ row.data = rrset.data

/-- A lookup under the key of the record finds it. -/
def Finds (services : Services Keys) (world : World Keys) (zone : Zone) (rrset : Rrset) : Prop :=
  ∃ found, (DbMgr.findRrset (Rrset.keyed zone rrset.label rrset.type)).run
      (World.handle services) world = (.ok (true, found), world) ∧
    found.version = rrset.version ∧ found.ttl = rrset.ttl ∧ found.data = rrset.data

/-- The first row under the key is the one that is found. -/
theorem finds_iff {world : World Keys} (hvalid : world.db.Valid)
    (hid : (resolveZone world.db zone).id ≠ 0) : Finds services world zone rrset ↔ ∃ row ∈
      (rowsAt world.db (resolveZone world.db zone).id rrset.label rrset.type).head?,
        Holds rrset row := by
  have hfind : (DbMgr.findRrset (Rrset.keyed zone rrset.label rrset.type)).run
      (World.handle services) world = (.ok (pick (Rrset.keyed zone rrset.label rrset.type)
        (resolveZone world.db zone)
        (rowsAt world.db (resolveZone world.db zone).id rrset.label rrset.type).head?), world) := by
    rw [← keyRow_eq_head?]
    exact run_findRrset rfl world
  unfold Finds
  simp only [hfind, pick, if_neg hid]
  cases hrow : (rowsAt world.db (resolveZone world.db zone).id rrset.label rrset.type).head? with
  | none => simp
  | some row =>
      have hpos : row.id ≠ 0 :=
        (hvalid.ids_pos row (mem_rowsAt.mp (List.mem_of_head? hrow)).1).ne'
      simp [hpos, Rrset.fill, Holds]

/-- The rows that an addition leaves under the key of its record: the version check removes the
first one if it finds the zone. -/
def leftover (db : Database) (zone : Zone) (rrset : Rrset) (known : Prop) [Decidable known] :
    List RrsetRow :=
  if known then (rowsAt db (homeId db zone) rrset.label rrset.type).tail
  else rowsAt db (homeId db zone) rrset.label rrset.type

/-- With these rows left, the record is the first one under its key: it is inserted and its version
is below theirs, or it is not inserted and the first one is like it. -/
def Lands (rrset : Rrset) (left : List RrsetRow) : Prop :=
  (rrset.id = 0 ∧ ∀ row ∈ left, rrset.version.encode < row.version.encode) ∨
    (rrset.id ≠ 0 ∧ ∃ row ∈ left.head?, Holds rrset row)

/-! ## AUTH records before it -/

/-- What is known of the key of the record while AUTH records are created before it. -/
structure Awaiting (zone : Zone) (rrset : Rrset) (initial : Database) (remaining : List Name)
    (db : Database) : Prop where
  valid : db.Valid
  home : homeId db zone = homeId initial zone
  rows : rowsAt db (homeId initial zone) rrset.label rrset.type =
    rowsAt initial (homeId initial zone) rrset.label rrset.type
  suffix : remaining <:+ properPrefixes rrset.label
  known : (resolveZone db zone).id = 0 ↔
    (resolveZone initial zone).id = 0 ∧ remaining = properPrefixes rrset.label

section Awaiting

variable {initial : Database} {labelPrefix : Name} {rest : List Name}

/-- One prefix further, with the zone in the tables. -/
theorem Awaiting.advance (h : Awaiting zone rrset initial (labelPrefix :: rest) db)
    (hvalid : db'.Valid) (hid : (resolveZone db' zone).id ≠ 0)
    (hhome : homeId db' zone = homeId db zone)
    (hrows : rowsAt db' (homeId initial zone) rrset.label rrset.type =
      rowsAt db (homeId initial zone) rrset.label rrset.type) :
    Awaiting zone rrset initial rest db' := by
  refine ⟨hvalid, hhome.trans h.home, hrows.trans h.rows,
    (List.suffix_cons labelPrefix rest).trans h.suffix,
    ⟨fun hzero ↦ absurd hzero hid, fun hfirst ↦ ?_⟩⟩
  have hlength := h.suffix.length_le
  rw [← hfirst.2, List.length_cons] at hlength
  omega

theorem Awaiting.mem (h : Awaiting zone rrset initial (labelPrefix :: rest) db) :
    labelPrefix ∈ properPrefixes rrset.label := h.suffix.subset List.mem_cons_self

theorem Houses.resolves_ne_zero {zoneId : ℕ} (h : Houses db zone zoneId db') :
    (resolveZone db' zone).id ≠ 0 := h.resolves ▸ homeId_ne_zero db zone

theorem Houses.rrsets {zoneId : ℕ} (h : Houses db zone zoneId db') : db'.rrsets = db.rrsets := by
  rcases h with ⟨-, -, rfl⟩ | ⟨-, -, -, _, rfl⟩ <;> rfl

end Awaiting

theorem properPrefixes_eq_nil {label : Name} :
    properPrefixes label = [] ↔ ¬ 1 < label.length := by
  rw [properPrefixes, List.map_eq_nil_iff, List.range_eq_nil]
  omega

/-! ## Storing a record -/

section Storing

variable [PacketFormat]

/-- What storing a record has done when it returns. -/
inductive Completed (db : Database) (zone : Zone) (rrset : Rrset) : Database → Prop
  | inserted {cleared opened db' : Database} {stored : Zone} (hnew : rrset.id = 0)
      (hcleared : Cleared db zone.id rrset cleared) (hopens : Opens cleared zone stored opened)
      (hfree : ∀ row ∈ opened.rrsets,
        row.indexKey ≠ (stored.id, rrset.label, rrset.type, rrset.version))
      (hregenerates : Regenerates stored.name (lookupZone opened stored).id (opened.insertRrset
        stored.id rrset.label rrset.type rrset.version rrset.ttl rrset.data) db')
      (hrecords : records db' (lookupZone opened stored).id ≠ []) : Completed db zone rrset db'
  | kept {cleared db' : Database} (hknown : rrset.id ≠ 0) (hid : zone.id ≠ 0)
      (hcleared : Cleared db zone.id rrset cleared)
      (hregenerates : Regenerates zone.name (lookupZone cleared zone).id cleared db')
      (hrecords : records db' (lookupZone cleared zone).id ≠ []) : Completed db zone rrset db'

/-- What is known of the tables when the program returns. -/
def Succeeds {Value : Type} (services : Services Keys) (program : Prog Value) (db : Database)
    (leaves : Database → Prop) : Prop :=
  Meets services AnyChange program db fun outcome db' ↦ ∀ value, outcome = .ok value → leaves db'

theorem completes_store (hvalid : db.Valid) (hzone : rrset.zone = some zone) :
    Succeeds services (store rrset) db (Completed db (resolveZone db zone) rrset) := by
  have hgenerate : ∀ (stored : Zone) (base : Database),
      Meets services AnyChange (generateDoe stored) base (Rebuilt stored base) :=
    fun _ _ ↦ tryMeets_generateDoe fun _ _ _ _ ↦ trivial
  refine tryMeets_store hvalid hzone ?_
  constructor
  · exact fun _ _ hok ↦ by cases hok
  · exact fun _ _ _ _ ↦ trivial
  · intro hknown cleared hcleared
    refine (hgenerate _ cleared).weaken fun outcome db' hend value hvalue ↦ ?_
    cases outcome with
    | error fault => cases hvalue
    | ok regenerated =>
        obtain ⟨rfl, hid, hrecords, hregenerates⟩ := hend
        rw [← hregenerates.records] at hrecords
        refine .kept hknown (fun hzero ↦ ?_) hcleared hregenerates hrecords
        have hunknown : zone.id = 0 := by
          by_contra hne
          rw [resolveZone, if_neg hne] at hzero
          exact hne hzero
        refine hid ?_
        rw [← hzero]
        conv_rhs => rw [resolveZone, if_pos hunknown]
        exact lookupZone_id_congr hcleared.zones (resolveZone_name db zone)
  · exact fun _ _ _ _ _ ↦ trivial
  · exact fun _ _ _ _ _ _ _ _ hok ↦ by cases hok
  · intro hnew cleared stored db' hcleared hopens hfree
    refine ⟨trivial, (hgenerate _ _).weaken fun outcome db'' hend value hvalue ↦ ?_⟩
    cases outcome with
    | error fault => cases hvalue
    | ok regenerated =>
        obtain ⟨rfl, -, hrecords, hregenerates⟩ := hend
        rw [← hregenerates.records] at hrecords
        exact .inserted hnew hcleared hopens hfree hregenerates hrecords

/-- A regeneration changes denial records only. -/
theorem rowsAt_regenerates {zoneName : Name} {zoneId : ℕ} {type : Component}
    (h : Regenerates zoneName zoneId db db') (htype : type ≠ Label.doeRrType) (other : ℕ)
    (label : Name) :
    rowsAt db' other label type = rowsAt db other label type := by
  refine congrArg (List.insertionSort _)
    (h.other fun row hrow ↦ Bool.eq_false_iff.mpr fun hkey ↦ htype ?_)
  rw [← (RrsetRow.hasKey_iff.mp hkey).2.2, (RrsetRow.hasType_iff.mp hrow).2]

/-- The zone of the record can be found, and under its key are the rows that were left, with the new
one. -/
theorem Completed.rows (h : Completed db (resolveZone db zone') rrset db')
    (htracks : Tracks db zone zone') (hvalid : db.Valid) (htype : rrset.type ≠ Label.doeRrType) :
    (resolveZone db' zone).id = homeId db zone ∧
      ((rrset.id ≠ 0 ∧ rowsAt db' (homeId db zone) rrset.label rrset.type =
          leftover db zone rrset ((resolveZone db zone).id ≠ 0)) ∨
        (rrset.id = 0 ∧
          (∀ row ∈ leftover db zone rrset ((resolveZone db zone).id ≠ 0),
            row.version ≠ rrset.version) ∧
          ∃ row, Holds rrset row ∧ ∀ other,
            other ∈ rowsAt db' (homeId db zone) rrset.label rrset.type ↔
              other ∈ leftover db zone rrset ((resolveZone db zone).id ≠ 0) ∨ other = row)) := by
  have hsame := htracks.same.2
  have hcleared_rows : ∀ {cleared}, Cleared db (resolveZone db zone').id rrset cleared →
      rowsAt cleared (homeId db zone) rrset.label rrset.type =
        leftover db zone rrset ((resolveZone db zone).id ≠ 0) := by
    intro cleared hcleared
    rw [← hsame] at hcleared
    unfold leftover
    split_ifs with hid
    · rw [homeId, if_neg hid]
      exact hcleared.rowsAt hvalid hid
    · cases hcleared with
      | absent _ => rfl
      | older hne _ _ => exact absurd hne hid
  cases h with
  | kept hknown hid hcleared hregenerates _ =>
      have hrows := rowsAt_regenerates hregenerates htype (homeId db zone) rrset.label
      rw [← hsame] at hid
      refine ⟨?_, Or.inl ⟨hknown, hrows.trans (hcleared_rows hcleared)⟩⟩
      rw [resolveZone_congr (hregenerates.zones.1.trans hcleared.zones), homeId, if_neg hid]
  | inserted hnew hcleared hopens hfree hregenerates _ =>
      have hrows := rowsAt_regenerates hregenerates htype (homeId db zone) rrset.label
      obtain ⟨hhouses, -⟩ := (htracks.resolve.congr hcleared.zones).same.houses hopens
      have hhome := hhouses.homeId_eq.1.trans (homeId_congr hcleared.zones zone)
      have hopened : rowsAt _ (homeId db zone) rrset.label rrset.type = _ :=
        (rowsAt_congr hopens.rrsets).trans (hcleared_rows hcleared)
      rw [hhome] at hfree hrows
      refine ⟨?_, Or.inr ⟨hnew, fun row hrow hversion ↦ ?_, ?_⟩⟩
      · rw [resolveZone_congr hregenerates.zones.1]
        exact hhouses.resolves.trans (homeId_congr hcleared.zones zone)
      · rw [← hopened] at hrow
        obtain ⟨hmem, hzoneId, hlabel, htype'⟩ := mem_rowsAt.mp hrow
        exact hfree row hmem (by rw [RrsetRow.indexKey, hzoneId, hlabel, htype', hversion])
      · have hiff := fun other ↦ (congrArg (other ∈ ·) hrows).to_iff.trans mem_rowsAt_insertRrset
        rw [hopened] at hiff
        exact ⟨_, ⟨rfl, rfl, rfl⟩, hiff⟩

/-- The record is found exactly if it has landed. -/
theorem Completed.finds_iff {keys : Keys} (h : Completed db (resolveZone db zone') rrset db')
    (htracks : Tracks db zone zone') (hvalid : db.Valid) (hvalid' : db'.Valid)
    (htype : rrset.type ≠ Label.doeRrType) :
    Finds services ⟨db', keys⟩ zone rrset ↔
      Lands rrset (leftover db zone rrset ((resolveZone db zone).id ≠ 0)) := by
  obtain ⟨hid, hrows⟩ := h.rows htracks hvalid htype
  have hne : (resolveZone db' zone).id ≠ 0 := hid ▸ homeId_ne_zero db zone
  have hfinds := @ManagementTool.finds_iff _ services rrset zone ⟨db', keys⟩ hvalid' hne
  rw [hfinds, hid]
  generalize leftover db zone rrset ((resolveZone db zone).id ≠ 0) = left at hrows ⊢
  rcases hrows with ⟨hknown, hrows⟩ | ⟨hnew, hversions, row, hrow, hrows⟩
  · rw [hrows]
    simp [Lands, hknown]
  · rw [← keyRow_eq_head?]
    simp only [Lands, hnew, true_and, ne_eq, not_true_eq_false, false_and, or_false]
    obtain ⟨hmem, hkey⟩ := mem_rowsAt.mp ((hrows row).mpr (Or.inr rfl))
    constructor
    · rintro ⟨found, hfound, hholds⟩ other hother
      obtain ⟨hotherMem, hotherKey⟩ := mem_rowsAt.mp ((hrows other).mpr (Or.inl hother))
      have hle := keyRow_le hfound hotherMem hotherKey
      have hfoundKey := (keyRow_eq_some hfound).2
      rw [← hholds.1]
      refine lt_of_le_of_ne (not_lt.mp fun hlt ↦ hle.not_gt ?_) fun hsame ↦ ?_
      · exact (RrsetRow.indexColumns_lt_iff (hotherKey.2.1.trans hfoundKey.2.1.symm)
          (hotherKey.2.2.trans hfoundKey.2.2.symm)).mpr hlt
      · exact hversions other hother ((Component.encode_inj.mp hsame).symm.trans hholds.1)
    · intro hleast
      refine ⟨row, keyRow_of_least hmem hkey fun other hother hotherKey ↦ ?_, hrow⟩
      rcases (hrows other).mp (mem_rowsAt.mpr ⟨hother, hotherKey⟩) with hleft | rfl
      · exact Or.inr (hrow.1 ▸ hleast other hleft)
      · exact Or.inl rfl

/-! ## Additions -/

/-- The AUTH records do not touch the key of the record. -/
theorem awaits_createAuth {factory : RrsetFactory} {authTtl : ℤ} (hvalid : db.Valid)
    (htracks : Tracks db zone zone') (hsame : SameZone db zone factory.zone) :
    Succeeds services (createAuth factory authTtl { rrset with zone := some zone' }
      (properPrefixes rrset.label) >>= store) db fun db' ↦ ∃ prepared zone'',
        Awaiting zone rrset db [] prepared ∧ Tracks prepared zone zone'' ∧
          Completed prepared (resolveZone prepared zone'') { rrset with zone := some zone'' } db' := by
  have hcreate := @tryMeets_createAuth _ services AnyChange db { rrset with zone := some zone' }
    zone _ (Awaiting zone rrset db) factory authTtl (properPrefixes rrset.label)
    (fun _ _ hinv ↦ hinv.valid) (fun _ _ _ _ hinv hid _ ↦ hinv.advance hinv.valid hid rfl rfl)
    (fun _ _ _ _ _ _ _ _ _ _ _ ↦ trivial) ?_ ?_ zone' rfl htracks hsame
    ⟨hvalid, rfl, rfl, List.suffix_rfl, by simp⟩
  · refine hcreate.bind ?_ fun _ _ _ _ hok ↦ (nomatch hok)
    rintro result prepared ⟨hinv, zone'', rfl, htracks'⟩
    exact (completes_store hinv.valid rfl).weaken fun _ _ hend value hvalue ↦
      ⟨prepared, zone'', hinv, htracks', hend value hvalue⟩
  · intro labelPrefix rest db₁ zoneId db₂ version hinv hhouses _ _
    refine ⟨rest, hinv.advance (hhouses.valid hinv.valid) hhouses.resolves_ne_zero
      hhouses.homeId_eq.2 ?_⟩
    exact rowsAt_congr hhouses.rrsets
  · intro labelPrefix rest db₁ zoneId db₂ version ttl data hinv hhouses hfree _ _
    refine ⟨trivial, hinv.advance ((hhouses.valid hinv.valid).insertRrset ttl data hfree) ?_ ?_ ?_⟩
    · exact hhouses.resolves_ne_zero
    · exact (homeId_congr rfl zone).trans hhouses.homeId_eq.2
    · rw [rowsAt_insertRrset_of_ne (ne_of_mem_properPrefixes hinv.mem)]
      exact rowsAt_congr hhouses.rrsets

/-- After an addition that returns, the record is found exactly if it was new and its version is
below all that the version check has left under its key, or it was not new and the first row that is
left is like the record. -/
theorem finds_added_iff {keys : Keys} {world' : World Keys} (hvalid : db.Valid)
    (hzone : rrset.zone = some zone) (htype : rrset.type ≠ Label.doeRrType) :
    ((addRrset rrset).Returns (World.handle services) ⟨db, keys⟩ () world' →
      (Finds services world' zone rrset ↔
        Lands rrset (leftover db zone rrset ((resolveZone db zone).id ≠ 0)))) ∧
    ∀ zoneRrFactory authTtl, SameZone db zone zoneRrFactory.zone →
      (addMultiLevelLabelRrset rrset zoneRrFactory authTtl).Returns (World.handle services)
        ⟨db, keys⟩ () world' →
      (Finds services world' zone rrset ↔
        Lands rrset (leftover db zone rrset
          ((resolveZone db zone).id ≠ 0 ∨ 1 < rrset.label.length))) := by
  constructor
  · intro h
    have hstore : Succeeds services (addRrset rrset) db
        (Completed db (resolveZone db (resolveZone db zone))
          { rrset with zone := some (resolveZone db zone) }) :=
      meets_addRrset hzone (fun _ _ hok ↦ nomatch hok) fun _ ↦ completes_store hvalid rfl
    have hend := (Meets.valid hstore hvalid).run keys
    rw [h] at hend
    have hcompleted := hend.1 () rfl
    exact hcompleted.finds_iff (Tracks.resolve ⟨SameZone.refl _ _, fun _ ↦ rfl⟩) hvalid hend.2 htype
  · intro zoneRrFactory authTtl hsame h
    have hadd : Succeeds services (addMultiLevelLabelRrset rrset zoneRrFactory authTtl) db _ :=
      meets_addMultiLevelLabelRrset hvalid hzone (fun _ _ hok ↦ nomatch hok)
        fun zone' htracks _ _ ↦ awaits_createAuth hvalid htracks hsame
    have hend := (Meets.valid hadd hvalid).run keys
    rw [h] at hend
    obtain ⟨prepared, zone', hawaiting, htracks, hcompleted⟩ := hend.1 () rfl
    have hiff := @Completed.finds_iff _ services _ _ _ _ _ _ world'.keys hcompleted htracks
      hawaiting.valid hend.2 htype
    have hleft : leftover prepared zone rrset ((resolveZone prepared zone).id ≠ 0) =
        leftover db zone rrset ((resolveZone db zone).id ≠ 0 ∨ 1 < rrset.label.length) := by
      have hknown : (resolveZone prepared zone).id ≠ 0 ↔
          (resolveZone db zone).id ≠ 0 ∨ 1 < rrset.label.length := by
        rw [ne_eq, hawaiting.known, @eq_comm _ [], properPrefixes_eq_nil]
        tauto
      unfold leftover
      simp only [hknown, hawaiting.home, hawaiting.rows]
    rw [← hleft]
    exact hiff

end Storing

section Examples

open LocalServices

attribute [local instance] ndnPacketFormat

/-- A TXT record object of the zone /n, with an id or as a new one. -/
def textRrset (id version : ℕ) : Rrset :=
  ⟨id, some (lookupZone createdDatabase (Zone.named [letter 110])), [letter 97], Label.txtRrType,
    Component.fromVersion version, 3600, (Layout.encode ⟨Label.recordName [letter 110] [letter 97]
      Label.txtRrType ++ [Component.fromVersion version], 0, 0, [], [], []⟩).getD Block.invalid⟩

/-- The end of the first addition of the record. -/
def firstAddition : Except Fault Unit × World ℕ :=
  (addRrset (textRrset 0 1)).run (World.handle localServices) ⟨createdDatabase, 0⟩

/-- The end of the addition of the same object with a new version and packet. -/
def secondAddition : Except Fault Unit × World ℕ :=
  (addRrset (textRrset 6 2)).run (World.handle localServices) firstAddition.2

theorem finds_firstAddition : Finds localServices firstAddition.2
    (lookupZone createdDatabase (Zone.named [letter 110])) (textRrset 0 1) := by
  have hreturns : (addRrset (textRrset 0 1)).Returns (World.handle localServices)
      ⟨createdDatabase, 0⟩ () firstAddition.2 := Prod.ext (by decide +kernel) rfl
  exact ((finds_added_iff (creation_step.valid Database.valid_empty) rfl (by decide)).1
    hreturns).mpr (Or.inl ⟨rfl, by decide +kernel⟩)

/-- The object has the id of its row, so its second addition removes the row and inserts nothing. -/
theorem not_finds_secondAddition : firstAddition.1 = .ok () ∧
    (keyRow firstAddition.2.db 1 [letter 97] Label.txtRrType).map RrsetRow.id =
      some (textRrset 6 2).id ∧
    secondAddition.1 = .ok () ∧ ¬ Finds localServices secondAddition.2
      (lookupZone createdDatabase (Zone.named [letter 110])) (textRrset 6 2) := by
  refine ⟨by decide +kernel, by decide +kernel, by decide +kernel, ?_⟩
  rintro ⟨found, hfound, -⟩
  have hmissing : ((DbMgr.findRrset (Rrset.keyed
      (lookupZone createdDatabase (Zone.named [letter 110])) [letter 97] Label.txtRrType)).run
        (World.handle localServices) secondAddition.2).1.map Prod.fst = .ok false := by
    decide +kernel
  have hfirst := congrArg (fun result ↦ result.1.map Prod.fst) hfound
  cases hmissing.symm.trans hfirst

end Examples

end Ndns.Mgmt.ManagementTool
