import Ndns.Mgmt.DenialFreshness
import Ndns.Mgmt.DenialSoundness

/-!
# The Shape of the Denial Chain

A chain is meant to link each record name to the next one in the order of names, and the greatest
one back to the least.  `generateDoe` links the records in the order of their labels and types.  The
two orders differ where the label of a record goes on from that of another one with a component
that is below the type of the other.

The test of the client on a range is compared with the interval the range stands for.
-/

namespace Ndns.Mgmt

open Ndn Calls Daemon Clients Order.CircularRanges Order.LexCode

/-! ## Orders of records -/

/-- The names of the records of a zone as a set. -/
def nameSet (db : Database) (zoneId : ℕ) : Set Name :=
  {name | ∃ row ∈ records db zoneId, row.label ++ [row.type] = name}

/-- No label of a record goes on from that of another one with a component below its type. -/
def TypesFit (db : Database) (zoneId : ℕ) : Prop :=
  ∀ row ∈ records db zoneId, ∀ other ∈ records db zoneId, ∀ next rest,
    other.label = row.label ++ next :: rest → row.type ≤ next

theorem mem_nameSet {db : Database} {zoneId : ℕ} {name : Name} :
    name ∈ nameSet db zoneId ↔ name ∈ recordNames db zoneId := mem_recordNames.symm

/-- Two keys are in the order of their names unless the second label goes on below the type. -/
theorem keyName_lt_iff {key key' : Name ×ₗ Component} (hlt : key < key') :
    keyName key < keyName key' ↔
      ∀ next rest, (ofLex key').1 = (ofLex key).1 ++ next :: rest → (ofLex key).2 ≤ next := by
  rcases Prod.Lex.lt_iff.mp hlt with hlabel | ⟨hlabel, htype⟩
  · exact append_singleton_lt_iff hlabel _ _
  · rw [keyName, keyName, hlabel]
    refine ⟨fun _ next rest heq ↦ absurd heq (by simp), fun _ ↦ List.append_left_lt ?_⟩
    exact List.cons_lt_cons_iff.mpr (Or.inl htype)

/-- The names of a zone with one record for each key are in order exactly when the types fit. -/
theorem pairwise_recordNames {db : Database} {zoneId : ℕ}
    (hkeys : ((records db zoneId).map recordKey).Nodup) :
    (recordNames db zoneId).Pairwise (· < ·) ↔ TypesFit db zoneId := by
  have hsorted : (((records db zoneId).map recordKey).insertionSort (· ≤ ·)).Pairwise (· < ·) := by
    refine ((List.pairwise_insertionSort (· ≤ ·) _).and
      ((List.perm_insertionSort (· ≤ ·) _).nodup_iff.mpr hkeys)).imp ?_
    exact fun h ↦ lt_of_le_of_ne h.1 h.2
  rw [recordNames, List.pairwise_map, pairwise_iff_of_lt hsorted]
  simp only [List.mem_insertionSort, List.mem_map, forall_exists_index, and_imp,
    forall_apply_eq_imp_iff₂]
  refine forall₂_congr fun row _ ↦ forall₂_congr fun other _ ↦ ⟨fun h next rest heq ↦ ?_,
    fun h hlt ↦ (keyName_lt_iff hlt).mpr h⟩
  have hlt : recordKey row < recordKey other := by
    refine Prod.Lex.toLex_lt_toLex.mpr (Or.inl ?_)
    rw [heq]
    simpa using (List.append_left_lt (by simp : ([] : Name) < next :: rest) :
      row.label ++ [] < row.label ++ next :: rest)
  exact (keyName_lt_iff hlt).mp (h hlt) next rest heq

/-! ## The chain -/

/-- The denials of a chain in the order of names: one for each name, and the guard. -/
def Entry (names : Set Name) (denial : Denial) : Prop :=
  (denial.1 ∈ names ∧ denial.2.1 = denial.1 ∧ Next names denial.1 denial.2.2) ∨
    (denial.1 = [] ∧ IsGreatest names denial.2.1 ∧ IsLeast names denial.2.2)

/-- A chain over names in order has exactly the denials of their set. -/
theorem mem_denialChain_iff_entry {names : Set Name} {first : Name} {rest : List Name}
    (hmem : ∀ name, name ∈ names ↔ name ∈ first :: rest)
    (hsorted : (first :: rest).Pairwise (· < ·)) (denial : Denial) :
    denial ∈ denialChain (first :: rest) ↔ Entry names denial := by
  have hleast : IsLeast names first := by
    refine ⟨(hmem first).mpr List.mem_cons_self, fun other hother ↦ ?_⟩
    rcases List.mem_cons.mp ((hmem other).mp hother) with rfl | hother
    · exact le_rfl
    · exact ((List.pairwise_cons.mp hsorted).1 other hother).le
  obtain ⟨hnext, hgreatest⟩ := next_of_pairwise hsorted (fun other ↦ (hmem other).mpr)
    (fun other hother ↦ (List.mem_cons.mp ((hmem other).mp hother)).imp le_of_eq id) hleast
  rw [mem_denialChain, Entry]
  constructor
  · rintro (⟨hrange, hlabel⟩ | ⟨_, _, hnames, rfl⟩)
    · rw [hlabel]
      exact Or.inl ⟨(hmem _).mpr (mem_ranges hrange).1, rfl, hnext _ hrange⟩
    · cases hnames
      exact Or.inr ⟨rfl, hgreatest, hleast⟩
  · rintro (⟨hname, hstart, hstop⟩ | ⟨hguard, hstart, hstop⟩)
    · have hstarts := (hmem _).mp hname
      rw [← map_fst_ranges (first :: rest)] at hstarts
      obtain ⟨range, hrange, hfst⟩ := List.mem_map.mp hstarts
      have hrange' : denial.2 = range := by
        refine Prod.ext (hstart.trans hfst.symm) (hstop.unique ?_)
        rw [← hfst]
        exact hnext range hrange
      exact Or.inl ⟨hrange' ▸ hrange, hstart.symm⟩
    · refine Or.inr ⟨first, rest, rfl, Prod.ext hguard (Prod.ext ?_ ?_)⟩
      · exact hstart.unique hgreatest
      · exact hstop.unique hleast

section Chain

variable [PacketFormat]

/-- The denial records of the zone are the chain in the order of names, one row for each denial. -/
structure WellLinked (db : Database) (zoneId : ℕ) : Prop where
  once : ((denials db zoneId).map RrsetRow.label).Nodup
  rows : ∀ row ∈ denials db zoneId,
    ∃ denial, denialOf row = some denial ∧ Entry (nameSet db zoneId) denial
  entries : ∀ denial, Entry (nameSet db zoneId) denial →
    ∃ row ∈ denials db zoneId, denialOf row = some denial

/-- A regenerated chain is the one in the order of names exactly when the names are in order. -/
theorem Regenerates.wellLinked_iff {zoneName : Name} {zoneId : ℕ} {db db' : Database}
    (h : Regenerates zoneName zoneId db db') (hne : Mgmt.records db zoneId ≠ [])
    (hkeys : ((Mgmt.records db zoneId).map recordKey).Nodup) :
    WellLinked db' zoneId ↔ (Mgmt.recordNames db zoneId).Pairwise (· < ·) := by
  have hdenials := h.denials
  have hnodup := nodup_recordNames hkeys
  have hmem : ∀ name, name ∈ nameSet db' zoneId ↔ name ∈ Mgmt.recordNames db zoneId := by
    intro name
    rw [mem_nameSet, h.recordNames]
  have hnil : [] ∉ Mgmt.recordNames db zoneId := nil_notMem_recordNames
  have hrow : ∀ row ∈ Mgmt.denials db' zoneId,
      ∃ denial ∈ denialChain (Mgmt.recordNames db zoneId), denialOf row = some denial := by
    intro row hrow
    obtain ⟨denial, hdenial, hrelated⟩ := forall₂_mem_left hdenials hrow
    exact ⟨denial, hdenial, hrelated.denialOf_eq⟩
  have hentry : ∀ denial ∈ denialChain (Mgmt.recordNames db zoneId),
      ∃ row ∈ Mgmt.denials db' zoneId, denialOf row = some denial := by
    intro denial hdenial
    obtain ⟨row, hrow, hrelated⟩ := forall₂_mem_right hdenials hdenial
    exact ⟨row, hrow, hrelated.denialOf_eq⟩
  have hlabels : (Mgmt.denials db' zoneId).map RrsetRow.label =
      (denialChain (Mgmt.recordNames db zoneId)).map Prod.fst := by
    generalize Mgmt.denials db' zoneId = rows, denialChain (Mgmt.recordNames db zoneId) = chain
      at hdenials
    induction hdenials with
    | nil => rfl
    | cons hhead _ ih => rw [List.map_cons, List.map_cons, hhead.label, ih]
  have hempty : Mgmt.recordNames db zoneId ≠ [] := fun hnil ↦ hne (recordNames_eq_nil.mp hnil)
  generalize Mgmt.recordNames db zoneId = names at *
  obtain ⟨first, rest, rfl⟩ := List.exists_cons_of_ne_nil hempty
  constructor
  · intro hlinked
    have hchain : ∀ denial ∈ denialChain (first :: rest), Entry (nameSet db' zoneId) denial := by
      intro denial hdenial
      obtain ⟨row, hmemRow, hdenialOf⟩ := hentry denial hdenial
      obtain ⟨denial', hdenialOf', hentry'⟩ := hlinked.rows row hmemRow
      rw [hdenialOf, Option.some.injEq] at hdenialOf'
      rwa [hdenialOf']
    refine @pairwise_of_next _ _ (nameSet db' zoneId) _ _ hnodup (fun range hrange ↦ ?_) ?_
    · have hranges : range ∈ ranges (first :: rest) := by
        rw [ranges, rangesFrom_eq]
        exact List.mem_append_left _ hrange
      rcases hchain (range.1, range) (mem_denialChain.mpr (Or.inl ⟨hranges, rfl⟩)) with
        ⟨-, -, hnext⟩ | ⟨hguard, -⟩
      · exact hnext
      · exact absurd (hguard ▸ (mem_ranges hranges).1) hnil
    · rcases hchain ([], closing first rest) (mem_denialChain.mpr (Or.inr ⟨first, rest, rfl, rfl⟩))
        with ⟨hname, -⟩ | ⟨-, hgreatest, -⟩
      · exact absurd ((hmem _).mp hname) hnil
      · exact hgreatest
  · intro hsorted
    refine ⟨?_, fun row hmemRow ↦ ?_, fun denial hdenial ↦ ?_⟩
    · rw [hlabels]
      exact nodup_denialLabels hnodup hnil
    · obtain ⟨denial, hdenial, hdenialOf⟩ := hrow row hmemRow
      exact ⟨denial, hdenialOf, (mem_denialChain_iff_entry hmem hsorted denial).mp hdenial⟩
    · exact hentry denial ((mem_denialChain_iff_entry hmem hsorted denial).mpr hdenial)

namespace ManagementTool

variable {Keys : Type} {services : Services Keys} {world world' : World Keys}

/-- The chain `generateDoe` leaves links each name to the next one exactly when the types fit. -/
theorem generateDoe_wellLinked_iff {zone zone' : Zone}
    (hkeys : ((records world.db (DbMgr.lookupZone world.db zone).id).map recordKey).Nodup)
    (h : (generateDoe zone).Returns (World.handle services) world zone' world') :
    WellLinked world'.db zone'.id ↔ TypesFit world.db (DbMgr.lookupZone world.db zone).id := by
  obtain ⟨rfl, -, hne, hregenerates⟩ := returns_generateDoe h
  rw [hregenerates.wellLinked_iff hne hkeys, pairwise_recordNames hkeys]

end ManagementTool

end Chain

section Examples

open LocalServices

attribute [local instance] ndnPacketFormat

theorem generateDoe_wellLinked_pair :
    WellLinked (regenerated [[letter 97], [letter 98]]).2.db 1 := by
  refine (@ManagementTool.generateDoe_wellLinked_iff _ _ localServices
    ⟨txtDatabase [[letter 97], [letter 98]], 0⟩ (regenerated [[letter 97], [letter 98]]).2
    (Zone.named [letter 110]) ⟨1, [letter 110], 3600⟩ (by decide) (Prod.ext rfl rfl)).mpr ?_
  intro row hrow other hother next rest hlabel
  have hlength : ∀ row ∈ records (txtDatabase [[letter 97], [letter 98]]) 1,
      row.label.length = 1 := by decide
  have htotal := congrArg List.length hlabel
  rw [hlength other hother, List.length_append, hlength row hrow, List.length_cons] at htotal
  omega

/-- With records at a label and below it, the guard leads from the least name to the greatest. -/
theorem generateDoe_misordered :
    ∃ zone' world', (ManagementTool.generateDoe (Zone.named [letter 110])).Returns
        (World.handle localServices)
        ⟨txtDatabase [[letter 97], [letter 97, letter 98]], 0⟩ zone' world' ∧
      ¬ WellLinked world'.db zone'.id := by
  refine ⟨⟨1, [letter 110], 3600⟩, (regenerated [[letter 97], [letter 97, letter 98]]).2,
    Prod.ext rfl rfl, fun hlinked ↦ ?_⟩
  have hguard : ∃ row ∈ denials (regenerated [[letter 97], [letter 97, letter 98]]).2.db 1,
      denialOf row = some ([], [letter 97, letter 98, Label.txtRrType],
        [letter 97, Label.txtRrType]) := by decide
  obtain ⟨row, hrow, hdenial⟩ := hguard
  obtain ⟨denial, hdenial', hentry⟩ := hlinked.rows row hrow
  rw [hdenial, Option.some.injEq] at hdenial'
  rw [← hdenial'] at hentry
  rcases hentry with ⟨⟨record, -, hname⟩, -⟩ | ⟨-, hgreatest, -⟩
  · simp at hname
  · have hmem : [letter 97, Label.txtRrType] ∈
        nameSet (regenerated [[letter 97], [letter 97, letter 98]]).2.db 1 :=
      mem_nameSet.mpr (by decide)
    exact absurd (hgreatest.2 hmem) (by decide)

end Examples

/-! ## The test of the client -/

/-- The client finds a name absent exactly when it is on the way around from the start of the range
to its end: on ascending ranges always, on descending ones for the names on the way, and where the
ends are equal for the end itself. -/
theorem isAbsentByDoe_between_iff {controller : IterativeQueryController} {data : Data}
    {range : Name × Name} (h : Response.wireDecodeDoe data.content = some range) :
    (controller.isAbsentByDoe data = .ok true ↔ Between range controller.lastLabelType) ↔
      range.1 < range.2 ∨
        (range.2 < range.1 ∧
          (range.1 < controller.lastLabelType ∨ controller.lastLabelType < range.2)) ∨
        (range.1 = range.2 ∧ controller.lastLabelType = range.1) := by
  rw [isAbsentByDoe_eq h, Except.ok.injEq, isAbsentByRange_iff]
  exact excludes_iff_between_iff

section Examples

open LocalServices

/-- A denial with the given range, and a resolver that has asked for the given name. -/
def denialData (range : Name × Name) : Data :=
  ⟨[], NdnsContentType.doe.toCode, 0, (encodeNames [range.1, range.2]).getD [], [], []⟩

def askedFor (name : Name) : IterativeQueryController :=
  ⟨[], Label.txtRrType, 0, .queryNs, 0, 1, none, name⟩

theorem isAbsentByDoe_between_ascending :
    (askedFor [letter 98]).isAbsentByDoe (denialData ([letter 97], [letter 99])) = .ok true ↔
      Between ([letter 97], [letter 99]) [letter 98] :=
  (@isAbsentByDoe_between_iff (askedFor [letter 98]) (denialData ([letter 97], [letter 99]))
    ([letter 97], [letter 99]) (by decide)).mpr (Or.inl (by decide))

/-- The end of a descending range counts as absent, and around a range with equal ends nothing
does. -/
theorem isAbsentByDoe_end :
    Response.wireDecodeDoe (denialData ([letter 98], [letter 97])).content =
        some ([letter 98], [letter 97]) ∧
      (askedFor [letter 98]).isAbsentByDoe (denialData ([letter 98], [letter 97])) = .ok true ∧
      ¬ Between ([letter 98], [letter 97]) [letter 98] ∧
      Response.wireDecodeDoe (denialData ([letter 97], [letter 97])).content =
        some ([letter 97], [letter 97]) ∧
      (askedFor [letter 98]).isAbsentByDoe (denialData ([letter 97], [letter 97])) = .ok false ∧
      Between ([letter 97], [letter 97]) [letter 98] := by
  refine ⟨by decide, by decide, fun hbetween ↦ hbetween.ne.1 rfl, by decide, by decide, ?_⟩
  simp only [Between, lt_irrefl, if_false]
  decide

end Examples

end Ndns.Mgmt
