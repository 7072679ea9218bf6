import Ndns.Daemon.QueryRules
import Ndns.Daemon.UpdateIntegrity
import Ndns.Mgmt.DenialSoundness
import Mathlib.Data.Set.Finite.Lemmas

/-!
# Completeness of the Denial Chain

A query is denied with the record of the greatest label below it.  The chain is sorted by label
and then by type, while the lookup and the client compare whole names.  The two orders agree about
everything but the ends of the chain: below all records only the guard is found, and its range
denies the query only when the first record of the chain has a smaller name than the last one.
-/

namespace Ndns.Mgmt

open Ndn Calls Daemon Clients Order.CircularRanges

/-! ## The ends of the chain -/

/-- The record with the least label and type has a smaller name than the record with the greatest
label and type. -/
def EndsAscend (db : Database) (zoneId : ℕ) : Prop :=
  ∃ low ∈ records db zoneId, ∃ high ∈ records db zoneId,
    (∀ row ∈ records db zoneId, recordKey low ≤ recordKey row ∧ recordKey row ≤ recordKey high) ∧
      low.label ++ [low.type] < high.label ++ [high.type]

/-- The ends of the chain are the records with the least and the greatest label and type. -/
theorem ends_of_recordNames {db : Database} {zoneId : ℕ} {first : Name} {rest : List Name}
    (h : recordNames db zoneId = first :: rest) :
    ∃ low ∈ records db zoneId, ∃ high ∈ records db zoneId,
      (∀ row ∈ records db zoneId,
        recordKey low ≤ recordKey row ∧ recordKey row ≤ recordKey high) ∧
      first = low.label ++ [low.type] ∧ rest.getLastD first = high.label ++ [high.type] := by
  have hsorted := List.pairwise_insertionSort (· ≤ ·) ((records db zoneId).map recordKey)
  have hmem : ∀ key, key ∈ ((records db zoneId).map recordKey).insertionSort (· ≤ ·) ↔
      ∃ row ∈ records db zoneId, recordKey row = key := by simp
  unfold recordNames at h
  generalize ((records db zoneId).map recordKey).insertionSort (· ≤ ·) = keys at h hsorted hmem
  cases keys with
  | nil => cases h
  | cons key keys =>
      obtain ⟨rfl, rfl⟩ := List.cons.inj h
      obtain ⟨low, hlow, hlowKey⟩ := (hmem key).mp List.mem_cons_self
      obtain ⟨high, hhigh, hhighKey⟩ := (hmem (keys.getLastD key)).mp List.getLastD_mem_cons
      have hlast : (key :: keys).getLast (List.cons_ne_nil _ _) = recordKey high := by
        rw [List.getLast_eq_getLastD, hhighKey]
      refine ⟨low, hlow, high, hhigh, fun row hrow ↦ ⟨?_, ?_⟩, ?_, ?_⟩
      · have hhead := hsorted.rel_head ((hmem _).mpr ⟨row, hrow, rfl⟩)
        rwa [List.head_cons, ← hlowKey] at hhead
      · have hend := hsorted.rel_getLast ((hmem _).mpr ⟨row, hrow, rfl⟩)
        rwa [hlast] at hend
      · rw [← hlowKey]
        rfl
      · rw [List.getLastD_map, ← hhighKey]
        rfl

theorem endsAscend_iff {db : Database} {zoneId : ℕ} {first : Name} {rest : List Name}
    (h : recordNames db zoneId = first :: rest) :
    EndsAscend db zoneId ↔ first < rest.getLastD first := by
  obtain ⟨low, hlow, high, hhigh, hbounds, hfirst, hlast⟩ := ends_of_recordNames h
  rw [hlast]
  constructor
  · rintro ⟨low', hlow', high', hhigh', hbounds', hlt⟩
    have hlowKey : recordKey low' = recordKey low :=
      le_antisymm (hbounds' low hlow).1 (hbounds low' hlow').1
    have hhighKey : recordKey high' = recordKey high :=
      le_antisymm (hbounds high' hhigh').2 (hbounds' high hhigh).2
    have hlowName : low'.label ++ [low'.type] = low.label ++ [low.type] :=
      congrArg keyName hlowKey
    have hhighName : high'.label ++ [high'.type] = high.label ++ [high.type] :=
      congrArg keyName hhighKey
    rwa [hlowName, hhighName, ← hfirst] at hlt
  · intro hlt
    exact ⟨low, hlow, high, hhigh, hbounds, hfirst ▸ hlt⟩

/-- When the ends of the chain descend, a name of one component is below all of its names. -/
theorem exists_below_of_descending {db : Database} {zoneId : ℕ} {first : Name} {rest : List Name}
    (h : recordNames db zoneId = first :: rest) (hlast : rest.getLastD first < first) :
    ∃ type ≤ Component.empty, ∀ name ∈ recordNames db zoneId, [type] < name := by
  obtain ⟨low, hlow, high, hhigh, hbounds, hfirst, -⟩ := ends_of_recordNames h
  obtain ⟨least, hleast, hmin⟩ := Set.exists_min_image {name | name ∈ recordNames db zoneId} id
    (List.finite_toSet _) ⟨first, by simp [h]⟩
  have hlastMem : rest.getLastD first ∈ recordNames db zoneId := h ▸ List.getLastD_mem_cons
  have hbelow : least < first := (hmin _ hlastMem).trans_lt hlast
  obtain ⟨row, hrow, rfl⟩ := mem_recordNames.mp hleast
  -- a record at the apex would be sorted first
  have hlabel : row.label ≠ [] := by
    intro happex
    obtain hlt | ⟨hsame, htype⟩ :
        low.label < row.label ∨ low.label = row.label ∧ low.type ≤ row.type :=
      Prod.Lex.toLex_le_toLex.mp (hbounds row hrow).1
    · rw [happex] at hlt
      exact absurd hlt (List.not_lt_nil _)
    · rw [hfirst, hsame, happex, List.nil_append, List.nil_append, List.cons_lt_cons_iff] at hbelow
      rcases hbelow with hlt | ⟨-, hlt⟩
      · exact absurd hlt (not_lt.mpr htype)
      · exact absurd hlt (lt_irrefl _)
  obtain ⟨head, tail, hhead⟩ := List.exists_cons_of_ne_nil hlabel
  refine ⟨min head Component.empty, min_le_right _ _, fun name hname ↦ ?_⟩
  refine lt_of_lt_of_le ?_ (hmin name hname)
  rw [id, hhead, List.cons_append, List.cons_lt_cons_iff]
  rcases (min_le_left head Component.empty).lt_or_eq with hlt | heq
  · exact Or.inl hlt
  · exact Or.inr ⟨heq, by cases tail <;> simp⟩

/-- When the ends ascend, the denial found below an absent name excludes it. -/
theorem excludes_of_ascending {names : List Name} {first : Name} {rest : List Name}
    (hnames : names = first :: rest) (hnodup : names.Nodup)
    (hascend : first < rest.getLastD first) {denial : Denial} (hdenial : denial ∈ denialChain names)
    {query : Name} (hbelow : denial.1 < query) (hquery : query ∉ names)
    (hgreatest : ∀ other ∈ denialChain names, other.1 < query → other.1 ≤ denial.1) :
    Excludes denial.2 query := by
  rcases mem_denialChain.mp hdenial with ⟨hrange, hlabel⟩ | ⟨first', rest', hnames', rfl⟩
  · have hends : denial.2.1 ≠ denial.2.2 := by
      subst hnames
      cases rest with
      | nil => exact absurd hascend (lt_irrefl _)
      | cons second rest => exact ne_of_mem_ranges hnodup hrange
    refine excludes_of_greatest_below hrange hends (hlabel ▸ hbelow) (fun name hname hlt ↦ ?_) hquery
    rw [← map_fst_ranges names, List.mem_map] at hname
    obtain ⟨range, hmem, rfl⟩ := hname
    rw [← hlabel]
    exact hgreatest (range.1, range) (mem_denialChain.mpr (Or.inl ⟨hmem, rfl⟩)) hlt
  · obtain ⟨rfl, rfl⟩ := List.cons.inj (hnames.symm.trans hnames')
    exact excludes_iff.mpr (Or.inl hascend)

/-- When the ends do not ascend, some absent name is excluded by no denial below it. -/
theorem exists_not_excluded {db : Database} {zoneId : ℕ} {first : Name} {rest : List Name}
    (hnames : recordNames db zoneId = first :: rest) (hnodup : (recordNames db zoneId).Nodup)
    (hascend : ¬ first < rest.getLastD first) :
    ∃ (label : Name) (type : Component), type ≤ Component.empty ∧
      label ++ [type] ∉ recordNames db zoneId ∧
      ∀ denial ∈ denialChain (recordNames db zoneId), denial.1 < label ++ [type] →
        ¬ Excludes denial.2 (label ++ [type]) := by
  cases rest with
  | nil =>
      -- the only range starts and ends at the only record
      obtain ⟨label, hlabel⟩ : ∃ label : Name, label ++ [Component.empty] ≠ first := by
        by_cases hfirst : first = [Component.empty]
        · exact ⟨[Component.empty], by simp [hfirst]⟩
        · exact ⟨[], fun heq ↦ hfirst heq.symm⟩
      refine ⟨label, Component.empty, le_rfl, by simpa [hnames] using hlabel, ?_⟩
      intro denial hdenial _ hexcluded
      have hrange := range_mem_of_mem_denialChain hdenial
      rw [hnames, ranges, rangesFrom, List.mem_singleton] at hrange
      rw [hrange, excludes_iff] at hexcluded
      rcases hexcluded with hlt | ⟨hlow, hhigh⟩
      · exact lt_irrefl _ hlt
      · exact lt_asymm hlow hhigh
  | cons second rest =>
      -- only the guard is below the name, and its range is the ascending one
      have hne : (second :: rest).getLastD first ≠ first := by
        rw [List.getLastD_cons]
        rintro heq
        rw [hnames] at hnodup
        exact (List.nodup_cons.mp hnodup).1 (heq ▸ List.getLastD_mem_cons)
      obtain ⟨type, htype, hbelow⟩ := exists_below_of_descending hnames
        (lt_of_le_of_ne (not_lt.mp hascend) hne)
      refine ⟨[], type, htype, fun hmem ↦ lt_irrefl _ (hbelow _ hmem), ?_⟩
      intro denial hdenial hlt hexcluded
      rcases mem_denialChain.mp hdenial with ⟨hrange, hlabel⟩ | ⟨first', rest', hnames', rfl⟩
      · rw [hlabel] at hlt
        exact lt_asymm hlt (hbelow _ (mem_ranges hrange).1)
      · obtain ⟨rfl, rfl⟩ := List.cons.inj (hnames.symm.trans hnames')
        have habove := (hbelow _ (hnames ▸ List.getLastD_mem_cons)).le
        exact hascend ((excludes_iff_descending habove).mp hexcluded)

section Completeness

variable [PacketFormat] {zoneName : Name} {zoneId : ℕ} {db : Database}

/-! ## The lookup in the chain -/

/-- The lookup below a name finds the denial with the greatest label below it. -/
theorem Chained.lowerBoundRow (h : Chained zoneName zoneId db)
    (hrecords : recordNames db zoneId ≠ []) {query : Name} (hquery : query ≠ []) :
    ∃ row denial, DbMgr.lowerBoundRow db zoneId query Label.doeRrType = some row ∧
      row ∈ db.rrsets ∧ IsDenial zoneName zoneId row denial ∧
      denial ∈ denialChain (recordNames db zoneId) ∧ denial.1 < query ∧
      ∀ other ∈ denialChain (recordNames db zoneId), other.1 < query →
        other.1 ≤ denial.1 := by
  have hstored : ∀ denial ∈ denialChain (recordNames db zoneId), ∃ row ∈ db.rrsets,
      IsDenial zoneName zoneId row denial := by
    intro denial hdenial
    obtain ⟨row, hrow, hisDenial⟩ := forall₂_mem_right h hdenial
    exact ⟨row, (mem_denials.mp hrow).1, hisDenial⟩
  obtain ⟨first, rest, hnames⟩ := List.exists_cons_of_ne_nil hrecords
  have hguard := mem_denialChain.mpr (Or.inr ⟨first, rest, hnames, rfl⟩)
  cases hrow : DbMgr.lowerBoundRow db zoneId query Label.doeRrType with
  | none =>
      -- the guard is below every name
      obtain ⟨row, hmem, hisDenial⟩ := hstored _ hguard
      refine absurd ⟨hisDenial.zoneId, ?_, hisDenial.type⟩
        (DbMgr.lowerBoundRow_eq_none.mp hrow row hmem)
      rw [hisDenial.label]
      obtain ⟨head, tail, rfl⟩ := List.exists_cons_of_ne_nil hquery
      exact List.nil_lt_cons _ _
  | some row =>
      obtain ⟨⟨hmem, hzone, hbelow, htype⟩, hgreatest⟩ := DbMgr.lowerBoundRow_eq_some hrow
      obtain ⟨denial, hdenial, hisDenial⟩ :=
        forall₂_mem_left h (mem_denials.mpr ⟨hmem, hzone, htype⟩)
      rw [hisDenial.label] at hbelow hgreatest
      refine ⟨row, denial, rfl, hmem, hisDenial, hdenial, hbelow, fun other hother hlt ↦ ?_⟩
      obtain ⟨otherRow, hotherMem, hotherDenial⟩ := hstored other hother
      rw [← hotherDenial.label] at hlt ⊢
      exact hgreatest otherRow hotherMem hotherDenial.zoneId hlt hotherDenial.type

/-- A packet with a whole packet as its content is unwrapped by the client. -/
theorem unwrap_nack {answer : Data} {wire : Block} {name : Name} {contentType : NdnsContentType}
    {content : Blob} (hnack : NdnsContentType.ofCode answer.contentType = .nack)
    (hcontent : answer.content = contentOf wire)
    (hwire : RrsetFactory.Carries wire name contentType content) :
    ∃ doe, IterativeQueryController.unwrap answer = some (doe, .doe) ∧ doe.content = content := by
  obtain ⟨data, hdecode, -, -, hdata⟩ := hwire.decodes
  refine ⟨data, ?_, hdata⟩
  have htype : wire.type ≠ contentTlvType := by
    rw [hwire.type_eq]
    decide
  rw [IterativeQueryController.unwrap, if_pos hnack, hcontent, blockFromValue_contentOf htype,
    Option.bind_some, hdecode, Option.map_some]

/-! ## Answers -/

variable {Keys : Type} {services : Services Keys} {server : NameServer}

/-- Every query for a record the zone does not have is denied, and the client finds the queried
name in the range of the denial record. -/
def DenialComplete (services : Services Keys) (server : NameServer) (db : Database) : Prop :=
  ∀ (label : Name) (type : Component), Queried type →
    (∀ row ∈ records db server.zone.id, ¬ (row.label = label ∧ row.type = type)) →
    ∀ interest : Interest, interest.name = Label.recordName server.zone.name label type →
      ∀ keys : Keys, ∃ answer doe,
        ((server.onInterest interest).run (World.handle services) ⟨db, keys⟩).1 =
          .ok (some answer) ∧
        NdnsContentType.ofCode answer.contentType = .nack ∧
        IterativeQueryController.unwrap answer = some (doe, .doe) ∧
        ∀ controller : IterativeQueryController, controller.lastLabelType = label ++ [type] →
          controller.isAbsentByDoe doe = .ok true

/-- The answer to a query for a record the zone does not have. -/
theorem Chained.run_onInterest_absent (h : Chained zoneName server.zone.id db)
    (hrecords : recordNames db server.zone.id ≠ []) (hvalid : db.Valid)
    (hsigns : services.SignsByDefault) {label : Name} {type : Component} (hqueried : Queried type)
    (habsent : ∀ row ∈ records db server.zone.id, ¬ (row.label = label ∧ row.type = type))
    {interest : Interest} (hname : interest.name = Label.recordName server.zone.name label type)
    (keys : Keys) :
    ∃ denial answer doe keys', denial ∈ denialChain (recordNames db server.zone.id) ∧
      denial.1 < label ++ [type] ∧
      (∀ other ∈ denialChain (recordNames db server.zone.id), other.1 < label ++ [type] →
        other.1 ≤ denial.1) ∧
      (server.onInterest interest).run (World.handle services) ⟨db, keys⟩ =
        (.ok (some answer), ⟨db, keys'⟩) ∧
      answer.matches interest ∧ NdnsContentType.ofCode answer.contentType = .nack ∧
      IterativeQueryController.unwrap answer = some (doe, .doe) ∧
      Response.wireDecodeDoe doe.content = some denial.2 := by
  obtain ⟨row, denial, hrow, hmem, hisDenial, hdenial, hbelow, hgreatest⟩ :=
    h.lowerBoundRow hrecords (List.append_ne_nil_of_right_ne_nil label (List.cons_ne_nil type []))
  have hkey : DbMgr.keyRow db server.zone.id label type = none := by
    rw [DbMgr.keyRow_eq_none]
    rintro other hother ⟨hzone, rfl, rfl⟩
    exact habsent other (by simpa [mem_records, hother, hzone] using hqueried.notDoe) ⟨rfl, rfl⟩
  obtain ⟨answer, version, keys', hrun, hanswer, hnack, hcontent⟩ :=
    @NameServer.run_denyQuery _ services ⟨db, keys⟩ server interest
      ⟨label, type, Component.empty⟩ row hsigns hrow (hvalid.ids_pos row hmem).ne'
  obtain ⟨content, hencode, hcarries⟩ := hisDenial.packet
  obtain ⟨doe, hunwrap, hdoe⟩ := unwrap_nack hnack hcontent hcarries
  refine ⟨denial, answer, doe, keys', hdenial, hbelow, hgreatest, ?_, ⟨_, hanswer.symm⟩, hnack,
    hunwrap, ?_⟩
  · rw [NameServer.run_onInterest_query hqueried hname, NameServer.run_handleQuery_absent hkey, hrun]
  · rw [hdoe]
    exact Response.wireDecodeDoe_encodeNames hencode

/-- In a complete chain, a denial whose label is below an absent name excludes it. -/
theorem Chained.excludes_of_denialComplete (h : Chained zoneName server.zone.id db)
    (hrecords : recordNames db server.zone.id ≠ []) (hvalid : db.Valid)
    (hsigns : services.SignsByDefault) (keys : Keys)
    (hcomplete : DenialComplete services server db) {label : Name} {type : Component}
    (hqueried : Queried type) (hquery : label ++ [type] ∉ recordNames db server.zone.id) :
    ∃ denial ∈ denialChain (recordNames db server.zone.id),
      denial.1 < label ++ [type] ∧ Excludes denial.2 (label ++ [type]) := by
  have habsent := notMem_recordNames.mp hquery
  let interest : Interest := ⟨Label.recordName server.zone.name label type, true, 0, []⟩
  obtain ⟨denial, answer, doe, keys', hdenial, hbelow, -, hrun, -, -, hunwrap, hwire⟩ :=
    h.run_onInterest_absent hrecords hvalid hsigns hqueried habsent
      (show interest.name = _ from rfl) keys
  obtain ⟨answer', doe', hrun', -, hunwrap', habsentByDoe⟩ :=
    hcomplete label type hqueried habsent interest rfl keys
  rw [hrun] at hrun'
  cases hrun'
  cases hunwrap.symm.trans hunwrap'
  have htrue := habsentByDoe ⟨[], type, 0, .queryNs, 0, 1, none, label ++ [type]⟩ rfl
  rw [isAbsentByDoe_eq hwire, Except.ok.injEq, isAbsentByRange_iff] at htrue
  exact ⟨denial, hdenial, hbelow, htrue⟩

/-- A chain is complete exactly when its ends ascend. -/
theorem Chained.denialComplete_iff (h : Chained zoneName server.zone.id db)
    (hrecords : recordNames db server.zone.id ≠ []) (hvalid : db.Valid)
    (hsigns : services.SignsByDefault) (keys : Keys)
    (hset : ((records db server.zone.id).map recordKey).Nodup) :
    DenialComplete services server db ↔ EndsAscend db server.zone.id := by
  obtain ⟨first, rest, hnames⟩ := List.exists_cons_of_ne_nil hrecords
  have hnodup := nodup_recordNames hset
  rw [endsAscend_iff hnames]
  constructor
  · intro hcomplete
    by_contra hascend
    obtain ⟨label, type, htype, hquery, hnone⟩ := exists_not_excluded hnames hnodup hascend
    obtain ⟨denial, hdenial, hbelow, hexcludes⟩ := h.excludes_of_denialComplete hrecords hvalid
      hsigns keys hcomplete (queried_of_le_empty htype) hquery
    exact hnone denial hdenial hbelow hexcludes
  · intro hascend label type hqueried habsent interest hname keys
    obtain ⟨denial, answer, doe, keys', hdenial, hbelow, hgreatest, hrun, -, hnack, hunwrap, hwire⟩ :=
      h.run_onInterest_absent hrecords hvalid hsigns hqueried habsent hname keys
    refine ⟨answer, doe, by rw [hrun], hnack, hunwrap, fun controller hlast ↦ ?_⟩
    rw [isAbsentByDoe_eq hwire, hlast, Except.ok.injEq, isAbsentByRange_iff]
    exact excludes_of_ascending hnames hnodup hascend hdenial hbelow
      (notMem_recordNames.mpr habsent) hgreatest

namespace ManagementTool

variable {world world' : World Keys}

/-- After `generateDoe`, the server of the zone denies every absent record convincingly exactly
when the record with the least label and type has a smaller name than the one with the greatest. -/
theorem generateDoe_complete_iff {zone zone' : Zone} (hvalid : world.db.Valid)
    (hsigns : services.SignsByDefault) (hserver : server.zone.id = zone'.id)
    (hset : ((records world.db zone'.id).map recordKey).Nodup)
    (h : (generateDoe zone).Returns (World.handle services) world zone' world') :
    DenialComplete services server world'.db ↔ EndsAscend world.db zone'.id := by
  have hvalid' := valid_of_returns hvalid h
  obtain ⟨-, -, hrecords, hregenerates⟩ := returns_generateDoe h
  have hsame : EndsAscend world.db zone'.id ↔ EndsAscend world'.db zone'.id := by
    simp only [EndsAscend, hregenerates.records]
  rw [hsame, ← hserver]
  rw [← hregenerates.records, ← hserver] at hset hrecords
  rw [← hserver] at hregenerates
  exact hregenerates.chained.denialComplete_iff (recordNames_eq_nil.not.mpr hrecords) hvalid' hsigns
    world.keys hset

end ManagementTool

end Completeness

section Examples

open LocalServices NameServer

attribute [local instance] ndnPacketFormat

theorem txtDatabase_pair_valid : (txtDatabase [[letter 97], [letter 98]]).Valid := by
  constructor <;> decide

theorem generateDoe_pair_complete :
    DenialComplete localServices netServer (regenerated [[letter 97], [letter 98]]).2.db :=
  (@ManagementTool.generateDoe_complete_iff _ _ localServices netServer _
    (regenerated [[letter 97], [letter 98]]).2 _ ⟨1, [letter 110], 3600⟩ txtDatabase_pair_valid
    (fun _ _ ↦ rfl) rfl (by decide) (Prod.ext rfl rfl)).mpr
      ⟨⟨1, 1, [letter 97], Label.txtRrType, Component.fromVersion 1, 3600, Block.invalid⟩,
        by decide,
        ⟨2, 1, [letter 98], Label.txtRrType, Component.fromVersion 1, 3600, Block.invalid⟩,
        by decide, by decide, by decide⟩

/-- With a single record, the only range starts and ends at the record and denies nothing. -/
theorem generateDoe_single_incomplete :
    ∃ zone' world', (ManagementTool.generateDoe (Zone.named [letter 110])).Returns
        (World.handle localServices) ⟨txtDatabase [[letter 97]], 0⟩ zone' world' ∧
      netServer.zone.id = zone'.id ∧ ¬ DenialComplete localServices netServer world'.db := by
  refine ⟨⟨1, [letter 110], 3600⟩, (regenerated [[letter 97]]).2, Prod.ext rfl rfl, rfl, ?_⟩
  intro hcomplete
  let interest : Interest :=
    ⟨Label.recordName [letter 110] [letter 98] Label.txtRrType, true, 4000, []⟩
  obtain ⟨answer, doe, hrun, -, hunwrap, habsent⟩ := hcomplete [letter 98] Label.txtRrType
    ⟨by decide, by decide, by decide⟩ (by decide) interest rfl 0
  have htrue := habsent
    ⟨[], Label.txtRrType, 0, .queryNs, 0, 1, none, [letter 98, Label.txtRrType]⟩ rfl
  have hfalse : ((netServer.onInterest interest).run (World.handle localServices)
      ⟨(regenerated [[letter 97]]).2.db, 0⟩).1.toOption.join.bind
        (fun answer ↦ (IterativeQueryController.unwrap answer).map fun unwrapped ↦
          IterativeQueryController.isAbsentByDoe
            ⟨[], Label.txtRrType, 0, .queryNs, 0, 1, none, [letter 98, Label.txtRrType]⟩
            unwrapped.1) = some (.ok false) := by
    decide
  rw [hrun] at hfalse
  simp only [Except.toOption, Option.join_some, Option.bind_some, hunwrap, Option.map_some,
    htrue] at hfalse
  cases hfalse

end Examples

end Ndns.Mgmt
