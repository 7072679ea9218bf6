import Ndns.Daemon.FactoryRules
import Ndns.Mgmt.ManagementTool
import Ndns.Order.CircularRanges

/-!
# The Denial Chain

`generateDoe` replaces the denial records of a zone by a chain computed from its other records.
The chain is a function of the names of these records; `returns_generateDoe` says that the tables
after a normal return hold it, and nothing else has changed.
-/

namespace Ndns.Mgmt

open Ndn Calls Daemon Order.CircularRanges

/-! ## The chain as a function of the records -/

/-- The rows of a zone that are no denial records. -/
def records (db : Database) (zoneId : ℕ) : List RrsetRow :=
  db.rrsets.filter fun row ↦ row.zoneId = zoneId ∧ row.type ≠ Label.doeRrType

/-- The denial records of a zone. -/
def denials (db : Database) (zoneId : ℕ) : List RrsetRow :=
  db.rrsets.filter fun row ↦ row.hasType zoneId Label.doeRrType

/-- What identifies a record set in its zone. -/
def recordKey (row : RrsetRow) : Name ×ₗ Component := toLex (row.label, row.type)

/-- The name of a record set in the chain. -/
def keyName (key : Name ×ₗ Component) : Name := (ofLex key).1 ++ [(ofLex key).2]

/-- The names of the records of a zone, by label and then by type. -/
def recordNames (db : Database) (zoneId : ℕ) : List Name :=
  (((records db zoneId).map recordKey).insertionSort (· ≤ ·)).map keyName

/-- A denial record without its version: its label and its range. -/
abbrev Denial := Name × Name × Name

/-- The chain over a list of names: one range from each name to the next, and the guard. -/
def denialChain : List Name → List Denial
  | [] => []
  | first :: rest =>
      (ranges (first :: rest)).map (fun range ↦ (range.1, range)) ++ [([], closing first rest)]

theorem mem_denials {db : Database} {zoneId : ℕ} {row : RrsetRow} : row ∈ denials db zoneId ↔
    row ∈ db.rrsets ∧ row.zoneId = zoneId ∧ row.type = Label.doeRrType := by
  simp [denials]

theorem mem_records {db : Database} {zoneId : ℕ} {row : RrsetRow} : row ∈ records db zoneId ↔
    row ∈ db.rrsets ∧ row.zoneId = zoneId ∧ row.type ≠ Label.doeRrType := by
  simp [records]

theorem length_denialChain (names : List Name) :
    (denialChain names).length = if names.length = 0 then 0 else names.length + 1 := by
  cases names with
  | nil => rfl
  | cons first rest =>
      have hranges := congrArg List.length (map_fst_ranges (first :: rest))
      rw [List.length_map] at hranges
      rw [denialChain, List.length_append, List.length_map, hranges]
      rfl

theorem keyName_injective : Function.Injective keyName := by
  intro left right heq
  obtain ⟨hlabel, htype⟩ := List.append_inj' heq rfl
  have hpair : ofLex left = ofLex right := Prod.ext hlabel (List.cons.inj htype).1
  exact hpair

theorem keyName_ne_nil (key : Name ×ₗ Component) : keyName key ≠ [] := by
  simp [keyName]

theorem mem_recordNames {db : Database} {zoneId : ℕ} {name : Name} :
    name ∈ recordNames db zoneId ↔
      ∃ row ∈ records db zoneId, row.label ++ [row.type] = name := by
  simp [recordNames, recordKey, keyName]

theorem notMem_recordNames {db : Database} {zoneId : ℕ} {label : Name} {type : Component} :
    label ++ [type] ∉ recordNames db zoneId ↔
      ∀ row ∈ records db zoneId, ¬ (row.label = label ∧ row.type = type) := by
  rw [mem_recordNames, not_exists]
  refine forall_congr' fun row ↦ ?_
  rw [not_and]
  refine imp_congr_right fun _ ↦ not_congr ⟨fun heq ↦ ?_, ?_⟩
  · obtain ⟨hlabel, htype⟩ := List.append_inj' heq rfl
    exact ⟨hlabel, (List.cons.inj htype).1⟩
  · rintro ⟨rfl, rfl⟩
    rfl

theorem nodup_recordNames {db : Database} {zoneId : ℕ}
    (hset : ((records db zoneId).map recordKey).Nodup) :
    (recordNames db zoneId).Nodup :=
  ((List.perm_insertionSort _ _).nodup_iff.mpr hset).map keyName_injective

theorem nil_notMem_recordNames {db : Database} {zoneId : ℕ} : [] ∉ recordNames db zoneId := by
  intro hmem
  obtain ⟨key, -, hkey⟩ := List.mem_map.mp hmem
  exact keyName_ne_nil key hkey

/-- A chain has one record for each label, because the guard is the only one without a name. -/
theorem nodup_denialLabels {names : List Name} (hnames : names.Nodup) (hnil : [] ∉ names) :
    ((denialChain names).map Prod.fst).Nodup := by
  cases names with
  | nil => exact List.nodup_nil
  | cons first rest =>
      have hlabels : (ranges (first :: rest)).map
          (Prod.fst ∘ fun range : Name × Name ↦ (range.1, range)) = first :: rest :=
        map_fst_ranges _
      rw [denialChain, List.map_append, List.map_map, List.map_cons, List.map_nil, hlabels,
        List.nodup_append]
      refine ⟨hnames, List.nodup_singleton _, ?_⟩
      rintro name hname _ hlabel rfl
      obtain rfl : name = [] := List.mem_singleton.mp hlabel
      exact hnil hname

theorem recordNames_eq_nil {db : Database} {zoneId : ℕ} :
    recordNames db zoneId = [] ↔ records db zoneId = [] := by
  rw [recordNames, List.map_eq_nil_iff, ← List.length_eq_zero_iff, List.length_insertionSort,
    List.length_map, List.length_eq_zero_iff]

theorem forall₂_mem_left {α β : Type} {related : α → β → Prop} {lefts : List α} {rights : List β}
    (h : List.Forall₂ related lefts rights) {left : α} (hleft : left ∈ lefts) :
    ∃ right ∈ rights, related left right := by
  induction h with
  | nil => cases hleft
  | cons hhead _ ih =>
      rcases List.mem_cons.mp hleft with rfl | htail
      · exact ⟨_, List.mem_cons_self, hhead⟩
      · obtain ⟨right, hright, hrelated⟩ := ih htail
        exact ⟨right, List.mem_cons_of_mem _ hright, hrelated⟩

theorem forall₂_mem_right {α β : Type} {related : α → β → Prop} {lefts : List α}
    {rights : List β} (h : List.Forall₂ related lefts rights) {right : β}
    (hright : right ∈ rights) : ∃ left ∈ lefts, related left right :=
  forall₂_mem_left h.flip hright

namespace ManagementTool

instance : Std.Total fun left right : Rrset ↦ rrsetKey left ≤ rrsetKey right :=
  ⟨fun _ _ ↦ le_total _ _⟩

instance : IsTrans Rrset fun left right ↦ rrsetKey left ≤ rrsetKey right :=
  ⟨fun _ _ _ ↦ le_trans⟩

/-- The order of `generateDoe` puts the names of the records in the order of the chain. -/
theorem map_doeName_sorted (db : Database) (zone : Zone) :
    (((DbMgr.zoneRows (db.deleteRrsetsByType zone.id Label.doeRrType) zone.id).map
      (DbMgr.restore zone)).insertionSort fun left right ↦
        rrsetKey left ≤ rrsetKey right).map doeName = recordNames db zone.id := by
  have hkey : ∀ left right : Rrset, rrsetKey left ≤ rrsetKey right →
      (toLex (left.label, left.type) : Name ×ₗ Component) ≤ toLex (right.label, right.type) := by
    intro left right hle
    rw [Prod.Lex.toLex_le_toLex]
    rcases Prod.Lex.toLex_le_toLex.mp hle with hlabel | ⟨hlabel, hrest⟩
    · exact Or.inl hlabel
    · refine Or.inr ⟨hlabel, ?_⟩
      rcases Prod.Lex.toLex_le_toLex.mp hrest with htype | ⟨htype, -⟩
      · exact htype.le
      · exact htype.le
  have hname : doeName = keyName ∘ fun rrset : Rrset ↦ toLex (rrset.label, rrset.type) := rfl
  rw [hname, ← List.map_map, map_insertionSort hkey, List.map_map, recordNames]
  congr 1
  refine insertionSort_eq_of_perm ?_
  have hrows : (DbMgr.zoneRows (db.deleteRrsetsByType zone.id Label.doeRrType) zone.id).Perm
      (records db zone.id) := by
    refine (List.perm_insertionSort _ _).trans (List.Perm.of_eq ?_)
    rw [Database.deleteRrsetsByType, records, List.filter_filter]
    refine List.filter_congr fun row _ ↦ ?_
    simp only [RrsetRow.hasType, Component.encode_inj]
    by_cases hzone : row.zoneId = zone.id <;> simp [hzone]
  exact hrows.map _

end ManagementTool

variable [PacketFormat]

/-- A row that holds a denial record of the chain. -/
structure IsDenial (zoneName : Name) (zoneId : ℕ) (row : RrsetRow) (denial : Denial) : Prop where
  zoneId : row.zoneId = zoneId
  type : row.type = Label.doeRrType
  label : row.label = denial.1
  packet : ∃ content, encodeNames [denial.2.1, denial.2.2] = some content ∧
    RrsetFactory.Carries row.data
      (Label.recordName zoneName denial.1 Label.doeRrType ++ [row.version]) .doe content

/-- The tables before and after the insertion of some denial records. -/
def Appends (zoneName : Name) (zoneId : ℕ) (chain : List Denial) (db db' : Database) : Prop :=
  ∃ rows, List.Forall₂ (IsDenial zoneName zoneId) rows chain ∧
    db' = { db with rrsets := db.rrsets ++ rows }

/-- The tables before and after a regeneration. -/
def Regenerates (zoneName : Name) (zoneId : ℕ) (db db' : Database) : Prop :=
  Appends zoneName zoneId (denialChain (recordNames db zoneId))
    (db.deleteRrsetsByType zoneId Label.doeRrType) db'

theorem Appends.nil {zoneName : Name} {zoneId : ℕ} (db : Database) :
    Appends zoneName zoneId [] db db :=
  ⟨[], List.Forall₂.nil, by simp⟩

theorem Appends.append {zoneName : Name} {zoneId : ℕ} {chain chain' : List Denial}
    {db db' db'' : Database} (h : Appends zoneName zoneId chain db db')
    (h' : Appends zoneName zoneId chain' db' db'') :
    Appends zoneName zoneId (chain ++ chain') db db'' := by
  obtain ⟨rows, hrows, rfl⟩ := h
  obtain ⟨rows', hrows', rfl⟩ := h'
  exact ⟨rows ++ rows', List.rel_append hrows hrows', by simp⟩

/-! ## The tables after a regeneration -/

theorem IsDenial.wireDecodeDoe {zoneName : Name} {zoneId : ℕ} {row : RrsetRow} {denial : Denial}
    (h : IsDenial zoneName zoneId row denial) : ∃ data, PacketFormat.decode row.data = some data ∧
      Clients.Response.wireDecodeDoe data.content = some denial.2 := by
  obtain ⟨content, hcontent, -, data, hdecode, -, -, rfl⟩ := h.packet
  exact ⟨data, hdecode, Clients.Response.wireDecodeDoe_encodeNames hcontent⟩

section Regenerates

variable {zoneName : Name} {zoneId : ℕ} {db db' : Database}

/-- The denial records of the zone are the chain over its other records. -/
def Chained (zoneName : Name) (zoneId : ℕ) (db : Database) : Prop :=
  List.Forall₂ (IsDenial zoneName zoneId) (denials db zoneId)
    (denialChain (recordNames db zoneId))

/-- With the old denial records gone, the inserted ones are all there are. -/
theorem Appends.denials {chain : List Denial}
    (h : Appends zoneName zoneId chain (db.deleteRrsetsByType zoneId Label.doeRrType) db') :
    List.Forall₂ (IsDenial zoneName zoneId) (denials db' zoneId) chain := by
  obtain ⟨rows, hrows, rfl⟩ := h
  have hall : ∀ row ∈ rows, row.hasType zoneId Label.doeRrType = true := by
    intro row hrow
    obtain ⟨denial, -, hdenial⟩ := forall₂_mem_left hrows hrow
    exact RrsetRow.hasType_iff.mpr ⟨hdenial.zoneId, hdenial.type⟩
  have hnone : (db.deleteRrsetsByType zoneId Label.doeRrType).rrsets.filter
      (fun row ↦ row.hasType zoneId Label.doeRrType) = [] := by
    simp [Database.deleteRrsetsByType, List.filter_filter]
  rw [Mgmt.denials, List.filter_append, hnone, List.nil_append, List.filter_eq_self.mpr hall]
  exact hrows

/-- Replacing the denial records of a zone keeps its other records, and all of other zones. -/
theorem Appends.other {chain : List Denial}
    (h : Appends zoneName zoneId chain (db.deleteRrsetsByType zoneId Label.doeRrType) db')
    {keep : RrsetRow → Bool}
    (hkeep : ∀ row, row.hasType zoneId Label.doeRrType = true → keep row = false) :
    db'.rrsets.filter keep = db.rrsets.filter keep := by
  obtain ⟨rows, hrows, rfl⟩ := h
  have hnone : rows.filter keep = [] := by
    rw [List.filter_eq_nil_iff]
    intro row hrow
    obtain ⟨denial, -, hdenial⟩ := forall₂_mem_left hrows hrow
    rw [hkeep row (RrsetRow.hasType_iff.mpr ⟨hdenial.zoneId, hdenial.type⟩)]
    exact Bool.false_ne_true
  rw [List.filter_append, hnone, List.append_nil, Database.deleteRrsetsByType,
    List.filter_filter]
  refine List.filter_congr fun row _ ↦ ?_
  cases hrow : row.hasType zoneId Label.doeRrType with
  | false => simp
  | true => simp [hkeep row hrow]

theorem Appends.records {chain : List Denial}
    (h : Appends zoneName zoneId chain (db.deleteRrsetsByType zoneId Label.doeRrType) db')
    (other : ℕ) : records db' other = records db other :=
  h.other fun row hrow ↦ by simp [(RrsetRow.hasType_iff.mp hrow).2]

theorem Regenerates.denials (h : Regenerates zoneName zoneId db db') :
    List.Forall₂ (IsDenial zoneName zoneId) (denials db' zoneId)
      (denialChain (recordNames db zoneId)) := Appends.denials h

/-- A regeneration keeps the other records of every zone, and the denial records of other zones. -/
theorem Regenerates.other (h : Regenerates zoneName zoneId db db') {keep : RrsetRow → Bool}
    (hkeep : ∀ row, row.hasType zoneId Label.doeRrType = true → keep row = false) :
    db'.rrsets.filter keep = db.rrsets.filter keep := Appends.other h hkeep

theorem Regenerates.records (h : Regenerates zoneName zoneId db db') (other : ℕ) :
    records db' other = records db other := Appends.records h other

theorem Regenerates.recordNames (h : Regenerates zoneName zoneId db db') (other : ℕ) :
    recordNames db' other = recordNames db other := by
  rw [Mgmt.recordNames, h.records, Mgmt.recordNames]

/-- After a regeneration the denial records are the chain. -/
theorem Regenerates.chained (h : Regenerates zoneName zoneId db db') :
    Chained zoneName zoneId db' := by
  rw [Chained, h.recordNames]
  exact h.denials

theorem Regenerates.zones (h : Regenerates zoneName zoneId db db') :
    db'.zones = db.zones ∧ db'.zoneInfo = db.zoneInfo := by
  obtain ⟨rows, -, rfl⟩ := h
  exact ⟨rfl, rfl⟩

end Regenerates

/-! ## What generateDoe does -/

namespace ManagementTool

variable {Keys : Type} {services : Services Keys} {world world' : World Keys}

theorem returns_insertDoe {factory : RrsetFactory} (hid : factory.zone.id ≠ 0)
    {label lowerLabel upperLabel : Name}
    (h : (insertDoe factory label lowerLabel upperLabel).Returns (World.handle services) world ()
      world') :
    Appends factory.zone.name factory.zone.id [(label, lowerLabel, upperLabel)] world.db
      world'.db := by
  simp only [insertDoe, Program.returns_bind, Program.returns_pure] at h
  obtain ⟨doe, middle, hdoe, inserted, _, hinsert, -, rfl⟩ := h
  obtain ⟨hdb, hnew, hzone, rfl, htype, content, hcontent, hcarries⟩ :=
    RrsetFactory.returns_generateRrset hdoe
  rw [Program.Returns, DbMgr.run_insertRrset hnew hzone (Nat.pos_of_ne_zero hid)] at hinsert
  split_ifs at hinsert
  · cases (Prod.mk.inj hinsert).1
  · obtain ⟨-, rfl⟩ := Prod.mk.inj hinsert
    rw [← hdb]
    exact ⟨_, .cons ⟨rfl, htype, rfl, content, hcontent, hcarries⟩ .nil, rfl⟩

theorem returns_insertRanges {factory : RrsetFactory} (hid : factory.zone.id ≠ 0)
    {first : Rrset} {rest : List Rrset}
    (h : (insertRanges factory (first :: rest)).Returns (World.handle services) world () world') :
    Appends factory.zone.name factory.zone.id
      ((neighbours (doeName first) (rest.map doeName)).map fun range ↦ (range.1, range))
      world.db world'.db := by
  induction rest generalizing first world with
  | nil =>
      have hnothing : (pure () : Prog Unit).Returns (World.handle services) world () world' := h
      rw [(Program.returns_pure.mp hnothing).2]
      exact .nil _
  | cons second rest ih =>
      rw [insertRanges, Program.returns_bind] at h
      obtain ⟨_, middle, hinsert, hrest⟩ := h
      exact (returns_insertDoe hid hinsert).append (ih hrest)

theorem returns_insertChain {factory : RrsetFactory} (hid : factory.zone.id ≠ 0)
    {rrsets : List Rrset}
    (h : (insertChain factory rrsets).Returns (World.handle services) world () world') :
    rrsets ≠ [] ∧ Appends factory.zone.name factory.zone.id (denialChain (rrsets.map doeName))
      world.db world'.db := by
  cases rrsets with
  | nil =>
      rw [insertChain, Program.returns_throw] at h
      exact h.elim
  | cons first rest =>
      simp only [insertChain, Program.returns_bind] at h
      obtain ⟨_, _, hranges, _, _, hlast, hguard⟩ := h
      have hlastName : doeName (rest.getLastD first) =
          (rest.map doeName).getLastD (doeName first) := List.getLastD_map.symm
      refine ⟨by simp, ?_⟩
      rw [List.map_cons, denialChain, ranges, rangesFrom_eq, List.map_append, closing,
        ← hlastName]
      exact ((returns_insertRanges hid hranges).append (returns_insertDoe hid hlast)).append
        (returns_insertDoe hid hguard)

/-- A regeneration that returns has replaced the denial records of the zone by the chain over its
other records, of which there is at least one. -/
theorem returns_generateDoe {zone zone' : Zone}
    (h : (generateDoe zone).Returns (World.handle services) world zone' world') :
    zone' = DbMgr.lookupZone world.db zone ∧ zone'.id ≠ 0 ∧ records world.db zone'.id ≠ [] ∧
      Regenerates zone.name zone'.id world.db world'.db := by
  unfold generateDoe at h
  obtain ⟨found, _, hfound, h⟩ := Program.returns_bind.mp h
  obtain ⟨rfl, rfl⟩ := (Program.returns_iff_of_run (DbMgr.run_findZone zone world)).mp hfound
  generalize hfound : DbMgr.lookupZone world.db zone = found at h
  have hname : found.name = zone.name := by rw [← hfound, DbMgr.lookupZone_name]
  obtain ⟨_, _, hrequire, h⟩ := Program.returns_bind.mp h
  obtain ⟨hid, rfl⟩ := returns_require.mp hrequire
  obtain ⟨_, removed, hremove, h⟩ := Program.returns_bind.mp h
  obtain ⟨-, rfl⟩ := (Program.returns_iff_of_run
    (DbMgr.run_removeRrsetsOfZoneByType hid Label.doeRrType world)).mp hremove
  obtain ⟨_, _, hselect, h⟩ := Program.returns_bind.mp h
  obtain ⟨rfl, rfl⟩ := (Program.returns_iff_of_run (DbMgr.run_findRrsets hid _)).mp hselect
  obtain ⟨factory, made, hmake, h⟩ := Program.returns_bind.mp h
  obtain ⟨outcome, checkedWorld, hcheck, h⟩ := Program.returns_bind.mp h
  obtain ⟨checked, raised, hraise, h⟩ := Program.returns_bind.mp h
  obtain ⟨_, chained, hchain, h⟩ := Program.returns_bind.mp h
  obtain ⟨rfl, rfl⟩ := Program.returns_pure.mp h
  have hmadeDb := db_of_returns (RrsetFactory.reads_make found.name defaultCert) hmake
  obtain ⟨hfactoryZone, hfactoryNew⟩ := RrsetFactory.returns_make hmake
  obtain ⟨-, hcheckedZone, hcheckedId, hcheckedDb⟩ := RrsetFactory.returns_checkZoneKey hfactoryNew
    (Program.returns_bind.mpr ⟨outcome, checkedWorld, hcheck, hraise⟩)
  obtain ⟨hnonempty, happends⟩ := returns_insertChain hcheckedId hchain
  have hcheckedSame : checked.zone.id = found.id := by
    have hid : found.id = (DbMgr.lookupZone world.db zone).id := by rw [hfound]
    rw [hcheckedZone, hfactoryZone, hid]
    exact DbMgr.lookupZone_id_congr (by rw [hmadeDb]; rfl) hname
  have hcheckedName : checked.zone.name = zone.name := by
    rw [hcheckedZone, DbMgr.lookupZone_name, hfactoryZone]
    exact hname
  rw [map_doeName_sorted, hcheckedSame, hcheckedName, hcheckedDb, hmadeDb] at happends
  refine ⟨rfl, hid, fun hempty ↦ hnonempty ?_, happends⟩
  rw [← recordNames_eq_nil, ← map_doeName_sorted] at hempty
  exact List.map_eq_nil_iff.mp hempty

end ManagementTool

end Ndns.Mgmt
