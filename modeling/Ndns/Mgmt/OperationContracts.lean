import Ndns.Daemon.StatementRules
import Ndns.Mgmt.AdditionRules

/-!
# Contracts of the Management Tool

The rules of the parts an addition and a creation are made of, for runs that may end in an
exception.  Each says which changes the part makes, in which tables, and what is known there; the
conditions of a caller are proved at exactly these changes.
-/

namespace Ndns.Mgmt

open Ndn Calls Daemon Order.CircularRanges

/-- The row with a key, whether the key is that of a lookup or of a row. -/
theorem keyRow_eq_none_iff {db : Database} {zoneId : ℕ} {label : Name} {type : Component} :
    DbMgr.keyRow db zoneId label type = none ↔
      ∀ row ∈ db.rrsets, row.key ≠ (zoneId, label, type) := by
  simp [DbMgr.keyRow_eq_none, RrsetRow.key]

theorem key_of_keyRow {db : Database} {zoneId : ℕ} {label : Name} {type : Component}
    {row : RrsetRow} (h : DbMgr.keyRow db zoneId label type = some row) :
    row ∈ db.rrsets ∧ row.key = (zoneId, label, type) := by
  obtain ⟨hmem, rfl, rfl, rfl⟩ := DbMgr.keyRow_eq_some h
  exact ⟨hmem, rfl⟩

/-- Rows that the unique index takes for the same have the same key. -/
theorem key_of_indexKey {row : RrsetRow} {zoneId : ℕ} {label : Name} {type version : Component}
    (h : row.indexKey = (zoneId, label, type, version)) : row.key = (zoneId, label, type) := by
  simp only [RrsetRow.indexKey, Prod.mk.injEq] at h
  rw [RrsetRow.key, h.1, h.2.1, h.2.2.1]

/-- In a zone with one row for each key, the chain has one record for each label. -/
theorem nodup_denialChain_labels {db : Database} (hsingle : db.SingleVersion) (zoneId : ℕ) :
    ((denialChain (recordNames db zoneId)).map Prod.fst).Nodup := by
  have hkeys : ((records db zoneId).map recordKey).Nodup := by
    have hnodup : ((records db zoneId).map RrsetRow.key).Nodup :=
      Database.nodup_map_filter hsingle _
    refine List.Nodup.of_map (fun key ↦ (zoneId, (ofLex key).1, (ofLex key).2)) ?_
    rw [List.map_map]
    refine (List.map_congr_left fun row hrow ↦ ?_) ▸ hnodup
    rw [RrsetRow.key, (mem_records.mp hrow).2.1]
    rfl
  exact nodup_denialLabels (nodup_recordNames hkeys) nil_notMem_recordNames

variable [PacketFormat]

namespace ManagementTool

variable {Keys : Type} {services : Services Keys} {Change : Database → Database → Prop}
  {db base : Database}

/-! ## Regeneration -/

/-- The postcondition of the insertion of some denial records after others. -/
def Extends (zoneName : Name) (zoneId : ℕ) (base : Database) (before chain : List Denial) :
    Except Fault Unit → Database → Prop
  | .ok _, db => Appends zoneName zoneId (before ++ chain) base db
  | .error _, db => ∃ part, part <+: chain ∧ Appends zoneName zoneId (before ++ part) base db

theorem Extends.bind {zoneName : Name} {zoneId : ℕ} {before chain chain' : List Denial}
    {program rest : Prog Unit}
    (h : Meets services Change program db (Extends zoneName zoneId base before chain))
    (hrest : ∀ db', Appends zoneName zoneId (before ++ chain) base db' →
      Meets services Change rest db' (Extends zoneName zoneId base (before ++ chain) chain')) :
    Meets services Change (program >>= fun _ ↦ rest) db
      (Extends zoneName zoneId base before (chain ++ chain')) := by
  refine h.bind (fun _ db' hdone ↦ ?_) ?_
  · refine (hrest db' hdone).weaken fun outcome db'' hend ↦ ?_
    cases outcome with
    | ok value =>
        rw [Extends, ← List.append_assoc]
        exact hend
    | error fault =>
        obtain ⟨part, hpart, happends⟩ := hend
        refine ⟨chain ++ part, (List.prefix_append_right_inj chain).mpr hpart, ?_⟩
        rw [← List.append_assoc]
        exact happends
  · rintro fault db' ⟨part, hpart, happends⟩
    exact ⟨part, hpart.trans (List.prefix_append _ _), happends⟩

/-- Where a row of a partial regeneration comes from. -/
theorem mem_of_appends {zoneName : Name} {zoneId : ℕ} {chain : List Denial}
    (h : Appends zoneName zoneId chain base db) {row : RrsetRow} (hrow : row ∈ db.rrsets) :
    row ∈ base.rrsets ∨ ∃ denial ∈ chain, IsDenial zoneName zoneId row denial := by
  obtain ⟨rows, hrows, rfl⟩ := h
  rcases List.mem_append.mp hrow with hold | hnew
  · exact Or.inl hold
  · exact Or.inr (forall₂_mem_left hrows hnew)

/-- The tables after some insertions of denial records under different labels. -/
def Regenerating (zoneName : Name) (zoneId : ℕ) (base db : Database) : Prop :=
  ∃ chain, (chain.map Prod.fst).Nodup ∧ Appends zoneName zoneId chain base db

/-- The tables with the first records of a chain inserted. -/
def PartOf (zoneName : Name) (zoneId : ℕ) (chain : List Denial) (base db : Database) : Prop :=
  ∃ part, part <+: chain ∧ Appends zoneName zoneId part base db

section Insertion

variable {factory : RrsetFactory} {before chain : List Denial}

/-- The insertion of the next record of a chain. -/
theorem meets_insertDoe (hid : factory.zone.id ≠ 0)
    (hchange : ∀ db db', PartOf factory.zone.name factory.zone.id chain base db →
      PartOf factory.zone.name factory.zone.id chain base db' → Change db db')
    (hbefore : Appends factory.zone.name factory.zone.id before base db)
    {label lowerLabel upperLabel : Name}
    (hchain : before ++ [(label, lowerLabel, upperLabel)] <+: chain) :
    Meets services Change (insertDoe factory label lowerLabel upperLabel) db
      (Extends factory.zone.name factory.zone.id base before
        [(label, lowerLabel, upperLabel)]) := by
  have hfault : ∀ fault, Extends factory.zone.name factory.zone.id base before
      [(label, lowerLabel, upperLabel)] (.error fault) db := by
    intro fault
    refine ⟨[], List.nil_prefix, ?_⟩
    rwa [List.append_nil]
  refine meets_select (selects_of_reads (RrsetFactory.reads_generateRrset _ _ _ _ _ _ _)) ?_ hfault
  intro keys keys' doe hdoe
  obtain ⟨-, hdoeId, hdoeZone, rfl, htype, content, hcontent, hcarries⟩ :=
    RrsetFactory.returns_generateRrset hdoe
  have hinsert : Meets services Change (DbMgr.insertRrset doe) db fun outcome db' ↦
      match outcome with
      | .ok _ => Appends factory.zone.name factory.zone.id
          (before ++ [(doe.label, lowerLabel, upperLabel)]) base db'
      | .error _ => db' = db := by
    refine DbMgr.meets_tryInsertRrset hdoeId hdoeZone (fun _ _ _ hzero ↦ absurd hzero hid) ?_ ?_
      fun _ hzero ↦ absurd hzero hid
    · rintro stored db' (⟨-, rfl, rfl⟩ | ⟨hzero, -⟩) -
      · have happends : Appends factory.zone.name factory.zone.id
            [(doe.label, lowerLabel, upperLabel)] db' (db'.insertRrset factory.zone.id doe.label
              doe.type doe.version doe.ttl doe.data) :=
          ⟨_, .cons ⟨rfl, htype, rfl, content, hcontent, hcarries⟩ .nil, rfl⟩
        exact ⟨hchange _ _ ⟨_, (List.prefix_append _ _).trans hchain, hbefore⟩
          ⟨_, hchain, hbefore.append happends⟩, hbefore.append happends⟩
      · exact absurd hzero hid
    · rintro stored db' (⟨-, -, rfl⟩ | ⟨hzero, -⟩) -
      · rfl
      · exact absurd hzero hid
  refine hinsert.bind (fun inserted db' hend ↦ meets_pure hend) ?_
  rintro fault _ rfl
  exact hfault fault

theorem meets_insertRanges (hid : factory.zone.id ≠ 0)
    (hchange : ∀ db db', PartOf factory.zone.name factory.zone.id chain base db →
      PartOf factory.zone.name factory.zone.id chain base db' → Change db db')
    (hbefore : Appends factory.zone.name factory.zone.id before base db) {first : Rrset}
    {rest : List Rrset}
    (hchain : before ++ (neighbours (doeName first) (rest.map doeName)).map
      (fun range ↦ (range.1, range)) <+: chain) :
    Meets services Change (insertRanges factory (first :: rest)) db
      (Extends factory.zone.name factory.zone.id base before
        ((neighbours (doeName first) (rest.map doeName)).map fun range ↦ (range.1, range))) := by
  induction rest generalizing first before db with
  | nil =>
      refine meets_pure ?_
      rw [Extends, List.map_nil, neighbours, List.map_nil, List.append_nil]
      exact hbefore
  | cons second rest ih =>
      rw [List.map_cons, neighbours, List.map_cons, ← List.singleton_append] at hchain ⊢
      rw [← List.append_assoc] at hchain
      exact Extends.bind
        (meets_insertDoe hid hchange hbefore ((List.prefix_append _ _).trans hchain))
        fun db' happends ↦ ih happends hchain

theorem meets_insertChain (hid : factory.zone.id ≠ 0) {rrsets : List Rrset}
    (hchange : ∀ db db',
      PartOf factory.zone.name factory.zone.id (denialChain (rrsets.map doeName)) base db →
      PartOf factory.zone.name factory.zone.id (denialChain (rrsets.map doeName)) base db' →
        Change db db') :
    Meets services Change (insertChain factory rrsets) base fun outcome db' ↦
      (outcome = .ok () → rrsets ≠ []) ∧
        Extends factory.zone.name factory.zone.id base [] (denialChain (rrsets.map doeName)) outcome
          db' := by
  cases rrsets with
  | nil => exact meets_throw ⟨nofun, [], List.nil_prefix, Appends.nil base⟩
  | cons first rest =>
      have hlast : doeName (rest.getLastD first) = (rest.map doeName).getLastD (doeName first) :=
        List.getLastD_map.symm
      have hchain : denialChain ((first :: rest).map doeName) =
          (neighbours (doeName first) (rest.map doeName)).map (fun range ↦ (range.1, range)) ++
            ([(doeName (rest.getLastD first), doeName (rest.getLastD first), doeName first)] ++
              [([], doeName (rest.getLastD first), doeName first)]) := by
        rw [List.map_cons, denialChain, ranges, rangesFrom_eq, List.map_append, closing, ← hlast,
          List.append_assoc]
        rfl
      rw [hchain] at hchange ⊢
      refine (Extends.bind (meets_insertRanges hid hchange (Appends.nil base) ?_)
        fun db' hbefore ↦ Extends.bind (meets_insertDoe hid hchange hbefore ?_)
          fun db'' hbefore' ↦ meets_insertDoe hid hchange hbefore' ?_).weaken
            fun _ _ hend ↦ ⟨fun _ ↦ List.cons_ne_nil _ _, hend⟩
      · exact List.prefix_append _ _
      · rw [List.nil_append, ← List.append_assoc]
        exact List.prefix_append _ _
      · rw [List.nil_append, List.append_assoc]

end Insertion

/-- The tables before and during a regeneration. -/
def Rebuilding (zoneName : Name) (zoneId : ℕ) (base db : Database) : Prop :=
  db = base ∨ zoneId ≠ 0 ∧ PartOf zoneName zoneId (denialChain (recordNames base zoneId))
    (base.deleteRrsetsByType zoneId Label.doeRrType) db

/-- A regeneration that returns has inserted the whole chain, another one a first part of it. -/
def Rebuilt (zone : Zone) (base : Database) : Except Fault Zone → Database → Prop
  | .ok stored, db => stored = DbMgr.lookupZone base zone ∧ stored.id ≠ 0 ∧
      records base stored.id ≠ [] ∧ Regenerates zone.name stored.id base db
  | .error _, db => Rebuilding zone.name (DbMgr.lookupZone base zone).id base db

/-- A regeneration with any tables to start with. -/
theorem tryMeets_generateDoe {zone : Zone}
    (hchange : ∀ db₁ db₂, Rebuilding zone.name (DbMgr.lookupZone db zone).id db db₁ →
      Rebuilding zone.name (DbMgr.lookupZone db zone).id db db₂ → Change db₁ db₂) :
    Meets services Change (generateDoe zone) db (Rebuilt zone db) := by
  have hfind : ∀ keys, (DbMgr.findZone zone).run (World.handle services) ⟨db, keys⟩ =
      (.ok (DbMgr.lookupZone db zone), ⟨db, keys⟩) := fun keys ↦ DbMgr.run_findZone zone ⟨db, keys⟩
  refine meets_known (selects_of_reads (reads_findZone zone)) hfind ?_
  generalize hfound : DbMgr.lookupZone db zone = found at hchange
  have hname : found.name = zone.name := by rw [← hfound, DbMgr.lookupZone_name]
  refine meets_require (fun hid ↦ ?_) fun _ ↦ Or.inl rfl
  generalize hbase : db.deleteRrsetsByType found.id Label.doeRrType = base
  have hcleared : Rebuilding zone.name found.id db base := by
    rw [← hbase]
    exact Or.inr ⟨hid, [], List.nil_prefix, Appends.nil _⟩
  have hdelete : Meets services Change (DbMgr.removeRrsetsOfZoneByType found Label.doeRrType) db
      fun outcome db' ↦ outcome = .ok () ∧ db' = base := by
    refine DbMgr.meets_removeRrsetsOfZoneByType hid ?_ ⟨rfl, hbase⟩
    rw [hbase]
    exact hchange _ _ (Or.inl rfl) hcleared
  have hfault : ∀ fault, Rebuilt zone db (.error fault) base := by
    intro fault
    rw [Rebuilt, hfound]
    exact hcleared
  refine hdelete.bind ?_ ?_
  · rintro _ cleared ⟨-, hsame⟩
    rw [hsame]
    have hselect : ∀ keys, (DbMgr.findRrsets found).run (World.handle services) ⟨base, keys⟩ =
        (.ok ((DbMgr.zoneRows base found.id).map (DbMgr.restore found)), ⟨base, keys⟩) :=
      fun keys ↦ DbMgr.run_findRrsets hid ⟨base, keys⟩
    refine meets_known (selects_findRrsets found) hselect ?_
    refine meets_select (selects_of_reads (RrsetFactory.reads_make _ _)) ?_ hfault
    intro keys keys' factory hmake
    obtain ⟨hfactoryZone, hfactoryNew⟩ := RrsetFactory.returns_make hmake
    refine meets_checkZoneKey hfactoryNew (fun checked hzone hcheckedId ↦ ?_) hfault
    have hcheckedName : checked.zone.name = zone.name := by
      rw [hzone, DbMgr.lookupZone_name, hfactoryZone]
      exact hname
    have hcheckedSame : checked.zone.id = found.id := by
      rw [hzone, ← hfound, hfactoryZone]
      exact DbMgr.lookupZone_id_congr (hbase ▸ rfl) hname
    have hchain : (((DbMgr.zoneRows base found.id).map (DbMgr.restore found)).insertionSort
        fun left right ↦ rrsetKey left ≤ rrsetKey right).map doeName =
          recordNames db found.id := by
      rw [← hbase]
      exact map_doeName_sorted db found
    have hrebuilding : ∀ db', PartOf zone.name found.id (denialChain (recordNames db found.id))
        base db' → Rebuilding zone.name found.id db db' := by
      intro db' hpart
      rw [← hbase] at hpart
      exact Or.inr ⟨hid, hpart⟩
    have hinsert := @meets_insertChain _ _ services Change base checked hcheckedId
      (((DbMgr.zoneRows base found.id).map (DbMgr.restore found)).insertionSort
        fun left right ↦ rrsetKey left ≤ rrsetKey right)
    rw [hchain, hcheckedName, hcheckedSame] at hinsert
    refine (hinsert fun _ _ h h' ↦ hchange _ _ (hrebuilding _ h) (hrebuilding _ h')).bind ?_ ?_
    · rintro _ db' ⟨hnonempty, happends⟩
      refine meets_pure ⟨hfound.symm, hid, fun hempty ↦ hnonempty rfl ?_, ?_⟩
      · rw [← recordNames_eq_nil, ← hchain] at hempty
        exact List.map_eq_nil_iff.mp hempty
      · rw [Regenerates, hbase]
        exact happends
    · rintro fault db' ⟨-, part, hpart, happends⟩
      rw [Rebuilt, hfound]
      exact hrebuilding db' ⟨part, hpart, happends⟩
  · rintro fault _ ⟨hok, -⟩
    cases hok

/-- The tables before, during and after a regeneration. -/
def Regenerated (zoneName : Name) (zoneId : ℕ) (base db : Database) : Prop :=
  db = base ∨
    zoneId ≠ 0 ∧ Regenerating zoneName zoneId (base.deleteRrsetsByType zoneId Label.doeRrType) db

theorem Regenerated.zones {db' : Database} {zoneName : Name} {zoneId : ℕ}
    (h : Regenerated zoneName zoneId db db') : db'.zones = db.zones := by
  obtain rfl | ⟨-, _, -, _, -, rfl⟩ := h <;> rfl

theorem Regenerated.records {db' : Database} {zoneName : Name} {regenerated : ℕ}
    (h : Regenerated zoneName regenerated db db') (zoneId : ℕ) :
    records db' zoneId = records db zoneId := by
  obtain rfl | ⟨-, chain, -, happends⟩ := h
  · rfl
  · exact happends.records zoneId

theorem Rebuilding.regenerated {zoneName : Name} {zoneId : ℕ} (hsingle : base.SingleVersion)
    (h : Rebuilding zoneName zoneId base db) : Regenerated zoneName zoneId base db := by
  obtain hsame | ⟨hid, part, hpart, happends⟩ := h
  · exact Or.inl hsame
  · exact Or.inr ⟨hid, part,
      (nodup_denialChain_labels hsingle zoneId).sublist (hpart.sublist.map _), happends⟩

theorem Rebuilt.rebuilding {zone : Zone} {outcome : Except Fault Zone}
    (h : Rebuilt zone base outcome db) :
    Rebuilding zone.name (DbMgr.lookupZone base zone).id base db := by
  cases outcome with
  | ok stored =>
      obtain ⟨rfl, hid, -, hregenerates⟩ := h
      exact Or.inr ⟨hid, _, List.prefix_rfl, hregenerates⟩
  | error fault => exact h

/-- The records of a regeneration have different labels when each key has one row. -/
theorem meets_generateDoe {zone : Zone} (hsingle : db.SingleVersion)
    (hchange : ∀ db₁ db₂, Regenerated zone.name (DbMgr.lookupZone db zone).id db db₁ →
      Regenerated zone.name (DbMgr.lookupZone db zone).id db db₂ → Change db₁ db₂) :
    Meets services Change (generateDoe zone) db
      fun _ db' ↦ Regenerated zone.name (DbMgr.lookupZone db zone).id db db' :=
  (tryMeets_generateDoe fun _ _ h h' ↦
    hchange _ _ (h.regenerated hsingle) (h'.regenerated hsingle)).weaken
      fun _ _ hend ↦ hend.rebuilding.regenerated hsingle

end ManagementTool

end Ndns.Mgmt
