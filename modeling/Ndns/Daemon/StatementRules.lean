import Ndns.Calls.Contracts
import Ndns.Daemon.FactoryRules

/-!
# Contracts on the Tables

The state of the key chain and the other services is arbitrary, so the contract of an operation is
about the tables: each of its calls leaves them alone or changes them in an allowed way, and the
tables it ends with satisfy the postcondition, whether it returns or throws.  Lookups have one rule
together, and every writing operation of `DbMgr` has its own.
-/

namespace Ndns.Daemon

open Ndn Calls

/-! ## Lookups -/

/-- A call that leaves the database alone. -/
def Call.Selects : Call → Prop
  | .service _ => True
  | .sql (.selectZone _) => True
  | .sql (.selectZones) => True
  | .sql (.selectZoneInfo _) => True
  | .sql (.selectRrset _ _ _) => True
  | .sql (.selectLowerBound _ _ _) => True
  | .sql (.selectRrsets _) => True
  | .sql _ => False

variable {Keys Value Result : Type} {services : Services Keys} {db : Database}

theorem Call.Selects.handle_db {call : Call} (h : call.Selects) (world : World Keys) :
    (World.handle services call world).2.db = world.db := by
  cases call with
  | service request => rfl
  | sql statement => cases statement <;> first | rfl | exact h.elim

theorem Call.Reads.selects {call : Call} (h : call.Reads) : call.Selects := by
  cases call with
  | service request => trivial
  | sql statement => cases statement <;> trivial

theorem selects_of_reads {program : Prog Value} (h : program.CallsOnly Call.Reads) :
    program.CallsOnly Call.Selects := h.mono Call.Reads.selects

theorem selects_findNewZone (zone : Zone) : (DbMgr.findNewZone zone).CallsOnly Call.Selects := by
  unfold DbMgr.findNewZone
  split_ifs
  · exact selects_of_reads (reads_findZone zone)
  · trivial

theorem selects_findRrset (rrset : Rrset) : (DbMgr.findRrset rrset).CallsOnly Call.Selects := by
  unfold DbMgr.findRrset DbMgr.findWith
  split
  · trivial
  · refine (selects_findNewZone _).bind fun zone ↦ ?_
    split_ifs
    · trivial
    · refine ⟨trivial, fun selected ↦ ?_⟩
      rcases selected with _ | ⟨rows, _⟩
      · trivial
      · cases rows <;> trivial

theorem selects_requireZone (zone : Zone) : (DbMgr.requireZone zone).CallsOnly Call.Selects := by
  refine (selects_findNewZone zone).bind fun zone ↦ ?_
  split_ifs <;> trivial

theorem selects_findRrsets (zone : Zone) : (DbMgr.findRrsets zone).CallsOnly Call.Selects := by
  refine (selects_requireZone zone).bind fun zone ↦ ⟨trivial, fun selected ↦ ?_⟩
  rcases selected with _ | ⟨rows, _⟩ <;> trivial

/-! ## Contracts -/

/-- From these tables, and with any state of the services, every call of the program leaves the
tables alone or changes them in the given way, and the end satisfies the postcondition. -/
def Meets (services : Services Keys) (Change : Database → Database → Prop) (program : Prog Value)
    (db : Database) (post : Except Fault Value → Database → Prop) : Prop :=
  ∀ keys, program.Ensures (World.handle services)
    (fun call world ↦ (World.handle services call world).2.db = world.db ∨
      Change world.db (World.handle services call world).2.db)
    (fun outcome world ↦ post outcome world.db) ⟨db, keys⟩

variable {Change : Database → Database → Prop} {program : Prog Value}
  {rest : Value → Prog Result}

theorem meets_pure {value : Value} {post : Except Fault Value → Database → Prop}
    (h : post (.ok value) db) : Meets services Change (pure value) db post := fun _ ↦ h

theorem meets_throw {fault : Fault} {post : Except Fault Value → Database → Prop}
    (h : post (.error fault) db) : Meets services Change (throw fault) db post := fun _ ↦ h

theorem Meets.weaken {post post' : Except Fault Value → Database → Prop}
    (h : Meets services Change program db post)
    (hpost : ∀ outcome db', post outcome db' → post' outcome db') :
    Meets services Change program db post' :=
  fun keys ↦ (h keys).weaken fun outcome world ↦ hpost outcome world.db

theorem Meets.bind {middle : Except Fault Value → Database → Prop}
    {post : Except Fault Result → Database → Prop} (h : Meets services Change program db middle)
    (hrest : ∀ value db', middle (.ok value) db' → Meets services Change (rest value) db' post)
    (hfault : ∀ fault db', middle (.error fault) db' → post (.error fault) db') :
    Meets services Change (program >>= rest) db post :=
  fun keys ↦ (h keys).bind (fun value world hmiddle ↦ hrest value world.db hmiddle world.keys)
    fun fault world hmiddle ↦ hfault fault world.db hmiddle

/-- A program without its result. -/
theorem Meets.discard {post : Database → Prop}
    (h : Meets services Change program db fun _ db' ↦ post db') (result : Value → Result) :
    Meets services Change (program >>= fun value ↦ pure (result value)) db
      fun _ db' ↦ post db' :=
  h.bind (fun _ _ hend ↦ meets_pure hend) fun _ _ hend ↦ hend

/-- A contract and what the ends of the program have in common. -/
theorem Meets.and_ends {post : Except Fault Value → Database → Prop}
    {ending : Except Fault Value → Prop} (h : Meets services Change program db post)
    (hends : program.Ends ending) :
    Meets services Change program db fun outcome db' ↦ post outcome db' ∧ ending outcome :=
  fun keys ↦ (h keys).and_ends hends

theorem Meets.mono {Change' : Database → Database → Prop}
    {post : Except Fault Value → Database → Prop} (h : Meets services Change program db post)
    (hchange : ∀ db db', Change db db' → Change' db db') :
    Meets services Change' program db post :=
  fun keys ↦ (h keys).mono (fun _ _ hcall ↦ hcall.imp_right (hchange _ _)) fun _ _ hpost ↦ hpost

theorem Meets.tryCatch {recover : Fault → Prog Value}
    {middle post : Except Fault Value → Database → Prop}
    (h : Meets services Change program db middle)
    (hvalue : ∀ value db', middle (.ok value) db' → post (.ok value) db')
    (hrecover : ∀ fault db', middle (.error fault) db' →
      Meets services Change (recover fault) db' post) :
    Meets services Change (program.tryCatch recover) db post :=
  fun keys ↦ (h keys).tryCatch (fun value world ↦ hvalue value world.db)
    fun fault world hmiddle ↦ hrecover fault world.db hmiddle world.keys

theorem Meets.run {post : Except Fault Value → Database → Prop}
    (h : Meets services Change program db post) (keys : Keys) :
    post (program.run (World.handle services) ⟨db, keys⟩).1
      (program.run (World.handle services) ⟨db, keys⟩).2.db := (h keys).run

/-- The constraints of the schema hold at the end of a run that starts with them. -/
theorem Meets.valid {post : Except Fault Value → Database → Prop}
    (h : Meets services Change program db post) (hvalid : db.Valid) :
    Meets services Change program db fun outcome db' ↦ post outcome db' ∧ db'.Valid := by
  intro keys
  have hkeeps := @Program.Ensures.keeps _ _ _ _ _ _ _ _ _
    (fun world : World Keys ↦ world.db.Valid) _ (h keys) hvalid fun call world hworld _ ↦ ?_
  · exact hkeeps.mono (fun _ _ hcall ↦ hcall.1) fun _ _ hend ↦ hend
  · cases call with
    | service request => exact hworld
    | sql statement => exact statement.execute_valid hworld

/-- Changes that go on from one another make up one change from the first tables. -/
theorem Meets.change {post : Except Fault Value → Database → Prop}
    (h : Meets services Change program db post) (hrefl : ∀ db, Change db db)
    (htrans : ∀ {first second third}, Change first second → Change second third →
      Change first third) :
    Meets services Change program db fun outcome db' ↦ post outcome db' ∧ Change db db' := by
  intro keys
  refine (@Program.Ensures.keeps _ _ _ _ _ _ _ _ _ (fun world : World Keys ↦ Change db world.db) _
    (h keys) (hrefl db) fun call world hchange hcall ↦ ?_).mono (fun _ _ hcall ↦ hcall.1)
      fun _ _ hend ↦ hend
  rcases hcall with hsame | hnext
  · exact hsame ▸ hchange
  · exact htrans hchange hnext

/-- An invariant of the changes holds in all states of a run. -/
theorem Meets.visited {invariant : Database → Prop} {post : Except Fault Value → Database → Prop}
    (h : Meets services (fun _ db' ↦ invariant db') program db post) (hstart : invariant db)
    (keys : Keys) : ∀ world ∈ program.visited (World.handle services) ⟨db, keys⟩,
      invariant world.db := by
  have hkeeps := @Program.Ensures.keeps _ _ _ _ _ _ _ _ _
    (fun world : World Keys ↦ invariant world.db) _ (h keys) hstart
    fun call world hinvariant hcall ↦ hcall.elim (fun hsame ↦ hsame ▸ hinvariant) id
  exact (hkeeps.mono (fun _ _ hcall ↦ hcall.2) fun _ _ hpost ↦ hpost).visited hstart

theorem ensures_selects (h : program.CallsOnly Call.Selects) (keys : Keys) :
    program.Ensures (World.handle services)
      (fun call world ↦ call.Selects ∧ (World.handle services call world).2.db = db)
      (fun outcome world ↦
        program.run (World.handle services) ⟨db, keys⟩ = (outcome, world) ∧ world.db = db)
      ⟨db, keys⟩ :=
  @Program.Ensures.keeps _ _ _ _ _ _ _ _ _ (fun world : World Keys ↦ world.db = db) _
    (h.ensures (⟨db, keys⟩ : World Keys)) rfl fun _ world hsame hcall ↦ (hcall.handle_db world).trans hsame

/-- Lookups leave the tables alone, and what they return is decided by their run. -/
theorem meets_of_selects (h : program.CallsOnly Call.Selects) :
    Meets services Change program db fun outcome db' ↦ db' = db ∧
      ∀ value, outcome = .ok value → ∃ keys keys',
        program.Returns (World.handle services) ⟨db, keys⟩ value ⟨db, keys'⟩ := by
  intro keys
  refine (ensures_selects h keys).mono (fun call world hcall ↦ Or.inl (hcall.1.handle_db world)) ?_
  rintro outcome ⟨db', keys'⟩ ⟨hend, rfl⟩
  exact ⟨rfl, fun value hvalue ↦ ⟨keys, keys', hend.trans (by rw [hvalue])⟩⟩

/-- A lookup, and what is done with its result. -/
theorem meets_select {post : Except Fault Result → Database → Prop}
    (h : program.CallsOnly Call.Selects)
    (hrest : ∀ keys keys' value,
      program.Returns (World.handle services) ⟨db, keys⟩ value ⟨db, keys'⟩ →
        Meets services Change (rest value) db post)
    (hfault : ∀ fault, post (.error fault) db) :
    Meets services Change (program >>= rest) db post := by
  refine (meets_of_selects h).bind ?_ ?_
  · rintro value _ ⟨rfl, hvalue⟩
    obtain ⟨keys, keys', hreturns⟩ := hvalue value rfl
    exact hrest keys keys' value hreturns
  · rintro fault _ ⟨rfl, -⟩
    exact hfault fault

/-- A lookup whose run is known. -/
theorem meets_known {post : Except Fault Result → Database → Prop} {value : Value}
    (h : program.CallsOnly Call.Selects)
    (hrun : ∀ keys, program.run (World.handle services) ⟨db, keys⟩ = (.ok value, ⟨db, keys⟩))
    (hrest : Meets services Change (rest value) db post) :
    Meets services Change (program >>= rest) db post := by
  intro keys
  have hknown := @ensures_selects _ _ services db _ h keys
  rw [hrun keys] at hknown
  refine (hknown.mono (fun call world hcall ↦ Or.inl (hcall.1.handle_db world))
    fun _ _ hend ↦ hend).bind ?_ ?_
  · rintro value' world ⟨hend, -⟩
    obtain ⟨hvalue, hworld⟩ := Prod.mk.inj hend
    cases hvalue
    cases hworld
    exact hrest keys
  · rintro fault world ⟨hend, -⟩
    exact absurd (Prod.mk.inj hend).1 (by simp)

theorem meets_require {condition : Prop} [Decidable condition] {fault : Fault}
    {rest : Unit → Prog Result} {post : Except Fault Result → Database → Prop}
    (hrest : condition → Meets services Change (rest ()) db post)
    (hfault : ¬ condition → post (.error fault) db) :
    Meets services Change (require condition fault >>= rest) db post := by
  unfold require
  split_ifs with hcondition
  · exact hrest hcondition
  · exact meets_throw (hfault hcondition)

/-- What is done with a factory that has passed its check. -/
theorem meets_checkZoneKey {factory : RrsetFactory} {rest : RrsetFactory → Prog Result}
    {post : Except Fault Result → Database → Prop} (hnew : factory.checked = false)
    (hrest : ∀ checked : RrsetFactory, checked.zone = DbMgr.lookupZone db factory.zone →
      checked.zone.id ≠ 0 → Meets services Change (rest checked) db post)
    (hfault : ∀ fault, post (.error fault) db) :
    Meets services Change (factory.checkZoneKey >>= fun outcome ↦ raise outcome >>= rest) db
      post := by
  refine meets_select (selects_of_reads (RrsetFactory.reads_checkZoneKey factory)) ?_ hfault
  intro keys keys' outcome hcheck
  refine meets_select (selects_of_reads (callsOnly_raise outcome)) ?_ hfault
  intro _ _ checked hraise
  obtain ⟨hok, hchecked, -⟩ := RrsetFactory.returns_raise.mp hraise
  have hreturns := Program.returns_bind.mpr ⟨outcome, _, hcheck,
    RrsetFactory.returns_raise.mpr ⟨hok, hchecked, rfl⟩⟩
  obtain ⟨-, hzone, hid, -⟩ := RrsetFactory.returns_checkZoneKey hnew hreturns
  exact hrest checked hzone hid

/-! ## Writing -/

/-- A writing statement, and what is done with its answer. -/
theorem meets_statement {statement : Sql} {rest : statement.Answer → Prog Result}
    {post : Except Fault Result → Database → Prop}
    (hchange : (statement.execute db).2 = db ∨ Change db (statement.execute db).2)
    (hrest : Meets services Change (rest (statement.execute db).1) (statement.execute db).2 post) :
    Meets services Change (sql statement >>= rest) db post :=
  fun keys ↦ ⟨hchange, hrest keys⟩

namespace DbMgr

/-- The zone object and the tables after the zone part of an insertion: a zone object with an id is
used as it is, another one is inserted. -/
def Opens (db : Database) (zone stored : Zone) (db' : Database) : Prop :=
  (zone.id ≠ 0 ∧ stored = zone ∧ db' = db) ∨
    (zone.id = 0 ∧ (∀ row ∈ db.zones, row.name ≠ zone.name) ∧
      stored = { zone with id := nextRowId (db.zones.map ZoneRow.id) } ∧
      db' = db.insertZone zone.name (int32 zone.ttl))

theorem Opens.name {zone stored : Zone} {db' : Database} (h : Opens db zone stored db') :
    stored.name = zone.name := by
  rcases h with ⟨-, rfl, -⟩ | ⟨-, -, rfl, -⟩ <;> rfl

theorem Opens.rrsets {zone stored : Zone} {db' : Database} (h : Opens db zone stored db') :
    db'.rrsets = db.rrsets := by
  rcases h with ⟨-, -, rfl⟩ | ⟨-, -, -, rfl⟩ <;> rfl

theorem meets_insertZone {zone : Zone} {post : Except Fault Zone → Database → Prop}
    (hopen : ∀ stored db', Opens db zone stored db' →
      (zone.id = 0 → Change db db') ∧ post (.ok stored) db')
    (hfault : ∀ fault, zone.id = 0 → post (.error fault) db) :
    Meets services Change (insertZone zone) db post := by
  unfold insertZone
  by_cases hid : zone.id = 0
  · rw [if_neg (by omega)]
    have hexecute : (Sql.insertZone zone.name (int32 zone.ttl)).execute db =
        if db.zones.any fun row ↦ saveName row.name = saveName zone.name then (.stepError, db)
        else (.finished (nextRowId (db.zones.map ZoneRow.id)),
          db.insertZone zone.name (int32 zone.ttl)) := rfl
    split_ifs at hexecute with hexists
    · refine meets_statement (Or.inl (by rw [hexecute])) ?_
      rw [hexecute]
      exact meets_throw (hfault _ hid)
    · obtain ⟨hchange, hpost⟩ := hopen _ _ (Or.inr ⟨hid, fun row hrow hname ↦
        hexists (List.any_eq_true.mpr ⟨row, hrow, by simpa using hname⟩), rfl, rfl⟩)
      refine meets_statement (Or.inr (by rw [hexecute]; exact hchange hid)) ?_
      rw [hexecute]
      exact meets_pure hpost
  · rw [if_pos (by omega)]
    exact meets_pure (hopen zone db (Or.inl ⟨hid, rfl, rfl⟩)).2

/-- The insertion of a record, which the unique index may refuse after the zone was inserted. -/
theorem meets_tryInsertRrset {rrset : Rrset} {zone : Zone}
    {post : Except Fault Rrset → Database → Prop} (hnew : rrset.id = 0)
    (hzone : rrset.zone = some zone)
    (hopen : ∀ stored db', Opens db zone stored db' → zone.id = 0 → Change db db')
    (hinsert : ∀ stored db', Opens db zone stored db' →
      (∀ row ∈ db'.rrsets,
        row.indexKey ≠ (stored.id, rrset.label, rrset.type, rrset.version)) →
      Change db' (db'.insertRrset stored.id rrset.label rrset.type rrset.version rrset.ttl
        rrset.data) ∧
      post (.ok { rrset with
          id := nextRowId (db'.rrsets.map RrsetRow.id)
          zone := some stored })
        (db'.insertRrset stored.id rrset.label rrset.type rrset.version rrset.ttl rrset.data))
    (hconflict : ∀ stored db', Opens db zone stored db' →
      (∃ row ∈ db'.rrsets, row.indexKey = (stored.id, rrset.label, rrset.type, rrset.version)) →
      post (.error .dbMgrExecuteError) db')
    (hfault : ∀ fault, zone.id = 0 → post (.error fault) db) :
    Meets services Change (insertRrset rrset) db post := by
  unfold insertRrset
  rw [if_neg (by simpa using hnew), hzone]
  have hopened : Meets services Change (insertZone zone) db fun outcome db' ↦ match outcome with
      | .ok stored => Opens db zone stored db'
      | .error _ => zone.id = 0 ∧ db' = db :=
    meets_insertZone (fun stored db' hopens ↦ ⟨hopen stored db' hopens, hopens⟩)
      fun _ hid ↦ ⟨hid, rfl⟩
  refine hopened.bind ?_ ?_
  · intro stored db' hopens
    have hexecute : (Sql.insertRrset stored.id rrset.label rrset.type rrset.version rrset.ttl
        rrset.data).execute db' =
        if db'.rrsets.any fun row ↦ row.sameIndex stored.id rrset.label rrset.type rrset.version
        then (.stepError, db')
        else (.finished (nextRowId (db'.rrsets.map RrsetRow.id)),
          db'.insertRrset stored.id rrset.label rrset.type rrset.version rrset.ttl rrset.data) := rfl
    split_ifs at hexecute with hexists
    · refine meets_statement (Or.inl (by rw [hexecute])) ?_
      rw [hexecute]
      refine meets_throw (hconflict stored db' hopens ?_)
      obtain ⟨row, hrow, hindex⟩ := List.any_eq_true.mp hexists
      exact ⟨row, hrow, by simpa [RrsetRow.indexKey] using hindex⟩
    · obtain ⟨hchange, hpost⟩ := hinsert stored db' hopens fun row hrow hindex ↦
        hexists (List.any_eq_true.mpr ⟨row, hrow, by simpa [RrsetRow.indexKey] using hindex⟩)
      refine meets_statement (Or.inr (by rwa [hexecute])) ?_
      rw [hexecute]
      exact meets_pure hpost
  · rintro fault _ ⟨hid, rfl⟩
    exact hfault fault hid

/-- The insertion of a record under a key that has no row. -/
theorem meets_insertRrset {rrset : Rrset} {zone : Zone} {post : Except Fault Rrset → Database → Prop}
    (hnew : rrset.id = 0) (hzone : rrset.zone = some zone)
    (hinsert : ∀ stored db', Opens db zone stored db' →
      (zone.id = 0 → Change db db') ∧
      (∀ row ∈ db.rrsets, row.key ≠ (stored.id, rrset.label, rrset.type)) ∧
      Change db' (db'.insertRrset stored.id rrset.label rrset.type rrset.version rrset.ttl
        rrset.data) ∧
      post (.ok { rrset with
          id := nextRowId (db'.rrsets.map RrsetRow.id)
          zone := some stored })
        (db'.insertRrset stored.id rrset.label rrset.type rrset.version rrset.ttl rrset.data))
    (hfault : ∀ fault, zone.id = 0 → post (.error fault) db) :
    Meets services Change (insertRrset rrset) db post := by
  refine meets_tryInsertRrset hnew hzone (fun stored db' hopens ↦ (hinsert stored db' hopens).1)
    (fun stored db' hopens _ ↦ (hinsert stored db' hopens).2.2) ?_ hfault
  rintro stored db' hopens ⟨row, hrow, hindex⟩
  rw [hopens.rrsets] at hrow
  refine absurd ?_ ((hinsert stored db' hopens).2.1 row hrow)
  simp only [RrsetRow.indexKey, Prod.mk.injEq] at hindex
  rw [RrsetRow.key, hindex.1, hindex.2.1, hindex.2.2.1]

theorem meets_removeRrset {rrset : Rrset} {post : Except Fault Unit → Database → Prop}
    (hid : rrset.id ≠ 0) (hchange : Change db (db.deleteRrset rrset.id))
    (hpost : post (.ok ()) (db.deleteRrset rrset.id)) :
    Meets services Change (removeRrset rrset) db post := by
  unfold removeRrset
  rw [if_neg hid]
  exact meets_statement (Or.inr hchange) (meets_pure hpost)

theorem meets_removeRrsetsOfZoneByType {zone : Zone} {type : Component}
    {post : Except Fault Unit → Database → Prop} (hid : zone.id ≠ 0)
    (hchange : Change db (db.deleteRrsetsByType zone.id type))
    (hpost : post (.ok ()) (db.deleteRrsetsByType zone.id type)) :
    Meets services Change (removeRrsetsOfZoneByType zone type) db post := by
  unfold removeRrsetsOfZoneByType
  exact meets_known (selects_requireZone zone) (fun keys ↦ run_requireZone hid _)
    (meets_statement (Or.inr hchange) (meets_pure hpost))

/-- Information about a zone leaves the zones and the records alone. -/
theorem meets_setZoneInfo {zone : Zone} {key : String} {value : Block}
    {post : Except Fault Unit → Database → Prop}
    (hchange : Change db (db.insertZoneInfo (int32 zone.id) key value))
    (hpost : post (.ok ()) (db.insertZoneInfo (int32 zone.id) key value))
    (hfault : ∀ fault, post (.error fault) db) :
    Meets services Change (setZoneInfo zone key value) db post := by
  unfold setZoneInfo
  split_ifs
  · exact meets_throw (hfault _)
  · exact meets_throw (hfault _)
  · exact meets_statement (Or.inr hchange) (meets_pure hpost)

end DbMgr

end Ndns.Daemon
