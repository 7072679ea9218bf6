import Ndns.Daemon.HealthyDatabase
import Ndns.Daemon.LocalServices
import Ndns.Daemon.UpdateIntegrity

/-!
# Lookups That Are Interrupted

A SELECT can yield rows for a while and then an error code, for example `SQLITE_BUSY`, in place of
the next row or of `SQLITE_DONE`.  The lookups of `DbMgr` take every code but `SQLITE_ROW` for the
end of the rows.  So an interrupted lookup reports that there is nothing, or not more, to be found;
only the lookups that need the zone of an object, and are interrupted while they look for it, throw.
-/

namespace Ndns.Daemon

open Ndn Calls

/-! ## Interrupted statements -/

/-- What the `sqlite3_step` calls of a SELECT report when the one after the given number of rows, or
the one after the last row, yields an error code. -/
def Selected.interrupt {Row : Type} (stop : Option ℕ) : Selected Row → Selected Row
  | .prepareError => .prepareError
  | .stepped rows finished =>
      match stop with
      | none => .stepped rows finished
      | some count => .stepped (rows.take count) false

/-- The first `sqlite3_step` call yields an error code. -/
def Selected.FirstFails {Row : Type} : Selected Row → Prop
  | .stepped [] false => True
  | _ => False

/-- Some `sqlite3_step` call of a loop over the rows yields an error code. -/
def Selected.SomeFails {Row : Type} : Selected Row → Prop
  | .stepped _ false => True
  | _ => False

def Sql.isSelect : Sql → Bool
  | .selectZoneInfo _ | .selectZone _ | .selectZones => true
  | .selectRrset _ _ _ | .selectLowerBound _ _ _ | .selectRrsets _ => true
  | _ => false

/-- What a program sees of a statement that is interrupted. -/
def Sql.interrupt (stop : Option ℕ) : (statement : Sql) → statement.Answer → statement.Answer
  | .selectZoneInfo _, answer => answer.interrupt stop
  | .selectZone _, answer => answer.interrupt stop
  | .selectZones, answer => answer.interrupt stop
  | .selectRrset _ _ _, answer => answer.interrupt stop
  | .selectLowerBound _ _ _, answer => answer.interrupt stop
  | .selectRrsets _, answer => answer.interrupt stop
  | _, answer => answer

/-- A world, and after how many rows the next SELECT is interrupted, the one after it, and so
on. -/
structure Interrupted (Keys : Type) where
  world : World Keys
  stops : ℕ → Option ℕ

namespace Interrupted

variable {Keys : Type}

def answer (state : Interrupted Keys) (statement : Sql) : statement.Answer :=
  statement.interrupt (state.stops 0) (statement.execute state.world.db).1

/-- The state after a SELECT. -/
def next (state : Interrupted Keys) : Interrupted Keys :=
  ⟨state.world, fun index ↦ state.stops (index + 1)⟩

/-- Only the lookups are interrupted. -/
def handle (services : Services Keys) : Handler Call.Answer (Interrupted Keys)
  | .sql statement, state =>
      if statement.isSelect then (state.answer statement, state.next)
      else ((statement.execute state.world.db).1,
        ⟨{ state.world with db := (statement.execute state.world.db).2 }, state.stops⟩)
  | .service request, state =>
      ((services.answer request state.world.keys).1,
        ⟨{ state.world with keys := (services.answer request state.world.keys).2 }, state.stops⟩)

/-- A call that is not a lookup. -/
def Steady : Call → Prop
  | .sql statement => statement.isSelect = false
  | .service _ => True

variable {services : Services Keys} {Value : Type} {state : Interrupted Keys}

/-- A program without lookups runs as on a healthy database. -/
theorem run_steady {program : Prog Value} (h : program.CallsOnly Steady)
    (state : Interrupted Keys) : program.run (handle services) state =
      ((program.run (World.handle services) state.world).1,
        ⟨(program.run (World.handle services) state.world).2, state.stops⟩) := by
  refine @Program.CallsOnly.run_embed _ _ _ _ _ (World.handle services) Steady _ (handle services)
    (fun world ↦ ⟨world, state.stops⟩) (fun call world hcall ↦ ?_) _ h state.world
  cases call with
  | service request => rfl
  | sql statement =>
      have hsteady : statement.isSelect = false := hcall
      simp only [handle, hsteady, Bool.false_eq_true, if_false, World.handle]

theorem run_select {statement : Sql} (h : statement.isSelect = true) (state : Interrupted Keys) :
    @Program.run Call Call.Answer Fault (no_index statement.Answer) (Interrupted Keys)
        (handle services) (sql statement) state = (.ok (state.answer statement), state.next) := by
  have hcall : handle services (.sql statement) state = (state.answer statement, state.next) :=
    if_pos h
  rw [sql, Program.run_request, hcall]

end Interrupted

/-! ## Lookups -/

/-- The first row the `sqlite3_step` calls report. -/
def Selected.first {Row : Type} : Selected Row → Option Row
  | .prepareError => none
  | .stepped rows _ => rows.head?

/-- No statement of an interrupted database fails to be prepared. -/
theorem Selected.interrupt_stepped {Row : Type} (stop : Option ℕ) (rows : List Row) :
    ∃ rows' finished, Selected.interrupt stop (.stepped rows true) = .stepped rows' finished := by
  cases stop with
  | none => exact ⟨rows, true, rfl⟩
  | some count => exact ⟨rows.take count, false, rfl⟩

theorem Selected.first_of_firstFails {Row : Type} {selected : Selected Row}
    (h : selected.FirstFails) : selected.first = none := by
  rcases selected with _ | ⟨_ | ⟨_, _⟩, _⟩
  · rfl
  · rfl
  · exact h.elim

/-- With a row to report, the first call fails when the interruption comes right away. -/
theorem Selected.first_interrupt {Row : Type} (stop : Option ℕ) (rows : List Row) :
    (Selected.interrupt stop (.stepped rows true)).first =
      if stop = some 0 then none else rows.head? := by
  rcases stop with _ | _ | count
  · rfl
  · rfl
  · cases rows <;> rfl

/-- The classes of `DbMgr`'s exceptions. -/
def Fault.IsDbMgr : Fault → Prop
  | .dbMgrPrepareError | .dbMgrExecuteError | .dbMgrRrsetError _ | .dbMgrError _ => True
  | _ => False

namespace DbMgr

variable {Keys : Type} {services : Services Keys} {state : Interrupted Keys} {zone : Zone}

theorem steady_insertRrset (rrset : Rrset) : (insertRrset rrset).CallsOnly Interrupted.Steady := by
  have hzone : ∀ zone, (insertZone zone).CallsOnly Interrupted.Steady := by
    intro zone
    unfold insertZone
    split_ifs
    · trivial
    · refine ⟨rfl, fun written ↦ ?_⟩
      cases written <;> trivial
  unfold insertRrset
  split_ifs
  · trivial
  · cases rrset.zone with
    | none => trivial
    | some zone =>
        refine (hzone zone).bind fun stored ↦ ⟨rfl, fun written ↦ ?_⟩
        cases written <;> trivial

/-- The zone object after a lookup of its name. -/
def fillZone (zone : Zone) : Option ZoneRow → Zone
  | some row => { zone with id := row.id, ttl := int32 row.ttl }
  | none => { zone with id := 0 }

/-- What the lookup of a zone object finds. -/
def foundZone (state : Interrupted Keys) (zone : Zone) : Zone :=
  fillZone zone (state.answer (.selectZone zone.name)).first

theorem run_findZone_interrupted (zone : Zone) (state : Interrupted Keys) :
    (findZone zone).run (Interrupted.handle services) state =
      (.ok (foundZone state zone), state.next) := by
  rw [findZone, Program.run_bind, Interrupted.run_select rfl]
  obtain ⟨rows, finished, hanswer⟩ := Selected.interrupt_stepped (state.stops 0)
    (state.world.db.zones.filter fun row ↦ saveName row.name = saveName zone.name)
  have hanswer' : state.answer (.selectZone zone.name) = .stepped rows finished := hanswer
  simp only [foundZone, hanswer', Selected.first]
  cases rows.head? <;> rfl

theorem run_findNewZone_interrupted (zone : Zone) (state : Interrupted Keys) :
    (findNewZone zone).run (Interrupted.handle services) state =
      if zone.id = 0 then (.ok (foundZone state zone), state.next) else (.ok zone, state) := by
  unfold findNewZone
  split_ifs
  · exact run_findZone_interrupted zone state
  · rfl

theorem foundZone_of_firstFails (h : (state.answer (.selectZone zone.name)).FirstFails) :
    (foundZone state zone).id = 0 := by
  rw [foundZone, Selected.first_of_firstFails h]
  rfl

/-- A lookup of a record that is assigned to a zone always returns. -/
theorem run_findWith_interrupted {select : ℕ → Prog (Selected RrsetRow)} {rrset : Rrset}
    (hzone : rrset.zone = some zone)
    (hselect : ∀ zoneId state, ∃ rows finished state', (select zoneId).run
      (Interrupted.handle services) state = (.ok (.stepped rows finished), state'))
    (state : Interrupted Keys) :
    ∃ found state', (findWith select rrset).run (Interrupted.handle services) state =
      (.ok found, state') := by
  obtain ⟨looked, after, hlooked⟩ : ∃ looked after, (findNewZone zone).run
      (Interrupted.handle services) state = (.ok looked, after) := by
    rw [run_findNewZone_interrupted]
    split_ifs <;> exact ⟨_, _, rfl⟩
  unfold findWith
  simp only [hzone]
  rw [Program.run_bind, hlooked]
  dsimp only
  split_ifs
  · exact ⟨_, _, rfl⟩
  · obtain ⟨rows, finished, state', hrows⟩ := hselect looked.id after
    rw [Program.run_bind, hrows]
    cases rows <;> exact ⟨_, _, rfl⟩

theorem run_findRrset_interrupted {rrset : Rrset} (hzone : rrset.zone = some zone)
    (state : Interrupted Keys) : ∃ found state',
      (findRrset rrset).run (Interrupted.handle services) state = (.ok found, state') := by
  refine run_findWith_interrupted hzone (fun zoneId state ↦ ?_) state
  obtain ⟨rows, finished, hrows⟩ := Selected.interrupt_stepped (state.stops 0)
    (state.world.db.selectRrset zoneId rrset.label rrset.type)
  have hanswer : state.answer (.selectRrset zoneId rrset.label rrset.type) =
    .stepped rows finished := hrows
  exact ⟨rows, finished, state.next, by rw [Interrupted.run_select rfl, hanswer]⟩

theorem run_findLowerBound_interrupted {rrset : Rrset} (hzone : rrset.zone = some zone)
    (state : Interrupted Keys) : ∃ found state',
      (findLowerBound rrset).run (Interrupted.handle services) state = (.ok found, state') := by
  refine run_findWith_interrupted hzone (fun zoneId state ↦ ?_) state
  obtain ⟨rows, finished, hrows⟩ := Selected.interrupt_stepped (state.stops 0)
    (state.world.db.selectLowerBound zoneId rrset.label rrset.type)
  have hanswer : state.answer (.selectLowerBound zoneId rrset.label rrset.type) =
    .stepped rows finished := hrows
  exact ⟨rows, finished, state.next, by rw [Interrupted.run_select rfl, hanswer]⟩

theorem run_listZones_interrupted (state : Interrupted Keys) : ∃ found state',
    listZones.run (Interrupted.handle services) state = (.ok found, state') := by
  obtain ⟨rows, finished, hrows⟩ := Selected.interrupt_stepped (state.stops 0) state.world.db.zones
  have hanswer : state.answer .selectZones = .stepped rows finished := hrows
  rw [listZones, Program.run_bind, Interrupted.run_select rfl, hanswer]
  exact ⟨_, _, rfl⟩

/-- The zone the lookups of a whole zone work on. -/
def neededZone (state : Interrupted Keys) (zone : Zone) : Zone :=
  if zone.id = 0 then foundZone state zone else zone

theorem run_findNewZone_needed (zone : Zone) (state : Interrupted Keys) :
    ∃ state', (findNewZone zone).run (Interrupted.handle services) state =
      (.ok (neededZone state zone), state') := by
  rw [run_findNewZone_interrupted, neededZone]
  split_ifs
  · exact ⟨_, rfl⟩
  · exact ⟨_, rfl⟩

theorem run_findRrsets_interrupted (zone : Zone) (state : Interrupted Keys) :
    ∃ state', ((neededZone state zone).id = 0 → (findRrsets zone).run (Interrupted.handle services)
        state = (.error (.dbMgrRrsetError
          "Attempting to find all the rrsets with a zone does not in the database"), state')) ∧
      ((neededZone state zone).id ≠ 0 → ∃ found state'', (findRrsets zone).run
        (Interrupted.handle services) state = (.ok found, state'')) := by
  obtain ⟨state', hneeded⟩ := @run_findNewZone_needed _ services zone state
  refine ⟨state', fun hid ↦ ?_, fun hid ↦ ?_⟩
  · rw [findRrsets, requireZone, Program.run_bind, Program.run_bind, hneeded]
    simp only [if_pos hid]
    rfl
  · obtain ⟨rows, finished, hrows⟩ := Selected.interrupt_stepped (state'.stops 0)
      (zoneRows state'.world.db (neededZone state zone).id)
    have hanswer : state'.answer (.selectRrsets (neededZone state zone).id) =
      .stepped rows finished := hrows
    rw [findRrsets, requireZone, Program.run_bind, Program.run_bind, hneeded]
    simp only [if_neg hid, Program.run_pure]
    rw [Program.run_bind, Interrupted.run_select rfl, hanswer]
    exact ⟨_, _, rfl⟩

theorem run_getZoneInfo_interrupted (zone : Zone) (state : Interrupted Keys) :
    ∃ state', ((neededZone state zone).id = 0 → (getZoneInfo zone).run (Interrupted.handle services)
        state = (.error (.dbMgrError "zone has not been initialized"), state')) ∧
      ((neededZone state zone).id ≠ 0 → ∃ found state'', (getZoneInfo zone).run
        (Interrupted.handle services) state = (.ok found, state'')) := by
  obtain ⟨state', hneeded⟩ := @run_findNewZone_needed _ services zone state
  refine ⟨state', fun hid ↦ ?_, fun hid ↦ ?_⟩
  · rw [getZoneInfo, Program.run_bind, hneeded]
    simp only [if_pos hid]
    rfl
  · obtain ⟨rows, finished, hrows⟩ := Selected.interrupt_stepped (state'.stops 0)
      (state'.world.db.zoneInfo.filter fun row ↦ row.zoneId = int32 (neededZone state zone).id)
    have hanswer : state'.answer (.selectZoneInfo (int32 (neededZone state zone).id)) =
      .stepped rows finished := hrows
    rw [getZoneInfo, Program.run_bind, hneeded]
    simp only [if_neg hid]
    rw [Program.run_bind, Interrupted.run_select rfl, hanswer]
    exact ⟨_, _, rfl⟩

end DbMgr

/-- The lookups of `DbMgr`, with the objects they are called with. -/
inductive Lookup where
  | findZone (zone : Zone)
  | listZones
  | getZoneInfo (zone : Zone)
  | findRrset (rrset : Rrset)
  | findLowerBound (rrset : Rrset)
  | findRrsets (zone : Zone)

namespace Lookup

/-- The lookup, without what it finds. -/
def program : Lookup → Prog Unit
  | .findZone zone => do let _ ← DbMgr.findZone zone
  | .listZones => do let _ ← DbMgr.listZones
  | .getZoneInfo zone => do let _ ← DbMgr.getZoneInfo zone
  | .findRrset rrset => do let _ ← DbMgr.findRrset rrset
  | .findLowerBound rrset => do let _ ← DbMgr.findLowerBound rrset
  | .findRrsets zone => do let _ ← DbMgr.findRrsets zone

variable {Keys : Type}

/-- A `sqlite3_step` call fails in the lookup of the zone, which is made when the object has no id,
or in the statement on the zone that was found. -/
def FailsFor (state : Interrupted Keys) (zone : Zone) (fails : ℕ → Interrupted Keys → Prop) : Prop :=
  if zone.id = 0 then (state.answer (.selectZone zone.name)).FirstFails ∨
    ((DbMgr.foundZone state zone).id ≠ 0 ∧ fails (DbMgr.foundZone state zone).id state.next)
  else fails zone.id state

/-- Some `sqlite3_step` call of the lookup yields an error code. -/
def Fails (state : Interrupted Keys) : Lookup → Prop
  | .findZone zone => (state.answer (.selectZone zone.name)).FirstFails
  | .listZones => (state.answer .selectZones).SomeFails
  | .getZoneInfo zone => FailsFor state zone fun zoneId state ↦
      (state.answer (.selectZoneInfo (int32 zoneId))).SomeFails
  | .findRrset rrset => ∃ zone, rrset.zone = some zone ∧ FailsFor state zone fun zoneId state ↦
      (state.answer (.selectRrset zoneId rrset.label rrset.type)).FirstFails
  | .findLowerBound rrset => ∃ zone, rrset.zone = some zone ∧
      FailsFor state zone fun zoneId state ↦
        (state.answer (.selectLowerBound zoneId rrset.label rrset.type)).FirstFails
  | .findRrsets zone => FailsFor state zone fun zoneId state ↦
      (state.answer (.selectRrsets zoneId)).SomeFails

/-- The lookup needs the zone of an object without id, and fails while it looks for it. -/
def MissesZone (state : Interrupted Keys) : Lookup → Prop
  | .getZoneInfo zone | .findRrsets zone =>
      zone.id = 0 ∧ (state.answer (.selectZone zone.name)).FirstFails
  | _ => False

/-- The lookup throws an exception of `DbMgr`. -/
def Throws (services : Services Keys) (state : Interrupted Keys) (lookup : Lookup) : Prop :=
  ∃ fault, (lookup.program.run (Interrupted.handle services) state).1 = .error fault ∧ fault.IsDbMgr

variable {services : Services Keys} {state : Interrupted Keys} {Value : Type}

theorem not_throws_of_run {program : Prog Value} {value : Value} {state' : Interrupted Keys}
    (h : program.run (Interrupted.handle services) state = (.ok value, state')) :
    ¬ ∃ fault, ((do let _ ← program : Prog Unit).run (Interrupted.handle services) state).1 =
      .error fault ∧ fault.IsDbMgr := by
  rintro ⟨fault, hfault, -⟩
  rw [Program.run_bind, h] at hfault
  cases hfault

theorem throws_of_run {program : Prog Value} {fault : Fault} {state' : Interrupted Keys}
    (h : program.run (Interrupted.handle services) state = (.error fault, state'))
    (hfault : fault.IsDbMgr) :
    ∃ fault, ((do let _ ← program : Prog Unit).run (Interrupted.handle services) state).1 =
      .error fault ∧ fault.IsDbMgr := by
  refine ⟨fault, ?_, hfault⟩
  rw [Program.run_bind, h]

/-- The zone is there unless the lookup fails to find it. -/
theorem neededZone_id_ne {zone : Zone} {fails : ℕ → Interrupted Keys → Prop}
    (hfails : FailsFor state zone fails)
    (hzone : ¬ (zone.id = 0 ∧ (state.answer (.selectZone zone.name)).FirstFails)) :
    (DbMgr.neededZone state zone).id ≠ 0 := by
  unfold FailsFor at hfails
  unfold DbMgr.neededZone
  split_ifs at hfails ⊢ with hid
  · rcases hfails with hfirst | ⟨hfound, -⟩
    · exact absurd ⟨hid, hfirst⟩ hzone
    · exact hfound
  · exact hid

/-- A lookup that does not miss its zone reports a failure as the end of the rows. -/
theorem not_throws {lookup : Lookup} (hfails : lookup.Fails state)
    (hzone : ¬ lookup.MissesZone state) : ¬ lookup.Throws services state := by
  cases lookup with
  | findZone zone => exact not_throws_of_run (DbMgr.run_findZone_interrupted zone state)
  | listZones =>
      obtain ⟨found, state', hrun⟩ := DbMgr.run_listZones_interrupted state
      exact not_throws_of_run hrun
  | getZoneInfo zone =>
      obtain ⟨_, -, hreturns⟩ := DbMgr.run_getZoneInfo_interrupted zone state
      have hfor : FailsFor state zone fun zoneId state ↦
        (state.answer (.selectZoneInfo (int32 zoneId))).SomeFails := hfails
      obtain ⟨found, state', hrun⟩ := hreturns (neededZone_id_ne hfor hzone)
      exact not_throws_of_run hrun
  | findRrset rrset =>
      obtain ⟨zone, hassigned, -⟩ := hfails
      obtain ⟨found, state', hrun⟩ := DbMgr.run_findRrset_interrupted hassigned state
      exact not_throws_of_run hrun
  | findLowerBound rrset =>
      obtain ⟨zone, hassigned, -⟩ := hfails
      obtain ⟨found, state', hrun⟩ := DbMgr.run_findLowerBound_interrupted hassigned state
      exact not_throws_of_run hrun
  | findRrsets zone =>
      obtain ⟨_, -, hreturns⟩ := DbMgr.run_findRrsets_interrupted zone state
      have hfor : FailsFor state zone fun zoneId state ↦
        (state.answer (.selectRrsets zoneId)).SomeFails := hfails
      obtain ⟨found, state', hrun⟩ := hreturns (neededZone_id_ne hfor hzone)
      exact not_throws_of_run hrun

/-- An interrupted lookup throws exactly when it fails to find the zone it needs. -/
theorem throws_of_fails_iff (lookup : Lookup) (state : Interrupted Keys) :
    (lookup.Fails state → lookup.Throws services state) ↔
      ¬ lookup.Fails state ∨ lookup.MissesZone state := by
  constructor
  · intro h
    by_contra hnot
    rw [not_or, not_not] at hnot
    exact not_throws hnot.1 hnot.2 (h hnot.1)
  · rintro (hquiet | hmisses) hfails
    · exact absurd hfails hquiet
    · have hneeded : ∀ zone : Zone, zone.id = 0 →
          (state.answer (.selectZone zone.name)).FirstFails →
            (DbMgr.neededZone state zone).id = 0 := by
        intro zone hid hfirst
        rw [DbMgr.neededZone, if_pos hid]
        exact DbMgr.foundZone_of_firstFails hfirst
      cases lookup with
      | getZoneInfo zone =>
          obtain ⟨_, hthrows, -⟩ := @DbMgr.run_getZoneInfo_interrupted _ services zone state
          exact throws_of_run (hthrows (hneeded zone hmisses.1 hmisses.2)) trivial
      | findRrsets zone =>
          obtain ⟨_, hthrows, -⟩ := @DbMgr.run_findRrsets_interrupted _ services zone state
          exact throws_of_run (hthrows (hneeded zone hmisses.1 hmisses.2)) trivial
      | findZone | listZones | findRrset | findLowerBound => exact hmisses.elim

end Lookup

/-! ## What the server makes of it -/

namespace NameServer

variable {Keys : Type} {services : Services Keys} {server : NameServer} {re : Label.MatchResult}
  {state : Interrupted Keys} {row : RrsetRow}

/-- The record object after the lookup for a key that has a row. -/
def keyedFind (server : NameServer) (re : Label.MatchResult) (row : RrsetRow) (stop : Option ℕ) :
    Bool × Rrset :=
  if stop = some 0 then (false, Rrset.keyed server.zone re.rrLabel re.rrType)
  else (true, { (Rrset.keyed server.zone re.rrLabel re.rrType).fill row with
    zone := some server.zone })

/-- A row is missed exactly when the first call of the lookup fails. -/
theorem run_keyedFind
    (hrow : DbMgr.keyRow state.world.db server.zone.id re.rrLabel re.rrType = some row)
    (hid : row.id ≠ 0) : (DbMgr.findRrset (Rrset.keyed server.zone re.rrLabel re.rrType)).run
      (Interrupted.handle services) state =
        (.ok (keyedFind server re row (state.stops 0)), state.next) := by
  have hzone : server.zone.id ≠ 0 := server.zone_found.ne'
  obtain ⟨rows, finished, hrows⟩ := Selected.interrupt_stepped (state.stops 0)
    (state.world.db.selectRrset server.zone.id re.rrLabel re.rrType)
  have hanswer : state.answer (.selectRrset server.zone.id re.rrLabel re.rrType) =
    .stepped rows finished := hrows
  have hfirst := Selected.first_interrupt (state.stops 0)
    (state.world.db.selectRrset server.zone.id re.rrLabel re.rrType)
  rw [hrows] at hfirst
  have hhead : rows.head? = if state.stops 0 = some 0 then none else some row := by
    rw [← hrow]
    exact hfirst
  unfold DbMgr.findRrset DbMgr.findWith
  simp only [Rrset.keyed, DbMgr.findNewZone, if_neg hzone]
  rw [Program.pure_bind, if_neg hzone, Program.run_bind, Interrupted.run_select rfl, hanswer]
  simp only [hhead, keyedFind]
  split_ifs
  · rfl
  · simp only [ne_eq, hid, not_false_eq_true, decide_true]
    rfl

theorem steady_signed (signer : Signer) (answer : Data) :
    (signed signer answer).CallsOnly Interrupted.Steady := by
  refine Program.CallsOnly.bind ⟨trivial, fun _ ↦ trivial⟩ fun signature ↦ ?_
  cases signature <;> trivial

variable {rrset : Rrset} {version : Component} {wire : Block}

/-- The second row of a key is inserted unless the unique index refuses it. -/
theorem run_insertRecord_db (hid : rrset.id = 0) (hzone : rrset.zone = some server.zone)
    (state : Interrupted Keys) :
    ((insertRecord server rrset version wire).run (Interrupted.handle services) state).2.world.db =
      if state.world.db.rrsets.any fun row ↦ row.sameIndex server.zone.id rrset.label rrset.type
        version then state.world.db
      else state.world.db.insertRrset server.zone.id rrset.label rrset.type version server.zone.ttl
        wire := by
  have hsteady : (insertRecord server rrset version wire).CallsOnly Interrupted.Steady :=
    (DbMgr.steady_insertRrset _).bind fun _ ↦ trivial
  have hinsert := @DbMgr.run_insertRrset _ services
    { rrset with version := version, data := wire, ttl := server.zone.ttl } server.zone hid hzone
    server.zone_found state.world
  rw [Interrupted.run_steady hsteady, insertRecord, Program.run_bind, hinsert]
  split_ifs <;> rfl

/-- Replacing a record keeps the number of rows. -/
theorem run_replaceRecord_length (hid : rrset.id ≠ 0) (hzone : rrset.zone ≠ none)
    (state : Interrupted Keys) :
    ((replaceRecord rrset version wire).run (Interrupted.handle services)
      state).2.world.db.rrsets.length = state.world.db.rrsets.length := by
  unfold replaceRecord
  split_ifs
  · have hsteady : (do
        DbMgr.updateRrset { rrset with version := version, data := wire }
        pure .updateOk : Prog UpdateReturnCode).CallsOnly Interrupted.Steady := by
      unfold DbMgr.updateRrset
      rw [if_neg hid, if_neg hzone]
      refine Program.CallsOnly.bind ⟨rfl, fun written ↦ ?_⟩ fun _ ↦ trivial
      cases written <;> trivial
    have hupdate := @DbMgr.run_updateRrset _ services
      { rrset with version := version, data := wire } hid hzone state.world
    rw [Interrupted.run_steady hsteady, Program.run_bind, hupdate]
    simp only [Program.run_pure]
    split_ifs
    · rfl
    · exact List.length_map _
  · rfl

/-- A key chain that signs nothing. -/
def unwillingServices : Services ℕ :=
  ⟨fun service time ↦ match service with
    | .sign _ _ => (none, time)
    | other => LocalServices.answer other time⟩

variable {interest : Interest}

/-- Then a denial ends with an exception that is none of the database. -/
theorem run_denyQuery_unwilling (state : Interrupted ℕ) : ∃ fault, ¬ fault.IsDbMgr ∧
    ((denyQuery server interest re).run (Interrupted.handle unwillingServices) state).1 =
      .error fault := by
  have hname : ∃ name, (answerName interest).run (Interrupted.handle unwillingServices) state =
      (.ok name, ⟨{ state.world with keys := state.world.keys + 1 }, state.stops⟩) := ⟨_, rfl⟩
  obtain ⟨name, hname⟩ := hname
  obtain ⟨⟨found, doe⟩, state', hfind⟩ := @DbMgr.run_findLowerBound_interrupted _ unwillingServices
    server.zone (Rrset.keyed server.zone (re.rrLabel ++ [re.rrType]) Label.doeRrType) rfl
    ⟨{ state.world with keys := state.world.keys + 1 }, state.stops⟩
  rw [denyQuery, Program.run_bind, hname]
  simp only
  rw [Program.run_bind, hfind]
  cases found with
  | false => exact ⟨.runtimeError "fail to find DoE record of zone", id, rfl⟩
  | true => exact ⟨.keyChainError, id, rfl⟩

variable [PacketFormat] {data : Data}

/-- A query for a stored record is answered with it, or ends with an exception of the database,
exactly when the first call of the lookup does not fail. -/
theorem handleQuery_truthful_iff {db : Database} {stops : ℕ → Option ℕ}
    (hrow : DbMgr.keyRow db server.zone.id re.rrLabel re.rrType = some row) (hid : row.id ≠ 0)
    (hdecode : PacketFormat.decode row.data = some data)
    (hversion : re.version.isEmpty ∨ re.version = row.version) :
    (∀ (Keys : Type) (services : Services Keys) (keys : Keys),
      ((handleQuery server interest re).run (Interrupted.handle services) ⟨⟨db, keys⟩, stops⟩).1 =
          .ok data ∨
        ∃ fault, ((handleQuery server interest re).run (Interrupted.handle services)
          ⟨⟨db, keys⟩, stops⟩).1 = .error fault ∧ fault.IsDbMgr) ↔ stops 0 ≠ some 0 := by
  have hrun : ∀ (Keys : Type) (services : Services Keys) (keys : Keys),
      (handleQuery server interest re).run (Interrupted.handle services) ⟨⟨db, keys⟩, stops⟩ =
        if stops 0 = some 0 then (denyQuery server interest re).run (Interrupted.handle services)
          (Interrupted.next ⟨⟨db, keys⟩, stops⟩)
        else (.ok data, Interrupted.next ⟨⟨db, keys⟩, stops⟩) := by
    intro Keys services keys
    have hfind := @run_keyedFind _ services server re ⟨⟨db, keys⟩, stops⟩ row hrow hid
    rw [handleQuery, Program.run_bind, hfind, keyedFind]
    split_ifs with hstop
    · simp
    · simp only [Rrset.fill, hversion, and_self, if_true, hdecode]
      rfl
  constructor
  · intro hall hstop
    obtain ⟨fault, hother, hdeny⟩ := @run_denyQuery_unwilling server re interest
      (Interrupted.next ⟨⟨db, 0⟩, stops⟩)
    have houtcome := hall ℕ unwillingServices 0
    rw [hrun, if_pos hstop, hdeny] at houtcome
    rcases houtcome with hok | ⟨fault', hfault, hdbMgr⟩
    · cases hok
    · cases hfault
      exact hother hdbMgr
  · intro hstop Keys services keys
    rw [hrun, if_neg hstop]
    exact Or.inl rfl

/-- The tables after an update, as its lookup and its own statement leave them. -/
theorem run_doUpdate_interrupted {packet : Received}
    (hmatch : Label.matchDataName packet.data.name server.zone.name = .matched re)
    (state : Interrupted Keys) : ∃ keys,
      ((doUpdate server interest packet).run (Interrupted.handle services) state).2.world.db =
        ((applyUpdate server re packet).run (Interrupted.handle services)
          ⟨⟨state.world.db, keys⟩, state.stops⟩).2.world.db := by
  have hname : ∃ name keys, (answerName interest).run (Interrupted.handle services) state =
      (.ok name, ⟨⟨state.world.db, keys⟩, state.stops⟩) := ⟨_, _, rfl⟩
  obtain ⟨name, keys, hname⟩ := hname
  refine ⟨keys, ?_⟩
  have hcatch : ∀ middle : Interrupted Keys, ∃ code,
      ((applyUpdate server re packet).tryCatch fun _ ↦ pure .updateFailure).run
        (Interrupted.handle services) middle =
          (.ok code, ((applyUpdate server re packet).run (Interrupted.handle services) middle).2) := by
    intro middle
    rw [Program.run_tryCatch]
    rcases (applyUpdate server re packet).run (Interrupted.handle services) middle with
      ⟨fault | code, state'⟩
    · exact ⟨.updateFailure, rfl⟩
    · exact ⟨code, rfl⟩
  obtain ⟨code, hcatch⟩ := hcatch ⟨⟨state.world.db, keys⟩, state.stops⟩
  simp only [doUpdate, hmatch]
  rw [Program.run_bind, hname]
  simp only
  rw [Program.run_bind]
  erw [hcatch]
  simp only
  generalize ((applyUpdate server re packet).run (Interrupted.handle services)
    ⟨⟨state.world.db, keys⟩, state.stops⟩).2 = applied
  obtain ⟨outcome, keys', hsigned, -⟩ := @run_signed _ services (.byCertificate server.certName)
    ⟨name, NdnsContentType.resp.toCode, server.contentFreshness, updateContent code, [], []⟩
    applied.world
  rw [Program.run_bind, Interrupted.run_steady (steady_signed _ _), hsigned]
  cases outcome <;> rfl

/-- An update for a key that has a row adds no row exactly when the first call of its lookup does
not fail, or the unique index refuses the second row. -/
theorem doUpdate_rows_iff {packet : Received}
    (hmatch : Label.matchDataName packet.data.name server.zone.name = .matched re)
    (hrow : DbMgr.keyRow state.world.db server.zone.id re.rrLabel re.rrType = some row)
    (hid : row.id ≠ 0) :
    ((doUpdate server interest packet).run (Interrupted.handle services)
        state).2.world.db.rrsets.length = state.world.db.rrsets.length ↔
      state.stops 0 ≠ some 0 ∨ ∃ other ∈ state.world.db.rrsets,
        other.indexKey = (server.zone.id, re.rrLabel, re.rrType, re.version) := by
  obtain ⟨keys, hupdate⟩ := @run_doUpdate_interrupted _ services server re interest _ packet hmatch
    state
  have hfind := @run_keyedFind _ services server re ⟨⟨state.world.db, keys⟩, state.stops⟩ row hrow
    hid
  rw [hupdate, applyUpdate, Program.run_bind, hfind, keyedFind]
  by_cases hstop : state.stops 0 = some 0
  · have hinsert := @run_insertRecord_db _ services server
      (Rrset.keyed server.zone re.rrLabel re.rrType) re.version packet.wire rfl rfl
      (Interrupted.next ⟨⟨state.world.db, keys⟩, state.stops⟩)
    simp only [hstop, if_true, Bool.false_eq_true, if_false]
    rw [hinsert]
    have hany : (state.world.db.rrsets.any fun row ↦ row.sameIndex server.zone.id re.rrLabel
        re.rrType re.version) = true ↔ ∃ other ∈ state.world.db.rrsets,
          other.indexKey = (server.zone.id, re.rrLabel, re.rrType, re.version) := by
      rw [List.any_eq_true]
      simp only [RrsetRow.sameIndex_iff, RrsetRow.indexKey, Prod.mk.injEq]
    simp only [Interrupted.next, Rrset.keyed, ne_eq, not_true_eq_false, false_or, ← hany]
    split_ifs with hsame
    · simp [hsame]
    · simp [hsame, Database.insertRrset]
  · simp only [hstop, if_false, if_true]
    rw [run_replaceRecord_length hid (by simp)]
    exact ⟨fun _ ↦ Or.inl hstop, fun _ ↦ rfl⟩

end NameServer

end Ndns.Daemon
