import Ndns.Calls.Interleaving
import Ndns.Daemon.FactoryRules
import Ndns.Daemon.LocalServices

/-!
# Two Processes on One Database

The management tool and the name server are two processes with key chains of their own.  What they
share is the database file, on which every statement is atomic.  The rules say how the programs of
this development follow an automaton: a program that reads zones at most is judged by its sequential
runs, and so is an operation of `DbMgr` that makes a single statement.
-/

namespace Ndns.Daemon

open Ndn Calls

/-! ## The shared state -/

structure Shared (Tool Server : Type) where
  db : Database
  tool : Tool
  server : Server
  /-- The tables at the last lower bound lookup of the server; no program reads this. -/
  lookedUp : Option Database

/-- What is remembered of a statement of the server. -/
def Sql.noteLookup (db : Database) (lookedUp : Option Database) : Sql → Option Database
  | .selectLowerBound _ _ _ => some db
  | _ => lookedUp

namespace Shared

variable {Tool Server : Type}

/-- The calls of the management tool. -/
def toolHandle (services : Services Tool) : Handler Call.Answer (Shared Tool Server)
  | .sql statement, shared =>
      ((statement.execute shared.db).1, { shared with db := (statement.execute shared.db).2 })
  | .service request, shared =>
      ((services.answer request shared.tool).1,
        { shared with tool := (services.answer request shared.tool).2 })

/-- The calls of the name server. -/
def serverHandle (services : Services Server) : Handler Call.Answer (Shared Tool Server)
  | .sql statement, shared =>
      ((statement.execute shared.db).1,
        { shared with
          db := (statement.execute shared.db).2
          lookedUp := statement.noteLookup shared.db shared.lookedUp })
  | .service request, shared =>
      ((services.answer request shared.server).1,
        { shared with server := (services.answer request shared.server).2 })

/-- A handler whose statements work on the shared database. -/
def Executes (handle : Handler Call.Answer (Shared Tool Server)) : Prop :=
  ∀ statement shared, (handle (.sql statement) shared).1 = (statement.execute shared.db).1

theorem executes_toolHandle (services : Services Tool) :
    Executes (toolHandle services : Handler Call.Answer (Shared Tool Server)) := fun _ _ ↦ rfl

theorem executes_serverHandle (services : Services Server) :
    Executes (serverHandle services : Handler Call.Answer (Shared Tool Server)) := fun _ _ ↦ rfl

end Shared

/-! ## Programs that read zones at most -/

/-- Answers that were prepared in advance, for the first service request, the second, and so on. -/
abbrev Prepared := ℕ → (request : Service) → request.Answer

/-- Services that give the prepared answers. -/
def preparedServices : Services Prepared :=
  ⟨fun request answers ↦ (answers 0 request, fun index ↦ answers (index + 1))⟩

section Follows

variable {Tool Server Phase Value : Type} {handle : Handler Call.Answer (Shared Tool Server)}
  {automaton : Automaton Call Phase (Shared Tool Server)}
  {final : Phase → Except Fault Value → Prop} {phase : Phase}

/-- A program that reads zones at most ends as in one of its sequential runs, when its reading is
no move and the zones stay the same. -/
theorem follows_of_reads {program : Prog Value} (hreads : program.CallsOnly Call.Reads)
    (hexecutes : Shared.Executes handle) {db : Database}
    (hzones : ∀ shared, automaton.holds phase shared → shared.db.zones = db.zones)
    (hquiet : ∀ request shared, request.Reads → automaton.moves phase request shared phase)
    (hok : ∀ answers value world', program.Returns (World.handle preparedServices) ⟨db, answers⟩
      value world' → final phase (.ok value))
    (herror : ∀ fault, final phase (.error fault)) :
    program.Follows handle automaton final phase := by
  induction program with
  | done value => exact hok (fun _ request ↦ (LocalServices.answer request 0).1) value _ rfl
  | raise fault => exact herror fault
  | call request next ih =>
      intro shared hholds
      refine ⟨phase, hquiet _ _ hreads.1, ih _ (hreads.2 _) fun answers value world' hreturns ↦ ?_⟩
      cases request with
      | service request =>
          classical
          refine hok (fun index ↦ match index with
            | 0 => Function.update (answers 0) request (handle (.service request) shared).1
            | index + 1 => answers index) value world' ?_
          change (next (Function.update (answers 0) request _ request)).run _ _ = _
          rw [Function.update_self]
          exact hreturns
      | sql statement =>
          cases statement with
          | selectZone name =>
              refine hok answers value world' ?_
              have hanswer : (handle (.sql (.selectZone name)) shared).1 =
                  ((Sql.selectZone name).execute db).1 := by
                rw [hexecutes]
                simp only [Sql.execute, hzones shared hholds]
              rw [hanswer] at hreturns
              exact hreturns
          | _ => exact hreads.1.elim

/-! ## Operations of one statement -/

/-- An operation of one statement ends as it does on its own. -/
theorem follows_of_statement {program : Prog Value} {statement : Sql}
    (hatomic : program.IsAtomic (.sql statement)) (hexecutes : Shared.Executes handle)
    (h : ∀ shared, automaton.holds phase shared → ∃ phase',
      automaton.moves phase (.sql statement) shared phase' ∧
        final phase' (program.run (World.handle localServices) ⟨shared.db, 0⟩).1) :
    program.Follows handle automaton final phase := by
  refine hatomic.follows fun shared hholds ↦ ?_
  obtain ⟨phase', hmoves, hfinal⟩ := h shared hholds
  have hrun : (program.run handle shared).1 =
      (program.run (World.handle localServices) ⟨shared.db, 0⟩).1 :=
    hatomic.run_fst (hexecutes statement shared)
  exact ⟨phase', hmoves, hrun ▸ hfinal⟩

end Follows

namespace DbMgr

/-- A lookup of a record whose zone the tables list: the zone may have to be looked up first. -/
theorem follows_findRrset {Tool Server Phase : Type}
    {handle : Handler Call.Answer (Shared Tool Server)}
    {automaton : Automaton Call Phase (Shared Tool Server)}
    {final : Phase → Except Fault (Bool × Rrset) → Prop} {phase : Phase} {rrset : Rrset} {zone : Zone}
    (hexecutes : Shared.Executes handle) (hzone : rrset.zone = some zone) {db : Database}
    (hzones : ∀ shared, automaton.holds phase shared → shared.db.zones = db.zones)
    (hquiet : ∀ request shared, request.Reads → automaton.moves phase request shared phase)
    (herror : ∀ fault, final phase (.error fault)) (hid : (resolveZone db zone).id ≠ 0)
    (h : ∀ shared, automaton.holds phase shared → ∃ phase', automaton.moves phase
      (.sql (.selectRrset (resolveZone db zone).id rrset.label rrset.type)) shared phase' ∧
        final phase' (.ok (pick rrset (resolveZone db zone)
          (keyRow shared.db (resolveZone db zone).id rrset.label rrset.type)))) :
    (findRrset rrset).Follows handle automaton final phase := by
  unfold findRrset findWith
  simp only [hzone]
  have hreads : (findNewZone zone).CallsOnly Call.Reads := by
    unfold findNewZone
    split_ifs
    · exact reads_findZone zone
    · trivial
  apply Program.Follows.bind
  apply follows_of_reads hreads hexecutes hzones hquiet _ herror
  intro answers found world' hfound
  obtain ⟨rfl, -⟩ := (Program.returns_iff_of_run (run_findNewZone zone _)).mp hfound
  simp only [Program.AndThen, if_neg hid]
  intro shared hholds
  obtain ⟨phase', hmoves, hfinal⟩ := h shared hholds
  refine ⟨phase', hmoves, ?_⟩
  rw [hexecutes]
  simp only [pick, if_neg hid, keyRow] at hfinal
  simp only [Sql.execute]
  generalize shared.db.selectRrset (resolveZone db zone).id rrset.label rrset.type = rows at hfinal ⊢
  cases rows with
  | nil => exact hfinal
  | cons row rest => exact hfinal

theorem atomic_findRrset {rrset : Rrset} {zone : Zone} (hzone : rrset.zone = some zone)
    (hid : zone.id ≠ 0) :
    (findRrset rrset).IsAtomic (.sql (.selectRrset zone.id rrset.label rrset.type)) := by
  unfold findRrset findWith findNewZone
  simp only [hzone, if_neg hid, Program.pure_bind]
  refine ⟨_, rfl, fun answer ↦ ?_⟩
  rcases answer with _ | ⟨rows, _⟩
  · rfl
  · cases rows <;> rfl

theorem atomic_findLowerBound {rrset : Rrset} {zone : Zone} (hzone : rrset.zone = some zone)
    (hid : zone.id ≠ 0) :
    (findLowerBound rrset).IsAtomic (.sql (.selectLowerBound zone.id rrset.label rrset.type)) := by
  unfold findLowerBound findWith findNewZone
  simp only [hzone, if_neg hid, Program.pure_bind]
  refine ⟨_, rfl, fun answer ↦ ?_⟩
  rcases answer with _ | ⟨rows, _⟩
  · rfl
  · cases rows <;> rfl

theorem atomic_insertRrset {rrset : Rrset} {zone : Zone} (hnew : rrset.id = 0)
    (hzone : rrset.zone = some zone) (hid : zone.id ≠ 0) :
    (insertRrset rrset).IsAtomic
      (.sql (.insertRrset zone.id rrset.label rrset.type rrset.version rrset.ttl rrset.data)) := by
  unfold insertRrset insertZone
  rw [if_neg (not_not.mpr hnew)]
  simp only [hzone, if_pos (Nat.pos_of_ne_zero hid), Program.pure_bind]
  exact ⟨_, rfl, fun answer ↦ by cases answer <;> rfl⟩

theorem atomic_findRrsets {zone : Zone} (hid : zone.id ≠ 0) :
    (findRrsets zone).IsAtomic (.sql (.selectRrsets zone.id)) := by
  unfold findRrsets requireZone findNewZone
  simp only [if_neg hid, Program.pure_bind]
  refine ⟨_, rfl, fun answer ↦ ?_⟩
  rcases answer with _ | ⟨rows, _⟩ <;> rfl

theorem atomic_removeRrsetsOfZoneByType {zone : Zone} (hid : zone.id ≠ 0) (type : Component) :
    (removeRrsetsOfZoneByType zone type).IsAtomic (.sql (.deleteRrsetsByType zone.id type)) := by
  unfold removeRrsetsOfZoneByType requireZone findNewZone
  simp only [if_neg hid, Program.pure_bind]
  exact ⟨_, rfl, fun answer ↦ by cases answer <;> rfl⟩

theorem atomic_removeRrset {rrset : Rrset} (hid : rrset.id ≠ 0) :
    (removeRrset rrset).IsAtomic (.sql (.deleteRrset rrset.id)) := by
  unfold removeRrset
  rw [if_neg hid]
  exact ⟨_, rfl, fun answer ↦ by cases answer <;> rfl⟩

theorem atomic_updateRrset {rrset : Rrset} (hid : rrset.id ≠ 0) (hzone : rrset.zone ≠ none) :
    (updateRrset rrset).IsAtomic
      (.sql (.updateRrset rrset.id rrset.ttl rrset.version rrset.data)) := by
  unfold updateRrset
  rw [if_neg hid, if_neg hzone]
  exact ⟨_, rfl, fun answer ↦ by cases answer <;> rfl⟩

end DbMgr

end Ndns.Daemon
