import Ndns.Daemon.SharedDatabase
import Ndns.Mgmt.DenialRecords

/-!
# Regeneration Step by Step

A regeneration deletes all denial records of the zone, reads the other records, and inserts the new
chain one record after another.  Another process can find the tables at any point in between.  The
automaton has a phase for each of these points, and `generateDoe` follows it.
-/

namespace Ndns.Mgmt

open Ndn Calls Daemon Order.CircularRanges

theorem deleteRrsetsByType_of_denials {db : Database} {zoneId : ℕ} (h : denials db zoneId = []) :
    db.deleteRrsetsByType zoneId Label.doeRrType = db := by
  have hkeep : db.rrsets.filter (fun row ↦ !row.hasType zoneId Label.doeRrType) = db.rrsets := by
    rw [List.filter_eq_self]
    intro row hrow
    have hnot := List.filter_eq_nil_iff.mp h row hrow
    simpa only [Bool.not_eq_true, Bool.not_eq_true'] using hnot
  rw [Database.deleteRrsetsByType, hkeep]

/-! ## The automaton -/

/-- Where a regeneration is: before the deletion, after it, or with the first records of the chain
over some names inserted. -/
inductive RegenerationPhase where
  | waiting
  | cleared
  | inserting (names : List Name) (count : ℕ)

section Automaton

variable [PacketFormat]

/-- The calls of a regeneration. -/
inductive RegenerationMove (zoneName : Name) (zoneId : ℕ) (db : Database) :
    RegenerationPhase → Call → RegenerationPhase → Prop
  | read {phase : RegenerationPhase} {request : Call} (hreads : request.Reads) :
      RegenerationMove zoneName zoneId db phase request phase
  | clear : RegenerationMove zoneName zoneId db .waiting
      (.sql (.deleteRrsetsByType zoneId Label.doeRrType)) .cleared
  | collect : RegenerationMove zoneName zoneId db .cleared (.sql (.selectRrsets zoneId))
      (.inserting (recordNames db zoneId) 0)
  | insert {names : List Name} {count : ℕ} {denial : Denial} {version : Component} {ttl : ℤ}
      {data : Block} (hdenial : (denialChain names)[count]? = some denial)
      (hrow : ∀ id, IsDenial zoneName zoneId
        ⟨id, zoneId, denial.1, Label.doeRrType, version, ttl, data⟩ denial)
      (hfree : ¬ db.rrsets.any fun row ↦
        row.sameIndex zoneId denial.1 Label.doeRrType version) :
      RegenerationMove zoneName zoneId db (.inserting names count)
        (.sql (.insertRrset zoneId denial.1 Label.doeRrType version ttl data))
        (.inserting names (count + 1))
  -- the unique index refuses the record, and the statement throws
  | refuse {phase : RegenerationPhase} {label : Name} {type version : Component} {ttl : ℤ}
      {data : Block} (hconflict : db.rrsets.any fun row ↦ row.sameIndex zoneId label type version) :
      RegenerationMove zoneName zoneId db phase
        (.sql (.insertRrset zoneId label type version ttl data)) phase

/-- The automaton of a regeneration of a zone that the given tables list. -/
def regeneration {Tool Server : Type} (zoneName : Name) (zoneId : ℕ) (zones : List ZoneRow) :
    Automaton Call RegenerationPhase (Shared Tool Server) where
  holds phase shared := shared.db.zones = zones ∧
    (phase = .cleared → denials shared.db zoneId = [])
  moves phase request shared phase' :=
    RegenerationMove zoneName zoneId shared.db phase request phase'

/-- How far the insertions have come when they end. -/
def Inserts {Value : Type} (names : List Name) (count : ℕ) (phase : RegenerationPhase) :
    Except Fault Value → Prop
  | .ok _ => phase = .inserting names count
  | .error _ => True

/-- A regeneration that returns has inserted a whole chain. -/
def Completes {Value : Type} (phase : RegenerationPhase) : Except Fault Value → Prop
  | .ok _ => ∃ names, phase = .inserting names (denialChain names).length
  | .error _ => True

end Automaton

variable [PacketFormat]

/-! ## The program -/

namespace ManagementTool

section Follows

variable {Tool Server : Type} {handle : Handler Call.Answer (Shared Tool Server)}
  (hexecutes : Shared.Executes handle) {db : Database} {factory : RrsetFactory}
  {names : List Name} {count : ℕ}

include hexecutes

/-- A part of the regeneration that only reads. -/
theorem follows_reads {Value : Type} {zoneName : Name} {zoneId : ℕ} {program : Prog Value}
    {phase : RegenerationPhase} {final : RegenerationPhase → Except Fault Value → Prop}
    (hreads : program.CallsOnly Call.Reads)
    (hok : ∀ answers value world', program.Returns (World.handle preparedServices) ⟨db, answers⟩
      value world' → final phase (.ok value))
    (herror : ∀ fault, final phase (.error fault)) :
    program.Follows handle (regeneration zoneName zoneId db.zones) final phase :=
  follows_of_reads hreads hexecutes (fun _ hholds ↦ hholds.1)
    (fun _ _ hrequest ↦ .read hrequest) hok herror

theorem follows_insertDoe (hid : factory.zone.id ≠ 0) {denial : Denial}
    (hdenial : (denialChain names)[count]? = some denial) :
    (insertDoe factory denial.1 denial.2.1 denial.2.2).Follows handle
      (regeneration factory.zone.name factory.zone.id db.zones) (Inserts names (count + 1))
      (.inserting names count) := by
  apply Program.Follows.bind
  apply follows_reads hexecutes (RrsetFactory.reads_generateRrset _ _ _ _ _ _ _) _ fun _ ↦ trivial
  intro answers doe world' hdoe
  obtain ⟨-, hnew, hzone, hlabel, htype, content, hcontent, hcarries⟩ :=
    RrsetFactory.returns_generateRrset hdoe
  apply Program.Follows.bind
  apply follows_of_statement (DbMgr.atomic_insertRrset hnew hzone hid) hexecutes
  intro shared _
  rw [DbMgr.run_insertRrset hnew hzone (Nat.pos_of_ne_zero hid), hlabel, htype]
  by_cases hconflict : shared.db.rrsets.any fun row ↦
      row.sameIndex factory.zone.id denial.1 Label.doeRrType doe.version
  · rw [if_pos hconflict]
    exact ⟨_, .refuse hconflict, trivial⟩
  · rw [if_neg hconflict]
    exact ⟨_, .insert hdenial (fun _ ↦ ⟨rfl, rfl, rfl, content, hcontent, hcarries⟩) hconflict, rfl⟩

/-- One insertion after another. -/
theorem follows_insertDoe_bind (hid : factory.zone.id ≠ 0) {denial : Denial}
    {last : ℕ} {rest : Prog Unit} (hdenial : (denialChain names)[count]? = some denial)
    (hrest : rest.Follows handle (regeneration factory.zone.name factory.zone.id db.zones)
      (Inserts names last) (.inserting names (count + 1))) :
    (insertDoe factory denial.1 denial.2.1 denial.2.2 >>= fun _ ↦ rest).Follows handle
      (regeneration factory.zone.name factory.zone.id db.zones) (Inserts names last)
      (.inserting names count) := by
  apply Program.Follows.bind
  apply (follows_insertDoe hexecutes hid hdenial).mono
  intro phase result hinserts
  cases result with
  | ok value => exact (show phase = _ from hinserts) ▸ hrest
  | error fault => trivial

/-- The loop inserts the ranges between neighbours, wherever they stand in the chain. -/
theorem follows_insertRanges (hid : factory.zone.id ≠ 0) {first : Rrset} {rest : List Rrset}
    {before after : List Denial}
    (hchain : denialChain names = before ++
      ((neighbours (doeName first) (rest.map doeName)).map (fun range ↦ (range.1, range)) ++ after)) :
    (insertRanges factory (first :: rest)).Follows handle
      (regeneration factory.zone.name factory.zone.id db.zones)
      (Inserts names (before.length + rest.length)) (.inserting names before.length) := by
  induction rest generalizing first before with
  | nil => exact (rfl : _ = _)
  | cons second rest ih =>
      rw [List.map_cons, neighbours, List.map_cons, List.cons_append] at hchain
      have hdenial : (denialChain names)[before.length]? =
          some (doeName first, doeName first, doeName second) := by
        rw [hchain, List.getElem?_append_right le_rfl, Nat.sub_self, List.getElem?_cons_zero]
      apply follows_insertDoe_bind hexecutes hid hdenial
      have hrest := @ih second (before ++ [(doeName first, doeName first, doeName second)])
        (by rw [hchain, List.append_assoc]; rfl)
      rw [List.length_append, List.length_singleton] at hrest
      have hlength : before.length + (second :: rest).length = before.length + 1 + rest.length := by
        rw [List.length_cons]
        omega
      rw [hlength]
      exact hrest

/-- The insertions go through the whole chain. -/
theorem follows_insertChain (hid : factory.zone.id ≠ 0) {rrsets : List Rrset}
    (hnames : rrsets.map doeName = names) :
    (insertChain factory rrsets).Follows handle
      (regeneration factory.zone.name factory.zone.id db.zones) Completes (.inserting names 0) := by
  cases rrsets with
  | nil => trivial
  | cons first rest =>
      have hlast : (rest.map doeName).getLastD (doeName first) = doeName (rest.getLastD first) :=
        List.getLastD_map
      have hchain : denialChain names =
          (neighbours (doeName first) (rest.map doeName)).map (fun range ↦ (range.1, range)) ++
            [(doeName (rest.getLastD first), doeName (rest.getLastD first), doeName first),
              ([], doeName (rest.getLastD first), doeName first)] := by
        rw [← hnames, List.map_cons, denialChain, ranges, rangesFrom_eq, List.map_append, closing,
          hlast, List.append_assoc]
        rfl
      have hlength : ((neighbours (doeName first) (rest.map doeName)).map
          fun range ↦ (range.1, range)).length = rest.length := by
        rw [List.length_map, length_neighbours, List.length_map]
      have hfinal : (denialChain names)[rest.length]? = some
          (doeName (rest.getLastD first), doeName (rest.getLastD first), doeName first) := by
        rw [hchain, List.getElem?_append_right hlength.le, hlength, Nat.sub_self]
        rfl
      have hguard : (denialChain names)[rest.length + 1]? = some
          ([], doeName (rest.getLastD first), doeName first) := by
        rw [hchain, List.getElem?_append_right (by omega), hlength, Nat.add_sub_cancel_left]
        rfl
      have hend : (denialChain names).length = rest.length + 1 + 1 := by
        rw [hchain, List.length_append, hlength]
        rfl
      have hranges := @follows_insertRanges _ _ _ handle hexecutes db factory names hid first rest
        [] _ hchain
      have hinserts := follows_insertDoe_bind hexecutes hid hfinal
        (@follows_insertDoe _ _ _ handle hexecutes db _ _ _ hid _ hguard)
      apply Program.Follows.bind
      apply hranges.mono
      intro phase result hresult
      cases result with
      | error fault => trivial
      | ok value =>
          obtain rfl : phase = .inserting names (0 + rest.length) := hresult
          rw [Nat.zero_add]
          apply hinserts.mono
          intro phase result hresult
          cases result with
          | error fault => trivial
          | ok value => exact ⟨names, hend ▸ hresult⟩

/-- A regeneration follows the automaton of its zone. -/
theorem follows_generateDoe {zone : Zone} :
    (generateDoe zone).Follows handle
      (regeneration zone.name (DbMgr.lookupZone db zone).id db.zones) Completes .waiting := by
  apply Program.Follows.bind
  apply follows_reads hexecutes (reads_findZone zone) _ fun _ ↦ trivial
  intro answers found world' hfound
  obtain ⟨rfl, rfl⟩ := (Program.returns_iff_of_run (DbMgr.run_findZone zone _)).mp hfound
  generalize hlookup : DbMgr.lookupZone db zone = found
  have hname : found.name = zone.name := by rw [← hlookup, DbMgr.lookupZone_name]
  change Program.Follows _ _ _ (require _ _ >>= _) _
  by_cases hid : found.id ≠ 0
  swap
  · rw [require, if_neg hid]
    trivial
  rw [require, if_pos hid, Program.pure_bind]
  apply Program.Follows.bind
  apply follows_of_statement (DbMgr.atomic_removeRrsetsOfZoneByType hid _) hexecutes
  intro shared _
  refine ⟨.cleared, .clear, ?_⟩
  rw [DbMgr.run_removeRrsetsOfZoneByType hid]
  apply Program.Follows.bind
  apply follows_of_statement (DbMgr.atomic_findRrsets hid) hexecutes
  intro cleared hcleared
  refine ⟨.inserting (recordNames cleared.db found.id) 0, .collect, ?_⟩
  rw [DbMgr.run_findRrsets hid]
  apply Program.Follows.bind
  apply follows_reads hexecutes (RrsetFactory.reads_make _ _) _ fun _ ↦ trivial
  intro _ made _ hmake
  obtain ⟨hmadeZone, hmadeNew⟩ := RrsetFactory.returns_make hmake
  apply Program.Follows.bind
  apply follows_reads hexecutes (RrsetFactory.reads_checkZoneKey made) _ fun _ ↦ trivial
  intro answers outcome checkedWorld hcheck
  obtain ⟨result, factory⟩ := outcome
  cases result with
  | error fault => trivial
  | ok value =>
      obtain ⟨-, hzone, hfactoryId, -⟩ := RrsetFactory.returns_checkZoneKey hmadeNew
        (Program.returns_bind.mpr ⟨_, _, hcheck, Program.returns_pure.mpr ⟨rfl, rfl⟩⟩)
      have hfactoryName : factory.zone.name = zone.name := by
        rw [hzone, DbMgr.lookupZone_name, hmadeZone]
        exact hname
      have hsame : factory.zone.id = found.id := by
        have hid : found.id = (DbMgr.lookupZone db zone).id := by rw [hlookup]
        rw [hzone, hmadeZone, hid]
        exact DbMgr.lookupZone_id_congr rfl hname
      have hnames : (((DbMgr.zoneRows cleared.db found.id).map (DbMgr.restore found)).insertionSort
          fun left right ↦ rrsetKey left ≤ rrsetKey right).map doeName =
            recordNames cleared.db found.id := by
        have hsorted := map_doeName_sorted cleared.db found
        rwa [deleteRrsetsByType_of_denials (hcleared.2 rfl)] at hsorted
      have hchain := @follows_insertChain _ _ _ handle hexecutes db factory _ hfactoryId _ hnames
      rw [hfactoryName, hsame] at hchain
      change Program.Follows _ _ _ (insertChain factory _ >>= fun _ ↦ pure found) _
      apply Program.Follows.bind
      apply hchain.mono
      intro phase result hresult
      cases result with
      | error fault => trivial
      | ok value => exact hresult

end Follows

end ManagementTool

end Ndns.Mgmt
