import Ndns.Daemon.KeyHolders
import Ndns.Daemon.LowerFaults
import Ndns.Mgmt.DenialFreshness
import Ndns.Mgmt.OperationContracts

/-!
# Loops Bounded by an Unsigned Size

The loop of `generateDoe` and the two loops of `addMultiLevelLabelRrset` run to `size() - 1`, which
wraps on an empty list of records and on an empty label.  The loops are written here with their
indices, next to the form the rest of the development uses, and the empty cases are the only ones
where the bound is wrong.
-/

namespace Ndns.Mgmt

open Ndn Calls Daemon

/-! ## Iterations of the prefix loops -/

/-- `i++` on a `size_t`. -/
def nextIndex (index : ℕ) : ℕ := (index + 1) % 2 ^ 64

/-- A loop `for (size_t i = 1; i <= bound; i++)` runs its body this often. -/
def Executes (bound count : ℕ) : Prop :=
  (∀ done < count, nextIndex^[done] 1 ≤ bound) ∧ ¬ nextIndex^[count] 1 ≤ bound

theorem iterate_nextIndex {count : ℕ} (hcount : count + 1 < 2 ^ 64) :
    nextIndex^[count] 1 = count + 1 := by
  induction count with
  | zero => rfl
  | succ count ih =>
      rw [Function.iterate_succ_apply', ih (by omega), nextIndex, Nat.mod_eq_of_lt hcount]

theorem iterate_nextIndex_lt (count : ℕ) : nextIndex^[count] 1 < 2 ^ 64 := by
  induction count with
  | zero => decide
  | succ count ih =>
      rw [Function.iterate_succ_apply', nextIndex]
      exact Nat.mod_lt _ (by decide)

/-- The bound of an empty label is never passed. -/
theorem not_executes_empty (count : ℕ) : ¬ Executes (Label.sizeSub 0 1) count := by
  rintro ⟨-, hstop⟩
  exact hstop (Nat.le_of_lt_succ (iterate_nextIndex_lt count))

/-- The prefix loops run once for each proper prefix exactly when the label is not empty. -/
theorem executes_iff {label : Name} (hlength : label.length < 2 ^ 64) :
    Executes (Label.sizeSub label.length 1) (label.length - 1) ↔ label ≠ [] := by
  constructor
  · rintro hexecutes rfl
    exact not_executes_empty _ hexecutes
  · intro hne
    have hpos : 1 ≤ label.length := List.length_pos_iff.mpr hne
    rw [Label.sizeSub, if_pos hpos]
    refine ⟨fun done hdone ↦ ?_, ?_⟩
    · rw [iterate_nextIndex (by omega)]
      omega
    · rw [iterate_nextIndex (by omega)]
      omega

/-- The prefixes the loops look at, by the index of the iteration. -/
theorem properPrefixes_eq_iterate {label : Name} (hlength : label.length < 2 ^ 64) :
    ManagementTool.properPrefixes label = (List.range (label.length - 1)).map
      fun done ↦ label.getPrefix (nextIndex^[done] 1) := by
  refine List.map_congr_left fun done hdone ↦ ?_
  rw [List.mem_range] at hdone
  rw [iterate_nextIndex (by omega)]

/-! ## Runs with a meaning -/

namespace ManagementTool

/-- The way a run ends has a meaning. -/
def Meaningful {Value : Type} (outcome : Except Fault Value) : Prop :=
  outcome ≠ .error .undefinedBehavior ∧ outcome ≠ .error .nonTermination

theorem meaningful_ok {Value : Type} (value : Value) :
    Meaningful (.ok value : Except Fault Value) := ⟨nofun, nofun⟩

theorem meaningful_lower {Value : Type} {fault : Fault} (h : fault.Lower) :
    Meaningful (.error fault : Except Fault Value) := by
  constructor
  · rintro hfault
    cases hfault
    exact h
  · rintro hfault
    cases hfault
    exact h

variable [PacketFormat]

/-! ## The loop over neighbours with its index -/

/-- The loop over neighbours: reading outside of the vector has no defined meaning. -/
def linkFrom (factory : RrsetFactory) (allRecords : List Rrset) (bound index : ℕ) : Prog Unit :=
  if index < bound then
    match allRecords[index]?, allRecords[index + 1]? with
    | some lower, some upper => do
        insertDoe factory (doeName lower) (doeName lower) (doeName upper)
        linkFrom factory allRecords bound (index + 1)
    | _, _ => throw .undefinedBehavior
  else pure ()
termination_by bound - index

/-- `insertChain` with the accesses to the vector written out. -/
def linkChain (factory : RrsetFactory) (allRecords : List Rrset) : Prog Unit := do
  linkFrom factory allRecords (Label.sizeSub allRecords.length 1) 0
  match allRecords.getLast?, allRecords.head? with
  | some last, some first => do
      insertDoe factory (doeName last) (doeName last) (doeName first)
      insertDoe factory [] (doeName last) (doeName first)
  | _, _ => throw .undefinedBehavior

/-- `generateDoe` with the accesses to the vector written out. -/
def generateDoeByIndex (zone : Zone) : Prog Zone := do
  let zone ← DbMgr.findZone zone
  require (zone.id ≠ 0) (.managementToolError "is not present in the NDNS db" zone.name)
  DbMgr.removeRrsetsOfZoneByType zone Label.doeRrType
  let allRecords ← DbMgr.findRrsets zone
  let allRecords := allRecords.insertionSort fun left right ↦ rrsetKey left ≤ rrsetKey right
  let factory ← RrsetFactory.make zone.name defaultCert
  let factory ← raise (← factory.checkZoneKey)
  linkChain factory allRecords
  pure zone

/-- From an index on, the loop links what is left of the vector. -/
theorem linkFrom_eq (factory : RrsetFactory) {before : List Rrset} {first : Rrset}
    {rest : List Rrset} : linkFrom factory (before ++ first :: rest)
      (before.length + rest.length) before.length = insertRanges factory (first :: rest) := by
  induction rest generalizing before first with
  | nil =>
      rw [linkFrom, if_neg (by simp)]
      rfl
  | cons second rest ih =>
      have hsplit : before ++ first :: second :: rest = before ++ [first] ++ second :: rest := by simp
      have hlower : (before ++ first :: second :: rest)[before.length]? = some first := by simp
      have hupper : (before ++ first :: second :: rest)[before.length + 1]? = some second := by
        simp
      have hrest := @ih (before ++ [first]) second
      rw [List.length_append, List.length_singleton, ← hsplit] at hrest
      rw [linkFrom, if_pos (by simp), hlower, hupper, insertRanges, ← hrest]
      simp only [List.length_cons, Nat.add_assoc, Nat.add_comm 1]

/-- On an empty vector the first access is out of bounds. -/
theorem linkChain_eq (factory : RrsetFactory) (allRecords : List Rrset) :
    linkChain factory allRecords = insertChain factory allRecords := by
  cases allRecords with
  | nil =>
      rw [linkChain, linkFrom, if_pos (by decide)]
      rfl
  | cons first rest =>
      have hbound : Label.sizeSub (first :: rest).length 1 = ([] : List Rrset).length + rest.length := by
        rw [Label.sizeSub, if_pos (by simp)]
        simp
      have hlink := @linkFrom_eq _ factory [] first rest
      rw [List.nil_append, List.length_nil] at hlink
      rw [linkChain, hbound, List.length_nil, hlink, List.head?_cons,
        List.getLast?_eq_some_getLast (List.cons_ne_nil first rest)]
      have hlast : (first :: rest).getLast (List.cons_ne_nil first rest) = rest.getLastD first := by
        rw [List.getLastD_eq_getLast?, List.getLast_eq_iff_getLast?_eq_some, List.getLast?_cons]
      rw [hlast]
      rfl

theorem generateDoeByIndex_eq (zone : Zone) : generateDoeByIndex zone = generateDoe zone := by
  unfold generateDoeByIndex generateDoe
  simp only [linkChain_eq]

/-! ## Faults of a regeneration -/

theorem throwsLower_insertDoe (factory : RrsetFactory) (label lowerLabel upperLabel : Name) :
    ThrowsLower (insertDoe factory label lowerLabel upperLabel) :=
  (RrsetFactory.throwsLower_generateRrset _ _ _ _ _ _ _).bind fun doe ↦
    (throwsLower_insertRrset doe).bind fun _ ↦ throwsLower_pure ()

theorem throwsLower_insertRanges (factory : RrsetFactory) (first : Rrset) (rest : List Rrset) :
    ThrowsLower (insertRanges factory (first :: rest)) := by
  induction rest generalizing first with
  | nil => exact throwsLower_pure ()
  | cons second rest ih => exact (throwsLower_insertDoe _ _ _ _).bind fun _ ↦ ih second

theorem throwsLower_insertChain (factory : RrsetFactory) {allRecords : List Rrset}
    (hne : allRecords ≠ []) : ThrowsLower (insertChain factory allRecords) := by
  obtain ⟨first, rest, rfl⟩ := List.exists_cons_of_ne_nil hne
  exact (throwsLower_insertRanges factory first rest).bind fun _ ↦
    (throwsLower_insertDoe _ _ _ _).bind fun _ ↦ throwsLower_insertDoe _ _ _ _

/-- The statements of `generateDoe` after the records were selected. -/
def rebuild (zone : Zone) (allRecords : List Rrset) : Prog Zone := do
  let factory ← RrsetFactory.make zone.name defaultCert
  let factory ← raise (← factory.checkZoneKey)
  insertChain factory allRecords
  pure zone

variable {Keys : Type} {services : Services Keys} {db : Database}

theorem run_generateDoe (zone : Zone) (hid : (DbMgr.lookupZone db zone).id ≠ 0) (keys : Keys) :
    ∃ allRecords : List Rrset,
      allRecords.map doeName = recordNames db (DbMgr.lookupZone db zone).id ∧
      (generateDoe zone).run (World.handle services) ⟨db, keys⟩ =
        (rebuild (DbMgr.lookupZone db zone) allRecords).run (World.handle services)
          ⟨db.deleteRrsetsByType (DbMgr.lookupZone db zone).id Label.doeRrType, keys⟩ := by
  refine ⟨_, map_doeName_sorted db (DbMgr.lookupZone db zone), ?_⟩
  unfold generateDoe
  rw [Program.run_bind, DbMgr.run_findZone]
  simp only
  rw [require, if_pos hid, Program.pure_bind, Program.run_bind,
    DbMgr.run_removeRrsetsOfZoneByType hid]
  simp only
  rw [Program.run_bind, DbMgr.run_findRrsets hid]
  rfl

/-- A regeneration has a meaning for a zone that has a record, whatever becomes of its calls. -/
theorem meaningful_generateDoe {zone : Zone} (h : (DbMgr.lookupZone db zone).id = 0 ∨
    records db (DbMgr.lookupZone db zone).id ≠ []) (keys : Keys) :
    Meaningful ((generateDoe zone).run (World.handle services) ⟨db, keys⟩).1 := by
  by_cases hid : (DbMgr.lookupZone db zone).id = 0
  · unfold generateDoe
    rw [Program.run_bind, DbMgr.run_findZone]
    simp only
    rw [require, if_neg (by simpa using hid)]
    exact ⟨by simp [Program.run_bind], by simp [Program.run_bind]⟩
  · obtain ⟨allRecords, hnames, hrun⟩ := @run_generateDoe _ _ services db zone hid keys
    have hne : allRecords ≠ [] := by
      rintro rfl
      exact h.resolve_left hid (recordNames_eq_nil.mp hnames.symm)
    have hrebuild : ThrowsLower (rebuild (DbMgr.lookupZone db zone) allRecords) :=
      (RrsetFactory.throwsLower_make _ _).bind fun factory ↦
        RrsetFactory.throwsLower_checkZoneKey factory fun checked ↦
          (throwsLower_insertChain checked hne).bind fun _ ↦ throwsLower_pure _
    rw [hrun]
    refine (Program.Ends.weaken hrebuild fun outcome hlower ↦ ?_).run _
    cases outcome with
    | ok value => exact meaningful_ok value
    | error fault => exact meaningful_lower (hlower fault rfl)

/-- Without a record, a process that can do everything reaches the loop over the empty vector. -/
theorem not_meaningful_generateDoe {zone : Zone} (hid : (DbMgr.lookupZone db zone).id ≠ 0)
    (hempty : records db (DbMgr.lookupZone db zone).id = []) :
    ¬ Meaningful ((generateDoe zone).run (World.handle localServices) ⟨db, 0⟩).1 := by
  obtain ⟨allRecords, hnames, hrun⟩ := @run_generateDoe _ _ localServices db zone hid 0
  have hnil : allRecords = [] := by
    rw [recordNames_eq_nil.mpr hempty] at hnames
    exact List.map_eq_nil_iff.mp hnames
  have hzone : (DbMgr.lookupZone (db.deleteRrsetsByType (DbMgr.lookupZone db zone).id
      Label.doeRrType) (Zone.named (DbMgr.lookupZone db zone).name)).id ≠ 0 := by
    intro hzero
    refine hid ?_
    rw [← hzero]
    exact DbMgr.lookupZone_id_congr rfl (DbMgr.lookupZone_name db zone).symm
  obtain ⟨keys', hrebuild⟩ := RrsetFactory.run_checkedFactory (localServices_holdsKeys _) hzone
    (fun factory ↦ do
      insertChain factory []
      pure (DbMgr.lookupZone db zone)) 0
  rw [hrun, hnil]
  intro hmeaningful
  exact hmeaningful.1 (congrArg Prod.fst hrebuild)

/-- The loops of `generateDoe` and of the prefixes keep to their bounds exactly when there is a
record, if the zone is there at all, and the label is not empty. -/
theorem loops_within_bounds_iff (db : Database) (zone : Zone) (label : Name)
    (hlength : label.length < 2 ^ 64) :
    ((∀ (Keys : Type) (services : Services Keys) (keys : Keys), Meaningful
        ((generateDoeByIndex zone).run (World.handle services) ⟨db, keys⟩).1) ↔
      (DbMgr.lookupZone db zone).id = 0 ∨ records db (DbMgr.lookupZone db zone).id ≠ []) ∧
    (Executes (Label.sizeSub label.length 1) (label.length - 1) ↔ label ≠ []) := by
  refine ⟨⟨fun hall ↦ ?_, fun h Keys services keys ↦ ?_⟩, executes_iff hlength⟩
  · by_contra hnot
    rw [not_or, not_not] at hnot
    refine not_meaningful_generateDoe hnot.1 hnot.2 ?_
    rw [← generateDoeByIndex_eq]
    exact hall ℕ localServices 0
  · rw [generateDoeByIndex_eq]
    exact meaningful_generateDoe h keys

end ManagementTool

section Examples

open LocalServices

attribute [local instance] ndnPacketFormat

theorem loops_within_bounds_created : ManagementTool.Meaningful ((ManagementTool.generateDoeByIndex
    (Zone.named [letter 110])).run (World.handle localServices) ⟨createdDatabase, 0⟩).1 :=
  (ManagementTool.loops_within_bounds_iff createdDatabase (Zone.named [letter 110])
    [letter 97, letter 98] (by decide)).1.mpr (Or.inr (by decide)) ℕ localServices 0

/-- The label of the KSK or DSK certificate of the zone /n by the time its key was made. -/
def certLabel (time : ℕ) : Name := [CertHelper.keyComponent, Component.fromVersion time]

/-- The certificates of a new zone can be removed one after the other; the chain over what is left
reads outside of the vector.  The prefix loops of the empty label do not end. -/
theorem loops_out_of_bounds :
    (let removed := (ManagementTool.removeRrSet [letter 110] (certLabel 2) Label.certRrType).run
        (World.handle localServices) ⟨createdDatabase, 0⟩;
      removed.1 = .ok () ∧
        ((ManagementTool.removeRrSet [letter 110] (certLabel 4) Label.certRrType).run
          (World.handle localServices) removed.2).1 = .error .undefinedBehavior) ∧
    ((ManagementTool.addMultiLevelLabelRrset (Rrset.keyed (Zone.named [letter 110]) []
        Label.txtRrType) ⟨Zone.named [letter 110], [], true⟩ 3600).run (World.handle localServices)
          ⟨createdDatabase, 0⟩).1 = .error .nonTermination ∧
    ¬ Executes (Label.sizeSub ([] : Name).length 1) (([] : Name).length - 1) :=
  ⟨by decide +kernel, by decide +kernel, not_executes_empty 0⟩

end Examples

end Ndns.Mgmt
