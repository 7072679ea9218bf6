import Ndns.Daemon.HealthyDatabase
import Ndns.Mgmt.ManagementTool
import Mathlib.Order.Compare

/-!
# The Order of Stored Labels

SQLite compares labels in the form `saveName` writes them, the client and `generateDoe` compare
them as names.  Both comparisons have the same outcome, so what the statements select in the order
of the stored form is in the order of the names.
-/

namespace Ndns.Mgmt

open Ndn Calls Daemon ManagementTool

/-- Stored names compare like names. -/
theorem cmp_saveName (left right : Name) : cmp (saveName left) (saveName right) = cmp left right := by
  simp only [cmp, cmpUsing, saveName_lt_iff]

/-- `findRrsets` selects the records of a zone in the order of their labels. -/
theorem pairwise_zoneRows (db : Database) (zoneId : ℕ) :
    (DbMgr.zoneRows db zoneId).Pairwise fun left right ↦ left.label ≤ right.label := by
  refine (List.pairwise_insertionSort _ _).imp fun hle ↦ ?_
  have hlabel := RrsetRow.saveName_le_of_indexColumns_le hle
  rwa [← not_lt, saveName_lt_iff, not_lt] at hlabel

/-- Records with different labels are in the order of the stored form of their labels. -/
theorem rrsetKey_lt_iff {left right : Rrset} (hne : left.label ≠ right.label) :
    rrsetKey left < rrsetKey right ↔ saveName left.label < saveName right.label := by
  rw [saveName_lt_iff, rrsetKey, rrsetKey, Prod.Lex.toLex_lt_toLex]
  exact or_iff_left fun hsame ↦ hne hsame.1

/-- The order of the stored form is the order of names, and so are the orders that the statements
with `ORDER BY label` and `label<?` select in. -/
theorem stored_label_order :
    (∀ left right : Name, cmp (saveName left) (saveName right) = cmp left right) ∧
      (∀ left right : Rrset, left.label ≠ right.label →
        (rrsetKey left < rrsetKey right ↔ saveName left.label < saveName right.label)) ∧
      (∀ (db : Database) (zoneId : ℕ),
        (DbMgr.zoneRows db zoneId).Pairwise fun left right ↦ left.label ≤ right.label) ∧
      ∀ (db : Database) (zoneId : ℕ) (label : Name) (type : Component),
        (DbMgr.lowerBoundRow db zoneId label type = none ↔
          ∀ row ∈ db.rrsets, ¬ (row.zoneId = zoneId ∧ row.label < label ∧ row.type = type)) ∧
        ∀ row, DbMgr.lowerBoundRow db zoneId label type = some row →
          (row ∈ db.rrsets ∧ row.zoneId = zoneId ∧ row.label < label ∧ row.type = type) ∧
            ∀ other ∈ db.rrsets, other.zoneId = zoneId → other.label < label → other.type = type →
              other.label ≤ row.label :=
  ⟨cmp_saveName, fun _ _ ↦ rrsetKey_lt_iff, pairwise_zoneRows, fun _ _ _ _ ↦
    ⟨DbMgr.lowerBoundRow_eq_none, fun _ ↦ DbMgr.lowerBoundRow_eq_some⟩⟩

end Ndns.Mgmt
