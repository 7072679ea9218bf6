import Mathlib.Data.List.Perm.Basic
import Mathlib.Order.Lattice

/-!
# The Latest Offer Wins

A register holds a value with a stamp, and a newer offer takes its place.  When no two offers have
the same stamp, the order of the offers makes no difference: the newest one is held in the end.  An offer that was
taken gives way to newer ones only.
-/

namespace Ndns.Order.LatestWins

variable {Stamp Value : Type} [LinearOrder Stamp] {held : Option (Stamp × Value)}
  {offers offers' : List (Stamp × Value)} {best : Stamp × Value}

/-- An offer takes the place of what is held when it is newer. -/
def offer (held : Option (Stamp × Value)) (new : Stamp × Value) : Option (Stamp × Value) :=
  match held with
  | none => some new
  | some old => if old.1 < new.1 then some new else some old

/-- Offers with the same stamp are the same. -/
def Distinguished (offers : List (Stamp × Value)) : Prop :=
  ∀ left ∈ offers, ∀ right ∈ offers, left.1 = right.1 → left = right

/-- An older offer before a newer one makes no difference. -/
theorem offer_older {old new : Stamp × Value} (h : old.1 < new.1) :
    offer (offer held old) new = offer held new := by
  cases held with
  | none => exact if_pos h
  | some first =>
      by_cases hfirst : first.1 < old.1
      · simp only [offer, if_pos hfirst, if_pos h, if_pos (hfirst.trans h)]
      · simp only [offer, if_neg hfirst]

/-- An older offer after a newer one makes no difference either. -/
theorem offer_late {old new : Stamp × Value} (h : old.1 < new.1) :
    offer (offer held new) old = offer held new := by
  cases held with
  | none => exact if_neg h.not_gt
  | some first =>
      by_cases hfirst : first.1 < new.1
      · simp only [offer, if_pos hfirst, if_neg h.not_gt]
      · have hold : ¬ first.1 < old.1 := fun hlt ↦ hfirst (hlt.trans h)
        simp only [offer, if_neg hfirst, if_neg hold]

theorem offer_right_comm {left right : Stamp × Value} (h : left.1 = right.1 → left = right) :
    offer (offer held left) right = offer (offer held right) left := by
  rcases lt_trichotomy left.1 right.1 with hlt | hsame | hlt
  · rw [offer_older hlt, offer_late hlt]
  · rw [h hsame]
  · rw [offer_older hlt, offer_late hlt]

/-- What is held after some offers does not depend on their order. -/
theorem foldl_offer_perm (hperm : offers.Perm offers') (hdistinguished : Distinguished offers)
    (held : Option (Stamp × Value)) : offers.foldl offer held = offers'.foldl offer held :=
  hperm.foldl_eq' (fun left hleft right hright _ ↦
    offer_right_comm (hdistinguished left hleft right hright)) held

/-- What is held after some offers: one of them or what was held before, and nothing is newer. -/
structure Newest (held : Option (Stamp × Value)) (offers : List (Stamp × Value))
    (best : Stamp × Value) : Prop where
  mem : held = some best ∨ best ∈ offers
  held_le : ∀ old, held = some old → old.1 ≤ best.1
  le : ∀ new ∈ offers, new.1 ≤ best.1

theorem newest_of_foldl (h : offers.foldl offer held = some best) : Newest held offers best := by
  induction offers generalizing held with
  | nil => exact ⟨Or.inl h, fun old hold ↦ (Option.some.inj (hold.symm.trans h)).symm ▸ le_rfl, by simp⟩
  | cons new offers ih =>
      have hrest := ih h
      have hoffer : ∃ next, offer held new = some next ∧ (held = some next ∨ next = new) ∧
          (∀ old, held = some old → old.1 ≤ next.1) ∧ new.1 ≤ next.1 := by
        cases held with
        | none => exact ⟨new, rfl, Or.inr rfl, by simp, le_rfl⟩
        | some old =>
            by_cases hold : old.1 < new.1
            · exact ⟨new, if_pos hold, Or.inr rfl, by simpa using hold.le, le_rfl⟩
            · exact ⟨old, if_neg hold, Or.inl rfl, by simp, not_lt.mp hold⟩
      obtain ⟨next, hnext, hmem, hle, hnew⟩ := hoffer
      have hbest := hrest.held_le next hnext
      refine ⟨?_, fun old hold ↦ (hle old hold).trans hbest, ?_⟩
      · rcases hrest.mem with hheld | hoffers
        · obtain rfl := Option.some.inj (hnext.symm.trans hheld)
          exact hmem.imp_right fun hsame ↦ List.mem_cons.mpr (Or.inl hsame)
        · exact Or.inr (List.mem_cons_of_mem _ hoffers)
      · intro other hother
        rcases List.mem_cons.mp hother with rfl | hother
        · exact hnew.trans hbest
        · exact hrest.le other hother

/-! ## Offers that were taken -/

/-- An offer is held, or a newer one. -/
def Covered (held : Option (Stamp × Value)) (made : Stamp × Value) : Prop :=
  ∃ best, held = some best ∧ made.1 ≤ best.1 ∧ (made.1 = best.1 → best = made)

/-- An offer that is newer than what is held is taken. -/
theorem covered_of_newer {made : Stamp × Value}
    (h : ∀ old, held = some old → old.1 < made.1) : Covered (offer held made) made := by
  refine ⟨made, ?_, le_rfl, fun _ ↦ rfl⟩
  cases held with
  | none => rfl
  | some old => exact if_pos (h old rfl)

/-- No later offer undoes an earlier one. -/
theorem Covered.offer {made : Stamp × Value} (h : Covered held made) (new : Stamp × Value) :
    Covered (offer held new) made := by
  obtain ⟨best, rfl, hle, hsame⟩ := h
  by_cases hnewer : best.1 < new.1
  · exact ⟨new, if_pos hnewer, hle.trans hnewer.le, fun heq ↦ absurd heq (hle.trans_lt hnewer).ne⟩
  · exact ⟨best, if_neg hnewer, hle, hsame⟩

end Ndns.Order.LatestWins
