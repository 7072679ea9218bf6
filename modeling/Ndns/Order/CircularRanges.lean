import Mathlib.Order.Basic
import Mathlib.Data.List.Nodup
import Mathlib.Data.List.Sort
import Mathlib.Order.Bounds.Basic

/-!
# Ranges around a Circle of Values

`ranges values` links each value of a list to the next one, and the last one back to the first.  A
range excludes what lies strictly between its ends; a descending range stands for everything
outside of its ends.

The values need not be in order.  A list with two different values always has a descending range,
and the range that starts at the greatest value below a query excludes the query, unless the list
has only one value.

On the circle of a set, `Next` leads from each value to the next greater one, and `Between` holds
what lies on the way.  The ranges of a list are those of `Next` exactly when the list is in order,
and exclusion is `Between` for ascending ranges.
-/

namespace Ndns.Order.CircularRanges

variable {α : Type*}

/-! ## The ranges of a list -/

/-- The ranges from `value` on through the rest of a list, and then back to `first`. -/
def rangesFrom (first : α) : α → List α → List (α × α)
  | value, [] => [(value, first)]
  | value, next :: rest => (value, next) :: rangesFrom first next rest

def ranges : List α → List (α × α)
  | [] => []
  | first :: rest => rangesFrom first first rest

/-- The range from the last value back to the first. -/
def closing (first : α) (rest : List α) : α × α := (rest.getLastD first, first)

/-- The ranges between neighbours, without the closing one. -/
def neighbours : α → List α → List (α × α)
  | _, [] => []
  | value, next :: rest => (value, next) :: neighbours next rest

theorem rangesFrom_eq (first value : α) (rest : List α) :
    rangesFrom first value rest = neighbours value rest ++ [(rest.getLastD value, first)] := by
  induction rest generalizing value with
  | nil => rfl
  | cons next rest ih => rw [rangesFrom, neighbours, ih, List.cons_append, List.getLastD_cons]

@[simp]
theorem length_neighbours (value : α) (rest : List α) :
    (neighbours value rest).length = rest.length := by
  induction rest generalizing value with
  | nil => rfl
  | cons next rest ih => rw [neighbours, List.length_cons, ih, List.length_cons]

theorem mem_rangesFrom {first value : α} {rest : List α} {range : α × α}
    (h : range ∈ rangesFrom first value rest) :
    range.1 ∈ value :: rest ∧ (range.2 = first ∨ range.2 ∈ rest) := by
  induction rest generalizing value with
  | nil =>
      rw [List.mem_singleton.mp h]
      exact ⟨List.mem_cons_self, Or.inl rfl⟩
  | cons next rest ih =>
      rcases List.mem_cons.mp h with rfl | h
      · exact ⟨List.mem_cons_self, Or.inr List.mem_cons_self⟩
      · obtain ⟨hstart, hstop⟩ := ih h
        exact ⟨List.mem_cons_of_mem _ hstart, hstop.imp_right (List.mem_cons_of_mem _)⟩

/-- Both ends of a range are values. -/
theorem mem_ranges {values : List α} {range : α × α} (h : range ∈ ranges values) :
    range.1 ∈ values ∧ range.2 ∈ values := by
  cases values with
  | nil => cases h
  | cons first rest =>
      obtain ⟨hstart, rfl | hstop⟩ := mem_rangesFrom h
      · exact ⟨hstart, List.mem_cons_self⟩
      · exact ⟨hstart, List.mem_cons_of_mem _ hstop⟩

theorem map_fst_rangesFrom (first value : α) (rest : List α) :
    (rangesFrom first value rest).map Prod.fst = value :: rest := by
  induction rest generalizing value with
  | nil => rfl
  | cons next rest ih => rw [rangesFrom, List.map_cons, ih]

/-- Each value starts exactly one range. -/
@[simp]
theorem map_fst_ranges (values : List α) : (ranges values).map Prod.fst = values := by
  cases values with
  | nil => rfl
  | cons first rest => exact map_fst_rangesFrom first first rest

theorem ne_of_mem_rangesFrom {first value : α} {rest : List α} {range : α × α}
    (hnodup : (value :: rest).Nodup) (hfirst : first ∉ value :: rest)
    (h : range ∈ rangesFrom first value rest) : range.1 ≠ range.2 := by
  induction rest generalizing value with
  | nil =>
      rw [List.mem_singleton.mp h]
      rintro (heq : value = first)
      exact hfirst (heq ▸ List.mem_cons_self)
  | cons next rest ih =>
      rcases List.mem_cons.mp h with rfl | h
      · rintro (heq : value = next)
        exact (List.nodup_cons.mp hnodup).1 (heq ▸ List.mem_cons_self)
      · exact ih (List.nodup_cons.mp hnodup).2
          (fun hmem ↦ hfirst (List.mem_cons_of_mem _ hmem)) h

/-- The ends of a range differ when there are two values and none is repeated. -/
theorem ne_of_mem_ranges {first second : α} {rest : List α} {range : α × α}
    (hnodup : (first :: second :: rest).Nodup) (h : range ∈ ranges (first :: second :: rest)) :
    range.1 ≠ range.2 := by
  have hsplit := List.nodup_cons.mp hnodup
  rcases List.mem_cons.mp h with rfl | h
  · rintro (heq : first = second)
    exact hsplit.1 (heq ▸ List.mem_cons_self)
  · exact ne_of_mem_rangesFrom hsplit.2 hsplit.1 h

/-! ## Exclusion -/

variable [LinearOrder α]

/-- What a range excludes: the values between its ends, or those outside of descending ends. -/
def Excludes (range : α × α) (query : α) : Prop :=
  (range.1 < query ∧ query < range.2) ∨
    (range.2 < range.1 ∧ (query < range.1 ∨ range.2 < query))

/-- The two conditions on the outside of a descending range hold for every value. -/
theorem excludes_iff {range : α × α} {query : α} :
    Excludes range query ↔ range.2 < range.1 ∨ range.1 < query ∧ query < range.2 := by
  constructor
  · rintro (hbetween | ⟨hdescending, -⟩)
    · exact Or.inr hbetween
    · exact Or.inl hdescending
  · rintro (hdescending | hbetween)
    · rcases lt_or_ge query range.1 with hbelow | habove
      · exact Or.inr ⟨hdescending, Or.inl hbelow⟩
      · exact Or.inr ⟨hdescending, Or.inr (hdescending.trans_le habove)⟩
    · exact Or.inl hbetween

theorem le_of_ascending {first value : α} {rest : List α}
    (h : ∀ range ∈ rangesFrom first value rest, range.1 ≤ range.2) :
    (∀ other ∈ rest, value ≤ other ∧ other ≤ first) ∧ value ≤ first := by
  induction rest generalizing value with
  | nil => exact ⟨by simp, h _ List.mem_cons_self⟩
  | cons next rest ih =>
      have hnext : value ≤ next := h _ List.mem_cons_self
      obtain ⟨hrest, hfirst⟩ := ih fun range hrange ↦ h range (List.mem_cons_of_mem _ hrange)
      refine ⟨fun other hother ↦ ?_, hnext.trans hfirst⟩
      rcases List.mem_cons.mp hother with rfl | hother
      · exact ⟨hnext, hfirst⟩
      · exact ⟨hnext.trans (hrest other hother).1, (hrest other hother).2⟩

/-- Going around a circle of different values leads down somewhere. -/
theorem exists_descending {values : List α} {left right : α} (hleft : left ∈ values)
    (hright : right ∈ values) (hne : left ≠ right) :
    ∃ range ∈ ranges values, range.2 < range.1 := by
  cases values with
  | nil => cases hleft
  | cons first rest =>
      by_contra hnone
      have hascending : ∀ range ∈ rangesFrom first first rest, range.1 ≤ range.2 :=
        fun range hrange ↦ not_lt.mp fun hlt ↦ hnone ⟨range, hrange, hlt⟩
      have hall : ∀ other ∈ first :: rest, other = first := by
        intro other hother
        rcases List.mem_cons.mp hother with rfl | hother
        · rfl
        · obtain ⟨hge, hle⟩ := (le_of_ascending hascending).1 other hother
          exact le_antisymm hle hge
      exact hne ((hall left hleft).trans (hall right hright).symm)

/-- No range excludes a value exactly when all values are the same. -/
theorem forall_not_excludes_iff {values : List α} :
    (∀ range ∈ ranges values, ∀ value ∈ values, ¬ Excludes range value) ↔
      ∀ left ∈ values, ∀ right ∈ values, left = right := by
  constructor
  · intro hsound left hleft right hright
    by_contra hne
    obtain ⟨range, hrange, hdescending⟩ := exists_descending hleft hright hne
    exact hsound range hrange left hleft (excludes_iff.mpr (Or.inl hdescending))
  · intro hsame range hrange value hvalue hexcludes
    obtain ⟨hstart, hstop⟩ := mem_ranges hrange
    have hends := hsame range.1 hstart range.2 hstop
    rcases excludes_iff.mp hexcludes with hdescending | ⟨hlow, hhigh⟩
    · exact hdescending.ne hends.symm
    · exact (hlow.trans hhigh).ne hends

/-- The range that starts at the greatest value below a query excludes the query. -/
theorem excludes_of_greatest_below {values : List α} {range : α × α} {query : α}
    (hrange : range ∈ ranges values) (hends : range.1 ≠ range.2) (hbelow : range.1 < query)
    (hgreatest : ∀ value ∈ values, value < query → value ≤ range.1) (hquery : query ∉ values) :
    Excludes range query := by
  rw [excludes_iff]
  rcases lt_or_gt_of_ne hends with hascending | hdescending
  · right
    obtain ⟨-, hstop⟩ := mem_ranges hrange
    refine ⟨hbelow, lt_of_not_ge fun hge ↦ ?_⟩
    rcases hge.lt_or_eq with hlt | heq
    · exact absurd (hgreatest range.2 hstop hlt) (not_le.mpr hascending)
    · exact hquery (heq ▸ hstop)
  · exact Or.inl hdescending

/-- A range whose start is not below a query excludes it exactly when the range descends. -/
theorem excludes_iff_descending {range : α × α} {query : α} (habove : query ≤ range.1) :
    Excludes range query ↔ range.2 < range.1 := by
  rw [excludes_iff]
  exact or_iff_left fun hbetween ↦ absurd hbetween.1 (not_lt.mpr habove)

/-! ## The circle of a set -/

/-- The next value on the circle of a set: the least greater one, or the least one of all after the
greatest. -/
def Next (values : Set α) (value next : α) : Prop :=
  IsLeast {other ∈ values | value < other} next ∨ IsGreatest values value ∧ IsLeast values next

theorem Next.unique {values : Set α} {value next next' : α} (h : Next values value next)
    (h' : Next values value next') : next = next' := by
  rcases h with h | ⟨hgreatest, h⟩ <;> rcases h' with h' | ⟨hgreatest', h'⟩
  · exact h.unique h'
  · exact absurd (hgreatest'.2 h.1.1) (not_le.mpr h.1.2)
  · exact absurd (hgreatest.2 h'.1.1) (not_le.mpr h'.1.2)
  · exact h.unique h'

/-- What lies strictly between the ends of a range on the way up from its start.  A range with
equal ends goes all the way around. -/
def Between (range : α × α) (query : α) : Prop :=
  if range.1 < range.2 then range.1 < query ∧ query < range.2
  else if range.2 < range.1 then range.1 < query ∨ query < range.2
  else query ≠ range.1

theorem Between.ne {range : α × α} {query : α} (h : Between range query) :
    query ≠ range.1 ∧ query ≠ range.2 := by
  unfold Between at h
  split_ifs at h with hascending hdescending
  · exact ⟨h.1.ne', h.2.ne⟩
  · rcases h with habove | hbelow
    · exact ⟨habove.ne', (hdescending.trans habove).ne'⟩
    · exact ⟨(hbelow.trans hdescending).ne, hbelow.ne⟩
  · have hends := le_antisymm (not_lt.mp hdescending) (not_lt.mp hascending)
    exact ⟨h, hends ▸ h⟩

/-- Exclusion is right about every query on an ascending range, about the queries on the way on a
descending one, and about the end itself where the ends are equal. -/
theorem excludes_iff_between_iff {range : α × α} {query : α} :
    (Excludes range query ↔ Between range query) ↔
      range.1 < range.2 ∨ (range.2 < range.1 ∧ (range.1 < query ∨ query < range.2)) ∨
        (range.1 = range.2 ∧ query = range.1) := by
  rw [excludes_iff, Between]
  rcases lt_trichotomy range.1 range.2 with hascending | hends | hdescending
  · simp [hascending, hascending.not_gt]
  · have hnone : ¬ (range.1 < query ∧ query < range.1) := fun h ↦ h.1.not_gt h.2
    simp [← hends, hnone]
  · simp [hdescending, hdescending.not_gt, hdescending.ne']

/-- In a list in order, every range leads to the next value. -/
theorem next_of_pairwise {values : Set α} {first value : α} {rest : List α}
    (hsorted : (value :: rest).Pairwise (· < ·)) (hsub : ∀ other ∈ value :: rest, other ∈ values)
    (hmem : ∀ other ∈ values, other ≤ value ∨ other ∈ rest) (hfirst : IsLeast values first) :
    (∀ range ∈ rangesFrom first value rest, Next values range.1 range.2) ∧
      IsGreatest values (rest.getLastD value) := by
  induction rest generalizing value with
  | nil =>
      have hgreatest : IsGreatest values value :=
        ⟨hsub value List.mem_cons_self, fun other hother ↦
          (hmem other hother).resolve_right (List.not_mem_nil)⟩
      refine ⟨fun range hrange ↦ ?_, hgreatest⟩
      rw [List.mem_singleton.mp hrange]
      exact Or.inr ⟨hgreatest, hfirst⟩
  | cons next rest ih =>
      obtain ⟨hvalue, hrest⟩ := List.pairwise_cons.mp hsorted
      have hnext : value < next := hvalue next List.mem_cons_self
      obtain ⟨hranges, hgreatest⟩ := ih hrest
        (fun other hother ↦ hsub other (List.mem_cons_of_mem _ hother)) fun other hother ↦ by
          rcases hmem other hother with hle | hother
          · exact Or.inl (hle.trans hnext.le)
          · exact (List.mem_cons.mp hother).imp le_of_eq id
      refine ⟨fun range hrange ↦ ?_, by rwa [List.getLastD_cons]⟩
      rcases List.mem_cons.mp hrange with rfl | hrange
      · refine Or.inl ⟨⟨hsub next (by simp), hnext⟩, fun other ⟨hother, hlt⟩ ↦ ?_⟩
        rcases List.mem_cons.mp ((hmem other hother).resolve_left (not_le.mpr hlt)) with rfl | hother
        · exact le_rfl
        · exact ((List.pairwise_cons.mp hrest).1 other hother).le
      · exact hranges range hrange

/-- When every step between neighbours leads to the next value, and the last value is the greatest,
the list is in order. -/
theorem pairwise_of_next {values : Set α} {value : α} {rest : List α}
    (hnodup : (value :: rest).Nodup)
    (hnext : ∀ range ∈ neighbours value rest, Next values range.1 range.2)
    (hlast : IsGreatest values (rest.getLastD value)) : (value :: rest).Pairwise (· < ·) := by
  induction rest generalizing value with
  | nil => exact List.pairwise_singleton _ _
  | cons next rest ih =>
      obtain ⟨hnotMem, hnodup'⟩ := List.nodup_cons.mp hnodup
      rw [List.getLastD_cons] at hlast
      have hsorted := ih hnodup' (fun range hrange ↦ hnext range (List.mem_cons_of_mem _ hrange))
        hlast
      have hlt : value < next := by
        rcases hnext (value, next) List.mem_cons_self with hleast | ⟨hgreatest, -⟩
        · exact hleast.1.2
        · have hsame : value = rest.getLastD next := hgreatest.unique hlast
          refine absurd (hsame ▸ ?_) hnotMem
          exact List.getLastD_mem_cons
      refine List.pairwise_cons.mpr ⟨fun other hother ↦ ?_, hsorted⟩
      rcases List.mem_cons.mp hother with rfl | hother
      · exact hlt
      · exact hlt.trans ((List.pairwise_cons.mp hsorted).1 other hother)

/-- A property of the pairs of a list in order is one of its values. -/
theorem pairwise_iff_of_lt {values : List α} {related : α → α → Prop}
    (hsorted : values.Pairwise (· < ·)) : values.Pairwise related ↔
      ∀ left ∈ values, ∀ right ∈ values, left < right → related left right := by
  constructor
  · intro hpairs left hleft right hright hlt
    have hordered : values.Pairwise fun left right ↦ left < right → related left right := by
      apply hpairs.imp
      exact fun h _ ↦ h
    exact hordered.forall_of_forall_of_flip (fun other _ hlt ↦ absurd hlt (lt_irrefl other))
      (hsorted.imp fun hlt hgt ↦ absurd hgt hlt.not_gt) hleft hright hlt
  · intro hall
    exact hsorted.imp_of_mem fun hleft hright hlt ↦ hall _ hleft _ hright hlt

/-! ## Values in the order of a key -/

/-- Sorting depends only on what is sorted. -/
theorem insertionSort_eq_of_perm {left right : List α} (h : left.Perm right) :
    left.insertionSort (· ≤ ·) = right.insertionSort (· ≤ ·) :=
  List.Perm.eq_of_pairwise' (List.pairwise_insertionSort _ _) (List.pairwise_insertionSort _ _)
    (((List.perm_insertionSort _ _).trans h).trans (List.perm_insertionSort _ _).symm)

/-- Sorting by a finer key sorts every coarser key as well. -/
theorem map_insertionSort {β : Type*} {fine : β → β → Prop} [DecidableRel fine] [Std.Total fine]
    [IsTrans β fine] {key : β → α} (hkey : ∀ left right, fine left right → key left ≤ key right)
    (values : List β) :
    (values.insertionSort fine).map key = (values.map key).insertionSort (· ≤ ·) := by
  refine List.Perm.eq_of_pairwise' ?_ (List.pairwise_insertionSort (· ≤ ·) _) ?_
  · exact (List.pairwise_insertionSort fine values).map key hkey
  · exact ((List.perm_insertionSort fine values).map key).trans
      (List.perm_insertionSort (· ≤ ·) _).symm

end Ndns.Order.CircularRanges
