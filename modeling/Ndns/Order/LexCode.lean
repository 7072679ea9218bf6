import Mathlib.Data.List.Lex
import Mathlib.Order.Fin.Basic
import Mathlib.Data.Nat.ModEq
import Mathlib.Tactic.Ring

/-!
# Order-Preserving Codes into Lexicographic Strings

A store that compares keys as byte strings sorts encoded values by their codes.  A code is
`Ordered` when a smaller value keeps a smaller code whatever is written after either of them;
such codes can be concatenated, so a sequence of values is sorted like the concatenation of its
codes.  The module also supplies fixed-width big-endian digits, the usual building block of an
ordered code, with their decoder.
-/

namespace Ndns.Order.LexCode

variable {α β : Type*}

/-- Equal-length strings are decided before any continuation is reached. -/
theorem append_lt_append_of_length_eq [LinearOrder β] {left right : List β}
    (hlength : left.length = right.length) (hlt : left < right) (tail tail' : List β) :
    left ++ tail < right ++ tail' := by
  induction left generalizing right with
  | nil =>
      have hright : right = [] := List.length_eq_zero_iff.mp hlength.symm
      subst hright
      exact absurd hlt (lt_irrefl _)
  | cons head left ih =>
      cases right with
      | nil => simp at hlength
      | cons head' right =>
          rw [List.cons_lt_cons_iff] at hlt
          rw [List.cons_append, List.cons_append, List.cons_lt_cons_iff]
          rcases hlt with hhead | ⟨hhead, htail⟩
          · exact Or.inl hhead
          · exact Or.inr ⟨hhead, ih (by simpa using hlength) htail⟩

/-- Strings with one more element each keep their order, unless the first one ends inside of the
second and its new element is greater than the one it meets there. -/
theorem append_singleton_lt_iff [LinearOrder β] {left right : List β} (hlt : left < right)
    (last last' : β) : left ++ [last] < right ++ [last'] ↔
      ∀ next rest, right = left ++ next :: rest → last ≤ next := by
  induction left generalizing right with
  | nil =>
      cases right with
      | nil => exact absurd hlt (lt_irrefl _)
      | cons head right =>
          rw [List.nil_append, List.cons_append, List.cons_lt_cons_iff]
          constructor
          · rintro hlast next rest heq
            obtain ⟨rfl, -⟩ := List.cons.inj heq
            exact hlast.elim le_of_lt fun h ↦ h.1.le
          · intro hlast
            rcases (hlast head right rfl).lt_or_eq with hlt | heq
            · exact Or.inl hlt
            · exact Or.inr ⟨heq, by cases right <;> simp⟩
  | cons head left ih =>
      cases right with
      | nil => simp at hlt
      | cons head' right =>
          rw [List.cons_append, List.cons_append, List.cons_lt_cons_iff]
          rcases List.cons_lt_cons_iff.mp hlt with hhead | ⟨rfl, hrest⟩
          · refine ⟨fun _ next rest heq ↦ ?_, fun _ ↦ Or.inl hhead⟩
            exact absurd (List.cons.inj heq).1 hhead.ne'
          · simp [ih hrest]

/-- A smaller value has a smaller code, whatever follows the two codes. -/
def Ordered [LT α] [LT β] (code : α → List β) : Prop :=
  ∀ ⦃left right : α⦄, left < right → ∀ tail tail' : List β, code left ++ tail < code right ++ tail'

namespace Ordered

variable [LinearOrder α] [LinearOrder β] {code : α → List β}

theorem lt_of_lt (hcode : Ordered code) {left right : α} (hlt : left < right) :
    code left < code right := by
  simpa using hcode hlt [] []

theorem injective (hcode : Ordered code) : Function.Injective code := by
  intro left right heq
  rcases lt_trichotomy left right with hlt | hsame | hgt
  · exact absurd heq (hcode.lt_of_lt hlt).ne
  · exact hsame
  · exact absurd heq (hcode.lt_of_lt hgt).ne'

/-- A sequence of values is below another exactly when the concatenated codes are. -/
theorem flatMap_lt_flatMap_of_lt (hcode : Ordered code) (hnonempty : ∀ value, code value ≠ [])
    {left right : List α} (hlt : left < right) : left.flatMap code < right.flatMap code := by
  induction left generalizing right with
  | nil =>
      cases right with
      | nil => exact absurd hlt (lt_irrefl _)
      | cons value right =>
          obtain ⟨head, rest, hhead⟩ := List.exists_cons_of_ne_nil (hnonempty value)
          simp [List.flatMap_cons, hhead]
  | cons value left ih =>
      cases right with
      | nil => simp at hlt
      | cons value' right =>
          rw [List.flatMap_cons, List.flatMap_cons]
          rcases List.cons_lt_cons_iff.mp hlt with hvalue | ⟨rfl, hrest⟩
          · exact hcode hvalue _ _
          · exact List.append_left_lt (ih hrest)

theorem flatMap_lt_flatMap_iff (hcode : Ordered code) (hnonempty : ∀ value, code value ≠ [])
    {left right : List α} : left.flatMap code < right.flatMap code ↔ left < right := by
  refine ⟨fun hlt ↦ ?_, hcode.flatMap_lt_flatMap_of_lt hnonempty⟩
  rcases lt_trichotomy left right with h | rfl | h
  · exact h
  · exact absurd hlt (lt_irrefl _)
  · exact absurd (hlt.trans (hcode.flatMap_lt_flatMap_of_lt hnonempty h)) (lt_irrefl _)

theorem flatMap_injective (hcode : Ordered code) (hnonempty : ∀ value, code value ≠ []) :
    Function.Injective (fun values : List α ↦ values.flatMap code) := by
  intro left right heq
  rcases lt_trichotomy left right with hlt | hsame | hgt
  · exact absurd heq (hcode.flatMap_lt_flatMap_of_lt hnonempty hlt).ne
  · exact hsame
  · exact absurd heq (hcode.flatMap_lt_flatMap_of_lt hnonempty hgt).ne'

end Ordered

/-! ## Fixed-width big-endian digits -/

section BigEndian

variable (base : ℕ) [NeZero base]

/-- The lowest `width` digits of a natural number, most significant first. -/
def bigEndian : ℕ → ℕ → List (Fin base)
  | 0, _ => []
  | width + 1, value => Fin.ofNat base (value / base ^ width) :: bigEndian width value

/-- The number a digit string denotes, read most significant digit first. -/
def ofBigEndian (digits : List (Fin base)) : ℕ :=
  digits.foldl (fun total digit ↦ total * base + digit.val) 0

variable {base}

@[simp]
theorem bigEndian_length (width value : ℕ) : (bigEndian base width value).length = width := by
  induction width with
  | zero => rfl
  | succ width ih => simp [bigEndian, ih]

theorem bigEndian_mod (width value : ℕ) :
    bigEndian base width (value % base ^ width) = bigEndian base width value := by
  have hlow : ∀ width shift : ℕ, bigEndian base width (value % base ^ (width + shift)) =
      bigEndian base width value := by
    intro width
    induction width with
    | zero => intro shift; rfl
    | succ width ih =>
        intro shift
        rw [bigEndian, bigEndian]
        congr 1
        · apply Fin.ext
          have hsplit : base ^ (width + 1 + shift) = base ^ width * base ^ (1 + shift) := by
            rw [← pow_add, add_assoc]
          simp only [Fin.val_ofNat]
          rw [hsplit, Nat.mod_mul_right_div_self, pow_add, pow_one,
            Nat.mod_mul_right_mod]
        · have hshift := ih (1 + shift)
          rwa [← add_assoc] at hshift
  simpa using hlow width 0

/-- Within the width, bigger numbers have bigger digit strings. -/
theorem bigEndian_lt_bigEndian {width left right : ℕ} (hright : right < base ^ width)
    (hlt : left < right) : bigEndian base width left < bigEndian base width right := by
  induction width generalizing left right with
  | zero => simp at hright; omega
  | succ width ih =>
      have hpos : 0 < base ^ width := Nat.pow_pos (Nat.pos_of_ne_zero (NeZero.ne base))
      have hdigit : ∀ value, value < base ^ (width + 1) → value / base ^ width < base := by
        intro value hvalue
        exact Nat.div_lt_of_lt_mul (by rwa [pow_succ] at hvalue)
      have hleftDigit := hdigit left (hlt.trans hright)
      have hrightDigit := hdigit right hright
      rw [bigEndian, bigEndian, List.cons_lt_cons_iff]
      rcases (Nat.div_le_div_right hlt.le : left / base ^ width ≤ right / base ^ width).lt_or_eq
        with hquotient | hquotient
      · left
        rw [Fin.lt_def]
        simpa [Fin.val_ofNat, Nat.mod_eq_of_lt hleftDigit, Nat.mod_eq_of_lt hrightDigit]
          using hquotient
      · right
        refine ⟨by rw [hquotient], ?_⟩
        rw [← bigEndian_mod width left, ← bigEndian_mod width right]
        refine ih (Nat.mod_lt _ hpos) ?_
        have hleftSplit := Nat.div_add_mod left (base ^ width)
        have hrightSplit := Nat.div_add_mod right (base ^ width)
        rw [hquotient] at hleftSplit
        omega

theorem foldl_bigEndian (base : ℕ) [NeZero base] (width value start : ℕ) :
    (bigEndian base width value).foldl (fun total digit ↦ total * base + digit.val) start =
      start * base ^ width + value % base ^ width := by
  induction width generalizing start with
  | zero => simp [bigEndian, Nat.mod_one]
  | succ width ih =>
      rw [bigEndian, List.foldl_cons, ih, Fin.val_ofNat, pow_succ' base width,
        Nat.mul_comm base (base ^ width), Nat.mod_mul]
      ring

/-- Reading back the digits recovers the number modulo the width. -/
theorem ofBigEndian_bigEndian (width value : ℕ) :
    ofBigEndian base (bigEndian base width value) = value % base ^ width := by
  have hfold := foldl_bigEndian base width value 0
  rwa [Nat.zero_mul, Nat.zero_add] at hfold

omit [NeZero base] in
theorem ofBigEndian_cons (digit : Fin base) (digits : List (Fin base)) :
    ofBigEndian base (digit :: digits) =
      digit.val * base ^ digits.length + ofBigEndian base digits := by
  have hstart : ∀ start, digits.foldl (fun total digit ↦ total * base + digit.val) start =
      start * base ^ digits.length + ofBigEndian base digits := by
    unfold ofBigEndian
    induction digits with
    | nil => simp
    | cons head digits ih =>
        intro start
        rw [List.foldl_cons, List.foldl_cons, ih, ih (0 * base + head.val), List.length_cons, pow_succ]
        ring
  simpa [ofBigEndian] using hstart digit.val

omit [NeZero base] in
theorem ofBigEndian_lt (digits : List (Fin base)) :
    ofBigEndian base digits < base ^ digits.length := by
  induction digits with
  | nil => simp [ofBigEndian]
  | cons digit digits ih =>
      rw [ofBigEndian_cons, List.length_cons, pow_succ']
      calc digit.val * base ^ digits.length + ofBigEndian base digits
          < digit.val * base ^ digits.length + base ^ digits.length := Nat.add_lt_add_left ih _
        _ = (digit.val + 1) * base ^ digits.length := by ring
        _ ≤ base * base ^ digits.length := Nat.mul_le_mul_right _ digit.isLt

/-- Digits are written back as they were read. -/
theorem bigEndian_ofBigEndian (digits : List (Fin base)) :
    bigEndian base digits.length (ofBigEndian base digits) = digits := by
  induction digits with
  | nil => rfl
  | cons digit digits ih =>
      have hlow := ofBigEndian_lt digits
      have hpos : 0 < base ^ digits.length := Nat.zero_lt_of_lt hlow
      have hhigh : (digit.val * base ^ digits.length + ofBigEndian base digits) /
          base ^ digits.length = digit.val := by
        rw [Nat.mul_comm, Nat.mul_add_div hpos, Nat.div_eq_of_lt hlow, Nat.add_zero]
      rw [ofBigEndian_cons, List.length_cons, bigEndian, hhigh, Fin.ofNat_val_eq_self,
        ← bigEndian_mod, Nat.mul_comm, Nat.mul_add_mod, Nat.mod_eq_of_lt hlow, ih]

end BigEndian

end Ndns.Order.LexCode
