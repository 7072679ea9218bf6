import Ndns.Daemon.DbMgr

/-!
# Names Read Back from the Database

`restoreName` walks over the stored bytes and moves on by the size each decoded component reports.
The decoder takes numbers of any width, so the walk ends at the last byte for any content, and the
name it returns encodes back to the same bytes exactly when every number was in its shortest form.
-/

namespace Ndns.Daemon

open Ndn Order.LexCode

/-! ## Reading one element -/

section Elements

variable {buffer rest : Blob} {number : ℕ} {block : Block}

/-- The number at the front of the buffer, if there is one, is in its shortest form. -/
def ShortestAtFront (buffer : Blob) : Prop :=
  ∀ number rest, readVarNumber buffer = some (number, rest) →
    buffer.length = (varNumber number).length + rest.length

/-- What is read of a number is a nonempty piece of the buffer. -/
theorem readVarNumber_eq_some (h : readVarNumber buffer = some (number, rest)) :
    ∃ taken, taken ≠ [] ∧ buffer = taken ++ rest := by
  cases buffer with
  | nil => cases h
  | cons first tail =>
      simp only [readVarNumber] at h
      split_ifs at h
      · cases h
        exact ⟨[first], List.cons_ne_nil _ _, rfl⟩
      · cases h
        exact ⟨first :: tail.take (varNumberWidth first), List.cons_ne_nil _ _, by simp⟩

/-- The first octet of a wide number tells its width. -/
theorem varNumberWidth_cases {first : Byte} (h : ¬ first < 253) :
    (first = 253 ∧ varNumberWidth first = 2) ∨ (first = 254 ∧ varNumberWidth first = 4) ∨
      (first = 255 ∧ varNumberWidth first = 8) := by
  have hvalue : first.val = 253 ∨ first.val = 254 ∨ first.val = 255 := by
    have hwide : ¬ first.val < 253 := h
    omega
  rcases hvalue with hvalue | hvalue | hvalue
  · obtain rfl : first = 253 := Fin.ext hvalue
    exact Or.inl ⟨rfl, rfl⟩
  · obtain rfl : first = 254 := Fin.ext hvalue
    exact Or.inr (Or.inl ⟨rfl, rfl⟩)
  · obtain rfl : first = 255 := Fin.ext hvalue
    exact Or.inr (Or.inr ⟨rfl, rfl⟩)

/-- The shortest form with a given number of bytes after the first one. -/
theorem varNumber_of_length {first : Byte} (hwide : ¬ first < 253)
    (hnumber : number < 256 ^ varNumberWidth first)
    (hlength : (varNumber number).length = varNumberWidth first + 1) :
    varNumber number = first :: bigEndian 256 (varNumberWidth first) number := by
  rcases varNumberWidth_cases hwide with ⟨rfl, hwidth⟩ | ⟨rfl, hwidth⟩ | ⟨rfl, hwidth⟩
  all_goals
    rw [hwidth] at hnumber hlength ⊢
    unfold varNumber at hlength ⊢
    split_ifs at hlength ⊢ <;> simp_all

/-- A number in its shortest form is the encoding of what is read. -/
theorem eq_varNumber_append (hread : readVarNumber buffer = some (number, rest))
    (hshortest : ShortestAtFront buffer) : buffer = varNumber number ++ rest := by
  have hlength := hshortest number rest hread
  cases buffer with
  | nil => cases hread
  | cons first tail =>
      simp only [readVarNumber] at hread
      split_ifs at hread with hsmall hwidth
      · cases hread
        have hvalue : first.val < 253 := Fin.lt_def.mp hsmall
        rw [varNumber, if_pos hvalue, Fin.ofNat_val_eq_self]
        rfl
      · cases hread
        have htaken : (tail.take (varNumberWidth first)).length = varNumberWidth first :=
          List.length_take_of_le (not_lt.mp hwidth)
        have hnumber := ofBigEndian_lt (tail.take (varNumberWidth first))
        have hdigits := bigEndian_ofBigEndian (tail.take (varNumberWidth first))
        rw [htaken] at hnumber hdigits
        rw [List.length_cons, List.length_drop] at hlength
        rw [varNumber_of_length hsmall hnumber (by omega), hdigits, List.cons_append,
          List.take_append_drop]

/-- The number at the front of an encoding is in its shortest form. -/
theorem shortestAtFront_varNumber (hnumber : number < 2 ^ 64) (rest : Blob) :
    ShortestAtFront (varNumber number ++ rest) := by
  intro number' rest' hread
  cases (readVarNumber_varNumber hnumber rest).symm.trans hread
  rw [List.length_append]

/-- An element is read as two numbers and the bytes they announce. -/
theorem readBlock_eq_some (h : readBlock buffer = some (block, rest)) :
    ∃ afterType afterLength, readVarNumber buffer = some (block.type, afterType) ∧
      readVarNumber afterType = some (block.value.length, afterLength) ∧
      afterLength = block.value ++ rest := by
  unfold readBlock at h
  cases htype : readVarNumber buffer with
  | none => simp [htype] at h
  | some typeResult =>
      obtain ⟨type, afterType⟩ := typeResult
      cases hlength : readVarNumber afterType with
      | none => simp [htype, hlength] at h
      | some lengthResult =>
          obtain ⟨length, afterLength⟩ := lengthResult
          simp only [htype, hlength] at h
          split_ifs at h with hfits
          cases h
          refine ⟨afterType, afterLength, rfl, ?_, (List.take_append_drop _ _).symm⟩
          rw [hlength, List.length_take_of_le hfits.2.1]

/-- An element takes at least one byte. -/
theorem readBlock_taken (h : readBlock buffer = some (block, rest)) :
    ∃ taken, taken ≠ [] ∧ buffer = taken ++ rest := by
  obtain ⟨afterType, afterLength, htype, hlength, rfl⟩ := readBlock_eq_some h
  obtain ⟨typeBytes, hne, rfl⟩ := readVarNumber_eq_some htype
  obtain ⟨lengthBytes, -, rfl⟩ := readVarNumber_eq_some hlength
  exact ⟨typeBytes ++ (lengthBytes ++ block.value), List.append_ne_nil_of_left_ne_nil hne _,
    by simp⟩

end Elements

/-! ## The walk -/

namespace DbMgr

/-- What `restoreName` throws for bytes that are not a sequence of components. -/
def restoreError : Fault := .dbMgrError "Error while decoding name from the database"

/-- `component.wireDecode(Block(buffer))`, with the `size` the component then reports. -/
def decodeComponent (buffer : Blob) : Option (Component × ℕ) :=
  match readBlock buffer with
  | none => none
  | some (block, rest) =>
      (Component.ofBlock block).map fun component ↦ (component, buffer.length - rest.length)

/-- A decoded component reports a positive size, and that many bytes are what was read. -/
theorem decodeComponent_eq_some {buffer : Blob} {component : Component} {size : ℕ}
    (h : decodeComponent buffer = some (component, size)) :
    0 < size ∧ size ≤ buffer.length ∧ ∃ block, readBlock buffer = some (block, buffer.drop size) ∧
      Component.ofBlock block = some component := by
  unfold decodeComponent at h
  cases hread : readBlock buffer with
  | none => simp [hread] at h
  | some result =>
      obtain ⟨block, rest⟩ := result
      simp only [hread, Option.map_eq_some_iff, Prod.mk.injEq] at h
      obtain ⟨component', hcomponent, rfl, rfl⟩ := h
      obtain ⟨taken, hne, rfl⟩ := readBlock_taken hread
      have hsize : (taken ++ rest).length - rest.length = taken.length := by simp
      rw [hsize, List.drop_left]
      exact ⟨List.length_pos_iff.mpr hne, by simp, block, rfl, hcomponent⟩

/-- The loop of `restoreName`. -/
def restoreFrom (name : Name) (buffer : Blob) : Except Fault Name :=
  if buffer.isEmpty then .ok name
  else
    match _hdecode : decodeComponent buffer with
    | none => .error restoreError
    | some (component, size) => restoreFrom (name ++ [component]) (buffer.drop size)
termination_by buffer.length
decreasing_by
  have hsize := decodeComponent_eq_some _hdecode
  rw [List.length_drop]
  omega

/-- `DbMgr::restoreName`. -/
def restoreName (buffer : Blob) : Except Fault Name := restoreFrom [] buffer

end DbMgr

/-! ## What the walk returns -/

/-- The elements of a byte string, one after another, are these components. -/
inductive Holds : Blob → Name → Prop
  | nil : Holds [] []
  | cons {buffer rest : Blob} {block : Block} {component : Component} {name : Name} :
      readBlock buffer = some (block, rest) → Component.ofBlock block = some component →
        Holds rest name → Holds buffer (component :: name)

/-- The walk appends the components of the bytes that are left, or throws `DbMgr::Error`. -/
theorem DbMgr.restoreFrom_cases (name : Name) (buffer : Blob) :
    restoreFrom name buffer = .error restoreError ∨
      ∃ tail, restoreFrom name buffer = .ok (name ++ tail) ∧ Holds buffer tail := by
  fun_induction restoreFrom name buffer with
  | case1 name buffer hempty =>
      rw [List.isEmpty_iff.mp hempty]
      exact Or.inr ⟨[], by rw [List.append_nil], Holds.nil⟩
  | case2 => exact Or.inl rfl
  | case3 name buffer hempty component size hdecode ih =>
      obtain ⟨-, -, block, hread, hcomponent⟩ := decodeComponent_eq_some hdecode
      apply ih.imp_right
      rintro ⟨tail, hresult, hholds⟩
      exact ⟨component :: tail, by rw [hresult, List.append_assoc]; rfl,
        Holds.cons hread hcomponent hholds⟩

/-- Where elements begin. -/
inductive ElementAt (bytes : Blob) : Blob → Prop
  | front : ElementAt bytes bytes
  | next {buffer rest : Blob} {block : Block} : ElementAt bytes buffer →
      readBlock buffer = some (block, rest) → ElementAt bytes rest

/-- The type and length numbers of all elements are in their shortest form. -/
def UsesShortestNumbers (bytes : Blob) : Prop :=
  ∀ buffer, ElementAt bytes buffer → ShortestAtFront buffer ∧
    ∀ type rest, readVarNumber buffer = some (type, rest) → ShortestAtFront rest

theorem usesShortestNumbers_iff {buffer rest : Blob} {block : Block}
    (hread : readBlock buffer = some (block, rest)) : UsesShortestNumbers buffer ↔
      (ShortestAtFront buffer ∧ ∀ type after, readVarNumber buffer = some (type, after) →
        ShortestAtFront after) ∧ UsesShortestNumbers rest := by
  constructor
  · intro h
    refine ⟨h buffer .front, fun later hlater ↦ h later ?_⟩
    induction hlater with
    | front => exact .next .front hread
    | next _ hnext ih => exact .next ih hnext
  · rintro ⟨hfront, hrest⟩ later hlater
    have hplace : later = buffer ∨ ElementAt rest later := by
      induction hlater with
      | front => exact Or.inl rfl
      | next _ hnext ih =>
          rcases ih with rfl | ih
          · cases hread.symm.trans hnext
            exact Or.inr .front
          · exact Or.inr (.next ih hnext)
    rcases hplace with rfl | hplace
    · exact hfront
    · exact hrest later hplace

/-- One element is in its shortest form exactly when it is written back as it was. -/
theorem shortest_iff_encode {buffer rest : Blob} {block : Block}
    (hread : readBlock buffer = some (block, rest)) :
    (ShortestAtFront buffer ∧ ∀ type after, readVarNumber buffer = some (type, after) →
        ShortestAtFront after) ↔ buffer = block.encode ++ rest := by
  have htypeSize : block.type < 2 ^ 64 := block.type_lt.trans (by decide)
  constructor
  · rintro ⟨hfront, hafter⟩
    obtain ⟨afterType, afterLength, htype, hlength, rfl⟩ := readBlock_eq_some hread
    rw [eq_varNumber_append htype hfront,
      eq_varNumber_append hlength (hafter _ _ htype), Block.encode]
    simp only [List.append_assoc]
  · rintro rfl
    rw [Block.encode, List.append_assoc, List.append_assoc]
    refine ⟨shortestAtFront_varNumber htypeSize _, fun type after htype ↦ ?_⟩
    cases (readVarNumber_varNumber htypeSize _).symm.trans htype
    exact shortestAtFront_varNumber block.size_lt _

theorem encode_of_ofBlock {block : Block} {component : Component}
    (h : Component.ofBlock block = some component) : component.encode = block.encode := by
  unfold Component.ofBlock at h
  split_ifs at h
  cases h
  rfl

namespace Holds

variable {buffer : Blob} {name : Name}

/-- The components encode back to the bytes exactly when all numbers were in their shortest form. -/
theorem usesShortestNumbers_iff (h : Holds buffer name) :
    UsesShortestNumbers buffer ↔ saveName name = buffer := by
  induction h with
  | nil =>
      refine iff_of_true ?_ rfl
      intro later hlater
      have hempty : later = [] := by
        induction hlater with
        | front => rfl
        | next _ hnext ih =>
            subst ih
            cases hnext
      subst hempty
      exact ⟨nofun, nofun⟩
  | @cons buffer rest block component name hread hcomponent _ ih =>
      have hencode : saveName (component :: name) = block.encode ++ saveName name := by
        rw [saveName, List.flatMap_cons, encode_of_ofBlock hcomponent, saveName]
      rw [Daemon.usesShortestNumbers_iff hread, shortest_iff_encode hread, ih, hencode]
      constructor
      · rintro ⟨hfront, hrest⟩
        rw [hrest, ← hfront]
      · intro hwhole
        rw [← hwhole, readBlock_encode] at hread
        cases hread
        exact ⟨hwhole.symm, rfl⟩

end Holds

namespace DbMgr

theorem decodeComponent_encode (component : Component) (rest : Blob) :
    decodeComponent (component.encode ++ rest) = some (component, component.encode.length) := by
  have hread : readBlock (component.encode ++ rest) = some (component.toBlock, rest) :=
    readBlock_encode component.toBlock rest
  simp [decodeComponent, hread]

/-- The walk over a stored name. -/
theorem restoreFrom_saveName (name tail : Name) :
    restoreFrom name (saveName tail) = .ok (name ++ tail) := by
  induction tail generalizing name with
  | nil =>
      rw [restoreFrom, if_pos (by rfl), List.append_nil]
  | cons component tail ih =>
      have hstored : saveName (component :: tail) = component.encode ++ saveName tail :=
        List.flatMap_cons
      have hnonempty : ¬ (saveName (component :: tail)).isEmpty := by
        simp [hstored, component.encode_ne_nil]
      rw [restoreFrom, if_neg hnonempty, hstored]
      split
      · rename_i hdecode
        rw [decodeComponent_encode] at hdecode
        cases hdecode
      · rename_i component' size hdecode
        rw [decodeComponent_encode] at hdecode
        cases hdecode
        rw [List.drop_left, ih, List.append_assoc]
        rfl

/-- Every stored name is restored, and for any other bytes the walk ends too: it throws
`DbMgr::Error`, or returns a name that is stored as these bytes if they use shortest numbers, and
as others if they do not. -/
theorem restoreName_exact :
    (∀ name, restoreName (saveName name) = .ok name) ∧
      ∀ bytes, restoreName bytes = .error restoreError ∨
        ∃ name, restoreName bytes = .ok name ∧
          (UsesShortestNumbers bytes ↔ saveName name = bytes) := by
  refine ⟨fun name ↦ restoreFrom_saveName [] name, fun bytes ↦ ?_⟩
  apply (restoreFrom_cases [] bytes).imp_right
  rintro ⟨name, hresult, hholds⟩
  exact ⟨name, hresult, hholds.usesShortestNumbers_iff⟩

end DbMgr

end Ndns.Daemon
