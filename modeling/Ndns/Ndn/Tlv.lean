import Ndns.Order.LexCode

/-!
# Type-Length-Value Encoding

NDN packets, and the names inside them, are nested TLV elements.  Types and lengths are
variable-size numbers of 1, 3, 5 or 9 bytes; the encoder always takes the shortest form, and the
decoder accepts every form.  A `Block` carries the bounds its type and length fields impose, so an
element that could not be written on the wire cannot be built.

The shortest form is also order preserving: bigger numbers have bigger codes, whatever follows.
-/

namespace Ndns.Ndn

open Order.LexCode

abbrev Byte := Fin 256

instance neZero_byte : NeZero 256 := ⟨by decide⟩

abbrev Blob := List Byte

/-! ## Variable-size numbers -/

/-- Shortest VAR-NUMBER encoding of a 64-bit value. -/
def varNumber (value : ℕ) : Blob :=
  if value < 253 then [Fin.ofNat 256 value]
  else if value < 2 ^ 16 then 253 :: bigEndian 256 2 value
  else if value < 2 ^ 32 then 254 :: bigEndian 256 4 value
  else 255 :: bigEndian 256 8 value

/-- Number of bytes that follow the first octet of a VAR-NUMBER. -/
def varNumberWidth (first : Byte) : ℕ :=
  if first < 253 then 0 else if first = 253 then 2 else if first = 254 then 4 else 8

/-- Read a VAR-NUMBER of any form from the front of a buffer. -/
def readVarNumber : Blob → Option (ℕ × Blob)
  | [] => none
  | first :: rest =>
      if first < 253 then some (first.val, rest)
      else if rest.length < varNumberWidth first then none
      else some (ofBigEndian 256 (rest.take (varNumberWidth first)),
        rest.drop (varNumberWidth first))

theorem varNumber_ne_nil (value : ℕ) : varNumber value ≠ [] := by
  unfold varNumber
  split_ifs <;> simp

/-- The shortest form of a bigger number is bigger, whatever follows the two numbers. -/
theorem varNumber_ordered : Ordered (fun value : Fin (2 ^ 64) ↦ varNumber value.val) := by
  rintro ⟨left, hleft⟩ ⟨right, hright⟩ hlt tail tail'
  replace hlt : left < right := hlt
  have hsameWidth : ∀ (marker : Byte) (width : ℕ), right < 256 ^ width →
      marker :: bigEndian 256 width left ++ tail < marker :: bigEndian 256 width right ++ tail' := by
    intro marker width hwidth
    rw [List.cons_append, List.cons_append, List.cons_lt_cons_iff]
    exact Or.inr ⟨rfl, append_lt_append_of_length_eq (by simp) (bigEndian_lt_bigEndian hwidth hlt) _ _⟩
  have hsmaller : ∀ (first second : Byte) (rest rest' : Blob), first < second →
      first :: rest ++ tail < second :: rest' ++ tail' := by
    intro first second rest rest' hfirst
    rw [List.cons_append, List.cons_append, List.cons_lt_cons_iff]
    exact Or.inl hfirst
  have hbyte : ∀ value, value < 253 → ∀ marker : Byte, 253 ≤ marker →
      Fin.ofNat 256 value < marker := by
    intro value hvalue marker hmarker
    rw [Fin.lt_def, Fin.val_ofNat, Nat.mod_eq_of_lt (by omega)]
    exact hvalue.trans_le hmarker
  simp only [varNumber]
  split_ifs with h1 h2 h3 h4 h5 h6 h7 h8 h9 h10 h11 h12
  all_goals first
    | omega
    | exact hsameWidth _ _ (by norm_num; omega)
    | exact hsmaller _ _ _ _ (by decide)
    | exact hsmaller _ _ _ _ (hbyte left (by omega) _ (by decide))
    | skip
  rw [List.cons_append, List.cons_append, List.cons_lt_cons_iff]
  left
  rw [Fin.lt_def, Fin.val_ofNat, Fin.val_ofNat, Nat.mod_eq_of_lt (by omega),
    Nat.mod_eq_of_lt (by omega)]
  exact hlt

/-- Reading the shortest form recovers the number and leaves the rest of the buffer. -/
theorem readVarNumber_varNumber {value : ℕ} (hvalue : value < 2 ^ 64) (rest : Blob) :
    readVarNumber (varNumber value ++ rest) = some (value, rest) := by
  have hwide : ∀ (marker : Byte) (width : ℕ), ¬ marker < 253 → varNumberWidth marker = width →
      value < 256 ^ width →
      readVarNumber (marker :: bigEndian 256 width value ++ rest) = some (value, rest) := by
    intro marker width hmarker hwidth hfits
    simp only [List.cons_append, readVarNumber, if_neg hmarker, hwidth]
    rw [if_neg (by simp), List.take_append_of_le_length (by simp),
      List.drop_append_of_le_length (by simp), List.take_of_length_le (by simp),
      List.drop_of_length_le (by simp), ofBigEndian_bigEndian, Nat.mod_eq_of_lt hfits]
    rfl
  unfold varNumber
  split_ifs with h1 h2 h3
  · have hbyte : (Fin.ofNat 256 value).val = value := by
      rw [Fin.val_ofNat, Nat.mod_eq_of_lt (by omega)]
    have hsmall : Fin.ofNat 256 value < 253 := by
      rw [Fin.lt_def, hbyte]
      exact h1
    simp only [List.cons_append, List.nil_append, readVarNumber, if_pos hsmall, hbyte]
  · exact hwide 253 2 (by decide) rfl (by norm_num; omega)
  · exact hwide 254 4 (by decide) rfl (by norm_num; omega)
  · exact hwide 255 8 (by decide) rfl (by norm_num; omega)

/-! ## Elements -/

/-- One TLV element.  The fields bound what the type and length numbers can express. -/
structure Block where
  type : ℕ
  value : Blob
  type_pos : 0 < type
  type_lt : type < 2 ^ 32
  size_lt : value.length < 2 ^ 64
deriving DecidableEq

/-- Build an element from computed bytes; `none` when no length number could describe them. -/
def Block.make (type : ℕ) (htype : 0 < type ∧ type < 2 ^ 32) (value : Blob) : Option Block :=
  if hsize : value.length < 2 ^ 64 then some ⟨type, value, htype.1, htype.2, hsize⟩ else none

/-- Wire encoding of an element. -/
def Block.encode (block : Block) : Blob :=
  varNumber block.type ++ varNumber block.value.length ++ block.value

/-- Read one element from the front of a buffer; truncated elements are refused. -/
def readBlock (buffer : Blob) : Option (Block × Blob) :=
  match readVarNumber buffer with
  | none => none
  | some (type, rest) =>
      match readVarNumber rest with
      | none => none
      | some (length, rest) =>
          -- the last conjunct is implied by the width of a length number
          if h : (0 < type ∧ type < 2 ^ 32) ∧ length ≤ rest.length ∧ length < 2 ^ 64 then
            some (⟨type, rest.take length, h.1.1, h.1.2,
              (List.length_take_le length rest).trans_lt h.2.2⟩, rest.drop length)
          else none

/-- Split a buffer into elements, within a bound on their number. -/
def readBlocks : ℕ → Blob → Option (List Block)
  | _, [] => some []
  | 0, _ :: _ => none
  | bound + 1, byte :: buffer =>
      match readBlock (byte :: buffer) with
      | none => none
      | some (block, rest) => (readBlocks bound rest).map (block :: ·)

/-- `Block::parse`: the sub-elements of a TLV-VALUE.  Every element takes at least one byte, so
the length of the value bounds their number. -/
def parseBlocks (value : Blob) : Option (List Block) := readBlocks value.length value

/-- `Block::blockFromValue`: the element at the front of a TLV-VALUE. -/
def blockFromValue (value : Blob) : Option Block := (readBlock value).map Prod.fst

theorem Block.make_eq_some {type : ℕ} {htype : 0 < type ∧ type < 2 ^ 32} {value : Blob}
    {block : Block} (h : Block.make type htype value = some block) :
    block.type = type ∧ block.value = value := by
  unfold Block.make at h
  split_ifs at h
  cases h
  exact ⟨rfl, rfl⟩

theorem Block.encode_ne_nil (block : Block) : block.encode ≠ [] := by
  simp [Block.encode, varNumber_ne_nil]

theorem Block.length_encode_pos (block : Block) : 0 < block.encode.length :=
  List.length_pos_iff.mpr block.encode_ne_nil

theorem readBlock_encode (block : Block) (rest : Blob) :
    readBlock (block.encode ++ rest) = some (block, rest) := by
  have htype : block.type < 2 ^ 64 := block.type_lt.trans (by decide)
  simp only [readBlock, Block.encode, List.append_assoc, readVarNumber_varNumber htype,
    readVarNumber_varNumber block.size_lt]
  rw [dif_pos ⟨⟨block.type_pos, block.type_lt⟩, by simp, block.size_lt⟩]
  simp

/-- Elements written one after another are read back in order. -/
theorem readBlocks_flatMap_encode (blocks : List Block) {bound : ℕ} (hbound : blocks.length ≤ bound) :
    readBlocks bound (blocks.flatMap Block.encode) = some blocks := by
  induction blocks generalizing bound with
  | nil => cases bound <;> rfl
  | cons block blocks ih =>
      obtain ⟨bound, rfl⟩ : ∃ smaller, bound = smaller + 1 :=
        ⟨bound - 1, by simp only [List.length_cons] at hbound; omega⟩
      have hread := readBlock_encode block (blocks.flatMap Block.encode)
      obtain ⟨byte, buffer, hbuffer⟩ :=
        List.exists_cons_of_ne_nil (List.append_ne_nil_of_left_ne_nil block.encode_ne_nil
          (blocks.flatMap Block.encode))
      rw [List.flatMap_cons, hbuffer, readBlocks, ← hbuffer, hread]
      simp only [ih (by simpa using hbound), Option.map_some]

theorem parseBlocks_flatMap_encode (blocks : List Block) :
    parseBlocks (blocks.flatMap Block.encode) = some blocks := by
  refine readBlocks_flatMap_encode blocks ?_
  induction blocks with
  | nil => simp
  | cons block blocks ih =>
      have hpos := block.length_encode_pos
      simp only [List.flatMap_cons, List.length_append, List.length_cons]
      omega

theorem blockFromValue_encode (block : Block) : blockFromValue block.encode = some block := by
  have h := readBlock_encode block []
  rw [List.append_nil] at h
  simp [blockFromValue, h]

/-- Non-negative integer in the shortest of the widths 1, 2, 4 and 8. -/
def nonNegativeInteger (value : ℕ) : Blob :=
  if value < 2 ^ 8 then bigEndian 256 1 value
  else if value < 2 ^ 16 then bigEndian 256 2 value
  else if value < 2 ^ 32 then bigEndian 256 4 value
  else bigEndian 256 8 value

end Ndns.Ndn
