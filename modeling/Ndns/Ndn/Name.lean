import Ndns.Ndn.Tlv
import Mathlib.Data.Prod.Lex
import Mathlib.Data.List.Infix

/-!
# NDN Names and Their Sortable Form

A name is a sequence of typed components.  Components are ordered by type, then by length, then
by bytes; names are ordered component by component, with a proper prefix first.  This is the
canonical order, and the one the linear order instances below give.

`saveName` is the byte string a name is stored under, and `saveName_lt_iff` is the reason that
string is called sortable: comparing stored byte strings is comparing names.
-/

namespace Ndns.Ndn

open Order.LexCode

/-! ## Components -/

/-- A name component: a type number and a byte string. -/
structure Component where
  type : ℕ
  value : Blob
  type_pos : 0 < type
  type_le : type ≤ 65535
  size_lt : value.length < 2 ^ 64

namespace Component

/-- The sort key of a component. -/
def sortKey (component : Component) : ℕ ×ₗ ℕ ×ₗ Blob :=
  toLex (component.type, toLex (component.value.length, component.value))

theorem sortKey_injective : Function.Injective sortKey := by
  rintro ⟨type, value, _, _, _⟩ ⟨type', value', _, _, _⟩ heq
  have hpair := congrArg ofLex heq
  have hinner := congrArg (fun pair : ℕ × (ℕ ×ₗ Blob) ↦ ofLex pair.2) hpair
  have htype : type = type' := congrArg Prod.fst hpair
  have hvalue : value = value' := congrArg Prod.snd hinner
  subst htype hvalue
  rfl

/-- Canonical order: by type, then by length, then by bytes. -/
instance : LinearOrder Component := LinearOrder.lift' sortKey sortKey_injective

instance lawfulBEq : LawfulBEq Component := inferInstance

theorem lt_iff {left right : Component} : left < right ↔
    left.type < right.type ∨ left.type = right.type ∧
      (left.value.length < right.value.length ∨
        left.value.length = right.value.length ∧ left.value < right.value) := by
  change sortKey left < sortKey right ↔ _
  simp only [sortKey, Prod.Lex.toLex_lt_toLex]

/-- A component as a TLV element. -/
def toBlock (component : Component) : Block where
  type := component.type
  value := component.value
  type_pos := component.type_pos
  type_lt := component.type_le.trans_lt (by decide)
  size_lt := component.size_lt

/-- `Component::wireDecode`: types outside 1..65535 are refused. -/
def ofBlock (block : Block) : Option Component :=
  if h : block.type ≤ 65535 then
    some ⟨block.type, block.value, block.type_pos, h, block.size_lt⟩
  else none

@[simp]
theorem ofBlock_toBlock (component : Component) : ofBlock component.toBlock = some component := by
  simp [ofBlock, toBlock, component.type_le]

/-- Wire encoding of a component. -/
def encode (component : Component) : Blob := component.toBlock.encode

theorem encode_ne_nil (component : Component) : component.encode ≠ [] :=
  Block.encode_ne_nil _

/-- The component encoding is order preserving across every boundary of its two numbers. -/
theorem encode_ordered : Ordered encode := by
  intro left right hlt tail tail'
  have hnumber : ∀ {number number' : ℕ}, number < number' → number' < 2 ^ 64 →
      ∀ rest rest' : Blob, varNumber number ++ rest < varNumber number' ++ rest' := by
    intro number number' hnumber hbound rest rest'
    have hfin : (⟨number, hnumber.trans hbound⟩ : Fin (2 ^ 64)) < ⟨number', hbound⟩ := hnumber
    exact varNumber_ordered hfin rest rest'
  have htype : right.type < 2 ^ 64 := right.type_le.trans_lt (by decide)
  simp only [encode, toBlock, Block.encode, List.append_assoc]
  rcases lt_iff.mp hlt with h | ⟨hsame, h | ⟨hlength, hvalue⟩⟩
  · exact hnumber h htype _ _
  · rw [hsame]
    exact List.append_left_lt (hnumber h right.size_lt _ _)
  · rw [hsame, hlength]
    exact List.append_left_lt (List.append_left_lt
      (append_lt_append_of_length_eq hlength hvalue _ _))

@[simp]
theorem encode_inj {left right : Component} : left.encode = right.encode ↔ left = right :=
  encode_ordered.injective.eq_iff

/-- A component without a type of its own. -/
def generic (value : Blob) (hsize : value.length < 2 ^ 64) : Component where
  type := 8
  value := value
  type_pos := by decide
  type_le := by decide
  size_lt := hsize

/-- The component a default-constructed `name::Component` holds. -/
def empty : Component := generic [] (by decide)

/-- `Component::empty`: no bytes in the value. -/
def isEmpty (component : Component) : Bool := component.value.isEmpty

/-- TLV type of a version component. -/
def versionType : ℕ := 54

/-- `Component::isVersion`: a version-typed component holding a number. -/
def isVersion (component : Component) : Bool :=
  component.type = versionType ∧
    (component.value.length = 1 ∨ component.value.length = 2 ∨
      component.value.length = 4 ∨ component.value.length = 8)

/-- A version component holds a number, so it is not empty. -/
theorem isEmpty_of_isVersion {component : Component} (h : component.isVersion = true) :
    component.isEmpty = false := by
  have hlength := (of_decide_eq_true h).2
  cases hvalue : component.value with
  | nil => simp [hvalue] at hlength
  | cons byte rest => simp [isEmpty, hvalue]

theorem nonNegativeInteger_length (value : ℕ) : (nonNegativeInteger value).length = 1 ∨
    (nonNegativeInteger value).length = 2 ∨ (nonNegativeInteger value).length = 4 ∨
      (nonNegativeInteger value).length = 8 := by
  unfold nonNegativeInteger
  split_ifs <;> simp

/-- `Component::fromVersion`. -/
def fromVersion (version : ℕ) : Component where
  type := versionType
  value := nonNegativeInteger version
  type_pos := by decide
  type_le := by decide
  size_lt := by
    rcases nonNegativeInteger_length version with h | h | h | h <;> rw [h] <;> decide

end Component

/-! ## Names -/

/-- A name is its sequence of components; the list order is the canonical order. -/
abbrev Name := List Component

namespace Name

/-- `Name::getSubName`: `count` components from `start` on, fewer when the name ends first. -/
def getSubName (name : Name) (start count : ℕ) : Name := (name.drop start).take count

/-- `Name::getPrefix`. -/
def getPrefix (name : Name) (count : ℕ) : Name := name.take count

/-- `Name::get` with a negative index, without the bounds check it does not make. -/
def getFromEnd (name : Name) (back : ℕ) : Option Component :=
  if back ≤ name.length then name[name.length - back]? else none

@[simp]
theorem getFromEnd_append_singleton (name : Name) (last : Component) :
    getFromEnd (name ++ [last]) 1 = some last := by
  simp [getFromEnd]

@[simp]
theorem getFromEnd_append_pair (name : Name) (first last : Component) :
    getFromEnd (name ++ [first, last]) 2 = some first := by
  simp [getFromEnd]

@[simp]
theorem getFromEnd_append_pair_one (name : Name) (first last : Component) :
    getFromEnd (name ++ [first, last]) 1 = some last := by
  simp [getFromEnd]

end Name

/-- The sortable form of a name: the encodings of its components, one after another. -/
def saveName (name : Name) : Blob := name.flatMap Component.encode

/-- Stored byte strings sort like the names they stand for. -/
@[simp]
theorem saveName_lt_iff {left right : Name} : saveName left < saveName right ↔ left < right :=
  Component.encode_ordered.flatMap_lt_flatMap_iff Component.encode_ne_nil

theorem saveName_injective : Function.Injective saveName :=
  Component.encode_ordered.flatMap_injective Component.encode_ne_nil

@[simp]
theorem saveName_inj {left right : Name} : saveName left = saveName right ↔ left = right :=
  saveName_injective.eq_iff

namespace Name

/-- TLV type of a name. -/
def tlvType : ℕ := 7

/-- `Name::wireEncode`; `none` when the name is too long to be described by a length number. -/
def toBlock (name : Name) : Option Block := Block.make tlvType (by decide) (saveName name)

/-- `Name::wireDecode`: the element must be a name and hold well-typed components only. -/
def ofBlock (block : Block) : Option Name :=
  if block.type = tlvType then (parseBlocks block.value).bind (·.mapM Component.ofBlock) else none

theorem mapM_ofBlock_toBlock (name : Name) :
    (name.map Component.toBlock).mapM Component.ofBlock = some name := by
  induction name with
  | nil => rfl
  | cons component name ih =>
      rw [List.map_cons, List.mapM_cons, Component.ofBlock_toBlock, ih]
      rfl

theorem ofBlock_of_toBlock {name : Name} {block : Block} (h : toBlock name = some block) :
    ofBlock block = some name := by
  obtain ⟨htype, hvalue⟩ := Block.make_eq_some h
  have hparse : parseBlocks (saveName name) = some (name.map Component.toBlock) := by
    rw [← parseBlocks_flatMap_encode, List.flatMap_map]
    rfl
  rw [ofBlock, if_pos htype, hvalue, hparse, Option.bind_some, mapM_ofBlock_toBlock]

end Name

end Ndns.Ndn
