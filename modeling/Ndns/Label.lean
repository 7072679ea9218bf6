import Ndns.Ndn.Packet

/-!
# Record Types, Content Types and Name Matching

The marker components of the name service, the content types of its packets, and the two
`matchName` parsers.  Both parsers work by position only: the assertions of `calculateSkip` that
compare the prefix of the name with the zone are compiled out in the default build, so only the
length of the zone name enters the result.
-/

namespace Ndns

open Ndn

namespace Label

/-! ## Marker components -/

/-- `NDNS_ITERATIVE_QUERY`, the component that separates a zone from a record label. -/
def ndnsIterativeQuery : Component := Component.generic [78, 68, 78, 83] (by decide)

/-- `NDNS_UPDATE_LABEL`. -/
def ndnsUpdateLabel : Component := Component.generic [85, 80, 68, 65, 84, 69] (by decide)

def nsRrType : Component := Component.generic [78, 83] (by decide)

def certRrType : Component := Component.generic [67, 69, 82, 84] (by decide)

def appcertRrType : Component := Component.generic [65, 80, 80, 67, 69, 82, 84] (by decide)

def txtRrType : Component := Component.generic [84, 88, 84] (by decide)

def doeRrType : Component := Component.generic [68, 79, 69] (by decide)

end Label

/-- `NdnsContentType`.  The enumeration is cast from the number in the packet, so every number
has a value; `other` collects the ones without a name. -/
inductive NdnsContentType where
  | blob
  | link
  | key
  | nack
  | doe
  | auth
  | resp
  | unknown
  | other (code : ℕ)
deriving DecidableEq

namespace NdnsContentType

/-- The cast from the content type number of a packet. -/
def ofCode : ℕ → NdnsContentType
  | 0 => .blob
  | 1 => .link
  | 2 => .key
  | 3 => .nack
  | 1085 => .doe
  | 1086 => .auth
  | 1087 => .resp
  | 1088 => .unknown
  | code => .other code

/-- The number written into a packet. -/
def toCode : NdnsContentType → ℕ
  | .blob => 0
  | .link => 1
  | .key => 2
  | .nack => 3
  | .doe => 1085
  | .auth => 1086
  | .resp => 1087
  | .unknown => 1088
  | .other code => code

@[simp]
theorem toCode_ofCode (code : ℕ) : (ofCode code).toCode = code := by
  unfold ofCode
  split <;> rfl

end NdnsContentType

namespace Label

/-! ## Name matching -/

/-- What `matchName` reads off a name. -/
structure MatchResult where
  rrLabel : Name
  rrType : Component
  version : Component
deriving DecidableEq

/-- Outcome of a positional parse.  `outOfBounds` is the unchecked access of a component the name
does not have, after which the program has no defined behaviour. -/
inductive MatchOutcome where
  | outOfBounds
  | noMatch
  | matched (result : MatchResult)
deriving DecidableEq

/-- Subtraction of two `size_t` values, which wraps below zero. -/
def sizeSub (left right : ℕ) : ℕ :=
  if right ≤ left then left - right else left + 2 ^ 64 - right

/-- `calculateSkip`: the zone name and the marker component. -/
def calculateSkip (zone : Name) : ℕ := zone.length + 1

/-- `matchName` on the name of an Interest: zone, marker, label, type and an optional version. -/
def matchInterestName (name zone : Name) : MatchOutcome :=
  let skip := calculateSkip zone
  if sizeSub name.length skip < 1 then .noMatch
  else
    match name.getFromEnd 1 with
    | none => .outOfBounds
    | some last =>
        let offset := if last.isVersion then 2 else 1
        let version := if last.isVersion then last else Component.empty
        match name.getFromEnd offset with
        | none => .outOfBounds
        | some rrType => .matched
            { rrLabel := name.getSubName skip (sizeSub (sizeSub name.length skip) offset)
              rrType := rrType
              version := version }

/-- `matchName` on the name of a Data packet: zone, marker, label, type and version. -/
def matchDataName (name zone : Name) : MatchOutcome :=
  let skip := calculateSkip zone
  if sizeSub name.length skip < 2 then .noMatch
  else
    match name.getFromEnd 1, name.getFromEnd 2 with
    | some version, some rrType => .matched
        { rrLabel := name.getSubName skip (sizeSub (sizeSub name.length skip) 2)
          rrType := rrType
          version := version }
    | _, _ => .outOfBounds

/-- The name of a record: zone, marker, label and type. -/
def recordName (zone label : Name) (rrType : Component) : Name :=
  zone ++ ndnsIterativeQuery :: label ++ [rrType]

theorem recordName_length (zone label : Name) (rrType : Component) :
    (recordName zone label rrType).length = zone.length + label.length + 2 := by
  simp [recordName]
  omega

theorem drop_recordName (zone label : Name) (rrType : Component) (rest : Name) :
    (recordName zone label rrType ++ rest).drop (calculateSkip zone) = label ++ rrType :: rest := by
  have hsplit : recordName zone label rrType ++ rest =
      (zone ++ [ndnsIterativeQuery]) ++ (label ++ rrType :: rest) := by
    simp [recordName]
  rw [hsplit, List.drop_append_of_le_length (by simp [calculateSkip]),
    List.drop_of_length_le (by simp [calculateSkip]), List.nil_append]

/-- An Interest named after a record, without a version, is parsed into its label and type. -/
theorem matchInterestName_recordName (zone label : Name) {rrType : Component}
    (htype : rrType.isVersion = false) :
    matchInterestName (recordName zone label rrType) zone =
      .matched ⟨label, rrType, Component.empty⟩ := by
  have hlast : (recordName zone label rrType).getFromEnd 1 = some rrType :=
    Name.getFromEnd_append_singleton _ _
  have hdrop := drop_recordName zone label rrType []
  rw [List.append_nil] at hdrop
  have hrest : sizeSub (recordName zone label rrType).length (calculateSkip zone) =
      label.length + 1 := by
    simp only [sizeSub, calculateSkip, recordName_length]
    split_ifs <;> omega
  unfold matchInterestName
  simp only [hlast, htype, hrest, Name.getSubName, hdrop, Bool.false_eq_true, if_false]
  simp [sizeSub]

/-- An Interest named after a record and a version is parsed into its parts. -/
theorem matchInterestName_recordName_version (zone label : Name) (rrType : Component)
    {version : Component} (hversion : version.isVersion = true) :
    matchInterestName (recordName zone label rrType ++ [version]) zone =
      .matched ⟨label, rrType, version⟩ := by
  have hpair : recordName zone label rrType ++ [version] =
      zone ++ ndnsIterativeQuery :: label ++ [rrType, version] := by
    simp [recordName]
  have hlast : (recordName zone label rrType ++ [version]).getFromEnd 1 = some version := by simp
  have hsecond : (recordName zone label rrType ++ [version]).getFromEnd 2 = some rrType := by
    rw [hpair, Name.getFromEnd_append_pair]
  have hdrop := drop_recordName zone label rrType [version]
  have hrest : sizeSub (recordName zone label rrType ++ [version]).length (calculateSkip zone) =
      label.length + 2 := by
    simp only [sizeSub, calculateSkip, List.length_append, recordName_length, List.length_singleton]
    split_ifs <;> omega
  unfold matchInterestName
  simp only [hlast, hversion, if_true, hsecond, hrest, Name.getSubName, hdrop]
  simp [sizeSub]

/-- With a version alone after the marker, the marker is taken for the type, and the number of
components of the label wraps. -/
theorem matchInterestName_onlyVersion (zone : Name) {version : Component}
    (hversion : version.isVersion = true) :
    matchInterestName (zone ++ [ndnsIterativeQuery, version]) zone =
      .matched ⟨[version], ndnsIterativeQuery, version⟩ := by
  have hlast : (zone ++ [ndnsIterativeQuery, version]).getFromEnd 1 = some version := by simp
  have hsecond : (zone ++ [ndnsIterativeQuery, version]).getFromEnd 2 =
      some ndnsIterativeQuery := by simp
  have hrest : sizeSub (zone ++ [ndnsIterativeQuery, version]).length (calculateSkip zone) = 1 := by
    simp only [sizeSub, calculateSkip, List.length_append, List.length_cons, List.length_nil]
    split_ifs <;> omega
  have hdrop : (zone ++ [ndnsIterativeQuery, version]).drop (calculateSkip zone) = [version] := by
    simp [calculateSkip]
  unfold matchInterestName
  simp only [hlast, hversion, if_true, hsecond, hrest, Name.getSubName, hdrop]
  simp [sizeSub]

/-- A Data packet named after a record and a version is parsed into its parts. -/
theorem matchDataName_recordName (zone label : Name) (rrType version : Component) :
    matchDataName (recordName zone label rrType ++ [version]) zone =
      .matched ⟨label, rrType, version⟩ := by
  have hpair : recordName zone label rrType ++ [version] =
      zone ++ ndnsIterativeQuery :: label ++ [rrType, version] := by
    simp [recordName]
  have hlast : (recordName zone label rrType ++ [version]).getFromEnd 1 = some version := by simp
  have hsecond : (recordName zone label rrType ++ [version]).getFromEnd 2 = some rrType := by
    rw [hpair, Name.getFromEnd_append_pair]
  have hdrop := drop_recordName zone label rrType [version]
  have hrest : sizeSub (recordName zone label rrType ++ [version]).length (calculateSkip zone) =
      label.length + 2 := by
    simp only [sizeSub, calculateSkip, List.length_append, recordName_length, List.length_singleton]
    split_ifs <;> omega
  unfold matchDataName
  simp only [hlast, hsecond, hrest, Name.getSubName, hdrop]
  simp [sizeSub]

/-- Names longer than the zone are parsed without an access out of bounds. -/
theorem matchDataName_ne_outOfBounds {name zone : Name} (hname : zone.length < name.length) :
    matchDataName name zone ≠ .outOfBounds := by
  have hrest : sizeSub name.length (calculateSkip zone) = name.length - (zone.length + 1) := by
    rw [sizeSub, if_pos (by rw [calculateSkip]; omega), calculateSkip]
  unfold matchDataName
  simp only [hrest, Name.getFromEnd]
  split_ifs with hshort hone htwo
  · simp
  · rw [List.getElem?_eq_getElem (by omega), List.getElem?_eq_getElem (by omega)]
    simp
  all_goals omega

end Label

end Ndns
