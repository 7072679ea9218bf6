import Ndns.Clients.Response

/-!
# Matching as the Inverse of Name Construction

The two `matchName` parsers work backwards from the end of a name.  The one for Data gives back the
parts the name was put together from.  So does the one for Interests, except when the name ends with
a version right after the marker: the test for a missing component does not count the version, and
the marker itself is taken for the type.
-/

namespace Ndns

open Ndn

namespace Label

/-- Some component can serve as the type: there is one besides a version at the end. -/
def HasType (rest : Name) : Prop :=
  match rest.getLast? with
  | none => False
  | some last => if last.isVersion then 2 ≤ rest.length else True

instance (rest : Name) : Decidable (HasType rest) :=
  match h : rest.getLast? with
  | none => isFalse (by simp [HasType, h])
  | some last => decidable_of_iff (last.isVersion = true → 2 ≤ rest.length) (by
      simp only [HasType, h]
      split_ifs <;> simp_all)

/-- What the matching of an Interest should do with the name it is given, of which the part after
the marker decides. -/
structure InterestSplits (zone rest : Name) : Prop where
  accepts : HasType rest → ∃ re, matchInterestName (zone ++ ndnsIterativeQuery :: rest) zone =
    .matched re
  refuses : ¬ HasType rest →
    matchInterestName (zone ++ ndnsIterativeQuery :: rest) zone = .noMatch
  splits : ∀ re, matchInterestName (zone ++ ndnsIterativeQuery :: rest) zone = .matched re →
    zone ++ ndnsIterativeQuery :: rest = zone ++ ndnsIterativeQuery :: re.rrLabel ++
      re.rrType :: (if re.version.isEmpty then [] else [re.version])
  version : ∀ re, matchInterestName (zone ++ ndnsIterativeQuery :: rest) zone = .matched re →
    (re.version.isEmpty = false ↔
      ∃ last, (zone ++ ndnsIterativeQuery :: rest).getLast? = some last ∧ last.isVersion = true)

/-- The same for the matching of Data, whose name always ends with a version. -/
structure DataSplits (zone rest : Name) : Prop where
  accepts : 2 ≤ rest.length → ∃ re, matchDataName (zone ++ ndnsIterativeQuery :: rest) zone =
    .matched re
  refuses : ¬ 2 ≤ rest.length →
    matchDataName (zone ++ ndnsIterativeQuery :: rest) zone = .noMatch
  splits : ∀ re, matchDataName (zone ++ ndnsIterativeQuery :: rest) zone = .matched re →
    zone ++ ndnsIterativeQuery :: rest =
      zone ++ ndnsIterativeQuery :: re.rrLabel ++ [re.rrType, re.version]

/-- The name ends with a version right after the marker. -/
def OnlyVersion (rest : Name) : Prop := ∃ version, rest = [version] ∧ version.isVersion = true

theorem getLast?_append_cons {zone rest : Name} (marker : Component) (h : rest ≠ []) :
    (zone ++ marker :: rest).getLast? = rest.getLast? := by
  rw [List.getLast?_append_of_ne_nil _ (List.cons_ne_nil _ _),
    List.getLast?_cons_of_ne_nil h]

/-- Nothing after the marker. -/
theorem interestSplits_nil (zone : Name) : InterestSplits zone [] := by
  have hmatch : matchInterestName (zone ++ [ndnsIterativeQuery]) zone = .noMatch := by
    simp [matchInterestName, sizeSub, calculateSkip]
  refine ⟨False.elim, fun _ ↦ hmatch, fun re hre ↦ ?_, fun re hre ↦ ?_⟩
  · cases hmatch.symm.trans hre
  · cases hmatch.symm.trans hre

/-- A label and a type that is no version. -/
theorem interestSplits_type (zone label : Name) {rrType : Component}
    (htype : rrType.isVersion = false) : InterestSplits zone (label ++ [rrType]) := by
  have hmatch := matchInterestName_recordName zone label htype
  rw [recordName, List.append_assoc, List.cons_append] at hmatch
  have hlast : (label ++ [rrType]).getLast? = some rrType := by simp
  have hhas : HasType (label ++ [rrType]) := by simp [HasType, htype]
  refine ⟨fun _ ↦ ⟨_, hmatch⟩, fun hnot ↦ absurd hhas hnot, fun re hre ↦ ?_, fun re hre ↦ ?_⟩
  · cases hmatch.symm.trans hre
    simp [Component.empty, Component.isEmpty, Component.generic]
  · cases hmatch.symm.trans hre
    rw [getLast?_append_cons _ (by simp), hlast]
    simp [Component.empty, Component.isEmpty, Component.generic, htype]

/-- A label, a type and a version. -/
theorem interestSplits_version (zone label : Name) (rrType : Component) {version : Component}
    (hversion : version.isVersion = true) :
    InterestSplits zone (label ++ [rrType, version]) := by
  have hmatch := matchInterestName_recordName_version zone label rrType hversion
  have hname : recordName zone label rrType ++ [version] =
      zone ++ ndnsIterativeQuery :: (label ++ [rrType, version]) := by simp [recordName]
  rw [hname] at hmatch
  have hlast : (label ++ [rrType, version]).getLast? = some version := by simp
  have hhas : HasType (label ++ [rrType, version]) := by simp [HasType, hversion]
  have hempty := Component.isEmpty_of_isVersion hversion
  refine ⟨fun _ ↦ ⟨_, hmatch⟩, fun hnot ↦ absurd hhas hnot, fun re hre ↦ ?_, fun re hre ↦ ?_⟩
  · cases hmatch.symm.trans hre
    simp [hempty]
  · cases hmatch.symm.trans hre
    rw [getLast?_append_cons _ (by simp), hlast]
    simp [hempty, hversion]

/-- With a version alone, the match is accepted without a component for the type. -/
theorem not_interestSplits_onlyVersion (zone : Name) {version : Component}
    (hversion : version.isVersion = true) : ¬ InterestSplits zone [version] := by
  intro h
  have hnone : ¬ HasType [version] := by simp [HasType, hversion]
  cases (h.refuses hnone).symm.trans (matchInterestName_onlyVersion zone hversion)

theorem interestSplits_iff (zone rest : Name) : InterestSplits zone rest ↔ ¬ OnlyVersion rest := by
  constructor
  · rintro h ⟨version, rfl, hversion⟩
    exact not_interestSplits_onlyVersion zone hversion h
  · intro h
    rcases List.eq_nil_or_concat' rest with rfl | ⟨init, last, rfl⟩
    · exact interestSplits_nil zone
    · cases hlast : last.isVersion with
      | false => exact interestSplits_type zone init hlast
      | true =>
          rcases List.eq_nil_or_concat' init with rfl | ⟨label, rrType, rfl⟩
          · exact absurd ⟨last, rfl, hlast⟩ h
          · rw [List.append_assoc]
            exact interestSplits_version zone label rrType hlast

theorem dataSplits (zone rest : Name) : DataSplits zone rest := by
  by_cases hlength : 2 ≤ rest.length
  · obtain ⟨label, rrType, version, rfl⟩ : ∃ label rrType version,
        rest = label ++ [rrType, version] := by
      rcases List.eq_nil_or_concat' rest with rfl | ⟨init, version, rfl⟩
      · simp at hlength
      · rcases List.eq_nil_or_concat' init with rfl | ⟨label, rrType, rfl⟩
        · simp at hlength
        · exact ⟨label, rrType, version, by simp⟩
    have hmatch := matchDataName_recordName zone label rrType version
    have hname : recordName zone label rrType ++ [version] =
        zone ++ ndnsIterativeQuery :: (label ++ [rrType, version]) := by simp [recordName]
    rw [hname] at hmatch
    refine ⟨fun _ ↦ ⟨_, hmatch⟩, fun hnot ↦ absurd hlength hnot, fun re hre ↦ ?_⟩
    cases hmatch.symm.trans hre
    simp
  · have hmatch : matchDataName (zone ++ ndnsIterativeQuery :: rest) zone = .noMatch := by
      have hrest : sizeSub (zone ++ ndnsIterativeQuery :: rest).length (calculateSkip zone) =
          rest.length := by
        simp only [sizeSub, calculateSkip, List.length_append, List.length_cons]
        split_ifs <;> omega
      unfold matchDataName
      simp only [hrest]
      exact if_pos (by omega)
    refine ⟨fun htwo ↦ absurd htwo hlength, fun _ ↦ hmatch, fun re hre ↦ ?_⟩
    cases hmatch.symm.trans hre

end Label

namespace Clients.Query

/-- `Query::fromInterest` on an existing object.  The lifetime is not set. -/
def fromInterest (query : Query) (zone : Name) (interest : Interest) :
    Except DecodeFault (Bool × Query) :=
  match Label.matchInterestName interest.name zone with
  | .outOfBounds => .error .outOfBounds
  | .noMatch => .ok (false, query)
  | .matched re =>
      match interest.name[zone.length]? with
      | none => .error .outOfBounds
      | some queryType => .ok (true,
          { query with
            rrLabel := re.rrLabel
            rrType := re.rrType
            zone := zone
            forwardingHint := interest.forwardingHint
            queryType := queryType })

/-- `operator==`. -/
def same (left right : Query) : Bool :=
  left.zone = right.zone ∧ left.queryType = right.queryType ∧ left.rrLabel = right.rrLabel ∧
    left.rrType = right.rrType

/-- An iterative query is read back from its own Interest by any object. -/
theorem fromInterest_toInterest (earlier : Query) {query : Query}
    (hquery : query.queryType = Label.ndnsIterativeQuery) (htype : query.rrType.isVersion = false) :
    earlier.fromInterest query.zone query.toInterest =
      .ok (true, { query with interestLifetime := earlier.interestLifetime }) := by
  have hname : query.toInterest.name = Label.recordName query.zone query.rrLabel query.rrType := by
    rw [toInterest, hquery, Label.recordName]
  have hlookup : query.toInterest.name[query.zone.length]? = some Label.ndnsIterativeQuery := by
    simp [hname, Label.recordName]
  rw [fromInterest, hlookup, hname, Label.matchInterestName_recordName _ _ htype]
  simp only [← hquery]
  rfl

/-- Matching gives back the parts a name was put together from, except for Interests whose name ends
with a version right after the marker. -/
theorem matching_inverse_iff (zone rest : Name) :
    (Label.InterestSplits zone rest ↔ ¬ Label.OnlyVersion rest) ∧ Label.DataSplits zone rest ∧
      ∀ earlier query : Query, query.zone = zone → query.queryType = Label.ndnsIterativeQuery →
        query.rrType.isVersion = false → ∃ parsed,
          earlier.fromInterest zone query.toInterest = .ok (true, parsed) ∧
            parsed.same query = true := by
  refine ⟨Label.interestSplits_iff zone rest, Label.dataSplits zone rest, ?_⟩
  rintro earlier query rfl hquery htype
  refine ⟨_, fromInterest_toInterest earlier hquery htype, ?_⟩
  simp [same]

/-- The zone /n and the name /n/NDNS/v1: the marker is returned as the type. -/
theorem matching_marker_as_type :
    Label.matchInterestName [Component.generic [110] (by decide), Label.ndnsIterativeQuery,
        Component.fromVersion 1] [Component.generic [110] (by decide)] =
      .matched ⟨[Component.fromVersion 1], Label.ndnsIterativeQuery, Component.fromVersion 1⟩ ∧
    ¬ Label.HasType [Component.fromVersion 1] ∧
    ¬ Label.InterestSplits [Component.generic [110] (by decide)] [Component.fromVersion 1] :=
  ⟨by decide, by decide, Label.not_interestSplits_onlyVersion _ (by decide)⟩

end Clients.Query

end Ndns
