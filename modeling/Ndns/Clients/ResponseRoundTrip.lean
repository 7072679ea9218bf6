import Ndns.Clients.Response

/-!
# Responses Through Their Packets

`toData` writes a response into a packet and `fromData` reads a packet into an existing object.  The
decoder overwrites every field of the object but the list of records, which it only appends to.  So
an object that held records before is not equal to the response afterwards.
-/

namespace Ndns.Clients.Response

open Ndn

/-- The content types whose content is kept as it is. -/
def IsRaw (contentType : NdnsContentType) : Prop := contentType = .blob ∨ contentType = .key

instance (contentType : NdnsContentType) : Decidable (IsRaw contentType) :=
  inferInstanceAs (Decidable (_ ∨ _))

/-- `Response::wireEncode`: the value of the Content element. -/
def wireEncode (response : Response) : Blob :=
  if IsRaw response.contentType then response.appContent
  else response.rrs.flatMap Block.encode

/-- `Response::toData`.  A missing version is made from the clock and kept in the object. -/
def toData (response : Response) (timestamp : ℕ) : Data × Response :=
  let version :=
    if response.version.isEmpty then Component.fromVersion timestamp else response.version
  (⟨response.zone ++ response.queryType :: response.rrLabel ++ [response.rrType, version],
      response.contentType.toCode, response.freshnessPeriod * 1000, response.wireEncode, [], []⟩,
    { response with version := version })

/-- `operator==`. -/
def same (left right : Response) : Bool :=
  (left.zone = right.zone ∧ left.queryType = right.queryType ∧ left.rrLabel = right.rrLabel ∧
      left.rrType = right.rrType ∧ left.version = right.version ∧
      left.contentType = right.contentType) ∧
    if IsRaw left.contentType then left.appContent = right.appContent else left.rrs = right.rrs

/-- An object reads the packet of a response, and is equal to it afterwards. -/
def RoundTrips (response earlier : Response) (timestamp : ℕ) : Prop :=
  ∃ later, earlier.fromData response.zone (response.toData timestamp).1 = .ok (true, later) ∧
    later.same response = true ∧ later.freshnessPeriod = response.freshnessPeriod

theorem wireDecode_raw {response : Response} (h : IsRaw response.contentType) (content : Blob) :
    response.wireDecode content = .ok { response with appContent := content } := if_pos h

theorem wireDecode_of_parseBlocks {response : Response} (h : ¬ IsRaw response.contentType)
    {content : Blob} {blocks : List Block} (hblocks : parseBlocks content = some blocks) :
    response.wireDecode content = .ok { response with rrs := response.rrs ++ blocks } := by
  rw [IsRaw] at h
  rw [wireDecode, if_neg h, hblocks]

theorem wireDecode_records {response : Response} (h : ¬ IsRaw response.contentType)
    (records : List Block) : response.wireDecode (records.flatMap Block.encode) =
      .ok { response with rrs := response.rrs ++ records } :=
  wireDecode_of_parseBlocks h (parseBlocks_flatMap_encode records)

/-- What an object holds after it has read the packet of a response. -/
def readInto (response earlier : Response) : Response :=
  if IsRaw response.contentType then { response with rrs := earlier.rrs }
  else { response with appContent := earlier.appContent, rrs := earlier.rrs ++ response.rrs }

theorem fromData_toData {response : Response} {code : ℕ}
    (hquery : response.queryType = Label.ndnsIterativeQuery)
    (hversion : response.version.isEmpty = false) (hcode : response.contentType = .ofCode code)
    (earlier : Response) (timestamp : ℕ) :
    earlier.fromData response.zone (response.toData timestamp).1 =
      .ok (true, response.readInto earlier) := by
  have hname : (response.toData timestamp).1.name =
      Label.recordName response.zone response.rrLabel response.rrType ++ [response.version] := by
    simp [toData, hversion, hquery, Label.recordName]
  have htype : NdnsContentType.ofCode (response.toData timestamp).1.contentType =
      response.contentType := by
    rw [toData, hcode, NdnsContentType.toCode_ofCode]
  have hperiod : (response.toData timestamp).1.freshnessPeriod / 1000 =
      response.freshnessPeriod := Nat.mul_div_cancel _ (by decide)
  rw [fromData_recordName hname, htype, hperiod]
  have hcontent : (response.toData timestamp).1.content = response.wireEncode := rfl
  rw [hcontent, wireEncode, readInto, ← hquery]
  let filled : Response :=
    { response with appContent := earlier.appContent, rrs := earlier.rrs }
  have htype' : filled.contentType = response.contentType := rfl
  by_cases hraw : IsRaw response.contentType
  · rw [if_pos hraw, if_pos hraw]
    exact congrArg (Except.map _) (wireDecode_raw (htype' ▸ hraw) response.appContent)
  · rw [if_neg hraw, if_neg hraw]
    exact congrArg (Except.map _) (wireDecode_records (htype' ▸ hraw) response.rrs)

theorem same_readInto_iff {response earlier : Response} :
    (response.readInto earlier).same response = true ↔
      IsRaw response.contentType ∨ earlier.rrs = [] := by
  unfold readInto same
  by_cases hraw : IsRaw response.contentType
  · simp [hraw]
  · simp [hraw]

/-- When `fromData` returns false it has not touched the object. -/
theorem eq_of_fromData_false {earlier later : Response} {zone : Name} {data : Data}
    (h : earlier.fromData zone data = .ok (false, later)) : later = earlier := by
  unfold fromData at h
  split at h
  · cases h
  · cases h
    rfl
  · split at h
    · cases h
    · simp only [Except.map] at h
      split at h <;> cases h

/-- A response is read back by every object exactly when its content is raw or the object holds no
records yet. -/
theorem fromData_toData_iff {response : Response} {code : ℕ}
    (hquery : response.queryType = Label.ndnsIterativeQuery)
    (hversion : response.version.isEmpty = false) (hcode : response.contentType = .ofCode code)
    (earlier : Response) (timestamp : ℕ) :
    (response.RoundTrips earlier timestamp ↔ IsRaw response.contentType ∨ earlier.rrs = []) ∧
      ∀ zone data later, earlier.fromData zone data = .ok (false, later) → later = earlier := by
  refine ⟨?_, fun _ _ _ ↦ eq_of_fromData_false⟩
  have hread := fromData_toData hquery hversion hcode earlier timestamp
  rw [← same_readInto_iff]
  constructor
  · rintro ⟨later, hlater, hsame, -⟩
    cases hread.symm.trans hlater
    exact hsame
  · intro hsame
    refine ⟨_, hread, hsame, ?_⟩
    unfold readInto
    split_ifs <;> rfl

theorem text_size : ([104] : Blob).length < 2 ^ 64 := by decide

/-- A TXT response of the zone /n with one string. -/
def textResponse : Response :=
  ⟨[Component.generic [110] (by decide)], Label.ndnsIterativeQuery,
    [Component.generic [97] (by decide)], Label.txtRrType, Component.fromVersion 1, .resp, 3600, [],
    [⟨191, [104], by decide, by decide, text_size⟩]⟩

theorem roundTrips_new : textResponse.RoundTrips default 0 :=
  ((@fromData_toData_iff textResponse 1087 rfl (by decide) rfl default 0).1).mpr (Or.inr rfl)

/-- The object that has read the response once reads it again: the string is there twice. -/
theorem not_roundTrips_twice : ¬ textResponse.RoundTrips textResponse 0 := by
  rintro ⟨later, hlater, hsame, -⟩
  have hread := @fromData_toData textResponse 1087 rfl (by decide) rfl textResponse 0
  cases hread.symm.trans hlater
  revert hsame
  decide

end Ndns.Clients.Response
