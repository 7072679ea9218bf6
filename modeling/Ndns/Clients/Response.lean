import Ndns.Label

/-!
# Queries and Responses

`Query` builds the Interest for a record and `Response` reads a Data packet back by position.
A response object is filled field by field, and an exception while its content is decoded is
reported after the other fields are set.
-/

namespace Ndns.Clients

open Ndn

/-! ## Queries -/

structure Query where
  zone : Name
  queryType : Component
  rrLabel : Name
  rrType : Component
  interestLifetime : ℕ
  forwardingHint : List Name
deriving DecidableEq

/-- `Query::toInterest`. -/
def Query.toInterest (query : Query) : Interest where
  name := query.zone ++ query.queryType :: query.rrLabel ++ [query.rrType]
  canBePrefix := true
  lifetime := query.interestLifetime
  forwardingHint := query.forwardingHint

/-! ## Responses -/

/-- Why reading a packet does not end normally: an unchecked access of a missing component, or a
decoding exception. -/
inductive DecodeFault where
  | outOfBounds
  | malformed
deriving DecidableEq

/-- `Response`.  `appContent` is the value of the Content element kept for raw content types,
`rrs` are the decoded elements of the others; the freshness period is in seconds. -/
structure Response where
  zone : Name
  queryType : Component
  rrLabel : Name
  rrType : Component
  version : Component
  contentType : NdnsContentType
  freshnessPeriod : ℕ
  appContent : Blob
  rrs : List Block
deriving DecidableEq

namespace Response

/-- The default constructor. -/
def default : Response :=
  ⟨[], Component.empty, [], Component.empty, Component.empty, .blob, 3600, [], []⟩

/-- `Response::wireDecode`: raw content is kept, other content is split and appended. -/
def wireDecode (response : Response) (content : Blob) : Except DecodeFault Response :=
  if response.contentType = .blob ∨ response.contentType = .key then
    .ok { response with appContent := content }
  else
    match parseBlocks content with
    | none => .error .malformed
    | some blocks => .ok { response with rrs := response.rrs ++ blocks }

/-- `Response::fromData` on an existing object. -/
def fromData (response : Response) (zone : Name) (data : Data) :
    Except DecodeFault (Bool × Response) :=
  match Label.matchDataName data.name zone with
  | .outOfBounds => .error .outOfBounds
  | .noMatch => .ok (false, response)
  | .matched result =>
      match data.name[zone.length]? with
      | none => .error .outOfBounds
      | some queryType =>
          let filled : Response :=
            { response with
              rrLabel := result.rrLabel
              rrType := result.rrType
              version := result.version
              zone := zone
              queryType := queryType
              freshnessPeriod := data.freshnessPeriod / 1000
              contentType := .ofCode data.contentType }
          (filled.wireDecode data.content).map fun decoded ↦ (true, decoded)

/-- `Response::wireDecodeDoe`: exactly two names; `none` models the decoding exceptions. -/
def wireDecodeDoe (content : Blob) : Option (Name × Name) :=
  match parseBlocks content with
  | some [lower, upper] =>
      match Name.ofBlock lower, Name.ofBlock upper with
      | some lowerLabel, some upperLabel => some (lowerLabel, upperLabel)
      | _, _ => none
  | _ => none

/-- The range written into a denial record is the range read from it. -/
theorem wireDecodeDoe_encodeNames {lowerLabel upperLabel : Name} {content : Blob}
    (h : encodeNames [lowerLabel, upperLabel] = some content) :
    wireDecodeDoe content = some (lowerLabel, upperLabel) := by
  obtain ⟨blocks, hblocks, rfl⟩ := Option.map_eq_some_iff.mp h
  simp only [List.mapM_cons, List.mapM_nil, Option.bind_eq_bind, Option.bind_eq_some_iff] at hblocks
  obtain ⟨lower, hlower, _, ⟨upper, hupper, _, hnil, hrest⟩, hpair⟩ := hblocks
  cases hnil
  cases hrest
  cases hpair
  simp only [wireDecodeDoe, parseBlocks_flatMap_encode, Name.ofBlock_of_toBlock hlower,
    Name.ofBlock_of_toBlock hupper]

/-- A packet named after a record of the zone is read back as that record. -/
theorem fromData_recordName {response : Response} {zone label : Name} {rrType version : Component}
    {data : Data} (hname : data.name = Label.recordName zone label rrType ++ [version]) :
    response.fromData zone data =
      (({ response with
          rrLabel := label
          rrType := rrType
          version := version
          zone := zone
          queryType := Label.ndnsIterativeQuery
          freshnessPeriod := data.freshnessPeriod / 1000
          contentType := .ofCode data.contentType } : Response).wireDecode data.content).map
        fun decoded ↦ (true, decoded) := by
  have hquery : data.name[zone.length]? = some Label.ndnsIterativeQuery := by
    simp [hname, Label.recordName]
  rw [fromData, hname, Label.matchDataName_recordName, ← hname]
  simp only [hquery]

theorem wireDecode_eq_ok {response decoded : Response} {content : Blob}
    (h : response.wireDecode content = .ok decoded) :
    decoded = { response with appContent := decoded.appContent, rrs := decoded.rrs } := by
  unfold wireDecode at h
  split_ifs at h
  · cases h
    rfl
  · split at h <;> cases h
    rfl

/-- What a response says about a packet that is named after a record. -/
theorem fromData_eq_ok {response decoded : Response} {zone label : Name}
    {rrType version : Component} {data : Data} {flag : Bool}
    (hname : data.name = Label.recordName zone label rrType ++ [version])
    (h : response.fromData zone data = .ok (flag, decoded)) :
    decoded.zone = zone ∧ decoded.rrLabel = label ∧ decoded.rrType = rrType ∧
      decoded.version = version := by
  rw [fromData_recordName hname] at h
  generalize hfilled : ({ response with
    rrLabel := label, rrType := rrType, version := version, zone := zone,
    queryType := Label.ndnsIterativeQuery, freshnessPeriod := data.freshnessPeriod / 1000,
    contentType := .ofCode data.contentType } : Response) = filled at h
  cases hdecode : filled.wireDecode data.content with
  | error fault => simp [hdecode, Except.map] at h
  | ok result =>
      simp only [hdecode, Except.map, Except.ok.injEq, Prod.mk.injEq] at h
      have hresult := wireDecode_eq_ok hdecode
      rw [h.2, ← hfilled] at hresult
      rw [hresult]
      exact ⟨rfl, rfl, rfl, rfl⟩

/-- A packet whose name is longer than the zone is read without an access out of bounds, and its
content is the only thing that can be malformed. -/
theorem fromData_isOk {response : Response} {zone : Name} {data : Data}
    (hname : zone.length < data.name.length)
    (hcontent : NdnsContentType.ofCode data.contentType = .blob ∨
      NdnsContentType.ofCode data.contentType = .key ∨ (parseBlocks data.content).isSome) :
    ∃ result, response.fromData zone data = .ok result := by
  have hdecode : ∀ filled : Response, filled.contentType = .ofCode data.contentType →
      ∃ result, (filled.wireDecode data.content).map (fun decoded ↦ (true, decoded)) =
        .ok result := by
    intro filled hfilled
    unfold wireDecode
    split_ifs with hraw
    · exact ⟨_, rfl⟩
    · rw [hfilled] at hraw
      obtain ⟨blocks, hblocks⟩ := Option.isSome_iff_exists.mp
        (hcontent.resolve_left (mt Or.inl hraw) |>.resolve_left (mt Or.inr hraw))
      rw [hblocks]
      exact ⟨_, rfl⟩
  have hquery : data.name[zone.length]? = some data.name[zone.length] :=
    List.getElem?_eq_getElem hname
  unfold fromData
  cases hmatch : Label.matchDataName data.name zone with
  | outOfBounds => exact absurd hmatch (Label.matchDataName_ne_outOfBounds hname)
  | noMatch => exact ⟨_, rfl⟩
  | matched result =>
      simp only [hquery]
      exact hdecode _ rfl

end Response

end Ndns.Clients
