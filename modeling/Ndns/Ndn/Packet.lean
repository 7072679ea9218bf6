import Ndns.Ndn.Name

/-!
# Interest and Data Packets

Packets are records of the fields the name service reads and writes.  How a Data packet is laid
out in bytes is the library's business: a `PacketFormat` is an encoder and a decoder of which only
the round trip is known.  `ndnPacketFormat` is the published layout, and shows that the class has
the instance the development is about.
-/

namespace Ndns.Ndn

open Order.LexCode

/-- An Interest, as far as queries use one. -/
structure Interest where
  name : Name
  canBePrefix : Bool
  lifetime : ℕ
  forwardingHint : List Name
deriving DecidableEq

/-- A Data packet.  `freshnessPeriod` is in milliseconds, `content` is the value of the Content
element, and the signature fields are opaque. -/
structure Data where
  name : Name
  contentType : ℕ
  freshnessPeriod : ℕ
  content : Blob
  signatureInfo : Blob
  signatureValue : Blob
deriving DecidableEq

/-- `Data matches Interest` for an Interest that can be a prefix: the Data name extends it. -/
def Data.matches (data : Data) (interest : Interest) : Prop := interest.name <+: data.name

instance (data : Data) (interest : Interest) : Decidable (data.matches interest) :=
  inferInstanceAs (Decidable (interest.name <+: data.name))

/-- TLV type of a Data packet. -/
def dataTlvType : ℕ := 6

/-- An encoder and a decoder for Data packets.  The encoder fails on packets that no length
number could describe. -/
class PacketFormat where
  encode : Data → Option Block
  decode : Block → Option Data
  decode_of_encode : ∀ {data : Data} {block : Block}, encode data = some block →
    decode block = some data
  type_of_encode : ∀ {data : Data} {block : Block}, encode data = some block →
    block.type = dataTlvType

/-- A packet as it was received: its fields, and the element they were decoded from. -/
structure Received [PacketFormat] where
  wire : Block
  data : Data
  decode_wire : PacketFormat.decode wire = some data

/-- Decode a received element. -/
def Received.ofBlock [PacketFormat] (wire : Block) : Option Received :=
  match h : PacketFormat.decode wire with
  | some data => some ⟨wire, data, h⟩
  | none => none

/-! ## Content -/

/-- TLV type of the Content element. -/
def contentTlvType : ℕ := 21

/-- `Data::setContent`: an element that is not itself a Content is nested inside one. -/
def contentOf (block : Block) : Blob :=
  if block.type = contentTlvType then block.value else block.encode

/-- Elements written one after another; `none` when one of the names is too long. -/
def encodeNames (names : List Name) : Option Blob :=
  (names.mapM Name.toBlock).map (·.flatMap Block.encode)

/-- `tlv::isCriticalType`: element types a decoder may not skip. -/
def isCriticalType (type : ℕ) : Bool := type ≤ 31 || type % 2 = 1

/-- The names among the elements of a Link's content. -/
def linkNames : List Block → Option (List Name)
  | [] => some []
  | block :: rest =>
      if block.type = Name.tlvType then
        (Name.ofBlock block).bind fun name ↦ (linkNames rest).map (name :: ·)
      else if isCriticalType block.type then none
      else linkNames rest

/-- `ContentType_Link`. -/
def linkContentType : ℕ := 1

/-- `Link(block)`: the delegation list of a packet; `none` models the decoding error. -/
def linkDelegations (data : Data) : Option (List Name) :=
  if data.contentType = linkContentType then (parseBlocks data.content).bind linkNames else none

theorem mapM_toBlock_eq_some {names : List Name} {blocks : List Block}
    (h : names.mapM Name.toBlock = some blocks) : linkNames blocks = some names ∧
      blocks.mapM Name.ofBlock = some names := by
  induction names generalizing blocks with
  | nil =>
      rw [List.mapM_nil] at h
      cases h
      exact ⟨rfl, rfl⟩
  | cons name names ih =>
      rw [List.mapM_cons] at h
      obtain ⟨block, hblock, h⟩ := Option.bind_eq_some_iff.mp h
      obtain ⟨blocks, hblocks, h⟩ := Option.bind_eq_some_iff.mp h
      cases h
      obtain ⟨hlink, hmap⟩ := ih hblocks
      have hname := Name.ofBlock_of_toBlock hblock
      have htype := (Block.make_eq_some hblock).1
      constructor
      · rw [linkNames, if_pos htype, hname, Option.bind_some, hlink, Option.map_some]
      · rw [List.mapM_cons, hname, hmap]
        rfl

/-- Names written one after another are read back, both as a Link and one by one. -/
theorem parseBlocks_of_encodeNames {names : List Name} {content : Blob}
    (h : encodeNames names = some content) :
    ∃ blocks, parseBlocks content = some blocks ∧ linkNames blocks = some names ∧
      blocks.mapM Name.ofBlock = some names := by
  obtain ⟨blocks, hblocks, rfl⟩ := Option.map_eq_some_iff.mp h
  exact ⟨blocks, parseBlocks_flatMap_encode blocks, mapM_toBlock_eq_some hblocks⟩

/-- Content that is a whole packet is found at the front of the content. -/
theorem blockFromValue_contentOf {block : Block} (htype : block.type ≠ contentTlvType) :
    blockFromValue (contentOf block) = some block := by
  rw [contentOf, if_neg htype, blockFromValue_encode]

/-! ## The published Data layout -/

namespace Layout

/-- A non-negative integer element; `none` beyond 64 bits. -/
def number (type : ℕ) (htype : 0 < type ∧ type < 2 ^ 32) (value : ℕ) : Option Block :=
  if value < 2 ^ 64 then Block.make type htype (nonNegativeInteger value) else none

/-- Name, MetaInfo, Content, SignatureInfo and SignatureValue inside a Data element. -/
def encode (data : Data) : Option Block := do
  let name ← Name.toBlock data.name
  let contentType ← number 24 (by decide) data.contentType
  let freshnessPeriod ← number 25 (by decide) data.freshnessPeriod
  let metaInfo ← Block.make 20 (by decide) ([contentType, freshnessPeriod].flatMap Block.encode)
  let content ← Block.make contentTlvType (by decide) data.content
  let signatureInfo ← Block.make 22 (by decide) data.signatureInfo
  let signatureValue ← Block.make 23 (by decide) data.signatureValue
  Block.make dataTlvType (by decide)
    ([name, metaInfo, content, signatureInfo, signatureValue].flatMap Block.encode)

/-- The two numbers of a MetaInfo element. -/
def decodeMetaInfo (metaInfo : Block) : Option (ℕ × ℕ) :=
  match parseBlocks metaInfo.value with
  | some [contentType, freshnessPeriod] =>
      if contentType.type = 24 ∧ freshnessPeriod.type = 25 then
        some (ofBigEndian 256 contentType.value, ofBigEndian 256 freshnessPeriod.value)
      else none
  | _ => none

def decode (block : Block) : Option Data :=
  match parseBlocks block.value with
  | some [name, metaInfo, content, signatureInfo, signatureValue] =>
      if [block, metaInfo, content, signatureInfo, signatureValue].map Block.type =
          [dataTlvType, 20, contentTlvType, 22, 23] then
        match Name.ofBlock name, decodeMetaInfo metaInfo with
        | some name, some (contentType, freshnessPeriod) =>
            some ⟨name, contentType, freshnessPeriod, content.value, signatureInfo.value,
              signatureValue.value⟩
        | _, _ => none
      else none
  | _ => none

theorem ofBigEndian_nonNegativeInteger {value : ℕ} (hvalue : value < 2 ^ 64) :
    ofBigEndian 256 (nonNegativeInteger value) = value := by
  unfold nonNegativeInteger
  split_ifs <;> rw [ofBigEndian_bigEndian, Nat.mod_eq_of_lt (by omega)]

theorem number_eq_some {type : ℕ} {htype : 0 < type ∧ type < 2 ^ 32} {value : ℕ} {block : Block}
    (h : number type htype value = some block) :
    block.type = type ∧ ofBigEndian 256 block.value = value := by
  unfold number at h
  split_ifs at h with hvalue
  obtain ⟨hblockType, hblockValue⟩ := Block.make_eq_some h
  exact ⟨hblockType, by rw [hblockValue, ofBigEndian_nonNegativeInteger hvalue]⟩

theorem decode_of_encode {data : Data} {block : Block} (h : encode data = some block) :
    decode block = some data := by
  simp only [encode, Option.bind_eq_bind, Option.bind_eq_some_iff] at h
  obtain ⟨name, hname, contentType, hcontentType, freshnessPeriod, hfreshnessPeriod, metaInfo,
    hmetaInfo, content, hcontent, signatureInfo, hsignatureInfo, signatureValue,
    hsignatureValue, hblock⟩ := h
  obtain ⟨hcontentTypeType, hcontentTypeValue⟩ := number_eq_some hcontentType
  obtain ⟨hfreshnessType, hfreshnessValue⟩ := number_eq_some hfreshnessPeriod
  have hmeta : decodeMetaInfo metaInfo = some (data.contentType, data.freshnessPeriod) := by
    rw [decodeMetaInfo, (Block.make_eq_some hmetaInfo).2, parseBlocks_flatMap_encode]
    simp only [hcontentTypeType, hfreshnessType, and_self, if_true, hcontentTypeValue,
      hfreshnessValue]
  rw [decode, (Block.make_eq_some hblock).2, parseBlocks_flatMap_encode]
  simp only [List.map_cons, List.map_nil, (Block.make_eq_some hblock).1,
    (Block.make_eq_some hmetaInfo).1, (Block.make_eq_some hcontent).1,
    (Block.make_eq_some hsignatureInfo).1, (Block.make_eq_some hsignatureValue).1, if_true,
    Name.ofBlock_of_toBlock hname, hmeta, (Block.make_eq_some hcontent).2,
    (Block.make_eq_some hsignatureInfo).2, (Block.make_eq_some hsignatureValue).2]

theorem type_of_encode {data : Data} {block : Block} (h : encode data = some block) :
    block.type = dataTlvType := by
  simp only [encode, Option.bind_eq_bind, Option.bind_eq_some_iff] at h
  obtain ⟨_, _, _, _, _, _, _, _, _, _, _, _, _, _, hblock⟩ := h
  exact (Block.make_eq_some hblock).1

end Layout

/-- The published packet layout as an instance of the class. -/
@[reducible]
def ndnPacketFormat : PacketFormat where
  encode := Layout.encode
  decode := Layout.decode
  decode_of_encode := Layout.decode_of_encode
  type_of_encode := Layout.type_of_encode

end Ndns.Ndn
