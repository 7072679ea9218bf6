import Ndns.Ndn.Packet

/-!
# Packets That Can Be Written

The published layout refuses a packet only when a length or a number in it does not fit into 64
bits.  The numbers around a value take at most eighteen bytes, so packets of parts that are far
smaller can always be written.
-/

namespace Ndns.Ndn

open Order.LexCode

theorem length_varNumber_le (value : ℕ) : (varNumber value).length ≤ 9 := by
  unfold varNumber
  split_ifs <;> simp

theorem Block.length_encode_le (block : Block) : block.encode.length ≤ block.value.length + 18 := by
  have htype := length_varNumber_le block.type
  have hlength := length_varNumber_le block.value.length
  simp only [Block.encode, List.length_append]
  omega

theorem Block.make_of_lt {type : ℕ} (htype : 0 < type ∧ type < 2 ^ 32) {value : Blob}
    (hsize : value.length < 2 ^ 64) : ∃ block, Block.make type htype value = some block ∧
      block.encode.length ≤ value.length + 18 := by
  refine ⟨⟨type, value, htype.1, htype.2, hsize⟩, dif_pos hsize, ?_⟩
  exact Block.length_encode_le ⟨type, value, htype.1, htype.2, hsize⟩

theorem length_nonNegativeInteger_le (value : ℕ) : (nonNegativeInteger value).length ≤ 8 := by
  rcases Component.nonNegativeInteger_length value with h | h | h | h <;> omega

/-- A version component takes at most 26 bytes. -/
theorem length_encode_fromVersion_le (version : ℕ) :
    (Component.fromVersion version).encode.length ≤ 26 := by
  have hvalue := length_nonNegativeInteger_le version
  have hblock := (Component.fromVersion version).toBlock.length_encode_le
  have hsame : (Component.fromVersion version).toBlock.value = nonNegativeInteger version := rfl
  rw [hsame] at hblock
  exact hblock.trans (by omega)

theorem length_saveName_append (name rest : Name) :
    (saveName (name ++ rest)).length = (saveName name).length + (saveName rest).length := by
  rw [saveName, List.flatMap_append, List.length_append, saveName, saveName]

/-- A part of a name is stored in no more bytes than the name. -/
theorem length_saveName_le_of_prefix {part name : Name} (h : part <+: name) :
    (saveName part).length ≤ (saveName name).length := by
  obtain ⟨rest, rfl⟩ := h
  rw [length_saveName_append]
  omega

namespace Layout

theorem number_of_lt {type : ℕ} (htype : 0 < type ∧ type < 2 ^ 32) {value : ℕ}
    (hvalue : value < 2 ^ 64) : ∃ block, number type htype value = some block ∧
      block.encode.length ≤ 26 := by
  have hlength := length_nonNegativeInteger_le value
  obtain ⟨block, hmake, hsize⟩ := Block.make_of_lt htype
    (hlength.trans_lt (by decide))
  exact ⟨block, (if_pos hvalue).trans hmake, hsize.trans (by omega)⟩

/-- A packet of small parts can be written. -/
theorem encode_of_small {data : Data} (hname : (saveName data.name).length < 2 ^ 60)
    (hcontentType : data.contentType < 2 ^ 64) (hfreshness : data.freshnessPeriod < 2 ^ 64)
    (hcontent : data.content.length < 2 ^ 60) (hinfo : data.signatureInfo.length < 2 ^ 60)
    (hvalue : data.signatureValue.length < 2 ^ 60) : ∃ wire, encode data = some wire := by
  obtain ⟨name, hname, hnameSize⟩ := Block.make_of_lt (by decide : 0 < Name.tlvType ∧ _)
    (hname.trans (by decide))
  obtain ⟨contentType, hcontentType, hcontentTypeSize⟩ := number_of_lt (by decide : 0 < 24 ∧ _)
    hcontentType
  obtain ⟨freshness, hfreshness, hfreshnessSize⟩ := number_of_lt (by decide : 0 < 25 ∧ _) hfreshness
  have hmetaSize : ([contentType, freshness].flatMap Block.encode).length ≤ 52 := by
    simp only [List.flatMap_cons, List.flatMap_nil, List.length_append, List.length_nil]
    omega
  obtain ⟨metaInfo, hmeta, hmetaInfoSize⟩ := Block.make_of_lt (by decide : 0 < 20 ∧ _)
    (hmetaSize.trans_lt (by decide))
  obtain ⟨content, hcontent, hcontentSize⟩ := Block.make_of_lt
    (by decide : 0 < contentTlvType ∧ _) (hcontent.trans (by decide))
  obtain ⟨info, hinfo, hinfoSize⟩ := Block.make_of_lt (by decide : 0 < 22 ∧ _)
    (hinfo.trans (by decide))
  obtain ⟨value, hvalue, hvalueSize⟩ := Block.make_of_lt (by decide : 0 < 23 ∧ _)
    (hvalue.trans (by decide))
  have hsize : ([name, metaInfo, content, info, value].flatMap Block.encode).length < 2 ^ 64 := by
    simp only [List.flatMap_cons, List.flatMap_nil, List.length_append, List.length_nil]
    omega
  obtain ⟨wire, hwire, -⟩ := Block.make_of_lt (by decide : 0 < dataTlvType ∧ _) hsize
  refine ⟨wire, ?_⟩
  simp only [encode, Name.toBlock, hname, hcontentType, hfreshness, hmeta, hcontent, hinfo, hvalue,
    Option.bind_eq_bind, Option.bind_some, hwire]

end Layout

/-- Two small names can be written one after the other. -/
theorem encodeNames_of_small {lower upper : Name} (hlower : (saveName lower).length < 2 ^ 58)
    (hupper : (saveName upper).length < 2 ^ 58) : ∃ content,
      encodeNames [lower, upper] = some content ∧ content.length < 2 ^ 60 := by
  obtain ⟨first, hfirst, hfirstSize⟩ := Block.make_of_lt (by decide : 0 < Name.tlvType ∧ _)
    (hlower.trans (by decide))
  obtain ⟨second, hsecond, hsecondSize⟩ := Block.make_of_lt (by decide : 0 < Name.tlvType ∧ _)
    (hupper.trans (by decide))
  refine ⟨[first, second].flatMap Block.encode, ?_, ?_⟩
  · simp only [encodeNames, List.mapM_cons, List.mapM_nil, Name.toBlock, hfirst, hsecond,
      Option.bind_eq_bind, Option.bind_some, Option.pure_def, Option.map_some]
  · simp only [List.flatMap_cons, List.flatMap_nil, List.length_append, List.length_nil]
    omega

end Ndns.Ndn
