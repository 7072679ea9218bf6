import Ndns.Clients.Response
import Ndns.Daemon.NameServer

/-!
# The Update Client

`ndns-update` sends one packet to the server of a zone, inside the only label component of an
Interest, and exits with 0 when the answer reports success and the validator accepts it.
-/

namespace Ndns.Clients

open Ndn Daemon NameServer

/-- How far a run of `ndns-update` has come; `raised` is the end in the handler of `main`. -/
inductive UpdatePhase where
  | waiting
  | verifying
  | stopped
  | raised
deriving DecidableEq

/-- `NdnsUpdate`. -/
structure NdnsUpdate [PacketFormat] where
  zone : Name
  interestLifetime : ℕ
  update : Received
  hasError : Bool
  phase : UpdatePhase

namespace NdnsUpdate

/-! ## The answer -/

/-- TLV type `UpdateReturnMsg`. -/
def updateReturnMsgTlvType : ℕ := 161

/-- `readNonNegativeInteger`: one of the four widths of a number. -/
def readNonNegativeInteger (block : Block) : Option ℕ :=
  if block.value.length = 1 ∨ block.value.length = 2 ∨ block.value.length = 4 ∨
      block.value.length = 8 then
    some (Order.LexCode.ofBigEndian 256 block.value)
  else none

/-- One element of an answer; a number that an `int` cannot hold wraps around. -/
def readElement (result : ℤ × Blob) (element : Block) : Option (ℤ × Blob) :=
  if element.type = updateReturnCodeTlvType then
    (readNonNegativeInteger element).map fun code ↦ (Int.bmod code (2 ^ 32), result.2)
  else if element.type = updateReturnMsgTlvType then some (result.1, element.value)
  else some result

/-- `parseResponse`: the return code and the message; `none` models the decoding error. -/
def parseResponse (data : Data) : Option (ℤ × Blob) := do
  let _ ← parseBlocks data.content
  let block ← blockFromValue data.content
  let elements ← parseBlocks block.value
  elements.foldlM readElement (-1, [])

/-- The client reads the code that the server has written. -/
theorem parseResponse_updateContent {data : Data} {code : UpdateReturnCode}
    (h : data.content = updateContent code) : parseResponse data = some ((code.toCode : ℤ), []) := by
  unfold parseResponse
  rw [h]
  cases code with
  | updateOk => decide
  | updateFailure => decide

/-! ## The label -/

/-- A whole packet as a name component; `none` beyond the length that a component can have. -/
def updateComponent (wire : Block) : Option Component :=
  if hsize : wire.encode.length < 2 ^ 64 then some (Component.generic wire.encode hsize) else none

theorem updateComponent_eq_some {wire : Block} {component : Component}
    (h : updateComponent wire = some component) : component.value = wire.encode := by
  unfold updateComponent at h
  split_ifs at h
  cases h
  rfl

/-- The component tells which packet is inside. -/
theorem wire_eq_of_updateComponent {wire wire' : Block} {component : Component}
    (h : updateComponent wire = some component) (h' : updateComponent wire' = some component) :
    wire = wire' := by
  have hencode : wire.encode = wire'.encode :=
    (updateComponent_eq_some h).symm.trans (updateComponent_eq_some h')
  have hread := blockFromValue_encode wire
  rw [hencode, blockFromValue_encode] at hread
  exact (Option.some.inj hread).symm

variable [PacketFormat]

/-! ## Events -/

/-- `onData`; an exception leaves the event loop. -/
def onData (client : NdnsUpdate) (data : Data) : NdnsUpdate :=
  match parseResponse data with
  | none => { client with phase := .raised }
  | some (code, _) =>
      { client with
        hasError := client.hasError || code ≠ (UpdateReturnCode.updateOk.toCode : ℤ)
        phase := .verifying }

/-- `onDataValidated`. -/
def onDataValidated (client : NdnsUpdate) : NdnsUpdate := { client with phase := .stopped }

/-- `onDataValidationFailed`. -/
def onDataValidationFailed (client : NdnsUpdate) : NdnsUpdate :=
  { client with hasError := true, phase := .stopped }

/-- `onTimeout`, for a network Nack as well. -/
def onTimeout (client : NdnsUpdate) : NdnsUpdate :=
  { client with hasError := true, phase := .stopped }

/-- What `main` returns. -/
def exitCode (client : NdnsUpdate) : Option ℕ :=
  match client.phase with
  | .stopped => some (if client.hasError then 1 else 0)
  | .raised => some 1
  | .waiting | .verifying => none

/-! ## The Interest -/

/-- `makeUpdateInterest`. -/
def makeUpdateInterest (client : NdnsUpdate) : Option Interest :=
  (updateComponent client.update.wire).map fun component ↦
    Query.toInterest ⟨client.zone, Label.ndnsIterativeQuery, [component], Label.ndnsUpdateLabel,
      client.interestLifetime, []⟩

theorem name_of_makeUpdateInterest {client : NdnsUpdate} {interest : Interest}
    (h : client.makeUpdateInterest = some interest) :
    ∃ component, updateComponent client.update.wire = some component ∧
      interest.name = Label.recordName client.zone [component] Label.ndnsUpdateLabel := by
  obtain ⟨component, hcomponent, rfl⟩ := Option.map_eq_some_iff.mp h
  exact ⟨component, hcomponent, rfl⟩

theorem ofBlock_wire (packet : Received) : Received.ofBlock packet.wire = some packet := by
  unfold Received.ofBlock
  split
  · next data hdata =>
      obtain rfl := Option.some.inj (packet.decode_wire.symm.trans hdata)
      rfl
  · next hnone => exact absurd (packet.decode_wire.symm.trans hnone) (Option.some_ne_none _)

/-- The server of the zone reads the packet of the client off the Interest. -/
theorem updatePacket_of_makeUpdateInterest {client : NdnsUpdate} {interest : Interest}
    {zone : Zone} (hzone : client.zone = zone.name)
    (h : client.makeUpdateInterest = some interest) :
    ∃ re, Label.matchInterestName interest.name zone.name = .matched re ∧
      re.rrType = Label.ndnsUpdateLabel ∧ updatePacket re = some client.update := by
  obtain ⟨component, hcomponent, hname⟩ := name_of_makeUpdateInterest h
  refine ⟨⟨[component], Label.ndnsUpdateLabel, Component.empty⟩, ?_, rfl, ?_⟩
  · rw [hname, hzone, Label.matchInterestName_recordName _ _ (by decide)]
  · simp only [updatePacket, updateComponent_eq_some hcomponent, blockFromValue_encode,
      Option.bind_some, ofBlock_wire]

end NdnsUpdate

end Ndns.Clients
