import Ndns.Daemon.DbMgr

/-!
# The Name Server

A `NameServer` answers the Interests under the prefix of one zone.  A query is answered with the
stored packet, or with an `NDNS_NACK` that carries the denial record found below the queried
name.  An update carries one packet, which is stored when the validator accepts it and it is newer
than what is stored.
-/

namespace Ndns.Daemon

open Ndn Calls

/-! ## Packets of the server -/

namespace NameServer

/-- `NAME_SERVER_DEFAULT_CONTENT_FRESHNESS` in milliseconds. -/
def defaultContentFreshness : ℕ := 4000

/-- TLV types `RrData` and `UpdateReturnCode`. -/
def rrDataTlvType : ℕ := 191

def updateReturnCodeTlvType : ℕ := 160

/-- `UpdateReturnCode`. -/
inductive UpdateReturnCode where
  | updateOk
  | updateFailure
deriving DecidableEq

def UpdateReturnCode.toCode : UpdateReturnCode → ℕ
  | .updateOk => 0
  | .updateFailure => 1

theorem tlvType_pos {type : ℕ} (htype : 0 < type ∧ type < 2 ^ 32) : 0 < type := htype.1

theorem tlvType_lt {type : ℕ} (htype : 0 < type ∧ type < 2 ^ 32) : type < 2 ^ 32 := htype.2

/-- A number of at most 64 bits as an element. -/
def nonNegativeIntegerBlock (type : ℕ) (htype : 0 < type ∧ type < 2 ^ 32) (value : ℕ) : Block where
  type := type
  value := nonNegativeInteger value
  type_pos := tlvType_pos htype
  type_lt := tlvType_lt htype
  size_lt := (Component.fromVersion value).size_lt

/-- The content of an answer to an update: a return code inside an `RrData` element. -/
def updateContent (code : UpdateReturnCode) : Blob :=
  let inner := nonNegativeIntegerBlock updateReturnCodeTlvType (by decide) code.toCode
  varNumber rrDataTlvType ++ varNumber inner.encode.length ++ inner.encode

end NameServer

/-! ## The server -/

/-- A running server; the constructor of the source throws unless the zone was found. -/
structure NameServer where
  zone : Zone
  certName : Name
  contentFreshness : ℕ
  zone_found : 0 < zone.id

namespace NameServer

/-- The constructor. -/
def make (zoneName certName : Name) : Prog NameServer := do
  let zone ← DbMgr.findZone (Zone.named zoneName)
  if h : 0 < zone.id then pure ⟨zone, certName, defaultContentFreshness, h⟩
  else throw (.runtimeError "does not exist in the database")

variable [PacketFormat]

/-- The name of an answer the server makes itself: the Interest name and the current time. -/
def answerName (interest : Interest) : Prog Name := do
  let timestamp ← service .now
  pure (interest.name ++ [Component.fromVersion timestamp])

/-- Sign a packet; the signing exceptions are not handled. -/
def signed (signer : Signer) (answer : Data) : Prog Data := do
  let signature ← orThrow (← service (.sign signer answer)) .keyChainError
  pure { answer with signatureInfo := signature.1, signatureValue := signature.2 }

/-! ## Queries -/

/-- The negative answer to a query: the stored denial record below the queried name. -/
def denyQuery (server : NameServer) (interest : Interest) (re : Label.MatchResult) :
    Prog Data := do
  let name ← answerName interest
  let (found, doe) ← DbMgr.findLowerBound
    (Rrset.keyed server.zone (re.rrLabel ++ [re.rrType]) Label.doeRrType)
  if found then
    signed .default
      ⟨name, NdnsContentType.nack.toCode, server.contentFreshness, contentOf doe.data, [], []⟩
  else throw (.runtimeError "fail to find DoE record of zone")

/-- `NameServer::handleQuery`. -/
def handleQuery (server : NameServer) (interest : Interest) (re : Label.MatchResult) :
    Prog Data := do
  let (found, rrset) ← DbMgr.findRrset (Rrset.keyed server.zone re.rrLabel re.rrType)
  if found ∧ (re.version.isEmpty ∨ re.version = rrset.version) then
    orThrow (PacketFormat.decode rrset.data) .tlvError
  else denyQuery server interest re

/-! ## Updates -/

/-- Update the existing record, unless the packet is not newer. -/
def replaceRecord (rrset : Rrset) (version : Component) (wire : Block) : Prog UpdateReturnCode :=
  if rrset.version < version then do
    DbMgr.updateRrset { rrset with version := version, data := wire }
    pure .updateOk
  else pure .updateFailure

/-- Insert a new record with the time to live of the zone. -/
def insertRecord (server : NameServer) (rrset : Rrset) (version : Component) (wire : Block) :
    Prog UpdateReturnCode := do
  let _ ← DbMgr.insertRrset { rrset with version := version, data := wire, ttl := server.zone.ttl }
  pure .updateOk

/-- Replace or insert the record; the result is what the answer reports. -/
def applyUpdate (server : NameServer) (re : Label.MatchResult) (packet : Received) :
    Prog UpdateReturnCode := do
  let (found, rrset) ← DbMgr.findRrset (Rrset.keyed server.zone re.rrLabel re.rrType)
  if found then replaceRecord rrset re.version packet.wire
  else insertRecord server rrset re.version packet.wire

/-- `NameServer::doUpdate`; there is no answer to a packet whose name does not match.  An
exception of the database becomes a failure code. -/
def doUpdate (server : NameServer) (interest : Interest) (packet : Received) :
    Prog (Option Data) :=
  match Label.matchDataName packet.data.name server.zone.name with
  | .outOfBounds => throw .undefinedBehavior
  | .noMatch => pure none
  | .matched re => do
      let name ← answerName interest
      let code ← (applyUpdate server re packet).tryCatch fun _ ↦ pure .updateFailure
      let answer ← signed (.byCertificate server.certName)
        ⟨name, NdnsContentType.resp.toCode, server.contentFreshness, updateContent code, [], []⟩
      pure (some answer)

/-- The packet inside an update, which the Interest carries in its only label component. -/
def updatePacket (re : Label.MatchResult) : Option Received :=
  match re.rrLabel with
  | [component] => (blockFromValue component.value).bind Received.ofBlock
  | _ => none

/-- `NameServer::handleUpdate`. -/
def handleUpdate (server : NameServer) (interest : Interest) (re : Label.MatchResult) :
    Prog (Option Data) :=
  match updatePacket re with
  | none => pure none
  | some packet => do
      if ← service (.validate packet.data) then doUpdate server interest packet
      else pure none

/-- `NameServer::onInterest`. -/
def onInterest (server : NameServer) (interest : Interest) : Prog (Option Data) :=
  match Label.matchInterestName interest.name server.zone.name with
  | .outOfBounds => throw .undefinedBehavior
  | .noMatch => pure none
  | .matched re =>
      if re.rrType = Label.ndnsUpdateLabel then handleUpdate server interest re
      else some <$> handleQuery server interest re

end NameServer

end Ndns.Daemon
