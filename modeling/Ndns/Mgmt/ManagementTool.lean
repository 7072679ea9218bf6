import Ndns.Daemon.RrsetFactory
import Ndns.Clients.Response

/-!
# The Management Tool

Creation and removal of zones, addition and removal of records, and the regeneration of the
denial records that every change of a zone ends with.  The operations are series of single
statements: none of them is grouped in a transaction, and an exception leaves what was written
before it.

Record objects point to a zone object, and a lookup through one of them fills in the zone of all.
`shareZone` hands the zone object of a copy back to the original.
-/

namespace Ndns.Daemon

/-- The record with the zone object of its copy. -/
def Rrset.shareZone (rrset copy : Rrset) : Rrset := { rrset with zone := copy.zone }

end Ndns.Daemon

namespace Ndns.Mgmt

open Ndn Calls Daemon

variable [PacketFormat]

namespace ManagementTool

/-! ## Denial records -/

/-- The name a denial record gives to a record: its label followed by its type. -/
def doeName (rrset : Rrset) : Name := rrset.label ++ [rrset.type]

/-- `Rrset::operator<` on the records of one zone: by label, then by type, then by version. -/
def rrsetKey (rrset : Rrset) : Name ×ₗ Component ×ₗ Component :=
  toLex (rrset.label, toLex (rrset.type, rrset.version))

/-- Generate one denial record and insert it. -/
def insertDoe (factory : RrsetFactory) (label lowerLabel upperLabel : Name) : Prog Unit := do
  let doe ← factory.generateDoeRrset label versionUseUnixTimestamp defaultCacheTtl lowerLabel
    upperLabel
  let _ ← DbMgr.insertRrset doe
  pure ()

/-- The loop over neighbours: one denial record from each record to the next. -/
def insertRanges (factory : RrsetFactory) : List Rrset → Prog Unit
  | lower :: upper :: rest => do
      insertDoe factory (doeName lower) (doeName lower) (doeName upper)
      insertRanges factory (upper :: rest)
  | _ => pure ()

/-- The statements of `generateDoe` after the old denial records are gone. -/
def insertChain (factory : RrsetFactory) (records : List Rrset) : Prog Unit :=
  match records with
  -- the loop bound `size() - 1` wraps and `front()` and `back()` do not exist
  | [] => throw .undefinedBehavior
  | first :: rest => do
      let last := rest.getLastD first
      insertRanges factory (first :: rest)
      insertDoe factory (doeName last) (doeName last) (doeName first)
      -- the guard has the smallest label, and so is found below the first record
      insertDoe factory [] (doeName last) (doeName first)

/-- `ManagementTool::generateDoe`.  The result is the zone object with its id filled in. -/
def generateDoe (zone : Zone) : Prog Zone := do
  let zone ← DbMgr.findZone zone
  require (zone.id ≠ 0) (.managementToolError "is not present in the NDNS db" zone.name)
  DbMgr.removeRrsetsOfZoneByType zone Label.doeRrType
  let allRecords ← DbMgr.findRrsets zone
  let allRecords := allRecords.insertionSort fun left right ↦ rrsetKey left ≤ rrsetKey right
  let factory ← RrsetFactory.make zone.name defaultCert
  let factory ← raise (← factory.checkZoneKey)
  insertChain factory allRecords
  pure zone

/-! ## Checks -/

/-- `ManagementTool::matchCertificate`. -/
def matchCertificate (certName identity : Name) : Prog Bool := do
  let certificates ← orThrow (← service (.certificates identity)) .keyChainError
  pure (certificates.any fun certificate ↦ certificate.name = certName)

/-- Refuse to go on when the record is in the database with the given content type.  The result
is the record with the zone object the lookup may have filled in. -/
def refuse (rrset : Rrset) (contentType : NdnsContentType) (fault : Fault) : Prog Rrset := do
  let (found, rrsetCopy) ← DbMgr.findRrset rrset
  if found then do
    let packet ← orThrow (PacketFormat.decode rrsetCopy.data) .tlvError
    require (NdnsContentType.ofCode packet.contentType ≠ contentType) fault
    pure (rrset.shareZone rrsetCopy)
  else pure (rrset.shareZone rrsetCopy)

/-- `ManagementTool::checkRrsetVersion`: remove an older version, refuse any other. -/
def checkRrsetVersion (rrset : Rrset) : Prog Rrset := do
  let (found, originalRrset) ← DbMgr.findRrset rrset
  if found then do
    require (originalRrset.version ≠ rrset.version)
      (.managementToolError "Duplicate" originalRrset.label)
    require (originalRrset.version < rrset.version)
      (.managementToolError "Newer version exists" originalRrset.label)
    DbMgr.removeRrset originalRrset
    pure (rrset.shareZone originalRrset)
  else pure (rrset.shareZone originalRrset)

/-- The end every addition shares: version check, insertion and regeneration. -/
def store (rrset : Rrset) : Prog Unit := do
  let rrset ← checkRrsetVersion rrset
  let rrset ← DbMgr.insertRrset rrset
  match rrset.zone with
  | none => throw .undefinedBehavior
  | some zone => do
      let _ ← generateDoe zone
      pure ()

/-! ## Adding records -/

/-- The record object the checks look up: the NS record at a label. -/
def nsAt (rrset : Rrset) (label : Name) : Rrset :=
  { rrset with id := 0, label := label, type := Label.nsRrType }

/-- `ManagementTool::addRrset`. -/
def addRrset (rrset : Rrset) : Prog Unit := do
  let rrsetCopy ← refuse { rrset with type := Label.nsRrType } .auth
    (.managementToolError "Can not add this Rrset: it overrides a NDNS_AUTH record" [])
  store (rrset.shareZone rrsetCopy)

/-- The proper prefixes of a label, shortest first: the iterations of the two loops of
`addMultiLevelLabelRrset` on a non-empty label. -/
def properPrefixes (label : Name) : List Name :=
  (List.range (label.length - 1)).map fun index ↦ label.getPrefix (index + 1)

/-- No proper prefix may be delegated to another zone. -/
def checkNoDelegation (rrset : Rrset) : List Name → Prog Rrset
  | [] => pure rrset
  | labelPrefix :: rest => do
      let prefixNsRr ← refuse (nsAt rrset labelPrefix) .link
        (.managementToolError "Cannot override (NDNS_LINK)" labelPrefix)
      checkNoDelegation (rrset.shareZone prefixNsRr) rest

/-- An NS record may not replace an AUTH record. -/
def checkNotAuth (rrset : Rrset) : Prog Rrset :=
  if rrset.type = Label.nsRrType then
    refuse rrset .auth (.managementToolError "Cannot override (NDNS_AUTH)" rrset.label)
  else pure rrset

/-- Create the AUTH records that are missing at the proper prefixes. -/
def createAuth (zoneRrFactory : RrsetFactory) (authTtl : ℤ) (rrset : Rrset) :
    List Name → Prog Rrset
  | [] => pure rrset
  | labelPrefix :: rest => do
      let (found, prefixNsRr) ← DbMgr.findRrset (nsAt rrset labelPrefix)
      if found then createAuth zoneRrFactory authTtl (rrset.shareZone prefixNsRr) rest
      else do
        let authRr ← zoneRrFactory.generateAuthRrset labelPrefix versionUseUnixTimestamp authTtl
        let authRr ← DbMgr.insertRrset authRr
        createAuth { zoneRrFactory with zone := authRr.zone.getD zoneRrFactory.zone } authTtl
          (rrset.shareZone prefixNsRr) rest

/-- `ManagementTool::addMultiLevelLabelRrset`. -/
def addMultiLevelLabelRrset (rrset : Rrset) (zoneRrFactory : RrsetFactory) (authTtl : ℤ) :
    Prog Unit :=
  if rrset.label = [] then do
    -- the loop bound `size() - 1` wraps, and every iteration checks the empty prefix
    let _ ← checkNoDelegation rrset [[]]
    throw .nonTermination
  else do
    let rrset ← checkNoDelegation rrset (properPrefixes rrset.label)
    let rrset ← checkNotAuth rrset
    let rrset ← createAuth zoneRrFactory authTtl rrset (properPrefixes rrset.label)
    store rrset

/-- The certificate a new record is signed with: the default one, or the given one after a
check. -/
def chooseDskCert (inputDskCertName zoneIdentityName : Name) : Prog Name :=
  if inputDskCertName = defaultCert then do
    let _dskName ← CertHelper.getDefaultKeyNameOfIdentity zoneIdentityName
    CertHelper.getDefaultCertificateNameOfIdentity zoneIdentityName
  else do
    require ((← matchCertificate inputDskCertName zoneIdentityName) = true)
      (.managementToolError "Cannot verify certificate" [])
    pure inputDskCertName

/-- Load a packet from a file. -/
def loadData (inFile : String) : Prog Received := do
  match ← service (.load inFile) with
  | .notFile => throw (.managementToolError "does not exist" [])
  | .contents wire =>
      orThrow (wire.bind Received.ofBlock)
        (.managementToolError "input does not contain a valid Data packet" [])

/-- Sign a loaded packet again; the wire of a packet that keeps its signature is unchanged. -/
def resign (needResign : Bool) (dskCertName : Name) (packet : Received) : Prog (Data × Block) :=
  if needResign then do
    let signature ← orThrow (← service (.sign (.byCertificate dskCertName) packet.data))
      .keyChainError
    let data := { packet.data with signatureInfo := signature.1, signatureValue := signature.2 }
    pure (data, ← orThrow (PacketFormat.encode data) .lengthError)
  else pure (packet.data, packet.wire)

/-- Read a packet as a response of the zone.  The flag of `fromData` is dropped, so a packet with
a name that does not match gives the fields of a new response. -/
def parseRrset (zoneName : Name) (data : Data) : Prog Clients.Response :=
  match Clients.Response.default.fromData zoneName data with
  | .ok (_, re) => pure re
  | .error .outOfBounds => throw .undefinedBehavior
  | .error .malformed => throw .tlvError

/-- `ManagementTool::addRrsetFromFile`. -/
def addRrsetFromFile (zoneName : Name) (inFile : String) (ttl : ℤ) (inputDskCertName : Name)
    (needResign : Bool) : Prog Unit := do
  let zone ← DbMgr.findZone (Zone.named zoneName)
  require (zone.id ≠ 0) (.managementToolError "is not present in the NDNS db" zoneName)
  let dskCertName ← chooseDskCert inputDskCertName (zoneIdentity zoneName)
  let packet ← loadData inFile
  let (data, wire) ← resign needResign dskCertName packet
  let re ← parseRrset zoneName data
  store ⟨0, some zone, re.rrLabel, re.rrType, re.version,
    if ttl = defaultRrTtl then zone.ttl else ttl, wire⟩

/-- The record `ndns-add-rr` builds for the type on its command line: NS and TXT are known, any
other type gives a default-constructed record. -/
def generateNamedRrset (rrsetFactory : RrsetFactory) (label : Name) (type : Component)
    (version : ℕ) (ttl : ℤ) (delegations : List Name) (strings : List Blob) : Prog Rrset :=
  if type = Label.nsRrType then rrsetFactory.generateNsRrset label version ttl delegations
  else if type = Label.txtRrType then rrsetFactory.generateTxtRrset label version ttl strings
  else pure ⟨0, none, [], Component.empty, Component.empty, 0, Block.invalid⟩

/-- What `ndns-add-rr` does with the parameters of its command line when no file is given. -/
def addRr (zoneName label : Name) (type : Component) (version : ℕ) (ttl : ℤ) (dsk : Name)
    (delegations : List Name) (strings : List Blob) : Prog Unit := do
  let rrsetFactory ← RrsetFactory.make zoneName dsk
  let rrsetFactory ← raise (← rrsetFactory.checkZoneKey)
  let rrset ← generateNamedRrset rrsetFactory label type version ttl delegations strings
  if 1 < label.length then addMultiLevelLabelRrset rrset rrsetFactory ttl else addRrset rrset

/-! ## Removing records -/

/-- `ManagementTool::removeRrSet`. -/
def removeRrSet (zoneName label : Name) (type : Component) : Prog Unit := do
  let (found, rrset) ← DbMgr.findRrset (Rrset.keyed (Zone.named zoneName) label type)
  if found then do
    DbMgr.removeRrset rrset
    match rrset.zone with
    | none => throw .undefinedBehavior
    | some zone => do
        let _ ← generateDoe zone
        pure ()
  else pure ()

/-- The loop of `deleteZone`. -/
def removeAll : List Rrset → Prog Unit
  | [] => pure ()
  | rrset :: rest => do
      DbMgr.removeRrset rrset
      removeAll rest

/-- `ManagementTool::removeZone`. -/
def removeZone (zone : Zone) : Prog Unit := do
  let zone ← DbMgr.findZone zone
  if zone.id = 0 then pure ()
  else do
    let _ ← DbMgr.removeZone zone
    pure ()

/-- `ManagementTool::deleteZone`. -/
def deleteZone (zoneName : Name) : Prog Unit := do
  let zone ← DbMgr.findZone (Zone.named zoneName)
  require (zone.id ≠ 0) (.managementToolError "is not present in the NDNS db" zoneName)
  removeAll (← DbMgr.findRrsets zone)
  removeZone zone

end ManagementTool

end Ndns.Mgmt
