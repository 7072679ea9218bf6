import Ndns.Daemon.DbMgr

/-!
# Certificates and the Record Factory

`CertHelper` reads and makes certificates in the key chain.  `RrsetFactory` builds signed records
of one zone: the five generate functions share `generateRrset` and differ in the record type, the
content type and the content.  A factory is an object whose methods change it even when they
throw, so the checking methods return the object beside their outcome.
-/

namespace Ndns.Daemon

open Ndn Calls

/-! ## Constants of the management tool -/

/-- `DEFAULT_CERT`, the empty name. -/
def defaultCert : Name := []

/-- `ROOT_ZONE`, the empty name. -/
def rootZone : Name := []

/-- `DEFAULT_CACHE_TTL` in seconds. -/
def defaultCacheTtl : ℤ := 3600

/-- `DEFAULT_RR_TTL`, which stands for the time to live of the zone. -/
def defaultRrTtl : ℤ := 0

/-- `VERSION_USE_UNIX_TIMESTAMP`. -/
def versionUseUnixTimestamp : ℕ := 2 ^ 64 - 1

/-! ## Certificates -/

namespace CertHelper

/-- The component that starts a key name inside a certificate name. -/
def keyComponent : Component := Component.generic [75, 69, 89] (by decide)

/-- `CertHelper::getIdentityNameFromCert`: the part of the name before the first KEY. -/
def getIdentityNameFromCert (certName : Name) : Prog Name :=
  if keyComponent ∈ certName then pure (certName.takeWhile fun component ↦ component ≠ keyComponent)
  else throw (.runtimeError "is not a legal cert name")

/-- `CertHelper::getCertificate`. -/
def getCertificate (identity certName : Name) : Prog Data := do
  let certificates ← orThrow (← service (.certificates identity)) .keyChainError
  orThrow (certificates.find? fun cert ↦ cert.name = certName) (.runtimeError "does not exist")

/-- `CertHelper::getDefaultKeyNameOfIdentity`. -/
def getDefaultKeyNameOfIdentity (identity : Name) : Prog Name := do
  orThrow (← service (.defaultKeyName identity)) .keyChainError

/-- `CertHelper::getDefaultCertificateNameOfIdentity`. -/
def getDefaultCertificateNameOfIdentity (identity : Name) : Prog Name := do
  orThrow (← service (.defaultCertificateName identity)) .keyChainError

/-- `CertHelper::createCertificate`.  The packet is named after the key, the issuer and the
current time; its freshness period of an hour is overwritten by every caller. -/
def createCertificate (keyName signingKey : Name) (issuer : Component) : Prog Data := do
  let timestamp ← service .now
  let content ← orThrow (← service (.publicKey keyName)) .keyChainError
  let certificate : Data :=
    ⟨keyName ++ [issuer, Component.fromVersion timestamp], NdnsContentType.key.toCode, 3600000,
      content, [], []⟩
  let signature ← orThrow (← service (.sign (.byKey signingKey) certificate)) .keyChainError
  pure { certificate with signatureInfo := signature.1, signatureValue := signature.2 }

end CertHelper

/-! ## The factory -/

structure RrsetFactory where
  zone : Zone
  dskCertName : Name
  checked : Bool
deriving DecidableEq

/-- The identity whose keys sign the records of a zone. -/
def zoneIdentity (zoneName : Name) : Name := zoneName ++ [Label.ndnsIterativeQuery]

/-- Go on with an object whose method ended normally. -/
def raise {Object : Type} (outcome : Except Fault Unit × Object) : Prog Object :=
  match outcome.1 with
  | .ok _ => pure outcome.2
  | .error fault => throw fault

namespace RrsetFactory

/-- The constructor. -/
def make (zoneName inputDskCertName : Name) : Prog RrsetFactory :=
  if inputDskCertName = defaultCert then do
    let _dskName ← CertHelper.getDefaultKeyNameOfIdentity (zoneIdentity zoneName)
    let certName ← CertHelper.getDefaultCertificateNameOfIdentity (zoneIdentity zoneName)
    pure ⟨Zone.named zoneName, certName, false⟩
  else pure ⟨Zone.named zoneName, inputDskCertName, false⟩

/-- `RrsetFactory::matchCertificate`; only a missing identity counts as a mismatch. -/
def matchCertificate (certName identity : Name) : Prog Bool := do
  match ← attempt (CertHelper.getCertificate identity certName) with
  | .ok _ => pure true
  | .error .keyChainError => pure false
  | .error fault => throw fault

/-- `RrsetFactory::onlyCheckZone`.  The flag is set before the lookup that may fail. -/
def onlyCheckZone (factory : RrsetFactory) : Prog (Except Fault Unit × RrsetFactory) :=
  if factory.checked then pure (.ok (), factory)
  else do
    match ← attempt (DbMgr.findZone factory.zone) with
    | .error fault => pure (.error fault, { factory with checked := true })
    | .ok zone =>
        if zone.id = 0 then
          pure (.error (.rrsetFactoryError "is not presented in the NDNS db"),
            { factory with checked := true, zone := zone })
        else pure (.ok (), { factory with checked := true, zone := zone })

/-- `RrsetFactory::checkZoneKey`. -/
def checkZoneKey (factory : RrsetFactory) : Prog (Except Fault Unit × RrsetFactory) := do
  let (outcome, factory) ← factory.onlyCheckZone
  match outcome with
  | .error fault => pure (.error fault, factory)
  | .ok _ =>
      if factory.dskCertName = defaultCert then pure (.ok (), factory)
      else
        match ← attempt (matchCertificate factory.dskCertName (zoneIdentity factory.zone.name)) with
        | .error fault => pure (.error fault, factory)
        | .ok true => pure (.ok (), factory)
        | .ok false => pure (.error (.rrsetFactoryError "Cannot verify certificate"), factory)

/-- The number `generateBaseRrset` turns into a version component. -/
def chooseVersion (version : ℕ) : Prog ℕ :=
  if version = versionUseUnixTimestamp then service .now else pure version

/-- `RrsetFactory::generateBaseRrset`: the record without its data, and the name of the data. -/
def generateBaseRrset (factory : RrsetFactory) (label : Name) (type : Component) (version : ℕ)
    (ttl : ℤ) : Prog (Rrset × Name) := do
  let number ← chooseVersion version
  let component := Component.fromVersion number
  pure (⟨0, some factory.zone, label, type, component, ttl, Block.invalid⟩,
    Label.recordName factory.zone.name label type ++ [component])

variable [PacketFormat]

/-- The part the generate functions share.  `content` is absent when it is too long to encode. -/
def generateRrset (factory : RrsetFactory) (label : Name) (type : Component)
    (contentType : NdnsContentType) (version : ℕ) (ttl : ℤ) (content : Option Blob) :
    Prog Rrset := do
  require (factory.checked = true)
    (.rrsetFactoryError "You have to call checkZoneKey before call generate functions")
  let ttl := if ttl = defaultRrTtl then factory.zone.ttl else ttl
  let (rrset, name) ← factory.generateBaseRrset label type version ttl
  let content ← orThrow content .lengthError
  require (0 ≤ ttl) (.runtimeError "FreshnessPeriod must be >= 0")
  let packet : Data := ⟨name, contentType.toCode, (ttl * 1000).toNat, content, [], []⟩
  let signature ← orThrow (← service (.sign (.byCertificate factory.dskCertName) packet))
    .keyChainError
  let wire ← orThrow (PacketFormat.encode
    { packet with signatureInfo := signature.1, signatureValue := signature.2 }) .lengthError
  pure { rrset with data := wire }

/-- `RrsetFactory::generateNsRrset`. -/
def generateNsRrset (factory : RrsetFactory) (label : Name) (version : ℕ) (ttl : ℤ)
    (delegations : List Name) : Prog Rrset :=
  factory.generateRrset label Label.nsRrType .link version ttl (encodeNames delegations)

/-- TLV type of one string of a TXT record. -/
def rrDataTlvType : ℕ := 191

/-- The content of a TXT record: one element for each string. -/
def encodeStrings (strings : List Blob) : Option Blob :=
  (strings.mapM (Block.make rrDataTlvType (by decide))).map (·.flatMap Block.encode)

/-- `RrsetFactory::wireDecodeTxt`; `none` models the decoding exception. -/
def wireDecodeTxt (content : Blob) : Option (List Blob) :=
  (parseBlocks content).map (·.map Block.value)

/-- `RrsetFactory::generateTxtRrset`. -/
def generateTxtRrset (factory : RrsetFactory) (label : Name) (version : ℕ) (ttl : ℤ)
    (strings : List Blob) : Prog Rrset :=
  factory.generateRrset label Label.txtRrType .resp version ttl (encodeStrings strings)

/-- `RrsetFactory::generateCertRrset`. -/
def generateCertRrset (factory : RrsetFactory) (label : Name) (version : ℕ) (ttl : ℤ)
    (certificate : Data) : Prog Rrset :=
  factory.generateRrset label Label.appcertRrType .key version ttl
    ((PacketFormat.encode certificate).map contentOf)

/-- `RrsetFactory::generateAuthRrset`. -/
def generateAuthRrset (factory : RrsetFactory) (label : Name) (version : ℕ) (ttl : ℤ) :
    Prog Rrset :=
  factory.generateRrset label Label.nsRrType .auth version ttl (some [])

/-- `RrsetFactory::generateDoeRrset`. -/
def generateDoeRrset (factory : RrsetFactory) (label : Name) (version : ℕ) (ttl : ℤ)
    (lowerLabel upperLabel : Name) : Prog Rrset :=
  factory.generateRrset label Label.doeRrType .doe version ttl (encodeNames [lowerLabel, upperLabel])

end RrsetFactory

end Ndns.Daemon
