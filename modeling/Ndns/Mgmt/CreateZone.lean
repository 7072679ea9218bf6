import Ndns.Mgmt.ManagementTool

/-!
# Creation of Zones

`createZone` prepares three keys with their certificates in the key chain, adds the zone and its
two identity certificates to the database, and ends with the first generation of the denial
records.  Each certificate is either made on the spot or one the caller names.
-/

namespace Ndns.Mgmt

open Ndn Calls Daemon

variable [PacketFormat]

namespace ManagementTool

/-! ## Certificates -/

/-- A key chain operation that throws when it fails. -/
def ensure (success : Bool) : Prog Unit := require (success = true) .keyChainError

/-- The freshness period of a certificate is set after it was signed. -/
def setFreshness (certificate : Data) (cacheTtl : ℤ) : Prog Data := do
  require (0 ≤ cacheTtl) (.runtimeError "FreshnessPeriod must be >= 0")
  pure { certificate with freshnessPeriod := (cacheTtl * 1000).toNat }

/-- Make a key with a certificate of issuer CERT, signed by the given key or by itself.  The
certificate the key chain makes by itself is deleted. -/
def generateCertificate (identity : Name) (signingKey : Option Name) (cacheTtl : ℤ) :
    Prog (Name × Data) := do
  let key ← orThrow (← service (.createKey identity)) .keyChainError
  let automatic ← orThrow (← service (.keyDefaultCertificateName key)) .keyChainError
  ensure (← service (.deleteCertificate key automatic))
  let certificate ← CertHelper.createCertificate key (signingKey.getD key) Label.certRrType
  let certificate ← setFreshness certificate cacheTtl
  ensure (← service (.addCertificate key certificate))
  pure (key, certificate)

/-- The key part of a certificate name: all but the issuer and the version. -/
def certificateKeyName (certName : Name) : Name := certName.take (certName.length - 2)

/-- Look up a certificate the caller named, and its key. -/
def suppliedCertificate (identity certName : Name) : Prog (Name × Data) := do
  let certificate ← CertHelper.getCertificate identity certName
  let key := certificateKeyName certificate.name
  ensure (← service (.findKey identity key))
  pure (key, certificate)

/-- The certificate under a name, or a new one when the name is `DEFAULT_CERT`. -/
def obtainCertificate (identity certName : Name) (signingKey : Option Name) (cacheTtl : ℤ) :
    Prog (Name × Data) :=
  if certName = defaultCert then generateCertificate identity signingKey cacheTtl
  else suppliedCertificate identity certName

/-- The DSK becomes the default key; a given certificate also has to be made the default one. -/
def setDefaultDsk (identity dsk dskCertName : Name) : Prog Unit := do
  ensure (← service (.setDefaultKey identity dsk))
  if dskCertName = defaultCert then pure ()
  else ensure (← service (.setDefaultCertificate dsk dskCertName))

/-! ## Rows -/

/-- The label of an identity certificate: what is between the zone, the marker, and the issuer. -/
def idCertLabel (zoneName certName : Name) : Name :=
  certName.getSubName (zoneName.length + 1)
    (Label.sizeSub (Label.sizeSub certName.length zoneName.length) 3)

/-- `ManagementTool::addIdCert`. -/
def addIdCert (zone : Zone) (cert : Data) (ttl : ℤ) : Prog Unit := do
  let version ← orThrow (cert.name.getFromEnd 1) .undefinedBehavior
  let data ← orThrow (PacketFormat.encode cert) .lengthError
  let rrsetKey : Rrset :=
    ⟨0, some zone, idCertLabel zone.name cert.name, Label.certRrType, version, ttl, data⟩
  let (found, rrsetKey) ← DbMgr.findRrset rrsetKey
  require (found = false)
    (.managementToolError "is already present in local NDNS database" rrsetKey.label)
  let _ ← DbMgr.insertRrset rrsetKey
  pure ()

/-- `ManagementTool::addZone`. -/
def addZone (zone : Zone) : Prog Zone := do
  let zone ← DbMgr.findZone zone
  require (zone.id = 0)
    (.managementToolError "is already present in local NDNS database" zone.name)
  DbMgr.insertZone zone

/-- Keep a certificate among the information about a zone. -/
def saveCertificate (zone : Zone) (key : String) (cert : Data) : Prog Unit := do
  DbMgr.setZoneInfo zone key (← orThrow (PacketFormat.encode cert) .lengthError)

/-! ## The operation -/

/-- The checks on the given DSK certificate, or else on the given KSK certificate. -/
def checkCertificates (zoneIdentityName kskCertName dskCertName : Name) : Prog Unit :=
  if dskCertName ≠ defaultCert then do
    require ((← matchCertificate dskCertName zoneIdentityName) = true)
      (.managementToolError "Cannot verify DSK certificate" [])
  else if kskCertName ≠ defaultCert then do
    require ((← matchCertificate kskCertName zoneIdentityName) = true)
      (.managementToolError "Cannot verify KSK certificate" [])
  else pure ()

/-- The identity of the key that the parent zone vouches for. -/
def dkeyIdentity (zoneName parentZoneName dkeyCertName : Name) : Prog Name :=
  if dkeyCertName = defaultCert then
    pure (zoneIdentity parentZoneName ++ zoneName.drop parentZoneName.length)
  else CertHelper.getIdentityNameFromCert dkeyCertName

/-- The rows of a new zone. -/
def addZoneRows (zone : Zone) (dkeyCert kskCert dskCert : Data) (cacheTtl : ℤ) : Prog Zone := do
  let zone ← addZone zone
  addIdCert zone kskCert cacheTtl
  addIdCert zone dskCert cacheTtl
  saveCertificate zone "ksk" kskCert
  saveCertificate zone "dsk" dskCert
  saveCertificate zone "dkey" dkeyCert
  generateDoe zone

/-- `ManagementTool::createZone`. -/
def createZone (zoneName parentZoneName : Name) (cacheTtl : ℤ)
    (kskCertName dskCertName dkeyCertName : Name) : Prog Zone := do
  let zone ← DbMgr.findZone (Zone.make zoneName cacheTtl)
  require (zone.id = 0) (.managementToolError "is already present in the NDNS db" zoneName)
  require (zoneName = rootZone ∨ parentZoneName ≠ zoneName)
    (.managementToolError "Parent zone name can not be the zone itself" [])
  require (zoneName = rootZone ∨ parentZoneName <+: zoneName)
    (.managementToolError "is not a prefix of" parentZoneName)
  checkCertificates (zoneIdentity zoneName) kskCertName dskCertName
  require (¬ (dkeyCertName = defaultCert ∧ zoneName = rootZone))
    (.managementToolError "Cannot generate dkey for root zone" [])
  let dkeyIdentityName ← dkeyIdentity zoneName parentZoneName dkeyCertName
  ensure (← service (.createIdentity (zoneIdentity zoneName)))
  ensure (← service (.createIdentity dkeyIdentityName))
  let (dkey, dkeyCert) ← obtainCertificate dkeyIdentityName dkeyCertName none cacheTtl
  let (ksk, kskCert) ← obtainCertificate (zoneIdentity zoneName) kskCertName (some dkey) cacheTtl
  let (dsk, dskCert) ← obtainCertificate (zoneIdentity zoneName) dskCertName (some ksk) cacheTtl
  setDefaultDsk (zoneIdentity zoneName) dsk dskCertName
  addZoneRows zone dkeyCert kskCert dskCert cacheTtl

end ManagementTool

end Ndns.Mgmt
