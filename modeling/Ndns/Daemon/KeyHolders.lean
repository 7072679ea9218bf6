import Ndns.Daemon.FactoryRules
import Ndns.Daemon.LocalServices

/-!
# Key Chains That Hold the Keys of a Zone

With a key and a certificate of the zone in the key chain, and the zone in the database, the factory
that `generateDoe` and the tools make passes its check.
-/

namespace Ndns.Daemon

open Ndn Calls

/-- The key chain has a default key of the identity, and its default certificate under this
name. -/
structure Services.HoldsKeys {Keys : Type} (services : Services Keys) (identity certName : Name) :
    Prop where
  key : ∀ keys, (services.answer (.defaultKeyName identity) keys).1 ≠ none
  certificate : ∀ keys, (services.answer (.defaultCertificateName identity) keys).1 = some certName
  listed : ∀ keys, ∃ certificates,
    (services.answer (.certificates identity) keys).1 = some certificates ∧
      ∃ cert ∈ certificates, cert.name = certName

/-- The key chain lists a certificate of this name for the identity. -/
def Services.Lists {Keys : Type} (services : Services Keys) (identity certName : Name) : Prop :=
  ∀ keys, ∃ certificates, (services.answer (.certificates identity) keys).1 = some certificates ∧
    ∃ cert ∈ certificates, cert.name = certName

theorem localServices_holdsKeys (identity : Name) : localServices.HoldsKeys identity
    (LocalServices.certificateName (LocalServices.keyName identity)) :=
  ⟨fun _ ↦ nofun, fun _ ↦ rfl, fun _ ↦ ⟨_, rfl, _, List.mem_cons_self, rfl⟩⟩

namespace RrsetFactory

/-- The certificate a factory signs with: the default one, or the one it was given. -/
def chosenCert (certName inputDskCertName : Name) : Name :=
  if inputDskCertName = defaultCert then certName else inputDskCertName

variable {Keys : Type} {services : Services Keys} {db : Database}
  {zoneName certName inputDskCertName : Name}

theorem run_matchCertificate {identity : Name} (h : services.Lists identity certName)
    (keys : Keys) : ∃ keys', (matchCertificate certName identity).run (World.handle services)
      ⟨db, keys⟩ = (.ok true, ⟨db, keys'⟩) := by
  obtain ⟨certificates, hanswer, cert, hcert, hname⟩ := h keys
  obtain ⟨found, hfound⟩ : ∃ found, certificates.find? (fun cert ↦ cert.name = certName) =
      some found := by
    rw [← Option.isSome_iff_exists, List.find?_isSome]
    exact ⟨cert, hcert, by simpa using hname⟩
  refine ⟨(services.answer (.certificates identity) keys).2, ?_⟩
  unfold matchCertificate CertHelper.getCertificate
  simp only [Program.run_bind, run_attempt, run_service, hanswer, orThrow, Program.run_pure,
    hfound]

theorem run_make (h : services.HoldsKeys (zoneIdentity zoneName) certName) (keys : Keys) :
    ∃ keys', (make zoneName inputDskCertName).run (World.handle services) ⟨db, keys⟩ =
      (.ok ⟨Zone.named zoneName, chosenCert certName inputDskCertName, false⟩, ⟨db, keys'⟩) := by
  unfold make chosenCert
  split_ifs
  · obtain ⟨key, hkey⟩ := Option.ne_none_iff_exists'.mp (h.key keys)
    refine ⟨(services.answer (.defaultCertificateName (zoneIdentity zoneName))
      (services.answer (.defaultKeyName (zoneIdentity zoneName)) keys).2).2, ?_⟩
    unfold CertHelper.getDefaultKeyNameOfIdentity CertHelper.getDefaultCertificateNameOfIdentity
    simp only [Program.run_bind, run_service, hkey, orThrow, Program.run_pure, h.certificate]
  · exact ⟨keys, rfl⟩

/-- The check of a new factory fills in the zone in the database. -/
theorem run_checkZoneKey
    (hlists : certName ≠ defaultCert → services.Lists (zoneIdentity zoneName) certName)
    (hzone : (DbMgr.lookupZone db (Zone.named zoneName)).id ≠ 0) (keys : Keys) :
    ∃ keys', (checkZoneKey ⟨Zone.named zoneName, certName, false⟩).run (World.handle services)
      ⟨db, keys⟩ = (.ok (.ok (), ⟨DbMgr.lookupZone db (Zone.named zoneName), certName, true⟩),
        ⟨db, keys'⟩) := by
  unfold checkZoneKey
  rw [Program.run_bind, run_onlyCheckZone rfl]
  simp only [if_neg hzone]
  split_ifs with hdefault
  · exact ⟨keys, rfl⟩
  · obtain ⟨matched, hmatch⟩ := @run_matchCertificate _ _ db _ _ (hlists hdefault) keys
    refine ⟨matched, ?_⟩
    rw [DbMgr.lookupZone_name, Program.run_bind, run_attempt]
    have hname : (Zone.named zoneName).name = zoneName := rfl
    rw [hname, hmatch]
    rfl

/-- The factory is made, passes its check, and works for the zone in the database. -/
theorem run_checkedFactory {Value : Type}
    (h : services.HoldsKeys (zoneIdentity zoneName) certName)
    (hzone : (DbMgr.lookupZone db (Zone.named zoneName)).id ≠ 0) (rest : RrsetFactory → Prog Value)
    (keys : Keys) : ∃ keys', (do
        let factory ← make zoneName defaultCert
        let factory ← raise (← factory.checkZoneKey)
        rest factory : Prog Value).run (World.handle services) ⟨db, keys⟩ =
      (rest ⟨DbMgr.lookupZone db (Zone.named zoneName), certName, true⟩).run (World.handle services)
        ⟨db, keys'⟩ := by
  obtain ⟨made, hmake⟩ := @run_make _ _ db _ _ defaultCert h keys
  obtain ⟨checked, hcheck⟩ := @run_checkZoneKey _ _ db _ _ (fun _ ↦ h.listed) hzone made
  rw [chosenCert, if_pos rfl] at hmake
  refine ⟨checked, ?_⟩
  rw [Program.run_bind, hmake]
  simp only
  rw [Program.run_bind, hcheck]
  rfl

end RrsetFactory

end Ndns.Daemon
