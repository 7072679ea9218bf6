import Ndns.Mgmt.CreationOutcomes
import Ndns.Validator.CertificateFetcherNdnsCert

/-!
# Zones and Identities in the Names of Certificates

The key of a zone is made under the zone and the marker NDNS, and its certificates are named after
it behind a KEY.  `calculateDomain` and `getIdentityNameFromCert` look for these two markers from
the left, so they find the one that `createZone` has put there unless the same component occurs in
the name of the zone or of its parent, which `createZone` does not look at.
-/

namespace Ndns.Mgmt

open Ndn Calls Daemon Validator CertificateFetcherNdnsCert CertHelper ManagementTool

/-! ## The first marker -/

/-- What is before the first marker. -/
theorem takeWhile_marker_iff {marker : Component} {front rest : Name} :
    (front ++ marker :: rest).takeWhile (fun component ↦ component ≠ marker) = front ↔
      marker ∉ front := by
  induction front with
  | nil => simp
  | cons component front ih =>
      by_cases hmarker : component = marker
      · simp [hmarker]
      · simp only [List.cons_append, List.takeWhile_cons, hmarker, ne_eq, not_false_eq_true,
          decide_true, if_true, List.cons.injEq, true_and, List.mem_cons, not_or]
        rw [← ne_eq, ih]
        exact ⟨fun hrest ↦ ⟨Ne.symm hmarker, hrest⟩, fun h ↦ h.2⟩

theorem calculateDomain_iff {domain rest : Name} :
    calculateDomain (domain ++ Label.ndnsIterativeQuery :: rest) = .ok domain ↔
      Label.ndnsIterativeQuery ∉ domain := by
  rw [calculateDomain, if_pos (by simp), Except.ok.injEq]
  exact takeWhile_marker_iff

theorem getIdentityNameFromCert_iff {identity rest : Name} :
    getIdentityNameFromCert (identity ++ keyComponent :: rest) = pure identity ↔
      keyComponent ∉ identity := by
  rw [getIdentityNameFromCert, if_pos (by simp)]
  have hpure : ∀ name : Name, (pure name : Prog Name) = pure identity ↔ name = identity :=
    fun name ↦ ⟨fun h ↦ by cases h; rfl, fun h ↦ by rw [h]⟩
  rw [hpure]
  exact takeWhile_marker_iff

/-! ## The names of keys and certificates -/

/-- The naming conventions of the key chain: a key is named after its identity, and the certificates
of an identity after its keys. -/
structure NamesKeys {Keys : Type} (services : Services Keys) : Prop where
  created : ∀ identity keys key, (services.answer (.createKey identity) keys).1 = some key →
    ∃ keyId, key = identity ++ [keyComponent, keyId]
  listed : ∀ identity keys certificates cert,
    (services.answer (.certificates identity) keys).1 = some certificates → cert ∈ certificates →
      ∃ keyId issuer version, cert.name = identity ++ [keyComponent, keyId, issuer, version]

/-- A certificate of a key of an identity. -/
def CertifiesKeyOf (identity certName : Name) : Prop :=
  ∃ keyId issuer version, certName = identity ++ [keyComponent, keyId, issuer, version]

/-- The identity of the D-Key. -/
def dkeyIdentityName (zoneName parentZoneName : Name) : Name :=
  zoneIdentity parentZoneName ++ zoneName.drop parentZoneName.length

/-- Neither marker occurs in a name. -/
def MarkerFree (name : Name) : Prop :=
  Label.ndnsIterativeQuery ∉ name ∧ keyComponent ∉ name

/-- The two functions give back the zones and the identities the certificates were made for. -/
structure NamesSplit (zoneName parentZoneName : Name) (kskCert dskCert dkeyCert : Data) : Prop where
  domain : ∀ cert ∈ [kskCert, dskCert],
    calculateDomain (certificateKeyName cert.name) = .ok zoneName
  parentDomain : calculateDomain (certificateKeyName dkeyCert.name) = .ok parentZoneName
  identity : ∀ cert ∈ [kskCert, dskCert],
    getIdentityNameFromCert cert.name = pure (zoneIdentity zoneName)
  dkeyIdentity : getIdentityNameFromCert dkeyCert.name =
    pure (dkeyIdentityName zoneName parentZoneName)

/-- The name of the zone has neither marker, nor has that of the parent, and a D-Key that is given
is one of the identity that is used for new ones. -/
structure MarkersApart (zoneName parentZoneName dkeyCertName : Name) : Prop where
  zone : MarkerFree zoneName
  parent : MarkerFree parentZoneName
  dkey : dkeyCertName = defaultCert ∨
    CertifiesKeyOf (dkeyIdentityName zoneName parentZoneName) dkeyCertName

variable {Keys : Type} {services : Services Keys} {world world' : World Keys} {zone : Zone}
  {zoneName parentZoneName kskCertName dskCertName dkeyCertName identity certName key : Name}
  {signingKey : Option Name} {cacheTtl : ℤ} {cert : Data}

/-- A certificate that is obtained for an identity is named after a key of it. -/
theorem certifies_of_obtainCertificate (hnames : NamesKeys services)
    (h : (obtainCertificate identity certName signingKey cacheTtl).Returns (World.handle services)
      world (key, cert) world') : CertifiesKeyOf identity cert.name := by
  rcases returns_obtainCertificate h with
    ⟨-, ⟨keys, hkey⟩, -, timestamp, hname⟩ | ⟨-, -, -, keys, certificates, hlisted, hmem⟩
  · obtain ⟨keyId, rfl⟩ := hnames.created _ _ _ hkey
    exact ⟨keyId, Label.certRrType, Component.fromVersion timestamp, by rw [hname]; simp⟩
  · exact hnames.listed _ _ _ _ hlisted hmem

theorem certificateKeyName_append (identity : Name) (keyId issuer version : Component) :
    certificateKeyName (identity ++ [keyComponent, keyId, issuer, version]) =
      identity ++ [keyComponent, keyId] := by
  rw [certificateKeyName, List.length_append]
  exact List.take_length_add_append 2

/-- A certificate of a key of `zone/NDNS`. -/
theorem CertifiesKeyOf.split_iff (h : CertifiesKeyOf (zoneIdentity zoneName) certName) :
    (calculateDomain (certificateKeyName certName) = .ok zoneName ∧
      getIdentityNameFromCert certName = pure (zoneIdentity zoneName)) ↔ MarkerFree zoneName := by
  obtain ⟨keyId, issuer, version, rfl⟩ := h
  have hmarker : keyComponent ∉ zoneIdentity zoneName ↔ keyComponent ∉ zoneName := by
    have hne : keyComponent ≠ Label.ndnsIterativeQuery := by decide
    simp [zoneIdentity, hne]
  rw [certificateKeyName_append, getIdentityNameFromCert_iff, hmarker, zoneIdentity,
    List.append_assoc, List.singleton_append, calculateDomain_iff, MarkerFree]

/-- A certificate of a key of the identity of the D-Key. -/
theorem CertifiesKeyOf.dkey_split_iff
    (h : CertifiesKeyOf (dkeyIdentityName zoneName parentZoneName) certName) :
    (calculateDomain (certificateKeyName certName) = .ok parentZoneName ∧
      getIdentityNameFromCert certName = pure (dkeyIdentityName zoneName parentZoneName)) ↔
      MarkerFree parentZoneName ∧ keyComponent ∉ zoneName.drop parentZoneName.length := by
  obtain ⟨keyId, issuer, version, rfl⟩ := h
  have hmarker : keyComponent ∉ dkeyIdentityName zoneName parentZoneName ↔
      keyComponent ∉ parentZoneName ∧ keyComponent ∉ zoneName.drop parentZoneName.length := by
    have hne : keyComponent ≠ Label.ndnsIterativeQuery := by decide
    simp [dkeyIdentityName, zoneIdentity, hne, not_or]
  rw [certificateKeyName_append, getIdentityNameFromCert_iff, hmarker, dkeyIdentityName,
    zoneIdentity, List.append_assoc, List.append_assoc, List.singleton_append,
    calculateDomain_iff, MarkerFree, and_assoc]

/-- The D-Key that is obtained is one of the identity for new ones exactly when it is a new one, or
is given as one of this identity. -/
theorem certifies_dkey {dkey : Name} {dkeyCert : Data} {before after before' after' : World Keys}
    (hnames : NamesKeys services)
    (hidentity : (ManagementTool.dkeyIdentity zoneName parentZoneName dkeyCertName).Returns
      (World.handle services) before identity after)
    (hdkey : (obtainCertificate identity dkeyCertName none cacheTtl).Returns (World.handle services)
      before' (dkey, dkeyCert) after') :
    ((dkeyCertName = defaultCert ∨
        CertifiesKeyOf (dkeyIdentityName zoneName parentZoneName) dkeyCertName) →
      CertifiesKeyOf (dkeyIdentityName zoneName parentZoneName) dkeyCert.name) ∧
    (getIdentityNameFromCert dkeyCert.name = pure (dkeyIdentityName zoneName parentZoneName) →
      dkeyCertName = defaultCert ∨
        CertifiesKeyOf (dkeyIdentityName zoneName parentZoneName) dkeyCertName) := by
  have hcertifies := certifies_of_obtainCertificate hnames hdkey
  by_cases hdefault : dkeyCertName = defaultCert
  · rw [ManagementTool.dkeyIdentity, if_pos hdefault] at hidentity
    obtain ⟨rfl, -⟩ := Program.returns_pure.mp hidentity
    exact ⟨fun _ ↦ hcertifies, fun _ ↦ Or.inl hdefault⟩
  · rcases returns_obtainCertificate hdkey with ⟨hsame, -⟩ | ⟨-, hname, -⟩
    · exact absurd hsame hdefault
    · rw [hname] at hcertifies ⊢
      refine ⟨fun hgiven ↦ hgiven.resolve_left hdefault, fun hsplit ↦ Or.inr ?_⟩
      rw [ManagementTool.dkeyIdentity, if_neg hdefault, hsplit] at hidentity
      obtain ⟨rfl, -⟩ := Program.returns_pure.mp hidentity
      exact hcertifies

theorem MarkerFree.drop (h : MarkerFree zoneName) (count : ℕ) :
    keyComponent ∉ zoneName.drop count :=
  fun hmem ↦ h.2 (List.mem_of_mem_drop hmem)

/-- The certificates that a creation has stored are split as they were made exactly when the
markers can be told apart from the names of the zones. -/
theorem createZone_namesSplit_iff [PacketFormat] (hnames : NamesKeys services)
    (hvalid : world.db.Valid)
    (h : (createZone zoneName parentZoneName cacheTtl kskCertName dskCertName dkeyCertName).Returns
      (World.handle services) world zone world') :
    ∃ kskCert dskCert dkeyCert, HasInfo world'.db zone.id "ksk" kskCert ∧
      HasInfo world'.db zone.id "dsk" dskCert ∧ HasInfo world'.db zone.id "dkey" dkeyCert ∧
      (NamesSplit zoneName parentZoneName kskCert dskCert dkeyCert ↔
        MarkersApart zoneName parentZoneName dkeyCertName) := by
  obtain ⟨prepared, dkeyCert, kskCert, dskCert, hprepares, hrows⟩ := returns_createZone_rows h
  have hname : (DbMgr.lookupZone world.db (Zone.make zoneName cacheTtl)).name = zoneName :=
    DbMgr.lookupZone_name _ _
  have hestablished : Established zoneName cacheTtl dkeyCert kskCert dskCert world.db zone
      world'.db := by
    have hends := @establishes_addZoneRows _ services world.db
      (DbMgr.lookupZone world.db (Zone.make zoneName cacheTtl)) _ cacheTtl dkeyCert kskCert dskCert
      hvalid fun habsent ↦ lookupZone_ttl (hname ▸ habsent)
    rw [hname] at hends
    have hprepared : prepared = ⟨world.db, prepared.keys⟩ := by rw [← hprepares.db_eq]
    have hrun := hends.run prepared.keys
    have hreturns : (addZoneRows (DbMgr.lookupZone world.db (Zone.make zoneName cacheTtl)) dkeyCert
        kskCert dskCert cacheTtl).run (World.handle services) ⟨world.db, prepared.keys⟩ =
          (.ok zone, world') := hprepared ▸ hrows
    rwa [hreturns] at hrun
  refine ⟨kskCert, dskCert, dkeyCert, hestablished.info.1, hestablished.info.2.1,
    hestablished.info.2.2, ?_⟩
  obtain ⟨identity, dkey, ⟨_, _, hidentity⟩, _, _, hdkey⟩ := hprepares.dkey
  obtain ⟨hfrom, hto⟩ := certifies_dkey hnames hidentity hdkey
  have hksk : CertifiesKeyOf (zoneIdentity zoneName) kskCert.name := by
    obtain ⟨_, _, _, _, hksk⟩ := hprepares.ksk
    exact certifies_of_obtainCertificate hnames hksk
  have hdsk : CertifiesKeyOf (zoneIdentity zoneName) dskCert.name := by
    obtain ⟨_, _, _, _, hdsk⟩ := hprepares.dsk
    exact certifies_of_obtainCertificate hnames hdsk
  constructor
  · intro hsplit
    have hgiven := hto hsplit.dkeyIdentity
    refine ⟨?_, ?_, hgiven⟩
    · exact hksk.split_iff.mp
        ⟨hsplit.domain _ List.mem_cons_self, hsplit.identity _ List.mem_cons_self⟩
    · exact ((hfrom hgiven).dkey_split_iff.mp ⟨hsplit.parentDomain, hsplit.dkeyIdentity⟩).1
  · intro happart
    obtain ⟨hparent, hdkeyIdentity⟩ := (hfrom happart.dkey).dkey_split_iff.mpr
      ⟨happart.parent, happart.zone.drop _⟩
    have hboth : ∀ cert ∈ [kskCert, dskCert], CertifiesKeyOf (zoneIdentity zoneName) cert.name := by
      simp [hksk, hdsk]
    exact ⟨fun cert hcert ↦ ((hboth cert hcert).split_iff.mpr happart.zone).1, hparent,
      fun cert hcert ↦ ((hboth cert hcert).split_iff.mpr happart.zone).2, hdkeyIdentity⟩

section Examples

open LocalServices

attribute [local instance] ndnPacketFormat

theorem namesKeys_localServices : NamesKeys localServices := by
  constructor
  · rintro identity keys key hkey
    exact ⟨Component.fromVersion keys, (Option.some.inj hkey).symm⟩
  · rintro identity keys certificates cert hcertificates hcert
    cases hcertificates
    rw [List.mem_singleton.mp hcert]
    exact ⟨Component.fromVersion 0, Label.certRrType, Component.fromVersion 0,
      by simp [certificate, certificateName, LocalServices.keyName]⟩

/-- The creation of a zone with new keys below the root zone. -/
def creationBelowRoot (zoneName : Name) : Except Fault Zone × World ℕ :=
  (createZone zoneName [] 3600 [] [] []).run (World.handle localServices) ⟨Database.empty, 0⟩

theorem createZone_namesSplit_net : ∃ kskCert dskCert dkeyCert,
    HasInfo (creationBelowRoot [letter 110]).2.db 1 "ksk" kskCert ∧
      HasInfo (creationBelowRoot [letter 110]).2.db 1 "dsk" dskCert ∧
      HasInfo (creationBelowRoot [letter 110]).2.db 1 "dkey" dkeyCert ∧
      (NamesSplit [letter 110] [] kskCert dskCert dkeyCert ↔ MarkersApart [letter 110] [] []) := by
  have hreturns : (createZone [letter 110] [] 3600 [] [] []).Returns (World.handle localServices)
      ⟨Database.empty, 0⟩ ⟨1, [letter 110], 3600⟩ (creationBelowRoot [letter 110]).2 :=
    Prod.ext (by decide +kernel) rfl
  obtain ⟨kskCert, dskCert, dkeyCert, hksk, hdsk, hdkey, hsplit⟩ :=
    createZone_namesSplit_iff namesKeys_localServices Database.valid_empty hreturns
  exact ⟨kskCert, dskCert, dkeyCert, hksk, hdsk, hdkey, hsplit⟩

/-- The domains that the stored certificates are taken to be of, by the key of the information. -/
def storedDomains (db : Database) : List (String × Option (Except Fault Name)) :=
  db.zoneInfo.map fun row ↦ (row.key,
    (PacketFormat.decode row.value).map fun cert ↦ calculateDomain (certificateKeyName cert.name))

/-- The identities that the stored certificates are taken to be of. -/
def storedIdentities (db : Database) : List (String × Option (Except Fault Name)) :=
  db.zoneInfo.map fun row ↦ (row.key, (PacketFormat.decode row.value).map fun cert ↦
    ((getIdentityNameFromCert cert.name).run (World.handle localServices) ⟨db, 0⟩).1)

/-- Zones named by a marker are accepted.  The keys of the zone /NDNS are taken for keys of the root
zone, and the certificates of the zone /KEY for those of an identity without a name. -/
theorem createZone_accepts_markers :
    (creationBelowRoot [Label.ndnsIterativeQuery]).1 =
        .ok ⟨1, [Label.ndnsIterativeQuery], 3600⟩ ∧
      storedDomains (creationBelowRoot [Label.ndnsIterativeQuery]).2.db =
        [("ksk", some (.ok [])), ("dsk", some (.ok [])), ("dkey", some (.ok []))] ∧
      (creationBelowRoot [keyComponent]).1 = .ok ⟨1, [keyComponent], 3600⟩ ∧
      storedIdentities (creationBelowRoot [keyComponent]).2.db =
        [("ksk", some (.ok [])), ("dsk", some (.ok [])),
          ("dkey", some (.ok [Label.ndnsIterativeQuery]))] :=
  ⟨by decide +kernel, by decide +kernel, by decide +kernel, by decide +kernel⟩

end Examples

end Ndns.Mgmt
