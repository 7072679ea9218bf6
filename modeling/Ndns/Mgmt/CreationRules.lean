import Ndns.Mgmt.AdditionRules
import Ndns.Mgmt.CreateZone

/-!
# What the Creation of a Zone Does

The key chain part of `createZone` only reads the database.  What follows adds the zone and two
certificates under different labels, stores the certificates beside the zone, and generates the
denial records.
-/

namespace Ndns.Mgmt.ManagementTool

open Ndn Calls Daemon

/-! ## Key chain operations -/

theorem reads_ensure (success : Bool) : (ensure success).CallsOnly Call.Reads := callsOnly_require

theorem reads_matchCertificate (certName identity : Name) :
    (matchCertificate certName identity).CallsOnly Call.Reads :=
  reads_service.bind fun _ ↦ callsOnly_orThrow.bind fun _ ↦ trivial

theorem reads_generateCertificate (identity : Name) (signingKey : Option Name) (cacheTtl : ℤ) :
    (generateCertificate identity signingKey cacheTtl).CallsOnly Call.Reads := by
  have hcreate : ∀ key issuer, (CertHelper.createCertificate key issuer Label.certRrType).CallsOnly
      Call.Reads := fun _ _ ↦ reads_service.bind fun _ ↦ reads_service.bind fun _ ↦
    callsOnly_orThrow.bind fun _ ↦ reads_service.bind fun _ ↦ callsOnly_orThrow.bind fun _ ↦ trivial
  have hfreshness : ∀ certificate, (setFreshness certificate cacheTtl).CallsOnly Call.Reads :=
    fun _ ↦ callsOnly_require.bind fun _ ↦ trivial
  exact reads_service.bind fun _ ↦ callsOnly_orThrow.bind fun _ ↦ reads_service.bind fun _ ↦
    callsOnly_orThrow.bind fun _ ↦ reads_service.bind fun _ ↦ (reads_ensure _).bind fun _ ↦
    (hcreate _ _).bind fun _ ↦ (hfreshness _).bind fun _ ↦ reads_service.bind fun _ ↦
    (reads_ensure _).bind fun _ ↦ trivial

theorem reads_obtainCertificate (identity certName : Name) (signingKey : Option Name)
    (cacheTtl : ℤ) :
    (obtainCertificate identity certName signingKey cacheTtl).CallsOnly Call.Reads := by
  unfold obtainCertificate
  split_ifs
  · exact reads_generateCertificate _ _ _
  · exact ((CertHelper.asks_getCertificate _ _).mono Call.Asks.reads).bind fun _ ↦
      reads_service.bind fun _ ↦ (reads_ensure _).bind fun _ ↦ trivial

theorem reads_setDefaultDsk (identity dsk dskCertName : Name) :
    (setDefaultDsk identity dsk dskCertName).CallsOnly Call.Reads := by
  refine reads_service.bind fun _ ↦ (reads_ensure _).bind fun _ ↦ ?_
  split_ifs
  · trivial
  · exact reads_service.bind fun _ ↦ reads_ensure _

theorem reads_checkCertificates (zoneIdentityName kskCertName dskCertName : Name) :
    (checkCertificates zoneIdentityName kskCertName dskCertName).CallsOnly Call.Reads := by
  unfold checkCertificates
  split_ifs
  · exact (reads_matchCertificate _ _).bind fun _ ↦ callsOnly_require
  · exact (reads_matchCertificate _ _).bind fun _ ↦ callsOnly_require
  · trivial

theorem reads_dkeyIdentity (zoneName parentZoneName dkeyCertName : Name) :
    (dkeyIdentity zoneName parentZoneName dkeyCertName).CallsOnly Call.Reads := by
  unfold dkeyIdentity
  split_ifs
  · trivial
  · unfold CertHelper.getIdentityNameFromCert
    split_ifs <;> trivial

/-! ## Rows -/

variable {Keys : Type} {services : Services Keys} {world world' : World Keys} {zone zone' : Zone}

/-- The zone is new, and gets the next id. -/
theorem returns_addZone
    (h : (addZone zone).Returns (World.handle services) world zone' world') :
    zone'.name = zone.name ∧ zone'.id = nextRowId (world.db.zones.map ZoneRow.id) ∧
      (∀ row ∈ world.db.zones, row.name ≠ zone.name) ∧ ∃ ttl,
      world' = { world with db := world.db.insertZone zone.name ttl } := by
  obtain ⟨found, _, hfind, h⟩ := Program.returns_bind.mp h
  obtain ⟨rfl, rfl⟩ := (Program.returns_iff_of_run (DbMgr.run_findZone zone world)).mp hfind
  obtain ⟨_, _, hnew, h⟩ := Program.returns_bind.mp h
  obtain ⟨hid, rfl⟩ := returns_require.mp hnew
  rcases DbMgr.returns_insertZone h with ⟨hne, -, -⟩ | ⟨-, hnames, rfl, rfl⟩
  · exact absurd hid hne
  · rw [DbMgr.lookupZone_name] at hnames
    exact ⟨DbMgr.lookupZone_name _ _, rfl, hnames, _, by rw [DbMgr.lookupZone_name]⟩

/-- A certificate is a new one of a new key, or the one that was named. -/
theorem returns_obtainCertificate {identity certName key : Name} {signingKey : Option Name}
    {cacheTtl : ℤ} {cert : Data}
    (h : (obtainCertificate identity certName signingKey cacheTtl).Returns (World.handle services)
      world (key, cert) world') :
    (certName = defaultCert ∧ (∃ keys, (services.answer (.createKey identity) keys).1 = some key) ∧
      cert.contentType = NdnsContentType.key.toCode ∧
      ∃ timestamp, cert.name = key ++ [Label.certRrType, Component.fromVersion timestamp]) ∨
    (certName ≠ defaultCert ∧ cert.name = certName ∧ key = certificateKeyName certName ∧
      ∃ keys certificates, (services.answer (.certificates identity) keys).1 = some certificates ∧
        cert ∈ certificates) := by
  unfold obtainCertificate at h
  split_ifs at h with hdefault
  · simp only [generateCertificate, CertHelper.createCertificate, setFreshness,
      Program.returns_bind, returns_orThrow, Program.returns_pure, Prod.mk.injEq] at h
    obtain ⟨answer, _, hcreate, created, _, ⟨hanswer, -⟩, h⟩ := h
    obtain ⟨_, _, -, _, _, -, _, _, -, _, _, -, signed, _, hsigned, fresh, _, hfresh, h⟩ := h
    obtain ⟨_, _, -, _, _, -, ⟨rfl, rfl⟩, -⟩ := h
    obtain ⟨timestamp, _, -, _, _, -, _, _, -, _, _, -, _, _, -, rfl, -⟩ := hsigned
    obtain ⟨_, _, -, rfl, -⟩ := hfresh
    have hkey := congrArg Prod.fst (returns_service.mp hcreate).1
    exact Or.inl ⟨hdefault, ⟨_, hkey.trans hanswer⟩, rfl, timestamp, rfl⟩
  · obtain ⟨found, _, hfound, h⟩ := Program.returns_bind.mp h
    obtain ⟨_, _, -, h⟩ := Program.returns_bind.mp h
    obtain ⟨_, _, -, h⟩ := Program.returns_bind.mp h
    obtain ⟨hpair, -⟩ := Program.returns_pure.mp h
    cases hpair
    obtain ⟨answer, _, hanswer, hfound⟩ := Program.returns_bind.mp hfound
    obtain ⟨certificates, _, hcertificates, hfound⟩ := Program.returns_bind.mp hfound
    obtain ⟨hcertificates, -⟩ := returns_orThrow.mp hcertificates
    obtain ⟨hfound, -⟩ := returns_orThrow.mp hfound
    have hname := List.find?_some hfound
    simp only [decide_eq_true_eq] at hname
    have hlisted := congrArg Prod.fst (returns_service.mp hanswer).1
    exact Or.inr ⟨hdefault, hname, congrArg certificateKeyName hname, _, certificates,
      hlisted.trans hcertificates, List.mem_of_find?_eq_some hfound⟩

variable [PacketFormat]

/-- A certificate row is added under a label that has none. -/
theorem returns_addIdCert {cert : Data} {ttl : ℤ} (hvalid : world.db.Valid) (hid : zone.id ≠ 0)
    (h : (addIdCert zone cert ttl).Returns (World.handle services) world () world') :
    ∃ label version data, DbMgr.keyRow world.db zone.id label Label.certRrType = none ∧
      world' = { world with db := (world.db.insertRrset zone.id label Label.certRrType version ttl
        data) } := by
  obtain ⟨version, _, hversion, h⟩ := Program.returns_bind.mp h
  obtain ⟨-, rfl⟩ := returns_orThrow.mp hversion
  obtain ⟨data, _, hdata, h⟩ := Program.returns_bind.mp h
  obtain ⟨-, rfl⟩ := returns_orThrow.mp hdata
  obtain ⟨⟨found, rrsetKey⟩, _, hfind, h⟩ := Program.returns_bind.mp h
  obtain ⟨hpick, rfl⟩ := (DbMgr.returns_findRrset rfl).mp hfind
  obtain ⟨_, _, hnew, h⟩ := Program.returns_bind.mp h
  obtain ⟨hfound, rfl⟩ := returns_require.mp hnew
  obtain ⟨inserted, insertedWorld, hinsert, h⟩ := Program.returns_bind.mp h
  obtain ⟨-, rfl⟩ := Program.returns_pure.mp h
  have hresolve : DbMgr.resolveZone world.db zone = zone := if_neg hid
  rw [hresolve] at hpick
  rcases DbMgr.pick_cases _ zone _ with ⟨htrue, -⟩ | ⟨-, hnone⟩
  · rw [hpick, hfound] at htrue
    cases htrue
  · have hrow : DbMgr.keyRow world.db zone.id (idCertLabel zone.name cert.name)
        Label.certRrType = none := by
      cases hrow : DbMgr.keyRow world.db zone.id (idCertLabel zone.name cert.name)
          Label.certRrType with
      | none => rfl
      | some row =>
          exact absurd (hnone hid row hrow)
            (hvalid.ids_pos row (DbMgr.keyRow_eq_some hrow).1).ne'
    simp only [hrow, DbMgr.pick, if_neg hid, Prod.mk.injEq] at hpick
    obtain ⟨-, rfl⟩ := hpick
    rcases DbMgr.returns_insertRrset rfl hinsert with ⟨hne, -⟩ | ⟨stored, _, -, hstored, -, -, rfl⟩
    · exact absurd rfl hne
    · rcases DbMgr.returns_insertZone hstored with ⟨-, rfl, rfl⟩ | ⟨hzero, -⟩
      · exact ⟨_, version, data, hrow, rfl⟩
      · exact absurd hzero hid

/-- Storing a certificate beside the zone leaves the zones and the records alone. -/
theorem returns_saveCertificate {key : String} {cert : Data} (hkey : key.utf8ByteSize ≤ 10)
    (hid : zone.id ≠ 0)
    (h : (saveCertificate zone key cert).Returns (World.handle services) world () world') :
    world'.db.zones = world.db.zones ∧ world'.db.rrsets = world.db.rrsets := by
  obtain ⟨wire, _, hwire, h⟩ := Program.returns_bind.mp h
  obtain ⟨-, rfl⟩ := returns_orThrow.mp hwire
  obtain ⟨-, rfl⟩ := (Program.returns_iff_of_run (DbMgr.run_setZoneInfo hid hkey wire world)).mp h
  exact ⟨rfl, rfl⟩

/-- The tables of a new zone before its first regeneration. -/
structure Creates (zoneName : Name) (zoneId : ℕ) (db db' : Database) : Prop where
  zoneId_eq : zoneId = nextRowId (db.zones.map ZoneRow.id)
  new : ∀ row ∈ db.zones, row.name ≠ zoneName
  zones : ∃ ttl, db'.zones = db.zones ++ [⟨zoneId, zoneName, ttl⟩]
  rows : ∃ first second, db'.rrsets = db.rrsets ++ [first, second] ∧
    first.zoneId = zoneId ∧ second.zoneId = zoneId ∧
    first.type = Label.certRrType ∧ second.type = Label.certRrType ∧ first.label ≠ second.label ∧
    (∀ row ∈ db.rrsets, row.zoneId = zoneId → row.type = Label.certRrType →
      row.label ≠ first.label ∧ row.label ≠ second.label)

theorem returns_addZoneRows {dkeyCert kskCert dskCert : Data} {cacheTtl : ℤ}
    (hvalid : world.db.Valid)
    (h : (addZoneRows zone dkeyCert kskCert dskCert cacheTtl).Returns (World.handle services) world
      zone' world') :
    ∃ added middle, added.name = zone.name ∧ Creates zone.name added.id world.db middle.db ∧
      middle.db.Valid ∧
      (generateDoe added).Returns (World.handle services) middle zone' world' := by
  obtain ⟨added, _, hadd, h⟩ := Program.returns_bind.mp h
  obtain ⟨hname, haddedId, hnew, ttl, rfl⟩ := returns_addZone hadd
  have hid : added.id ≠ 0 := haddedId ▸ (nextRowId_pos _).ne'
  have hvalid₁ : (world.db.insertZone zone.name ttl).Valid := hvalid.insertZone ttl hnew
  obtain ⟨_, _, hfirst, h⟩ := Program.returns_bind.mp h
  have hvalid₂ := valid_of_returns hvalid₁ hfirst
  obtain ⟨label, version, data, hnone, rfl⟩ := returns_addIdCert hvalid₁ hid hfirst
  obtain ⟨_, _, hsecond, h⟩ := Program.returns_bind.mp h
  have hvalid₃ := valid_of_returns hvalid₂ hsecond
  obtain ⟨label', version', data', hnone', rfl⟩ := returns_addIdCert hvalid₂ hid hsecond
  obtain ⟨_, afterKsk, hksk, h⟩ := Program.returns_bind.mp h
  obtain ⟨_, afterDsk, hdsk, h⟩ := Program.returns_bind.mp h
  obtain ⟨_, afterDkey, hdkey, h⟩ := Program.returns_bind.mp h
  obtain ⟨hzones₁, hrows₁⟩ := returns_saveCertificate (by decide) hid hksk
  obtain ⟨hzones₂, hrows₂⟩ := returns_saveCertificate (by decide) hid hdsk
  obtain ⟨hzones₃, hrows₃⟩ := returns_saveCertificate (by decide) hid hdkey
  have hvalid₄ := valid_of_returns (valid_of_returns (valid_of_returns hvalid₃ hksk) hdsk) hdkey
  have habsent := DbMgr.keyRow_eq_none.mp hnone
  have habsent' := DbMgr.keyRow_eq_none.mp hnone'
  refine ⟨added, afterDkey, hname, ⟨haddedId, hnew, ⟨ttl, ?_⟩, ?_⟩, hvalid₄, h⟩
  · rw [hzones₃, hzones₂, hzones₁, haddedId]
    rfl
  · rw [hrows₃, hrows₂, hrows₁]
    refine ⟨_, _, List.append_assoc _ _ _, rfl, rfl, rfl, rfl, fun hlabel ↦ ?_, ?_⟩
    · exact habsent' _ (List.mem_append_right _ List.mem_cons_self) ⟨rfl, hlabel, rfl⟩
    · intro row hrow hzone htype
      exact ⟨fun hlabel ↦ habsent row hrow ⟨hzone, hlabel, htype⟩,
        fun hlabel ↦ habsent' row (List.mem_append_left _ hrow) ⟨hzone, hlabel, htype⟩⟩

/-- The preconditions and the key chain operations of a creation that has come to its rows, none of
which has changed the tables. -/
structure Prepares (services : Services Keys) (world prepared : World Keys)
    (zoneName parentZoneName : Name) (cacheTtl : ℤ) (kskCertName dskCertName dkeyCertName : Name)
    (dkeyCert kskCert dskCert : Data) : Prop where
  parent : zoneName = rootZone ∨ parentZoneName <+: zoneName
  root : ¬ (dkeyCertName = defaultCert ∧ zoneName = rootZone)
  dkey : ∃ identity dkey, (∃ before after, (dkeyIdentity zoneName parentZoneName dkeyCertName).Returns
      (World.handle services) before identity after) ∧
    ∃ before after, (obtainCertificate identity dkeyCertName none cacheTtl).Returns
      (World.handle services) before (dkey, dkeyCert) after
  ksk : ∃ ksk signingKey before after, (obtainCertificate (zoneIdentity zoneName) kskCertName signingKey
    cacheTtl).Returns (World.handle services) before (ksk, kskCert) after
  dsk : ∃ dsk signingKey before after, (obtainCertificate (zoneIdentity zoneName) dskCertName signingKey
    cacheTtl).Returns (World.handle services) before (dsk, dskCert) after
  db_eq : prepared.db = world.db

/-- The creation of a zone that returns has only read the database before it adds the rows. -/
theorem returns_createZone_rows
    {zoneName parentZoneName kskCertName dskCertName dkeyCertName : Name} {cacheTtl : ℤ}
    (h : (createZone zoneName parentZoneName cacheTtl kskCertName dskCertName dkeyCertName).Returns
      (World.handle services) world zone' world') :
    ∃ prepared dkeyCert kskCert dskCert, Prepares services world prepared zoneName parentZoneName
        cacheTtl kskCertName dskCertName dkeyCertName dkeyCert kskCert dskCert ∧
      (addZoneRows (DbMgr.lookupZone world.db (Zone.make zoneName cacheTtl)) dkeyCert kskCert dskCert
        cacheTtl).Returns (World.handle services) prepared zone' world' := by
  obtain ⟨found, _, hfind, h⟩ := Program.returns_bind.mp h
  obtain ⟨rfl, rfl⟩ := (Program.returns_iff_of_run (DbMgr.run_findZone _ world)).mp hfind
  obtain ⟨_, _, hrequire, h⟩ := Program.returns_bind.mp h
  obtain ⟨-, rfl⟩ := returns_require.mp hrequire
  obtain ⟨_, _, hrequire, h⟩ := Program.returns_bind.mp h
  obtain ⟨-, rfl⟩ := returns_require.mp hrequire
  obtain ⟨_, _, hrequire, h⟩ := Program.returns_bind.mp h
  obtain ⟨hparent, rfl⟩ := returns_require.mp hrequire
  obtain ⟨_, checked, hcheck, h⟩ := Program.returns_bind.mp h
  obtain ⟨_, _, hrequire, h⟩ := Program.returns_bind.mp h
  obtain ⟨hroot, rfl⟩ := returns_require.mp hrequire
  obtain ⟨dkeyIdentityName, identified, hidentity, h⟩ := Program.returns_bind.mp h
  obtain ⟨_, created₁, hservice₁, h⟩ := Program.returns_bind.mp h
  obtain ⟨_, created₂, hensure₁, h⟩ := Program.returns_bind.mp h
  obtain ⟨_, created₃, hservice₂, h⟩ := Program.returns_bind.mp h
  obtain ⟨_, created₄, hensure₂, h⟩ := Program.returns_bind.mp h
  obtain ⟨⟨dkey, dkeyCert⟩, obtained₁, hdkey, h⟩ := Program.returns_bind.mp h
  obtain ⟨⟨ksk, kskCert⟩, obtained₂, hksk, h⟩ := Program.returns_bind.mp h
  obtain ⟨⟨dsk, dskCert⟩, obtained₃, hdsk, h⟩ := Program.returns_bind.mp h
  obtain ⟨_, defaulted, hdefault, h⟩ := Program.returns_bind.mp h
  have hdb : defaulted.db = world.db := by
    rw [db_of_returns (reads_setDefaultDsk _ _ _) hdefault,
      db_of_returns (reads_obtainCertificate _ _ _ _) hdsk,
      db_of_returns (reads_obtainCertificate _ _ _ _) hksk,
      db_of_returns (reads_obtainCertificate _ _ _ _) hdkey,
      db_of_returns (reads_ensure _) hensure₂, db_of_returns reads_service hservice₂,
      db_of_returns (reads_ensure _) hensure₁, db_of_returns reads_service hservice₁,
      db_of_returns (reads_dkeyIdentity _ _ _) hidentity,
      db_of_returns (reads_checkCertificates _ _ _) hcheck]
  exact ⟨defaulted, dkeyCert, kskCert, dskCert, ⟨hparent, hroot,
    ⟨_, _, ⟨_, _, hidentity⟩, _, _, hdkey⟩, ⟨_, _, _, _, hksk⟩, ⟨_, _, _, _, hdsk⟩, hdb⟩, h⟩

theorem returns_createZone {zoneName parentZoneName kskCertName dskCertName dkeyCertName : Name}
    {cacheTtl : ℤ} (hvalid : world.db.Valid)
    (h : (createZone zoneName parentZoneName cacheTtl kskCertName dskCertName dkeyCertName).Returns
      (World.handle services) world zone' world') :
    ∃ added middle, added.name = zoneName ∧ Creates zoneName added.id world.db middle.db ∧
      middle.db.Valid ∧
      (generateDoe added).Returns (World.handle services) middle zone' world' := by
  obtain ⟨prepared, _, _, _, hprepares, hrows⟩ := returns_createZone_rows h
  obtain ⟨added, middle, hname, hcreates, hvalid', hgenerate⟩ :=
    returns_addZoneRows (hprepares.db_eq ▸ hvalid) hrows
  rw [DbMgr.lookupZone_name] at hname hcreates
  exact ⟨added, middle, hname, hprepares.db_eq ▸ hcreates, hvalid', hgenerate⟩

end Ndns.Mgmt.ManagementTool
