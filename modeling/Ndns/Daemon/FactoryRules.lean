import Ndns.Daemon.HealthyDatabase
import Ndns.Daemon.RrsetFactory

/-!
# What the Factory Makes

Key chain operations, checks and the generation of records only read the database.  A generated
record carries a packet that is named after the record and its version, and that holds the content
the record was generated for.
-/

namespace Ndns.Daemon

open Ndn Calls

/-! ## Programs that only read -/

/-- A request to a service. -/
def Call.Asks : Call → Prop
  | .service _ => True
  | .sql _ => False

theorem Call.Asks.reads {call : Call} (h : call.Asks) : call.Reads := by
  cases call with
  | service request => trivial
  | sql statement => exact h.elim

theorem asks_service {request : Service} : (service request).CallsOnly Call.Asks :=
  ⟨trivial, fun _ ↦ trivial⟩

theorem reads_service {request : Service} : (service request).CallsOnly Call.Reads :=
  asks_service.mono Call.Asks.reads

section

variable {allowed : Call → Prop}

theorem callsOnly_require {condition : Prop} [Decidable condition] {fault : Fault} :
    (require condition fault).CallsOnly allowed := by
  unfold require
  split_ifs <;> trivial

theorem callsOnly_orThrow {Value : Type} {option : Option Value} {fault : Fault} :
    (orThrow option fault).CallsOnly allowed := by
  unfold orThrow
  split <;> trivial

theorem callsOnly_attempt {Value : Type} {program : Prog Value}
    (h : program.CallsOnly allowed) : (attempt program).CallsOnly allowed :=
  (h.bind fun _ ↦ Program.callsOnly_pure _).tryCatch fun _ ↦ Program.callsOnly_pure _

theorem callsOnly_raise {Object : Type} (outcome : Except Fault Unit × Object) :
    (raise outcome).CallsOnly allowed := by
  unfold raise
  split <;> trivial

end

theorem reads_sql {statement : Sql} (h : Call.Reads (.sql statement)) :
    (sql statement).CallsOnly Call.Reads := ⟨h, fun _ ↦ trivial⟩

theorem reads_findZone (zone : Zone) : (DbMgr.findZone zone).CallsOnly Call.Reads := by
  refine Program.CallsOnly.bind (reads_sql trivial) fun selected ↦ ?_
  cases selected with
  | prepareError => trivial
  | stepped rows finished =>
      dsimp only
      cases rows.head? <;> trivial

namespace CertHelper

theorem asks_getCertificate (identity certName : Name) :
    (getCertificate identity certName).CallsOnly Call.Asks :=
  asks_service.bind fun _ ↦ callsOnly_orThrow.bind fun _ ↦ callsOnly_orThrow

theorem asks_getDefaultKeyNameOfIdentity (identity : Name) :
    (getDefaultKeyNameOfIdentity identity).CallsOnly Call.Asks :=
  asks_service.bind fun _ ↦ callsOnly_orThrow

theorem asks_getDefaultCertificateNameOfIdentity (identity : Name) :
    (getDefaultCertificateNameOfIdentity identity).CallsOnly Call.Asks :=
  asks_service.bind fun _ ↦ callsOnly_orThrow

theorem reads_getDefaultKeyNameOfIdentity (identity : Name) :
    (getDefaultKeyNameOfIdentity identity).CallsOnly Call.Reads :=
  (asks_getDefaultKeyNameOfIdentity identity).mono Call.Asks.reads

theorem reads_getDefaultCertificateNameOfIdentity (identity : Name) :
    (getDefaultCertificateNameOfIdentity identity).CallsOnly Call.Reads :=
  (asks_getDefaultCertificateNameOfIdentity identity).mono Call.Asks.reads

end CertHelper

namespace RrsetFactory

theorem asks_make (zoneName inputDskCertName : Name) :
    (make zoneName inputDskCertName).CallsOnly Call.Asks := by
  unfold make
  split_ifs
  · exact (CertHelper.asks_getDefaultKeyNameOfIdentity _).bind fun _ ↦
      (CertHelper.asks_getDefaultCertificateNameOfIdentity _).bind fun _ ↦ trivial
  · trivial

theorem reads_make (zoneName inputDskCertName : Name) :
    (make zoneName inputDskCertName).CallsOnly Call.Reads :=
  (asks_make zoneName inputDskCertName).mono Call.Asks.reads

theorem asks_matchCertificate (certName identity : Name) :
    (matchCertificate certName identity).CallsOnly Call.Asks := by
  refine (callsOnly_attempt (CertHelper.asks_getCertificate identity certName)).bind
    fun outcome ↦ ?_
  split <;> trivial

theorem reads_matchCertificate (certName identity : Name) :
    (matchCertificate certName identity).CallsOnly Call.Reads :=
  (asks_matchCertificate certName identity).mono Call.Asks.reads

theorem reads_checkZoneKey (factory : RrsetFactory) :
    factory.checkZoneKey.CallsOnly Call.Reads := by
  have honly : factory.onlyCheckZone.CallsOnly Call.Reads := by
    unfold onlyCheckZone
    split_ifs
    · trivial
    · refine (callsOnly_attempt (reads_findZone _)).bind fun outcome ↦ ?_
      rcases outcome with _ | zone
      · trivial
      · change Program.CallsOnly Call.Reads (if zone.id = 0 then pure _ else pure _)
        split_ifs <;> trivial
  refine honly.bind fun checked ↦ ?_
  obtain ⟨_ | _, factory⟩ := checked
  · trivial
  · change Program.CallsOnly Call.Reads (if factory.dskCertName = defaultCert then _ else _)
    split_ifs
    · trivial
    · refine (callsOnly_attempt (reads_matchCertificate _ _)).bind fun outcome ↦ ?_
      rcases outcome with _ | _ | _ <;> trivial

/-! ## The factory object -/

variable {Keys : Type} {services : Services Keys} {world world' : World Keys}

theorem returns_raise {Object : Type} {outcome : Except Fault Unit × Object} {object : Object} :
    (raise outcome).Returns (World.handle services) world object world' ↔
      (∃ value, outcome.1 = .ok value) ∧ outcome.2 = object ∧ world = world' := by
  unfold raise
  rcases outcome with ⟨_ | _, _⟩ <;> simp

theorem returns_make {zoneName inputDskCertName : Name} {factory : RrsetFactory}
    (h : (make zoneName inputDskCertName).Returns (World.handle services) world factory world') :
    factory.zone = Zone.named zoneName ∧ factory.checked = false := by
  unfold make at h
  split_ifs at h
  · simp only [Program.returns_bind, Program.returns_pure] at h
    obtain ⟨_, _, -, _, _, -, rfl, -⟩ := h
    exact ⟨rfl, rfl⟩
  · rw [Program.returns_pure] at h
    obtain ⟨rfl, -⟩ := h
    exact ⟨rfl, rfl⟩

theorem run_onlyCheckZone {factory : RrsetFactory} (hnew : factory.checked = false)
    (world : World Keys) :
    factory.onlyCheckZone.run (World.handle services) world =
      (.ok (if (DbMgr.lookupZone world.db factory.zone).id = 0 then
          .error (.rrsetFactoryError "is not presented in the NDNS db") else .ok (),
        ⟨DbMgr.lookupZone world.db factory.zone, factory.dskCertName, true⟩), world) := by
  unfold onlyCheckZone
  rw [if_neg (by simp [hnew]), Program.run_bind, run_attempt, DbMgr.run_findZone]
  simp only
  split_ifs <;> rfl

/-- A factory that has passed its check works for the zone in the database. -/
theorem returns_checkZoneKey {factory checked : RrsetFactory} (hnew : factory.checked = false)
    (h : (factory.checkZoneKey >>= raise).Returns (World.handle services) world checked world') :
    checked.checked = true ∧ checked.zone = DbMgr.lookupZone world.db factory.zone ∧
      checked.zone.id ≠ 0 ∧ world'.db = world.db := by
  have hdb := db_of_returns ((reads_checkZoneKey factory).bind fun _ ↦ callsOnly_raise _) h
  obtain ⟨outcome, middle, hcheck, hraise⟩ := Program.returns_bind.mp h
  obtain ⟨⟨_, hok⟩, rfl, rfl⟩ := returns_raise.mp hraise
  have hfactory : outcome.2 =
      ⟨DbMgr.lookupZone world.db factory.zone, factory.dskCertName, true⟩ ∧
        ((DbMgr.lookupZone world.db factory.zone).id = 0 → ∃ fault, outcome.1 = .error fault) := by
    unfold checkZoneKey at hcheck
    rw [Program.Returns, Program.run_bind, run_onlyCheckZone hnew] at hcheck
    by_cases hmissing : (DbMgr.lookupZone world.db factory.zone).id = 0
    · simp only [hmissing, if_true, Program.run_pure, Prod.mk.injEq, Except.ok.injEq] at hcheck
      rw [← hcheck.1]
      exact ⟨rfl, fun _ ↦ ⟨_, rfl⟩⟩
    · refine ⟨?_, fun hzero ↦ absurd hzero hmissing⟩
      simp only [hmissing, if_false] at hcheck
      split_ifs at hcheck
      · cases hcheck
        rfl
      · obtain ⟨matched, _, -, hrest⟩ := Program.returns_bind.mp hcheck
        rcases matched with _ | _ | _ <;> exact (Program.returns_pure.mp hrest).1 ▸ rfl
  refine ⟨by rw [hfactory.1], by rw [hfactory.1], fun hzero ↦ ?_, hdb⟩
  rw [hfactory.1] at hzero
  obtain ⟨fault, hfault⟩ := hfactory.2 hzero
  rw [hfault] at hok
  cases hok

/-! ## Generated records -/

theorem returns_chooseVersion {version number : ℕ}
    (h : (chooseVersion version).Returns (World.handle services) world number world') :
    world'.db = world.db := by
  unfold chooseVersion at h
  split_ifs at h
  · exact (returns_service.mp h).2
  · exact congrArg World.db (Program.returns_pure.mp h).2.symm

variable [PacketFormat]

/-- The packet a factory makes for a record, as the wire of the record decodes. -/
structure Carries (wire : Block) (name : Name) (contentType : NdnsContentType) (content : Blob) :
    Prop where
  type_eq : wire.type = dataTlvType
  decodes : ∃ data, PacketFormat.decode wire = some data ∧ data.name = name ∧
    data.contentType = contentType.toCode ∧ data.content = content

/-- The number of seconds a generated record is fresh for. -/
def effectiveTtl (factory : RrsetFactory) (ttl : ℤ) : ℤ :=
  if ttl = defaultRrTtl then factory.zone.ttl else ttl

/-- The generated record and the fields of its packet. -/
theorem returns_generateRrset_packet {factory : RrsetFactory} {label : Name} {type : Component}
    {contentType : NdnsContentType} {version : ℕ} {ttl : ℤ} {content : Option Blob} {rrset : Rrset}
    (h : (factory.generateRrset label type contentType version ttl content).Returns
      (World.handle services) world rrset world') :
    world'.db = world.db ∧ 0 ≤ factory.effectiveTtl ttl ∧ rrset.data.type = dataTlvType ∧
      ∃ number bytes data, (version ≠ versionUseUnixTimestamp → number = version) ∧
        content = some bytes ∧ PacketFormat.decode rrset.data = some data ∧
        rrset = ⟨0, some factory.zone, label, type, Component.fromVersion number,
          factory.effectiveTtl ttl, rrset.data⟩ ∧
        data.name = Label.recordName factory.zone.name label type ++
          [Component.fromVersion number] ∧
        data.contentType = contentType.toCode ∧
        data.freshnessPeriod = (factory.effectiveTtl ttl * 1000).toNat ∧ data.content = bytes := by
  simp only [generateRrset, generateBaseRrset, Program.returns_bind, returns_require,
    returns_orThrow, Program.returns_pure] at h
  obtain ⟨_, _, ⟨-, rfl⟩, base, afterBase, ⟨number, _, hnumber, rfl, rfl⟩, bytes, _, ⟨hbytes, rfl⟩,
    _, _, ⟨httl, rfl⟩, answer, afterSign, hsign, signature, _, ⟨-, rfl⟩, wire, _, ⟨hwire, rfl⟩,
    rfl, rfl⟩ := h
  refine ⟨(returns_service.mp hsign).2.trans (returns_chooseVersion hnumber), httl,
    PacketFormat.type_of_encode hwire, number, bytes, _, fun hversion ↦ ?_, hbytes,
    PacketFormat.decode_of_encode hwire, rfl, rfl, rfl, rfl, rfl⟩
  rw [chooseVersion, if_neg hversion] at hnumber
  exact (Program.returns_pure.mp hnumber).1.symm

/-- The generation of a record asks services only. -/
theorem asks_generateRrset (factory : RrsetFactory) (label : Name) (type : Component)
    (contentType : NdnsContentType) (version : ℕ) (ttl : ℤ) (content : Option Blob) :
    (factory.generateRrset label type contentType version ttl content).CallsOnly Call.Asks := by
  have hbase : ∀ ttl, (factory.generateBaseRrset label type version ttl).CallsOnly Call.Asks := by
    intro ttl
    refine Program.CallsOnly.bind ?_ fun _ ↦ trivial
    unfold chooseVersion
    split_ifs
    · exact asks_service
    · trivial
  exact callsOnly_require.bind fun _ ↦ (hbase _).bind fun _ ↦ callsOnly_orThrow.bind fun _ ↦
    callsOnly_require.bind fun _ ↦ asks_service.bind fun _ ↦ callsOnly_orThrow.bind fun _ ↦
    callsOnly_orThrow.bind fun _ ↦ trivial

theorem reads_generateRrset (factory : RrsetFactory) (label : Name) (type : Component)
    (contentType : NdnsContentType) (version : ℕ) (ttl : ℤ) (content : Option Blob) :
    (factory.generateRrset label type contentType version ttl content).CallsOnly Call.Reads :=
  (asks_generateRrset factory label type contentType version ttl content).mono Call.Asks.reads

/-- The generated record, its packet, and that the database is only read. -/
theorem returns_generateRrset {factory : RrsetFactory} {label : Name} {type : Component}
    {contentType : NdnsContentType} {version : ℕ} {ttl : ℤ} {content : Option Blob} {rrset : Rrset}
    (h : (factory.generateRrset label type contentType version ttl content).Returns
      (World.handle services) world rrset world') :
    world'.db = world.db ∧ rrset.id = 0 ∧ rrset.zone = some factory.zone ∧
      rrset.label = label ∧ rrset.type = type ∧ ∃ bytes, content = some bytes ∧
        Carries rrset.data (Label.recordName factory.zone.name label type ++ [rrset.version])
          contentType bytes := by
  obtain ⟨hdb, -, htype, number, bytes, data, -, hbytes, hdecode, hrrset, hname, hcode, -,
    hcontent⟩ := returns_generateRrset_packet h
  rw [hrrset]
  exact ⟨hdb, rfl, rfl, rfl, rfl, bytes, hbytes, htype, data, hdecode, hname, hcode, hcontent⟩

end RrsetFactory

end Ndns.Daemon
