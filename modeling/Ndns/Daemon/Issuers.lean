import Ndns.Calls.Delivery
import Ndns.Daemon.KeyHolders
import Ndns.Ndn.PacketSizes

/-!
# Services That Issue the Records of a Zone

An operation fails when the key chain does not sign a packet, or when the signed packet is too long
to be written.  `Services.IssuesRecord` says that neither happens to the packet of a record, and then
its generation finishes, whatever the clock shows.
-/

namespace Ndns.Daemon

open Ndn Calls

variable {Keys Value Result : Type} {services : Services Keys} {db : Database}
  {post : Value → Database → Prop}

/-! ## Operations that finish -/

/-- On these tables the program returns, whatever the state of the services. -/
def Finishes (services : Services Keys) (program : Prog Value) (db : Database)
    (post : Value → Database → Prop) : Prop :=
  Program.Delivers (World.handle services) (fun world ↦ world.db = db) program
    fun value world ↦ post value world.db

theorem finishes_pure {value : Value} (h : post value db) :
    Finishes services (pure value : Prog Value) db post := by
  refine Program.delivers_pure fun world hworld ↦ ?_
  rw [hworld]
  exact h

theorem Finishes.weaken {post' : Value → Database → Prop} {program : Prog Value}
    (h : Finishes services program db post)
    (hpost : ∀ value db', post value db' → post' value db') : Finishes services program db post' :=
  Program.Delivers.weaken h fun value world ↦ hpost value world.db

theorem Finishes.bind {program : Prog Value} {rest : Value → Prog Result}
    {last : Result → Database → Prop} (h : Finishes services program db post)
    (hrest : ∀ value db', post value db' → Finishes services (rest value) db' last) :
    Finishes services (program >>= rest) db last :=
  Program.Delivers.bind h fun value world hmiddle ↦ hrest value world.db hmiddle world rfl

/-- A run that is known apart from the state of the services. -/
theorem finishes_of_run {program : Prog Value} {value : Value} {db' : Database}
    (hrun : ∀ keys, ∃ keys', program.run (World.handle services) ⟨db, keys⟩ =
      (.ok value, ⟨db', keys'⟩)) (h : post value db') : Finishes services program db post := by
  rintro ⟨_, keys⟩ rfl
  obtain ⟨keys', hreturns⟩ := hrun keys
  exact ⟨value, ⟨db', keys'⟩, hreturns, h⟩

/-- What is known of every normal return holds of the one there is. -/
theorem Finishes.and_returns {program : Prog Value} {post' : Value → Database → Prop}
    (h : Finishes services program db post)
    (hreturns : ∀ keys value world', program.Returns (World.handle services) ⟨db, keys⟩ value
      world' → post' value world'.db) :
    Finishes services program db fun value db' ↦ post value db' ∧ post' value db' := by
  refine Program.Delivers.and_returns h ?_
  rintro ⟨_, keys⟩ value world' rfl hresult
  exact hreturns keys value world' hresult

theorem Finishes.returns {program : Prog Value} (h : Finishes services program db post)
    {keys : Keys} {value : Value} {world' : World Keys}
    (hreturns : program.Returns (World.handle services) ⟨db, keys⟩ value world') :
    post value world'.db :=
  Program.Delivers.returns h rfl hreturns

theorem finishes_service {request : Service} {post : request.Answer → Database → Prop}
    (h : ∀ keys, post (services.answer request keys).1 db) :
    Finishes services (service request) db post := by
  rintro ⟨_, keys⟩ rfl
  exact ⟨_, _, run_service request _, h keys⟩

/-! ## The factory -/

namespace RrsetFactory

theorem finishes_chooseVersion (version : ℕ) :
    Finishes services (chooseVersion version) db fun _ db' ↦ db' = db := by
  unfold chooseVersion
  split_ifs
  · exact finishes_service fun _ ↦ rfl
  · exact finishes_pure rfl

/-- The factory of a known zone is made and passes its check. -/
theorem finishes_checkedFactory {zoneName certName inputDskCertName : Name}
    {rest : RrsetFactory → Prog Value} {post : Value → Database → Prop}
    (hkeys : services.HoldsKeys (zoneIdentity zoneName) certName)
    (hlists : inputDskCertName ≠ defaultCert →
      services.Lists (zoneIdentity zoneName) inputDskCertName)
    (hzone : (DbMgr.lookupZone db (Zone.named zoneName)).id ≠ 0)
    (hrest : Finishes services (rest ⟨DbMgr.lookupZone db (Zone.named zoneName),
      chosenCert certName inputDskCertName, true⟩) db post) :
    Finishes services (do
      let factory ← make zoneName inputDskCertName
      let factory ← raise (← factory.checkZoneKey)
      rest factory) db post := by
  have hmake : Finishes services (make zoneName inputDskCertName) db fun factory db' ↦
      factory = ⟨Zone.named zoneName, chosenCert certName inputDskCertName, false⟩ ∧ db' = db :=
    finishes_of_run (run_make hkeys) ⟨rfl, rfl⟩
  have hchosen : chosenCert certName inputDskCertName ≠ defaultCert →
      services.Lists (zoneIdentity zoneName) (chosenCert certName inputDskCertName) := by
    intro hne
    unfold chosenCert
    split_ifs with hdefault
    · exact hkeys.listed
    · exact hlists hdefault
  refine hmake.bind fun factory db' hmade ↦ ?_
  obtain ⟨rfl, rfl⟩ := hmade
  have hcheck : Finishes services (checkZoneKey
      ⟨Zone.named zoneName, chosenCert certName inputDskCertName, false⟩) db' fun outcome db'' ↦
        outcome = (.ok (), ⟨DbMgr.lookupZone db' (Zone.named zoneName),
          chosenCert certName inputDskCertName, true⟩) ∧ db'' = db' :=
    finishes_of_run (run_checkZoneKey hchosen hzone) ⟨rfl, rfl⟩
  refine hcheck.bind fun outcome db'' hchecked ↦ ?_
  obtain ⟨rfl, rfl⟩ := hchecked
  exact hrest

end RrsetFactory

/-! ## Records -/

section Records

variable [PacketFormat]

/-- The key chain signs the packet, and the signed packet can be written. -/
def Services.Issues (services : Services Keys) (signer : Signer) (packet : Data) : Prop :=
  ∀ keys, ∃ signature wire, (services.answer (.sign signer packet) keys).1 = some signature ∧
    PacketFormat.encode { packet with signatureInfo := signature.1, signatureValue := signature.2 } =
      some wire

/-- The packet of a record is issued under each version. -/
def Services.IssuesRecord (services : Services Keys) (certName zoneName label : Name)
    (type : Component) (contentType : NdnsContentType) (ttl : ℤ) (content : Blob) : Prop :=
  ∀ number, services.Issues (.byCertificate certName)
    ⟨Label.recordName zoneName label type ++ [Component.fromVersion number], contentType.toCode,
      (ttl * 1000).toNat, content, [], []⟩

namespace RrsetFactory

/-- The fields of a generated record and of its packet. -/
structure Generated (factory : RrsetFactory) (label : Name) (type : Component)
    (contentType : NdnsContentType) (version : ℕ) (ttl : ℤ) (content : Blob) (rrset : Rrset) :
    Prop where
  carries : Carries rrset.data
    (Label.recordName factory.zone.name label type ++ [rrset.version]) contentType content
  id : rrset.id = 0
  zone : rrset.zone = some factory.zone
  label : rrset.label = label
  type : rrset.type = type
  version : version ≠ versionUseUnixTimestamp → rrset.version = Component.fromVersion version
  ttl : rrset.ttl = factory.effectiveTtl ttl

variable {factory : RrsetFactory} {label : Name} {type : Component}
  {contentType : NdnsContentType} {ttl : ℤ} {content : Blob}

/-- The generation of a record whose packet is issued. -/
theorem finishes_generateRrset (version : ℕ) (hchecked : factory.checked = true)
    (httl : 0 ≤ factory.effectiveTtl ttl)
    (hissues : services.IssuesRecord factory.dskCertName factory.zone.name label type contentType
      (factory.effectiveTtl ttl) content) :
    Finishes services
      (factory.generateRrset label type contentType version ttl (some content)) db
      fun rrset db' ↦ db' = db ∧
        factory.Generated label type contentType version ttl content rrset := by
  have hfinishes : Finishes services
      (factory.generateRrset label type contentType version ttl (some content)) db
      fun _ _ ↦ True := by
    unfold generateRrset generateBaseRrset
    rw [effectiveTtl] at httl hissues
    generalize (if ttl = defaultRrTtl then factory.zone.ttl else ttl) = seconds at httl hissues
    simp only [require, if_pos hchecked, if_pos httl, Program.pure_bind]
    have hbase : Finishes services (do
          let number ← chooseVersion version
          let component := Component.fromVersion number
          pure (⟨0, some factory.zone, label, type, component, seconds, Block.invalid⟩,
            Label.recordName factory.zone.name label type ++ [component]) :
          Prog (Rrset × Name)) db fun base db' ↦ ∃ number, base.2 =
            Label.recordName factory.zone.name label type ++ [Component.fromVersion number] :=
      (finishes_chooseVersion version).bind fun number _ _ ↦ finishes_pure ⟨number, rfl⟩
    refine hbase.bind fun base db' hnamed ↦ ?_
    obtain ⟨rrset, name⟩ := base
    obtain ⟨number, rfl⟩ := hnamed
    have hsign : Finishes services (service (.sign (.byCertificate factory.dskCertName)
        ⟨Label.recordName factory.zone.name label type ++ [Component.fromVersion number],
          contentType.toCode, (seconds * 1000).toNat, content, [], []⟩)) db'
        fun answer _ ↦ ∃ signature wire, answer = some signature ∧ PacketFormat.encode
          ⟨Label.recordName factory.zone.name label type ++ [Component.fromVersion number],
            contentType.toCode, (seconds * 1000).toNat, content, signature.1, signature.2⟩ =
              some wire := finishes_service (hissues number)
    refine hsign.bind fun answer _ hanswer ↦ ?_
    obtain ⟨signature, wire, rfl, hwire⟩ := hanswer
    simp only [orThrow, Program.pure_bind, hwire]
    exact finishes_pure trivial
  refine (hfinishes.and_returns fun keys rrset world' hreturns ↦ ?_).weaken fun _ _ hend ↦ hend.2
  obtain ⟨hdb, -, htype, number, bytes, data, hversion, hbytes, hdecode, hrrset, hname, hcode, -,
    hcontent⟩ := returns_generateRrset_packet hreturns
  cases hbytes
  rw [hrrset]
  exact ⟨hdb, ⟨htype, data, hdecode, hname, hcode, hcontent⟩, rfl, rfl, rfl, rfl,
    fun hne ↦ congrArg Component.fromVersion (hversion hne), rfl⟩

end RrsetFactory

end Records

section Examples

attribute [local instance] ndnPacketFormat

/-- The key chain in memory issues every record of a reasonable size. -/
theorem localServices_issuesRecord {certName zoneName label : Name} {type : Component}
    {contentType : NdnsContentType} {ttl : ℤ} {content : Blob}
    (hname : (saveName (Label.recordName zoneName label type)).length < 2 ^ 59)
    (hcontentType : contentType.toCode < 2 ^ 64) (httl : (ttl * 1000).toNat < 2 ^ 64)
    (hcontent : content.length < 2 ^ 60) :
    localServices.IssuesRecord certName zoneName label type contentType ttl content := by
  intro number keys
  have hversion := length_encode_fromVersion_le number
  have hsize : (saveName (Label.recordName zoneName label type ++
      [Component.fromVersion number])).length < 2 ^ 60 := by
    rw [length_saveName_append]
    simp only [saveName, List.flatMap_cons, List.flatMap_nil, List.append_nil] at hname ⊢
    omega
  have hempty : ([] : Blob).length < 2 ^ 60 := by decide
  obtain ⟨wire, hwire⟩ := @Layout.encode_of_small ⟨Label.recordName zoneName label type ++
    [Component.fromVersion number], contentType.toCode, (ttl * 1000).toNat, content, [], []⟩
    hsize hcontentType httl hcontent hempty hempty
  exact ⟨([], []), wire, rfl, hwire⟩

end Examples

end Ndns.Daemon
