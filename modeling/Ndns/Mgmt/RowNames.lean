import Ndns.Daemon.QueryRules
import Ndns.Mgmt.VersionControl

/-!
# The Name of the Packet in a Row

A row is found by zone, label and type, and what a client gets is the packet in it.  The packet is
named after the row as long as each operation that reads the key off a name is given a name of the
zone: `addIdCert` writes CERT over the issuer of a certificate, and the positional parsers never
look at the beginning of a name.
-/

namespace Ndns.Label

open Ndn

/-- A version in the place of the type is taken for the version of the component before it. -/
theorem matchInterestName_versionType {zone label : Name} {rrType : Component} {re : MatchResult}
    (htype : rrType.isVersion = true)
    (h : matchInterestName (recordName zone label rrType) zone = .matched re) :
    (label = [] ∧ re = ⟨[rrType], ndnsIterativeQuery, rrType⟩) ∨
      ∃ shorter type, label = shorter ++ [type] ∧ re = ⟨shorter, type, rrType⟩ := by
  rcases List.eq_nil_or_concat' label with rfl | ⟨shorter, type, rfl⟩
  · -- the marker is taken for the type, and the count of the label wraps
    have hpair : recordName zone [] rrType = zone ++ [ndnsIterativeQuery, rrType] := by
      simp [recordName]
    rw [hpair, matchInterestName_onlyVersion zone htype, MatchOutcome.matched.injEq] at h
    exact Or.inl ⟨rfl, h.symm⟩
  · have hpair : recordName zone (shorter ++ [type]) rrType =
        recordName zone shorter type ++ [rrType] := by simp [recordName]
    rw [hpair, matchInterestName_recordName_version zone shorter type htype,
      MatchOutcome.matched.injEq] at h
    exact Or.inr ⟨shorter, type, rfl, h.symm⟩

/-- The answer to a query for a record extends the name of the query. -/
theorem prefix_of_matchInterestName {zone label : Name} {rrType version : Component}
    {re : MatchResult} (h : matchInterestName (recordName zone label rrType) zone = .matched re)
    (hversion : re.version.isEmpty = true ∨ re.version = version) :
    recordName zone label rrType <+: recordName zone re.rrLabel re.rrType ++ [version] := by
  cases htype : rrType.isVersion with
  | false =>
      rw [matchInterestName_recordName zone label htype] at h
      cases h
      exact List.prefix_append _ _
  | true =>
      have hsame : ∀ found, re.version = found → found.isVersion = true → found = version :=
        fun found hfound hfoundVersion ↦ hfound.symm.trans <| hversion.resolve_left <| by
          simp [hfound, Component.isEmpty_of_isVersion hfoundVersion]
      rcases matchInterestName_versionType htype h with ⟨rfl, rfl⟩ | ⟨shorter, type, rfl, rfl⟩
      · refine ⟨[ndnsIterativeQuery, version], ?_⟩
        simp [recordName]
      · rw [← hsame rrType rfl htype]
        simp [recordName]

end Ndns.Label

namespace Ndns.Mgmt

open Ndn Calls Daemon DbMgr Database NameServer

/-! ## Names of records -/

/-- A name of the zone is the name of a record and its version. -/
theorem eq_recordName_of_inZone {zoneName name : Name} (h : InZone zoneName name) :
    ∃ label type version, name = Label.recordName zoneName label type ++ [version] := by
  obtain ⟨rest, rfl, hlength⟩ := h
  obtain ⟨front, version, rfl⟩ := List.eq_nil_or_concat rest |>.resolve_left (by
    rintro rfl
    simp at hlength)
  obtain ⟨label, type, rfl⟩ := List.eq_nil_or_concat front |>.resolve_left (by
    rintro rfl
    simp at hlength)
  exact ⟨label, type, version, by simp [Label.recordName]⟩

/-- The certificate name a zone may be created with: it names the default certificate, or one of
the zone with issuer CERT. -/
def IssuedAsCert (zoneName certName : Name) : Prop :=
  certName = defaultCert ∨ ∃ key version,
    certName = zoneIdentity zoneName ++ key ++ [Label.certRrType, version]

/-- `addIdCert` writes the row of a certificate with issuer CERT under the parts of its name. -/
theorem recordName_idCertLabel {zoneName key : Name} {version : Component} :
    Label.recordName zoneName
        (ManagementTool.idCertLabel zoneName
          (zoneIdentity zoneName ++ key ++ [Label.certRrType, version])) Label.certRrType ++
      [version] = zoneIdentity zoneName ++ key ++ [Label.certRrType, version] := by
  have hlabel : ManagementTool.idCertLabel zoneName
      (zoneIdentity zoneName ++ key ++ [Label.certRrType, version]) = key := by
    have hdrop := Label.drop_recordName zoneName key Label.certRrType [version]
    have hname : zoneIdentity zoneName ++ key ++ [Label.certRrType, version] =
        Label.recordName zoneName key Label.certRrType ++ [version] := by
      simp [zoneIdentity, Label.recordName]
    have hlength : Label.sizeSub (Label.sizeSub
        (Label.recordName zoneName key Label.certRrType ++ [version]).length zoneName.length) 3 =
          key.length := by
      simp only [Label.sizeSub, List.length_append, Label.recordName_length, List.length_singleton]
      split_ifs <;> omega
    rw [hname, ManagementTool.idCertLabel, hlength, Name.getSubName]
    rw [Label.calculateSkip] at hdrop
    rw [hdrop, List.take_left]
  rw [hlabel]
  simp [zoneIdentity, Label.recordName]

/-! ## Rows -/

/-- The zone object is that of a zone in the tables. -/
def Listed (db : Database) (zone : Zone) : Prop :=
  ∃ row ∈ db.zones, row.id = zone.id ∧ row.name = zone.name

theorem Listed.id_ne {db : Database} {zone : Zone} (h : Listed db zone) (hvalid : db.Valid) :
    zone.id ≠ 0 := by
  obtain ⟨row, hrow, hid, -⟩ := h
  rw [← hid]
  exact (hvalid.zoneIds_pos row hrow).ne'

/-- The record is stored already, in a version that is not older. -/
def Superseded (db : Database) (zoneId : ℕ) (label : Name) (type version : Component) : Prop :=
  ∃ row, keyRow db zoneId label type = some row ∧ version ≤ row.version

namespace ManagementTool

variable {Keys : Type} {services : Services Keys}

/-- A key is named after the identity it is made for. -/
def KeysOfIdentity (services : Services Keys) : Prop :=
  ∀ identity keys key, (services.answer (.createKey identity) keys).1 = some key → identity <+: key

theorem fromData_of_parseRrset {zoneName : Name} {data : Data} {re : Clients.Response}
    {world world' : World Keys}
    (h : (parseRrset zoneName data).Returns (World.handle services) world re world') :
    ∃ flag, Clients.Response.default.fromData zoneName data = .ok (flag, re) := by
  unfold parseRrset at h
  split at h
  · rename_i flag re' hdata
    obtain ⟨rfl, -⟩ := Program.returns_pure.mp h
    exact ⟨flag, hdata⟩
  · exact (Program.returns_throw.mp h).elim
  · exact (Program.returns_throw.mp h).elim

/-- The certificate of a key of the zone has issuer CERT if it is a new one, or named so. -/
theorem name_of_obtainCertificate {zoneName certName key : Name} {signingKey : Option Name}
    {cacheTtl : ℤ} {cert : Data} {world world' : World Keys} (hkeys : KeysOfIdentity services)
    (hissued : IssuedAsCert zoneName certName)
    (h : (obtainCertificate (zoneIdentity zoneName) certName signingKey cacheTtl).Returns
      (World.handle services) world (key, cert) world') :
    ∃ label version, cert.name =
      zoneIdentity zoneName ++ label ++ [Label.certRrType, version] := by
  rcases returns_obtainCertificate h with ⟨-, ⟨keys, hkey⟩, -, timestamp, hname⟩ | ⟨hgiven, hname, -⟩
  · obtain ⟨label, hlabel⟩ := hkeys _ keys key hkey
    exact ⟨label, Component.fromVersion timestamp, by rw [hname, ← hlabel]⟩
  · obtain ⟨label, version, hissued⟩ := hissued.resolve_left hgiven
    exact ⟨label, version, hname.trans hissued⟩

end ManagementTool

/-- An answer that the server makes itself: the name of the Interest, and a time. -/
def Stamped {Keys : Type} (services : Services Keys) (interest : Interest) (answer : Data) : Prop :=
  ∃ keys, answer.name = interest.name ++ [Component.fromVersion (services.answer .now keys).1]

theorem stamped_signed {Keys : Type} {services : Services Keys} {interest : Interest} {name : Name}
    {signer : Signer} {packet answer : Data} {before named signing after : World Keys}
    (hname : (answerName interest).Returns (World.handle services) before name named)
    (hpacket : packet.name = name)
    (h : (signed signer packet).Returns (World.handle services) signing answer after) :
    Stamped services interest answer := by
  obtain ⟨timestamp, _, hnow, hname⟩ := Program.returns_bind.mp hname
  obtain ⟨rfl, -⟩ := Program.returns_pure.mp hname
  obtain ⟨signature, _, -, h⟩ := Program.returns_bind.mp h
  obtain ⟨_, _, -, h⟩ := Program.returns_bind.mp h
  obtain ⟨rfl, -⟩ := Program.returns_pure.mp h
  have hanswer := congrArg Prod.fst (returns_service.mp hnow).1
  exact ⟨before.keys, by rw [hanswer]; exact hpacket⟩

theorem stamped_denyQuery {Keys : Type} {services : Services Keys} {server : NameServer}
    {interest : Interest} {re : Label.MatchResult} {data : Data} {world world' : World Keys}
    (h : (denyQuery server interest re).Returns (World.handle services) world data world') :
    Stamped services interest data := by
  obtain ⟨name, _, hname, h⟩ := Program.returns_bind.mp h
  obtain ⟨⟨found, doe⟩, _, -, h⟩ := Program.returns_bind.mp h
  cases found with
  | false => simp at h
  | true => exact stamped_signed hname rfl h

section Rows

variable [PacketFormat]

/-- The packet of a row is named after the zone, and the label, type and version of the row. -/
def NamedRow (zoneName : Name) (row : RrsetRow) : Prop :=
  ∃ data, PacketFormat.decode row.data = some data ∧
    data.name = Label.recordName zoneName row.label row.type ++ [row.version]

/-- Every row belongs to a zone, and its packet is named after it. -/
structure Named (db : Database) : Prop where
  valid : db.Valid
  single : db.SingleVersion
  named : ∀ row ∈ db.rrsets, ∃ zone ∈ db.zones, zone.id = row.zoneId ∧ NamedRow zone.name row

namespace Named

variable {db db' : Database}

theorem vacant (h : Named db) (name : Name) : Vacant db name := by
  intro _ row hrow hzoneId
  obtain ⟨zone, hzone, hid, -⟩ := h.named row hrow
  exact ne_nextRowId hzone (hid.trans hzoneId)

theorem insertZone (h : Named db) {name : Name} (hnew : ∀ row ∈ db.zones, row.name ≠ name)
    (ttl : ℤ) : Named (db.insertZone name ttl) where
  valid := h.valid.insertZone ttl hnew
  single := h.single
  named row hrow := by
    obtain ⟨zone, hzone, hnamed⟩ := h.named row hrow
    exact ⟨zone, List.mem_append_left _ hzone, hnamed⟩

theorem insertZoneInfo (h : Named db) (zoneId : ℤ) (key : String) (value : Block) :
    Named (db.insertZoneInfo zoneId key value) :=
  ⟨h.valid.insertZoneInfo zoneId key value, h.single, h.named⟩

theorem deleteRrset (h : Named db) (id : ℕ) : Named (db.deleteRrset id) :=
  ⟨h.valid.filterRrsets _, h.single.sublist List.filter_sublist,
    fun row hrow ↦ h.named row (List.mem_of_mem_filter hrow)⟩

theorem insertRrset (h : Named db) {zone : ZoneRow} (hzone : zone ∈ db.zones) {label : Name}
    {type version : Component} {data : Block}
    (habsent : ∀ row ∈ db.rrsets, row.key ≠ (zone.id, label, type)) (ttl : ℤ)
    (hdata : ∃ packet, PacketFormat.decode data = some packet ∧
      packet.name = Label.recordName zone.name label type ++ [version]) :
    Named (db.insertRrset zone.id label type version ttl data) where
  valid := ((Kept.refl h.valid h.single).insertRrset habsent _ _ _ : Kept (fun _ ↦ True) _ _).valid
  single := h.single.insertRrset habsent _ _ _
  named row hrow := by
    rcases List.mem_append.mp hrow with hold | hnew
    · exact h.named row hold
    · rw [List.mem_singleton.mp hnew]
      exact ⟨zone, hzone, rfl, hdata⟩

/-- The UPDATE puts another packet with the name of the row into it. -/
theorem updateRrset (h : Named db) {old : RrsetRow} (hold : old ∈ db.rrsets) {version : Component}
    (hallowed : db.forbidsUpdate old.id version = false) {ttl : ℤ} {data : Block}
    (hdata : ∀ zone ∈ db.zones, zone.id = old.zoneId → ∃ packet,
      PacketFormat.decode data = some packet ∧
        packet.name = Label.recordName zone.name old.label old.type ++ [version]) :
    Named (db.updateRrset old.id ttl version data) := by
  refine ⟨h.valid.updateRrset ttl data hallowed, h.single.updateRrset _ _ _ _, fun row hrow ↦ ?_⟩
  obtain ⟨before, hbefore, rfl⟩ := List.mem_map.mp hrow
  obtain ⟨zone, hzone, hid, hnamed⟩ := h.named before hbefore
  refine ⟨zone, hzone, ?_⟩
  split_ifs with hsame
  · have hrow : before = old := List.inj_on_of_nodup_map h.valid.ids hbefore hold hsame
    rw [hrow] at hid ⊢
    exact ⟨hid, hdata zone hzone hid⟩
  · exact ⟨hid, hnamed⟩

theorem regenerated (h : Named db) {zone : Zone}
    (hregenerated : ManagementTool.Regenerated zone.name (lookupZone db zone).id db db')
    (hvalid : db'.Valid) : Named db' := by
  refine ⟨hvalid, singleVersion_regenerated h.single hregenerated, fun row hrow ↦ ?_⟩
  rw [hregenerated.zones]
  obtain rfl | ⟨hid, chain, -, happends⟩ := hregenerated
  · exact h.named row hrow
  · rcases ManagementTool.mem_of_appends happends hrow with hold | ⟨denial, -, hdenial⟩
    · exact h.named row (List.mem_of_mem_filter hold)
    · obtain ⟨zoneRow, hzoneRow, hname, hlookup⟩ := lookupZone_id_eq hid
      obtain ⟨content, -, -, data, hdecode, hdataName, -⟩ := hdenial.packet
      refine ⟨zoneRow, hzoneRow, ?_, data, hdecode, ?_⟩
      · rw [hdenial.zoneId, hlookup]
      · rw [hdataName, hname, hdenial.label, hdenial.type]

end Named

namespace ManagementTool

variable {Keys : Type} {services : Services Keys} {db : Database} {rrset : Rrset} {zone : Zone}

/-! ## Operations -/

theorem names_generateDoe (h : Named db) (zone : Zone) :
    Meets services AnyChange (generateDoe zone) db
      fun _ db' ↦ Named db' ∧ db'.zones = db.zones :=
  ((meets_generateDoe h.single fun _ _ _ _ ↦ trivial).valid h.valid).weaken
    fun _ _ hend ↦ ⟨h.regenerated hend.1 hend.2, hend.1.zones⟩

/-- A record that is stored has a packet named after it. -/
theorem names_store (h : Named db) (hnew : rrset.id = 0) (hzone : rrset.zone = some zone)
    (hlisted : Listed db zone)
    (hdata : Superseded db zone.id rrset.label rrset.type rrset.version ∨
      ∃ packet, PacketFormat.decode rrset.data = some packet ∧
        packet.name = Label.recordName zone.name rrset.label rrset.type ++ [rrset.version]) :
    Meets services AnyChange (store rrset) db fun _ db' ↦ Named db' := by
  have hid := hlisted.id_ne h.valid
  have hresolve : resolveZone db zone = zone := if_neg hid
  have hvacant : (resolveZone db zone).id = 0 → Vacant db zone.name := fun _ ↦ h.vacant _
  refine meets_store h.valid h.single hnew hzone hvacant
    ⟨h, fun _ _ _ _ ↦ trivial, fun _ _ _ _ ↦ trivial, ?_⟩
  rw [hresolve]
  intro cleared zoneId db' hcleared _ hknown habsent
  obtain ⟨rfl, rfl⟩ := hknown hid
  refine ⟨trivial, fun stored _ _ ↦ (names_generateDoe ?_ stored).weaken fun _ _ hend ↦ hend.1⟩
  have hpacket : ∃ packet, PacketFormat.decode rrset.data = some packet ∧
      packet.name = Label.recordName zone.name rrset.label rrset.type ++ [rrset.version] := by
    refine hdata.resolve_left ?_
    rintro ⟨row, hrow, hversion⟩
    cases hcleared with
    | absent hnone =>
        rw [hnone hid] at hrow
        cases hrow
    | older _ hfound hnewer =>
        rw [hfound, Option.some.injEq] at hrow
        rw [hrow] at hnewer
        exact absurd hversion (not_le.mpr hnewer)
  obtain ⟨zoneRow, hzoneRow, hzoneId, hname⟩ := hlisted
  have hnamed : Named db' := by
    cases hcleared with
    | absent _ => exact h
    | older _ _ _ => exact h.deleteRrset _
  rw [← hzoneId] at habsent ⊢
  rw [← hname] at hpacket
  exact hnamed.insertRrset (hcleared.zones ▸ hzoneRow) habsent _ hpacket

/-- A new record object whose packet is named after it. -/
structure RecordOf (db : Database) (zone : Zone) (rrset : Rrset) : Prop where
  new : rrset.id = 0
  assigned : rrset.zone = some zone
  listed : Listed db zone
  packet : ∃ packet, PacketFormat.decode rrset.data = some packet ∧
    packet.name = Label.recordName zone.name rrset.label rrset.type ++ [rrset.version]

/-- The records of a factory of a zone are such objects. -/
theorem recordOf_generateRrset {factory : RrsetFactory} {label : Name} {type : Component}
    {contentType : NdnsContentType} {version : ℕ} {ttl : ℤ} {content : Option Blob}
    {world world' : World Keys} (hlisted : Listed db factory.zone)
    (h : (factory.generateRrset label type contentType version ttl content).Returns
      (World.handle services) world rrset world') : RecordOf db factory.zone rrset := by
  obtain ⟨-, hid, hzone, rfl, rfl, _, -, -, packet, hdecode, hname, -⟩ :=
    RrsetFactory.returns_generateRrset h
  exact ⟨hid, hzone, hlisted, packet, hdecode, hname⟩

theorem names_addRrset (h : Named db) (hrecord : RecordOf db zone rrset) :
    Meets services AnyChange (addRrset rrset) db fun _ db' ↦ Named db' := by
  refine meets_addRrset hrecord.assigned (fun _ ↦ h) fun _ ↦ ?_
  have hresolve : resolveZone db zone = zone := if_neg (hrecord.listed.id_ne h.valid)
  rw [hresolve]
  exact names_store h hrecord.new rfl hrecord.listed (Or.inr hrecord.packet)

theorem names_addMultiLevelLabelRrset {factory : RrsetFactory} {authTtl : ℤ} (h : Named db)
    (hrecord : RecordOf db zone rrset) (hsame : SameZone db zone factory.zone) :
    Meets services AnyChange (addMultiLevelLabelRrset rrset factory authTtl) db
      fun _ db' ↦ Named db' := by
  have hid := hrecord.listed.id_ne h.valid
  refine meets_addMultiLevelLabelRrset h.valid hrecord.assigned (fun _ ↦ h) fun zone' htracks _ _ ↦ ?_
  have hauth := @meets_createAuth _ services AnyChange db { rrset with zone := some zone' } zone _
    (fun _ db' ↦ Named db' ∧ Listed db' zone) factory authTtl (properPrefixes rrset.label)
    (fun _ _ hinv ↦ hinv.1.valid) (fun hzero ↦ absurd hzero hid) (fun _ _ _ _ hinv _ ↦ hinv)
    ?_ zone' rfl htracks hsame ⟨h, hrecord.listed⟩
  · refine hauth.bind ?_ ?_
    · rintro result db' ⟨⟨hnamed, hlistedEnd⟩, zone'', rfl, htracks'⟩
      refine names_store hnamed hrecord.new rfl ?_ (Or.inr ?_)
      · rw [htracks'.known hid]
        exact hlistedEnd
      · rw [htracks'.known hid]
        exact hrecord.packet
    · rintro fault db' ⟨remaining, hnamed, -⟩
      exact hnamed
  · intro labelPrefix rest db₁ zoneId db' version ttl data hinv hhouses habsent hcarries
    obtain ⟨rfl, rfl⟩ := hhouses.known hid
    refine ⟨fun hzero ↦ absurd hzero hid, trivial, ?_, hinv.2⟩
    obtain ⟨-, packet, hdecode, hpacket, -⟩ := hcarries
    obtain ⟨zoneRow, hzoneRow, hzoneId, hzoneName⟩ := hinv.2
    rw [← hzoneId] at habsent ⊢
    rw [← hzoneName] at hpacket
    exact hinv.1.insertRrset hzoneRow habsent _ ⟨packet, hdecode, hpacket⟩

/-- The file holds the element of a packet at some time. -/
def FileHolds (services : Services Keys) (inFile : String) (packet : Received) : Prop :=
  ∃ keys wire, (services.answer (.load inFile) keys).1 = .contents (some wire) ∧
    Received.ofBlock wire = some packet

theorem holds_of_loadData {inFile : String} {packet : Received} {world world' : World Keys}
    (h : (loadData inFile).Returns (World.handle services) world packet world') :
    FileHolds services inFile packet := by
  obtain ⟨answer, _, hload, h⟩ := Program.returns_bind.mp h
  have hanswer := congrArg Prod.fst (returns_service.mp hload).1
  cases answer with
  | notFile => exact (Program.returns_throw.mp h).elim
  | contents wire =>
      obtain ⟨hpacket, -⟩ := returns_orThrow.mp h
      obtain ⟨block, rfl, hblock⟩ := Option.bind_eq_some_iff.mp hpacket
      exact ⟨world.keys, block, hanswer, hblock⟩

/-- Signing a packet again changes nothing that a response is read from. -/
theorem fromData_of_resign {needResign : Bool} {dskCertName : Name} {packet : Received}
    {data : Data} {wire : Block} {world world' : World Keys}
    (h : (resign needResign dskCertName packet).Returns (World.handle services) world (data, wire)
      world') :
    PacketFormat.decode wire = some data ∧ data.name = packet.data.name ∧
      data.contentType = packet.data.contentType ∧
      ∀ (response : Clients.Response) zoneName,
        response.fromData zoneName data = response.fromData zoneName packet.data := by
  unfold resign at h
  split_ifs at h
  · simp only [Program.returns_bind, returns_orThrow, Program.returns_pure, Prod.mk.injEq] at h
    obtain ⟨_, _, -, signature, _, -, block, _, ⟨hblock, -⟩, ⟨rfl, rfl⟩, -⟩ := h
    exact ⟨PacketFormat.decode_of_encode hblock, rfl, rfl, fun _ _ ↦ rfl⟩
  · obtain ⟨hsame, -⟩ := Program.returns_pure.mp h
    cases hsame
    exact ⟨packet.decode_wire, rfl, rfl, fun _ _ ↦ rfl⟩

/-- A packet for a zone: named after the zone, or read as a record that is superseded. -/
def FitsZone (db : Database) (zoneName : Name) (packet : Received) : Prop :=
  InZone zoneName packet.data.name ∨
    ∀ flag re, Clients.Response.default.fromData zoneName packet.data = .ok (flag, re) →
      Superseded db (lookupZone db (Zone.named zoneName)).id re.rrLabel re.rrType re.version

theorem names_addRrsetFromFile {zoneName inputDskCertName : Name} {inFile : String} {ttl : ℤ}
    {needResign : Bool} (h : Named db)
    (hfits : ∀ packet, FileHolds services inFile packet → FitsZone db zoneName packet) :
    Meets services AnyChange (addRrsetFromFile zoneName inFile ttl inputDskCertName needResign) db
      fun _ db' ↦ Named db' := by
  refine meets_addRrsetFromFile (fun _ ↦ h) ?_
  intro _ _ packet _ _ _ data wire _ re hid hload hresign hparse
  obtain ⟨zoneRow, hzoneRow, hname, hlookup⟩ := lookupZone_id_eq hid
  obtain ⟨flag, hre⟩ := fromData_of_parseRrset hparse
  obtain ⟨hdecode, hdataName, -, hsame⟩ := fromData_of_resign hresign
  refine names_store h rfl rfl ⟨zoneRow, hzoneRow, ?_, ?_⟩ ?_
  · rw [hlookup]
  · rw [lookupZone_name, hname]
  · rcases hfits packet (holds_of_loadData hload) with hzone | hsuperseded
    · obtain ⟨label, type, version, hpacketName⟩ := eq_recordName_of_inZone hzone
      rw [← hdataName] at hpacketName
      obtain ⟨-, hlabel, htype, hversion⟩ := Clients.Response.fromData_eq_ok hpacketName hre
      refine Or.inr ⟨data, hdecode, ?_⟩
      rw [hpacketName, hlabel, htype, hversion, lookupZone_name]
      rfl
    · rw [hsame] at hre
      exact Or.inl (hsuperseded flag re hre)

theorem names_removeRrSet {zoneName label : Name} {type : Component} (h : Named db) :
    Meets services AnyChange (removeRrSet zoneName label type) db fun _ db' ↦ Named db' :=
  meets_removeRrSet h fun row _ _ ↦ ⟨trivial,
    (names_generateDoe (h.deleteRrset row.id) _).weaken fun _ _ hend ↦ hend.1⟩

theorem names_createZone {zoneName parentZoneName kskCertName dskCertName dkeyCertName : Name}
    {cacheTtl : ℤ} (h : Named db) (hkeys : KeysOfIdentity services)
    (hksk : IssuedAsCert zoneName kskCertName) (hdsk : IssuedAsCert zoneName dskCertName) :
    Meets services AnyChange
      (createZone zoneName parentZoneName cacheTtl kskCertName dskCertName dkeyCertName) db
      fun _ db' ↦ Named db' := by
  refine meets_createZone (fun db' ↦ Named db' ∧ ∃ row ∈ db'.zones,
    row.id = nextRowId (db.zones.map ZoneRow.id) ∧ row.name = zoneName) h ?_
  intro _ _ _ _ kskCert _ _ _ _ dskCert hkskCert hdskCert
  refine ⟨h, fun _ hinv ↦ hinv.1, fun _ hinv ↦ hinv.1.valid, fun ttl hnew ↦ ⟨trivial,
    h.insertZone hnew ttl, _, List.mem_append_right _ List.mem_cons_self, rfl, rfl⟩, ?_,
    fun _ _ _ hinv ↦ ⟨trivial, hinv.1.insertZoneInfo _ _ _, hinv.2⟩,
    fun db' stored hinv _ ↦ ?_⟩
  · intro cert hcert db' version ttl data ⟨hnamed, row, hrow, hid, hname⟩ hversion hdata habsent
    rw [← hid] at habsent ⊢
    refine ⟨trivial, hnamed.insertRrset hrow habsent ttl ⟨cert, ?_, ?_⟩, row, hrow, rfl, hname⟩
    · exact PacketFormat.decode_of_encode hdata
    · have hissued : ∃ label version,
          cert.name = zoneIdentity zoneName ++ label ++ [Label.certRrType, version] := by
        simp only [List.mem_cons, List.not_mem_nil, or_false] at hcert
        rcases hcert with rfl | rfl
        · exact name_of_obtainCertificate hkeys hksk hkskCert
        · exact name_of_obtainCertificate hkeys hdsk hdskCert
      obtain ⟨label, issuedVersion, hcertName⟩ := hissued
      have hlast : cert.name.getFromEnd 1 = some issuedVersion := by
        rw [hcertName, Name.getFromEnd_append_pair_one]
      rw [hlast, Option.some.injEq] at hversion
      rw [hname, hcertName, ← hversion]
      exact recordName_idCertLabel.symm
  · refine (names_generateDoe hinv.1 stored).weaken fun _ _ hend ↦ ⟨hend.1, ?_⟩
    rw [hend.2]
    exact hinv.2

end ManagementTool

/-! ## Updates -/

/-- An update with a packet of the zone, or one that changes nothing. -/
theorem Named.updateDatabase {db : Database} {server : NameServer} {re : Label.MatchResult}
    {packet : Received} (h : Named db) (hlisted : Listed db server.zone)
    (hmatch : Label.matchDataName packet.data.name server.zone.name = .matched re)
    (hfits : InZone server.zone.name packet.data.name ∨ TurnedAway server packet db) :
    Named (NameServer.updateDatabase server re packet db).1 := by
  rcases hfits with hzone | hturned
  · obtain ⟨label, type, version, hname⟩ := eq_recordName_of_inZone hzone
    rw [hname, Label.matchDataName_recordName, Label.MatchOutcome.matched.injEq] at hmatch
    obtain ⟨zoneRow, hzoneRow, hid, hzoneName⟩ := hlisted
    unfold NameServer.updateDatabase
    rw [← hmatch]
    cases hrow : keyRow db server.zone.id label type with
    | none =>
        rw [← hid] at hrow ⊢
        refine h.insertRrset hzoneRow (keyRow_eq_none_iff.mp hrow) _ ⟨_, packet.decode_wire, ?_⟩
        rw [hname, hzoneName]
    | some row =>
        simp only
        split_ifs with hnewer hforbidden
        · exact h
        · obtain ⟨hmem, hrowZone, hrowLabel, hrowType⟩ := keyRow_eq_some hrow
          refine h.updateRrset hmem (by simpa using hforbidden) fun zone hmemZone hsame ↦
            ⟨_, packet.decode_wire, ?_⟩
          have hzoneSame : zone = zoneRow := List.inj_on_of_nodup_map h.valid.zoneIds hmemZone
            hzoneRow (hsame.trans (hrowZone.trans hid.symm))
          rw [hname, hrowLabel, hrowType, hzoneSame, hzoneName]
        · exact h
  · rcases hturned with hnone | ⟨re', row, hmatch', hrow, hversion⟩
    · rw [hnone] at hmatch
      cases hmatch
    · rw [hmatch, Label.MatchOutcome.matched.injEq] at hmatch'
      rw [(updateDatabase_eq_self_iff h.valid).mpr ⟨row, hmatch' ▸ hrow, hmatch' ▸ hversion⟩]
      exact h

/-! ## Answers -/

/-- The answer to a query for a record extends the name of the query. -/
theorem Named.prefix_of_handleQuery {Keys : Type} {services : Services Keys} {db : Database}
    {server : NameServer} {interest : Interest} {re : Label.MatchResult} {label : Name}
    {type : Component} {data : Data} {keys : Keys} {world' : World Keys} (h : Named db)
    (hlisted : Listed db server.zone)
    (hname : interest.name = Label.recordName server.zone.name label type)
    (hmatch : Label.matchInterestName interest.name server.zone.name = .matched re)
    (hanswer : (handleQuery server interest re).Returns (World.handle services) ⟨db, keys⟩ data
      world') : interest.name <+: data.name := by
  obtain ⟨⟨found, rrset⟩, _, hfind, hanswer⟩ := Program.returns_bind.mp hanswer
  obtain ⟨hpick, rfl⟩ := (returns_findRrset rfl).mp hfind
  rw [resolveZone_zone] at hpick
  rcases pick_cases (Rrset.keyed server.zone re.rrLabel re.rrType) server.zone
    (keyRow db server.zone.id re.rrLabel re.rrType) with
    ⟨-, -, row, hrow, -, hfilled⟩ | ⟨hfalse, -⟩
  · have hrrset : rrset = { (Rrset.keyed server.zone re.rrLabel re.rrType).fill row with
        zone := some server.zone } := (congrArg Prod.snd hpick).symm.trans hfilled
    dsimp only at hanswer
    split_ifs at hanswer with hcurrent
    · obtain ⟨hdecode, -⟩ := returns_orThrow.mp hanswer
      obtain ⟨hmem, hrowZone, hrowLabel, hrowType⟩ := keyRow_eq_some hrow
      obtain ⟨zone, hzone, hid, packet, hpacket, hpacketName⟩ := h.named row hmem
      obtain ⟨zoneRow, hzoneRow, hzoneId, hzoneName⟩ := hlisted
      have hsame : zone = zoneRow := List.inj_on_of_nodup_map h.valid.zoneIds hzone hzoneRow
        (hid.trans (hrowZone.trans hzoneId.symm))
      have hversion : re.version.isEmpty = true ∨ re.version = row.version := by
        rw [hrrset] at hcurrent
        exact hcurrent.2
      have hdata : data = packet := by
        rw [hrrset] at hdecode
        exact Option.some.inj (hdecode.symm.trans hpacket)
      rw [hname] at hmatch ⊢
      rw [hdata, hpacketName, hrowLabel, hrowType, hsame, hzoneName]
      exact Label.prefix_of_matchInterestName hmatch hversion
    · obtain ⟨_, hdata⟩ := stamped_denyQuery hanswer
      exact hdata ▸ List.prefix_append _ _
  · have hfound : found = false := (congrArg Prod.fst hpick).symm.trans hfalse
    simp only [hfound, Bool.false_eq_true, false_and, if_false] at hanswer
    obtain ⟨_, hdata⟩ := stamped_denyQuery hanswer
    exact hdata ▸ List.prefix_append _ _

/-! ## Runs -/

namespace Operation

/-- The records, factories and servers are those of zones in the tables. -/
def OfZones (db : Database) : Operation → Prop
  | .addRrset rrset => ∃ zone, ManagementTool.RecordOf db zone rrset
  | .addMultiLevelLabelRrset rrset zoneRrFactory _ => ∃ zone,
      ManagementTool.RecordOf db zone rrset ∧
        ManagementTool.SameZone db zone zoneRrFactory.zone
  | .doUpdate server _ _ => Listed db server.zone
  | _ => True

/-- The certificates, files and packets that are stored are named after the zone. -/
def Fits {Keys : Type} (services : Services Keys) (db : Database) : Operation → Prop
  | .createZone zoneName _ _ kskCertName dskCertName _ =>
      IssuedAsCert zoneName kskCertName ∧ IssuedAsCert zoneName dskCertName
  | .addRrsetFromFile zoneName inFile _ _ _ => ∀ packet,
      ManagementTool.FileHolds services inFile packet → ManagementTool.FitsZone db zoneName packet
  | .doUpdate server _ packet =>
      InZone server.zone.name packet.data.name ∨ TurnedAway server packet db
  | _ => True

/-- The operation ends, normally or with an exception, for a key chain that names keys after their
identities. -/
def Ends {Keys : Type} (services : Services Keys) (operation : Operation) (db db' : Database) :
    Prop :=
  operation.OfZones db ∧ ManagementTool.KeysOfIdentity services ∧
    ∃ (keys keys' : Keys) (outcome : Except Fault Bool),
      operation.program.run (World.handle services) ⟨db, keys⟩ = (outcome, ⟨db', keys'⟩) ∧
        outcome ≠ .error .undefinedBehavior ∧ outcome ≠ .error .nonTermination

variable {Keys : Type} {services : Services Keys} {db db' : Database}

/-- An operation that meets the condition keeps the names. -/
theorem Ends.named {operation : Operation} (h : operation.Ends services db db')
    (hfits : operation.Fits services db) (hnamed : Named db) : Named db' := by
  obtain ⟨hzones, hkeys, keys, keys', outcome, hrun, -⟩ := h
  have hmeets : Meets services AnyChange operation.program db fun _ db'' ↦ Named db'' := by
    cases operation with
    | createZone zoneName parentZoneName cacheTtl kskCertName dskCertName dkeyCertName =>
        exact (ManagementTool.names_createZone hnamed hkeys hfits.1 hfits.2).discard _
    | addRrset rrset =>
        obtain ⟨zone, hrecord⟩ := hzones
        exact (ManagementTool.names_addRrset hnamed hrecord).discard _
    | addMultiLevelLabelRrset rrset zoneRrFactory authTtl =>
        obtain ⟨zone, hrecord, hsame⟩ := hzones
        exact (ManagementTool.names_addMultiLevelLabelRrset hnamed hrecord hsame).discard _
    | addRrsetFromFile zoneName inFile ttl inputDskCertName needResign =>
        exact (ManagementTool.names_addRrsetFromFile hnamed hfits).discard _
    | removeRrSet zoneName label type =>
        exact (ManagementTool.names_removeRrSet hnamed).discard _
    | doUpdate server interest packet =>
        have hupdate := @meets_doUpdate _ services db _ server interest packet Named hnamed.valid
          hnamed fun _ hmatch ↦ hnamed.updateDatabase hzones hmatch hfits
        refine hupdate.bind (fun answer _ hend ↦ ?_) fun _ _ hend ↦ hend
        cases answer <;> exact meets_pure hend
  have hend := hmeets.run keys
  rwa [hrun] at hend

/-- In a run whose operations meet the condition, every row holds a packet named after it, and the
answer to a query for a record extends the name of the query. -/
theorem run_named
    (hrun : Relation.ReflTransGen (fun before after ↦
      ∃ (Keys : Type) (services : Services Keys) (operation : Operation),
        operation.Fits services before ∧ operation.Ends services before after) Database.empty db) :
    (∀ row ∈ db.rrsets, ∃ zone ∈ db.zones, zone.id = row.zoneId ∧ NamedRow zone.name row) ∧
      ∀ {Keys : Type} (services : Services Keys) (server : NameServer) (interest : Interest)
        (re : Label.MatchResult) (label : Name) (type : Component) (data : Data) (keys : Keys)
        (world : World Keys), Listed db server.zone →
        interest.name = Label.recordName server.zone.name label type →
        Label.matchInterestName interest.name server.zone.name = .matched re →
        (server.handleQuery interest re).Returns (World.handle services) ⟨db, keys⟩ data world →
          interest.name <+: data.name := by
  have hnamed : Named db := by
    induction hrun with
    | refl => exact ⟨valid_empty, singleVersion_empty, by simp [Database.empty]⟩
    | tail _ hstep ih =>
        obtain ⟨Keys, services, operation, hfits, hends⟩ := hstep
        exact hends.named hfits ih
  exact ⟨hnamed.named, fun _ _ _ _ _ _ _ _ _ hlisted hname hmatch hanswer ↦
    hnamed.prefix_of_handleQuery hlisted hname hmatch hanswer⟩

end Operation

end Rows

section Examples

open LocalServices Operation

attribute [local instance] ndnPacketFormat

theorem keysOfIdentity_localServices : ManagementTool.KeysOfIdentity localServices := by
  intro identity time key hkey
  cases hkey
  exact List.prefix_append _ _

set_option maxRecDepth 8000 in
theorem run_named_insertion : updatedDatabase.rrsets ≠ [] ∧ ∀ row ∈ updatedDatabase.rrsets,
    ∃ zone ∈ updatedDatabase.zones, zone.id = row.zoneId ∧ NamedRow zone.name row := by
  have hcreation : creation.Ends localServices Database.empty createdDatabase :=
    ⟨trivial, keysOfIdentity_localServices, 0, _, .ok true, Prod.ext rfl rfl, nofun, nofun⟩
  have hinsertion : insertion.Ends localServices createdDatabase updatedDatabase :=
    ⟨⟨⟨1, [letter 110], 3600⟩, by decide, rfl, rfl⟩, keysOfIdentity_localServices, 0, _, .ok true,
      Prod.ext rfl rfl, nofun, nofun⟩
  have hfits : insertion.Fits localServices createdDatabase := Or.inl ⟨_, rfl, by decide⟩
  exact ⟨nofun, (run_named ((Relation.ReflTransGen.single ⟨ℕ, localServices, creation,
    ⟨Or.inl rfl, Or.inl rfl⟩, hcreation⟩).tail ⟨ℕ, localServices, insertion, hfits, hinsertion⟩)).1⟩

/-- The certificate a key chain makes for a new key by itself. -/
def selfIssued (identity : Name) : Data :=
  ⟨LocalServices.keyName identity ++ [letter 115, Component.fromVersion 0], NdnsContentType.key.toCode, 3600000,
    [], [], []⟩

/-- A key chain that has kept such certificates. -/
def selfIssuingServices : Services ℕ where
  answer
    | .certificates identity, time =>
        (some [selfIssued identity, certificate (LocalServices.keyName identity)], time)
    | request, time => localServices.answer request time

/-- The zone /n, created with the self-issued certificate as that of the DSK. -/
def selfIssuedCreation : Operation :=
  .createZone [letter 110] [] 3600 [] (selfIssued (zoneIdentity [letter 110])).name []

def selfIssuedDatabase : Database :=
  (selfIssuedCreation.program.run (World.handle selfIssuingServices) ⟨Database.empty, 0⟩).2.db

set_option maxRecDepth 8000 in
theorem selfIssuedCreation_ends :
    selfIssuedCreation.Ends selfIssuingServices Database.empty selfIssuedDatabase := by
  refine ⟨trivial, ?_, 0, _, .ok true, Prod.ext rfl rfl, nofun, nofun⟩
  intro identity time key hkey
  cases hkey
  exact List.prefix_append _ _

set_option maxRecDepth 8000 in
/-- The row of the certificate has type CERT, and its packet is named after issuer and key. -/
theorem self_issued_row : ∃ db, Relation.ReflTransGen (fun before after ↦
    ∃ (Keys : Type) (services : Services Keys) (operation : Operation),
      operation.Ends services before after) Database.empty db ∧
    ¬ ∀ row ∈ db.rrsets, ∃ zone ∈ db.zones, zone.id = row.zoneId ∧ NamedRow zone.name row := by
  refine ⟨selfIssuedDatabase, Relation.ReflTransGen.single
    ⟨ℕ, selfIssuingServices, selfIssuedCreation, selfIssuedCreation_ends⟩, fun hnamed ↦ ?_⟩
  have hzones : selfIssuedDatabase.zones = [⟨1, [letter 110], 3600⟩] := rfl
  have hrow : ∃ row ∈ selfIssuedDatabase.rrsets, (Layout.decode row.data).map Data.name ≠
      some (Label.recordName [letter 110] row.label row.type ++ [row.version]) := by decide
  obtain ⟨row, hmem, hname⟩ := hrow
  obtain ⟨zone, hzone, -, packet, hdecode, hpacket⟩ := hnamed row hmem
  rw [hzones, List.mem_singleton] at hzone
  refine hname ?_
  have hdecode' : Layout.decode row.data = some packet := hdecode
  rw [hdecode', Option.map_some, hpacket, hzone]

end Examples

end Ndns.Mgmt
