import Ndns.Clients.Response
import Ndns.Daemon.FactoryRules
import Ndns.Daemon.LocalServices

/-!
# The Record Format Between Server and Client

The server assembles names and contents in `RrsetFactory`, the client takes them apart in
`Response`.  Every record a factory returns is read back as it was generated: the fields of its
key, its content type, its time to live and, for each kind of record, its content.
-/

namespace Ndns.Clients

open Ndn Calls Daemon

theorem map_value_of_mapM_make {strings : List Blob} {type : ℕ}
    {htype : 0 < type ∧ type < 2 ^ 32} {blocks : List Block}
    (h : strings.mapM (Block.make type htype) = some blocks) : blocks.map Block.value = strings := by
  induction strings generalizing blocks with
  | nil =>
      rw [List.mapM_nil] at h
      cases h
      rfl
  | cons value strings ih =>
      rw [List.mapM_cons] at h
      obtain ⟨block, hblock, h⟩ := Option.bind_eq_some_iff.mp h
      obtain ⟨rest, hrest, h⟩ := Option.bind_eq_some_iff.mp h
      cases h
      rw [List.map_cons, (Block.make_eq_some hblock).2, ih hrest]

/-- The strings of a TXT record are the values of the elements of its content. -/
theorem parseBlocks_of_encodeStrings {strings : List Blob} {content : Blob}
    (h : RrsetFactory.encodeStrings strings = some content) :
    ∃ blocks, parseBlocks content = some blocks ∧ blocks.map Block.value = strings := by
  obtain ⟨blocks, hblocks, rfl⟩ := Option.map_eq_some_iff.mp h
  exact ⟨blocks, parseBlocks_flatMap_encode blocks, map_value_of_mapM_make hblocks⟩

section ReadingBack

variable [PacketFormat]

/-- `response` is what a new response object reads from the packet of `rrset`, and it agrees with
the arguments the record was generated from. -/
structure ReadsBack (factory : RrsetFactory) (label : Name) (type : Component) (version : ℕ)
    (ttl : ℤ) (contentType : NdnsContentType) (rrset : Rrset) (data : Data)
    (response : Response) : Prop where
  decode_data : PacketFormat.decode rrset.data = some data
  fromData_data : Response.default.fromData factory.zone.name data = .ok (true, response)
  zone_eq : rrset.zone = some factory.zone ∧ response.zone = factory.zone.name
  queryType_eq : response.queryType = Label.ndnsIterativeQuery
  label_eq : rrset.label = label ∧ response.rrLabel = label
  type_eq : rrset.type = type ∧ response.rrType = type
  version_eq : rrset.version = Component.fromVersion version ∧
    response.version = Component.fromVersion version
  contentType_eq : data.contentType = contentType.toCode ∧ response.contentType = contentType
  freshnessPeriod_eq : (response.freshnessPeriod : ℤ) = factory.effectiveTtl ttl

/-- A generated record is read back when its content can be decoded; what becomes of the content
is told by `wireDecode`. -/
theorem readsBack_of_returns {Keys : Type} {services : Services Keys} {world world' : World Keys}
    {factory : RrsetFactory} {label : Name} {type : Component} {contentType : NdnsContentType}
    {version : ℕ} {ttl : ℤ} {content : Option Blob} {rrset : Rrset}
    (hversion : version ≠ versionUseUnixTimestamp)
    (hcode : NdnsContentType.ofCode contentType.toCode = contentType)
    (h : (factory.generateRrset label type contentType version ttl content).Returns
      (World.handle services) world rrset world')
    (hcontent : ∀ bytes, content = some bytes →
      contentType = .blob ∨ contentType = .key ∨ (parseBlocks bytes).isSome) :
    ∃ data bytes response, content = some bytes ∧ data.content = bytes ∧
      ReadsBack factory label type version ttl contentType rrset data response ∧
      if contentType = .blob ∨ contentType = .key then response.appContent = bytes
      else parseBlocks bytes = some response.rrs := by
  obtain ⟨-, httl, -, number, bytes, data, hnumber, hbytes, hdecode, hrrset, hname, htype,
    hfreshness, hdata⟩ := RrsetFactory.returns_generateRrset_packet h
  rw [hnumber hversion] at hrrset hname
  have hseconds : ((data.freshnessPeriod / 1000 : ℕ) : ℤ) = factory.effectiveTtl ttl := by
    rw [hfreshness]
    omega
  have hread := @Response.fromData_recordName Response.default _ _ _ _ _ hname
  rw [htype, hcode, hdata] at hread
  have hmade : ∀ response : Response,
      Response.default.fromData factory.zone.name data = .ok (true, response) →
      response.zone = factory.zone.name → response.queryType = Label.ndnsIterativeQuery →
      response.rrLabel = label → response.rrType = type →
      response.version = Component.fromVersion version → response.contentType = contentType →
      response.freshnessPeriod = data.freshnessPeriod / 1000 →
      ReadsBack factory label type version ttl contentType rrset data response := by
    intro response hfrom hzone hquery hlabel hrrType hresponse hcontentType hperiod
    rw [hrrset]
    rw [hrrset] at hdecode
    exact ⟨hdecode, hfrom, ⟨rfl, hzone⟩, hquery, ⟨rfl, hlabel⟩, ⟨rfl, hrrType⟩, ⟨rfl, hresponse⟩,
      ⟨htype, hcontentType⟩, by rw [hperiod, hseconds]⟩
  by_cases hraw : contentType = .blob ∨ contentType = .key
  · simp only [Response.wireDecode, if_pos hraw, Except.map] at hread
    refine ⟨data, bytes, _, hbytes, hdata, hmade _ hread rfl rfl rfl rfl rfl rfl rfl, ?_⟩
    rw [if_pos hraw]
  · obtain ⟨blocks, hblocks⟩ := Option.isSome_iff_exists.mp
      ((hcontent bytes hbytes).resolve_left (mt Or.inl hraw) |>.resolve_left (mt Or.inr hraw))
    simp only [Response.wireDecode, if_neg hraw, hblocks, Except.map] at hread
    refine ⟨data, bytes, _, hbytes, hdata, hmade _ hread rfl rfl rfl rfl rfl rfl rfl, ?_⟩
    rw [if_neg hraw, hblocks]
    rfl

/-! ## The five kinds of records -/

/-- Whatever the zone, the label, the version and the content, the client reads the records of the
factory as they were generated. -/
theorem generated_records_readBack {Keys : Type} {services : Services Keys}
    {factory : RrsetFactory} {label : Name} {version : ℕ} {ttl : ℤ}
    (hversion : version ≠ versionUseUnixTimestamp) :
    (∀ delegations world rrset world',
      (factory.generateNsRrset label version ttl delegations).Returns (World.handle services)
        world rrset world' →
      ∃ data response, ReadsBack factory label Label.nsRrType version ttl .link rrset data response ∧
        linkDelegations data = some delegations) ∧
    (∀ strings world rrset world',
      (factory.generateTxtRrset label version ttl strings).Returns (World.handle services)
        world rrset world' →
      ∃ data response, ReadsBack factory label Label.txtRrType version ttl .resp rrset data response ∧
        RrsetFactory.wireDecodeTxt data.content = some strings ∧
        response.rrs.map Block.value = strings) ∧
    (∀ certificate world rrset world',
      (factory.generateCertRrset label version ttl certificate).Returns (World.handle services)
        world rrset world' →
      ∃ data response,
        ReadsBack factory label Label.appcertRrType version ttl .key rrset data response ∧
        blockFromValue response.appContent = PacketFormat.encode certificate) ∧
    (∀ world rrset world',
      (factory.generateAuthRrset label version ttl).Returns (World.handle services)
        world rrset world' →
      ∃ data response, ReadsBack factory label Label.nsRrType version ttl .auth rrset data response ∧
        response.rrs = []) ∧
    (∀ lowerLabel upperLabel world rrset world',
      (factory.generateDoeRrset label version ttl lowerLabel upperLabel).Returns
        (World.handle services) world rrset world' →
      ∃ data response, ReadsBack factory label Label.doeRrType version ttl .doe rrset data response ∧
        Response.wireDecodeDoe data.content = some (lowerLabel, upperLabel)) := by
  refine ⟨fun delegations world rrset world' h ↦ ?_, fun strings world rrset world' h ↦ ?_,
    fun certificate world rrset world' h ↦ ?_, fun world rrset world' h ↦ ?_,
    fun lowerLabel upperLabel world rrset world' h ↦ ?_⟩
  · obtain ⟨data, bytes, response, hbytes, hdata, hread, -⟩ :=
      readsBack_of_returns hversion rfl h fun bytes hbytes ↦ by
        obtain ⟨blocks, hblocks, -⟩ := parseBlocks_of_encodeNames hbytes
        simp [hblocks]
    obtain ⟨blocks, hblocks, hlink, -⟩ := parseBlocks_of_encodeNames hbytes
    refine ⟨data, response, hread, ?_⟩
    rw [linkDelegations, if_pos (show data.contentType = linkContentType from hread.contentType_eq.1), hdata, hblocks, Option.bind_some, hlink]
  · obtain ⟨data, bytes, response, hbytes, hdata, hread, hrrs⟩ :=
      readsBack_of_returns hversion rfl h fun bytes hbytes ↦ by
        obtain ⟨blocks, hblocks, -⟩ := parseBlocks_of_encodeStrings hbytes
        simp [hblocks]
    obtain ⟨blocks, hblocks, hvalues⟩ := parseBlocks_of_encodeStrings hbytes
    rw [if_neg (by decide), hblocks, Option.some.injEq] at hrrs
    refine ⟨data, response, hread, ?_, by rw [← hrrs, hvalues]⟩
    rw [RrsetFactory.wireDecodeTxt, hdata, hblocks, Option.map_some, hvalues]
  · obtain ⟨data, bytes, response, hbytes, -, hread, happ⟩ :=
      readsBack_of_returns hversion rfl h fun _ _ ↦ Or.inr (Or.inl rfl)
    obtain ⟨wire, hwire, rfl⟩ := Option.map_eq_some_iff.mp hbytes
    rw [if_pos (Or.inr rfl)] at happ
    refine ⟨data, response, hread, ?_⟩
    rw [happ, hwire, blockFromValue_contentOf]
    rw [PacketFormat.type_of_encode hwire]
    decide
  · obtain ⟨data, bytes, response, hbytes, -, hread, hrrs⟩ :=
      readsBack_of_returns hversion rfl h fun bytes hbytes ↦ by
        cases hbytes
        exact Or.inr (Or.inr rfl)
    cases hbytes
    rw [if_neg (by decide)] at hrrs
    exact ⟨data, response, hread, (Option.some.inj hrrs).symm⟩
  · obtain ⟨data, bytes, response, hbytes, hdata, hread, -⟩ :=
      readsBack_of_returns hversion rfl h fun bytes hbytes ↦ by
        obtain ⟨blocks, hblocks, -⟩ := parseBlocks_of_encodeNames hbytes
        simp [hblocks]
    exact ⟨data, response, hread, by rw [hdata, Response.wireDecodeDoe_encodeNames hbytes]⟩

end ReadingBack

section Examples

attribute [local instance] ndnPacketFormat

open LocalServices

/-- A factory for the zone /n that has passed its check. -/
def netFactory : RrsetFactory := ⟨⟨1, [letter 110], 3600⟩, certificateName (keyName [letter 110]), true⟩

/-- The packet of a text record with three strings, two of them empty. -/
def textPacket : Data :=
  ⟨Label.recordName [letter 110] [letter 119] Label.txtRrType ++ [Component.fromVersion 7],
    NdnsContentType.resp.toCode, 60000, ((RrsetFactory.encodeStrings [[], [104, 105], []]).getD []),
    [], []⟩

def textRrset : Rrset :=
  ⟨0, some netFactory.zone, [letter 119], Label.txtRrType, Component.fromVersion 7, 60,
    (Layout.encode textPacket).getD Block.invalid⟩

theorem textRrset_readsBack : ∃ data response,
    ReadsBack netFactory [letter 119] Label.txtRrType 7 60 .resp textRrset data response ∧
      RrsetFactory.wireDecodeTxt data.content = some [[], [104, 105], []] ∧
      response.rrs.map Block.value = [[], [104, 105], []] := by
  have hreturns : (netFactory.generateTxtRrset [letter 119] 7 60 [[], [104, 105], []]).Returns
      (World.handle localServices) ⟨⟨[], [], []⟩, 0⟩ textRrset ⟨⟨[], [], []⟩, 0⟩ := rfl
  exact (generated_records_readBack (by decide)).2.1 _ _ _ _ hreturns

end Examples

end Ndns.Clients
