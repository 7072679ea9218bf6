import Ndns.Mgmt.CertificateNames
import Ndns.Mgmt.UndoneAdditions
import Ndns.Validator.RetryBudget

/-!
# Certificates of a Created Zone

`createZone` stores the certificates of the KSK and the DSK under the id of their key.  From then on,
the server of the zone answers each certificate Interest that a validator sends for one of these
keys with the certificate, in every round of every request.  The network delivers the answer when
the issuer is CERT, which certificates from elsewhere need not have; `exportCertificate` is as
particular about it.
-/

namespace Ndns.Mgmt

open Ndn Calls Daemon Validator CertificateFetcherNdnsCert ManagementTool

/-! ## Certificate Interests -/

section Rounds

variable {Certificate : Type} {fetcher : CertificateFetcherNdnsCert}
  {parse : Data → Except String Certificate} {certRequest : CertificateRequest}
  {cached : Option Certificate} {events : List (FetchEvent Certificate)}
  {fetching fetching' : Fetching Certificate}

/-- The request asks for one name, and so does the Interest of each of its rounds. -/
structure Asks (name : Name) (fetching : Fetching Certificate) : Prop where
  request : fetching.certRequest.interest.name = name
  interest : ∀ interest, fetching.waiting = some (.certificate interest) →
    interest.name = name ++ [Label.certRrType] ∧ interest.canBePrefix = true

variable {name : Name}

theorem asks_of_not_certificate (hrequest : fetching.certRequest.interest.name = name)
    (hwaiting : ∀ interest, fetching.waiting ≠ some (.certificate interest)) : Asks name fetching :=
  ⟨hrequest, fun interest hcertificate ↦ absurd hcertificate (hwaiting interest)⟩

theorem Asks.expressInterest (hrequest : fetching.certRequest.interest.name = name)
    (forwardingHint : List Name) : Asks name (expressInterest fetching forwardingHint) := by
  refine ⟨hrequest, fun interest hinterest ↦ ?_⟩
  cases hinterest
  exact ⟨congrArg (· ++ _) hrequest, rfl⟩

theorem Asks.fetch (hrequest : fetching.certRequest.interest.name = name)
    (h : fetcher.fetch cached fetching = .ok fetching') : Asks name fetching' := by
  unfold CertificateFetcherNdnsCert.fetch at h
  split at h
  · cases h
    exact asks_of_not_certificate hrequest nofun
  · unfold doFetch at h
    split at h
    · cases h
    · split_ifs at h <;> cases h
      · exact Asks.expressInterest hrequest []
      · exact asks_of_not_certificate hrequest nofun

theorem Asks.retry (hrequest : fetching.certRequest.interest.name = name)
    (h : fetcher.retry cached fetching = .ok fetching') : Asks name fetching' := by
  unfold CertificateFetcherNdnsCert.retry at h
  have hlost : fetching.loseRetry.certRequest.interest.name = name := hrequest
  split_ifs at h
  · exact Asks.fetch hlost h
  · cases h
    exact asks_of_not_certificate hlost nofun

theorem Asks.handle {event : FetchEvent Certificate} (h : Asks name fetching)
    (hhandle : fetcher.handle parse fetching event = .ok fetching') : Asks name fetching' := by
  cases event with
  | nsSuccess data =>
      change nsSuccessCallback fetching data = .ok fetching' at hhandle
      unfold nsSuccessCallback at hhandle
      split_ifs at hhandle
      · split at hhandle
        · cases hhandle
        · cases hhandle
          exact Asks.expressInterest h.request _
      · cases hhandle
        exact Asks.expressInterest h.request []
  | nsFail errMsg =>
      cases hhandle
      exact Asks.expressInterest h.request []
  | data packet =>
      cases hhandle
      unfold dataCallback
      split <;> exact asks_of_not_certificate h.request nofun
  | nack cached => exact Asks.retry h.request hhandle
  | timeout cached => exact Asks.retry h.request hhandle

/-- In every round, the Interest asks for the CERT record under the name of the key. -/
theorem asks_of_run (hrun : Run fetcher parse certRequest cached events fetching) :
    Asks certRequest.interest.name fetching := by
  induction hrun with
  | start hstart => exact Asks.fetch rfl hstart
  | next _ _ hhandle ih => exact ih.handle hhandle

end Rounds

/-! ## Stored certificates -/

theorem idCertLabel_append (zoneName key : Name) (issuer version : Component) :
    idCertLabel zoneName (zoneIdentity zoneName ++ key ++ [issuer, version]) = key := by
  have hlength : Label.sizeSub (Label.sizeSub
      (zoneIdentity zoneName ++ key ++ [issuer, version]).length zoneName.length) 3 =
        key.length := by
    simp only [Label.sizeSub, zoneIdentity, List.length_append, List.length_cons, List.length_nil]
    split_ifs <;> omega
  have hskip : zoneName.length + 1 = (zoneIdentity zoneName).length := by
    simp [zoneIdentity]
  rw [idCertLabel, hlength, Name.getSubName, List.append_assoc, hskip, List.drop_left,
    List.take_left]

theorem defaultCert_issuer {Keys : Type} {services : Services Keys} {world world' : World Keys}
    {cert : Data} {cacheTtl : ℤ} {identity certName key : Name}
    {signingKey : Option Name}
    (h : (obtainCertificate identity certName signingKey cacheTtl).Returns (World.handle services)
      world (key, cert) world') (hdefault : certName = defaultCert) :
    cert.name.getFromEnd 2 = some Label.certRrType := by
  rcases returns_obtainCertificate h with ⟨-, -, -, timestamp, hname⟩ | ⟨hne, -⟩
  · rw [hname, Name.getFromEnd_append_pair]
  · exact absurd hdefault hne

/-! ## The pattern of an export -/

/-- The groups of the pattern `(<>*)<NDNS>(<>+)<CERT><>`.  It is not anchored at its end. -/
def CertPattern (certName zoneName label : Name) : Prop :=
  label ≠ [] ∧ ∃ version rest, certName =
    zoneName ++ Label.ndnsIterativeQuery :: label ++ Label.certRrType :: version :: rest

/-- A matcher of regular expressions finds groups where there are some. -/
structure ReadsCertPattern (regex : Name → Option (Name × Name)) : Prop where
  sound : ∀ {certName zoneName label : Name}, regex certName = some (zoneName, label) →
    CertPattern certName zoneName label
  complete : ∀ {certName zoneName label : Name}, CertPattern certName zoneName label →
    (regex certName).isSome

/-- Behind the marker, the label is the part of the key. -/
theorem label_eq_of_append {label rest : Name} {keyPart keyId issuer version last : Component}
    (hkeyId : keyId ≠ Label.certRrType) (hlabel : label ≠ [])
    (h : [keyPart, keyId, issuer, version] = label ++ Label.certRrType :: last :: rest) :
    label = [keyPart, keyId] ∧ issuer = Label.certRrType := by
  match label, hlabel with
  | [first], _ =>
      simp only [List.cons_append, List.nil_append, List.cons.injEq] at h
      exact absurd h.2.1 hkeyId
  | [first, second], _ =>
      simp only [List.cons_append, List.nil_append, List.cons.injEq] at h
      exact ⟨by rw [h.1, h.2.1], h.2.2.1⟩
  | first :: second :: third :: more, _ =>
      have hlength := congrArg List.length h
      simp only [List.length_append, List.length_cons, List.length_nil] at hlength
      omega

/-- In the name of a certificate, the groups are the zone and the part of the key. -/
theorem certPattern_iff {zoneName found label : Name} {keyId issuer version : Component}
    (hmarker : Label.ndnsIterativeQuery ∉ zoneName)
    (hkeyId : keyId ≠ Label.certRrType) :
    CertPattern (zoneIdentity zoneName ++ [CertHelper.keyComponent, keyId, issuer, version]) found
      label ↔ found = zoneName ∧ label = [CertHelper.keyComponent, keyId] ∧
        issuer = Label.certRrType := by
  constructor
  · rintro ⟨hlabel, last, rest, hname⟩
    rw [zoneIdentity, List.append_assoc, List.append_assoc] at hname
    simp only [List.cons_append, List.nil_append] at hname
    rcases List.append_eq_append_iff.mp hname with ⟨more, hfound, hrest⟩ | ⟨more, hzone, hrest⟩
    · cases more with
      | nil =>
          rw [List.append_nil] at hfound
          exact ⟨hfound, label_eq_of_append hkeyId hlabel (List.cons.inj hrest).2⟩
      | cons marker more =>
          -- a second marker would leave no room for a label
          have hlength := congrArg List.length hrest
          have hpos := List.length_pos_of_ne_nil hlabel
          simp only [List.length_append, List.length_cons, List.length_nil] at hlength
          obtain rfl : more = [] := List.length_eq_zero_iff.mp (by omega)
          have hkey : CertHelper.keyComponent = Label.ndnsIterativeQuery :=
            (List.cons.inj (List.cons.inj hrest).2).1
          exact absurd hkey (by decide)
    · cases more with
      | nil =>
          rw [List.append_nil] at hzone
          exact ⟨hzone.symm, label_eq_of_append hkeyId hlabel (List.cons.inj hrest).2.symm⟩
      | cons marker more =>
          refine absurd ?_ hmarker
          rw [hzone, ← (List.cons.inj hrest).1]
          simp
  · rintro ⟨rfl, rfl, rfl⟩
    exact ⟨by simp, version, [], by simp [zoneIdentity]⟩

section

variable [PacketFormat]

/-- The tables hold a certificate under the id of its key. -/
structure Holding (zoneName : Name) (zoneId : ℕ) (cert : Data) (keyId issuer version : Component)
    (db : Database) : Prop where
  name : cert.name = zoneIdentity zoneName ++ [CertHelper.keyComponent, keyId, issuer, version]
  row : ∃ row ∈ records db zoneId, row.label = [CertHelper.keyComponent, keyId] ∧
    row.type = Label.certRrType ∧ PacketFormat.encode cert = some row.data

theorem ManagementTool.HoldsCert.holding {zoneName : Name} {zoneId : ℕ} {cacheTtl : ℤ} {cert : Data}
    {row : RrsetRow} {keyId issuer version : Component} {db : Database}
    (h : HoldsCert zoneName zoneId cacheTtl cert row) (hrow : row ∈ records db zoneId)
    (hname : cert.name =
      zoneIdentity zoneName ++ [CertHelper.keyComponent, keyId, issuer, version]) :
    Holding zoneName zoneId cert keyId issuer version db := by
  refine ⟨hname, row, hrow, ?_, h.type, h.data⟩
  have hsplit : cert.name =
      zoneIdentity zoneName ++ [CertHelper.keyComponent, keyId] ++ [issuer, version] := by
    rw [hname, List.append_assoc]
    rfl
  rw [h.label, hsplit, idCertLabel_append]

/-- An addition of an NS or TXT record leaves the other records. -/
theorem mem_records_of_adds {zoneName : Name} {zoneId : ℕ} {db db' : Database}
    (hserves : Serves zoneName zoneId db) (hadds : AddsRecord db db') {row : RrsetRow}
    (hrow : row ∈ records db zoneId)
    (htype : row.type ≠ Label.nsRrType ∧ row.type ≠ Label.txtRrType) :
    row ∈ records db' zoneId := by
  obtain ⟨Keys, services, keys, keys', other, label, dsk, type, version, ttl, delegations, strings,
    hadded, hreturns⟩ := hadds
  have hworld : Serves zoneName zoneId (World.mk db keys).db := hserves
  by_cases hother : other = zoneName
  · subst hother
    obtain ⟨rrset, -, rfl, auths, id, zoneId', hrows, -⟩ := records_addRr hworld hadded hreturns
    rw [hrows]
    refine mem_replaceRow.mpr (Or.inl ⟨List.mem_append_left _ hrow, fun hkey ↦ ?_⟩)
    have hsame : row.type = rrset.type := (recordKey_eq_iff.mp hkey).2
    rcases hadded with hns | htxt
    · exact htype.1 (hsame.trans hns)
    · exact htype.2 (hsame.trans htxt)
  · obtain ⟨zoneRow, hzoneRow, rfl, rfl⟩ := hserves.zone
    have htouches := touches_addRr hworld.valid hadded hreturns
    have hrows := htouches.rows zoneRow hzoneRow (Ne.symm hother)
    rwa [records_eq_rowsOf, hrows, ← records_eq_rowsOf]

theorem Holding.additions {zoneName : Name} {zoneId : ℕ} {cert : Data}
    {keyId issuer version : Component} {db db' : Database}
    (h : Holding zoneName zoneId cert keyId issuer version db) (hserves : Serves zoneName zoneId db)
    (hadditions : Relation.ReflTransGen AddsRecord db db') :
    Holding zoneName zoneId cert keyId issuer version db' ∧ Serves zoneName zoneId db' := by
  induction hadditions with
  | refl => exact ⟨h, hserves⟩
  | tail _ hadds ih =>
      obtain ⟨⟨hname, row, hrow, hlabel, htype, hdata⟩, hserves'⟩ := ih
      have hother : row.type ≠ Label.nsRrType ∧ row.type ≠ Label.txtRrType := by
        rw [htype]
        decide
      exact ⟨⟨hname, row, mem_records_of_adds hserves' hadds hrow hother, hlabel, htype, hdata⟩,
        hserves'.addsRecord hadds⟩

variable {Keys : Type} {services : Services Keys} {world world' : World Keys} {zone : Zone}
  {zoneName parentZoneName kskCertName dskCertName dkeyCertName : Name} {cacheTtl : ℤ}
  {cert : Data} {keyId issuer version : Component} {db : Database}

/-- The certificates of a new zone, and who may have issued them. -/
theorem holdings_createZone (hnames : NamesKeys services) (hvalid : world.db.Valid)
    (h : (createZone zoneName parentZoneName cacheTtl kskCertName dskCertName dkeyCertName).Returns
      (World.handle services) world zone world') :
    ∃ kskCert dskCert, HasInfo world'.db zone.id "ksk" kskCert ∧
      HasInfo world'.db zone.id "dsk" dskCert ∧
      (kskCertName = defaultCert → kskCert.name.getFromEnd 2 = some Label.certRrType) ∧
      (dskCertName = defaultCert → dskCert.name.getFromEnd 2 = some Label.certRrType) ∧
      ∀ cert ∈ [kskCert, dskCert], ∃ keyId issuer version,
        Holding zoneName zone.id cert keyId issuer version world'.db := by
  obtain ⟨prepared, dkeyCert, kskCert, dskCert, hprepares, hrows⟩ := returns_createZone_rows h
  have hname : (DbMgr.lookupZone world.db (Zone.make zoneName cacheTtl)).name = zoneName :=
    DbMgr.lookupZone_name _ _
  have hends := @establishes_addZoneRows _ services world.db
    (DbMgr.lookupZone world.db (Zone.make zoneName cacheTtl)) _ cacheTtl dkeyCert kskCert dskCert
    hvalid fun habsent ↦ lookupZone_ttl (hname ▸ habsent)
  have hprepared : prepared = ⟨world.db, prepared.keys⟩ := by rw [← hprepares.db_eq]
  rw [hprepared] at hrows
  have hestablished := hends.run prepared.keys
  rw [hrows, hname] at hestablished
  obtain ⟨kskRow, dskRow, hrecords, hkskRow, hdskRow, -⟩ := hestablished.records
  have hmem : ∀ row ∈ [kskRow, dskRow], row ∈ records world'.db zone.id := by
    intro row hrow
    rw [hrecords]
    exact List.mem_append_right _ hrow
  obtain ⟨_, _, _, _, hksk⟩ := hprepares.ksk
  obtain ⟨_, _, _, _, hdsk⟩ := hprepares.dsk
  refine ⟨kskCert, dskCert, hestablished.info.1, hestablished.info.2.1, defaultCert_issuer hksk,
    defaultCert_issuer hdsk, fun cert hcert ↦ ?_⟩
  rcases List.mem_cons.mp hcert with rfl | hcert
  · obtain ⟨keyId, issuer, version, hcertName⟩ := certifies_of_obtainCertificate hnames hksk
    exact ⟨keyId, issuer, version, hkskRow.holding (hmem _ (by simp)) hcertName⟩
  · rw [List.mem_singleton.mp hcert]
    obtain ⟨keyId, issuer, version, hcertName⟩ := certifies_of_obtainCertificate hnames hdsk
    exact ⟨keyId, issuer, version, hdskRow.holding (hmem _ (by simp)) hcertName⟩

/-! ## Answers -/

/-- The answer to the certificate Interest of the key. -/
theorem Holding.run_onInterest {server : NameServer}
    (h : Holding server.zone.name server.zone.id cert keyId issuer version db)
    (hserves : Serves server.zone.name server.zone.id db) {interest : Interest}
    (hinterest : interest.name = certificateKeyName cert.name ++ [Label.certRrType]) (keys : Keys) :
    (server.onInterest interest).run (World.handle services) ⟨db, keys⟩ =
        (.ok (some cert), ⟨db, keys⟩) ∧
      (cert.matches interest ↔ issuer = Label.certRrType) := by
  obtain ⟨row, hrow, hlabel, htype, hdata⟩ := h.row
  rw [h.name, certificateKeyName_append] at hinterest
  have hname : interest.name = Label.recordName server.zone.name [CertHelper.keyComponent, keyId]
      Label.certRrType := by
    rw [hinterest]
    simp [zoneIdentity, Label.recordName]
  constructor
  · have hmatch : Label.matchInterestName interest.name server.zone.name =
        .matched ⟨[CertHelper.keyComponent, keyId], Label.certRrType, Component.empty⟩ := by
      rw [hname]
      exact Label.matchInterestName_recordName _ _ (by decide)
    have hkey := keyRow_of_mem hserves.shape.keys hrow
    rw [hlabel, htype] at hkey
    exact run_onInterest_found hmatch (show Label.certRrType ≠ _ by decide) hkey
      (hserves.valid.ids_pos row (mem_records.mp hrow).1).ne' (Or.inl rfl)
      (PacketFormat.decode_of_encode hdata)
  · rw [Data.matches, hinterest, h.name, List.append_assoc, List.prefix_append_right_inj]
    simp [eq_comm]

/-- In every round of every request for the key of a certificate, the server answers with the
certificate.  The answer belongs to the Interest if the issuer is CERT, and ends the request. -/
def Supplies (server : NameServer) (db : Database) (cert : Data) : Prop :=
  ∀ (Certificate : Type) (fetcher : CertificateFetcherNdnsCert)
    (parse : Data → Except String Certificate) (certRequest : CertificateRequest)
    (cached : Option Certificate) (events : List (FetchEvent Certificate))
    (fetching : Fetching Certificate) (interest : Interest),
    certRequest.interest.name = certificateKeyName cert.name →
    Run fetcher parse certRequest cached events fetching →
    fetching.waiting = some (.certificate interest) →
      (∀ (Serving : Type) (serving : Services Serving) (keys : Serving),
        (server.onInterest interest).run (World.handle serving) ⟨db, keys⟩ =
          (.ok (some cert), ⟨db, keys⟩)) ∧
      (cert.matches interest ↔ cert.name.getFromEnd 2 = some Label.certRrType) ∧
      ∀ certificate, parse cert = .ok certificate → fetcher.handle parse fetching (.data cert) =
        .ok (fetching.finish [.removeTag, .continueValidation certificate])

theorem Holding.issuer_eq (h : Holding zoneName zone.id cert keyId issuer version db) :
    cert.name.getFromEnd 2 = some issuer := by
  have hsplit : cert.name =
      zoneIdentity zoneName ++ [CertHelper.keyComponent, keyId] ++ [issuer, version] := by
    rw [h.name, List.append_assoc]
    rfl
  rw [hsplit, Name.getFromEnd_append_pair]

theorem Holding.keyId_eq (h : Holding zoneName zone.id cert keyId issuer version db) :
    cert.name.getFromEnd 3 = some keyId := by
  rw [h.name]
  simp [Name.getFromEnd]

/-- After the creation of a zone and any additions of records, the certificates of its KSK and its
DSK can be fetched from its server if their issuer is CERT, as it is when they were generated. -/
theorem certificates_fetched (hnames : NamesKeys services) (hvalid : world.db.Valid)
    (howned : ∀ row ∈ world.db.rrsets, ∃ zone ∈ world.db.zones, zone.id = row.zoneId)
    (hcreate : (createZone zoneName parentZoneName cacheTtl kskCertName dskCertName
      dkeyCertName).Returns (World.handle services) world zone world')
    (hadditions : Relation.ReflTransGen AddsRecord world'.db db) {server : NameServer}
    (hserver : server.zone.id = zone.id ∧ server.zone.name = zoneName) :
    ∃ kskCert dskCert, HasInfo world'.db zone.id "ksk" kskCert ∧
      HasInfo world'.db zone.id "dsk" dskCert ∧
      (kskCertName = defaultCert → kskCert.name.getFromEnd 2 = some Label.certRrType) ∧
      (dskCertName = defaultCert → dskCert.name.getFromEnd 2 = some Label.certRrType) ∧
      ∀ cert ∈ [kskCert, dskCert], Supplies server db cert := by
  obtain ⟨kskCert, dskCert, hksk, hdsk, hkskIssuer, hdskIssuer, hholdings⟩ :=
    holdings_createZone hnames hvalid hcreate
  refine ⟨kskCert, dskCert, hksk, hdsk, hkskIssuer, hdskIssuer, fun cert hcert ↦ ?_⟩
  obtain ⟨keyId, issuer, version, hcreated⟩ := hholdings cert hcert
  obtain ⟨hholding, hserves⟩ :=
    hcreated.additions (serves_createZone hvalid howned hcreate) hadditions
  obtain ⟨hserverId, rfl⟩ := hserver
  intro Certificate fetcher parse certRequest cached events fetching interest hrequest hrun hwaiting
  have hinterest := ((asks_of_run hrun).interest interest hwaiting).1
  rw [hrequest] at hinterest
  rw [← hserverId] at hholding hserves
  refine ⟨fun Serving serving keys ↦ (hholding.run_onInterest hserves hinterest keys).1, ?_, ?_⟩
  · rw [hcreated.issuer_eq, Option.some.injEq]
    have hanswer := @Holding.run_onInterest _ _ services _ _ _ _ _ server hholding hserves _ hinterest
    exact (hanswer world.keys).2
  · intro certificate hparse
    change Except.ok (dataCallback parse fetching cert) = _
    rw [dataCallback, hparse]

/-! ## Exports -/

/-- `ManagementTool::exportCertificate`, up to the output of the certificate.  `regex` gives the two
groups of the pattern, and `parse` is the constructor of the certificate. -/
def ManagementTool.exportCertificate {Certificate : Type} (regex : Name → Option (Name × Name))
    (parse : Data → Except String Certificate) (certName : Name) : Prog Certificate := do
  let (zoneName, label) ←
    orThrow (regex certName) (.managementToolError "Certificate name is illegal" [])
  let (found, rrset) ← DbMgr.findRrset (Rrset.keyed (Zone.named zoneName) label Label.certRrType)
  require (found = true) (.managementToolError "Cannot find the cert:" certName)
  let packet ← orThrow (PacketFormat.decode rrset.data) .tlvError
  orThrow (parse packet).toOption .tlvError

variable {Certificate Serving : Type} {serving : Services Serving} {keys : Serving}
  {regex : Name → Option (Name × Name)} {parse : Data → Except String Certificate}

/-- The lookup of an export finds the certificate under the id of its key. -/
theorem Holding.run_findRrset (h : Holding zoneName zone.id cert keyId issuer version db)
    (hserves : Serves zoneName zone.id db) : ∃ rrset,
      (DbMgr.findRrset (Rrset.keyed (Zone.named zoneName) [CertHelper.keyComponent, keyId]
        Label.certRrType)).run (World.handle serving) ⟨db, keys⟩ = (.ok (true, rrset), ⟨db, keys⟩) ∧
      PacketFormat.decode rrset.data = some cert := by
  obtain ⟨row, hrow, hlabel, htype, hdata⟩ := h.row
  have hkey := keyRow_of_mem hserves.shape.keys hrow
  rw [hlabel, htype] at hkey
  have hpos := (hserves.valid.ids_pos row (mem_records.mp hrow).1).ne'
  have hzone : zone.id ≠ 0 := by
    obtain ⟨zoneRow, hzoneRow, hid, -⟩ := hserves.zone
    rw [← hid]
    exact (hserves.valid.zoneIds_pos zoneRow hzoneRow).ne'
  refine ⟨{ (Rrset.keyed (Zone.named zoneName) [CertHelper.keyComponent, keyId]
    Label.certRrType).fill row with zone := some (DbMgr.lookupZone db (Zone.named zoneName)) }, ?_,
    PacketFormat.decode_of_encode hdata⟩
  rw [DbMgr.run_findRrset rfl, resolveZone_named, hserves.lookupZone]
  simp only [DbMgr.pick, hserves.lookupZone, if_neg hzone, Rrset.keyed, hkey, decide_eq_true hpos]

/-- An export of a certificate in the tables. -/
theorem Holding.run_exportCertificate (h : Holding zoneName zone.id cert keyId issuer version db)
    (hserves : Serves zoneName zone.id db) (hregex : ReadsCertPattern regex)
    (hmarker : Label.ndnsIterativeQuery ∉ zoneName) (hkeyId : keyId ≠ Label.certRrType) :
    (exportCertificate regex parse cert.name).run (World.handle serving) ⟨db, keys⟩ =
      (if issuer = Label.certRrType then
          match parse cert with
          | .ok certificate => .ok certificate
          | .error _ => .error .tlvError
        else .error (.managementToolError "Certificate name is illegal" []), ⟨db, keys⟩) := by
  have hgroups := fun found label ↦ @certPattern_iff zoneName found label keyId issuer version hmarker
    hkeyId
  rw [← h.name] at hgroups
  cases hmatch : regex cert.name with
  | none =>
      have hissuer : issuer ≠ Label.certRrType := by
        intro hcert
        have hsome := hregex.complete ((hgroups _ _).mpr ⟨rfl, rfl, hcert⟩)
        rw [hmatch] at hsome
        cases hsome
      rw [if_neg hissuer, exportCertificate, hmatch]
      rfl
  | some groups =>
      obtain ⟨rfl, hlabel, hissuer⟩ := (hgroups groups.1 groups.2).mp (hregex.sound hmatch)
      obtain ⟨rrset, hfind, hdecode⟩ := h.run_findRrset hserves
      rw [if_pos hissuer, exportCertificate, hmatch]
      simp only [orThrow, Program.run_bind, Program.run_pure, hlabel]
      rw [hfind]
      simp only [require, if_pos, Program.run_pure, hdecode]
      cases parse cert <;> rfl

/-- After the creation of a zone and any additions of records, the certificates of its KSK and its
DSK can be exported by name if their issuer is CERT.  The name of another is taken as illegal. -/
theorem certificates_exported (hnames : NamesKeys services) (hvalid : world.db.Valid)
    (howned : ∀ row ∈ world.db.rrsets, ∃ zone ∈ world.db.zones, zone.id = row.zoneId)
    (hcreate : (createZone zoneName parentZoneName cacheTtl kskCertName dskCertName
      dkeyCertName).Returns (World.handle services) world zone world')
    (hadditions : Relation.ReflTransGen AddsRecord world'.db db)
    (hregex : ReadsCertPattern regex) (hmarker : Label.ndnsIterativeQuery ∉ zoneName) :
    ∃ kskCert dskCert, HasInfo world'.db zone.id "ksk" kskCert ∧
      HasInfo world'.db zone.id "dsk" dskCert ∧
      ∀ cert ∈ [kskCert, dskCert], cert.name.getFromEnd 3 ≠ some Label.certRrType →
        (exportCertificate regex parse cert.name).run (World.handle serving) ⟨db, keys⟩ =
          (if cert.name.getFromEnd 2 = some Label.certRrType then
              match parse cert with
              | .ok certificate => .ok certificate
              | .error _ => .error .tlvError
            else .error (.managementToolError "Certificate name is illegal" []), ⟨db, keys⟩) := by
  obtain ⟨kskCert, dskCert, hksk, hdsk, -, -, hholdings⟩ :=
    holdings_createZone hnames hvalid hcreate
  refine ⟨kskCert, dskCert, hksk, hdsk, fun cert hcert hkeyId ↦ ?_⟩
  obtain ⟨keyId, issuer, version, hcreated⟩ := hholdings cert hcert
  obtain ⟨hholding, hserves⟩ :=
    hcreated.additions (serves_createZone hvalid howned hcreate) hadditions
  rw [hcreated.keyId_eq] at hkeyId
  rw [hholding.run_exportCertificate hserves hregex hmarker fun hcert ↦ hkeyId (by rw [hcert]),
    hcreated.issuer_eq]
  simp only [Option.some.injEq]

end

section Examples

open LocalServices NameServer

attribute [local instance] ndnPacketFormat

theorem text_additions : Relation.ReflTransGen AddsRecord netZone (withText [letter 119] netZone) :=
  .single (withText_adds [letter 119] netZone (by decide +kernel))

theorem certificates_fetched_text : ∃ kskCert dskCert, HasInfo netZone 1 "ksk" kskCert ∧
    HasInfo netZone 1 "dsk" dskCert ∧ ∀ cert ∈ [kskCert, dskCert],
      cert.name.getFromEnd 2 = some Label.certRrType ∧
        Supplies netServer (withText [letter 119] netZone) cert := by
  have hserver : netServer.zone.id = 1 ∧ netServer.zone.name = [letter 110] := ⟨rfl, rfl⟩
  obtain ⟨kskCert, dskCert, hksk, hdsk, hkskIssuer, hdskIssuer, hsupplies⟩ :=
    certificates_fetched namesKeys_localServices Database.valid_empty (by simp [Database.empty])
      netZone_step text_additions hserver
  refine ⟨kskCert, dskCert, hksk, hdsk, fun cert hcert ↦ ⟨?_, hsupplies cert hcert⟩⟩
  rcases List.mem_cons.mp hcert with rfl | hcert
  · exact hkskIssuer rfl
  · rw [List.mem_singleton.mp hcert]
    exact hdskIssuer rfl

theorem certPattern_iff_prefix {certName zoneName label : Name} :
    CertPattern certName zoneName label ↔ label ≠ [] ∧
      zoneName ++ Label.ndnsIterativeQuery :: label ++ [Label.certRrType] <+: certName ∧
      (zoneName ++ Label.ndnsIterativeQuery :: label ++ [Label.certRrType]).length <
        certName.length := by
  refine and_congr_right fun _ ↦ ⟨?_, ?_⟩
  · rintro ⟨version, rest, rfl⟩
    exact ⟨⟨version :: rest, by simp⟩, by simp⟩
  · rintro ⟨⟨rest, rfl⟩, hlength⟩
    cases rest with
    | nil => simp at hlength
    | cons version rest => exact ⟨version, rest, by simp⟩

instance (certName zoneName label : Name) : Decidable (CertPattern certName zoneName label) :=
  decidable_of_iff' _ certPattern_iff_prefix

/-- The groups of the pattern, long zones and then long labels last. -/
def certPatternGroups (certName : Name) : List (Name × Name) :=
  (certName.inits.flatMap fun zoneName ↦
    (certName.drop (zoneName.length + 1)).inits.map (Prod.mk zoneName)).filter fun groups ↦
      CertPattern certName groups.1 groups.2

theorem mem_certPatternGroups {certName zoneName label : Name} :
    (zoneName, label) ∈ certPatternGroups certName ↔ CertPattern certName zoneName label := by
  simp only [certPatternGroups, List.mem_filter, List.mem_flatMap, List.mem_map, List.mem_inits,
    decide_eq_true_eq]
  refine ⟨And.right, fun hpattern ↦ ⟨⟨zoneName, ?_, label, ?_, rfl⟩, hpattern⟩⟩
  all_goals obtain ⟨-, version, rest, rfl⟩ := hpattern
  · simp [List.append_assoc]
  · simp [List.append_assoc]

theorem readsCertPattern_getLast : ReadsCertPattern fun certName ↦
    (certPatternGroups certName).getLast? where
  sound := by
    intro certName zoneName label hlast
    exact mem_certPatternGroups.mp (List.mem_of_getLast? hlast)
  complete := by
    intro certName zoneName label hpattern
    have hmem := mem_certPatternGroups.mpr hpattern
    rw [List.getLast?_isSome]
    exact List.ne_nil_of_mem hmem

/-- The export of a certificate from the zone /n. -/
def netExport (certName : Name) : Except Fault Data × World ℕ :=
  (exportCertificate (fun name ↦ (certPatternGroups name).getLast?) (fun data ↦ .ok data)
    certName).run (World.handle localServices) ⟨withText [letter 119] netZone, 0⟩

theorem netZone_certificates : ∀ info ∈ netZone.zoneInfo, (PacketFormat.decode info.value).all
    fun cert ↦ cert.name.getFromEnd 3 ≠ some Label.certRrType ∧
      cert.name.getFromEnd 2 = some Label.certRrType := by
  decide +kernel

theorem certificates_exported_text : ∃ kskCert dskCert, HasInfo netZone 1 "ksk" kskCert ∧
    HasInfo netZone 1 "dsk" dskCert ∧ ∀ cert ∈ [kskCert, dskCert],
      netExport cert.name = (.ok cert, ⟨withText [letter 119] netZone, 0⟩) := by
  obtain ⟨kskCert, dskCert, hksk, hdsk, hexports⟩ :=
    @certificates_exported _ _ localServices ⟨Database.empty, 0⟩ _ _ [letter 110] [] [] [] [] 3600 _ _
      _ localServices (0 : ℕ) _ (fun data ↦ .ok data) namesKeys_localServices Database.valid_empty
      (by simp [Database.empty]) netZone_step text_additions readsCertPattern_getLast (by decide)
  refine ⟨kskCert, dskCert, hksk, hdsk, fun cert hcert ↦ ?_⟩
  have hinfo : ∃ key, HasInfo netZone 1 key cert := by
    rcases List.mem_cons.mp hcert with rfl | hcert
    · exact ⟨_, hksk⟩
    · rw [List.mem_singleton.mp hcert]
      exact ⟨_, hdsk⟩
  obtain ⟨key, wire, hwire, hmem⟩ := hinfo
  have hall := netZone_certificates _ hmem
  rw [PacketFormat.decode_of_encode hwire, Option.all_some, decide_eq_true_iff] at hall
  rw [netExport, hexports cert hcert hall.1, if_pos hall.2]

end Examples

end Ndns.Mgmt
