import Ndns.Daemon.FailingStatements
import Ndns.Mgmt.DurableAdditions

/-!
# Reading What Was Written

`doUpdate` and `addRrsetFromFile` take the last two components of a packet name for the type and
the version, whatever they are.  `onInterest` takes the last component for a version only if it is
a Version component, and a type UPDATE for an update.  What was written is read back where the two
readings agree.
-/

namespace Ndns.Label

open Ndn

variable {zone label : Name} {rrType version : Component} {re : MatchResult}

/-- An Interest named after a packet is read as a query for its record only if it ends in a
version. -/
theorem isVersion_of_matchInterestName
    (h : matchInterestName (recordName zone label rrType ++ [version]) zone = .matched re)
    (hlabel : re.rrLabel = label) : version.isVersion = true := by
  have hpair : recordName zone label rrType ++ [version] =
      recordName zone (label ++ [rrType]) version := by simp [recordName]
  cases hversion : version.isVersion with
  | true => rfl
  | false =>
      rw [hpair, matchInterestName_recordName _ _ hversion, MatchOutcome.matched.injEq] at h
      rw [← h] at hlabel
      simp at hlabel

/-- An Interest named after a record is read as a query for it only if its type is no version. -/
theorem isVersion_eq_false_of_matchInterestName
    (h : matchInterestName (recordName zone label rrType) zone = .matched re)
    (hlabel : re.rrLabel = label) : rrType.isVersion = false := by
  cases htype : rrType.isVersion with
  | false => rfl
  | true =>
      rcases matchInterestName_versionType htype h with ⟨rfl, rfl⟩ | ⟨shorter, type, rfl, rfl⟩
      · simp at hlabel
      · simp at hlabel

end Ndns.Label

namespace Ndns.Daemon.Database

open DbMgr

/-- With one row for each key, the first row under a key is the only one. -/
theorem SingleVersion.tail_rowsAt {db : Database} (h : db.SingleVersion) (zoneId : ℕ)
    (label : Ndn.Name) (type : Ndn.Component) : (rowsAt db zoneId label type).tail = [] := by
  have hnodup : ((rowsAt db zoneId label type).map RrsetRow.key).Nodup :=
    (((List.perm_insertionSort _ _).map _).nodup_iff).mpr (nodup_map_filter h _)
  have hkey : ∀ row ∈ rowsAt db zoneId label type, row.key = (zoneId, label, type) := by
    intro row hrow
    obtain ⟨-, hzone, hlabel, htype⟩ := mem_rowsAt.mp hrow
    simp only [RrsetRow.key, hzone, hlabel, htype]
  rcases hrows : rowsAt db zoneId label type with _ | ⟨first, _ | ⟨second, rest⟩⟩
  · rfl
  · rfl
  · rw [hrows] at hnodup hkey
    have hsame : first.key = second.key :=
      (hkey first (by simp)).trans (hkey second (by simp)).symm
    simp [hsame] at hnodup

/-- The rows of a key are all there is to find under it. -/
theorem rowsAt_rowsAt {db : Database} {zoneId : ℕ} {label : Ndn.Name} {type : Ndn.Component} :
    rowsAt { db with rrsets := rowsAt db zoneId label type } zoneId label type =
      rowsAt db zoneId label type := by
  have hall : (rowsAt db zoneId label type).filter (fun row ↦ row.hasKey zoneId label type) =
      rowsAt db zoneId label type :=
    List.filter_eq_self.mpr fun row hrow ↦ RrsetRow.hasKey_iff.mpr (mem_rowsAt.mp hrow).2
  refine (congrArg (List.insertionSort _) hall).trans (List.Pairwise.insertionSort_eq ?_)
  exact List.pairwise_insertionSort _ _

end Ndns.Daemon.Database

namespace Ndns.Mgmt

open Ndn Calls Daemon DbMgr Database NameServer

/-! ## Answers -/

section Answers

variable {Keys : Type} {services : Services Keys} {server : NameServer} {interest : Interest}
  {world world' : World Keys} {answer : Data}

variable [PacketFormat]

theorem stamped_doUpdate {packet : Received}
    (h : (doUpdate server interest packet).Returns (World.handle services) world (some answer)
      world') : Stamped services interest answer := by
  unfold doUpdate at h
  split at h
  · exact (Program.returns_throw.mp h).elim
  · exact nomatch (Program.returns_pure.mp h).1
  · obtain ⟨name, _, hname, h⟩ := Program.returns_bind.mp h
    obtain ⟨_, _, -, h⟩ := Program.returns_bind.mp h
    obtain ⟨reply, _, hsigned, h⟩ := Program.returns_bind.mp h
    obtain ⟨hreply, -⟩ := Program.returns_pure.mp h
    rw [← Option.some.inj hreply]
    exact stamped_signed hname rfl hsigned

/-- What the server answers: a packet of its own, or the packet of the row that the Interest is
read as a query for. -/
theorem returns_onInterest
    (h : (onInterest server interest).Returns (World.handle services) world (some answer) world') :
    Stamped services interest answer ∨ ∃ re row,
      Label.matchInterestName interest.name server.zone.name = .matched re ∧
      re.rrType ≠ Label.ndnsUpdateLabel ∧
      keyRow world.db server.zone.id re.rrLabel re.rrType = some row ∧
      PacketFormat.decode row.data = some answer := by
  unfold onInterest at h
  split at h
  · exact (Program.returns_throw.mp h).elim
  · exact nomatch (Program.returns_pure.mp h).1
  · rename_i re hmatch
    split_ifs at h with hupdate
    · left
      unfold handleUpdate at h
      split at h
      · exact nomatch (Program.returns_pure.mp h).1
      · obtain ⟨accepted, _, -, h⟩ := Program.returns_bind.mp h
        cases accepted with
        | false => exact nomatch (Program.returns_pure.mp h).1
        | true => exact stamped_doUpdate h
    · have hquery : (handleQuery server interest re >>= fun data ↦ pure (some data)).Returns
          (World.handle services) world (some answer) world' := h
      obtain ⟨data, _, hquery, hdata⟩ := Program.returns_bind.mp hquery
      rw [Program.returns_pure, Option.some.injEq] at hdata
      rw [hdata.1, Program.Returns, run_handleQuery] at hquery
      cases hrow : keyRow world.db server.zone.id re.rrLabel re.rrType with
      | none =>
          rw [hrow] at hquery
          exact Or.inl (stamped_denyQuery hquery)
      | some row =>
          rw [hrow] at hquery
          simp only at hquery
          split_ifs at hquery
          · exact Or.inr ⟨re, row, hmatch, hupdate, hrow, (returns_orThrow.mp hquery).1⟩
          · exact Or.inl (stamped_denyQuery hquery)

/-- A query is answered with the packet in the row it is read as a query for. -/
theorem run_onInterest_found {re : Label.MatchResult} {row : RrsetRow}
    (hmatch : Label.matchInterestName interest.name server.zone.name = .matched re)
    (hupdate : re.rrType ≠ Label.ndnsUpdateLabel)
    (hrow : keyRow world.db server.zone.id re.rrLabel re.rrType = some row) (hid : row.id ≠ 0)
    (hversion : re.version.isEmpty = true ∨ re.version = row.version)
    (hdecode : PacketFormat.decode row.data = some answer) :
    (onInterest server interest).run (World.handle services) world = (.ok (some answer), world) := by
  unfold onInterest
  rw [hmatch]
  simp only [if_neg hupdate]
  rw [Program.run_map, run_handleQuery, hrow]
  simp only
  rw [if_pos ⟨hid, hversion⟩, hdecode]
  rfl

end Answers

/-! ## Reading back -/

/-- The services of a process at one moment. -/
def stoppedClock (time : ℕ) : Services Unit :=
  ⟨fun request keys ↦ ((localServices.answer request time).1, keys)⟩

section Reading

variable [PacketFormat]

/-- The packet in the row that is found under the key. -/
def HeldAt (server : NameServer) (label : Name) (type version : Component) (data : Data)
    (db : Database) : Prop :=
  ∃ row, keyRow db server.zone.id label type = some row ∧ row.id ≠ 0 ∧ row.version = version ∧
    PacketFormat.decode row.data = some data

/-- As long as the rows under the key stay the same, whatever happens to other records, to the key
chain and to the clock, the Interests for the name of the packet and for the name of its record are
answered with the packet. -/
def ReadBack (server : NameServer) (label : Name) (type version : Component) (data : Data)
    (db : Database) : Prop :=
  ∀ (Keys : Type) (services : Services Keys) (later : World Keys) (interest : Interest),
    rowsAt later.db server.zone.id label type = rowsAt db server.zone.id label type →
    interest.name = Label.recordName server.zone.name label type ++ [version] ∨
      interest.name = Label.recordName server.zone.name label type →
    (onInterest server interest).run (World.handle services) later = (.ok (some data), later)

variable {server : NameServer} {label : Name} {type version : Component} {data : Data}
  {db : Database}

theorem HeldAt.readBack (h : HeldAt server label type version data db)
    (hversion : version.isVersion = true) (htype : type.isVersion = false)
    (hupdate : type ≠ Label.ndnsUpdateLabel) : ReadBack server label type version data db := by
  intro Keys services later interest hrows hname
  obtain ⟨row, hrow, hid, hrowVersion, hdecode⟩ := h
  have hlater : keyRow later.db server.zone.id label type = some row := by
    rw [keyRow_eq_head?, hrows, ← keyRow_eq_head?, hrow]
  rcases hname with hname | hname
  · have hmatch := Label.matchInterestName_recordName_version server.zone.name label type hversion
    rw [← hname] at hmatch
    exact run_onInterest_found hmatch hupdate hlater hid (Or.inr hrowVersion.symm) hdecode
  · have hmatch := Label.matchInterestName_recordName server.zone.name label htype
    rw [← hname] at hmatch
    exact run_onInterest_found hmatch hupdate hlater hid (Or.inl rfl) hdecode

/-- Both Interests are read as queries for the record, since there is nothing else the packet could
come from when only the rows of the record are left and the clock does not show its version. -/
theorem ReadBack.matches_record (h : ReadBack server label type version data db)
    (hdata : data.name = Label.recordName server.zone.name label type ++ [version])
    (interest : Interest)
    (hname : interest.name = Label.recordName server.zone.name label type ++ [version] ∨
      interest.name = Label.recordName server.zone.name label type) :
    type ≠ Label.ndnsUpdateLabel ∧ ∃ re,
      Label.matchInterestName interest.name server.zone.name = .matched re ∧ re.rrLabel = label := by
  obtain ⟨time, htime⟩ : ∃ time, Component.fromVersion time ≠ version := by
    by_cases hzero : Component.fromVersion 0 = version
    · exact ⟨1, fun hone ↦ absurd (hone.trans hzero.symm) (by decide)⟩
    · exact ⟨0, hzero⟩
  have hanswer := h Unit (stoppedClock time)
    ⟨{ db with rrsets := rowsAt db server.zone.id label type }, ()⟩ interest rowsAt_rowsAt hname
  rcases returns_onInterest hanswer with ⟨keys, hstamped⟩ | ⟨re, row, hmatch, hupdate, hrow, -⟩
  · rw [hdata] at hstamped
    rcases hname with hname | hname
    · rw [hname] at hstamped
      have hlength := congrArg List.length hstamped
      simp at hlength
    · rw [hname, List.append_cancel_left_eq, List.singleton_inj] at hstamped
      exact absurd hstamped.symm htime
  · obtain ⟨hmem, -, hlabel, htype⟩ := keyRow_eq_some hrow
    obtain ⟨-, -, hrowLabel, hrowType⟩ := mem_rowsAt.mp hmem
    exact ⟨fun hsame ↦ hupdate (by rw [← htype, hrowType, hsame]), re, hmatch,
      by rw [← hlabel, hrowLabel]⟩

theorem HeldAt.readBack_iff (h : HeldAt server label type version data db)
    (hdata : data.name = Label.recordName server.zone.name label type ++ [version]) :
    ReadBack server label type version data db ↔
      version.isVersion = true ∧ type.isVersion = false ∧ type ≠ Label.ndnsUpdateLabel := by
  constructor
  · intro hread
    obtain ⟨hupdate, re, hmatch, hlabel⟩ := hread.matches_record hdata
      ⟨_, true, 0, []⟩ (Or.inl rfl)
    obtain ⟨-, re', hmatch', hlabel'⟩ := hread.matches_record hdata
      ⟨_, true, 0, []⟩ (Or.inr rfl)
    exact ⟨Label.isVersion_of_matchInterestName hmatch hlabel,
      Label.isVersion_eq_false_of_matchInterestName hmatch' hlabel', hupdate⟩
  · rintro ⟨hversion, htype, hupdate⟩
    exact h.readBack hversion htype hupdate

/-! ## Writing -/

/-- The packet that an addition from a file stores: the one in the file, signed again if it is to
be. -/
def Submitted {Keys : Type} (services : Services Keys) (inFile : String) (needResign : Bool)
    (data : Data) : Prop :=
  ∃ packet dskCertName wire before after, ManagementTool.FileHolds services inFile packet ∧
    (ManagementTool.resign needResign dskCertName packet).Returns (World.handle services) before
      (data, wire) after

variable {Keys : Type} {services : Services Keys}

theorem heldAt_of_holds {re : Label.MatchResult} {packet : Received} (hvalid : db.Valid)
    (h : Holds server re packet db) :
    HeldAt server re.rrLabel re.rrType re.version packet.data db := by
  obtain ⟨row, hrow, hkey, hversion, hwire, honly⟩ := h
  cases hfound : keyRow db server.zone.id re.rrLabel re.rrType with
  | none => exact absurd hkey (keyRow_eq_none_iff.mp hfound row hrow)
  | some found =>
      obtain ⟨hmem, hfoundKey⟩ := key_of_keyRow hfound
      rw [← honly found hmem (hfoundKey.trans hkey.symm)] at hversion hwire
      exact ⟨found, hfound, (hvalid.ids_pos found hmem).ne', hversion, hwire ▸ packet.decode_wire⟩

/-- An acknowledged packet is in the row for its key. -/
theorem heldAt_of_acknowledged {packet : Received} {interest : Interest} {answer : Data}
    {world world' : World Keys} (hvalid : world.db.Valid) (hsingle : world.db.SingleVersion)
    (hname : packet.data.name = Label.recordName server.zone.name label type ++ [version])
    (h : (doUpdate server interest packet).Returns (World.handle services) world (some answer)
      world') (hcontent : answer.content = updateContent .updateOk) :
    HeldAt server label type version packet.data world'.db := by
  have hvalid' := valid_of_returns hvalid h
  obtain ⟨re, hmatch, hdb, hcode⟩ := returns_doUpdate hvalid h
  rw [hname, Label.matchDataName_recordName, Label.MatchOutcome.matched.injEq] at hmatch
  rw [hcontent, updateContent_injective.eq_iff] at hcode
  rw [hdb] at hvalid' ⊢
  have hholds : Holds server re packet (updateDatabase server re packet world.db).1 := by
    unfold updateDatabase at hcode ⊢
    cases hrow : keyRow world.db server.zone.id re.rrLabel re.rrType with
    | none => exact holds_insertRrset hrow
    | some row =>
        obtain ⟨hmem, hkey⟩ := key_of_keyRow hrow
        simp only [hrow] at hcode ⊢
        split_ifs at hcode ⊢ with hnewer hforbidden
        · rw [not_forbidsUpdate hvalid hsingle hmem hnewer] at hforbidden
          cases hforbidden
        · exact holds_updateRrset hsingle hmem hkey row.ttl
  have hheld := heldAt_of_holds hvalid' hholds
  rwa [← hmatch] at hheld ⊢

/-- An addition from a file that returns leaves its packet in the row for its key, unless the key is
that of a denial record. -/
theorem heldAt_of_addRrsetFromFile {zoneName inputDskCertName : Name} {inFile : String} {ttl : ℤ}
    {needResign : Bool} (hvalid : db.Valid) (hsingle : db.SingleVersion) :
    ManagementTool.Succeeds services
      (ManagementTool.addRrsetFromFile zoneName inFile ttl inputDskCertName needResign) db fun db' ↦
        ∃ data, Submitted services inFile needResign data ∧
          ∀ (server : NameServer) label type version, type ≠ Label.doeRrType →
            server.zone.id = (lookupZone db (Zone.named zoneName)).id →
            data.name = Label.recordName zoneName label type ++ [version] →
            HeldAt server label type version data db' := by
  refine ManagementTool.meets_addRrsetFromFile (fun _ _ hok ↦ nomatch hok) ?_
  intro _ _ packet _ _ dskCertName data wire _ re hid hload hresign hparse
  generalize (if ttl = defaultRrTtl then (lookupZone db (Zone.named zoneName)).ttl else ttl) = ttl
  have hresolve : resolveZone db (lookupZone db (Zone.named zoneName)) =
      lookupZone db (Zone.named zoneName) := if_neg hid
  have hstore : ManagementTool.Succeeds services (ManagementTool.store ⟨0,
      some (lookupZone db (Zone.named zoneName)), re.rrLabel, re.rrType, re.version, ttl, wire⟩) db
      _ := ManagementTool.completes_store hvalid rfl
  refine (Meets.valid hstore hvalid).weaken fun outcome db' hend value hvalue ↦
    ⟨data, ⟨packet, dskCertName, wire, _, _, ManagementTool.holds_of_loadData hload, hresign⟩, ?_⟩
  intro server label type version htype hserver hname
  obtain ⟨flag, hre⟩ := ManagementTool.fromData_of_parseRrset hparse
  obtain ⟨hdecode, -⟩ := ManagementTool.fromData_of_resign hresign
  obtain ⟨-, hlabel, hrrType, hversion⟩ := Clients.Response.fromData_eq_ok hname hre
  have hrows := (hend.1 value hvalue).rows ⟨ManagementTool.SameZone.refl _ _, fun _ ↦ rfl⟩ hvalid
    (hrrType ▸ htype)
  have hhome : ManagementTool.homeId db (lookupZone db (Zone.named zoneName)) =
      server.zone.id := by
    rw [ManagementTool.homeId, hresolve, if_neg hid, hserver]
  have hleft : ManagementTool.leftover db (lookupZone db (Zone.named zoneName))
      ⟨0, some (lookupZone db (Zone.named zoneName)), re.rrLabel, re.rrType, re.version, ttl, wire⟩
      ((resolveZone db (lookupZone db (Zone.named zoneName))).id ≠ 0) = [] := by
    rw [ManagementTool.leftover, if_pos (by rwa [hresolve])]
    exact hsingle.tail_rowsAt _ _ _
  rcases hrows.2 with ⟨hknown, -⟩ | ⟨-, -, row, hrow, hrows⟩
  · exact absurd rfl hknown
  · rw [hleft] at hrows
    simp only [hhome, hlabel, hrrType, List.not_mem_nil, false_or, mem_rowsAt] at hrows
    obtain ⟨hmem, hkey⟩ := (hrows row).mpr rfl
    have hfound : keyRow db' server.zone.id label type = some row :=
      keyRow_of_unique hmem hkey fun other hother hsame ↦ (hrows other).mp ⟨hother, hsame⟩
    refine ⟨row, hfound, (hend.2.ids_pos row (keyRow_eq_some hfound).1).ne', ?_, ?_⟩
    · exact hrow.1.trans hversion
    · rw [hrow.2.2]
      exact hdecode

/-- A packet that an update is acknowledged for, or that an addition from a file has stored, is read
back exactly if its name ends in a version and its type is neither a version nor UPDATE.  An
addition replaces the denial records before it returns, so one of these counts as stored only if it
is still there. -/
theorem readBack_written_iff (hvalid : db.Valid) (hsingle : db.SingleVersion) :
    (∀ (server : NameServer) interest (packet : Received) keys answer world' label type version,
      packet.data.name = Label.recordName server.zone.name label type ++ [version] →
      (doUpdate server interest packet).Returns (World.handle services) ⟨db, keys⟩ (some answer)
        world' →
      answer.content = updateContent .updateOk →
      (ReadBack server label type version packet.data world'.db ↔
        version.isVersion = true ∧ type.isVersion = false ∧ type ≠ Label.ndnsUpdateLabel)) ∧
    ∀ zoneName inFile ttl inputDskCertName needResign keys world',
      (ManagementTool.addRrsetFromFile zoneName inFile ttl inputDskCertName needResign).Returns
        (World.handle services) ⟨db, keys⟩ () world' →
      ∃ data, Submitted services inFile needResign data ∧
        ∀ (server : NameServer) label type version, server.zone.name = zoneName →
          server.zone.id = (lookupZone db (Zone.named zoneName)).id →
          data.name = Label.recordName zoneName label type ++ [version] →
          (type = Label.doeRrType → HeldAt server label type version data world'.db) →
          (ReadBack server label type version data world'.db ↔
            version.isVersion = true ∧ type.isVersion = false ∧ type ≠ Label.ndnsUpdateLabel) := by
  constructor
  · intro server interest packet keys answer world' label type version hname h hcontent
    have hheld : HeldAt server label type version packet.data world'.db :=
      heldAt_of_acknowledged hvalid hsingle hname h hcontent
    exact hheld.readBack_iff hname
  · intro zoneName inFile ttl inputDskCertName needResign keys world' h
    have hend := (@heldAt_of_addRrsetFromFile _ _ _ services zoneName inputDskCertName inFile ttl
      needResign hvalid hsingle).run keys
    rw [h] at hend
    obtain ⟨data, hsubmitted, hheld⟩ := hend () rfl
    refine ⟨data, hsubmitted, fun server label type version hserver hid hname hdenial ↦ ?_⟩
    have hheldAt : HeldAt server label type version data world'.db := by
      by_cases htype : type = Label.doeRrType
      · exact hdenial htype
      · exact hheld server label type version htype hid hname
    rw [← hserver] at hname
    exact hheldAt.readBack_iff hname

end Reading

section Examples

open LocalServices

attribute [local instance] ndnPacketFormat

/-- The services of the process with the key chain in memory, where each file holds the record. -/
def recordFiles : Services ℕ :=
  ⟨fun request keys ↦ match request with
    | .load _ => (.contents (some secondPacket.wire), keys)
    | other => localServices.answer other keys⟩

theorem createdDatabase_singleVersion : createdDatabase.SingleVersion := by
  unfold Database.SingleVersion
  decide +kernel

/-- The record is written into the new zone /n by an update, or added from a file. -/
theorem readBack_second :
    ReadBack netServer [letter 119] Label.txtRrType (Component.fromVersion 2) secondRecord
      ((doUpdate netServer updateInterest secondPacket).run (World.handle recordFiles)
        ⟨createdDatabase, 0⟩).2.db ∧
    ∃ data, Submitted recordFiles "record" false data ∧
      (data.name = secondRecord.name →
        ReadBack netServer [letter 119] Label.txtRrType (Component.fromVersion 2) data
          ((ManagementTool.addRrsetFromFile [letter 110] "record" 3600 defaultCert false).run
            (World.handle recordFiles) ⟨createdDatabase, 0⟩).2.db) := by
  have hwritten := @readBack_written_iff _ createdDatabase ℕ recordFiles
    (creation_step.valid Database.valid_empty) createdDatabase_singleVersion
  have hupdated : (doUpdate netServer updateInterest secondPacket).Returns
      (World.handle recordFiles) ⟨createdDatabase, 0⟩ (some okAnswer)
      ((doUpdate netServer updateInterest secondPacket).run (World.handle recordFiles)
        ⟨createdDatabase, 0⟩).2 := Prod.ext (by decide +kernel) rfl
  have hadded : (ManagementTool.addRrsetFromFile [letter 110] "record" 3600 defaultCert false).Returns
      (World.handle recordFiles) ⟨createdDatabase, 0⟩ ()
      ((ManagementTool.addRrsetFromFile [letter 110] "record" 3600 defaultCert false).run
        (World.handle recordFiles) ⟨createdDatabase, 0⟩).2 := Prod.ext (by decide +kernel) rfl
  refine ⟨(hwritten.1 netServer updateInterest secondPacket 0 okAnswer _ [letter 119]
    Label.txtRrType (Component.fromVersion 2) rfl hupdated rfl).mpr (by decide), ?_⟩
  obtain ⟨data, hsubmitted, hread⟩ := hwritten.2 _ _ _ _ _ _ _ hadded
  exact ⟨data, hsubmitted, fun hname ↦ (hread netServer [letter 119] Label.txtRrType
    (Component.fromVersion 2) rfl (by decide +kernel) hname (fun h ↦ absurd h (by decide))).mpr
      (by decide)⟩

/-- A record of the zone /n at the label /w. -/
def wRecord (type version : Component) : Data :=
  ⟨Label.recordName [letter 110] [letter 119] type ++ [version], 0, 0, [], [], []⟩

/-- Its name does not end in a version. -/
def unversionedPacket : Received :=
  ⟨(Layout.encode (wRecord Label.txtRrType (letter 120))).getD Block.invalid,
    wRecord Label.txtRrType (letter 120), by decide⟩

def updateTypedPacket : Received :=
  ⟨(Layout.encode (wRecord Label.ndnsUpdateLabel (Component.fromVersion 1))).getD Block.invalid,
    wRecord Label.ndnsUpdateLabel (Component.fromVersion 1), by decide⟩

def versionTypedPacket : Received :=
  ⟨(Layout.encode (wRecord (Component.fromVersion 7) (Component.fromVersion 1))).getD Block.invalid,
    wRecord (Component.fromVersion 7) (Component.fromVersion 1), by decide⟩

/-- An update of the new zone /n. -/
def updateOfNet (packet : Received) : Except Fault (Option Data) × World ℕ :=
  (doUpdate netServer updateInterest packet).run (World.handle localServices) ⟨createdDatabase, 0⟩

/-- The update is acknowledged, and the next Interest is not answered with its packet. -/
def Unread (packet : Received) (name : Name) : Prop :=
  (updateOfNet packet).1.map (Option.map Data.content) = .ok (some (updateContent .updateOk)) ∧
    ((onInterest netServer ⟨name, true, 4000, []⟩).run (World.handle localServices)
      (updateOfNet packet).2).1 ≠ .ok (some packet.data)

theorem acknowledged_not_readBack : createdDatabase.SingleVersion ∧
    Unread unversionedPacket
      (Label.recordName [letter 110] [letter 119] Label.txtRrType ++ [letter 120]) ∧
    Unread updateTypedPacket
      (Label.recordName [letter 110] [letter 119] Label.ndnsUpdateLabel ++
        [Component.fromVersion 1]) ∧
    Unread versionTypedPacket
      (Label.recordName [letter 110] [letter 119] (Component.fromVersion 7)) := by
  refine ⟨createdDatabase_singleVersion, ?_⟩
  unfold Unread
  decide +kernel

end Examples

end Ndns.Mgmt
