import Ndns.Mgmt.DenialCompleteness
import Ndns.Mgmt.ReadYourWrites
import Ndns.Mgmt.ServedZones

/-!
# Tables with the Same Answers

The versions of denial records, the ids and the order of the rows, and what the key chain has
signed before differ between two servers that hold the same records.  A client that reads the
replies to its queries sees no difference: a reply depends on the packets of the records and on
their names only.
-/

namespace Ndns.Mgmt

open Ndn Calls Daemon Clients NameServer Order.CircularRanges

/-! ## Denials below a name -/

/-- The denial with the greatest label below a name. -/
structure DenialBelow (names : List Name) (query : Name) (denial : Denial) : Prop where
  mem : denial ∈ denialChain names
  below : denial.1 < query
  greatest : ∀ other ∈ denialChain names, other.1 < query → other.1 ≤ denial.1

theorem DenialBelow.unique {names : List Name} {query : Name} {denial denial' : Denial}
    (hnames : names.Nodup) (hnil : [] ∉ names) (h : DenialBelow names query denial)
    (h' : DenialBelow names query denial') : denial = denial' :=
  List.inj_on_of_nodup_map (nodup_denialLabels hnames hnil) h.mem h'.mem
    (le_antisymm (h'.greatest denial h.mem h.below) (h.greatest denial' h'.mem h'.below))

/-! ## Records by their keys -/

section Records

variable {zoneId : ℕ} {db db' : Database}

/-- What a reply can show of a row. -/
def packetOf (row : RrsetRow) : Component × Block := (row.version, row.data)

/-- The packets of two tables are the same under every key but those of denial records. -/
def SamePackets (zoneId : ℕ) (db db' : Database) : Prop :=
  ∀ (label : Name) (type : Component), type ≠ Label.doeRrType →
    (DbMgr.keyRow db zoneId label type).map packetOf =
      (DbMgr.keyRow db' zoneId label type).map packetOf

theorem SamePackets.symm (h : SamePackets zoneId db db') : SamePackets zoneId db' db :=
  fun label type htype ↦ (h label type htype).symm

/-- The lookup of a record depends on the records only. -/
theorem samePackets_of_records (hkeys : ((records db zoneId).map recordKey).Nodup)
    (h : records db' zoneId = records db zoneId) : SamePackets zoneId db db' := by
  intro label type htype
  cases hrow : DbMgr.keyRow db zoneId label type with
  | some row =>
      obtain ⟨hmem, rfl, rfl⟩ := mem_records_of_keyRow htype hrow
      rw [keyRow_of_mem (h.symm ▸ hkeys) (h.symm ▸ hmem)]
  | none =>
      cases hrow' : DbMgr.keyRow db' zoneId label type with
      | none => rfl
      | some row =>
          obtain ⟨hmem, rfl, rfl⟩ := mem_records_of_keyRow htype hrow'
          rw [keyRow_of_mem hkeys (h ▸ hmem)] at hrow
          cases hrow

theorem SamePackets.recordKey_mem (h : SamePackets zoneId db db') {key : Name ×ₗ Component}
    (hkey : key ∈ (records db zoneId).map recordKey)
    (hkeys : ((records db zoneId).map recordKey).Nodup) :
    key ∈ (records db' zoneId).map recordKey := by
  obtain ⟨row, hrow, rfl⟩ := List.mem_map.mp hkey
  have htype := (mem_records.mp hrow).2.2
  have hsame := h row.label row.type htype
  rw [keyRow_of_mem hkeys hrow, Option.map_some, eq_comm, Option.map_eq_some_iff] at hsame
  obtain ⟨row', hrow', -⟩ := hsame
  obtain ⟨hmem, hlabel, htype'⟩ := mem_records_of_keyRow htype hrow'
  exact List.mem_map.mpr ⟨row', hmem, recordKey_eq_iff.mpr ⟨hlabel, htype'⟩⟩

/-- The names of the chain depend on the keys of the records only. -/
theorem SamePackets.recordNames (h : SamePackets zoneId db db')
    (hkeys : ((records db zoneId).map recordKey).Nodup)
    (hkeys' : ((records db' zoneId).map recordKey).Nodup) :
    recordNames db zoneId = recordNames db' zoneId := by
  have hperm : ((records db zoneId).map recordKey).Perm ((records db' zoneId).map recordKey) :=
    (List.perm_ext_iff_of_nodup hkeys hkeys').mpr fun _ ↦
      ⟨fun hkey ↦ h.recordKey_mem hkey hkeys, fun hkey ↦ h.symm.recordKey_mem hkey hkeys'⟩
  rw [Mgmt.recordNames, insertionSort_eq_of_perm hperm, ← Mgmt.recordNames]

end Records

section

variable [PacketFormat] {Keys : Type} {services : Services Keys} {server : NameServer}
  {world : World Keys} {interest : Interest} {re : Label.MatchResult} {db db' : Database}

/-! ## Replies -/

/-- What a client learns from a packet: a record, or the range of a denial. -/
inductive Reply
  | record (data : Data)
  | denied (range : Name × Name)

/-- A packet as `onData` unwraps it and `isAbsentByDoe` reads it. -/
def readReply (answer : Data) : Option Reply :=
  match IterativeQueryController.unwrap answer with
  | some (doe, .doe) => (Response.wireDecodeDoe doe.content).map .denied
  | some (data, _) => some (.record data)
  | none => none

/-- What a client learns from the reply to its Interest. -/
def reply (services : Services Keys) (server : NameServer) (world : World Keys)
    (interest : Interest) : Option Reply :=
  ((server.onInterest interest).run (World.handle services) world).1.toOption.join.bind readReply

/-- No query can tell two states of the tables apart, whatever the states of the key chain.  Queries
for denial records themselves, whose versions are times, are not meant. -/
def AnswersAlike (services : Services Keys) (server : NameServer) (db db' : Database) : Prop :=
  ∀ (interest : Interest) (re : Label.MatchResult),
    Label.matchInterestName interest.name server.zone.name = .matched re →
      re.rrType ≠ Label.ndnsUpdateLabel → re.rrType ≠ Label.doeRrType → ∀ keys keys' : Keys,
        reply services server ⟨db, keys⟩ interest = reply services server ⟨db', keys'⟩ interest

theorem reply_of_run (hmatch : Label.matchInterestName interest.name server.zone.name = .matched re)
    (hupdate : re.rrType ≠ Label.ndnsUpdateLabel) : reply services server world interest =
      ((handleQuery server interest re).run (World.handle services) world).1.toOption.bind
        readReply := by
  unfold reply onInterest
  rw [hmatch]
  simp only [if_neg hupdate]
  rw [Program.run_map]
  rcases (handleQuery server interest re).run (World.handle services) world with ⟨_ | _, _⟩ <;> rfl

/-- The version asked for is that of the row, or there is none. -/
def Asked (re : Label.MatchResult) (version : Component) : Prop :=
  re.version.isEmpty = true ∨ re.version = version

/-- The reply is the packet of the record. -/
theorem reply_found (hmatch : Label.matchInterestName interest.name server.zone.name = .matched re)
    (hupdate : re.rrType ≠ Label.ndnsUpdateLabel) {row : RrsetRow}
    (hrow : DbMgr.keyRow world.db server.zone.id re.rrLabel re.rrType = some row)
    (hid : row.id ≠ 0) (hversion : Asked re row.version) :
    reply services server world interest = (PacketFormat.decode row.data).bind readReply := by
  rw [reply_of_run hmatch hupdate, run_handleQuery, hrow]
  simp only
  rw [if_pos ⟨hid, hversion⟩]
  cases PacketFormat.decode row.data <;> rfl

/-! ## Zones that answer -/

/-- The records of a zone have different keys, and the chain is the one over their names. -/
structure Answering (zoneName : Name) (zoneId : ℕ) (db : Database) : Prop where
  valid : db.Valid
  keys : ((records db zoneId).map recordKey).Nodup
  nonempty : records db zoneId ≠ []
  chained : Chained zoneName zoneId db

theorem Serves.answering {zoneName : Name} {zoneId : ℕ} (h : Serves zoneName zoneId db) :
    Answering zoneName zoneId db := by
  obtain ⟨cert, hcert, -⟩ := h.shape.certs
  exact ⟨h.valid, h.shape.keys, List.ne_nil_of_mem hcert, h.chained⟩

/-- A name without a record of the version asked for is denied with the range below it. -/
theorem Answering.reply_denied {zoneName : Name} (h : Answering zoneName server.zone.id db)
    (hsigns : services.SignsByDefault)
    (hmatch : Label.matchInterestName interest.name server.zone.name = .matched re)
    (hupdate : re.rrType ≠ Label.ndnsUpdateLabel)
    (hnone : ∀ row, DbMgr.keyRow db server.zone.id re.rrLabel re.rrType = some row →
      ¬ Asked re row.version) (keys : Keys) :
    ∃ denial, DenialBelow (recordNames db server.zone.id) (re.rrLabel ++ [re.rrType]) denial ∧
      reply services server ⟨db, keys⟩ interest = some (.denied denial.2) := by
  obtain ⟨row, denial, hrow, hmem, hisDenial, hdenial, hbelow, hgreatest⟩ :=
    h.chained.lowerBoundRow (recordNames_eq_nil.not.mpr h.nonempty)
      (List.append_ne_nil_of_right_ne_nil re.rrLabel (List.cons_ne_nil re.rrType []))
  obtain ⟨answer, version, keys', hrun, -, hnack, hcontent⟩ :=
    @run_denyQuery _ services ⟨db, keys⟩ server interest re row hsigns hrow
      (h.valid.ids_pos row hmem).ne'
  obtain ⟨content, hencode, hcarries⟩ := hisDenial.packet
  obtain ⟨doe, hunwrap, hdoe⟩ := unwrap_nack hnack hcontent hcarries
  have hquery : (handleQuery server interest re).run (World.handle services) ⟨db, keys⟩ =
      (denyQuery server interest re).run (World.handle services) ⟨db, keys⟩ := by
    rw [run_handleQuery]
    cases hkey : DbMgr.keyRow db server.zone.id re.rrLabel re.rrType with
    | none => rfl
    | some found => exact if_neg fun hfound ↦ hnone found hkey hfound.2
  refine ⟨denial, ⟨hdenial, hbelow, hgreatest⟩, ?_⟩
  rw [reply_of_run hmatch hupdate, hquery, hrun]
  change readReply answer = _
  rw [readReply, hunwrap]
  simp only
  rw [hdoe, Response.wireDecodeDoe_encodeNames hencode]
  rfl

/-- Zones with the same packets answer alike. -/
theorem Answering.alike {zoneName : Name} (h : Answering zoneName server.zone.id db)
    (h' : Answering zoneName server.zone.id db') (hsigns : services.SignsByDefault)
    (hsame : SamePackets server.zone.id db db') : AnswersAlike services server db db' := by
  intro interest re hmatch hupdate hdoe keys keys'
  have hrows := hsame re.rrLabel re.rrType hdoe
  by_cases hfound : ∃ row, DbMgr.keyRow db server.zone.id re.rrLabel re.rrType = some row ∧
      Asked re row.version
  · obtain ⟨row, hrow, hversion⟩ := hfound
    rw [hrow, Option.map_some, eq_comm, Option.map_eq_some_iff] at hrows
    obtain ⟨row', hrow', hpacket⟩ := hrows
    have hversions : row'.version = row.version := congrArg Prod.fst hpacket
    have hdata : row'.data = row.data := congrArg Prod.snd hpacket
    have hmem := (DbMgr.keyRow_eq_some hrow).1
    have hmem' := (DbMgr.keyRow_eq_some hrow').1
    rw [@reply_found _ _ services server ⟨db, keys⟩ _ _ hmatch hupdate row hrow
        (h.valid.ids_pos row hmem).ne' hversion,
      @reply_found _ _ services server ⟨db', keys'⟩ _ _ hmatch hupdate row' hrow'
        (h'.valid.ids_pos row' hmem').ne' (hversions ▸ hversion), hdata]
  · have hnone : ∀ row, DbMgr.keyRow db server.zone.id re.rrLabel re.rrType = some row →
        ¬ Asked re row.version := fun row hrow hversion ↦ hfound ⟨row, hrow, hversion⟩
    have hnone' : ∀ row, DbMgr.keyRow db' server.zone.id re.rrLabel re.rrType = some row →
        ¬ Asked re row.version := by
      intro row' hrow' hversion
      rw [hrow', Option.map_some, Option.map_eq_some_iff] at hrows
      obtain ⟨row, hrow, hpacket⟩ := hrows
      have hversions : row.version = row'.version := congrArg Prod.fst hpacket
      exact hnone row hrow (hversions ▸ hversion)
    obtain ⟨denial, hcovers, hreply⟩ := h.reply_denied hsigns hmatch hupdate hnone keys
    obtain ⟨denial', hcovers', hreply'⟩ := h'.reply_denied hsigns hmatch hupdate hnone' keys'
    rw [← hsame.recordNames h.keys h'.keys] at hcovers'
    rw [hreply, hreply',
      hcovers.unique (nodup_recordNames h.keys) nil_notMem_recordNames hcovers']

/-- A record is told from a denial. -/
theorem Answering.not_alike {zoneName : Name} (h : Answering zoneName server.zone.id db)
    (h' : db'.Valid) [Nonempty Keys] (hsigns : services.SignsByDefault) {row : RrsetRow}
    (hqueried : Queried row.type)
    (hnone : DbMgr.keyRow db server.zone.id row.label row.type = none)
    (hrow : DbMgr.keyRow db' server.zone.id row.label row.type = some row)
    {contentType : NdnsContentType} {content : Blob}
    (hcarries : RowCarries zoneName row contentType content)
    (htype : contentType = .link ∨ contentType = .auth ∨ contentType = .resp) :
    ¬ AnswersAlike services server db db' := by
  intro halike
  obtain ⟨keys⟩ := ‹Nonempty Keys›
  let interest : Interest := ⟨Label.recordName server.zone.name row.label row.type, true, 0, []⟩
  have hmatch : Label.matchInterestName interest.name server.zone.name =
      .matched ⟨row.label, row.type, Component.empty⟩ :=
    Label.matchInterestName_recordName _ _ hqueried.notVersion
  obtain ⟨data, hdecode, -⟩ := hcarries.decodes
  obtain ⟨denial, -, hdenied⟩ := h.reply_denied hsigns hmatch hqueried.notUpdate
    (fun found hfound ↦ absurd (hnone.symm.trans hfound) (by simp)) keys
  have hfound := @reply_found _ _ services server ⟨db', keys⟩ _ _ hmatch hqueried.notUpdate row hrow
    (h'.ids_pos row (DbMgr.keyRow_eq_some hrow).1).ne' (Or.inl rfl)
  have hread : readReply data = some (.record data) := by
    have hcode := (hcarries.decode hdecode).2.1
    rw [readReply, IterativeQueryController.unwrap, hcode]
    rcases htype with rfl | rfl | rfl <;> rfl
  rw [hdecode, Option.bind_some, hread] at hfound
  have hreplies := halike interest _ hmatch hqueried.notUpdate hqueried.notDoe keys keys
  rw [hdenied, hfound] at hreplies
  cases hreplies

end

end Ndns.Mgmt
