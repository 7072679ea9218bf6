import Ndns.Clients.Exchange
import Ndns.Mgmt.DenialCompleteness
import Ndns.Mgmt.ServedZones

/-!
# Resolvability of Served Records

A resolution that starts in a served zone follows the AUTH records down to the label it looks for.
A delegation is its result there.  For a TXT record it needs one more answer about the NS record of
the whole label, and when there is none, the denial has to convince it.
-/

namespace Ndns.Mgmt

open Ndn Calls Daemon Clients Order.CircularRanges

/-! ## The denial below a label -/

/-- What a resolution of a TXT record needs at its label: no NS query at all, an NS record, or a
denial of it that comes from a record below or from ascending ends of the chain. -/
def Passable (db : Database) (zoneId : ℕ) (label : Name) : Prop :=
  label = [] ∨ (∃ ns ∈ records db zoneId, ns.label = label ∧ ns.type = Label.nsRrType) ∨
    (∃ row ∈ records db zoneId, row.label ++ [row.type] < label ++ [Label.nsRrType]) ∨
    EndsAscend db zoneId

/-- The denial below an absent name excludes it when some record is below the name, and otherwise
when the ends of the chain ascend. -/
theorem excludes_iff_below {db : Database} {zoneId : ℕ} {first second : Name} {rest : List Name}
    (hnames : recordNames db zoneId = first :: second :: rest)
    (hnodup : (recordNames db zoneId).Nodup) {denial : Denial}
    (hdenial : denial ∈ denialChain (recordNames db zoneId)) {query : Name}
    (hbelow : denial.1 < query) (hquery : query ∉ recordNames db zoneId)
    (hgreatest : ∀ other ∈ denialChain (recordNames db zoneId), other.1 < query →
      other.1 ≤ denial.1) :
    Excludes denial.2 query ↔
      (∃ row ∈ records db zoneId, row.label ++ [row.type] < query) ∨ EndsAscend db zoneId := by
  rw [endsAscend_iff hnames]
  constructor
  · intro hexcludes
    by_contra hneither
    obtain ⟨hnone, hdescend⟩ := not_or.mp hneither
    rcases mem_denialChain.mp hdenial with ⟨hrange, hlabel⟩ | ⟨first', rest', hnames', rfl⟩
    · obtain ⟨row, hrow, hname⟩ := mem_recordNames.mp (mem_ranges hrange).1
      exact hnone ⟨row, hrow, by rw [hname, ← hlabel]; exact hbelow⟩
    · obtain ⟨rfl, rfl⟩ := List.cons.inj (hnames.symm.trans hnames')
      obtain ⟨row, hrow, hname⟩ := mem_recordNames.mp (hnames ▸ List.getLastD_mem_cons :
        (second :: rest).getLastD first ∈ recordNames db zoneId)
      have habove : query ≤ (second :: rest).getLastD first :=
        not_lt.mp fun hlt ↦ hnone ⟨row, hrow, hname ▸ hlt⟩
      exact hdescend ((excludes_iff_descending habove).mp hexcludes)
  · rintro (⟨row, hrow, hlt⟩ | hascend)
    · -- a record below the name has its own denial there, so the guard is not the greatest
      have hname : row.label ++ [row.type] ∈ recordNames db zoneId :=
        mem_recordNames.mpr ⟨row, hrow, rfl⟩
      rw [← map_fst_ranges (recordNames db zoneId), List.mem_map] at hname
      obtain ⟨range, hrange, hstart⟩ := hname
      have hle := hgreatest (range.1, range) (mem_denialChain.mpr (Or.inl ⟨hrange, rfl⟩))
        (hstart.symm ▸ hlt)
      rcases mem_denialChain.mp hdenial with ⟨hdenialRange, hlabel⟩ | ⟨_, _, _, rfl⟩
      · refine excludes_of_greatest_below hdenialRange ?_ (hlabel ▸ hbelow) ?_ hquery
        · rw [hnames] at hnodup hdenialRange
          exact ne_of_mem_ranges hnodup hdenialRange
        · intro name hname hltName
          rw [← map_fst_ranges (recordNames db zoneId), List.mem_map] at hname
          obtain ⟨other, hother, rfl⟩ := hname
          rw [← hlabel]
          exact hgreatest (other.1, other) (mem_denialChain.mpr (Or.inl ⟨hother, rfl⟩)) hltName
      · obtain ⟨head, tail, hcons⟩ := List.exists_cons_of_ne_nil
          (List.append_ne_nil_of_right_ne_nil row.label (List.cons_ne_nil row.type []))
        rw [hstart, hcons] at hle
        exact absurd (List.nil_lt_cons head tail) (not_lt.mpr hle)
    · exact excludes_of_ascending hnames hnodup hascend hdenial hbelow hquery hgreatest

theorem isSome_parseBlocks_encodeStrings {strings : List Blob} {content : Blob}
    (h : RrsetFactory.encodeStrings strings = some content) : (parseBlocks content).isSome := by
  obtain ⟨blocks, -, rfl⟩ := Option.map_eq_some_iff.mp h
  rw [parseBlocks_flatMap_encode]
  rfl

theorem queried_ns : Queried Label.nsRrType := ⟨by decide, by decide, by decide⟩

theorem queried_txt : Queried Label.txtRrType := ⟨by decide, by decide, by decide⟩

section Resolutions

variable [PacketFormat]

/-- The certificates of a zone are two records already. -/
theorem ZoneShape.two_names {zoneName : Name} {zoneId : ℕ} {db : Database}
    (h : ZoneShape zoneName (records db zoneId)) :
    ∃ first second rest, recordNames db zoneId = first :: second :: rest := by
  obtain ⟨left, hleft, right, hright, -, -, hlabels⟩ := h.certs
  have hne : left.label ++ [left.type] ≠ right.label ++ [right.type] :=
    fun heq ↦ hlabels (List.append_inj' heq rfl).1
  have hleftName := mem_recordNames.mpr ⟨left, hleft, rfl⟩
  have hrightName := mem_recordNames.mpr ⟨right, hright, rfl⟩
  rcases hnames : recordNames db zoneId with _ | ⟨first, _ | ⟨second, rest⟩⟩
  · rw [hnames] at hleftName
    cases hleftName
  · rw [hnames, List.mem_singleton] at hleftName hrightName
    exact absurd (hleftName.trans hrightName.symm) hne
  · exact ⟨first, second, rest, rfl⟩

/-! ## Resolutions -/

/-- A record that is an NS record of content type LINK. -/
def Delegates (row : RrsetRow) : Prop :=
  row.type = Label.nsRrType ∧ ∃ data, PacketFormat.decode row.data = some data ∧
    NdnsContentType.ofCode data.contentType = .link

variable {Keys : Type} {services : Services Keys} {server : NameServer} {db : Database}
  {row : RrsetRow} {data : Data}

/-- A stored record is answered with its packet, and the tables and keys stay as they are. -/
theorem Serves.run_onInterest_found (h : Serves server.zone.name server.zone.id db)
    (hrow : row ∈ records db server.zone.id) (hqueried : Queried row.type)
    (hdecode : PacketFormat.decode row.data = some data) {interest : Interest}
    (hname : interest.name = Label.recordName server.zone.name row.label row.type) (keys : Keys) :
    (server.onInterest interest).run (World.handle services) ⟨db, keys⟩ =
      (.ok (some data), ⟨db, keys⟩) := by
  rw [NameServer.run_onInterest_query hqueried hname]
  rw [@NameServer.run_handleQuery_found _ services ⟨db, keys⟩ server interest _ row _ data
    (keyRow_of_mem h.shape.keys hrow) (h.valid.ids_pos row (mem_records.mp hrow).1).ne' rfl hdecode]

/-- A resolution that starts in a zone. -/
def resolution (zoneName label : Name) (rrType : Component) (interestLifetime : ℕ) :
    IterativeQueryController :=
  .make (zoneName ++ label) rrType interestLifetime zoneName.length

variable {label : Name} {rrType : Component} {interestLifetime : ℕ} {keys : Keys}

/-- The state of a resolution after a number of round trips. -/
def after (services : Services Keys) (server : NameServer) (world : World Keys) (label : Name)
    (rrType : Component) (interestLifetime rounds : ℕ) : Session × World Keys :=
  (exchange services server)^[rounds]
    (Session.begin (resolution server.zone.name label rrType interestLifetime), world)

/-- The answer to the Interest of a waiting resolution can end it. -/
theorem obtains_of_waits {controller : IterativeQueryController} {interest : Interest}
    {world world' : World Keys} {rounds : ℕ}
    (hwaits : Waits (after services server ⟨db, keys⟩ label rrType interestLifetime rounds)
      controller interest world)
    (hrun : (server.onInterest interest).run (World.handle services) world =
      (.ok (some data), world'))
    (hmatches : data.matches interest)
    (hsucceeds : ∃ response, (controller.onData data true).2 = .ok (.succeed data response)) :
    Obtains services server ⟨db, keys⟩ (resolution server.zone.name label rrType interestLifetime) data := by
  obtain ⟨response, hresponse⟩ := hsucceeds
  refine ⟨rounds + 1, response, ?_⟩
  rw [Function.iterate_succ_apply']
  exact (hwaits.exchange hrun hmatches).2.1.trans (congrArg some hresponse)

/-- The AUTH records lead a resolution to the NS record of the whole label. -/
theorem Serves.waits_attempt (h : Serves server.zone.name server.zone.id db)
    (hrow : row ∈ records db server.zone.id)
    (htype : row.type = Label.nsRrType ∨ row.type = Label.txtRrType) {count : ℕ}
    (hcount : count < row.label.length) :
    Waits (after services server ⟨db, keys⟩ row.label rrType interestLifetime count)
      (.attempt server.zone.name row.label rrType interestLifetime (count + 1))
      (recordInterest server.zone.name (row.label.take (count + 1)) Label.nsRrType interestLifetime)
      ⟨db, keys⟩ := by
  induction count with
  | zero =>
      have hstart := @IterativeQueryController.start_inZone server.zone.name row.label rrType
        interestLifetime
      rw [if_neg (List.ne_nil_of_length_pos hcount)] at hstart
      exact ⟨congrArg Prod.fst hstart, congrArg (some ∘ Prod.snd) hstart, rfl⟩
  | succ count ih =>
      obtain ⟨auth, hauth, hlabel, hisAuth⟩ := h.shape.parts row hrow htype
        (row.label.take (count + 1)) (isPart_iff.mpr ⟨count, hcount, rfl⟩)
      obtain ⟨packet, hdecode, hpacket⟩ := hisAuth.2.decodes
      rw [hlabel, hisAuth.1] at hpacket
      have hrun : (server.onInterest (recordInterest server.zone.name (row.label.take (count + 1))
          Label.nsRrType interestLifetime)).run (World.handle services) ⟨db, keys⟩ = _ :=
        h.run_onInterest_found hauth (hisAuth.1 ▸ queried_ns) hdecode
          (by rw [hlabel, hisAuth.1]; rfl) keys
      have hcontentType : NdnsContentType.ofCode packet.contentType = .auth := by
        rw [hpacket.2.1]
        rfl
      obtain ⟨hcontroller, hlast, hworld⟩ :=
        (ih (by omega)).exchange hrun ⟨_, hpacket.1.symm⟩
      rw [IterativeQueryController.onData_auth hcontentType hcount] at hcontroller hlast
      rw [after, Function.iterate_succ_apply']
      exact ⟨hcontroller, hlast, hworld⟩

/-- Without a delegation on the way, a resolution comes to ask for the NS record of the label. -/
theorem Serves.waits_label (h : Serves server.zone.name server.zone.id db)
    (hrow : row ∈ records db server.zone.id)
    (htype : row.type = Label.nsRrType ∨ row.type = Label.txtRrType) (hlabel : row.label ≠ []) :
    ∃ rounds, Waits (after services server ⟨db, keys⟩ row.label rrType interestLifetime rounds)
      (.attempt server.zone.name row.label rrType interestLifetime row.label.length)
      (recordInterest server.zone.name row.label Label.nsRrType interestLifetime) ⟨db, keys⟩ := by
  have hpos : 0 < row.label.length := List.length_pos_of_ne_nil hlabel
  have hwaits := @Serves.waits_attempt _ Keys services server db row rrType interestLifetime keys h
    hrow htype _ (Nat.sub_one_lt hpos.ne')
  rw [Nat.sub_add_cancel hpos, List.take_length] at hwaits
  exact ⟨_, hwaits⟩

/-- A resolution at the apex asks for the record at once. -/
theorem waits_lookup_apex (hlabel : label = []) :
    Waits (after services server ⟨db, keys⟩ label rrType interestLifetime 0)
      (.lookup server.zone.name label rrType interestLifetime 1)
      (recordInterest server.zone.name label rrType interestLifetime) ⟨db, keys⟩ := by
  have hstart := @IterativeQueryController.start_inZone server.zone.name label rrType
    interestLifetime
  rw [if_pos hlabel] at hstart
  exact ⟨congrArg Prod.fst hstart, congrArg (some ∘ Prod.snd) hstart, rfl⟩

/-- A resolution that waits for the record itself obtains it. -/
theorem Serves.obtains_of_lookup (h : Serves server.zone.name server.zone.id db)
    (hrow : row ∈ records db server.zone.id) (hqueried : Queried row.type)
    {contentType : NdnsContentType} {content : Blob}
    (hcarries : RowCarries server.zone.name row contentType content)
    (hcontentType : NdnsContentType.ofCode contentType.toCode ≠ .nack)
    (hcontent : (parseBlocks content).isSome)
    (hdecode : PacketFormat.decode row.data = some data) {keys' : Keys} {rounds count : ℕ}
    (hwaits : Waits
      (after services server ⟨db, keys⟩ row.label row.type interestLifetime rounds)
      (.lookup server.zone.name row.label row.type interestLifetime count)
      (recordInterest server.zone.name row.label row.type interestLifetime) ⟨db, keys'⟩) :
    Obtains services server ⟨db, keys⟩ (resolution server.zone.name row.label row.type interestLifetime)
      data := by
  obtain ⟨hname, hcode, rfl⟩ := hcarries.decode hdecode
  refine obtains_of_waits hwaits (h.run_onInterest_found hrow hqueried hdecode rfl keys')
    ⟨_, hname.symm⟩ (IterativeQueryController.onData_record ?_ hname hcontent)
  rwa [hcode]

/-- A delegation is obtained by a resolution of its NS record. -/
theorem Serves.obtains_link (h : Serves server.zone.name server.zone.id db)
    (hrow : row ∈ records db server.zone.id) (hlink : IsLink server.zone.name row)
    (hdecode : PacketFormat.decode row.data = some data) :
    Obtains services server ⟨db, keys⟩
      (resolution server.zone.name row.label row.type interestLifetime) data := by
  obtain ⟨htype, names, content, hencode, hcarries⟩ := hlink
  obtain ⟨blocks, hblocks, hnames, -⟩ := parseBlocks_of_encodeNames hencode
  have hcontent : (parseBlocks content).isSome := by
    rw [hblocks]
    rfl
  by_cases hlabel : row.label = []
  · exact h.obtains_of_lookup hrow (htype ▸ queried_ns) hcarries (by decide) hcontent hdecode
      (waits_lookup_apex hlabel)
  · obtain ⟨rounds, hwaits⟩ := h.waits_label hrow (Or.inl htype) hlabel
    obtain ⟨hname, hcode, rfl⟩ := hcarries.decode hdecode
    rw [htype] at hname ⊢
    have hdelegations : linkDelegations data = some names := by
      rw [linkDelegations, if_pos (by rw [hcode]; rfl), hblocks, Option.bind_some, hnames]
    exact obtains_of_waits hwaits (h.run_onInterest_found hrow (htype ▸ queried_ns) hdecode
      (by rw [htype]; rfl) keys) ⟨_, hname.symm⟩
      (IterativeQueryController.onData_link (by rw [hcode]; rfl) hdelegations hname hcontent)

/-! ## TXT records -/

theorem Serves.obtains_text_of_lookup (h : Serves server.zone.name server.zone.id db)
    (hrow : row ∈ records db server.zone.id) (htext : IsText server.zone.name row)
    (hdecode : PacketFormat.decode row.data = some data) {keys' : Keys} {rounds count : ℕ}
    (hwaits : Waits
      (after services server ⟨db, keys⟩ row.label row.type interestLifetime rounds)
      (.lookup server.zone.name row.label row.type interestLifetime count)
      (recordInterest server.zone.name row.label row.type interestLifetime) ⟨db, keys'⟩) :
    Obtains services server ⟨db, keys⟩ (resolution server.zone.name row.label row.type interestLifetime)
      data := by
  obtain ⟨htype, strings, content, hencode, hcarries⟩ := htext
  exact h.obtains_of_lookup hrow (htype ▸ queried_txt) hcarries (by decide)
    (isSome_parseBlocks_encodeStrings hencode) hdecode hwaits

/-- When the NS record of the whole label says that the zone is responsible for longer labels, the
TXT record is obtained. -/
theorem Serves.obtains_text_of_auth (h : Serves server.zone.name server.zone.id db)
    (hrow : row ∈ records db server.zone.id) (htext : IsText server.zone.name row)
    (hlabel : row.label ≠ []) {auth : RrsetRow} (hauth : auth ∈ records db server.zone.id)
    (hauthLabel : auth.label = row.label) (hisAuth : IsAuth server.zone.name auth)
    (hdecode : PacketFormat.decode row.data = some data) :
    Obtains services server ⟨db, keys⟩ (resolution server.zone.name row.label row.type interestLifetime)
      data := by
  obtain ⟨rounds, hwaits⟩ := h.waits_label hrow (Or.inr htext.1) hlabel
  obtain ⟨packet, hpacketDecode, hpacket⟩ := hisAuth.2.decodes
  rw [hauthLabel, hisAuth.1] at hpacket
  have hrun : (server.onInterest (recordInterest server.zone.name row.label Label.nsRrType
      interestLifetime)).run (World.handle services) ⟨db, keys⟩ = _ :=
    h.run_onInterest_found hauth (hisAuth.1 ▸ queried_ns) hpacketDecode
      (by rw [hauthLabel, hisAuth.1]; rfl) keys
  have hcontentType : NdnsContentType.ofCode packet.contentType = .auth := by
    rw [hpacket.2.1]
    rfl
  have htypeNe : row.type ≠ Label.nsRrType := by
    rw [htext.1]
    decide
  have hwaits' : Waits
      (after services server ⟨db, keys⟩ row.label row.type interestLifetime (rounds + 1))
      (.lookup server.zone.name row.label row.type interestLifetime (row.label.length + 1))
      (recordInterest server.zone.name row.label row.type interestLifetime) ⟨db, keys⟩ := by
    obtain ⟨hcontroller, hlast, hworld⟩ := hwaits.exchange hrun ⟨_, hpacket.1.symm⟩
    rw [IterativeQueryController.onData_auth_end hcontentType htypeNe] at hcontroller hlast
    rw [after, Function.iterate_succ_apply']
    exact ⟨hcontroller, hlast, hworld⟩
  exact h.obtains_text_of_lookup hrow htext hdecode hwaits'

/-- Without an NS record at the label, the TXT record is obtained exactly when the denial of the
NS record excludes it. -/
theorem Serves.obtains_text_iff_of_absent (h : Serves server.zone.name server.zone.id db)
    (hsigns : services.SignsByDefault) (hrow : row ∈ records db server.zone.id)
    (htext : IsText server.zone.name row) (hlabel : row.label ≠ [])
    (habsent : ∀ ns ∈ records db server.zone.id,
      ¬ (ns.label = row.label ∧ ns.type = Label.nsRrType))
    (hdecode : PacketFormat.decode row.data = some data) :
    Obtains services server ⟨db, keys⟩ (resolution server.zone.name row.label row.type interestLifetime)
        data ↔
      (∃ other ∈ records db server.zone.id,
        other.label ++ [other.type] < row.label ++ [Label.nsRrType]) ∨
      EndsAscend db server.zone.id := by
  obtain ⟨first, second, rest, hnames⟩ := h.shape.two_names
  have hquery := notMem_recordNames.mpr habsent
  have hnodup := nodup_recordNames h.shape.keys
  obtain ⟨rounds, hwaits⟩ : ∃ rounds,
      Waits (after services server ⟨db, keys⟩ row.label row.type interestLifetime rounds) _ _ _ :=
    h.waits_label hrow (Or.inr htext.1) hlabel
  obtain ⟨denial, answer, doe, keys', hdenial, hbelow, hgreatest, hrun, hmatches, -, hunwrap,
    hwire⟩ := h.chained.run_onInterest_absent (hnames ▸ List.cons_ne_nil _ _) h.valid hsigns
      queried_ns habsent (show (recordInterest server.zone.name row.label Label.nsRrType
        interestLifetime).name = _ from rfl) keys
  obtain ⟨hcontroller, hlast, hworld⟩ := hwaits.exchange hrun hmatches
  rw [IterativeQueryController.onData_nack hunwrap hwire] at hcontroller hlast
  rw [← excludes_iff_below hnames hnodup hdenial hbelow hquery hgreatest, ← isAbsentByRange_iff]
  constructor
  · intro hobtains
    by_contra hconvincing
    rw [if_neg hconvincing, after, ← Function.iterate_succ_apply' (exchange services server)] at hlast
    exact not_obtains_of_error data hlast hobtains
  · intro hconvincing
    rw [if_pos hconvincing] at hcontroller hlast
    have hwaits' : Waits
        (after services server ⟨db, keys⟩ row.label row.type interestLifetime (rounds + 1))
        (.lookup server.zone.name row.label row.type interestLifetime row.label.length)
        (recordInterest server.zone.name row.label row.type interestLifetime) ⟨db, keys'⟩ := by
      rw [after, Function.iterate_succ_apply']
      exact ⟨hcontroller, hlast, hworld⟩
    exact h.obtains_text_of_lookup hrow htext hdecode hwaits'

theorem Serves.isLink_iff (h : Serves server.zone.name server.zone.id db)
    (hrow : row ∈ records db server.zone.id) : IsLink server.zone.name row ↔ Delegates row := by
  constructor
  · rintro ⟨htype, _, _, -, hcarries⟩
    obtain ⟨data, hdecode, -, hcode, -⟩ := hcarries.decodes
    exact ⟨htype, data, hdecode, by rw [hcode]; rfl⟩
  · rintro ⟨htype, data, hdecode, hlink⟩
    refine (h.shape.ns row hrow htype).resolve_right fun hisAuth ↦ ?_
    rw [(hisAuth.2.decode hdecode).2.1] at hlink
    exact absurd hlink (by decide)

/-- Without a delegation at the label, the TXT record is obtained exactly when its label can be
passed. -/
theorem Serves.obtains_text_iff (h : Serves server.zone.name server.zone.id db)
    (hsigns : services.SignsByDefault) (hrow : row ∈ records db server.zone.id)
    (htext : IsText server.zone.name row)
    (hdelegation : ∀ ns ∈ records db server.zone.id, ns.label ≠ [] → ns.label <+: row.label →
      ¬ Delegates ns) (hdecode : PacketFormat.decode row.data = some data) :
    Obtains services server ⟨db, keys⟩
        (resolution server.zone.name row.label row.type interestLifetime) data ↔
      Passable db server.zone.id row.label := by
  by_cases hlabel : row.label = []
  · exact iff_of_true (h.obtains_text_of_lookup hrow htext hdecode (waits_lookup_apex hlabel))
      (Or.inl hlabel)
  by_cases hstored : ∃ ns ∈ records db server.zone.id, ns.label = row.label ∧
      ns.type = Label.nsRrType
  · obtain ⟨ns, hns, hnsLabel, hnsType⟩ := hstored
    have hisAuth := (h.shape.ns ns hns hnsType).resolve_left fun hlink ↦
      hdelegation ns hns (hnsLabel ▸ hlabel) (hnsLabel ▸ List.prefix_rfl)
        ((h.isLink_iff hns).mp hlink)
    exact iff_of_true (h.obtains_text_of_auth hrow htext hlabel hns hnsLabel hisAuth hdecode)
      (Or.inr (Or.inl ⟨ns, hns, hnsLabel, hnsType⟩))
  · have habsent : ∀ ns ∈ records db server.zone.id,
        ¬ (ns.label = row.label ∧ ns.type = Label.nsRrType) := by
      intro ns hns hboth
      exact hstored ⟨ns, hns, hboth⟩
    rw [h.obtains_text_iff_of_absent hsigns hrow htext hlabel habsent hdecode, Passable,
      or_iff_right hlabel, or_iff_right hstored]

/-- In a zone that was created and added to, every delegation is obtained by a query for it, and
every TXT record without a delegation above it exactly when its label can be passed. -/
theorem resolvable_run {world world' : World Keys}
    {zoneName parentZoneName kskCertName dskCertName dkeyCertName : Name} {cacheTtl : ℤ}
    {zone' : Zone} (hvalid : world.db.Valid)
    (howned : ∀ row ∈ world.db.rrsets, ∃ zone ∈ world.db.zones, zone.id = row.zoneId)
    (hcreate : (ManagementTool.createZone zoneName parentZoneName cacheTtl kskCertName dskCertName
      dkeyCertName).Returns (World.handle services) world zone' world')
    (hadditions : Relation.ReflTransGen AddsRecord world'.db db)
    (hserver : server.zone.id = zone'.id ∧ server.zone.name = zoneName)
    {Serving : Type} {serving : Services Serving} (hsigns : serving.SignsByDefault) :
    (∀ row ∈ records db zone'.id, row.type = Label.txtRrType →
      (∀ ns ∈ records db zone'.id, ns.label ≠ [] → ns.label <+: row.label → ¬ Delegates ns) →
        ∃ data, PacketFormat.decode row.data = some data ∧ ∀ interestLifetime keys,
          Obtains serving server ⟨db, keys⟩
              (resolution zoneName row.label Label.txtRrType interestLifetime) data ↔
            Passable db zone'.id row.label) ∧
      ∀ row ∈ records db zone'.id, Delegates row →
        ∃ data, PacketFormat.decode row.data = some data ∧ ∀ interestLifetime keys,
          Obtains serving server ⟨db, keys⟩
            (resolution zoneName row.label Label.nsRrType interestLifetime) data := by
  have h := serves_run hvalid howned hcreate hadditions
  obtain ⟨hid, hname⟩ := hserver
  rw [← hid, ← hname] at h ⊢
  constructor
  · intro row hrow htype hdelegation
    have htext := h.shape.txt row hrow htype
    obtain ⟨-, _, _, -, hcarries⟩ := h.shape.txt row hrow htype
    obtain ⟨data, hdecode, -⟩ := hcarries.decodes
    refine ⟨data, hdecode, fun interestLifetime keys ↦ ?_⟩
    rw [← htype]
    exact h.obtains_text_iff hsigns hrow htext hdelegation hdecode
  · intro row hrow hdelegates
    obtain ⟨htype, data, hdecode, -⟩ := id hdelegates
    refine ⟨data, hdecode, fun interestLifetime keys ↦ ?_⟩
    rw [← htype]
    exact h.obtains_link hrow ((h.isLink_iff hrow).mpr hdelegates) hdecode

end Resolutions

section Examples

open LocalServices NameServer

attribute [local instance] ndnPacketFormat

/-- The tables after the creation of the zone /n in an empty database. -/
def netZone : Database :=
  ((ManagementTool.createZone [letter 110] [] 3600 [] [] []).run (World.handle localServices)
    ⟨Database.empty, 0⟩).2.db

/-- The tables after the addition of a TXT record to this zone. -/
def withText (label : Name) (db : Database) : Database :=
  ((ManagementTool.addRr [letter 110] label Label.txtRrType 1 3600 [] [] []).run
    (World.handle localServices) ⟨db, 0⟩).2.db


theorem netZone_step : (ManagementTool.createZone [letter 110] [] 3600 [] [] []).Returns
    (World.handle localServices) ⟨Database.empty, 0⟩ ⟨1, [letter 110], 3600⟩
      ((ManagementTool.createZone [letter 110] [] 3600 [] [] []).run (World.handle localServices)
        ⟨Database.empty, 0⟩).2 :=
  Prod.ext rfl rfl

theorem withText_adds (label : Name) (db : Database)
    (h : ((ManagementTool.addRr [letter 110] label Label.txtRrType 1 3600 [] [] []).run
      (World.handle localServices) ⟨db, 0⟩).1 = .ok ()) :
    AddsRecord db (withText label db) :=
  ⟨ℕ, localServices, 0, _, [letter 110], label, [], Label.txtRrType, 1, 3600, [], [], Or.inr rfl,
    Prod.ext h rfl⟩

theorem resolvable_text : ∃ row ∈ records (withText [letter 119] netZone) 1,
    row.label = [letter 119] ∧ ∃ data, PacketFormat.decode row.data = some data ∧
      ∀ interestLifetime keys,
        Obtains localServices netServer ⟨withText [letter 119] netZone, keys⟩
          (resolution [letter 110] [letter 119] Label.txtRrType interestLifetime) data := by
  have hadditions : Relation.ReflTransGen AddsRecord netZone (withText [letter 119] netZone) :=
    Relation.ReflTransGen.single (withText_adds [letter 119] netZone (by decide))
  have hserver : netServer.zone.id = 1 ∧ netServer.zone.name = [letter 110] := ⟨rfl, rfl⟩
  have hsigns : localServices.SignsByDefault := fun _ _ ↦ rfl
  obtain ⟨row, hrow, hlabel, htype⟩ : ∃ row ∈ records (withText [letter 119] netZone) 1,
      row.label = [letter 119] ∧ row.type = Label.txtRrType := by decide
  have hnone : ∀ ns ∈ records (withText [letter 119] netZone) 1, ns.type ≠ Label.nsRrType := by
    decide
  obtain ⟨data, hdecode, hobtains⟩ := (resolvable_run Database.valid_empty
    (by simp [Database.empty]) netZone_step hadditions hserver hsigns).1 row hrow htype
      fun ns hns _ _ hdelegates ↦ hnone ns hns hdelegates.1
  rw [hlabel] at hobtains
  refine ⟨row, hrow, hlabel, data, hdecode, fun interestLifetime keys ↦
    (hobtains interestLifetime keys).mpr (Or.inr (Or.inr (Or.inr ?_)))⟩
  unfold EndsAscend
  decide

/-- The zone with TXT records at the apex and at /w. -/
def netPair : Database := withText [letter 119] (withText [] netZone)

/-- The ends of its chain descend and no record is below /w/NS, so the resolution of the record at
/w ends with an exception. -/
theorem unresolvable_text : ∃ zone' world',
    (ManagementTool.createZone [letter 110] [] 3600 [] [] []).Returns (World.handle localServices)
        ⟨Database.empty, 0⟩ zone' world' ∧
      Relation.ReflTransGen AddsRecord world'.db netPair ∧ netServer.zone.id = zone'.id ∧
      ∃ row ∈ records netPair zone'.id, row.type = Label.txtRrType ∧
        (∀ ns ∈ records netPair zone'.id, ¬ Delegates ns) ∧
        ∀ data, ¬ Obtains localServices netServer ⟨netPair, 0⟩
          (resolution [letter 110] row.label Label.txtRrType 4000) data := by
  have hadditions : Relation.ReflTransGen AddsRecord netZone netPair :=
    (Relation.ReflTransGen.single (withText_adds [] netZone (by decide))).tail
      (withText_adds [letter 119] _ (by decide +kernel))
  obtain ⟨row, hrow, hlabel, htype⟩ : ∃ row ∈ records netPair 1,
      row.label = [letter 119] ∧ row.type = Label.txtRrType := by decide +kernel
  have hnone : ∀ ns ∈ records netPair 1, ns.type ≠ Label.nsRrType := by decide +kernel
  have hlast : ((exchange localServices netServer)^[1] (Session.begin (resolution [letter 110]
      [letter 119] Label.txtRrType 4000), ⟨netPair, 0⟩)).1.outcomes.head? =
        some (.error .unconvincingDenial) := by decide +kernel
  refine ⟨_, _, netZone_step, hadditions, rfl, row, hrow, htype,
    fun ns hns hdelegates ↦ hnone ns hns hdelegates.1, fun data ↦ ?_⟩
  rw [hlabel]
  exact not_obtains_of_error data hlast

end Examples

end Ndns.Mgmt
