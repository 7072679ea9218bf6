import Ndns.Calls.Inevitability
import Ndns.Clients.NsCache
import Ndns.Clients.ZoneWalk
import Ndns.Mgmt.Resolvability

/-!
# Resolution through Delegations

A lookup in a family of zones follows the delegations, from the first part of the label where a
zone does not say that it is responsible for longer ones.  Without a delegation there, the zone
answers, if it can deny the NS record of that part convincingly.  A resolution, which learns all
of this from the servers one answer after the other, comes to the finding of the lookup.
-/

namespace Ndns.Clients

open Ndn Calls Daemon Mgmt Order.CircularRanges

/-! ## Lookups -/

/-- What a lookup comes to. -/
inductive Finding where
  | record (row : RrsetRow)
  | absent (authority : Authority) (query : Name)
  | unconvinced
  | unanswered

namespace Authority

variable (authority : Authority)

/-- The records of the zone. -/
def records : List RrsetRow := Mgmt.records authority.db authority.server.zone.id

/-- The record of a label and a type. -/
def stored (label : Name) (type : Component) : Option RrsetRow :=
  DbMgr.keyRow authority.db authority.server.zone.id label type

/-- The denial of a name convinces with a record below the name, or with ascending ends. -/
def Convinces (query : Name) : Prop :=
  (∃ row ∈ authority.records, row.label ++ [row.type] < query) ∨
    EndsAscend authority.db authority.server.zone.id

instance (query : Name) : Decidable (authority.Convinces query) :=
  inferInstanceAs (Decidable ((∃ row ∈ authority.records, row.label ++ [row.type] < query) ∨
    ∃ low ∈ authority.records, ∃ high ∈ authority.records,
      (∀ row ∈ authority.records, recordKey low ≤ recordKey row ∧ recordKey row ≤ recordKey high) ∧
        low.label ++ [low.type] < high.label ++ [high.type]))

/-- What the zone itself says about a label and a type. -/
def finding (label : Name) (type : Component) : Finding :=
  match authority.stored label type with
  | some row => .record row
  | none => .absent authority (label ++ [type])

variable {authority} in
theorem mem_of_stored {label : Name} {type : Component} {row : RrsetRow} (hqueried : Queried type)
    (h : authority.stored label type = some row) :
    row ∈ authority.records ∧ row.label = label ∧ row.type = type := by
  obtain ⟨hmem, hzone, rfl, rfl⟩ := DbMgr.keyRow_eq_some h
  exact ⟨mem_records.mpr ⟨hmem, hzone, hqueried.notDoe⟩, rfl, rfl⟩

variable {authority} in
theorem finding_of_stored {label : Name} {type : Component} {row : RrsetRow}
    (h : authority.stored label type = some row) : authority.finding label type = .record row := by
  rw [finding, h]

variable [PacketFormat]

/-- The content type of the NS record of a label. -/
def nsType (label : Name) : Option NdnsContentType :=
  ((authority.stored label Label.nsRrType).bind fun row ↦ PacketFormat.decode row.data).map
    fun data ↦ .ofCode data.contentType

/-- The length of the first part of a label without an AUTH record. -/
def border (label : Name) : Option ℕ :=
  (List.range' 1 label.length).find? fun count ↦ authority.nsType (label.take count) ≠ some .auth

theorem border_eq_none {label : Name} (h : authority.border label = none) {count : ℕ}
    (hpos : 0 < count) (hcount : count ≤ label.length) :
    authority.nsType (label.take count) = some .auth := by
  have hall := List.find?_eq_none.mp h count (List.mem_range'_1.mpr ⟨hpos, by omega⟩)
  simpa using hall

theorem border_eq_some {label : Name} {count : ℕ} (h : authority.border label = some count) :
    0 < count ∧ count ≤ label.length ∧ authority.nsType (label.take count) ≠ some .auth ∧
      ∀ index, 0 < index → index < count →
        authority.nsType (label.take index) = some .auth := by
  obtain ⟨hcount, hmem, hbefore⟩ := List.find?_range'_eq_some.mp h
  rw [List.mem_range'_1] at hmem
  refine ⟨hmem.1, by omega, by simpa using hcount, fun index hpos hlt ↦ ?_⟩
  simpa using hbefore index hpos hlt

end Authority

namespace ZoneFamily

variable [PacketFormat] {Keys : Type}

/-- A lookup through the delegations of a family of zones. -/
def lookup (family : ZoneFamily Keys) (rrType : Component) (zone label : Name) : Finding :=
  match family.authority zone with
  | none => .unanswered
  | some authority =>
      match _ : authority.border label with
      | none => authority.finding label rrType
      | some count =>
          if authority.nsType (label.take count) = some .link then
            if count = label.length ∧ rrType = Label.nsRrType then authority.finding label rrType
            else lookup family rrType (zone ++ label.take count) (label.drop count)
          else if authority.Convinces (label.take count ++ [Label.nsRrType]) then
            authority.finding label rrType
          else .unconvinced
termination_by label.length
decreasing_by
  obtain ⟨hpos, hcount, -⟩ := authority.border_eq_some ‹_›
  rw [List.length_drop]
  omega

section

variable {family : ZoneFamily Keys} {authority : Authority} {rrType : Component} {zone label : Name}

theorem lookup_unanswered (hauthority : family.authority zone = none) :
    family.lookup rrType zone label = .unanswered := by
  rw [lookup, hauthority]

theorem lookup_end (hauthority : family.authority zone = some authority)
    (hborder : authority.border label = none) :
    family.lookup rrType zone label = authority.finding label rrType := by
  rw [lookup, hauthority]
  dsimp only
  split
  · rfl
  · next hsome => exact absurd (hsome.symm.trans hborder) (Option.some_ne_none _)

theorem lookup_border {count : ℕ} (hauthority : family.authority zone = some authority)
    (hborder : authority.border label = some count) :
    family.lookup rrType zone label =
      if authority.nsType (label.take count) = some .link then
        if count = label.length ∧ rrType = Label.nsRrType then authority.finding label rrType
        else family.lookup rrType (zone ++ label.take count) (label.drop count)
      else if authority.Convinces (label.take count ++ [Label.nsRrType]) then
        authority.finding label rrType
      else .unconvinced := by
  rw [lookup, hauthority]
  dsimp only
  split
  · next hnone => exact absurd (hborder.symm.trans hnone) (Option.some_ne_none _)
  · next found hfound =>
      obtain rfl := Option.some.inj (hborder.symm.trans hfound)
      rfl

end

/-- Every zone of the family is served, and the validator accepts what its server sends. -/
structure Served (family : ZoneFamily Keys) : Prop where
  serves : ∀ {zone authority}, family.authority zone = some authority →
    Serves zone authority.server.zone.id authority.db
  accepts : ∀ packet, family.accepts packet = true

end ZoneFamily

/-- A session that has ended with a finding. -/
def Session.Finds [PacketFormat] (session : Session) : Finding → Prop
  | .record row => ∃ data, PacketFormat.decode row.data = some data ∧ session.Delivers data
  | .absent authority query => ∃ doe range, session.Delivers doe ∧
      Response.wireDecodeDoe doe.content = some range ∧
        (Excludes range query ↔ authority.Convinces query)
  | .unconvinced => session.Raises .unconvincingDenial
  | .unanswered => session.Fails

/-! ## Answers -/

/-- What a session asks for. -/
theorem Session.Awaits.asks {session : Session} {zone label : Name} {rrType : Component}
    {step : QueryStep} {count : ℕ} (h : session.Awaits zone label rrType step count) :
    ∃ query, session.asks = some query ∧ query.question.zone = zone ∧
      query.interest.name = Label.recordName zone
        (IterativeQueryController.askedLabel label count step)
        (IterativeQueryController.askedType rrType step) := by
  obtain ⟨interest, hpending, hname⟩ := h.pending
  refine ⟨⟨session.controller.question, interest⟩, ?_, h.position.zone_eq, hname⟩
  rw [Session.asks, hpending, Option.map_some]

section

variable [PacketFormat] {Keys : Type} {family : ZoneFamily Keys} {authority : Authority}
  {zone label : Name} {type : Component} {row : RrsetRow} {data validated : Data}
  {contentType : NdnsContentType} {query : Expressed} {event : Event}

namespace Authority

theorem stored_of_mem (h : Serves zone authority.server.zone.id authority.db)
    (hrow : row ∈ authority.records) : authority.stored row.label row.type = some row :=
  keyRow_of_mem h.shape.keys hrow

end Authority

namespace ZoneFamily

/-- The server of a zone answers what it is asked as it answers an Interest. -/
theorem answers_iff (hauthority : family.authority zone = some authority)
    (hzone : query.question.zone = zone) (hqueried : Queried type)
    (hname : query.interest.name = Label.recordName zone label type) :
    family.Answers query event ↔ ∃ keys, event = family.replyEvent
      ((authority.server.onInterest query.interest).run (World.handle family.services)
        ⟨authority.db, keys⟩).1 query.interest := by
  have hserver := family.authoritative hauthority
  have hquery : ∀ re, Label.matchInterestName query.interest.name authority.server.zone.name =
      .matched re → re.rrType ≠ Label.ndnsUpdateLabel := by
    intro re hmatch
    rw [hname, hserver, Label.matchInterestName_recordName _ _ hqueried.notVersion] at hmatch
    cases hmatch
    exact hqueried.notUpdate
  rw [Answers, hzone, hauthority, NameServer.onInterest_eq_answerQuery hquery]

/-- What the validator accepts is delivered. -/
theorem Served.replyEvent (h : family.Served) {interest : Interest}
    (hmatches : data.matches interest)
    (hunwrap : IterativeQueryController.unwrap data = some (validated, contentType)) :
    family.replyEvent (.ok (some data)) interest = .data data true := by
  rw [ZoneFamily.replyEvent, if_pos hmatches, verdict, hunwrap]
  exact congrArg (Event.data data) (h.accepts validated)

/-- A query for a stored record is answered with its packet. -/
theorem Served.answers_found [Nonempty Keys] (h : family.Served)
    (hauthority : family.authority zone = some authority) (hzone : query.question.zone = zone)
    (hqueried : Queried type) (hname : query.interest.name = Label.recordName zone label type)
    (hstored : authority.stored label type = some row)
    (hdecode : PacketFormat.decode row.data = some data)
    (hmatches : data.matches query.interest)
    (hunwrap : IterativeQueryController.unwrap data = some (validated, contentType)) :
    family.Answers query event ↔ event = .data data true := by
  have hserver := family.authoritative hauthority
  have hserves : Serves authority.server.zone.name authority.server.zone.id authority.db :=
    hserver.symm ▸ h.serves hauthority
  obtain ⟨hrow, rfl, rfl⟩ := Authority.mem_of_stored hqueried hstored
  have hrun : ∀ keys, ((authority.server.onInterest query.interest).run
      (World.handle family.services) ⟨authority.db, keys⟩) = _ :=
    hserves.run_onInterest_found hrow hqueried hdecode (hserver.symm ▸ hname)
  simp only [answers_iff hauthority hzone hqueried hname, hrun, h.replyEvent hmatches hunwrap,
    exists_const]

/-- The denial record inside an answer is the one whose packet the answer carries. -/
theorem unwrap_denial {answer doe : Data} {wire : Block} {name : Name} {content : Blob}
    (hnack : NdnsContentType.ofCode answer.contentType = .nack)
    (hcontent : answer.content = contentOf wire)
    (hwire : RrsetFactory.Carries wire name .doe content)
    (hdecode : PacketFormat.decode wire = some doe) :
    IterativeQueryController.unwrap answer = some (doe, .doe) := by
  have htype : wire.type ≠ contentTlvType := by
    rw [hwire.type_eq]
    decide
  rw [IterativeQueryController.unwrap, if_pos hnack, hcontent, blockFromValue_contentOf htype,
    Option.bind_some, hdecode, Option.map_some]

/-- A denial of the zone as its clients get it. -/
structure Denies (authority : Authority) (zone query : Name) (doe : Data) (range : Name × Name) :
    Prop where
  wire : Response.wireDecodeDoe doe.content = some range
  long : zone.length < doe.name.length
  content : (parseBlocks doe.content).isSome
  convinces : Excludes range query ↔ authority.Convinces query

/-- A query for an absent record is answered with a denial. -/
theorem Served.answers_absent (h : family.Served)
    (hauthority : family.authority zone = some authority) (hzone : query.question.zone = zone)
    (hqueried : Queried type) (hname : query.interest.name = Label.recordName zone label type)
    (habsent : authority.stored label type = none) (hanswer : family.Answers query event) :
    ∃ answer doe range, event = .data answer true ∧
      IterativeQueryController.unwrap answer = some (doe, .doe) ∧
      Denies authority zone (label ++ [type]) doe range := by
  have hserver := family.authoritative hauthority
  have hserves := h.serves hauthority
  obtain ⟨first, second, rest, hnames⟩ := hserves.shape.two_names
  have hquery : label ++ [type] ∉ recordNames authority.db authority.server.zone.id := by
    rw [notMem_recordNames]
    rintro row hrow ⟨rfl, rfl⟩
    exact Option.some_ne_none row ((Authority.stored_of_mem hserves hrow).symm.trans habsent)
  obtain ⟨row, denial, hlower, hmem, hisDenial, hdenial, hbelow, hgreatest⟩ :=
    hserves.chained.lowerBoundRow (hnames ▸ List.cons_ne_nil _ _)
      (List.append_ne_nil_of_right_ne_nil label (List.cons_ne_nil type []))
  obtain ⟨content, hencode, hcarries⟩ := hisDenial.packet
  obtain ⟨doe, hdecode, hdoeName, -, hdoe⟩ := hcarries.decodes
  obtain ⟨keys, rfl⟩ := (answers_iff hauthority hzone hqueried hname).mp hanswer
  obtain ⟨answer, version, keys', hrun, hanswerName, hnack, hcontent⟩ :=
    @NameServer.run_denyQuery _ family.services ⟨authority.db, keys⟩ authority.server query.interest
      ⟨label, type, Component.empty⟩ row family.signs hlower
        (hserves.valid.ids_pos row hmem).ne'
  have hunwrap := unwrap_denial hnack hcontent hcarries hdecode
  have hkey : DbMgr.keyRow authority.db authority.server.zone.id label type = none := habsent
  obtain ⟨blocks, hblocks, -⟩ := parseBlocks_of_encodeNames hencode
  refine ⟨answer, doe, denial.2, ?_, hunwrap, ?_, ?_, ?_, ?_⟩
  · rw [NameServer.run_onInterest_query hqueried (hserver.symm ▸ hname),
      NameServer.run_handleQuery_absent hkey, hrun]
    exact h.replyEvent ⟨_, hanswerName.symm⟩ hunwrap
  · rw [hdoe]
    exact Response.wireDecodeDoe_encodeNames hencode
  · rw [hdoeName, Label.recordName]
    simp only [List.length_append, List.length_cons]
    omega
  · rw [hdoe, hblocks]
    rfl
  · exact excludes_iff_below hnames (nodup_recordNames hserves.shape.keys) hdenial hbelow hquery
      hgreatest

theorem answers_none (hauthority : family.authority zone = none)
    (hzone : query.question.zone = zone) : family.Answers query event ↔ event = .timeout := by
  rw [Answers, hzone, hauthority]

/-- Every query is answered. -/
theorem exists_answers [Nonempty Keys] (query : Expressed) :
    ∃ event, family.Answers query event := by
  unfold Answers
  cases family.authority query.question.zone with
  | none => exact ⟨.timeout, rfl⟩
  | some authority => exact ⟨_, Classical.arbitrary Keys, rfl⟩

/-! ## Stored records -/

/-- The packet of a record as its clients get it. -/
structure Readable (zone : Name) (row : RrsetRow) (data : Data) : Prop where
  decode : PacketFormat.decode row.data = some data
  name : data.name = Label.recordName zone row.label row.type ++ [row.version]
  unwrap : IterativeQueryController.unwrap data = some (data, .ofCode data.contentType)
  content : (parseBlocks data.content).isSome
  delegations : NdnsContentType.ofCode data.contentType = .link →
    ∃ names, linkDelegations data = some names

theorem Readable.long (h : Readable zone row data) : zone.length < data.name.length := by
  rw [h.name, Label.recordName]
  simp only [List.length_append, List.length_cons]
  omega

/-- A record that was made for the zone can be read, whatever its type is. -/
theorem readable_of_carries {made : NdnsContentType} {content : Blob}
    (hcarries : RowCarries zone row made content)
    (hmade : NdnsContentType.ofCode made.toCode = made) (hnack : made ≠ .nack)
    (hcontent : (parseBlocks content).isSome)
    (hdelegations : made = .link → ∃ names, encodeNames names = some content) :
    ∃ data, Readable zone row data ∧ NdnsContentType.ofCode data.contentType = made := by
  obtain ⟨data, hdecode, hname, hcode, rfl⟩ := hcarries.decodes
  have htype : NdnsContentType.ofCode data.contentType = made := by rw [hcode, hmade]
  refine ⟨data, ⟨hdecode, hname, ?_, hcontent, fun hlink ↦ ?_⟩, htype⟩
  · rw [IterativeQueryController.unwrap, if_neg (htype.symm ▸ hnack)]
  · obtain rfl := htype.symm.trans hlink
    obtain ⟨names, hencode⟩ := hdelegations rfl
    obtain ⟨blocks, hblocks, hnames, -⟩ := parseBlocks_of_encodeNames hencode
    refine ⟨names, ?_⟩
    rw [linkDelegations, if_pos (by rw [hcode]; rfl), hblocks, Option.bind_some, hnames]

/-- The NS and TXT records of a served zone can be read. -/
theorem Served.readable (h : family.Served) (hauthority : family.authority zone = some authority)
    (htype : type = Label.nsRrType ∨ type = Label.txtRrType)
    (hstored : authority.stored label type = some row) : ∃ data, Readable zone row data ∧
      (type = Label.nsRrType → NdnsContentType.ofCode data.contentType = .link ∨
        NdnsContentType.ofCode data.contentType = .auth) := by
  have hshape := (h.serves hauthority).shape
  have hqueried : Queried type := by
    rcases htype with rfl | rfl
    · exact queried_ns
    · exact queried_txt
  obtain ⟨hrow, rfl, rfl⟩ := Authority.mem_of_stored hqueried hstored
  rcases htype with htype | htype
  · rcases hshape.ns row hrow htype with ⟨-, names, content, hencode, hcarries⟩ | ⟨-, hcarries⟩
    · obtain ⟨blocks, hblocks, -⟩ := parseBlocks_of_encodeNames hencode
      obtain ⟨data, hdata, hcontentType⟩ := readable_of_carries hcarries rfl (by decide)
        (by rw [hblocks]; rfl) fun _ ↦ ⟨names, hencode⟩
      exact ⟨data, hdata, fun _ ↦ Or.inl hcontentType⟩
    · obtain ⟨data, hdata, hcontentType⟩ := readable_of_carries hcarries rfl (by decide)
        rfl fun hlink ↦ absurd hlink (by decide)
      exact ⟨data, hdata, fun _ ↦ Or.inr hcontentType⟩
  · obtain ⟨-, strings, content, hencode, hcarries⟩ := hshape.txt row hrow htype
    obtain ⟨data, hdata, -⟩ := readable_of_carries hcarries rfl (by decide)
      (isSome_parseBlocks_encodeStrings hencode) fun hlink ↦ absurd hlink (by decide)
    exact ⟨data, hdata, fun hns ↦ absurd (htype.symm.trans hns) (by decide)⟩

/-- What the content type of an NS record says about the record. -/
theorem Served.nsType_eq_some (h : family.Served)
    (hauthority : family.authority zone = some authority)
    (hcontentType : authority.nsType label = some contentType) :
    ∃ row data, authority.stored label Label.nsRrType = some row ∧ Readable zone row data ∧
      NdnsContentType.ofCode data.contentType = contentType := by
  obtain ⟨data, hbind, rfl⟩ := Option.map_eq_some_iff.mp hcontentType
  obtain ⟨row, hstored, hdecode⟩ := Option.bind_eq_some_iff.mp hbind
  obtain ⟨data', hdata, -⟩ := h.readable hauthority (Or.inl rfl) hstored
  obtain rfl := Option.some.inj (hdecode.symm.trans hdata.decode)
  exact ⟨row, data, hstored, hdata, rfl⟩

/-- An NS record is a delegation or an AUTH record. -/
theorem Served.stored_eq_none (h : family.Served)
    (hauthority : family.authority zone = some authority)
    (hauth : authority.nsType label ≠ some .auth) (hlink : authority.nsType label ≠ some .link) :
    authority.stored label Label.nsRrType = none := by
  rw [Option.eq_none_iff_forall_ne_some]
  intro row hstored
  obtain ⟨data, hdata, hns⟩ := h.readable hauthority (Or.inl rfl) hstored
  have hcontentType : authority.nsType label = some (.ofCode data.contentType) := by
    rw [Authority.nsType, hstored, Option.bind_some, hdata.decode, Option.map_some]
  rcases hns rfl with hof | hof
  · exact hlink (hcontentType.trans (congrArg some hof))
  · exact hauth (hcontentType.trans (congrArg some hof))

/-! ## Resolutions -/

section

open IterativeQueryController

variable [Nonempty Keys] {session : Session} {rrType : Component} {step : QueryStep} {count : ℕ}
  {goal : Session → Prop}

theorem Served.inevitable_found (h : family.Served)
    (hauthority : family.authority zone = some authority)
    (hawaits : session.Awaits zone label rrType step count)
    (hqueried : Queried (askedType rrType step))
    (hstored : authority.stored (askedLabel label count step) (askedType rrType step) = some row)
    (hdata : Readable zone row data)
    (hgoal : family.inquiry.Inevitable goal (session.handle (.data data true))) :
    family.inquiry.Inevitable goal session := by
  obtain ⟨query, hasks, hzone, hname⟩ := hawaits.asks
  obtain ⟨-, hlabel, htype⟩ := Authority.mem_of_stored hqueried hstored
  have hmatches : data.matches query.interest := by
    rw [Data.matches, hname, hdata.name, hlabel, htype]
    exact List.prefix_append _ _
  refine .asks hasks (exists_answers query) fun event hevent ↦ ?_
  rw [(h.answers_found hauthority hzone hqueried hname hstored hdata.decode hmatches
    hdata.unwrap).mp hevent]
  exact hgoal

theorem Served.inevitable_absent (h : family.Served)
    (hauthority : family.authority zone = some authority)
    (hawaits : session.Awaits zone label rrType step count)
    (hqueried : Queried (askedType rrType step))
    (habsent : authority.stored (askedLabel label count step) (askedType rrType step) = none)
    (hgoal : ∀ answer doe range, unwrap answer = some (doe, .doe) →
      Denies authority zone (askedLabel label count step ++ [askedType rrType step]) doe range →
        family.inquiry.Inevitable goal (session.handle (.data answer true))) :
    family.inquiry.Inevitable goal session := by
  obtain ⟨query, hasks, hzone, hname⟩ := hawaits.asks
  refine .asks hasks (exists_answers query) fun event hevent ↦ ?_
  obtain ⟨answer, doe, range, rfl, hunwrap, hdenies⟩ :=
    h.answers_absent hauthority hzone hqueried hname habsent hevent
  exact hgoal answer doe range hunwrap hdenies

/-- A resolution that asks for the record itself comes to what the zone says about it. -/
theorem Served.inevitable_finding (h : family.Served)
    (hauthority : family.authority zone = some authority)
    (hrrType : rrType = Label.nsRrType ∨ rrType = Label.txtRrType)
    (hawaits : session.Awaits zone label rrType .queryRr count) :
    family.inquiry.Inevitable (·.Finds (authority.finding label rrType)) session := by
  have hqueried : Queried (askedType rrType .queryRr) := by
    rcases hrrType with rfl | rfl
    · exact queried_ns
    · exact queried_txt
  unfold Authority.finding
  cases hstored : authority.stored label rrType with
  | some row =>
      obtain ⟨data, hdata, -⟩ := h.readable hauthority hrrType hstored
      exact h.inevitable_found hauthority hawaits hqueried hstored hdata (.reached
        ⟨data, hdata.decode, hawaits.delivers hdata.unwrap hdata.long hdata.content⟩)
  | none =>
      refine h.inevitable_absent hauthority hawaits hqueried hstored
        fun answer doe range hunwrap hdenies ↦ .reached ⟨doe, range, ?_, hdenies.wire,
          hdenies.convinces⟩
      exact hawaits.delivers hunwrap hdenies.long hdenies.content

/-- Over AUTH records, a resolution comes to a longer part of its label. -/
theorem Served.inevitable_part (h : family.Served)
    (hauthority : family.authority zone = some authority) (henters : session.Enters zone label rrType)
    (hlabel : label ≠ []) (hcount : count < label.length)
    (hauth : ∀ index, 0 < index → index < count + 1 →
      authority.nsType (label.take index) = some .auth) :
    family.inquiry.Inevitable (·.Awaits zone label rrType .queryNs (count + 1)) session := by
  induction count with
  | zero =>
      rw [Session.Enters, if_neg hlabel] at henters
      exact .reached henters
  | succ count ih =>
      have hbefore := ih (by omega) fun index hpos hlt ↦ hauth index hpos (by omega)
      refine hbefore.trans fun session hawaits ↦ ?_
      obtain ⟨row, data, hstored, hdata, hcontentType⟩ :=
        h.nsType_eq_some hauthority (hauth (count + 1) (by omega) (by omega))
      exact h.inevitable_found hauthority hawaits queried_ns hstored hdata
        (.reached (hawaits.auth (hcontentType ▸ hdata.unwrap) hcount))

/-- Over AUTH records up to its end, a resolution comes to what the zone says about its label. -/
theorem Served.inevitable_end (h : family.Served)
    (hauthority : family.authority zone = some authority)
    (hrrType : rrType = Label.nsRrType ∨ rrType = Label.txtRrType)
    (henters : session.Enters zone label rrType) (hborder : authority.border label = none) :
    family.inquiry.Inevitable (·.Finds (authority.finding label rrType)) session := by
  by_cases hlabel : label = []
  · rw [Session.Enters, if_pos hlabel] at henters
    exact h.inevitable_finding hauthority hrrType henters
  · have hpos : 0 < label.length := List.length_pos_of_ne_nil hlabel
    have hpart := h.inevitable_part hauthority henters hlabel (Nat.sub_one_lt hpos.ne')
      fun index hindex hlt ↦ authority.border_eq_none hborder hindex (by omega)
    rw [Nat.sub_add_cancel hpos] at hpart
    refine hpart.trans fun session hawaits ↦ ?_
    obtain ⟨row, data, hstored, hdata, hcontentType⟩ :=
      h.nsType_eq_some hauthority (authority.border_eq_none hborder hpos le_rfl)
    have hunwrap : unwrap data = some (data, .auth) := hcontentType ▸ hdata.unwrap
    refine h.inevitable_found hauthority hawaits queried_ns hstored hdata ?_
    by_cases hns : rrType = Label.nsRrType
    · subst hns
      rw [List.take_length] at hstored
      rw [Authority.finding_of_stored hstored]
      exact .reached ⟨data, hdata.decode, hawaits.delivers_auth hunwrap hdata.long hdata.content⟩
    · exact h.inevitable_finding hauthority hrrType (hawaits.auth_end hunwrap hns)

/-- A resolution comes to the first part of its label without an AUTH record. -/
theorem Served.inevitable_border (h : family.Served)
    (hauthority : family.authority zone = some authority)
    (henters : session.Enters zone label rrType) (hborder : authority.border label = some count) :
    family.inquiry.Inevitable (·.Awaits zone label rrType .queryNs count) session := by
  obtain ⟨hpos, hcount, -, hbefore⟩ := authority.border_eq_some hborder
  have hlabel : label ≠ [] := List.ne_nil_of_length_pos (hpos.trans_le hcount)
  have hpart := h.inevitable_part hauthority henters hlabel (by omega : count - 1 < label.length)
    fun index hindex hlt ↦ hbefore index hindex (by omega)
  rwa [Nat.sub_add_cancel hpos] at hpart

/-- What the denial of the NS record at the border leads to. -/
theorem Served.inevitable_denied (h : family.Served)
    (hauthority : family.authority zone = some authority)
    (hrrType : rrType = Label.nsRrType ∨ rrType = Label.txtRrType)
    (henters : session.Enters zone label rrType) (hborder : authority.border label = some count)
    (hlink : authority.nsType (label.take count) ≠ some .link) :
    family.inquiry.Inevitable (·.Finds
      (if authority.Convinces (label.take count ++ [Label.nsRrType]) then
        authority.finding label rrType
      else .unconvinced)) session := by
  obtain ⟨-, hcount, hauth, -⟩ := authority.border_eq_some hborder
  have habsent := h.stored_eq_none hauthority hauth hlink
  refine (h.inevitable_border hauthority henters hborder).trans fun session hawaits ↦ ?_
  refine h.inevitable_absent hauthority hawaits queried_ns habsent
    fun answer doe range hunwrap hdenies ↦ ?_
  have hconvinces := isAbsentByRange_iff.trans hdenies.convinces
  split_ifs with hconvincing
  · exact h.inevitable_finding hauthority hrrType
      (hawaits.denial hunwrap hdenies.wire hcount (hconvinces.mpr hconvincing))
  · exact .reached (hawaits.unconvinced hunwrap hdenies.wire (hconvinces.not.mpr hconvincing))

/-- A resolution through served zones comes to the finding of the lookup, whatever the key chains
of the servers do. -/
theorem Served.inevitable_lookup (h : family.Served)
    (hrrType : rrType = Label.nsRrType ∨ rrType = Label.txtRrType)
    (henters : session.Enters zone label rrType) :
    family.inquiry.Inevitable (·.Finds (family.lookup rrType zone label)) session := by
  induction zone, label using ZoneFamily.lookup.induct family rrType generalizing session with
  | case1 zone label hauthority =>
      obtain ⟨query, hasks, hzone, -⟩ := henters.asks
      rw [lookup_unanswered hauthority]
      refine .asks hasks (exists_answers query) fun event hevent ↦ ?_
      rw [(answers_none hauthority hzone).mp hevent]
      exact .reached session.fails_of_timeout
  | case2 zone label authority hauthority hborder =>
      rw [lookup_end hauthority hborder]
      exact h.inevitable_end hauthority hrrType henters hborder
  | case3 zone label authority hauthority count hborder hlink hwhole =>
      obtain ⟨rfl, rfl⟩ := hwhole
      rw [lookup_border hauthority hborder, if_pos hlink, if_pos ⟨rfl, rfl⟩]
      refine (h.inevitable_border hauthority henters hborder).trans fun session hawaits ↦ ?_
      obtain ⟨row, data, hstored, hdata, hcontentType⟩ := h.nsType_eq_some hauthority hlink
      obtain ⟨names, hnames⟩ := hdata.delegations hcontentType
      refine h.inevitable_found hauthority hawaits queried_ns hstored hdata ?_
      rw [List.take_length] at hstored
      rw [Authority.finding_of_stored hstored]
      exact .reached ⟨data, hdata.decode, hawaits.delivers_link (hcontentType ▸ hdata.unwrap) hnames
        hdata.long hdata.content⟩
  | case4 zone label authority hauthority count hborder hlink honward ih =>
      rw [lookup_border hauthority hborder, if_pos hlink, if_neg honward]
      obtain ⟨-, hcount, -⟩ := authority.border_eq_some hborder
      refine (h.inevitable_border hauthority henters hborder).trans fun session hawaits ↦ ?_
      obtain ⟨row, data, hstored, hdata, hcontentType⟩ := h.nsType_eq_some hauthority hlink
      obtain ⟨names, hnames⟩ := hdata.delegations hcontentType
      exact h.inevitable_found hauthority hawaits queried_ns hstored hdata
        (ih (hawaits.link (hcontentType ▸ hdata.unwrap) hnames hcount honward))
  | case5 zone label authority hauthority count hborder hlink =>
      rw [lookup_border hauthority hborder, if_neg hlink]
      exact h.inevitable_denied hauthority hrrType henters hborder hlink
  | case6 zone label authority hauthority count hborder hlink =>
      rw [lookup_border hauthority hborder, if_neg hlink]
      exact h.inevitable_denied hauthority hrrType henters hborder hlink

end

/-- Every zone of the family was created and added to with the tools, and the validator accepts what
its server sends. -/
structure Published (family : ZoneFamily Keys) : Prop where
  created : ∀ {zone authority}, family.authority zone = some authority →
    ∃ (Tools : Type) (services : Services Tools) (world world' : World Tools)
      (parentZoneName kskCertName dskCertName dkeyCertName : Name) (cacheTtl : ℤ) (created : Zone),
      world.db.Valid ∧
      (∀ row ∈ world.db.rrsets, ∃ zone ∈ world.db.zones, zone.id = row.zoneId) ∧
      (ManagementTool.createZone zone parentZoneName cacheTtl kskCertName dskCertName
        dkeyCertName).Returns (World.handle services) world created world' ∧
      Relation.ReflTransGen AddsRecord world'.db authority.db ∧
      authority.server.zone.id = created.id
  accepts : ∀ packet, family.accepts packet = true

theorem Published.served (h : family.Published) : family.Served := by
  refine ⟨fun hauthority ↦ ?_, h.accepts⟩
  obtain ⟨_, _, _, _, _, _, _, _, _, _, hvalid, howned, hcreate, hadditions, hid⟩ :=
    h.created hauthority
  exact hid.symm ▸ serves_run hvalid howned hcreate hadditions

/-- A finding is an end. -/
theorem asks_of_finds {session : Session} {finding : Finding} (h : session.Finds finding) :
    family.inquiry.asks session = none := by
  have hpending : session.pending = none := by
    cases finding with
    | record row =>
        obtain ⟨data, -, hdelivers⟩ := h
        exact hdelivers.pending
    | absent authority query =>
        obtain ⟨doe, range, hdelivers, -⟩ := h
        exact hdelivers.pending
    | unconvinced => exact Session.Raises.pending h
    | unanswered => exact Session.Fails.pending h
  exact congrArg (Option.map _) hpending

/-- A resolution of a TXT or NS record through zones made with the tools comes to the finding of the
lookup, and has come to it wherever it ends. -/
theorem Published.resolution_finds_lookup [Nonempty Keys] (h : family.Published) {rrType : Component}
    (hrrType : rrType = Label.nsRrType ∨ rrType = Label.txtRrType) (zone label : Name)
    (interestLifetime : ℕ) :
    family.inquiry.Inevitable (·.Finds (family.lookup rrType zone label))
        (.begin (resolution zone label rrType interestLifetime)) ∧
      ∀ asked session,
        family.inquiry.Direct (.begin (resolution zone label rrType interestLifetime)) asked session →
          session.asks = none → session.Finds (family.lookup rrType zone label) := by
  have hinevitable := h.served.inevitable_lookup hrrType
    (Session.enters_begin zone label rrType interestLifetime)
  exact ⟨hinevitable, fun asked session hdirect hstops ↦
    hinevitable.goal_of_direct (fun client ↦ asks_of_finds) hdirect hstops⟩

end ZoneFamily

end

section Examples

open LocalServices

attribute [local instance] ndnPacketFormat

/-- The addition of a record to a zone. -/
def addition (zoneName label : Name) (type : Component) (db : Database) :
    Except Fault Unit × World ℕ :=
  (ManagementTool.addRr zoneName label type 1 3600 [] [[letter 120]] []).run
    (World.handle localServices) ⟨db, 0⟩

theorem addition_adds {zoneName label : Name} {type : Component} {db : Database}
    (htype : type = Label.nsRrType ∨ type = Label.txtRrType)
    (h : (addition zoneName label type db).1 = .ok ()) :
    AddsRecord db (addition zoneName label type db).2.db :=
  ⟨ℕ, localServices, 0, _, zoneName, label, [], type, 1, 3600, [[letter 120]], [], htype,
    Prod.ext h rfl⟩

/-- The zone /n with a delegation of /n/a. -/
def delegated : Authority where
  server := ⟨⟨1, [letter 110], 3600⟩, [], NameServer.defaultContentFreshness, Nat.one_pos⟩
  db := (addition [letter 110] [letter 97] Label.nsRrType netZone).2.db

/-- The zone /n/a in tables of its own. -/
def childZone : Except Fault Zone × World ℕ :=
  (ManagementTool.createZone [letter 110, letter 97] [letter 110] 3600 [] [] []).run
    (World.handle localServices) ⟨Database.empty, 0⟩

def delegate : Authority where
  server := ⟨⟨1, [letter 110, letter 97], 3600⟩, [], NameServer.defaultContentFreshness, Nat.one_pos⟩
  db := (addition [letter 110, letter 97] [letter 119] Label.txtRrType childZone.2.db).2.db

def publishedAuthority (zone : Name) : Option Authority :=
  if zone = [letter 110] then some delegated
  else if zone = [letter 110, letter 97] then some delegate
  else none

theorem zone_of_publishedAuthority {zone : Name} {authority : Authority}
    (h : publishedAuthority zone = some authority) : authority.server.zone.name = zone := by
  unfold publishedAuthority at h
  split_ifs at h with hzone hzone
  · cases h
    exact hzone.symm
  · cases h
    exact hzone.symm

theorem localServices_signsByDefault : localServices.SignsByDefault := fun _ _ ↦ rfl

def publishedFamily : ZoneFamily ℕ where
  services := localServices
  authority := publishedAuthority
  accepts _ := true
  signs := localServices_signsByDefault
  authoritative := zone_of_publishedAuthority

theorem publishedFamily_published : publishedFamily.Published := by
  refine ⟨fun {zone authority} h ↦ ?_, fun _ ↦ rfl⟩
  change publishedAuthority zone = some authority at h
  unfold publishedAuthority at h
  split_ifs at h with hzone hzone
  · obtain rfl := Option.some.inj h
    subst hzone
    refine ⟨ℕ, localServices, ⟨Database.empty, 0⟩, _, [], [], [], [], 3600, _,
      Database.valid_empty, by simp [Database.empty], netZone_step, .single ?_, rfl⟩
    exact addition_adds (Or.inl rfl) (by decide +kernel)
  · obtain rfl := Option.some.inj h
    subst hzone
    refine ⟨ℕ, localServices, ⟨Database.empty, 0⟩, childZone.2, [letter 110], [], [], [], 3600,
      ⟨1, [letter 110, letter 97], 3600⟩, Database.valid_empty, by simp [Database.empty],
      Prod.ext (by decide +kernel) rfl, .single ?_, rfl⟩
    exact addition_adds (Or.inr rfl) (by decide +kernel)

/-- The lookup of a TXT record in the delegated zone. -/
theorem lookup_delegated : ∃ row ∈ delegate.records, row.label = [letter 119] ∧
    publishedFamily.lookup Label.txtRrType [letter 110] [letter 97, letter 119] = .record row := by
  have hqueried : Queried Label.txtRrType := queried_txt
  obtain ⟨row, hstored⟩ : ∃ row, delegate.stored [letter 119] Label.txtRrType = some row :=
    Option.isSome_iff_exists.mp (by decide +kernel)
  obtain ⟨hrow, hlabel, -⟩ := Authority.mem_of_stored hqueried hstored
  refine ⟨row, hrow, hlabel, ?_⟩
  have hborder : delegated.border [letter 97, letter 119] = some 1 := by decide +kernel
  have hlink : delegated.nsType ([letter 97, letter 119].take 1) = some .link := by decide +kernel
  have hborder' : delegate.border ([letter 97, letter 119].drop 1) = some 1 := by decide +kernel
  have habsent : delegate.nsType (([letter 97, letter 119].drop 1).take 1) ≠ some .link := by
    decide +kernel
  have hconvinces : delegate.Convinces
      (([letter 97, letter 119].drop 1).take 1 ++ [Label.nsRrType]) := by
    decide +kernel
  rw [ZoneFamily.lookup_border rfl hborder, if_pos hlink, if_neg (by decide),
    ZoneFamily.lookup_border rfl hborder', if_neg habsent, if_pos hconvinces]
  exact Authority.finding_of_stored hstored

/-- From /n, the resolution of /n/a/w is answered by the server of /n/a. -/
theorem resolution_delegated : ∃ row ∈ delegate.records, row.label = [letter 119] ∧
    publishedFamily.inquiry.Inevitable (·.Finds (.record row))
      (.begin (resolution [letter 110] [letter 97, letter 119] Label.txtRrType 4000)) := by
  obtain ⟨row, hrow, hlabel, hlookup⟩ := lookup_delegated
  have hfinds := (publishedFamily_published.resolution_finds_lookup (Or.inr rfl) [letter 110]
    [letter 97, letter 119] 4000).1
  rw [hlookup] at hfinds
  exact ⟨row, hrow, hlabel, hfinds⟩

end Examples

end Ndns.Clients
