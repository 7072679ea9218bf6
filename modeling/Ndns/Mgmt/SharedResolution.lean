import Ndns.Mgmt.DelegatedResolution

/-!
# Resolutions that Share their Delegations

Resolutions of plain names, in which no component looks like a part of the name of a record, share
the cache of NS records.  A lookup in the cache then finds the answer to the same question only, so
that each of them comes to the finding of its own lookup, in whatever order they go on.
-/

namespace Ndns.Clients

open Ndn Calls Daemon Mgmt

/-- No component of the name is one that record names are made with. -/
structure Plain (name : Name) : Prop where
  marker : Label.ndnsIterativeQuery ∉ name
  ns : Label.nsRrType ∉ name
  txt : Label.txtRrType ∉ name

instance (name : Name) : Decidable (Plain name) :=
  decidable_of_iff (Label.ndnsIterativeQuery ∉ name ∧ Label.nsRrType ∉ name ∧
    Label.txtRrType ∉ name) ⟨fun h ↦ ⟨h.1, h.2.1, h.2.2⟩, fun h ↦ ⟨h.marker, h.ns, h.txt⟩⟩

theorem Plain.subset {name part : Name} (h : Plain name) (hpart : part ⊆ name) : Plain part :=
  ⟨fun hmem ↦ h.marker (hpart hmem), fun hmem ↦ h.ns (hpart hmem), fun hmem ↦ h.txt (hpart hmem)⟩

theorem Plain.notMem {name : Name} (h : Plain name) {type : Component}
    (htype : type = Label.nsRrType ∨ type = Label.txtRrType) : type ∉ name := by
  rcases htype with rfl | rfl
  · exact h.ns
  · exact h.txt

/-- A question for the NS or TXT record of a plain name. -/
structure Question.Plain (question : Question) : Prop where
  zone : Clients.Plain question.zone
  label : Clients.Plain question.label
  type : question.type = Label.nsRrType ∨ question.type = Label.txtRrType

/-- A record whose name extends the name of a plain question is the record asked for, even when
its version looks like a type. -/
theorem Question.Plain.eq_of_extends {question question' : Question} {version : Component}
    (h : question.Plain) (h' : question'.Plain)
    (hextends : question.name <+: question'.name ++ [version]) : question' = question := by
  by_cases hversion : question.type = version
  · obtain ⟨rest, hrest⟩ := hextends
    have hnames : question'.zone ++ Label.ndnsIterativeQuery ::
        (question'.label ++ [question'.type, version]) =
          question.zone ++ Label.ndnsIterativeQuery ::
            (question.label ++ question.type :: rest) := by
      simpa [Question.name, Label.recordName] using hrest.symm
    have hmark : Label.ndnsIterativeQuery ∉ question'.label ++ [question'.type, version] := by
      have hmarker : ∀ {type : Component}, type = Label.nsRrType ∨ type = Label.txtRrType →
          Label.ndnsIterativeQuery ≠ type := by
        rintro type (rfl | rfl)
        · decide
        · decide
      simp [h'.label.marker, hmarker h'.type, ← hversion, hmarker h.type]
    obtain ⟨hzone, -, htail⟩ :=
      (List.append_cons_inj_of_notMem h'.zone.marker hmark).mp hnames
    obtain ⟨middle, hlabel, hend⟩ :=
      exists_append_of_notMem htail.symm (h'.label.notMem h.type)
    cases middle with
    | nil =>
        obtain ⟨htype, -⟩ := List.cons.inj hend
        rw [List.append_nil] at hlabel
        obtain ⟨zone, label, type⟩ := question
        obtain ⟨zone', label', type'⟩ := question'
        obtain rfl : zone' = zone := hzone
        obtain rfl : label = label' := hlabel
        obtain rfl : type' = type := htype
        rfl
    | cons mark middle =>
        -- the other type would be a component of the label
        obtain ⟨rfl, -⟩ := List.cons.inj hend
        exact absurd (by simp [hlabel]) (h.label.notMem h'.type)
  · exact Question.eq_of_prefix hextends h.zone.marker h'.zone.marker
      (h'.label.notMem h.type) hversion

namespace ZoneFamily

variable [PacketFormat] {Keys : Type} {family : ZoneFamily Keys}

/-- Resolutions of the NS and TXT records of plain names. -/
def plainInquiry (family : ZoneFamily Keys) : Inquiry Session Expressed Event where
  starts session := ∃ zone label rrType interestLifetime, Plain (zone ++ label) ∧
    (rrType = Label.nsRrType ∨ rrType = Label.txtRrType) ∧
    session = .begin (resolution zone label rrType interestLifetime)
  asks := Session.asks
  receive := Session.handle
  answers := family.Answers

theorem direct_iff {start session : Session} {asked : List Expressed} :
    family.plainInquiry.Direct start asked session ↔ family.inquiry.Direct start asked session := by
  constructor
  · intro h
    induction h with
    | start => exact .start
    | answer _ hasks hanswer ih => exact .answer ih hasks hanswer
  · intro h
    induction h with
    | start => exact .start
    | answer _ hasks hanswer ih => exact .answer ih hasks hanswer

theorem reaches_of_plain {session : Session} (h : family.plainInquiry.Reaches session) :
    family.inquiry.Reaches session := by
  obtain ⟨start, asked, ⟨zone, label, rrType, interestLifetime, -, -, rfl⟩, hdirect⟩ := h
  exact ⟨_, asked, ⟨_, _, _, _, rfl⟩, direct_iff.mp hdirect⟩

/-- A plain resolution asks plain questions. -/
theorem plain_of_asks {session : Session} {query : Expressed}
    (h : family.plainInquiry.Reaches session) (hasks : session.asks = some query) :
    query.question.Plain := by
  obtain ⟨start, asked, ⟨zone, label, rrType, interestLifetime, hplain, hrrType, rfl⟩, hdirect⟩ := h
  have hreachable : session.Reachable (zone ++ label) rrType := by
    refine ⟨interestLifetime, zone.length, ?_⟩
    clear hasks
    induction hdirect with
    | start => exact .refl
    | answer _ hasks hanswer ih =>
        obtain ⟨interest, hpending, rfl⟩ := Option.map_eq_some_iff.mp hasks
        exact ih.tail (.event hpending (Answers.delivers hanswer))
  obtain ⟨hdst, htype⟩ := hreachable.request
  obtain ⟨interest, -, rfl⟩ := Option.map_eq_some_iff.mp hasks
  constructor
  · refine hplain.subset ?_
    rw [← hdst]
    exact List.take_subset _ _
  · refine hplain.subset ?_
    rw [← hdst]
    change session.controller.queryLabel ⊆ session.controller.dstLabel
    unfold IterativeQueryController.queryLabel
    split
    · exact List.Subset.trans (List.take_subset _ _) (List.drop_subset _ _)
    · exact List.drop_subset _ _
  · change session.controller.queryType = _ ∨ session.controller.queryType = _
    unfold IterativeQueryController.queryType
    split
    · exact Or.inl rfl
    · exact htype.symm ▸ hrrType

/-- The packet that answers a plain question, when it gets into the cache, is named after it. -/
theorem Served.name_of_inserted [Nonempty Keys] (h : family.Served) {query : Expressed} {event : Event}
    {packet : Data} (hplain : query.question.Plain)
    (hname : query.interest.name = query.question.name) (hanswer : family.Answers query event)
    (hinserted : insertedPacket event = some packet) :
    ∃ version, packet.name = query.question.name ++ [version] := by
  have hqueried : Queried query.question.type := by
    rcases hplain.type with htype | htype
    · exact htype.symm ▸ queried_ns
    · exact htype.symm ▸ queried_txt
  cases hauthority : family.authority query.question.zone with
  | none =>
      rw [(answers_none hauthority rfl).mp hanswer] at hinserted
      cases hinserted
  | some authority =>
      cases hstored : authority.stored query.question.label query.question.type with
      | none =>
          obtain ⟨answer, doe, range, rfl, hunwrap, -⟩ :=
            h.answers_absent hauthority rfl hqueried hname hstored hanswer
          rw [insertedPacket, hunwrap] at hinserted
          cases hinserted
      | some row =>
          obtain ⟨data, hdata, -⟩ := h.readable hauthority hplain.type hstored
          obtain ⟨-, hlabel, htype⟩ := Authority.mem_of_stored hqueried hstored
          have hrecord : data.name = query.question.name ++ [row.version] := by
            rw [hdata.name, hlabel, htype]
            rfl
          have hmatches : data.matches query.interest := by
            rw [Data.matches, hname, hrecord]
            exact List.prefix_append _ _
          have hevent := (h.answers_found hauthority rfl hqueried hname hstored hdata.decode hmatches
            hdata.unwrap).mp hanswer
          rw [hevent] at hinserted
          obtain rfl : data = packet := (Event.data.inj (insertedPacket_eq_some hinserted)).1
          exact ⟨row.version, hrecord⟩

/-- With plain resolutions, whatever a lookup in the cache finds is the answer of the server. -/
theorem Served.plain_sound [Nonempty Keys] (h : family.Served) :
    family.plainInquiry.Sound family.nsCache fun _ _ ↦ True := by
  intro session query entry hreaches hasks hgenuine hfinds _
  obtain ⟨session', query', event, hreaches', hasks', hanswer, hkeeps⟩ := hgenuine
  obtain ⟨packet, hinserted, rfl⟩ := Option.map_eq_some_iff.mp hkeeps
  have hname := name_of_asks (reaches_of_plain hreaches) hasks
  have hname' := name_of_asks (reaches_of_plain hreaches') hasks'
  have hplain' := plain_of_asks hreaches' hasks'
  obtain ⟨version, hpacket⟩ := h.name_of_inserted hplain' hname' hanswer hinserted
  obtain rfl := insertedPacket_eq_some hinserted
  have hextends : query.interest.name <+: packet.name := hfinds
  rw [hname, hpacket] at hextends
  have hquestion := (plain_of_asks hreaches hasks).eq_of_extends hplain' hextends
  exact Answers.transfer hanswer hquestion (by rw [hname', hname, hquestion])

/-- Each of the plain resolutions that share the cache of NS records through zones made with the
tools, once it has ended, has come to the finding of its own lookup. -/
theorem Published.shared_resolutions_find [Nonempty Keys] (h : family.Published)
    {shared : SharedCache Session Expressed CachedPacket}
    (hbehind : family.plainInquiry.Behind family.nsCache (fun _ _ ↦ True) shared)
    {visit : Visit Session Expressed} (hvisit : visit ∈ shared.visits) :
    ∃ zone label rrType interestLifetime,
      visit.start = .begin (resolution zone label rrType interestLifetime) ∧
        (visit.client.asks = none → visit.client.Finds (family.lookup rrType zone label)) := by
  have hkept := hbehind.kept h.served.plain_sound
  obtain ⟨zone, label, rrType, interestLifetime, -, hrrType, hstart⟩ := hkept.starts visit hvisit
  have hdirect := direct_iff.mp (hkept.direct visit hvisit)
  have hinevitable := h.served.inevitable_lookup hrrType
    (Session.enters_begin zone label rrType interestLifetime)
  rw [hstart] at hdirect
  exact ⟨zone, label, rrType, interestLifetime, hstart, fun hends ↦
    hinevitable.goal_of_direct (fun _ ↦ asks_of_finds) hdirect hends⟩

end ZoneFamily

section Examples

open LocalServices

attribute [local instance] ndnPacketFormat

theorem plainStarts_visitFor (family : ZoneFamily ℕ) {label : Name}
    (hplain : Plain ([letter 110] ++ label)) :
    family.plainInquiry.starts (visitFor label Label.txtRrType).start :=
  ⟨[letter 110], label, Label.txtRrType, 4000, hplain, Or.inr rfl, rfl⟩

/-- The answer of the server of /n to the query for the NS record of /n/a. -/
def delegation : Event :=
  publishedFamily.replyEvent ((delegated.server.answerQuery (nsQuery [letter 97]).interest).run
    (World.handle localServices) ⟨delegated.db, 0⟩).1 (nsQuery [letter 97]).interest

/-- Of two resolutions of /n/a/w, the second one is served with the delegation that the first one has
fetched, and both end with the finding. -/
theorem shared_resolutions_delegated :
    ∃ (packet : Data) (ahead first second : Visit Session Expressed),
      publishedFamily.plainInquiry.Behind publishedFamily.nsCache (fun _ _ ↦ True)
        ⟨[⟨(nsQuery [letter 97]).question, packet⟩],
          [visitFor [letter 97, letter 119] Label.txtRrType, ahead]⟩ ∧
      packet.matches (nsQuery [letter 97]).interest ∧
      publishedFamily.plainInquiry.Behind publishedFamily.nsCache (fun _ _ ↦ True)
        ⟨[], [second, first]⟩ ∧
      (∃ asked, second.asked = asked ++ [nsQuery [letter 97]] ∧ publishedFamily.plainInquiry.Direct
        ((visitFor [letter 97, letter 119] Label.txtRrType).client.handle
          (publishedFamily.nsCache.serves ⟨(nsQuery [letter 97]).question, packet⟩)) asked
        second.client) ∧
      ∀ visit ∈ [second, first], visit.client.asks = none ∧
        ∃ zone label rrType interestLifetime,
          visit.start = .begin (resolution zone label rrType interestLifetime) ∧
            visit.client.Finds (publishedFamily.lookup rrType zone label) := by
  obtain ⟨packet, hpacket⟩ : ∃ packet, ZoneFamily.insertedPacket delegation = some packet :=
    Option.isSome_iff_exists.mp (by decide +kernel)
  have hanswer : publishedFamily.Answers (nsQuery [letter 97]) delegation := ⟨0, rfl⟩
  have hdelegation := ZoneFamily.insertedPacket_eq_some hpacket
  have hmatches : packet.matches (nsQuery [letter 97]).interest :=
    (ZoneFamily.replyEvent_eq_data hdelegation).2
  have hserved : publishedFamily.Answers (nsQuery [letter 97])
      (.data packet (publishedFamily.verdict packet)) :=
    ZoneFamily.Answers.transfer (hdelegation ▸ hanswer) rfl rfl
  have hkeeps : ∀ event, ZoneFamily.insertedPacket event = some packet →
      publishedFamily.nsCache.keeps (nsQuery [letter 97]) event =
        some ⟨(nsQuery [letter 97]).question, packet⟩ :=
    fun _ hinserted ↦ congrArg (Option.map _) hinserted
  have hstarts := plainStarts_visitFor publishedFamily
    (by decide : Plain ([letter 110] ++ [letter 97, letter 119]))
  -- after the first answer, from the server or from the cache, each of them goes on to its end
  have hrest : ∀ answer, publishedFamily.Answers (nsQuery [letter 97]) answer → ∃ asked client,
      publishedFamily.plainInquiry.Direct ((visitFor [letter 97, letter 119]
        Label.txtRrType).client.handle answer) asked client ∧ client.asks = none := by
    intro answer hgiven
    have hinevitable := publishedFamily_published.served.inevitable_lookup (Or.inr rfl)
      (Session.enters_begin [letter 110] [letter 97, letter 119] Label.txtRrType 4000)
    obtain ⟨asked, client, hdirect, hfinds⟩ := (hinevitable.direct
      (fun _ ↦ ZoneFamily.asks_of_finds) (.answer .start rfl hgiven)).exists_direct .start
    exact ⟨asked, client, ZoneFamily.direct_iff.mpr hdirect,
      @ZoneFamily.asks_of_finds _ _ publishedFamily client _ hfinds⟩
  obtain ⟨asked, client, hdirect, hends⟩ := hrest _ hanswer
  obtain ⟨asked', client', hdirect', hends'⟩ := hrest _ hserved
  have hstart : publishedFamily.plainInquiry.Behind publishedFamily.nsCache (fun _ _ ↦ True)
      ⟨[], [visitFor [letter 97, letter 119] Label.txtRrType]⟩ :=
    .single (.start hstarts)
  have hasks : publishedFamily.plainInquiry.asks
      (visitFor [letter 97, letter 119] Label.txtRrType).client = some (nsQuery [letter 97]) := rfl
  have hfetch := @Inquiry.Behind.fetch _ _ _ _ _ _ _ _ [] [] _ _ _ hstart rfl hasks nofun hanswer
  rw [hkeeps _ hpacket] at hfetch
  have hnext := hfetch.tail (.start hstarts)
  have hhit := hnext.tail (@Inquiry.Step.hit _ _ _ _ _ _ _ _ [] _ _ _ _ rfl hasks List.mem_cons_self
    hmatches trivial)
  have hsecond := @Inquiry.Behind.proceed _ _ _ _ _ _ _ _ _ _ [] _ _ hhit rfl hdirect'
  have hboth := @Inquiry.Behind.proceed _ _ _ _ _ _ _ _ _ _ [_] [] _ hsecond rfl hdirect
  refine ⟨packet, _, _, _, hnext, hmatches, hboth, ⟨asked', rfl, hdirect'⟩, fun visit hvisit ↦ ?_⟩
  obtain ⟨zone, label, rrType, interestLifetime, hstart, hfound⟩ :=
    publishedFamily_published.shared_resolutions_find hboth hvisit
  have hstops : visit.client.asks = none := by
    simp only [List.mem_cons, List.not_mem_nil, or_false] at hvisit
    rcases hvisit with rfl | rfl
    · exact hends'
    · exact hends
  exact ⟨hstops, zone, label, rrType, interestLifetime, hstart, hfound hstops⟩

end Examples

end Ndns.Clients
