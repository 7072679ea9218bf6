import Ndns.Calls.SharedCache
import Ndns.Clients.Resolution
import Ndns.Daemon.LocalServices
import Ndns.Daemon.QueryRules

/-!
# The Cache of NS Records

Resolutions share a cache of the LINK packets they were answered with.  A lookup finds a packet by
a prefix of its name, but a name server answers by the exact label and type.  The two agree as
long as each packet that is found was cached as the answer to the same question.
-/

namespace Ndns

open Ndn Calls

/-! ## Answers of the servers -/

namespace Daemon.NameServer

variable {Keys : Type} {services : Services Keys} {server : NameServer} {db : Database}
  {interest interest' : Interest} {re : Label.MatchResult}

theorem denyQuery_congr (hname : interest.name = interest'.name) :
    denyQuery server interest re = denyQuery server interest' re := by
  unfold denyQuery answerName
  rw [hname]

/-- The negative answer fails in every state of the key chain, or it has the same content in all
of them. -/
theorem run_denyQuery_keys (hsigns : services.SignsByDefault) :
    (∃ fault, ∀ keys, ((denyQuery server interest re).run (World.handle services) ⟨db, keys⟩).1 =
        .error fault) ∨
      ∃ content, ∀ keys, ∃ answer version,
        ((denyQuery server interest re).run (World.handle services) ⟨db, keys⟩).1 = .ok answer ∧
          answer.name = interest.name ++ [version] ∧
          NdnsContentType.ofCode answer.contentType = .nack ∧ answer.content = content := by
  by_cases hfound : ∃ row, DbMgr.lowerBoundRow db server.zone.id (re.rrLabel ++ [re.rrType])
      Label.doeRrType = some row ∧ row.id ≠ 0
  · obtain ⟨row, hrow, hid⟩ := hfound
    refine Or.inr ⟨contentOf row.data, fun keys ↦ ?_⟩
    obtain ⟨answer, version, _, hrun, hname, htype, hcontent⟩ :=
      @run_denyQuery _ services ⟨db, keys⟩ server interest re row hsigns hrow hid
    exact ⟨answer, version, congrArg Prod.fst hrun, hname, htype, hcontent⟩
  · refine Or.inl ⟨.runtimeError "fail to find DoE record of zone", fun keys ↦ ?_⟩
    have hfind : ∀ keys, (DbMgr.findLowerBound
        (Rrset.keyed server.zone (re.rrLabel ++ [re.rrType]) Label.doeRrType)).run
        (World.handle services) ⟨db, keys⟩ = _ :=
      fun keys ↦ DbMgr.run_findLowerBound rfl _
    simp only [resolveZone_zone, Rrset.keyed] at hfind
    unfold denyQuery answerName
    rw [Program.run_bind, Program.run_bind, run_service]
    simp only [Program.run_pure]
    rw [Program.run_bind]
    simp only [Rrset.keyed, hfind]
    cases hrow : DbMgr.lowerBoundRow db server.zone.id (re.rrLabel ++ [re.rrType])
        Label.doeRrType with
    | none => simp [DbMgr.pick]
    | some row =>
        have hid : row.id = 0 := by
          by_contra hid
          exact hfound ⟨row, hrow, hid⟩
        simp [DbMgr.pick, if_neg server.zone_found.ne', hid]

variable [PacketFormat]

/-- The answer of the server to an Interest that asks for a record. -/
def answerQuery (server : NameServer) (interest : Interest) : Prog (Option Data) :=
  match Label.matchInterestName interest.name server.zone.name with
  | .outOfBounds => throw .undefinedBehavior
  | .noMatch => pure none
  | .matched re => some <$> handleQuery server interest re

/-- Every Interest that is no update is a query. -/
theorem onInterest_eq_answerQuery
    (hquery : ∀ re, Label.matchInterestName interest.name server.zone.name = .matched re →
      re.rrType ≠ Label.ndnsUpdateLabel) :
    onInterest server interest = answerQuery server interest := by
  unfold onInterest answerQuery
  cases hmatch : Label.matchInterestName interest.name server.zone.name with
  | outOfBounds => rfl
  | noMatch => rfl
  | matched re => exact if_neg (hquery re hmatch)

theorem answerQuery_congr (hname : interest.name = interest'.name) :
    answerQuery server interest = answerQuery server interest' := by
  unfold answerQuery handleQuery
  simp only [hname, denyQuery_congr hname]

/-- A query for a record is answered with its stored packet, or denied. -/
theorem run_handleQuery_keys (server : NameServer) (db : Database) (interest : Interest)
    (re : Label.MatchResult) :
    (∃ answer, ∀ keys, ((handleQuery server interest re).run (World.handle services)
        ⟨db, keys⟩).1 = answer) ∨
      ∀ keys, (handleQuery server interest re).run (World.handle services) ⟨db, keys⟩ =
        (denyQuery server interest re).run (World.handle services) ⟨db, keys⟩ := by
  have hfind : ∀ keys, (DbMgr.findRrset (Rrset.keyed server.zone re.rrLabel re.rrType)).run
      (World.handle services) ⟨db, keys⟩ = _ := fun keys ↦ DbMgr.run_findRrset rfl _
  unfold handleQuery
  simp only [Program.run_bind, hfind]
  split_ifs
  · left
    unfold orThrow
    split <;> exact ⟨_, fun _ ↦ rfl⟩
  · exact Or.inr fun _ ↦ rfl

/-- The reply to a query is the same in every state of the key chain, or a denial with the same
content. -/
theorem run_answerQuery_keys (hsigns : services.SignsByDefault) (server : NameServer)
    (db : Database) (interest : Interest) :
    (∃ reply, ∀ keys, ((answerQuery server interest).run (World.handle services)
        ⟨db, keys⟩).1 = reply) ∨
      ∃ content, ∀ keys, ∃ answer,
        ((answerQuery server interest).run (World.handle services) ⟨db, keys⟩).1 =
            .ok (some answer) ∧
          answer.matches interest ∧ NdnsContentType.ofCode answer.contentType = .nack ∧
            answer.content = content := by
  unfold answerQuery
  cases Label.matchInterestName interest.name server.zone.name with
  | outOfBounds => exact Or.inl ⟨_, fun _ ↦ rfl⟩
  | noMatch => exact Or.inl ⟨_, fun _ ↦ rfl⟩
  | matched re =>
      have hmap : ∀ keys, ((some <$> handleQuery server interest re).run (World.handle services)
          ⟨db, keys⟩).1 = (((handleQuery server interest re).run (World.handle services)
            ⟨db, keys⟩).1).map some := by
        intro keys
        rw [Program.run_map]
        rcases (handleQuery server interest re).run (World.handle services) ⟨db, keys⟩ with
          ⟨_ | _, _⟩ <;> rfl
      simp only [hmap]
      rcases @run_handleQuery_keys _ services _ server db interest re with ⟨answer, hanswer⟩ | hdenied
      · exact Or.inl ⟨answer.map some, fun keys ↦ by rw [hanswer]⟩
      · simp only [hdenied]
        rcases @run_denyQuery_keys _ services server db interest re hsigns with
          ⟨fault, hfault⟩ | ⟨content, hcontent⟩
        · exact Or.inl ⟨.error fault, fun keys ↦ by rw [hfault]; rfl⟩
        · refine Or.inr ⟨content, fun keys ↦ ?_⟩
          obtain ⟨answer, version, hrun, hname, htype, hsame⟩ := hcontent keys
          exact ⟨answer, by rw [hrun]; rfl, by rw [Data.matches, hname]; exact List.prefix_append _ _,
            htype, hsame⟩

end Daemon.NameServer

namespace Clients

open Daemon

/-! ## Questions and answers -/

/-- What an Interest of a resolution asks for. -/
structure Question where
  zone : Name
  label : Name
  type : Component
deriving DecidableEq

def Question.name (question : Question) : Name :=
  Label.recordName question.zone question.label question.type

def IterativeQueryController.question (controller : IterativeQueryController) : Question :=
  ⟨controller.zone, controller.queryLabel, controller.queryType⟩

/-- An expressed Interest with what it asks for. -/
structure Expressed where
  question : Question
  interest : Interest
deriving DecidableEq

/-- The query a session waits for the answer to. -/
def Session.asks (session : Session) : Option Expressed :=
  session.pending.map fun interest ↦ ⟨session.controller.question, interest⟩

theorem exists_append_of_notMem {front front' rest rest' : Name} {mark : Component}
    (h : front ++ mark :: rest = front' ++ rest') (hmark : mark ∉ front') :
    ∃ between, front = front' ++ between ∧ rest' = between ++ mark :: rest := by
  rcases List.append_eq_append_iff.mp h with ⟨between, hfront, hrest⟩ | ⟨between, hfront, hrest⟩
  · cases between with
    | nil => exact ⟨[], by simpa using hfront.symm, by simpa using hrest.symm⟩
    | cons first between =>
        obtain ⟨rfl, -⟩ := List.cons.inj hrest
        exact absurd (by simp [hfront]) hmark
  · exact ⟨between, hfront, hrest⟩

/-- A record whose name extends the name of a question is the record asked for, unless the type
asked for is a component of its label or its version, or a zone name contains the marker. -/
theorem Question.eq_of_prefix {question question' : Question} {version : Component}
    (hextends : question.name <+: question'.name ++ [version])
    (hzone : Label.ndnsIterativeQuery ∉ question.zone)
    (hzone' : Label.ndnsIterativeQuery ∉ question'.zone)
    (hlabel : question.type ∉ question'.label) (hversion : question.type ≠ version) :
    question' = question := by
  obtain ⟨zone, label, type⟩ := question
  obtain ⟨zone', label', type'⟩ := question'
  obtain ⟨rest, hrest⟩ := hextends
  have hnames : zone ++ Label.ndnsIterativeQuery :: (label ++ type :: rest) =
      zone' ++ Label.ndnsIterativeQuery :: (label' ++ [type', version]) := by
    simpa [Question.name, Label.recordName] using hrest
  obtain ⟨between, hfront, htail⟩ := exists_append_of_notMem hnames hzone'
  obtain rfl : between = [] := by
    cases between with
    | nil => rfl
    | cons mark between =>
        obtain ⟨rfl, -⟩ := List.cons.inj htail
        exact absurd (by simp [hfront]) hzone
  obtain rfl : zone = zone' := by simpa using hfront
  have hlabels : label ++ type :: rest = label' ++ [type', version] :=
    (List.cons.inj htail).2.symm
  obtain ⟨middle, hlabelEq, hend⟩ := exists_append_of_notMem hlabels hlabel
  cases middle with
  | nil =>
      obtain rfl : type' = type := (List.cons.inj hend).1
      rw [hlabelEq, List.append_nil]
  | cons mark middle =>
      have hlast : [version] = middle ++ type :: rest := (List.cons.inj hend).2
      have hmem : type ∈ [version] := hlast ▸ List.mem_append_right _ List.mem_cons_self
      exact absurd (List.mem_singleton.mp hmem) hversion

/-- A server with the records it answers from. -/
structure Authority where
  server : NameServer
  db : Database

/-- Zones whose records do not change, each with the server that answers for it, and the verdict of
the validator on each packet. -/
structure ZoneFamily (Keys : Type) where
  services : Services Keys
  authority : Name → Option Authority
  accepts : Data → Bool
  signs : services.SignsByDefault
  authoritative : ∀ {zone server}, authority zone = some server → server.server.zone.name = zone

/-- A packet in the cache, with the question it was the answer to. -/
structure CachedPacket where
  question : Question
  packet : Data

section

variable [PacketFormat] {Keys : Type}

namespace ZoneFamily

/-- The verdict of the validator on what `onData` hands to it. -/
def verdict (family : ZoneFamily Keys) (packet : Data) : Bool :=
  match IterativeQueryController.unwrap packet with
  | some (toBeValidated, _) => family.accepts toBeValidated
  | none => false

/-- What becomes of an Interest when a server replies. -/
def replyEvent (family : ZoneFamily Keys) (reply : Except Fault (Option Data))
    (interest : Interest) : Event :=
  match reply with
  | .ok (some answer) =>
      if answer.matches interest then .data answer (family.verdict answer) else .timeout
  | _ => .timeout

/-- The answers of the authoritative server, whatever the state of its key chain. -/
def Answers (family : ZoneFamily Keys) (query : Expressed) (event : Event) : Prop :=
  match family.authority query.question.zone with
  | none => event = .timeout
  | some authority => ∃ keys, event = family.replyEvent
      ((authority.server.answerQuery query.interest).run (World.handle family.services)
        ⟨authority.db, keys⟩).1 query.interest

/-- Resolutions that ask the servers of the family. -/
def inquiry (family : ZoneFamily Keys) : Inquiry Session Expressed Event where
  starts session := ∃ dstLabel rrType interestLifetime startIndex,
    session = .begin (.make dstLabel rrType interestLifetime startIndex)
  asks := Session.asks
  receive := Session.handle
  answers := family.Answers

/-- The packet that `onDataValidated` puts into the cache. -/
def insertedPacket : Event → Option Data
  | .data packet true =>
      match IterativeQueryController.unwrap packet with
      | some (validated, .link) => some validated
      | _ => none
  | _ => none

/-- The cache of NS records: a lookup may find every packet whose name extends the Interest's. -/
def nsCache (family : ZoneFamily Keys) : Caching Expressed Event CachedPacket where
  finds query entry := entry.packet.matches query.interest
  serves entry := .data entry.packet (family.verdict entry.packet)
  keeps query event := (insertedPacket event).map fun packet ↦ ⟨query.question, packet⟩

/-- The packet was cached as the answer to the same question. -/
def SameQuestion (query : Expressed) (entry : CachedPacket) : Prop :=
  entry.question = query.question

variable {family : ZoneFamily Keys}

/-- Denials with the same content make no difference to a resolution. -/
theorem handle_nack {answer answer' : Data} (session : Session)
    (hnack : NdnsContentType.ofCode answer.contentType = .nack)
    (hnack' : NdnsContentType.ofCode answer'.contentType = .nack)
    (hcontent : answer.content = answer'.content) :
    session.handle (.data answer (family.verdict answer)) =
      session.handle (.data answer' (family.verdict answer')) := by
  have hunwrap : IterativeQueryController.unwrap answer = IterativeQueryController.unwrap answer' := by
    rw [IterativeQueryController.unwrap, IterativeQueryController.unwrap, if_pos hnack,
      if_pos hnack', hcontent]
  have hverdict : family.verdict answer = family.verdict answer' := by
    rw [verdict, verdict, hunwrap]
  have hreact : session.react (.data answer (family.verdict answer)) =
      session.react (.data answer' (family.verdict answer')) := by
    change session.controller.onData answer _ = session.controller.onData answer' _
    rw [IterativeQueryController.onData, IterativeQueryController.onData, hunwrap, hverdict]
  rw [Session.handle, Session.handle, hreact]

/-- The authoritative server gives one answer to a query, up to the wrapping of a denial. -/
theorem determinate : family.inquiry.Determinate := by
  intro session query event event' _ _ hevent hevent'
  change family.Answers query event at hevent
  change family.Answers query event' at hevent'
  change session.handle event = session.handle event'
  unfold Answers at hevent hevent'
  cases hauthority : family.authority query.question.zone with
  | none =>
      rw [hauthority] at hevent hevent'
      rw [hevent, hevent']
  | some authority =>
      rw [hauthority] at hevent hevent'
      obtain ⟨keys, rfl⟩ := hevent
      obtain ⟨keys', rfl⟩ := hevent'
      rcases authority.server.run_answerQuery_keys family.signs authority.db query.interest with
        ⟨reply, hreply⟩ | ⟨content, hdenied⟩
      · rw [hreply, hreply]
      · obtain ⟨answer, hrun, hmatches, hnack, hcontent⟩ := hdenied keys
        obtain ⟨answer', hrun', hmatches', hnack', hcontent'⟩ := hdenied keys'
        simp only [hrun, hrun', replyEvent, if_pos hmatches, if_pos hmatches']
        exact handle_nack session hnack hnack' (hcontent.trans hcontent'.symm)

/-- What gets into the cache was delivered as it is, not inside a denial. -/
theorem insertedPacket_eq_some {event : Event} {packet : Data}
    (h : insertedPacket event = some packet) : event = .data packet true := by
  cases event with
  | networkNack => cases h
  | timeout => cases h
  | data outer accepted =>
      cases accepted with
      | false => cases h
      | true =>
          change (match IterativeQueryController.unwrap outer with
            | some (validated, .link) => some validated
            | _ => none) = some packet at h
          unfold IterativeQueryController.unwrap at h
          split_ifs at h with hnack
          · cases hdecode : (blockFromValue outer.content).bind PacketFormat.decode with
            | none => simp [hdecode] at h
            | some doe => simp [hdecode] at h
          · split at h
            · cases h
              simp_all
            · cases h

/-- A packet is delivered to an Interest it matches. -/
theorem replyEvent_eq_data {reply : Except Fault (Option Data)} {interest : Interest}
    {packet : Data} {accepted : Bool}
    (h : family.replyEvent reply interest = .data packet accepted) :
    reply = .ok (some packet) ∧ packet.matches interest := by
  unfold replyEvent at h
  split at h
  · split_ifs at h with hmatches
    cases h
    exact ⟨rfl, hmatches⟩
  · cases h

theorem Answers.delivers {query : Expressed} {event : Event} (h : family.Answers query event) :
    event.answers query.interest := by
  cases event with
  | networkNack => trivial
  | timeout => trivial
  | data packet accepted =>
      unfold Answers at h
      cases hauthority : family.authority query.question.zone with
      | none =>
          rw [hauthority] at h
          cases h
      | some authority =>
          rw [hauthority] at h
          obtain ⟨keys, hevent⟩ := h
          exact (replyEvent_eq_data hevent.symm).2

/-- A direct run of a resolution is one of its runs. -/
theorem reachable_of_reaches {session : Session} (h : family.inquiry.Reaches session) :
    ∃ dstLabel rrType, session.Reachable dstLabel rrType := by
  obtain ⟨start, asked, ⟨dstLabel, rrType, interestLifetime, startIndex, rfl⟩, hdirect⟩ := h
  refine ⟨dstLabel, rrType, interestLifetime, startIndex, ?_⟩
  induction hdirect with
  | start => exact .refl
  | @answer asked session query event _ hasks hanswer ih =>
      obtain ⟨interest, hpending, rfl⟩ := Option.map_eq_some_iff.mp hasks
      exact ih.tail (.event hpending (Answers.delivers hanswer))

/-- An Interest is named after its question. -/
theorem name_of_asks {session : Session} {query : Expressed} (h : family.inquiry.Reaches session)
    (hasks : session.asks = some query) : query.interest.name = query.question.name := by
  obtain ⟨dstLabel, rrType, hreachable⟩ := reachable_of_reaches h
  obtain ⟨interest, hpending, rfl⟩ := Option.map_eq_some_iff.mp hasks
  exact (hreachable.invariant.asks interest hpending).name

/-- A packet that was delivered to one Interest is an answer to every Interest of its name. -/
theorem Answers.transfer {query query' : Expressed} {packet : Data} {accepted : Bool}
    (h : family.Answers query (.data packet accepted)) (hquestion : query.question = query'.question)
    (hname : query.interest.name = query'.interest.name) :
    family.Answers query' (.data packet (family.verdict packet)) := by
  unfold Answers at h ⊢
  rw [hquestion] at h
  cases hauthority : family.authority query'.question.zone with
  | none =>
      rw [hauthority] at h
      cases h
  | some authority =>
      rw [hauthority] at h
      obtain ⟨keys, hevent⟩ := h
      obtain ⟨hreply, hmatches⟩ := replyEvent_eq_data hevent.symm
      have hmatches' : packet.matches query'.interest := by rwa [Data.matches, ← hname]
      exact ⟨keys, by rw [← NameServer.answerQuery_congr hname, hreply, replyEvent, if_pos hmatches']⟩

/-- What was cached as the answer to the same question is the answer of the server. -/
theorem sound : family.inquiry.Sound family.nsCache SameQuestion := by
  intro session query entry hreaches hasks hgenuine hfinds hsame
  obtain ⟨session', query', event, hreaches', hasks', hanswer, hkeeps⟩ := hgenuine
  obtain ⟨packet, hinserted, rfl⟩ := Option.map_eq_some_iff.mp hkeeps
  obtain rfl := insertedPacket_eq_some hinserted
  have hname : query'.interest.name = query.interest.name := by
    rw [name_of_asks hreaches' hasks', name_of_asks hreaches hasks, ← hsame]
  exact Answers.transfer hanswer hsame hname

/-- As long as every packet the cache serves was cached as the answer to the same question, a
resolution that uses the cache puts the same queries and gets the same packets as without it. -/
theorem cache_transparent (family : ZoneFamily Keys)
    {shared : SharedCache Session Expressed CachedPacket}
    (h : family.inquiry.Behind family.nsCache SameQuestion shared) :
    ∀ visit ∈ shared.visits, family.inquiry.Transparent visit :=
  h.transparent determinate sound

end ZoneFamily

end

section Examples

attribute [local instance] ndnPacketFormat

open LocalServices

/-- The packet that says that /n/a has subdomains but is no delegation. -/
def authPacket : Data :=
  ⟨Label.recordName [letter 110] [letter 97] Label.nsRrType ++ [Component.fromVersion 1],
    NdnsContentType.auth.toCode, 4000, [], [], []⟩

/-- The delegation of /n/a/NS. -/
def linkPacket : Data :=
  ⟨Label.recordName [letter 110] [letter 97, Label.nsRrType] Label.nsRrType ++
    [Component.fromVersion 1], NdnsContentType.link.toCode, 4000, [], [], []⟩

/-- The delegation of /n/b. -/
def otherLinkPacket : Data :=
  ⟨Label.recordName [letter 110] [letter 98] Label.nsRrType ++ [Component.fromVersion 1],
    NdnsContentType.link.toCode, 4000, [], [], []⟩

/-- The zone /n with these records. -/
def delegatingZone : Authority where
  server := ⟨⟨1, [letter 110], 3600⟩, [], NameServer.defaultContentFreshness, by decide⟩
  db := ⟨[⟨1, [letter 110], 3600⟩], [],
    [⟨1, 1, [letter 97], Label.nsRrType, Component.fromVersion 1, 3600,
        (Layout.encode authPacket).getD Block.invalid⟩,
      ⟨2, 1, [letter 97, Label.nsRrType], Label.nsRrType, Component.fromVersion 1, 3600,
        (Layout.encode linkPacket).getD Block.invalid⟩,
      ⟨3, 1, [letter 98], Label.nsRrType, Component.fromVersion 1, 3600,
        (Layout.encode otherLinkPacket).getD Block.invalid⟩]⟩

/-- The zone /n alone. -/
def delegatingFamily : ZoneFamily ℕ where
  services := localServices
  authority zone := if zone = [letter 110] then some delegatingZone else none
  accepts _ := true
  signs _ _ := rfl
  authoritative h := by
    split_ifs at h with hzone
    cases h
    exact hzone.symm

/-- The query for the NS record of a label in the zone /n. -/
def nsQuery (label : Name) : Expressed :=
  ⟨⟨[letter 110], label, Label.nsRrType⟩,
    ⟨Label.recordName [letter 110] label Label.nsRrType, true, 4000, []⟩⟩

theorem answers_auth :
    delegatingFamily.Answers (nsQuery [letter 97]) (.data authPacket true) :=
  ⟨0, rfl⟩

theorem answers_link :
    delegatingFamily.Answers (nsQuery [letter 97, Label.nsRrType]) (.data linkPacket true) :=
  ⟨0, rfl⟩

theorem answers_otherLink :
    delegatingFamily.Answers (nsQuery [letter 98]) (.data otherLinkPacket true) :=
  ⟨0, rfl⟩

/-- A resolution in the zone /n that has not asked yet. -/
def visitFor (label : Name) (rrType : Component) : Visit Session Expressed :=
  ⟨.begin (.make ([letter 110] ++ label) rrType 4000 1), [],
    .begin (.make ([letter 110] ++ label) rrType 4000 1), false⟩

theorem starts_visitFor (label : Name) (rrType : Component) :
    delegatingFamily.inquiry.starts (visitFor label rrType).start :=
  ⟨_, _, _, _, rfl⟩

/-- The resolution of /n/b/d is served with what the resolution of /n/b/c was answered. -/
theorem cache_transparent_hit : delegatingFamily.inquiry.Transparent
    ((visitFor [letter 98, letter 100] Label.txtRrType).receive delegatingFamily.inquiry
      (nsQuery [letter 98]) (.data otherLinkPacket true)) := by
  have hstart : delegatingFamily.inquiry.Behind delegatingFamily.nsCache ZoneFamily.SameQuestion
      ⟨[], [visitFor [letter 98, letter 99] Label.txtRrType]⟩ :=
    .single (.start (starts_visitFor _ _))
  have hfetch := @Inquiry.Behind.fetch _ _ _ _ _ _ _ _ [] [] _ _ _ hstart rfl rfl nofun
    answers_otherLink
  have hnext := hfetch.tail (.start (starts_visitFor [letter 98, letter 100] Label.txtRrType))
  have hfinds : delegatingFamily.nsCache.finds (nsQuery [letter 98])
      ⟨(nsQuery [letter 98]).question, otherLinkPacket⟩ :=
    (by decide : otherLinkPacket.matches (nsQuery [letter 98]).interest)
  have hhit := hnext.tail (@Inquiry.Step.hit _ _ _ _ _ _ _ _ [] _ _ _ _ rfl rfl List.mem_cons_self
    hfinds rfl)
  exact delegatingFamily.cache_transparent hhit _ List.mem_cons_self

/-- The delegation of /n/a/NS, once it is cached, answers the query for the NS record of /n/a. -/
theorem cache_misleads : ¬ ∀ shared,
    delegatingFamily.inquiry.Behind delegatingFamily.nsCache (fun _ _ ↦ True) shared →
      ∀ visit ∈ shared.visits, delegatingFamily.inquiry.Transparent visit := by
  intro htransparent
  have hstart : delegatingFamily.inquiry.Behind delegatingFamily.nsCache (fun _ _ ↦ True)
      ⟨[], [visitFor [letter 97, Label.nsRrType] Label.nsRrType]⟩ :=
    .single (.start (starts_visitFor _ _))
  have hauth := @Inquiry.Behind.fetch _ _ _ _ _ _ _ _ [] [] _ _ _ hstart rfl rfl nofun answers_auth
  have hlink := @Inquiry.Behind.fetch _ _ _ _ _ _ _ _ [] [] _ _ _ hauth rfl rfl nofun answers_link
  have hnext := hlink.tail (.start (starts_visitFor [letter 97, letter 98] Label.txtRrType))
  have hfinds : delegatingFamily.nsCache.finds (nsQuery [letter 97])
      ⟨(nsQuery [letter 97, Label.nsRrType]).question, linkPacket⟩ :=
    (by decide : linkPacket.matches (nsQuery [letter 97]).interest)
  have hhit := hnext.tail (@Inquiry.Step.hit _ _ _ _ _ _ _ _ [] _ _ _ _ rfl rfl List.mem_cons_self
    hfinds trivial)
  obtain ⟨session, event, hdirect, hasks, hanswer, hsession⟩ :=
    (htransparent _ hhit _ List.mem_cons_self).direct.cases_cons
  cases hdirect
  have hserved : (visitFor [letter 97, letter 98] Label.txtRrType).client.handle
      (.data linkPacket true) = (visitFor [letter 97, letter 98] Label.txtRrType).client.handle
        (.data authPacket true) :=
    hsession.trans (ZoneFamily.determinate ⟨_, [], starts_visitFor _ _, .start⟩ hasks hanswer
      answers_auth)
  exact absurd (congrArg (fun session ↦ session.controller.nFinishedComps) hserved) (by decide)

end Examples

end Clients

end Ndns
