import Ndns.Daemon.NdnsDaemon
import Ndns.Mgmt.HostedZones
import Ndns.Mgmt.SharedResolution

/-!
# Resolution with a Daemon

The zones that a daemon serves from one database are a family: an Interest for a plain name in one
of them passes the filter of its server and of no other one.  When the zones were managed with the
tools, a resolution comes to the finding of a lookup through the zones that the configuration lists.
-/

namespace Ndns.Clients

open Ndn Calls Daemon Mgmt NdnsDaemon

/-! ## Servers by their zones -/

section Servers

variable {daemon : NdnsDaemon} {zone : Name} {entry : ℕ × NameServer}

/-- The server for a zone. -/
def serverOf (daemon : NdnsDaemon) (zone : Name) : Option (ℕ × NameServer) :=
  daemon.servers.find? fun entry ↦ entry.2.zone.name = zone

theorem mem_of_serverOf (h : serverOf daemon zone = some entry) :
    entry ∈ daemon.servers ∧ entry.2.zone.name = zone :=
  ⟨List.mem_of_find?_eq_some h, by simpa using List.find?_some h⟩

/-- The zones of a daemon differ in names without the marker, and share the open database. -/
structure Separate (daemon : NdnsDaemon) : Prop where
  names : (daemon.servers.map fun entry ↦ entry.2.zone.name).Nodup
  markers : ∀ entry ∈ daemon.servers, Label.ndnsIterativeQuery ∉ entry.2.zone.name
  live : ∀ entry ∈ daemon.servers, daemon.Live entry

theorem filter_of_find? {Entry : Type} {path : Entry → Name} {entries : List Entry} {entry : Entry}
    (hpaths : (entries.map path).Nodup)
    (h : (entries.find? fun other ↦ path other = zone) = some entry) :
    (entries.filter fun other ↦ path other = zone) = [entry] := by
  induction entries with
  | nil => cases h
  | cons first rest ih =>
      rw [List.map_cons, List.nodup_cons] at hpaths
      by_cases hfirst : path first = zone
      · rw [List.find?_cons_of_pos (by simpa using hfirst)] at h
        obtain rfl := Option.some.inj h
        have hrest : (rest.filter fun other ↦ path other = zone) = [] := by
          refine List.filter_eq_nil_iff.mpr fun other hother hsame ↦ hpaths.1 ?_
          rw [hfirst, ← of_decide_eq_true hsame]
          exact List.mem_map_of_mem hother
        rw [List.filter_cons_of_pos (by simpa using hfirst), hrest]
      · rw [List.find?_cons_of_neg (by simpa using hfirst)] at h
        rw [List.filter_cons_of_neg (by simpa using hfirst), ih hpaths.2 h]

/-- An Interest for a record of a zone is for its server. -/
theorem Separate.receivers (h : Separate daemon) {interest : Interest} {label : Name}
    {type : Component} (hzone : Label.ndnsIterativeQuery ∉ zone)
    (hname : interest.name = Label.recordName zone label type) :
    daemon.receivers interest = (serverOf daemon zone).toList := by
  have hown : zoneIdentity zone <+: interest.name := by
    rw [hname]
    exact ⟨label ++ [type], by simp [zoneIdentity, Label.recordName]⟩
  have hfilter : daemon.receivers interest =
      daemon.servers.filter fun entry ↦ entry.2.zone.name = zone := by
    refine List.filter_congr fun entry hentry ↦ ?_
    rw [← Bool.coe_iff_coe, List.isPrefixOf_iff_prefix, decide_eq_true_iff]
    constructor
    · intro hbegins
      by_contra hne
      obtain ⟨hleft, hright⟩ := (apart_iff_ne (h.markers entry hentry) hzone).mpr hne
      rcases List.prefix_or_prefix_of_prefix hbegins hown with h | h
      · exact hleft h
      · exact hright h
    · rintro rfl
      exact hown
  rw [hfilter, serverOf]
  cases hfind : daemon.servers.find? fun entry ↦ entry.2.zone.name = zone with
  | none =>
      rw [Option.toList_none, List.filter_eq_nil_iff]
      exact List.find?_eq_none.mp hfind
  | some entry => exact filter_of_find? h.names hfind

end Servers

/-! ## The family of a daemon -/

section Family

variable {Keys : Type} {daemon : NdnsDaemon} {db : Database}

/-- The server for a zone, with the tables it answers from. -/
def hostedAuthority (db : Database) (daemon : NdnsDaemon) (zone : Name) : Option Authority :=
  (serverOf daemon zone).map fun entry ↦ ⟨entry.2, db⟩

theorem mem_of_hostedAuthority {zone : Name} {authority : Authority}
    (h : hostedAuthority db daemon zone = some authority) :
    authority.db = db ∧ authority.server.zone.name = zone ∧
      ∃ entry ∈ daemon.servers, entry.2 = authority.server := by
  obtain ⟨entry, hentry, rfl⟩ := Option.map_eq_some_iff.mp h
  obtain ⟨hmem, hname⟩ := mem_of_serverOf hentry
  exact ⟨rfl, hname, entry, hmem, rfl⟩

theorem name_of_hostedAuthority {zone : Name} {authority : Authority}
    (h : hostedAuthority db daemon zone = some authority) : authority.server.zone.name = zone :=
  (mem_of_hostedAuthority h).2.1

/-- The zones of a daemon, whose packets the validator of the client accepts. -/
def hostedFamily (services : Services Keys) (hsigns : services.SignsByDefault) (db : Database)
    (daemon : NdnsDaemon) : ZoneFamily Keys where
  services := services
  authority := hostedAuthority db daemon
  accepts _ := true
  signs := hsigns
  authoritative := name_of_hostedAuthority

/-- The databases of a daemon that lists its zones in one section. -/
structure StartedOn (host : DaemonHost Keys) (tree : ConfigSection) (db : Database)
    (daemon : NdnsDaemon) : Prop where
  started : ∃ config keys keys', config.children = [("zones", tree)] ∧
    make host config keys = .ok (daemon, keys')
  opened : openManager host (textOr tree "dbFile" host.defaultDatabaseFile) = .ok db

variable {host : DaemonHost Keys} {tree : ConfigSection}

/-- The names of the zones are those in the section, and their servers have found them in its
database. -/
theorem StartedOn.servers (h : StartedOn host tree db daemon) :
    daemon.servers.map (fun entry ↦ entry.2.zone.name) =
        (zoneOptions tree.children).filterMap (zoneOptionName host.readName) ∧
      ∀ entry ∈ daemon.servers, daemon.Live entry ∧ Listed db entry.2.zone := by
  obtain ⟨config, keys, keys', hconfig, hmake⟩ := h.started
  have hadds := adds_process hmake
  rw [hconfig] at hadds
  have hnames := congrArg (List.map Prod.snd) hadds.names
  have hlength := hadds.length
  simp only [List.map_nil, List.nil_append, listedZones, List.append_nil, List.map_map] at hnames
  refine ⟨?_, fun entry hentry ↦ ?_⟩
  · rw [show (fun entry : ℕ × NameServer ↦ entry.2.zone.name) = Prod.snd ∘ entryName from rfl,
      hnames]
    simp [Function.comp_def]
  · rcases hadds.servers entry hentry with hnone | ⟨found, child, option, hfound, hchild, hopen,
      hoption, hmade⟩
    · cases hnone
    · obtain rfl := List.mem_singleton.mp hchild
      obtain rfl : found = db := Except.ok.inj (hopen.symm.trans h.opened)
      refine ⟨?_, hmade.zone⟩
      have hlt : entry.1 < daemon.databases.length := by
        by_contra hge
        rw [List.getElem?_eq_none (not_lt.mp hge)] at hfound
        cases hfound
      simp only [List.length_nil, List.length_cons] at hlength
      unfold NdnsDaemon.Live
      omega

variable [PacketFormat]

/-- Of the packets that a daemon sends for an Interest, the network delivers the first one. -/
def firstReply (outcome : Except Fault (List (Option Data))) : Except Fault (Option Data) :=
  outcome.map fun answers ↦ answers.findSome? id

/-- Resolutions whose Interests the daemon gets. -/
def daemonInquiry (services : Services Keys) (hsigns : services.SignsByDefault) (db : Database)
    (daemon : NdnsDaemon) : Inquiry Session Expressed Event where
  starts := (hostedFamily services hsigns db daemon).plainInquiry.starts
  asks := Session.asks
  receive := Session.handle
  answers query event := ∃ keys, event = (hostedFamily services hsigns db daemon).replyEvent
    (firstReply ((daemon.onInterest query.interest).run (World.handle services) ⟨db, keys⟩).1)
      query.interest

variable {services : Services Keys} {hsigns : services.SignsByDefault}

/-- One server answers as it does on its own. -/
theorem run_answerAll_single {interest : Interest} {entry : ℕ × NameServer}
    (hlive : daemon.Live entry) (world : World Keys) :
    firstReply ((daemon.answerAll interest [entry]).run (World.handle services) world).1 =
      ((entry.2.onInterest interest).run (World.handle services) world).1 := by
  rw [answerAll, if_pos hlive, Program.run_bind]
  rcases (entry.2.onInterest interest).run (World.handle services) world with ⟨_ | answer, world'⟩
  · rfl
  · cases answer <;> rfl

/-- With separate zones, the daemon answers a plain question as the server of its zone does. -/
theorem Separate.answers_iff [Nonempty Keys] (h : Separate daemon) {query : Expressed} {event : Event}
    (hplain : query.question.Plain) (hname : query.interest.name = query.question.name) :
    (daemonInquiry services hsigns db daemon).answers query event ↔
      (hostedFamily services hsigns db daemon).Answers query event := by
  have hreceivers := h.receivers hplain.zone.marker hname
  have hqueried : Queried query.question.type := by
    rcases hplain.type with htype | htype
    · exact htype.symm ▸ queried_ns
    · exact htype.symm ▸ queried_txt
  cases hserver : serverOf daemon query.question.zone with
  | none =>
      have hauthority : (hostedFamily services hsigns db daemon).authority query.question.zone =
          none := by
        change hostedAuthority db daemon query.question.zone = none
        rw [hostedAuthority, hserver, Option.map_none]
      rw [hserver] at hreceivers
      rw [ZoneFamily.answers_none hauthority rfl]
      change (∃ keys, event = _) ↔ _
      simp only [NdnsDaemon.onInterest, hreceivers, Option.toList_none, answerAll,
        Program.run_pure]
      exact exists_const _
  | some entry =>
      have hauthority : (hostedFamily services hsigns db daemon).authority query.question.zone =
          some ⟨entry.2, db⟩ := by
        change hostedAuthority db daemon query.question.zone = some _
        rw [hostedAuthority, hserver, Option.map_some]
      rw [hserver] at hreceivers
      rw [ZoneFamily.answers_iff hauthority rfl hqueried hname]
      have hlive := h.live entry (mem_of_serverOf hserver).1
      change (∃ keys, event = _) ↔ _
      simp only [NdnsDaemon.onInterest, hreceivers, Option.toList_some,
        run_answerAll_single hlive]
      rfl

/-- A resolution that asks the daemon ends as one that asks the servers of the zones. -/
theorem Separate.inevitable [Nonempty Keys] (h : Separate daemon)
    (hserved : (hostedFamily services hsigns db daemon).Served) {zone label : Name}
    {rrType : Component} (hplain : Plain (zone ++ label))
    (hrrType : rrType = Label.nsRrType ∨ rrType = Label.txtRrType) (interestLifetime : ℕ) :
    (daemonInquiry services hsigns db daemon).Inevitable
      (·.Finds ((hostedFamily services hsigns db daemon).lookup rrType zone label))
      (.begin (resolution zone label rrType interestLifetime)) := by
  have hinevitable := hserved.inevitable_lookup hrrType
    (Session.enters_begin zone label rrType interestLifetime)
  have hagrees : ∀ {asked session query}, (hostedFamily services hsigns db daemon).inquiry.Direct
      (.begin (resolution zone label rrType interestLifetime)) asked session →
        session.asks = some query → ∀ event,
          (daemonInquiry services hsigns db daemon).answers query event ↔
            (hostedFamily services hsigns db daemon).Answers query event := by
    intro asked session query hdirect hasks event
    have hreaches : (hostedFamily services hsigns db daemon).plainInquiry.Reaches session :=
      ⟨_, asked, ⟨zone, label, rrType, interestLifetime, hplain, hrrType, rfl⟩,
        ZoneFamily.direct_iff.mpr hdirect⟩
    exact h.answers_iff (ZoneFamily.plain_of_asks hreaches hasks)
      (ZoneFamily.name_of_asks (ZoneFamily.reaches_of_plain hreaches) hasks)
  exact @Inquiry.Inevitable.congr _ _ _ (hostedFamily services hsigns db daemon).inquiry _ _ _
    (daemonInquiry services hsigns db daemon) rfl rfl hagrees hinevitable _ .start

/-- A daemon has started on a database of zones that were managed with the tools, and the tools have
gone on since, without a removal of its zones.  A resolution of an NS or TXT record of a plain name
comes to the finding of the lookup through the zones of the daemon, and has come to it wherever it
ends. -/
theorem daemon_resolution_finds [Nonempty Keys] {opened : Database}
    (hstarted : StartedOn host tree opened daemon)
    (hopened : Relation.ReflTransGen (ManagesZones fun _ ↦ True) Database.empty opened)
    (hmanages : Relation.ReflTransGen (ManagesZones fun name ↦
      ∀ entry ∈ daemon.servers, entry.2.zone.name ≠ name) opened db)
    (hnames : ((zoneOptions tree.children).filterMap (zoneOptionName host.readName)).Nodup)
    (hmarkers : ∀ name ∈ (zoneOptions tree.children).filterMap (zoneOptionName host.readName),
      Label.ndnsIterativeQuery ∉ name)
    (hsigns : host.services.SignsByDefault) {zone label : Name} {rrType : Component}
    (hplain : Plain (zone ++ label)) (hrrType : rrType = Label.nsRrType ∨ rrType = Label.txtRrType)
    (interestLifetime : ℕ) :
    (daemonInquiry host.services hsigns db daemon).Inevitable
        (·.Finds ((hostedFamily host.services hsigns db daemon).lookup rrType zone label))
        (.begin (resolution zone label rrType interestLifetime)) ∧
      ∀ asked session, (daemonInquiry host.services hsigns db daemon).Direct
        (.begin (resolution zone label rrType interestLifetime)) asked session →
          session.asks = none → session.Finds
            ((hostedFamily host.services hsigns db daemon).lookup rrType zone label) := by
  obtain ⟨hservers, hentries⟩ := hstarted.servers
  obtain ⟨hhosts, -⟩ := hosts_run hosts_empty hopened
  obtain ⟨hhosts', hkeeps⟩ := hosts_run hhosts hmanages
  have hseparate : Separate daemon := by
    refine ⟨hservers.symm ▸ hnames, fun entry hentry ↦ hmarkers _ ?_,
      fun entry hentry ↦ (hentries entry hentry).1⟩
    rw [← hservers]
    exact List.mem_map_of_mem hentry
  have hserved : (hostedFamily host.services hsigns db daemon).Served := by
    refine ⟨fun {zone authority} hauthority ↦ ?_, fun _ ↦ rfl⟩
    obtain ⟨hdb, hname, entry, hentry, hserver⟩ := mem_of_hostedAuthority hauthority
    obtain ⟨row, hrow, hid, hrowName⟩ := (hentries entry hentry).2
    have hkept : row ∈ db.zones := by
      refine hkeeps row hrow fun hmay ↦ hmay entry hentry ?_
      exact hrowName.symm
    have hserves := hhosts'.serves row hkept
    rw [hid, hrowName] at hserves
    rw [hdb, ← hname, ← hserver]
    exact hserves
  have hinevitable := @Separate.inevitable _ _ db _ _ hsigns _ hseparate hserved zone label rrType
    hplain hrrType interestLifetime
  refine ⟨hinevitable, fun asked session hdirect hstops ↦
    hinevitable.goal_of_direct (fun session hfinds ↦ ?_) hdirect hstops⟩
  exact @ZoneFamily.asks_of_finds _ _ (hostedFamily host.services hsigns db daemon) session _ hfinds

end Family

section Examples

open LocalServices

attribute [local instance] ndnPacketFormat

/-- The creation of the zone /n/a beside the zone /n. -/
def secondCreation : Except Fault Zone × World ℕ :=
  (ManagementTool.createZone [letter 110, letter 97] [letter 110] 3600 [] [] []).run
    (World.handle localServices) ⟨netZone, 0⟩

/-- The zones after the delegation of /n/a in /n. -/
def delegatedZones : Database :=
  (addition [letter 110] [letter 97] Label.nsRrType secondCreation.2.db).2.db

/-- The zones after the addition of a TXT record to /n/a. -/
def textZones : Database :=
  (addition [letter 110, letter 97] [letter 119] Label.txtRrType delegatedZones).2.db

theorem manages_delegatedZones :
    Relation.ReflTransGen (ManagesZones fun _ ↦ True) Database.empty delegatedZones := by
  have hfirst : ManagesZones (fun _ ↦ True) Database.empty netZone := .creates netZone_step
  have hsecond : (ManagementTool.createZone [letter 110, letter 97] [letter 110] 3600 [] []
      []).Returns (World.handle localServices) ⟨netZone, 0⟩ ⟨2, [letter 110, letter 97], 3600⟩
        secondCreation.2 :=
    Prod.ext (by decide +kernel) rfl
  have hmiddle : ManagesZones (fun _ ↦ True) netZone secondCreation.2.db := .creates hsecond
  have hadded : AddsRecord secondCreation.2.db delegatedZones :=
    addition_adds (Or.inl rfl) (by decide +kernel)
  exact ((Relation.ReflTransGen.single hfirst).tail hmiddle).tail (.adds hadded)

/-- The servers of the two zones. -/
def netHost : NameServer :=
  ⟨⟨1, [letter 110], 3600⟩, certificateName (keyName (zoneIdentity [letter 110])),
    NameServer.defaultContentFreshness, Nat.one_pos⟩

def childHost : NameServer :=
  ⟨⟨2, [letter 110, letter 97], 3600⟩,
    certificateName (keyName (zoneIdentity [letter 110, letter 97])),
    NameServer.defaultContentFreshness, Nat.two_pos⟩

def bothServers (db : Database) : NdnsDaemon := ⟨[db], [(0, netHost), (0, childHost)]⟩

/-- A host with a database. -/
def zonesHost (db : Database) : DaemonHost ℕ :=
  { nestedHost with openDatabase := fun _ ↦ some db }

theorem startedOn_bothServers {db : Database}
    (hzones : db.zones = [⟨1, [letter 110], 3600⟩, ⟨2, [letter 110, letter 97], 3600⟩]) :
    StartedOn (zonesHost db) (zonesSection ["/n", "/n/a"]).2 db (bothServers db) := by
  refine ⟨⟨.node "" [zonesSection ["/n", "/n/a"]], 0, 0, rfl, ?_⟩, rfl⟩
  obtain ⟨zones, zoneInfo, rrsets⟩ := db
  cases hzones
  rfl

theorem hostedAuthority_bothServers (db db' : Database) :
    hostedAuthority db' (bothServers db) [letter 110] = some ⟨netHost, db'⟩ ∧
      hostedAuthority db' (bothServers db) [letter 110, letter 97] = some ⟨childHost, db'⟩ :=
  ⟨rfl, rfl⟩

/-- The lookup of the TXT record through both zones. -/
theorem lookup_bothServers : ∃ row ∈ (Authority.mk childHost textZones).records,
    row.label = [letter 119] ∧
    (hostedFamily localServices localServices_signsByDefault textZones
      (bothServers delegatedZones)).lookup Label.txtRrType [letter 110]
        [letter 97, letter 119] = .record row := by
  have hqueried : Queried Label.txtRrType := queried_txt
  obtain ⟨row, hstored⟩ : ∃ row,
      (Authority.mk childHost textZones).stored [letter 119] Label.txtRrType = some row :=
    Option.isSome_iff_exists.mp (by decide +kernel)
  obtain ⟨hrow, hlabel, -⟩ := Authority.mem_of_stored hqueried hstored
  refine ⟨row, hrow, hlabel, ?_⟩
  obtain ⟨hparent, hchild⟩ := hostedAuthority_bothServers delegatedZones textZones
  have hborder : (Authority.mk netHost textZones).border [letter 97, letter 119] = some 1 := by
    decide +kernel
  have hlink : (Authority.mk netHost textZones).nsType ([letter 97, letter 119].take 1) =
      some .link := by
    decide +kernel
  have hborder' : (Authority.mk childHost textZones).border [letter 119] = some 1 := by
    decide +kernel
  have habsent : (Authority.mk childHost textZones).nsType ([letter 119].take 1) ≠ some .link := by
    decide +kernel
  have hconvinces : (Authority.mk childHost textZones).Convinces
      ([letter 119].take 1 ++ [Label.nsRrType]) := by
    decide +kernel
  rw [ZoneFamily.lookup_border hparent hborder, if_pos hlink, if_neg (by decide)]
  refine (ZoneFamily.lookup_border hchild hborder').trans ?_
  rw [if_neg habsent, if_pos hconvinces]
  exact Authority.finding_of_stored hstored

/-- From /n, a resolution of /n/a/w comes to the record that was added when the daemon had started. -/
theorem daemon_resolution_delegated : ∃ row ∈ (Authority.mk childHost textZones).records,
    row.label = [letter 119] ∧
    (daemonInquiry localServices localServices_signsByDefault textZones
      (bothServers delegatedZones)).Inevitable (·.Finds (.record row))
        (.begin (resolution [letter 110] [letter 97, letter 119] Label.txtRrType 4000)) := by
  have hstarted := @startedOn_bothServers delegatedZones (by decide +kernel)
  have hadded : AddsRecord delegatedZones textZones :=
    addition_adds (Or.inr rfl) (by decide +kernel)
  have hplain : Plain ([letter 110] ++ [letter 97, letter 119]) := by decide +kernel
  obtain ⟨row, hrow, hlabel, hlookup⟩ := lookup_bothServers
  refine ⟨row, hrow, hlabel, ?_⟩
  rw [← hlookup]
  exact (daemon_resolution_finds hstarted manages_delegatedZones (.single (.adds hadded))
    (by decide +kernel) (by decide +kernel) localServices_signsByDefault hplain (Or.inr rfl) 4000).1

end Examples

end Ndns.Clients
