import Ndns.Daemon.FactoryRules
import Ndns.Daemon.LocalServices
import Ndns.Daemon.NameServer

/-!
# The Name Server Daemon

A daemon serves the zones that its configuration lists.  Each of its servers sets a filter for the
Interests under its own prefix, and keeps the database manager that was open when the server was
made, although the next section of the configuration may replace the manager.
-/

namespace Ndns.Daemon

open Ndn Calls

/-! ## Filters -/

section Filters

variable {Entry Part : Type} [DecidableEq Part] {path : Entry → List Part} {entries : List Entry}

/-- No sequence passes two of the filters exactly if no path is the start of another one. -/
theorem passes_once_iff :
    (∀ sequence, (entries.filter fun entry ↦ (path entry).isPrefixOf sequence).length ≤ 1) ↔
      entries.Pairwise fun left right ↦ ¬ path left <+: path right ∧ ¬ path right <+: path left := by
  induction entries with
  | nil => simp
  | cons first rest ih =>
      rw [List.pairwise_cons, ← ih]
      constructor
      · intro h
        have hrest : ∀ other ∈ rest, ∀ sequence, path first <+: sequence →
            ¬ path other <+: sequence := by
          intro other hother sequence hfirst hpasses
          have hlength := h sequence
          rw [List.filter_cons_of_pos (by simpa using hfirst), List.length_cons] at hlength
          have hmem : other ∈ rest.filter fun entry ↦ (path entry).isPrefixOf sequence :=
            List.mem_filter.mpr ⟨hother, by simpa using hpasses⟩
          have hpos := List.length_pos_of_mem hmem
          omega
        refine ⟨fun other hother ↦ ⟨fun hbegins ↦ ?_, fun hbegins ↦ ?_⟩, fun sequence ↦ ?_⟩
        · exact hrest other hother _ hbegins (List.prefix_refl _)
        · exact hrest other hother _ (List.prefix_refl _) hbegins
        · exact ((List.sublist_cons_self first rest).filter _).length_le.trans (h sequence)
      · rintro ⟨hapart, hrest⟩ sequence
        by_cases hfirst : path first <+: sequence
        · have hnone : (rest.filter fun entry ↦ (path entry).isPrefixOf sequence) = [] := by
            refine List.filter_eq_nil_iff.mpr fun other hother hpasses ↦ ?_
            obtain ⟨hleft, hright⟩ := hapart other hother
            rcases List.prefix_or_prefix_of_prefix hfirst (by simpa using hpasses) with h | h
            · exact hleft h
            · exact hright h
          rw [List.filter_cons_of_pos (by simpa using hfirst), hnone]
          rfl
        · rw [List.filter_cons_of_neg (by simpa using hfirst)]
          exact hrest sequence

end Filters

/-! ## The configuration -/

/-- A property tree: a text, and named trees in their order. -/
inductive ConfigSection where
  | node (value : String) (children : List (String × ConfigSection))

namespace ConfigSection

def value : ConfigSection → String
  | .node value _ => value

def children : ConfigSection → List (String × ConfigSection)
  | .node _ children => children

/-- The first child with a name. -/
def find (tree : ConfigSection) (name : String) : Option ConfigSection :=
  (tree.children.find? fun child ↦ child.1 = name).map Prod.snd

end ConfigSection

/-- What the daemon finds on its host: the key chain, the texts that can be read as names, the
defaults of the build, and what opening a database file or loading the rules of the validator from a
file comes to. -/
structure DaemonHost (Keys : Type) where
  services : Services Keys
  readName : String → Option Name
  defaultDatabaseFile : String
  defaultValidatorFile : String
  openDatabase : String → Option Database
  loadValidator : String → Except Fault Unit

/-- The databases that have been opened, the last of which is still open, and the servers, each with
the index of its database. -/
structure NdnsDaemon where
  databases : List Database
  servers : List (ℕ × NameServer)

namespace NdnsDaemon

/-! ## The start -/

/-- The `name` attribute of a `zone` option. -/
def zoneOptionName (readName : String → Option Name) (option : ConfigSection) : Option Name :=
  (option.find "name").bind fun text ↦ readName text.value

/-- The `cert` attribute of a `zone` option.  One that cannot be read counts as absent. -/
def zoneOptionCert (readName : String → Option Name) (option : ConfigSection) : Name :=
  ((option.find "cert").bind fun text ↦ readName text.value).getD []

/-- The certificate of a server.  One from the configuration is looked for in the identity with the
name of the zone, and the default is that of the identity with the marker. -/
def serverCertName (name cert : Name) : Prog Name :=
  if cert = [] then
    (CertHelper.getDefaultCertificateNameOfIdentity (name ++ [Label.ndnsIterativeQuery])).tryCatch
      fun _ ↦ throw (.runtimeError "identity does not have default certificate")
  else do
    let _ ← (CertHelper.getCertificate name cert).tryCatch
      fun _ ↦ throw (.runtimeError "Certificate does not exist in the KeyChain")
    pure cert

/-- One turn of the loop of `processZonesSection`. -/
def processZone (readName : String → Option Name) (option : ConfigSection) : Prog NameServer := do
  let name ← orThrow (zoneOptionName readName option)
    (.runtimeError "Required name attribute missing in zone section")
  let certName ← serverCertName name (zoneOptionCert readName option)
  NameServer.make name certName

/-- The loop of `processZonesSection`. -/
def processZones (readName : String → Option Name) :
    List (String × ConfigSection) → Prog (List NameServer)
  | [] => pure []
  | (key, option) :: rest =>
      if key = "zone" then do
        let server ← processZone readName option
        let servers ← processZones readName rest
        pure (server :: servers)
      else processZones readName rest

variable {Keys : Type}

/-- The text of an option, or its default. -/
def textOr (tree : ConfigSection) (name default : String) : String :=
  ((tree.find name).map ConfigSection.value).getD default

/-- The constructor of the database manager, which takes an empty name for the default. -/
def openManager (host : DaemonHost Keys) (dbFile : String) : Except Fault Database :=
  match host.openDatabase (if dbFile = "" then host.defaultDatabaseFile else dbFile) with
  | some db => .ok db
  | none => .error (.dbMgrError "Cannot open the db file")

/-- `NdnsDaemon::processZonesSection`. -/
def processZonesSection (host : DaemonHost Keys) (tree : ConfigSection) (daemon : NdnsDaemon)
    (keys : Keys) : Except Fault (NdnsDaemon × Keys) := do
  if tree.children.isEmpty then throw (.runtimeError "zones section is empty")
  let db ← openManager host (textOr tree "dbFile" host.defaultDatabaseFile)
  host.loadValidator (textOr tree "validatorConfigFile" host.defaultValidatorFile)
  match (processZones host.readName tree.children).run (World.handle host.services) ⟨db, keys⟩ with
  | (.error fault, _) => throw fault
  | (.ok servers, world) =>
      pure (⟨daemon.databases ++ [world.db],
        daemon.servers ++ servers.map (Prod.mk daemon.databases.length)⟩, world.keys)

/-- `ConfigFile::process` with a handler for the sections of zones only. -/
def process (host : DaemonHost Keys) :
    List (String × ConfigSection) → NdnsDaemon × Keys → Except Fault (NdnsDaemon × Keys)
  | [], state => pure state
  | (key, tree) :: rest, (daemon, keys) =>
      if key = "zones" then do process host rest (← processZonesSection host tree daemon keys)
      else throw (.runtimeError "no module subscribed for section")

/-- The constructor, with a configuration that has been read. -/
def make (host : DaemonHost Keys) (config : ConfigSection) (keys : Keys) :
    Except Fault (NdnsDaemon × Keys) :=
  process host config.children (⟨[], []⟩, keys)

/-! ## Interests -/

/-- The servers whose filters let an Interest through. -/
def receivers (daemon : NdnsDaemon) (interest : Interest) : List (ℕ × NameServer) :=
  daemon.servers.filter fun entry ↦
    (entry.2.zone.name ++ [Label.ndnsIterativeQuery]).isPrefixOf interest.name

/-- The database of the server is the one that is still open. -/
def Live (daemon : NdnsDaemon) (entry : ℕ × NameServer) : Prop :=
  entry.1 + 1 = daemon.databases.length

instance (daemon : NdnsDaemon) (entry : ℕ × NameServer) : Decidable (daemon.Live entry) :=
  inferInstanceAs (Decidable (_ = _))

/-! ## What a started daemon is -/

section Started

variable {services : Services Keys} {world world' : World Keys} {readName : String → Option Name}

/-- Of an exception that is turned into another one, a run that returns sees nothing. -/
theorem returns_tryCatch_throw {Value : Type} {program : Prog Value} {fault : Fault} {value : Value}
    (h : (program.tryCatch fun _ ↦ throw fault).Returns (World.handle services) world value world') :
    program.Returns (World.handle services) world value world' := by
  unfold Program.Returns at h ⊢
  rw [Program.run_tryCatch] at h
  rcases hrun : program.run (World.handle services) world with ⟨_ | _, _⟩
  · rw [hrun] at h
    cases congrArg Prod.fst h
  · rw [hrun] at h
    exact h

/-- Where the certificate of a server comes from. -/
def CertifiedBy (services : Services Keys) (name certName : Name) : Prop :=
  (∃ keys certificates cert, (services.answer (.certificates name) keys).1 = some certificates ∧
      cert ∈ certificates ∧ cert.name = certName) ∨
    ∃ keys, (services.answer (.defaultCertificateName (zoneIdentity name)) keys).1 = some certName

theorem returns_serverCertName {name cert certName : Name}
    (h : (serverCertName name cert).Returns (World.handle services) world certName world') :
    world'.db = world.db ∧ CertifiedBy services name certName ∧ (cert ≠ [] → certName = cert ∧
      ∃ keys certificates found, (services.answer (.certificates name) keys).1 = some certificates ∧
        found ∈ certificates ∧ found.name = certName) := by
  unfold serverCertName at h
  split_ifs at h with hcert
  · have hdefault := returns_tryCatch_throw h
    refine ⟨db_of_returns (CertHelper.reads_getDefaultCertificateNameOfIdentity _) hdefault,
      Or.inr ⟨world.keys, ?_⟩, fun hne ↦ absurd hcert hne⟩
    obtain ⟨answer, middle, hservice, horThrow⟩ := Program.returns_bind.mp hdefault
    rw [(returns_orThrow.mp horThrow).1] at hservice
    exact congrArg Prod.fst (returns_service.mp hservice).1
  · obtain ⟨found, middle, hfound, hpure⟩ := Program.returns_bind.mp h
    obtain ⟨rfl, rfl⟩ := Program.returns_pure.mp hpure
    have hget := returns_tryCatch_throw hfound
    have hlisted : ∃ keys certificates found,
        (services.answer (.certificates name) keys).1 = some certificates ∧ found ∈ certificates ∧
          found.name = cert := by
      obtain ⟨answer, listed, hservice, hrest⟩ := Program.returns_bind.mp hget
      obtain ⟨certificates, _, horThrow, hfind⟩ := Program.returns_bind.mp hrest
      rw [(returns_orThrow.mp horThrow).1] at hservice
      have hmem := (returns_orThrow.mp hfind).1
      exact ⟨world.keys, certificates, found, congrArg Prod.fst (returns_service.mp hservice).1,
        List.mem_of_find?_eq_some hmem, by simpa using List.find?_some hmem⟩
    exact ⟨db_of_returns ((CertHelper.asks_getCertificate _ _).mono Call.Asks.reads) hget,
      Or.inl hlisted, fun _ ↦ ⟨rfl, hlisted⟩⟩

/-- A server is made for the zone of its option, if this zone is in the database. -/
structure MadeFor (services : Services Keys) (readName : String → Option Name) (db : Database)
    (option : ConfigSection) (server : NameServer) : Prop where
  name : zoneOptionName readName option = some server.zone.name
  zone : ∃ row ∈ db.zones, row.id = server.zone.id ∧ row.name = server.zone.name
  certName : CertifiedBy services server.zone.name server.certName
  chosen : zoneOptionCert readName option ≠ [] →
    server.certName = zoneOptionCert readName option ∧
      ∃ keys certificates cert, (services.answer (.certificates server.zone.name) keys).1 =
        some certificates ∧ cert ∈ certificates ∧ cert.name = server.certName

theorem returns_processZone {option : ConfigSection} {server : NameServer}
    (h : (processZone readName option).Returns (World.handle services) world server world') :
    world'.db = world.db ∧ MadeFor services readName world.db option server := by
  obtain ⟨name, _, horThrow, h⟩ := Program.returns_bind.mp h
  obtain ⟨hname, rfl⟩ := returns_orThrow.mp horThrow
  obtain ⟨certName, middle, hcert, h⟩ := Program.returns_bind.mp h
  obtain ⟨hdb, hcertified, hchosen⟩ := returns_serverCertName hcert
  obtain ⟨zone, _, hzone, h⟩ := Program.returns_bind.mp h
  obtain ⟨hlookup, rfl⟩ := (Program.returns_iff_of_run (DbMgr.run_findZone _ _)).mp hzone
  split_ifs at h with hpos
  · obtain ⟨hserver, rfl⟩ := Program.returns_pure.mp h
    obtain ⟨rfl, rfl⟩ : zone = server.zone ∧ certName = server.certName := by
      rw [← hserver]
      exact ⟨rfl, rfl⟩
    obtain rfl : server.zone.name = name := by
      rw [← hlookup]
      exact DbMgr.lookupZone_name _ _
    refine ⟨hdb, hname, ?_, hcertified, hchosen⟩
    rw [hdb] at hlookup
    obtain ⟨row, hrow, hrowName, hfound⟩ := DbMgr.lookupZone_id_eq (hlookup ▸ hpos.ne')
    refine ⟨row, hrow, ?_, hrowName⟩
    rw [← hlookup, hfound]
  · exact (Program.returns_throw.mp h).elim

/-- The zone options of a section. -/
def zoneOptions (children : List (String × ConfigSection)) : List ConfigSection :=
  children.filterMap fun child ↦ if child.1 = "zone" then some child.2 else none

/-- One server is made for each option, in their order. -/
structure Provides (services : Services Keys) (readName : String → Option Name) (db : Database)
    (options : List ConfigSection) (servers : List NameServer) : Prop where
  names : options.filterMap (zoneOptionName readName) = servers.map fun server ↦ server.zone.name
  served : ∀ server ∈ servers, ∃ option ∈ options, MadeFor services readName db option server
  options : ∀ option ∈ options, ∃ server ∈ servers, MadeFor services readName db option server

theorem Provides.cons {db : Database} {option : ConfigSection} {options : List ConfigSection}
    {server : NameServer} {servers : List NameServer}
    (hmade : MadeFor services readName db option server)
    (h : Provides services readName db options servers) :
    Provides services readName db (option :: options) (server :: servers) := by
  refine ⟨?_, fun other hother ↦ ?_, fun other hother ↦ ?_⟩
  · rw [List.filterMap_cons_some hmade.name, List.map_cons, h.names]
  · rcases List.mem_cons.mp hother with rfl | hother
    · exact ⟨option, List.mem_cons_self, hmade⟩
    · obtain ⟨found, hfound, hmadeFor⟩ := h.served other hother
      exact ⟨found, List.mem_cons_of_mem _ hfound, hmadeFor⟩
  · rcases List.mem_cons.mp hother with rfl | hother
    · exact ⟨server, List.mem_cons_self, hmade⟩
    · obtain ⟨found, hfound, hmadeFor⟩ := h.options other hother
      exact ⟨found, List.mem_cons_of_mem _ hfound, hmadeFor⟩

theorem returns_processZones {children : List (String × ConfigSection)} {servers : List NameServer}
    (h : (processZones readName children).Returns (World.handle services) world servers world') :
    world'.db = world.db ∧ Provides services readName world.db (zoneOptions children) servers := by
  induction children generalizing world servers with
  | nil =>
      obtain ⟨rfl, rfl⟩ := Program.returns_pure.mp h
      exact ⟨rfl, rfl, by simp, by simp [zoneOptions]⟩
  | cons child rest ih =>
      obtain ⟨key, option⟩ := child
      unfold processZones at h
      split_ifs at h with hkey
      · obtain ⟨server, middle, hserver, h⟩ := Program.returns_bind.mp h
        obtain ⟨others, after, hothers, hpure⟩ := Program.returns_bind.mp h
        obtain ⟨rfl, rfl⟩ := Program.returns_pure.mp hpure
        obtain ⟨hdb, hmade⟩ := returns_processZone hserver
        obtain ⟨hdb', hrest⟩ := ih hothers
        rw [hdb] at hdb' hrest
        have hoptions : zoneOptions ((key, option) :: rest) = option :: zoneOptions rest := by
          simp [zoneOptions, hkey]
        rw [hoptions]
        exact ⟨hdb', hrest.cons hmade⟩
      · have hoptions : zoneOptions ((key, option) :: rest) = zoneOptions rest := by
          simp [zoneOptions, hkey]
        rw [hoptions]
        exact ih h

variable {host : DaemonHost Keys} {tree config : ConfigSection} {daemon daemon' : NdnsDaemon}
  {keys keys' : Keys}

/-- A section adds a database and the servers of its options. -/
theorem processZonesSection_eq_ok
    (h : processZonesSection host tree daemon keys = .ok (daemon', keys')) :
    ∃ db servers, openManager host (textOr tree "dbFile" host.defaultDatabaseFile) = .ok db ∧
      Provides host.services host.readName db (zoneOptions tree.children) servers ∧
      daemon' = ⟨daemon.databases ++ [db],
        daemon.servers ++ servers.map (Prod.mk daemon.databases.length)⟩ := by
  unfold processZonesSection at h
  split_ifs at h with hempty
  · cases h
  · cases hopen : openManager host (textOr tree "dbFile" host.defaultDatabaseFile) with
    | error fault =>
        rw [hopen] at h
        cases h
    | ok db =>
        rw [hopen] at h
        cases hload : host.loadValidator
          (textOr tree "validatorConfigFile" host.defaultValidatorFile) with
        | error fault =>
            rw [hload] at h
            cases h
        | ok loaded =>
            rw [hload] at h
            rcases hrun : (processZones host.readName tree.children).run
              (World.handle host.services) ⟨db, keys⟩ with ⟨fault | servers, world⟩
            · simp only [bind, Except.bind, hrun] at h
              cases h
            · simp only [bind, Except.bind, hrun] at h
              cases h
              obtain ⟨hdb, hmade⟩ := returns_processZones hrun
              rw [hdb]
              exact ⟨db, servers, rfl, hmade, rfl⟩

/-- The names of the zones that are listed, each with the index of its section. -/
def listedZones (readName : String → Option Name) :
    ℕ → List (String × ConfigSection) → List (ℕ × Name)
  | _, [] => []
  | index, (_, tree) :: rest =>
      ((zoneOptions tree.children).filterMap (zoneOptionName readName)).map (Prod.mk index) ++
        listedZones readName (index + 1) rest

/-- A server with its zone and its database. -/
def entryName (entry : ℕ × NameServer) : ℕ × Name := (entry.1, entry.2.zone.name)

/-- Where a server of the daemon comes from. -/
def Comes (host : DaemonHost Keys) (sections : List (String × ConfigSection))
    (databases : List Database) (entry : ℕ × NameServer) : Prop :=
  ∃ db child option, databases[entry.1]? = some db ∧ child ∈ sections ∧
    openManager host (textOr child.2 "dbFile" host.defaultDatabaseFile) = .ok db ∧
    option ∈ zoneOptions child.2.children ∧ MadeFor host.services host.readName db option entry.2

/-- What processing some sections adds to the daemon. -/
structure Adds (host : DaemonHost Keys) (sections : List (String × ConfigSection))
    (daemon daemon' : NdnsDaemon) : Prop where
  databases : daemon.databases <+: daemon'.databases
  length : daemon'.databases.length = daemon.databases.length + sections.length
  names : daemon'.servers.map entryName = daemon.servers.map entryName ++
    listedZones host.readName daemon.databases.length sections
  servers : ∀ entry ∈ daemon'.servers,
    entry ∈ daemon.servers ∨ Comes host sections daemon'.databases entry
  options : ∀ child ∈ sections, ∀ option ∈ zoneOptions child.2.children, ∃ db server,
    MadeFor host.services host.readName db option server

theorem adds_process {sections : List (String × ConfigSection)}
    (h : process host sections (daemon, keys) = .ok (daemon', keys')) :
    Adds host sections daemon daemon' := by
  induction sections generalizing daemon keys with
  | nil =>
      cases h
      refine ⟨List.prefix_refl _, rfl, ?_, fun entry hentry ↦ Or.inl hentry, by simp⟩
      rw [listedZones, List.append_nil]
  | cons child rest ih =>
      obtain ⟨key, tree⟩ := child
      unfold process at h
      split_ifs at h with hkey
      · cases hsection : processZonesSection host tree daemon keys with
        | error fault =>
            rw [hsection] at h
            cases h
        | ok state =>
            obtain ⟨middle, keys''⟩ := state
            rw [hsection] at h
            obtain ⟨db, servers, hopen, hmade, rfl⟩ := processZonesSection_eq_ok hsection
            have hrest := ih h
            have hdatabases := (List.prefix_append _ _).trans hrest.databases
            refine ⟨hdatabases, ?_, ?_, fun entry hentry ↦ ?_, fun child hchild option hoption ↦ ?_⟩
            · rw [hrest.length, List.length_append, List.length_cons, List.length_cons]
              simp only [List.length_nil]
              omega
            · have hlength : (daemon.databases ++ [db]).length = daemon.databases.length + 1 := by
                simp
              rw [hrest.names, hlength, listedZones, hmade.names, List.map_append, List.map_map,
                List.map_map, List.append_assoc]
              rfl
            · rcases hrest.servers entry hentry with hold | hcomes
              · rcases List.mem_append.mp hold with hold | hnew
                · exact Or.inl hold
                · obtain ⟨server, hserver, rfl⟩ := List.mem_map.mp hnew
                  obtain ⟨option, hoption, hmadeFor⟩ := hmade.served server hserver
                  refine Or.inr ⟨db, _, option, ?_, List.mem_cons_self, hopen, hoption, hmadeFor⟩
                  obtain ⟨later, hlater⟩ := hrest.databases
                  simp [← hlater]
              · obtain ⟨db, child, option, hdb, hchild, hcomes⟩ := hcomes
                exact Or.inr ⟨db, child, option, hdb, List.mem_cons_of_mem _ hchild, hcomes⟩
            · rcases List.mem_cons.mp hchild with rfl | hchild
              · obtain ⟨server, -, hmadeFor⟩ := hmade.options option hoption
                exact ⟨db, server, hmadeFor⟩
              · exact hrest.options child hchild option hoption

end Started

/-! ## The dispatch -/

section Dispatch

variable {host : DaemonHost Keys} {config : ConfigSection} {daemon : NdnsDaemon} {keys keys' : Keys}

/-- Neither zone is given Interests of the other one. -/
def Apart (name name' : Name) : Prop :=
  ¬ zoneIdentity name <+: zoneIdentity name' ∧ ¬ zoneIdentity name' <+: zoneIdentity name

instance (name name' : Name) : Decidable (Apart name name') :=
  inferInstanceAs (Decidable (¬ _ ∧ ¬ _))

/-- Names without the marker are apart when they differ. -/
theorem apart_iff_ne {name name' : Name} (h : Label.ndnsIterativeQuery ∉ name)
    (h' : Label.ndnsIterativeQuery ∉ name') : Apart name name' ↔ name ≠ name' := by
  have hbegins : ∀ {name name' : Name}, Label.ndnsIterativeQuery ∉ name' →
      zoneIdentity name <+: zoneIdentity name' → name = name' := by
    rintro name name' hmarker ⟨rest, hrest⟩
    rw [zoneIdentity, zoneIdentity, List.append_assoc] at hrest
    rcases List.append_eq_append_iff.mp hrest with ⟨more, hname, hmore⟩ | ⟨more, hname, hmore⟩
    · cases more with
      | nil => exact (hname.trans (List.append_nil _)).symm
      | cons first more =>
          obtain ⟨rfl, -⟩ := List.cons.inj hmore
          exact absurd (hname ▸ List.mem_append_right _ List.mem_cons_self) hmarker
    · cases more with
      | nil => exact hname.trans (List.append_nil _)
      | cons first more => simp at hmore
  constructor
  · rintro ⟨hapart, -⟩ rfl
    exact hapart (List.prefix_refl _)
  · intro hne
    exact ⟨fun hleft ↦ hne (hbegins h' hleft), fun hright ↦ hne (hbegins h hright).symm⟩

/-- A started daemon gives every Interest to one server at most, and to none with a closed database,
exactly if the listed zones are apart and stand in the last section. -/
theorem dispatch_iff (h : make host config keys = .ok (daemon, keys')) :
    (∀ interest, (daemon.receivers interest).length ≤ 1 ∧
        ∀ entry ∈ daemon.receivers interest, daemon.Live entry) ↔
      ((listedZones host.readName 0 config.children).map Prod.snd).Pairwise Apart ∧
        ∀ entry ∈ listedZones host.readName 0 config.children,
          entry.1 + 1 = config.children.length := by
  have hadds := adds_process h
  have hnames : daemon.servers.map entryName = listedZones host.readName 0 config.children :=
    hadds.names
  have hlength : daemon.databases.length = config.children.length := by
    rw [hadds.length]
    exact Nat.zero_add _
  rw [← hnames, List.map_map, List.pairwise_map]
  constructor
  · intro hdispatch
    constructor
    · refine passes_once_iff.mp fun sequence ↦ ?_
      exact (hdispatch ⟨sequence, true, 0, []⟩).1
    · intro named hnamed
      obtain ⟨entry, hentry, rfl⟩ := List.mem_map.mp hnamed
      have hreceives : entry ∈ daemon.receivers ⟨zoneIdentity entry.2.zone.name, true, 0, []⟩ :=
        List.mem_filter.mpr ⟨hentry, by simp [zoneIdentity]⟩
      exact ((hdispatch _).2 entry hreceives).trans hlength
  · rintro ⟨hapart, hlast⟩ interest
    refine ⟨passes_once_iff.mpr hapart interest.name, fun entry hentry ↦ ?_⟩
    exact (hlast (entryName entry)
      (List.mem_map_of_mem (List.mem_of_mem_filter hentry))).trans hlength.symm

/-- A key chain lists under an identity the certificates of its keys. -/
def ListsOwn (services : Services Keys) : Prop :=
  ∀ identity keys certificates cert,
    (services.answer (.certificates identity) keys).1 = some certificates → cert ∈ certificates →
      ∃ keyId issuer version,
        cert.name = identity ++ [CertHelper.keyComponent, keyId, issuer, version]

/-- The daemon does not start with a certificate of the identity with the marker, the one whose keys
sign the records of the zone. -/
theorem start_fails_of_cert (hlists : ListsOwn host.services) {child : String × ConfigSection}
    (hchild : child ∈ config.children) {option : ConfigSection}
    (hoption : option ∈ zoneOptions child.2.children) {name : Name}
    (hname : zoneOptionName host.readName option = some name) {keyId issuer version : Component}
    (hcert : zoneOptionCert host.readName option =
      zoneIdentity name ++ [CertHelper.keyComponent, keyId, issuer, version]) :
    ∃ fault, make host config keys = .error fault := by
  cases hmake : make host config keys with
  | error fault => exact ⟨fault, rfl⟩
  | ok state =>
      obtain ⟨db, server, hmade⟩ := (adds_process hmake).options child hchild option hoption
      have hne : zoneOptionCert host.readName option ≠ [] := by simp [hcert]
      obtain ⟨hchosen, keys, certificates, cert, hlisted, hmem, hcertName⟩ := hmade.chosen hne
      obtain ⟨keyId', issuer', version', hown⟩ := hlists _ _ _ _ hlisted hmem
      rw [hcertName, hchosen, hcert] at hown
      have hlength := congrArg List.length hown
      rw [Option.some.inj (hname.symm.trans hmade.name)] at hlength
      simp [zoneIdentity] at hlength

end Dispatch

section Examples

open LocalServices

/-- A database with the zones /n and /n/a. -/
def nestedZones : Database := ⟨[⟨1, [letter 110], 3600⟩, ⟨2, [letter 110, letter 97], 3600⟩], [], []⟩

/-- A host with this database and the key chain in memory. -/
def nestedHost : DaemonHost ℕ where
  services := localServices
  readName text :=
    if text = "/n" then some [letter 110]
    else if text = "/n/a" then some [letter 110, letter 97]
    else none
  defaultDatabaseFile := "ndns.db"
  defaultValidatorFile := "validator.conf"
  openDatabase _ := some nestedZones
  loadValidator _ := .ok ()

/-- A section with the default certificate for each zone. -/
def zonesSection (names : List String) : String × ConfigSection :=
  ("zones", .node "" (names.map fun name ↦ ("zone", .node "" [("name", .node name [])])))

/-- The start of the daemon with some sections. -/
def nestedStart (sections : List (List String)) : Except Fault (NdnsDaemon × ℕ) :=
  make nestedHost (.node "" (sections.map zonesSection)) 0

def DispatchesApart (daemon : NdnsDaemon) : Prop :=
  ∀ interest, (daemon.receivers interest).length ≤ 1 ∧
    ∀ entry ∈ daemon.receivers interest, daemon.Live entry

/-- The two zones can be served together, but neither listed twice nor in two sections. -/
theorem dispatch_nested :
    (∃ daemon keys, nestedStart [["/n", "/n/a"]] = .ok (daemon, keys) ∧ DispatchesApart daemon) ∧
      (∃ daemon keys, nestedStart [["/n", "/n"]] = .ok (daemon, keys) ∧ ¬ DispatchesApart daemon) ∧
      ∃ daemon keys, nestedStart [["/n"], ["/n/a"]] = .ok (daemon, keys) ∧
        ¬ DispatchesApart daemon := by
  have hiff : ∀ sections, (nestedStart sections).toOption.isSome → ∃ daemon keys,
      nestedStart sections = .ok (daemon, keys) ∧ (DispatchesApart daemon ↔
        ((listedZones nestedHost.readName 0 (sections.map zonesSection)).map Prod.snd).Pairwise
            Apart ∧
          ∀ entry ∈ listedZones nestedHost.readName 0 (sections.map zonesSection),
            entry.1 + 1 = (sections.map zonesSection).length) := by
    intro sections hsome
    cases hstart : nestedStart sections with
    | error fault =>
        rw [hstart] at hsome
        cases hsome
    | ok state => exact ⟨state.1, state.2, rfl, dispatch_iff hstart⟩
  refine ⟨?_, ?_, ?_⟩
  · obtain ⟨daemon, keys, hstart, hdispatch⟩ := hiff [["/n", "/n/a"]] (by decide +kernel)
    exact ⟨daemon, keys, hstart, hdispatch.mpr (by decide +kernel)⟩
  · obtain ⟨daemon, keys, hstart, hdispatch⟩ := hiff [["/n", "/n"]] (by decide +kernel)
    exact ⟨daemon, keys, hstart, hdispatch.not.mpr (by decide +kernel)⟩
  · obtain ⟨daemon, keys, hstart, hdispatch⟩ := hiff [["/n"], ["/n/a"]] (by decide +kernel)
    exact ⟨daemon, keys, hstart, hdispatch.not.mpr (by decide +kernel)⟩

/-- A zone option with a certificate. -/
def certifiedOption : ConfigSection :=
  .node "" [("name", .node "/n" []), ("cert", .node "default" [])]

/-- The host reads the name of the default certificate of the identity /n/NDNS. -/
def certifiedHost : DaemonHost ℕ := { nestedHost with
  readName := fun text ↦
    if text = "default" then some (certificateName (keyName (zoneIdentity [letter 110])))
    else nestedHost.readName text }

theorem start_fails_default : ∃ fault,
    make certifiedHost (.node "" [("zones", .node "" [("zone", certifiedOption)])]) 0 =
      .error fault := by
  have hlists : ListsOwn certifiedHost.services := by
    rintro identity keys certificates cert hcertificates hcert
    cases hcertificates
    rw [List.mem_singleton.mp hcert]
    exact ⟨_, _, _, List.append_assoc _ _ _⟩
  have hname : zoneOptionName certifiedHost.readName certifiedOption = some [letter 110] := by
    decide +kernel
  exact start_fails_of_cert hlists (List.mem_singleton.mpr rfl) (List.mem_singleton.mpr rfl) hname
    (List.append_assoc _ _ _)

end Examples

variable [PacketFormat]

/-- The answers of some servers, one after the other.  A server must not use a database that has
been closed. -/
def answerAll (daemon : NdnsDaemon) (interest : Interest) :
    List (ℕ × NameServer) → Prog (List (Option Data))
  | [] => pure []
  | entry :: rest =>
      if daemon.Live entry then do
        let answer ← entry.2.onInterest interest
        let answers ← answerAll daemon interest rest
        pure (answer :: answers)
      else throw .undefinedBehavior

/-- The dispatch of an Interest, which has a meaning while a database is open. -/
def onInterest (daemon : NdnsDaemon) (interest : Interest) : Prog (List (Option Data)) :=
  daemon.answerAll interest (daemon.receivers interest)

end NdnsDaemon

end Ndns.Daemon
