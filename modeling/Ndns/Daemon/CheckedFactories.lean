import Ndns.Daemon.FactoryRules
import Ndns.Daemon.LocalServices

/-!
# Checks before Generation

The five generate functions refuse to work on an object whose zone was not checked.  The check sets
its flag before the lookup that can fail, so the gate is opened by the attempt and not by its
success: it holds in the runs in which the first check of an object does not fail.

The database and the key chain may change, and fail, from call to call.
-/

namespace Ndns.Daemon

open Ndn Calls

variable {State : Type} {handle : Handler Call.Answer State}

/-! ## Calls on one object -/

/-- The parameters of the generate functions. -/
inductive RecordRequest where
  | ns (label : Name) (version : ℕ) (ttl : ℤ) (delegations : List Name)
  | txt (label : Name) (version : ℕ) (ttl : ℤ) (strings : List Blob)
  | cert (label : Name) (version : ℕ) (ttl : ℤ) (certificate : Data)
  | auth (label : Name) (version : ℕ) (ttl : ℤ)
  | doe (label : Name) (version : ℕ) (ttl : ℤ) (lowerLabel upperLabel : Name)

/-- The calls on a factory object. -/
inductive FactoryCall where
  | onlyCheckZone
  | checkZoneKey
  | generate (request : RecordRequest)

namespace RrsetFactory

variable {factory : RrsetFactory} {state : State}

/-! ## The lookups of a check -/

/-- The answer to the lookup of the zone. -/
def zoneAnswer (handle : Handler Call.Answer State) (factory : RrsetFactory) (state : State) :
    Selected ZoneRow × State :=
  handle (.sql (.selectZone factory.zone.name)) state

/-- The database answers the lookup of the zone with a row. -/
def FindsZone (handle : Handler Call.Answer State) (factory : RrsetFactory) (state : State) : Prop :=
  ∃ row rest finished, row.id ≠ 0 ∧
    (zoneAnswer handle factory state).1 = .stepped (row :: rest) finished

/-- The certificates of the identity of the zone, asked for after the zone. -/
def certAnswer (handle : Handler Call.Answer State) (factory : RrsetFactory) (state : State) :
    Option (List Data) :=
  (handle (.service (.certificates (zoneIdentity factory.zone.name)))
    (zoneAnswer handle factory state).2).1

/-- The key chain lists the certificate of the factory, if it has one. -/
def FindsCert (handle : Handler Call.Answer State) (factory : RrsetFactory) (state : State) : Prop :=
  factory.dskCertName = defaultCert ∨ ∃ certificates cert,
    certAnswer handle factory state = some certificates ∧ cert ∈ certificates ∧
      cert.name = factory.dskCertName

theorem run_findZone_answer (factory : RrsetFactory) (state : State) :
    (DbMgr.findZone factory.zone).run handle state =
      (match (zoneAnswer handle factory state).1 with
        | .prepareError => .error .dbMgrPrepareError
        | .stepped rows _ => .ok (match rows.head? with
          | some row => { factory.zone with id := row.id, ttl := int32 row.ttl }
          | none => { factory.zone with id := 0 }), (zoneAnswer handle factory state).2) := by
  have hselect : (sql (.selectZone factory.zone.name)).run handle state =
      (.ok (zoneAnswer handle factory state).1, (zoneAnswer handle factory state).2) := rfl
  rw [DbMgr.findZone, Program.run_bind, hselect]
  cases (zoneAnswer handle factory state).1 with
  | prepareError => rfl
  | stepped rows finished => cases hrow : rows.head? <;> simp [hrow]

/-- The first check of an object sets the flag, whether or not it finds the zone. -/
theorem run_onlyCheckZone_new (hnew : factory.checked = false) (state : State) :
    ∃ outcome zone, factory.onlyCheckZone.run handle state =
        (.ok (outcome, ⟨zone, factory.dskCertName, true⟩), (zoneAnswer handle factory state).2) ∧
      zone.name = factory.zone.name ∧ (outcome = .ok () ↔ FindsZone handle factory state) := by
  unfold onlyCheckZone FindsZone
  rw [if_neg (by simp [hnew]), Program.run_bind, run_attempt, run_findZone_answer]
  cases (zoneAnswer handle factory state).1 with
  | prepareError => exact ⟨_, _, rfl, rfl, by simp⟩
  | stepped rows finished =>
      cases rows with
      | nil => exact ⟨_, _, rfl, rfl, by simp⟩
      | cons row rest =>
          by_cases hid : row.id = 0
          · refine ⟨.error (.rrsetFactoryError "is not presented in the NDNS db"),
              { factory.zone with id := row.id, ttl := int32 row.ttl }, ?_, rfl, by simp [hid]⟩
            simp [hid]
          · refine ⟨.ok (), { factory.zone with id := row.id, ttl := int32 row.ttl }, ?_, rfl,
              by simp [hid]⟩
            simp [hid]

/-- A listed certificate matches. -/
theorem run_matchCertificate_listed {certName identity : Name} {certificates : List Data}
    {cert : Data} (hlisted : (handle (.service (.certificates identity)) state).1 = some certificates)
    (hmem : cert ∈ certificates) (hname : cert.name = certName) :
    (matchCertificate certName identity).run handle state =
      (.ok true, (handle (.service (.certificates identity)) state).2) := by
  obtain ⟨found, hfound⟩ : ∃ found, certificates.find? (fun cert ↦ cert.name = certName) =
      some found := by
    apply Option.isSome_iff_exists.mp
    exact List.find?_isSome.mpr ⟨cert, hmem, by simp [hname]⟩
  have hget : (CertHelper.getCertificate identity certName).run handle state =
      (.ok found, (handle (.service (.certificates identity)) state).2) := by
    have hservice : (service (.certificates identity)).run handle state =
        (.ok (handle (.service (.certificates identity)) state).1,
          (handle (.service (.certificates identity)) state).2) := rfl
    rw [CertHelper.getCertificate, Program.run_bind, hservice, hlisted]
    simp [orThrow, hfound]
  rw [matchCertificate, Program.run_bind, run_attempt, hget]
  rfl

/-- The first check of an object ends normally when the zone and the certificate are found. -/
theorem run_checkZoneKey_new (hnew : factory.checked = false)
    (hzone : FindsZone handle factory state) (hcert : FindsCert handle factory state) :
    ∃ zone state', factory.checkZoneKey.run handle state =
      (.ok (.ok (), ⟨zone, factory.dskCertName, true⟩), state') := by
  obtain ⟨outcome, zone, hrun, hname, houtcome⟩ := run_onlyCheckZone_new hnew state
  rw [houtcome.mpr hzone] at hrun
  rw [checkZoneKey, Program.run_bind, hrun]
  by_cases hdefault : factory.dskCertName = defaultCert
  · refine ⟨zone, (zoneAnswer handle factory state).2, ?_⟩
    simp [hdefault]
  · rcases hcert with hsame | ⟨certificates, cert, hlisted, hmem, hcertName⟩
    · exact absurd hsame hdefault
    · have hmatch := run_matchCertificate_listed hlisted hmem hcertName
      refine ⟨zone, (handle (.service (.certificates (zoneIdentity factory.zone.name)))
        (zoneAnswer handle factory state).2).2, ?_⟩
      simp only [if_neg hdefault, hname, Program.run_bind, run_attempt, hmatch]
      rfl

end RrsetFactory

/-! ## Generation -/

namespace RecordRequest

variable [PacketFormat]

/-- The generate function that is called. -/
def generate (factory : RrsetFactory) : RecordRequest → Prog Rrset
  | .ns label version ttl delegations => factory.generateNsRrset label version ttl delegations
  | .txt label version ttl strings => factory.generateTxtRrset label version ttl strings
  | .cert label version ttl certificate => factory.generateCertRrset label version ttl certificate
  | .auth label version ttl => factory.generateAuthRrset label version ttl
  | .doe label version ttl lowerLabel upperLabel =>
      factory.generateDoeRrset label version ttl lowerLabel upperLabel

/-- The gate of the generate functions. -/
theorem checked_of_generate {request : RecordRequest} {factory : RrsetFactory} {rrset : Rrset}
    {state state' : State} (h : (request.generate factory).Returns handle state rrset state') :
    factory.checked = true := by
  have hgate : ∀ {label : Name} {type : Component} {contentType : NdnsContentType} {version : ℕ}
      {ttl : ℤ} {content : Option Blob}, (factory.generateRrset label type contentType version ttl
        content).Returns handle state rrset state' → factory.checked = true := by
    intro label type contentType version ttl content h
    obtain ⟨_, _, hrequire, -⟩ := Program.returns_bind.mp h
    unfold require at hrequire
    split_ifs at hrequire with hchecked
    · exact hchecked
    · exact (Program.returns_throw.mp hrequire).elim
  cases request <;> exact hgate h

end RecordRequest

/-! ## Runs -/

/-- A call with the object, the state of the environment, and the outcome: a generate function
returns a record, a check returns nothing. -/
structure FactoryEvent (State : Type) where
  factory : RrsetFactory
  state : State
  call : FactoryCall
  outcome : Except Fault (Option Rrset)

namespace FactoryEvent

/-- A check that returned normally. -/
def Passes (event : FactoryEvent State) : Prop :=
  (event.call = .onlyCheckZone ∨ event.call = .checkZoneKey) ∧ event.outcome = .ok none

/-- A generate function that returned a record. -/
def Generates (event : FactoryEvent State) : Prop := ∃ rrset, event.outcome = .ok (some rrset)

/-- A check of an object that was not checked before finds what it looks for. -/
def Sound (handle : Handler Call.Answer State) (event : FactoryEvent State) : Prop :=
  event.factory.checked = false →
    match event.call with
    | .onlyCheckZone => event.factory.FindsZone handle event.state
    | .checkZoneKey => event.factory.FindsZone handle event.state ∧
        event.factory.FindsCert handle event.state
    | .generate _ => True

end FactoryEvent

/-- In a sequence of calls, the last one first, a record is generated only after a check that
returned normally, and so does a check of a zone that the database does not answer with. -/
def Gated (handle : Handler Call.Answer State) : List (FactoryEvent State) → Prop
  | [] => True
  | event :: earlier =>
      (event.Generates → ∃ check ∈ earlier, check.Passes) ∧
      (event.Passes → ¬ event.factory.FindsZone handle event.state →
        ∃ check ∈ earlier, check.Passes) ∧
      Gated handle earlier

section Runs

variable [PacketFormat]

/-- The call of an event: the checks change the object also when they throw, and the generate
functions leave it alone. -/
def FactoryCall.perform (factory : RrsetFactory) :
    FactoryCall → Prog (Except Fault (Option Rrset) × RrsetFactory)
  | .onlyCheckZone => do
      let (outcome, factory) ← factory.onlyCheckZone
      pure (outcome.map fun _ ↦ none, factory)
  | .checkZoneKey => do
      let (outcome, factory) ← factory.checkZoneKey
      pure (outcome.map fun _ ↦ none, factory)
  | .generate request => do
      let outcome ← attempt (request.generate factory)
      pure (outcome.map some, factory)

/-- Calls on one object after another.  What happens to the environment between two calls is not
restricted. -/
inductive FactoryRun (handle : Handler Call.Answer State) (first : RrsetFactory) :
    List (FactoryEvent State) → RrsetFactory → Prop
  | start : FactoryRun handle first [] first
  | call {earlier : List (FactoryEvent State)} {factory factory' : RrsetFactory}
      {state state' : State} {call : FactoryCall} {outcome : Except Fault (Option Rrset)} :
      FactoryRun handle first earlier factory →
        (call.perform factory).Returns handle state (outcome, factory') state' →
          FactoryRun handle first (⟨factory, state, call, outcome⟩ :: earlier) factory'

namespace FactoryCall

variable {factory factory' : RrsetFactory} {state state' : State}
  {outcome : Except Fault (Option Rrset)}

/-- A generate function. -/
theorem returns_generate {request : RecordRequest}
    (h : ((FactoryCall.generate request).perform factory).Returns handle state (outcome, factory')
      state') :
    factory' = factory ∧ ∀ rrset, outcome = .ok (some rrset) → factory.checked = true := by
  obtain ⟨generated, _, hgenerate, h⟩ := Program.returns_bind.mp h
  obtain ⟨hpair, -⟩ := Program.returns_pure.mp h
  cases hpair
  refine ⟨rfl, fun rrset hrrset ↦ ?_⟩
  rw [Program.Returns, run_attempt] at hgenerate
  cases hrun : ((request.generate factory).run handle state).1 with
  | error fault =>
      rw [hrun] at hgenerate
      cases hgenerate
      cases hrrset
  | ok made =>
      exact RecordRequest.checked_of_generate (Prod.ext hrun rfl)

/-- A check returns no record. -/
theorem returns_check {call : FactoryCall} (hcall : call = .onlyCheckZone ∨ call = .checkZoneKey)
    (h : (call.perform factory).Returns handle state (outcome, factory') state') (rrset : Rrset) :
    outcome ≠ .ok (some rrset) := by
  have hmap : ∀ checked : Except Fault Unit,
      (checked.map fun _ ↦ (none : Option Rrset)) ≠ .ok (some rrset) := by
    intro checked
    cases checked <;> simp [Except.map]
  rcases hcall with rfl | rfl
  all_goals
    obtain ⟨⟨checked, _⟩, _, -, h⟩ := Program.returns_bind.mp h
    obtain ⟨hpair, -⟩ := Program.returns_pure.mp h
    cases hpair
    exact hmap checked

/-- A check that finds what it looks for. -/
theorem returns_check_new {call : FactoryCall}
    (hcall : call = .onlyCheckZone ∨ call = .checkZoneKey) (hnew : factory.checked = false)
    (hsound : FactoryEvent.Sound handle ⟨factory, state, call, outcome⟩)
    (h : (call.perform factory).Returns handle state (outcome, factory') state') :
    outcome = .ok none := by
  rcases hcall with rfl | rfl
  · have hzone : factory.FindsZone handle state := hsound hnew
    obtain ⟨checked, zone, hrun, -, hchecked⟩ := RrsetFactory.run_onlyCheckZone_new hnew state
    rw [hchecked.mpr hzone] at hrun
    rw [FactoryCall.perform, Program.Returns, Program.run_bind, hrun] at h
    cases h
    rfl
  · have hfinds : factory.FindsZone handle state ∧ factory.FindsCert handle state := hsound hnew
    obtain ⟨zone, state'', hrun⟩ := RrsetFactory.run_checkZoneKey_new hnew hfinds.1 hfinds.2
    rw [FactoryCall.perform, Program.Returns, Program.run_bind, hrun] at h
    cases h
    rfl

end FactoryCall

/-- As long as the first checks find what they look for, the flag tells of a check that returned
normally, and the gate holds. -/
theorem gated_of_sound {first factory : RrsetFactory} {events : List (FactoryEvent State)}
    (hnew : first.checked = false) (hrun : FactoryRun handle first events factory)
    (hsound : ∀ event ∈ events, event.Sound handle) :
    Gated handle events ∧ (factory.checked = true → ∃ check ∈ events, check.Passes) := by
  induction hrun with
  | start => exact ⟨trivial, fun hchecked ↦ absurd (hnew.symm.trans hchecked) (by decide)⟩
  | @call earlier before after state state' call outcome _ hcall ih =>
      obtain ⟨hgated, hflag⟩ := ih fun event hevent ↦ hsound event (List.mem_cons_of_mem _ hevent)
      have hearlier : before.checked = true → ∃ check ∈ (⟨before, state, call, outcome⟩ ::
          earlier : List (FactoryEvent State)), check.Passes := fun hchecked ↦ by
        obtain ⟨check, hmem, hpasses⟩ := hflag hchecked
        exact ⟨check, List.mem_cons_of_mem _ hmem, hpasses⟩
      by_cases hcheck : call = .onlyCheckZone ∨ call = .checkZoneKey
      · have hpasses : before.checked = false → outcome = .ok none := fun hfalse ↦
          FactoryCall.returns_check_new hcheck hfalse (hsound _ List.mem_cons_self) hcall
        refine ⟨⟨?_, ?_, hgated⟩, fun _ ↦ ?_⟩
        · rintro ⟨rrset, hrrset⟩
          exact absurd hrrset (FactoryCall.returns_check hcheck hcall rrset)
        · intro _ hmissing
          cases hchecked : before.checked with
          | true => exact hflag hchecked
          | false =>
              have hfinds := hsound _ List.mem_cons_self hchecked
              rcases hcheck with rfl | rfl
              · exact absurd hfinds hmissing
              · exact absurd hfinds.1 hmissing
        · cases hchecked : before.checked with
          | true => exact hearlier hchecked
          | false => exact ⟨_, List.mem_cons_self, hcheck, hpasses hchecked⟩
      · obtain ⟨request, rfl⟩ : ∃ request, call = .generate request := by
          cases call with
          | generate request => exact ⟨request, rfl⟩
          | onlyCheckZone => exact absurd (Or.inl rfl) hcheck
          | checkZoneKey => exact absurd (Or.inr rfl) hcheck
        obtain ⟨rfl, hgate⟩ := FactoryCall.returns_generate hcall
        refine ⟨⟨?_, fun hpasses ↦ absurd hpasses.1 hcheck, hgated⟩, hearlier⟩
        rintro ⟨rrset, hrrset⟩
        exact hflag (hgate rrset hrrset)

end Runs

section Examples

open LocalServices

attribute [local instance] ndnPacketFormat

/-- A factory for the zone /n. -/
def netFactory : RrsetFactory := ⟨Zone.named [letter 110], [letter 110], false⟩

/-- The outcome of a call, and the object after it. -/
def performed (db : Database) (factory : RrsetFactory) (call : FactoryCall) :
    Except Fault (Option Rrset) × RrsetFactory :=
  match ((call.perform factory).run (World.handle localServices) ⟨db, 0⟩).1 with
  | .ok result => result
  | .error fault => (.error fault, factory)

/-- A database with the zone /n. -/
def netOnly : Database := ⟨[⟨1, [letter 110], 3600⟩], [], []⟩

/-- A call with the database of the moment. -/
def eventOf (db : Database) (factory : RrsetFactory) (call : FactoryCall) :
    FactoryEvent (World ℕ) :=
  ⟨factory, ⟨db, 0⟩, call, (performed db factory call).1⟩

theorem FactoryRun.perform {first factory : RrsetFactory} {earlier : List (FactoryEvent (World ℕ))}
    {call : FactoryCall} (h : FactoryRun (World.handle localServices) first earlier factory)
    (db : Database)
    (hends : ((call.perform factory).run (World.handle localServices) ⟨db, 0⟩).1.isOk = true) :
    FactoryRun (World.handle localServices) first (eventOf db factory call :: earlier)
      (performed db factory call).2 := by
  unfold eventOf performed
  cases hrun : (call.perform factory).run (World.handle localServices) ⟨db, 0⟩ with
  | mk outcome world =>
      rw [hrun] at hends
      cases outcome with
      | error fault => cases hends
      | ok result => exact .call h hrun

/-- The object after the check of the zone. -/
def checkedFactory : RrsetFactory := (performed netOnly netFactory .onlyCheckZone).2

/-- A check, a generated record, and a check that returns although the zone is no longer there. -/
def netEvents : List (FactoryEvent (World ℕ)) :=
  [eventOf Database.empty checkedFactory .onlyCheckZone,
    eventOf netOnly checkedFactory (.generate (.auth [] 1 0)),
    eventOf netOnly netFactory .onlyCheckZone]

theorem netEvents_run : FactoryRun (World.handle localServices) netFactory netEvents
    (performed Database.empty checkedFactory .onlyCheckZone).2 := by
  have hcheck : FactoryRun (World.handle localServices) netFactory
      [eventOf netOnly netFactory .onlyCheckZone] checkedFactory :=
    FactoryRun.start.perform netOnly (by decide +kernel)
  have hgenerate := hcheck.perform netOnly
    (by decide +kernel : (((FactoryCall.generate (.auth [] 1 0)).perform checkedFactory).run
      (World.handle localServices) ⟨netOnly, 0⟩).1.isOk = true)
  rw [show (performed netOnly checkedFactory (.generate (.auth [] 1 0))).2 = checkedFactory from rfl]
    at hgenerate
  exact hgenerate.perform Database.empty (by decide +kernel)

theorem gated_of_sound_net :
    netEvents.map (fun event ↦ event.outcome.map fun record ↦ record.isSome) =
        [.ok false, .ok true, .ok false] ∧
      Gated (World.handle localServices) netEvents := by
  refine ⟨by decide +kernel, (gated_of_sound rfl netEvents_run fun event hevent ↦ ?_).1⟩
  simp only [netEvents, List.mem_cons, List.not_mem_nil, or_false] at hevent
  rcases hevent with rfl | rfl | rfl
  · exact fun hnew ↦ absurd hnew (by decide +kernel)
  · exact fun _ ↦ trivial
  · exact fun _ ↦ ⟨⟨1, [letter 110], 3600⟩, [], true, by decide, rfl⟩

/-- The object after a check of the zone in the empty database. -/
def uncheckedFactory : RrsetFactory := (performed Database.empty netFactory .onlyCheckZone).2

/-- The check throws.  Then a record is generated, which is assigned to a zone without an id, and
the check of the zone, which is still missing, returns. -/
theorem gate_opened_by_failure :
    ∃ first generation second : FactoryEvent (World ℕ),
      FactoryRun (World.handle localServices) netFactory [generation, first] uncheckedFactory ∧
        ¬ Gated (World.handle localServices) [generation, first] ∧
        (generation.outcome.map fun record ↦ record.map fun rrset ↦ rrset.zone.map Zone.id) =
          .ok (some (some 0)) ∧
      FactoryRun (World.handle localServices) netFactory [second, first] uncheckedFactory ∧
        ¬ Gated (World.handle localServices) [second, first] := by
  have hfirst : FactoryRun (World.handle localServices) netFactory
      [⟨netFactory, ⟨Database.empty, 0⟩, .onlyCheckZone,
        (performed Database.empty netFactory .onlyCheckZone).1⟩] uncheckedFactory :=
    .call .start (Prod.ext (by decide +kernel) rfl)
  have hfails : ∀ check ∈ ([⟨netFactory, ⟨Database.empty, 0⟩, .onlyCheckZone,
      (performed Database.empty netFactory .onlyCheckZone).1⟩] : List (FactoryEvent (World ℕ))),
      ¬ check.Passes := by
    rintro check hcheck ⟨-, hok⟩
    rw [List.mem_singleton.mp hcheck] at hok
    exact absurd hok (by decide +kernel)
  refine ⟨⟨netFactory, ⟨Database.empty, 0⟩, .onlyCheckZone,
      (performed Database.empty netFactory .onlyCheckZone).1⟩,
    ⟨uncheckedFactory, ⟨Database.empty, 0⟩, .generate (.auth [] 1 0),
      (performed Database.empty uncheckedFactory (.generate (.auth [] 1 0))).1⟩,
    ⟨uncheckedFactory, ⟨Database.empty, 0⟩, .onlyCheckZone,
      (performed Database.empty uncheckedFactory .onlyCheckZone).1⟩,
    .call hfirst (Prod.ext (by decide +kernel) rfl), ?_, by decide +kernel,
    .call hfirst (Prod.ext (by decide +kernel) rfl), ?_⟩
  · rintro ⟨hgenerates, -⟩
    have hsome : ∀ outcome : Except Fault (Option Rrset), outcome.toOption.join.isSome →
        ∃ rrset, outcome = .ok (some rrset) := by
      rintro (_ | _ | rrset) hrecord
      · cases hrecord
      · cases hrecord
      · exact ⟨rrset, rfl⟩
    obtain ⟨check, hmem, hcheck⟩ := hgenerates (hsome _ (by decide +kernel))
    exact hfails check hmem hcheck
  · rintro ⟨-, hpasses, -⟩
    obtain ⟨check, hmem, hcheck⟩ := hpasses ⟨Or.inl rfl, by decide +kernel⟩ (by
      rintro ⟨row, rest, finished, -, hanswer⟩
      cases hanswer)
    exact hfails check hmem hcheck

end Examples

end Ndns.Daemon
