import Ndns.Mgmt.LoopBounds
import Ndns.Mgmt.ZoneFrames

/-!
# What a Failed Operation Leaves

No operation of the management tool is a transaction.  Its checks come first, so a refused record
leaves no trace, except that `addMultiLevelLabelRrset` looks at the stored version after it has
created AUTH records.  Any later exception leaves what was written before it: the older version is
gone, the new one is there or not, and the chain is a first part of what it should be.
-/

namespace Ndns.Daemon

open Ndn Calls

/-! ## Faults of a conflict -/

/-- The record would override an AUTH record or a delegation. -/
def Fault.IsOverride : Fault → Prop
  | .managementToolError text _ =>
      text = "Can not add this Rrset: it overrides a NDNS_AUTH record" ∨
        text = "Cannot override (NDNS_LINK)" ∨ text = "Cannot override (NDNS_AUTH)"
  | _ => False

/-- The record is there in the same or in a newer version. -/
def Fault.IsVersionConflict : Fault → Prop
  | .managementToolError text _ => text = "Duplicate" ∨ text = "Newer version exists"
  | _ => False

/-- The faults of a regeneration: those of the lower layers, a zone that is missing, and a zone
without records. -/
def Fault.OfRegeneration : Fault → Prop
  | .managementToolError text _ => text = "is not present in the NDNS db"
  | .nonTermination => False
  | _ => True

/-- However its calls are answered, the program throws faults of a kind only. -/
def Throws {Value : Type} (kind : Fault → Prop) (program : Prog Value) : Prop :=
  program.Ends fun outcome ↦ ∀ fault, outcome = .error fault → kind fault

section Throws

variable {Value Result : Type} {kind kind' : Fault → Prop} {program : Prog Value}

theorem throws_pure (value : Value) : Throws kind (pure value) := fun _ h ↦ nomatch h

theorem Throws.mono (h : Throws kind program) (hkind : ∀ fault, kind fault → kind' fault) :
    Throws kind' program :=
  h.weaken fun _ hthrows fault hfault ↦ hkind fault (hthrows fault hfault)

theorem Throws.bind {rest : Value → Prog Result} (h : Throws kind program)
    (hrest : ∀ value, Throws kind (rest value)) : Throws kind (program >>= rest) :=
  Program.Ends.bind h (fun value _ ↦ hrest value) fun fault hthrows _ hother ↦
    Except.error.inj hother ▸ hthrows fault rfl

theorem eq_error_of_map {outcome : Except Fault Value} {result : Value → Result} {fault : Fault}
    (h : outcome.map result = .error fault) : outcome = .error fault := by
  cases outcome with
  | ok value => cases h
  | error other => exact congrArg Except.error (Except.error.inj h)

theorem throws_throw {fault : Fault} (h : kind fault) : Throws kind (throw fault : Prog Value) :=
  fun _ hfault ↦ Except.error.inj hfault ▸ h

theorem throws_require {condition : Prop} [Decidable condition] {fault : Fault} (h : kind fault) :
    Throws kind (require condition fault) := by
  unfold require
  split_ifs
  · exact throws_pure ()
  · exact throws_throw h

end Throws

theorem Fault.Lower.ofRegeneration {fault : Fault} (h : fault.Lower) : fault.OfRegeneration := by
  cases fault with
  | managementToolError text subject => exact h.elim
  | nonTermination => exact h.elim
  | _ => trivial

/-- None of them says that a record is in the way. -/
theorem Fault.OfRegeneration.no_conflict {fault : Fault} (h : fault.OfRegeneration) :
    ¬ fault.IsOverride ∧ ¬ fault.IsVersionConflict := by
  cases fault with
  | managementToolError text subject =>
      obtain rfl : text = "is not present in the NDNS db" := h
      simp [Fault.IsOverride, Fault.IsVersionConflict]
  | _ => exact ⟨id, id⟩

theorem ThrowsLower.ofRegeneration {Value : Type} {program : Prog Value}
    (h : ThrowsLower program) : Throws Fault.OfRegeneration program :=
  Throws.mono h fun _ hlower ↦ hlower.ofRegeneration

end Ndns.Daemon

namespace Ndns.Daemon.DbMgr

open Ndn

theorem Cleared.shareZone {db cleared : Database} {zoneId : ℕ} {rrset : Rrset}
    {other : Option Zone} (h : Cleared db zoneId { rrset with zone := other } cleared) :
    Cleared db zoneId rrset cleared := by
  cases h with
  | absent hrow => exact .absent hrow
  | older hid hrow hversion => exact .older hid hrow hversion

end Ndns.Daemon.DbMgr

namespace Ndns.Mgmt.ManagementTool

open Ndn Calls Daemon DbMgr

section Faults

variable {Value : Type} {program : Prog Value}

theorem throws_of_lower (h : ThrowsLower program) :
    Throws (fun fault ↦ ¬ fault.IsOverride ∧ ¬ fault.IsVersionConflict) program :=
  h.ofRegeneration.mono fun _ hfault ↦ hfault.no_conflict

/-- The version check and the insertion have nothing to say about overriding. -/
theorem throws_checkRrsetVersion (rrset : Rrset) :
    Throws (fun fault ↦ ¬ fault.IsOverride) (checkRrsetVersion rrset) := by
  refine ((throws_of_lower (throwsLower_findRrset rrset)).mono fun _ h ↦ h.1).bind fun found ↦ ?_
  dsimp only
  split_ifs
  · refine (throws_require ?_).bind fun _ ↦ (throws_require ?_).bind fun _ ↦ ?_
    · simp [Fault.IsOverride]
    · simp [Fault.IsOverride]
    · exact ((throws_of_lower (throwsLower_removeRrset _)).mono fun _ h ↦ h.1).bind fun _ ↦
        throws_pure _
  · exact throws_pure _

variable [PacketFormat]

theorem throws_generateDoe (zone : Zone) : Throws Fault.OfRegeneration (generateDoe zone) := by
  refine (throwsLower_findZone zone).ofRegeneration.bind fun found ↦ (throws_require ?_).bind
    fun _ ↦ (throwsLower_removeRrsetsOfZoneByType _ _).ofRegeneration.bind fun _ ↦
      (throwsLower_findRrsets _).ofRegeneration.bind fun allRecords ↦
        (RrsetFactory.throwsLower_make _ _).ofRegeneration.bind fun factory ↦ ?_
  · exact rfl
  · refine Program.Ends.bind (RrsetFactory.ends_checkZoneKey factory) (fun outcome hlower ↦ ?_)
      fun fault hlower other hother ↦ ?_
    · rcases outcome with ⟨fault | _, checked⟩
      · exact throws_throw (hlower fault (Or.inr ⟨_, rfl⟩)).ofRegeneration
      · generalize (allRecords.insertionSort fun left right ↦ rrsetKey left ≤ rrsetKey right) = sorted
        have hchain : Throws Fault.OfRegeneration (insertChain checked sorted) := by
          cases sorted with
          | nil => exact throws_throw trivial
          | cons first rest =>
              exact (throwsLower_insertChain _ (List.cons_ne_nil _ _)).ofRegeneration
        exact hchain.bind fun _ ↦ throws_pure _
    · cases hother
      exact (hlower fault (Or.inl rfl)).ofRegeneration

theorem throws_store (rrset : Rrset) : Throws (fun fault ↦ ¬ fault.IsOverride) (store rrset) := by
  refine (throws_checkRrsetVersion rrset).bind fun checked ↦
    ((throws_of_lower (throwsLower_insertRrset checked)).mono fun _ h ↦ h.1).bind fun inserted ↦ ?_
  cases inserted.zone with
  | none => exact throws_throw id
  | some zone =>
      exact ((throws_generateDoe zone).mono fun _ h ↦ h.no_conflict.1).bind fun _ ↦ throws_pure ()

/-- The faults of the AUTH records come from their signatures and their insertion. -/
theorem throws_createAuth (factory : RrsetFactory) (authTtl : ℤ) (rrset : Rrset)
    (prefixes : List Name) :
    Throws (fun fault ↦ ¬ fault.IsOverride ∧ ¬ fault.IsVersionConflict)
      (createAuth factory authTtl rrset prefixes) := by
  induction prefixes generalizing factory rrset with
  | nil => exact throws_pure _
  | cons labelPrefix rest ih =>
      refine (throws_of_lower (throwsLower_findRrset _)).bind fun found ↦ ?_
      dsimp only
      split_ifs
      · exact ih _ _
      · exact (throws_of_lower (RrsetFactory.throwsLower_generateRrset _ _ _ _ _ _ _)).bind
          fun auth ↦ (throws_of_lower (throwsLower_insertRrset auth)).bind fun _ ↦ ih _ _

end Faults

/-! ## Storing a record -/

variable {Keys : Type} {services : Services Keys} {db : Database} {rrset : Rrset} {zone : Zone}

/-- What is known of the tables when the program throws. -/
def Fails {Value : Type} (services : Services Keys) (program : Prog Value) (db : Database)
    (leaves : Fault → Database → Prop) : Prop :=
  Meets services AnyChange program db fun outcome db' ↦
    ∀ fault, outcome = .error fault → leaves fault db'

theorem Fails.discard {Value Result : Type} {program : Prog Value}
    {leaves : Fault → Database → Prop} (h : Fails services program db leaves)
    (result : Value → Result) :
    Fails services (program >>= fun value ↦ pure (result value)) db leaves := by
  refine Meets.bind h (fun _ _ _ ↦ meets_pure nofun) fun fault db' hleaves other hother ↦ ?_
  cases hother
  exact hleaves fault rfl

theorem Fails.of_meets {Value : Type} {program : Prog Value} {post : Database → Prop}
    (h : Meets services AnyChange program db fun _ db' ↦ post db') :
    Fails services program db fun _ db' ↦ post db' :=
  Meets.weaken h fun _ _ hend _ _ ↦ hend

theorem Fails.run {Value : Type} {program : Prog Value} {leaves : Fault → Database → Prop}
    {fault : Fault} {keys keys' : Keys} {db' : Database} (h : Fails services program db leaves)
    (hrun : program.run (World.handle services) ⟨db, keys⟩ = (.error fault, ⟨db', keys'⟩)) :
    leaves fault db' := by
  have hend := Meets.run h keys
  rw [hrun] at hend
  exact hend fault rfl

variable [PacketFormat]

/-- How far storing a record has come: nothing is written, an older version is removed and the zone
may be inserted, or the record is in the tables and the chain is being rebuilt.  A record object
that has an id is not inserted. -/
inductive Unfinished (db : Database) (zone : Zone) (rrset : Rrset) : Database → Prop
  | untouched : Unfinished db zone rrset db
  | refused {cleared opened : Database} {stored : Zone} (hnew : rrset.id = 0)
      (hcleared : Cleared db zone.id rrset cleared) (hopens : Opens cleared zone stored opened)
      (hindex : ∃ row ∈ opened.rrsets,
        row.indexKey = (stored.id, rrset.label, rrset.type, rrset.version)) :
      Unfinished db zone rrset opened
  | inserted {cleared opened db' : Database} {stored : Zone} (hnew : rrset.id = 0)
      (hcleared : Cleared db zone.id rrset cleared) (hopens : Opens cleared zone stored opened)
      (hrebuilding : Rebuilding stored.name (lookupZone opened stored).id (opened.insertRrset stored.id rrset.label
        rrset.type rrset.version rrset.ttl rrset.data) db') : Unfinished db zone rrset db'
  | kept {cleared db' : Database} (hknown : rrset.id ≠ 0)
      (hcleared : Cleared db zone.id rrset cleared)
      (hrebuilding : Rebuilding zone.name (lookupZone cleared zone).id cleared db') : Unfinished db zone rrset db'

/-- The zone object of the record is of no matter once the zone is known. -/
theorem Unfinished.shareZone {other : Option Zone} {db' : Database}
    (h : Unfinished db zone { rrset with zone := other } db') : Unfinished db zone rrset db' := by
  cases h with
  | untouched => exact .untouched
  | refused hnew hcleared hopens hindex => exact .refused hnew hcleared.shareZone hopens hindex
  | inserted hnew hcleared hopens hrebuilding =>
      exact .inserted hnew hcleared.shareZone hopens hrebuilding
  | kept hknown hcleared hrebuilding => exact .kept hknown hcleared.shareZone hrebuilding

/-- An exception of a regeneration says nothing about a conflict. -/
theorem fails_generateDoe (zone : Zone) (db : Database) :
    Fails services (generateDoe zone) db fun fault db' ↦
      Rebuilding zone.name (lookupZone db zone).id db db' ∧ ¬ fault.IsVersionConflict :=
  ((tryMeets_generateDoe fun _ _ _ _ ↦ trivial).and_ends (throws_generateDoe zone)).weaken
    fun _ _ hend fault hfault ↦ ⟨hend.1.rebuilding, (hend.2 fault hfault).no_conflict.2⟩

/-- Storing a record that fails is unfinished, and has written nothing if the stored version is in
the way. -/
theorem fails_store (hvalid : db.Valid) (hzone : rrset.zone = some zone) :
    Fails services (store rrset) db fun fault db' ↦
      ¬ fault.IsOverride ∧ Unfinished db (resolveZone db zone) rrset db' ∧
        (fault.IsVersionConflict → db' = db) := by
  have hstore : Fails services (store rrset) db fun fault db' ↦
      Unfinished db (resolveZone db zone) rrset db' ∧ (fault.IsVersionConflict → db' = db) := by
    refine tryMeets_store hvalid hzone ?_
    constructor
    · exact fun _ _ _ ↦ ⟨.untouched, fun _ ↦ rfl⟩
    · exact fun _ _ _ _ ↦ trivial
    · intro hknown cleared hcleared
      refine (fails_generateDoe _ cleared).weaken fun outcome db' hend fault hfault ↦ ?_
      obtain ⟨hrebuilding, hnone⟩ := hend fault (eq_error_of_map hfault)
      exact ⟨.kept hknown hcleared hrebuilding, fun h ↦ absurd h hnone⟩
    · exact fun _ _ _ _ _ ↦ trivial
    · intro hnew cleared stored db' hcleared hopens hindex fault hfault
      cases hfault
      exact ⟨.refused hnew hcleared hopens hindex, fun h ↦ h.elim⟩
    · intro hnew cleared stored db' hcleared hopens _
      refine ⟨trivial, (fails_generateDoe _ _).weaken fun outcome db'' hend fault hfault ↦ ?_⟩
      obtain ⟨hrebuilding, hnone⟩ := hend fault (eq_error_of_map hfault)
      exact ⟨.inserted hnew hcleared hopens hrebuilding, fun h ↦ absurd h hnone⟩
  exact (hstore.and_ends (throws_store rrset)).weaken
    fun _ _ hend fault hfault ↦ ⟨hend.2 fault hfault, hend.1 fault hfault⟩

theorem fails_addRrset (hvalid : db.Valid) (hzone : rrset.zone = some zone) :
    Fails services (addRrset rrset) db fun fault db' ↦
      (fault.IsOverride ∨ fault.IsVersionConflict → db' = db) ∧
        Unfinished db (resolveZone db zone) rrset db' := by
  refine meets_addRrset hzone (fun _ _ _ ↦ ⟨fun _ ↦ rfl, .untouched⟩) fun _ ↦ ?_
  have hstore := @fails_store _ services db { rrset with zone := some (resolveZone db zone) } _ _
    hvalid rfl
  rw [resolveZone_resolveZone] at hstore
  refine hstore.weaken fun _ db' hend fault hfault ↦ ?_
  obtain ⟨hnone, hunfinished, hsame⟩ := hend fault hfault
  exact ⟨fun h ↦ hsame (h.resolve_left hnone), hunfinished.shareZone⟩

/-! ## AUTH records -/

/-- The tables have gained the zone of the object at most, and AUTH records at proper prefixes of a
label. -/
structure GainsAuths (zone : Zone) (label : Name) (db db' : Database) : Prop where
  zones : db'.zones = db.zones ∨ ((∀ row ∈ db.zones, row.name ≠ zone.name) ∧
    ∃ ttl, db'.zones = (db.insertZone zone.name ttl).zones)
  info : db'.zoneInfo = db.zoneInfo
  rows : ∃ created, db'.rrsets = db.rrsets ++ created ∧ ∀ row ∈ created,
    row.zoneId = homeId db zone ∧ row.type = Label.nsRrType ∧ row.label ∈ properPrefixes label ∧
      RrsetFactory.Carries row.data
        (Label.recordName zone.name row.label Label.nsRrType ++ [row.version]) .auth []

section Auths

variable {label : Name} {db' db'' : Database}

theorem GainsAuths.refl (zone : Zone) (label : Name) (db : Database) :
    GainsAuths zone label db db :=
  ⟨Or.inl rfl, rfl, [], (List.append_nil _).symm, by simp⟩

theorem GainsAuths.houses {zoneId : ℕ} (h : GainsAuths zone label db db')
    (hhouses : Houses db' zone zoneId db'') : GainsAuths zone label db db'' := by
  rcases hhouses with ⟨-, -, rfl⟩ | ⟨-, hnames, -, ttl, rfl⟩
  · exact h
  · refine ⟨Or.inr ?_, h.info, h.rows⟩
    rcases h.zones with hsame | ⟨-, other, hzones⟩
    · rw [hsame] at hnames
      exact ⟨hnames, ttl, by rw [Database.insertZone, Database.insertZone, hsame]⟩
    · have hmem : ⟨nextRowId (db.zones.map ZoneRow.id), zone.name, other⟩ ∈ db'.zones := by
        rw [hzones]
        exact List.mem_append_right _ List.mem_cons_self
      exact absurd rfl (hnames _ hmem)

theorem GainsAuths.insertRrset {labelPrefix : Name} {version : Component} {data : Block}
    (h : GainsAuths zone label db db') (hmember : labelPrefix ∈ properPrefixes label)
    (hcarries : RrsetFactory.Carries data
      (Label.recordName zone.name labelPrefix Label.nsRrType ++ [version]) .auth []) (ttl : ℤ) :
    GainsAuths zone label db
      (db'.insertRrset (homeId db zone) labelPrefix Label.nsRrType version ttl data) := by
  obtain ⟨created, hrows, hcreated⟩ := h.rows
  refine ⟨h.zones, h.info, created ++ [⟨nextRowId (db'.rrsets.map RrsetRow.id), homeId db zone,
    labelPrefix, Label.nsRrType, version, ttl, data⟩], ?_, fun row hrow ↦ ?_⟩
  · rw [← List.append_assoc, ← hrows]
    rfl
  · rcases List.mem_append.mp hrow with hold | hnew
    · exact hcreated row hold
    · rw [List.mem_singleton.mp hnew]
      exact ⟨rfl, rfl, hmember, hcarries⟩

/-- What is known while AUTH records are created. -/
structure Granting (zone : Zone) (label : Name) (initial : Database) (remaining : List Name)
    (db : Database) : Prop where
  valid : db.Valid
  gains : GainsAuths zone label initial db
  home : homeId db zone = homeId initial zone
  prefixes : ∀ labelPrefix ∈ remaining, labelPrefix ∈ properPrefixes label

theorem Granting.houses {initial : Database} {remaining : List Name} {zoneId : ℕ}
    (h : Granting zone label initial remaining db) (hhouses : Houses db zone zoneId db') :
    Granting zone label initial remaining db' ∧ zoneId = homeId initial zone := by
  obtain ⟨hid, hhome⟩ := hhouses.homeId_eq
  exact ⟨⟨hhouses.valid h.valid, h.gains.houses hhouses, hhome.trans h.home, h.prefixes⟩,
    hid.trans h.home⟩

theorem fails_addMultiLevelLabelRrset {factory : RrsetFactory} {authTtl : ℤ} (hvalid : db.Valid)
    (hzone : rrset.zone = some zone) (hsame : SameZone db zone factory.zone) :
    Fails services (addMultiLevelLabelRrset rrset factory authTtl) db fun fault db' ↦
      ∃ prepared zone', GainsAuths zone rrset.label db prepared ∧ Tracks prepared zone zone' ∧
        (fault.IsVersionConflict → db' = prepared) ∧
        Unfinished prepared (resolveZone prepared zone') rrset db' := by
  have htracks : Tracks db zone zone := ⟨SameZone.refl db zone, fun _ ↦ rfl⟩
  refine meets_addMultiLevelLabelRrset hvalid hzone (fun _ _ _ ↦ ⟨db, zone,
    GainsAuths.refl _ _ _, htracks, fun _ ↦ rfl, .untouched⟩) fun zone' htracks' _ _ ↦ ?_
  have hcreate := @tryMeets_createAuth _ services AnyChange db { rrset with zone := some zone' }
    zone _ (Granting zone rrset.label db) factory authTtl (properPrefixes rrset.label)
    (fun _ _ hinv ↦ hinv.valid)
    (fun _ _ _ _ hinv _ _ ↦ ⟨hinv.valid, hinv.gains, hinv.home,
      fun other hother ↦ hinv.prefixes other (List.mem_cons_of_mem _ hother)⟩)
    (fun _ _ _ _ _ _ _ _ _ _ _ ↦ trivial)
    (fun _ _ _ _ _ _ hinv hhouses _ _ ↦ ⟨_, (hinv.houses hhouses).1⟩) ?_ zone' rfl htracks' hsame
    ⟨hvalid, GainsAuths.refl _ _ _, rfl, fun _ h ↦ h⟩
  · refine hcreate.bind ?_ ?_
    · rintro result prepared ⟨hinv, zone'', rfl, htracks''⟩
      refine (fails_store hinv.valid rfl).weaken fun _ db' hend fault hfault ↦ ?_
      obtain ⟨-, hunfinished, hprepared⟩ := hend fault hfault
      exact ⟨prepared, zone'', hinv.gains, htracks'', hprepared,
        hunfinished.shareZone.shareZone⟩
    · rintro fault prepared ⟨remaining, hinv⟩ - -
      exact ⟨prepared, zone, hinv.gains, ⟨SameZone.refl _ _, fun _ ↦ rfl⟩, fun _ ↦ rfl, .untouched⟩
  · intro labelPrefix rest db₁ zoneId db₂ version ttl data hinv hhouses hfree _ hcarries
    obtain ⟨hinv', rfl⟩ := hinv.houses hhouses
    refine ⟨trivial, hinv'.valid.insertRrset ttl data hfree,
      hinv'.gains.insertRrset (hinv.prefixes _ List.mem_cons_self) hcarries ttl,
      (homeId_congr rfl zone).trans hinv'.home,
      fun other hother ↦ hinv.prefixes other (List.mem_cons_of_mem _ hother)⟩

end Auths

/-- A record that would override another one is refused before anything is written. -/
theorem fails_override {factory : RrsetFactory} {authTtl : ℤ} (hvalid : db.Valid)
    (hzone : rrset.zone = some zone) :
    Fails services (addMultiLevelLabelRrset rrset factory authTtl) db fun fault db' ↦
      fault.IsOverride → db' = db := by
  refine meets_addMultiLevelLabelRrset hvalid hzone (fun _ _ _ _ ↦ rfl) fun zone' _ _ _ keys ↦ ?_
  have hthrows : Throws (fun fault ↦ ¬ fault.IsOverride) (createAuth factory authTtl
      { rrset with zone := some zone' } (properPrefixes rrset.label) >>= store) :=
    ((throws_createAuth _ _ _ _).mono fun _ h ↦ h.1).bind throws_store
  have hany := @Program.ensures_of_run _ _ _ _ _ (World.handle services) (fun _ _ ↦ True) ⟨db, keys⟩
    (createAuth factory authTtl { rrset with zone := some zone' } (properPrefixes rrset.label) >>=
      store) trivial
  exact (hany.and_ends hthrows).mono (fun _ _ _ ↦ Or.inr trivial)
    fun _ _ hend fault hfault hoverride ↦ absurd hoverride (hend.2 fault hfault)

/-! ## Packets from files and removals -/

/-- The new record object that an addition from a file makes: its data is the packet in the file,
signed again if it is to be, and the other fields are read from the name of the packet. -/
def FileRecord (services : Services Keys) (zone : Zone) (inFile : String) (ttl : ℤ)
    (needResign : Bool) (rrset : Rrset) : Prop :=
  ∃ packet dskCertName data wire before after flag re, FileHolds services inFile packet ∧
    (resign needResign dskCertName packet).Returns (World.handle services) before (data, wire)
      after ∧
    Clients.Response.default.fromData zone.name data = .ok (flag, re) ∧
    rrset = ⟨0, some zone, re.rrLabel, re.rrType, re.version,
      if ttl = defaultRrTtl then zone.ttl else ttl, wire⟩

theorem fails_addRrsetFromFile {zoneName inputDskCertName : Name} {inFile : String} {ttl : ℤ}
    {needResign : Bool} (hvalid : db.Valid) :
    Fails services (addRrsetFromFile zoneName inFile ttl inputDskCertName needResign) db
      fun fault db' ↦ (fault.IsOverride ∨ fault.IsVersionConflict → db' = db) ∧
        (db' = db ∨ ∃ rrset, FileRecord services (lookupZone db (Zone.named zoneName)) inFile ttl
          needResign rrset ∧ Unfinished db (lookupZone db (Zone.named zoneName)) rrset db') := by
  refine meets_addRrsetFromFile (fun _ _ _ ↦ ⟨fun _ ↦ rfl, Or.inl rfl⟩) ?_
  intro _ _ packet _ _ dskCertName data wire _ re hid hload hresign hparse
  refine (fails_store hvalid rfl).weaken fun _ db' hend fault hfault ↦ ?_
  obtain ⟨hnone, hunfinished, hsame⟩ := hend fault hfault
  rw [resolveZone, if_neg hid] at hunfinished
  obtain ⟨flag, hre⟩ := fromData_of_parseRrset hparse
  refine ⟨fun h ↦ hsame (h.resolve_left hnone), Or.inr ⟨_, ?_, hunfinished⟩⟩
  refine ⟨packet, dskCertName, data, wire, _, _, flag, re, holds_of_loadData hload, hresign, ?_, rfl⟩
  rwa [lookupZone_name]

/-- A removal fails after the row is gone. -/
theorem fails_removeRrSet {zoneName label : Name} {type : Component} :
    Fails services (removeRrSet zoneName label type) db fun _ db' ↦
      ∃ row, keyRow db (lookupZone db (Zone.named zoneName)).id label type = some row ∧
        Rebuilding zoneName (lookupZone db (Zone.named zoneName)).id (db.deleteRrset row.id) db' := by
  refine meets_removeRrSet nofun fun row _ hrow ↦ ⟨trivial, ?_⟩
  rw [resolveZone_named] at hrow ⊢
  refine (fails_generateDoe _ _).weaken fun outcome db' hend fault hfault ↦ ⟨row, hrow, ?_⟩
  have hrebuilding := (hend fault (eq_error_of_map hfault)).1
  have hname : (lookupZone db (Zone.named zoneName)).name = zoneName := lookupZone_name _ _
  have hid : (lookupZone (db.deleteRrset row.id) (lookupZone db (Zone.named zoneName))).id =
      (lookupZone db (Zone.named zoneName)).id := lookupZone_id_congr rfl hname
  rwa [hid, hname] at hrebuilding

end Ndns.Mgmt.ManagementTool

namespace Ndns.Mgmt

open Ndn Calls Daemon DbMgr ManagementTool

section Operations

variable [PacketFormat]

/-- What an operation on a record leaves in the tables when it throws.  A conflict leaves them as
they were, except that the AUTH records of a label with several components come before the check of
its version; any other exception leaves what was written so far. -/
def Operation.Leaves {Keys : Type} (services : Services Keys) (fault : Fault) (db db' : Database) :
    Operation → Prop
  | .addRrset rrset => (fault.IsOverride ∨ fault.IsVersionConflict → db' = db) ∧
      (rrset.zone = none → db' = db) ∧
      ∀ zone, rrset.zone = some zone → Unfinished db (resolveZone db zone) rrset db'
  | .addMultiLevelLabelRrset rrset zoneRrFactory _ => (fault.IsOverride → db' = db) ∧
      (rrset.zone = none → db' = db) ∧
      ∀ zone, rrset.zone = some zone → SameZone db zone zoneRrFactory.zone →
        ∃ prepared zone', GainsAuths zone rrset.label db prepared ∧ Tracks prepared zone zone' ∧
          (fault.IsVersionConflict → db' = prepared) ∧
          Unfinished prepared (resolveZone prepared zone') rrset db'
  | .addRrsetFromFile zoneName inFile ttl _ needResign =>
      (fault.IsOverride ∨ fault.IsVersionConflict → db' = db) ∧
        (db' = db ∨ ∃ rrset, FileRecord services (lookupZone db (Zone.named zoneName)) inFile ttl
          needResign rrset ∧ Unfinished db (lookupZone db (Zone.named zoneName)) rrset db')
  | .removeRrSet zoneName label type =>
      ∃ row, keyRow db (lookupZone db (Zone.named zoneName)).id label type = some row ∧
        Rebuilding zoneName (lookupZone db (Zone.named zoneName)).id (db.deleteRrset row.id) db'
  | .createZone _ _ _ _ _ _ | .doUpdate _ _ _ => True

variable {Keys : Type} {services : Services Keys} {db : Database} {operation : Operation}

/-- However an operation on a record fails, it leaves no more than that. -/
theorem Operation.leaves {fault : Fault} {keys keys' : Keys} {db' : Database} (hvalid : db.Valid)
    (h : operation.program.run (World.handle services) ⟨db, keys⟩ =
      (.error fault, ⟨db', keys'⟩)) : operation.Leaves services fault db db' := by
  cases operation with
  | createZone _ _ _ _ _ _ | doUpdate _ _ _ => trivial
  | addRrset rrset =>
      cases hzone : rrset.zone with
      | none =>
          have hmeets : Meets services AnyChange (ManagementTool.addRrset rrset) db
              fun _ db' ↦ db' = db := meets_addRrset_unassigned hzone rfl
          have hsame : db' = db := ((Fails.of_meets hmeets).discard fun _ ↦ true).run h
          exact ⟨fun _ ↦ hsame, fun _ ↦ hsame, fun _ hother ↦ (nomatch hzone.symm.trans hother)⟩
      | some zone =>
          obtain ⟨hsame, hunfinished⟩ := ((fails_addRrset hvalid hzone).discard fun _ ↦ true).run h
          refine ⟨hsame, fun hnone ↦ (nomatch hzone.symm.trans hnone), fun other hother ↦ ?_⟩
          obtain rfl := Option.some.inj (hzone.symm.trans hother)
          exact hunfinished
  | addMultiLevelLabelRrset rrset zoneRrFactory authTtl =>
      cases hzone : rrset.zone with
      | none =>
          have hmeets : Meets services AnyChange
              (ManagementTool.addMultiLevelLabelRrset rrset zoneRrFactory authTtl) db
              fun _ db' ↦ db' = db := meets_addMultiLevelLabelRrset_unassigned hzone rfl
          have hsame : db' = db := ((Fails.of_meets hmeets).discard fun _ ↦ true).run h
          exact ⟨fun _ ↦ hsame, fun _ ↦ hsame, fun _ hother ↦ (nomatch hzone.symm.trans hother)⟩
      | some zone =>
          refine ⟨((fails_override hvalid hzone).discard fun _ ↦ true).run h,
            fun hnone ↦ (nomatch hzone.symm.trans hnone), fun other hother hsame ↦ ?_⟩
          obtain rfl := Option.some.inj (hzone.symm.trans hother)
          exact ((fails_addMultiLevelLabelRrset hvalid hzone hsame).discard fun _ ↦ true).run h
  | addRrsetFromFile zoneName inFile ttl inputDskCertName needResign =>
      exact ((fails_addRrsetFromFile hvalid).discard fun _ ↦ true).run h
  | removeRrSet zoneName label type => exact (fails_removeRrSet.discard fun _ ↦ true).run h

end Operations

section Examples

open LocalServices

attribute [local instance] ndnPacketFormat

/-- A key chain without the identities of the zones. -/
def emptyKeyChain : Services ℕ := ⟨fun service time ↦ match service with
  | .defaultKeyName _ => (none, time)
  | other => answer other time⟩

def certRemoval : Operation := .removeRrSet [letter 110] (certLabel 2) Label.certRrType

theorem leaves_certRemoval : certRemoval.Leaves emptyKeyChain .keyChainError createdDatabase
    (certRemoval.program.run (World.handle emptyKeyChain) ⟨createdDatabase, 0⟩).2.db := by
  have hfault : (certRemoval.program.run (World.handle emptyKeyChain) ⟨createdDatabase, 0⟩).1 =
      .error .keyChainError := by decide +kernel
  exact Operation.leaves (creation_step.valid Database.valid_empty) (Prod.ext hfault rfl)

/-- A record below the label of no other record. -/
def deepRrset : Rrset :=
  ⟨0, some (Zone.named [letter 110]), [letter 97, letter 98], Label.txtRrType,
    Component.fromVersion 1, 3600, (Layout.encode ⟨Label.recordName [letter 110]
      [letter 97, letter 98] Label.txtRrType ++ [Component.fromVersion 1], 0, 0, [], [],
        []⟩).getD Block.invalid⟩

/-- Without the identity, a removal fails when the row and the whole chain are gone.  The second
addition of a record fails after it has created an AUTH record. -/
theorem failed_operations_leave_traces :
    (let removed := (ManagementTool.removeRrSet [letter 110] (certLabel 2) Label.certRrType).run
        (World.handle emptyKeyChain) ⟨createdDatabase, 0⟩;
      removed.1 = .error .keyChainError ∧ removed.2.db.rrsets ≠ createdDatabase.rrsets) ∧
    (let added := (ManagementTool.addRrset deepRrset).run (World.handle localServices)
        ⟨createdDatabase, 0⟩;
      let refused := (ManagementTool.addMultiLevelLabelRrset deepRrset
        ⟨lookupZone createdDatabase (Zone.named [letter 110]), [], true⟩ 3600).run
          (World.handle localServices) added.2;
      added.1 = .ok () ∧
        refused.1 = .error (.managementToolError "Duplicate" [letter 97, letter 98]) ∧
        refused.2.db.rrsets ≠ added.2.db.rrsets) :=
  ⟨by decide +kernel, by decide +kernel⟩

end Examples

end Ndns.Mgmt
