import Ndns.Mgmt.FailedOperations
import Ndns.Mgmt.ZoneShape

/-!
# How a Creation Ends

`createZone` writes nothing before its checks and its key chain operations have all succeeded.  From
the row of the zone on it goes through six statements and a regeneration, and an exception leaves
what was written by then: the zone is there, and the call is refused when it is made again.
-/

namespace Ndns.Daemon

open Ndn Calls

/-- What the first checks of a creation refuse. -/
def Fault.IsPrecondition : Fault → Prop
  | .managementToolError text _ => text = "is already present in the NDNS db" ∨
      text = "Parent zone name can not be the zone itself" ∨ text = "is not a prefix of" ∨
      text = "Cannot verify DSK certificate" ∨ text = "Cannot verify KSK certificate" ∨
      text = "Cannot generate dkey for root zone"
  | _ => False

theorem Fault.OfRegeneration.no_precondition {fault : Fault} (h : fault.OfRegeneration) :
    ¬ fault.IsPrecondition := by
  cases fault with
  | managementToolError text subject =>
      obtain rfl : text = "is not present in the NDNS db" := h
      simp [Fault.IsPrecondition]
  | _ => exact id

theorem ThrowsLower.no_precondition {Value : Type} {program : Prog Value} (h : ThrowsLower program) :
    Throws (fun fault ↦ ¬ fault.IsPrecondition) program :=
  h.ofRegeneration.mono fun _ hfault ↦ hfault.no_precondition

theorem throws_orThrow {Value : Type} {kind : Fault → Prop} {value : Option Value} {fault : Fault}
    (h : kind fault) : Throws kind (orThrow value fault) := by
  cases value with
  | none => exact throws_throw h
  | some value => exact throws_pure value

end Ndns.Daemon

namespace Ndns.Mgmt.ManagementTool

open Ndn Calls Daemon DbMgr

variable {Keys : Type} {services : Services Keys} {db db' : Database} {zone : Zone}

theorem lookupZone_ttl (h : ∀ row ∈ db.zones, row.name ≠ zone.name) :
    (lookupZone db zone).ttl = zone.ttl := by
  have hnone : db.zones.find? (fun row ↦ row.name = zone.name) = none := by
    simpa [List.find?_eq_none] using h
  simp [lookupZone, hnone]

/-! ## The statements of a creation -/

/-- The tables after some of the statements. -/
def after (steps : List (Database → Database)) (db : Database) : Database :=
  steps.foldl (fun db' step ↦ step db') db

theorem zones_after {steps : List (Database → Database)}
    (h : ∀ step ∈ steps, ∀ db, (step db).zones = db.zones) (db : Database) :
    (after steps db).zones = db.zones := by
  induction steps generalizing db with
  | nil => rfl
  | cons step rest ih =>
      exact (ih (fun other hother ↦ h other (List.mem_cons_of_mem _ hother)) (step db)).trans
        (h step List.mem_cons_self db)

section Statements

variable [PacketFormat]

/-- The row of an identity certificate. -/
def insertCert (zoneId : ℕ) (zoneName : Name) (cacheTtl : ℤ) (cert : Data) (db : Database) :
    Database :=
  db.insertRrset zoneId (idCertLabel zoneName cert.name) Label.certRrType
    ((cert.name.getFromEnd 1).getD Component.empty) cacheTtl
    ((PacketFormat.encode cert).getD Block.invalid)

/-- The information about a zone under one key. -/
def insertInfo (zoneId : ℕ) (key : String) (cert : Data) (db : Database) : Database :=
  db.insertZoneInfo (int32 zoneId) key ((PacketFormat.encode cert).getD Block.invalid)

/-- The rows of a new zone in the order in which they are written. -/
def creationSteps (zoneId : ℕ) (zoneName : Name) (cacheTtl : ℤ) (dkeyCert kskCert dskCert : Data) :
    List (Database → Database) :=
  [fun db ↦ db.insertZone zoneName (int32 cacheTtl),
    insertCert zoneId zoneName cacheTtl kskCert, insertCert zoneId zoneName cacheTtl dskCert,
    insertInfo zoneId "ksk" kskCert, insertInfo zoneId "dsk" dskCert,
    insertInfo zoneId "dkey" dkeyCert]

/-- A creation that has written something ends with a first part of the statements, or with all of
them and a first part of the chain. -/
def Abandoned (zoneName : Name) (cacheTtl : ℤ) (dkeyCert kskCert dskCert : Data)
    (db db' : Database) : Prop :=
  let zoneId := nextRowId (db.zones.map ZoneRow.id)
  let steps := creationSteps zoneId zoneName cacheTtl dkeyCert kskCert dskCert
  (∀ row ∈ db.zones, row.name ≠ zoneName) ∧
    ((∃ written, written ≠ [] ∧ written <+: steps ∧ db' = after written db) ∨
      Rebuilding zoneName zoneId (after steps db) db')

/-- A row of an identity certificate of the zone. -/
structure HoldsCert (zoneName : Name) (zoneId : ℕ) (cacheTtl : ℤ) (cert : Data) (row : RrsetRow) :
    Prop where
  zoneId : row.zoneId = zoneId
  label : row.label = idCertLabel zoneName cert.name
  type : row.type = Label.certRrType
  version : cert.name.getFromEnd 1 = some row.version
  ttl : row.ttl = cacheTtl
  data : PacketFormat.encode cert = some row.data

/-- The information about a zone has a certificate. -/
def HasInfo (db : Database) (zoneId : ℕ) (key : String) (cert : Data) : Prop :=
  ∃ wire, PacketFormat.encode cert = some wire ∧ ⟨int32 zoneId, key, wire⟩ ∈ db.zoneInfo

/-- The tables of a zone whose creation has returned. -/
structure Established (zoneName : Name) (cacheTtl : ℤ) (dkeyCert kskCert dskCert : Data)
    (db : Database) (zone : Zone) (db' : Database) : Prop where
  object : zone.name = zoneName ∧ zone.id = nextRowId (db.zones.map ZoneRow.id)
  absent : ∀ row ∈ db.zones, row.name ≠ zoneName
  zones : db'.zones = db.zones ++ [⟨zone.id, zoneName, int32 cacheTtl⟩]
  records : ∃ kskRow dskRow, records db' zone.id = records db zone.id ++ [kskRow, dskRow] ∧
    HoldsCert zoneName zone.id cacheTtl kskCert kskRow ∧
    HoldsCert zoneName zone.id cacheTtl dskCert dskRow ∧ kskRow.label ≠ dskRow.label
  info : HasInfo db' zone.id "ksk" kskCert ∧ HasInfo db' zone.id "dsk" dskCert ∧
    HasInfo db' zone.id "dkey" dkeyCert
  chained : Chained zoneName zone.id db'

/-- Information under another key stays. -/
theorem HasInfo.insertInfo {zoneId : ℕ} {key other : String} {cert : Data} (hkey : key ≠ other)
    (h : HasInfo db zoneId key cert) (otherCert : Data) :
    HasInfo (insertInfo zoneId other otherCert db) zoneId key cert := by
  obtain ⟨wire, hwire, hmem⟩ := h
  refine ⟨wire, hwire, List.mem_append_left _ (List.mem_filter.mpr ⟨hmem, ?_⟩)⟩
  simp [hkey]

theorem hasInfo_insertInfo {zoneId : ℕ} {key : String} {cert : Data}
    (h : (PacketFormat.encode cert).isSome) :
    HasInfo (insertInfo zoneId key cert db) zoneId key cert := by
  obtain ⟨wire, hwire⟩ := Option.isSome_iff_exists.mp h
  refine ⟨wire, hwire, List.mem_append_right _ ?_⟩
  rw [hwire, Option.getD_some]
  exact List.mem_cons_self

/-- A certificate row goes under a label that has none. -/
theorem records_insertCert {zoneName : Name} {zoneId : ℕ} {cacheTtl : ℤ} {cert : Data}
    (hversion : (cert.name.getFromEnd 1).isSome) (hwire : (PacketFormat.encode cert).isSome) :
    ∃ row, records (insertCert zoneId zoneName cacheTtl cert db) zoneId =
      records db zoneId ++ [row] ∧ HoldsCert zoneName zoneId cacheTtl cert row := by
  obtain ⟨version, hversion⟩ := Option.isSome_iff_exists.mp hversion
  obtain ⟨wire, hwire⟩ := Option.isSome_iff_exists.mp hwire
  refine ⟨_, records_insertRrset (by decide) _ _ _ _, ?_⟩
  rw [hversion, hwire, Option.getD_some, Option.getD_some]
  exact ⟨rfl, rfl, rfl, hversion, rfl, hwire⟩

/-! ## The contract of the rows -/

theorem steps_addIdCert {cacheTtl : ℤ} {cert : Data} (hvalid : db.Valid) (hid : zone.id ≠ 0) :
    Meets services AnyChange (addIdCert zone cert cacheTtl) db fun outcome db' ↦
      match outcome with
      | .ok _ => (cert.name.getFromEnd 1).isSome ∧ (PacketFormat.encode cert).isSome ∧
          (∀ row ∈ db.rrsets,
            row.key ≠ (zone.id, idCertLabel zone.name cert.name, Label.certRrType)) ∧
          db' = insertCert zone.id zone.name cacheTtl cert db
      | .error _ => db' = db := by
  refine tryMeets_addIdCert hvalid hid (fun _ ↦ rfl) fun version wire hversion hwire habsent ↦ ?_
  refine ⟨trivial, Option.isSome_of_eq_some hversion, Option.isSome_of_eq_some hwire, habsent, ?_⟩
  rw [insertCert, hversion, hwire, Option.getD_some, Option.getD_some]

theorem steps_saveCertificate {key : String} {cert : Data} :
    Meets services AnyChange (saveCertificate zone key cert) db fun outcome db' ↦
      match outcome with
      | .ok _ => (PacketFormat.encode cert).isSome ∧ db' = insertInfo zone.id key cert db
      | .error _ => db' = db := by
  refine tryMeets_saveCertificate (fun _ ↦ rfl) fun wire hwire ↦ ?_
  refine ⟨trivial, Option.isSome_of_eq_some hwire, ?_⟩
  rw [insertInfo, hwire, Option.getD_some]

/-- All statements and a whole regeneration make up an established zone. -/
theorem established_of_regenerates {zoneName : Name} {cacheTtl : ℤ}
    {dkeyCert kskCert dskCert : Data} (hobject : zone.name = zoneName ∧
      zone.id = nextRowId (db.zones.map ZoneRow.id))
    (habsent : ∀ row ∈ db.zones, row.name ≠ zoneName)
    (hversions : (kskCert.name.getFromEnd 1).isSome ∧ (dskCert.name.getFromEnd 1).isSome)
    (hwires : (PacketFormat.encode kskCert).isSome ∧ (PacketFormat.encode dskCert).isSome ∧
      (PacketFormat.encode dkeyCert).isSome)
    (hlabels : idCertLabel zoneName kskCert.name ≠ idCertLabel zoneName dskCert.name)
    (hregenerates : Regenerates zoneName zone.id
      (after (creationSteps zone.id zoneName cacheTtl dkeyCert kskCert dskCert) db) db') :
    Established zoneName cacheTtl dkeyCert kskCert dskCert db zone db' := by
  obtain ⟨hzones, hinfo⟩ := hregenerates.zones
  refine ⟨hobject, habsent, ?_, ?_, ?_, hregenerates.chained⟩
  · rw [hzones, hobject.2]
    rfl
  · obtain ⟨kskRow, hksk, hkskRow⟩ := @records_insertCert
      (db.insertZone zoneName (int32 cacheTtl)) _ zoneName zone.id cacheTtl kskCert hversions.1
      hwires.1
    obtain ⟨dskRow, hdsk, hdskRow⟩ := @records_insertCert (insertCert zone.id zoneName
      cacheTtl kskCert (db.insertZone zoneName (int32 cacheTtl))) _ zoneName zone.id cacheTtl dskCert
      hversions.2 hwires.2.1
    refine ⟨kskRow, dskRow, ?_, hkskRow, hdskRow, ?_⟩
    · rw [hregenerates.records]
      refine hdsk.trans ?_
      rw [hksk, List.append_assoc]
      rfl
    · rw [hkskRow.label, hdskRow.label]
      exact hlabels
  · have hsame : ∀ key cert, HasInfo db' zone.id key cert ↔ HasInfo (after
        (creationSteps zone.id zoneName cacheTtl dkeyCert kskCert dskCert) db) zone.id key cert := by
      intro key cert
      unfold HasInfo
      rw [hinfo]
    rw [hsame, hsame, hsame]
    exact ⟨((hasInfo_insertInfo hwires.1).insertInfo (by decide) _).insertInfo (by decide) _,
      (hasInfo_insertInfo hwires.2.1).insertInfo (by decide) _, hasInfo_insertInfo hwires.2.2⟩

/-- The rows of a new zone, whether or not all of them are written. -/
theorem establishes_addZoneRows {cacheTtl : ℤ} {dkeyCert kskCert dskCert : Data}
    (hvalid : db.Valid)
    (httl : (∀ row ∈ db.zones, row.name ≠ zone.name) → zone.ttl = cacheTtl) :
    Meets services AnyChange (addZoneRows zone dkeyCert kskCert dskCert cacheTtl) db
      fun outcome db' ↦ match outcome with
        | .ok created => Established zone.name cacheTtl dkeyCert kskCert dskCert db created db'
        | .error _ => db' = db ∨ Abandoned zone.name cacheTtl dkeyCert kskCert dskCert db db' := by
  obtain ⟨steps, hsteps⟩ : ∃ steps, steps = creationSteps (nextRowId (db.zones.map ZoneRow.id))
    zone.name cacheTtl dkeyCert kskCert dskCert := ⟨_, rfl⟩
  have hadd : Meets services AnyChange (addZone zone) db fun outcome db' ↦ match outcome with
      | .ok added => added.name = zone.name ∧ added.id = nextRowId (db.zones.map ZoneRow.id) ∧
          (∀ row ∈ db.zones, row.name ≠ zone.name) ∧ db' = after (steps.take 1) db
      | .error _ => db' = db := by
    refine tryMeets_addZone (fun _ ↦ rfl) fun habsent ↦ ⟨trivial, rfl, rfl, habsent, ?_⟩
    rw [lookupZone_ttl habsent, httl habsent, hsteps]
    rfl
  refine hadd.bind ?_ fun _ _ hsame ↦ Or.inl hsame
  rintro ⟨_, _, ttl⟩ _ ⟨rfl, rfl, habsent, rfl⟩
  have hid : nextRowId (db.zones.map ZoneRow.id) ≠ 0 := (nextRowId_pos _).ne'
  have hfault : ∀ count, 0 < count → ∀ db', db' = after (steps.take count) db →
      db' = db ∨ Abandoned zone.name cacheTtl dkeyCert kskCert dskCert db db' := by
    rintro count hcount _ rfl
    refine Or.inr ⟨habsent, Or.inl ⟨steps.take count, ?_, ?_, rfl⟩⟩
    · obtain ⟨count, rfl⟩ := Nat.exists_eq_succ_of_ne_zero hcount.ne'
      rw [hsteps]
      exact List.cons_ne_nil _ _
    · rw [← hsteps]
      exact List.take_prefix count steps
  have hvalid₁ : (after (steps.take 1) db).Valid := by
    rw [hsteps]
    exact hvalid.insertZone _ habsent
  refine (Meets.valid (steps_addIdCert hvalid₁ hid) hvalid₁).bind ?_ fun _ db' hend ↦
    hfault 1 (by decide) db' hend.1
  rintro _ db₂ ⟨⟨hkskVersion, hkskWire, -, hsame⟩, hvalid₂⟩
  obtain rfl : db₂ = after (steps.take 2) db := by
    rw [hsame, hsteps]
    rfl
  refine (steps_addIdCert hvalid₂ hid).bind ?_ fun _ db' hend ↦ hfault 2 (by decide) db' hend
  rintro _ db₃ ⟨hdskVersion, hdskWire, hdskAbsent, hsame⟩
  obtain rfl : db₃ = after (steps.take 3) db := by
    rw [hsame, hsteps]
    rfl
  refine steps_saveCertificate.bind ?_ fun _ db' hend ↦ hfault 3 (by decide) db' hend
  rintro _ db₄ ⟨-, hsame⟩
  obtain rfl : db₄ = after (steps.take 4) db := by
    rw [hsame, hsteps]
    rfl
  refine steps_saveCertificate.bind ?_ fun _ db' hend ↦ hfault 4 (by decide) db' hend
  rintro _ db₅ ⟨-, hsame⟩
  obtain rfl : db₅ = after (steps.take 5) db := by
    rw [hsame, hsteps]
    rfl
  refine steps_saveCertificate.bind ?_ fun _ db' hend ↦ hfault 5 (by decide) db' hend
  rintro _ db₆ ⟨hdkeyWire, hsame⟩
  obtain rfl : db₆ = after steps db := by
    rw [hsame, hsteps]
    rfl
  have hlookup : (lookupZone (after steps db) ⟨nextRowId (db.zones.map ZoneRow.id), zone.name,
      ttl⟩).id = nextRowId (db.zones.map ZoneRow.id) := by
    rw [hsteps, ← lookupZone_insertZone habsent (int32 cacheTtl)]
    exact lookupZone_id_congr rfl rfl
  have hlabels : idCertLabel zone.name kskCert.name ≠ idCertLabel zone.name dskCert.name := by
    intro hlabel
    rw [hsteps] at hdskAbsent
    refine hdskAbsent _ (List.mem_append_right _ List.mem_cons_self) ?_
    rw [RrsetRow.key, hlabel]
  refine (tryMeets_generateDoe fun _ _ _ _ ↦ trivial).weaken fun outcome db' hend ↦ ?_
  cases outcome with
  | error fault =>
      refine Or.inr ⟨habsent, Or.inr ?_⟩
      have hrebuilding := hend.rebuilding
      rwa [hlookup, hsteps] at hrebuilding
  | ok stored =>
      obtain ⟨rfl, -, -, hregenerates⟩ := hend
      rw [hlookup, hsteps] at hregenerates
      refine established_of_regenerates ⟨lookupZone_name _ _, hlookup⟩ habsent
        ⟨hkskVersion, hdskVersion⟩ ⟨hkskWire, hdskWire, hdkeyWire⟩ hlabels ?_
      rw [hlookup]
      exact hregenerates

/-! ## The faults of the rows -/

theorem throws_addIdCert (zone : Zone) (cert : Data) (cacheTtl : ℤ) :
    Throws (fun fault ↦ ¬ fault.IsPrecondition) (addIdCert zone cert cacheTtl) := by
  refine (throws_orThrow id).bind fun version ↦ (throws_orThrow id).bind fun data ↦
    (throwsLower_findRrset _).no_precondition.bind fun found ↦ (throws_require ?_).bind
      fun _ ↦ (throwsLower_insertRrset _).no_precondition.bind fun _ ↦ throws_pure ()
  simp [Fault.IsPrecondition]

theorem throws_saveCertificate (zone : Zone) (key : String) (cert : Data) :
    Throws (fun fault ↦ ¬ fault.IsPrecondition) (saveCertificate zone key cert) :=
  (throws_orThrow id).bind fun _ ↦ (throwsLower_setZoneInfo _ _ _).no_precondition

/-- The rows are written when the preconditions hold. -/
theorem throws_addZoneRows (zone : Zone) (dkeyCert kskCert dskCert : Data) (cacheTtl : ℤ) :
    Throws (fun fault ↦ ¬ fault.IsPrecondition)
      (addZoneRows zone dkeyCert kskCert dskCert cacheTtl) := by
  have hadd : Throws (fun fault ↦ ¬ fault.IsPrecondition) (addZone zone) := by
    refine (throwsLower_findZone _).no_precondition.bind fun found ↦
      (throws_require ?_).bind fun _ ↦ (throwsLower_insertZone _).no_precondition
    simp [Fault.IsPrecondition]
  exact hadd.bind fun _ ↦ (throws_addIdCert _ _ _).bind fun _ ↦ (throws_addIdCert _ _ _).bind
    fun _ ↦ (throws_saveCertificate _ _ _).bind fun _ ↦ (throws_saveCertificate _ _ _).bind
      fun _ ↦ (throws_saveCertificate _ _ _).bind fun _ ↦
        (throws_generateDoe _).mono fun _ hfault ↦ hfault.no_precondition

/-! ## The zone after a creation -/

/-- A creation that has written something has written the zone. -/
theorem Abandoned.zones {zoneName : Name} {cacheTtl : ℤ} {dkeyCert kskCert dskCert : Data}
    (h : Abandoned zoneName cacheTtl dkeyCert kskCert dskCert db db') :
    db'.zones = (db.insertZone zoneName (int32 cacheTtl)).zones := by
  have hrest : ∀ step ∈ (creationSteps (nextRowId (db.zones.map ZoneRow.id)) zoneName cacheTtl
      dkeyCert kskCert dskCert).tail, ∀ db, (step db).zones = db.zones := by
    simp [creationSteps, insertCert, insertInfo, Database.insertRrset, Database.insertZoneInfo]
  rcases h with ⟨-, ⟨written, hne, hbelow, rfl⟩ | hrebuilding⟩
  · obtain ⟨first, rest, rfl⟩ := List.exists_cons_of_ne_nil hne
    obtain ⟨rfl, hrestPrefix⟩ := List.cons_prefix_cons.mp hbelow
    exact zones_after (fun step hstep ↦ hrest step (hrestPrefix.subset hstep)) _
  · have hsteps := zones_after hrest (db.insertZone zoneName (int32 cacheTtl))
    rw [← hsteps]
    exact (hrebuilding.within (fun _ ↦ rfl) zoneName).2.1

/-- The creation of a zone that is in the tables is refused. -/
theorem run_createZone_present {world : World Keys} {zoneName parentZoneName kskCertName dskCertName
    dkeyCertName : Name} {cacheTtl : ℤ}
    (h : (lookupZone world.db (Zone.make zoneName cacheTtl)).id ≠ 0) :
    (createZone zoneName parentZoneName cacheTtl kskCertName dskCertName dkeyCertName).run
      (World.handle services) world =
        (.error (.managementToolError "is already present in the NDNS db" zoneName), world) := by
  unfold createZone
  rw [Program.run_bind, run_findZone]
  simp only
  rw [require, if_neg h]
  rfl

/-! ## The ends of a creation -/

/-- A certificate as a creation gets it: a new one, or the one that was named. -/
def Obtained (services : Services Keys) (db : Database) (identity certName : Name) (cacheTtl : ℤ)
    (cert : Data) : Prop :=
  ∃ signingKey keys key keys', (obtainCertificate identity certName signingKey cacheTtl).Returns
    (World.handle services) ⟨db, keys⟩ (key, cert) ⟨db, keys'⟩

/-- How a creation ends: with the zone established, or by a fault that leaves the tables as they
were or the zone in them.  A zone that was left there makes every later creation fail. -/
def CreationEnds (services : Services Keys) (zoneName : Name) (cacheTtl : ℤ)
    (kskCertName dskCertName dkeyCertName : Name) (db : Database) :
    Except Fault Zone → Database → Prop
  | .ok zone, db' => ∃ identity dkeyCert kskCert dskCert,
      Obtained services db identity dkeyCertName cacheTtl dkeyCert ∧
      Obtained services db (zoneIdentity zoneName) kskCertName cacheTtl kskCert ∧
      Obtained services db (zoneIdentity zoneName) dskCertName cacheTtl dskCert ∧
      Established zoneName cacheTtl dkeyCert kskCert dskCert db zone db'
  | .error fault, db' => (fault.IsPrecondition → db' = db) ∧
      (db' = db ∨ ∃ identity dkeyCert kskCert dskCert,
        Obtained services db identity dkeyCertName cacheTtl dkeyCert ∧
        Obtained services db (zoneIdentity zoneName) kskCertName cacheTtl kskCert ∧
        Obtained services db (zoneIdentity zoneName) dskCertName cacheTtl dskCert ∧
        Abandoned zoneName cacheTtl dkeyCert kskCert dskCert db db' ∧
        ∀ parentZoneName cacheTtl kskCertName dskCertName dkeyCertName keys,
          (createZone zoneName parentZoneName cacheTtl kskCertName dskCertName dkeyCertName).run
            (World.handle services) ⟨db', keys⟩ =
              (.error (.managementToolError "is already present in the NDNS db" zoneName),
                ⟨db', keys⟩))

theorem createZone_ends {zoneName parentZoneName kskCertName dskCertName dkeyCertName : Name}
    {cacheTtl : ℤ} (hvalid : db.Valid) (keys : Keys) :
    CreationEnds services zoneName cacheTtl kskCertName dskCertName dkeyCertName db
      ((createZone zoneName parentZoneName cacheTtl kskCertName dskCertName dkeyCertName).run
        (World.handle services) ⟨db, keys⟩).1
      ((createZone zoneName parentZoneName cacheTtl kskCertName dskCertName dkeyCertName).run
        (World.handle services) ⟨db, keys⟩).2.db := by
  have hcreate : Meets services AnyChange
      (createZone zoneName parentZoneName cacheTtl kskCertName dskCertName dkeyCertName) db
      (CreationEnds services zoneName cacheTtl kskCertName dskCertName dkeyCertName db) := by
    refine tryMeets_createZone (fun _ ↦ ⟨fun _ ↦ rfl, Or.inl rfl⟩) ?_
    intro identity _ _ _ dkeyCert _ _ signing₁ _ kskCert _ _ signing₂ _ dskCert hdkey hksk hdsk
    have hname : (lookupZone db (Zone.make zoneName cacheTtl)).name = zoneName := lookupZone_name _ _
    have hrows := @establishes_addZoneRows _ services db
      (lookupZone db (Zone.make zoneName cacheTtl)) _ cacheTtl dkeyCert kskCert dskCert hvalid
      fun habsent ↦ lookupZone_ttl (hname ▸ habsent)
    rw [hname] at hrows
    refine ((hrows.valid hvalid).and_ends (throws_addZoneRows _ _ _ _ _)).weaken
      fun outcome db' hend ↦ ?_
    obtain ⟨⟨hend, hvalid'⟩, hthrows⟩ := hend
    cases outcome with
    | ok zone =>
        exact ⟨identity, dkeyCert, kskCert, dskCert, ⟨_, _, _, _, hdkey⟩, ⟨_, _, _, _, hksk⟩,
          ⟨_, _, _, _, hdsk⟩, hend⟩
    | error fault =>
        refine ⟨fun hprecondition ↦ absurd hprecondition (hthrows fault rfl), ?_⟩
        refine hend.imp_right fun habandoned ↦ ⟨identity, dkeyCert, kskCert, dskCert,
          ⟨_, _, _, _, hdkey⟩, ⟨_, _, _, _, hksk⟩, ⟨_, _, _, _, hdsk⟩, habandoned, ?_⟩
        intro parentZoneName cacheTtl' kskCertName' dskCertName' dkeyCertName' keys
        refine run_createZone_present fun hmissing ↦ ?_
        have hmem : ⟨nextRowId (db.zones.map ZoneRow.id), zoneName, int32 cacheTtl⟩ ∈ db'.zones := by
          rw [habandoned.zones]
          exact List.mem_append_right _ List.mem_cons_self
        exact lookupZone_id_eq_zero hvalid' hmissing _ hmem rfl
  exact hcreate.run keys

end Statements

section Examples

open LocalServices

attribute [local instance] ndnPacketFormat

/-- The certificate of the one key of the zone /n. -/
def netCertName : Name := certificateName (LocalServices.keyName (zoneIdentity [letter 110]))

/-- The creation of the zone /n with one certificate for both keys. -/
def sameCertCreation : Except Fault Zone × World ℕ :=
  (createZone [letter 110] [] 3600 netCertName netCertName []).run (World.handle localServices)
    ⟨Database.empty, 0⟩

theorem createZone_ends_sameCert : CreationEnds localServices [letter 110] 3600 netCertName
    netCertName [] Database.empty sameCertCreation.1 sameCertCreation.2.db :=
  createZone_ends Database.valid_empty 0

/-- The second certificate row is refused when the zone and the first one are written. -/
theorem sameCertCreation_leaves_zone : sameCertCreation.1 = .error (.managementToolError
      "is already present in local NDNS database" (idCertLabel [letter 110] netCertName)) ∧
    sameCertCreation.2.db.zones ≠ Database.empty.zones ∧
    sameCertCreation.2.db.rrsets.length = 1 :=
  ⟨by decide +kernel, by decide +kernel, by decide +kernel⟩

end Examples

end Ndns.Mgmt.ManagementTool
