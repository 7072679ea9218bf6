import Ndns.Mgmt.AdditionContracts

/-!
# Contracts of Zone Operations

The creation and the removal of a zone as one rule each, about runs that may end in an exception.
The caller gives an invariant and proves that each change the operation makes keeps it.
-/

namespace Ndns.Mgmt.ManagementTool

open Ndn Calls Daemon DbMgr

variable {Keys : Type} {services : Services Keys} {Change : Database → Database → Prop}
  {db : Database} {zone : Zone}

/-! ## Removal -/

/-- The loop of `deleteZone`, with an invariant of the deletions. -/
theorem meets_removeAll {Inv : Database → Prop} {rrsets : List Rrset}
    (hdelete : ∀ rrset ∈ rrsets, ∀ db, Inv db →
      Change db (db.deleteRrset rrset.id) ∧ Inv (db.deleteRrset rrset.id)) (hinv : Inv db) :
    Meets services Change (removeAll rrsets) db fun _ db' ↦ Inv db' := by
  induction rrsets generalizing db with
  | nil => exact meets_pure hinv
  | cons rrset rest ih =>
      have hremove : Meets services Change (DbMgr.removeRrset rrset) db fun _ db' ↦ Inv db' := by
        by_cases hid : rrset.id = 0
        · unfold DbMgr.removeRrset
          rw [if_pos hid]
          exact meets_throw hinv
        · obtain ⟨hchange, hinv'⟩ := hdelete rrset List.mem_cons_self db hinv
          exact meets_removeRrset hid hchange hinv'
      exact hremove.bind
        (fun _ _ hinv' ↦ ih (fun other hother ↦ hdelete other (List.mem_cons_of_mem _ hother)) hinv')
        fun _ _ hinv' ↦ hinv'

theorem meets_deleteZone {zoneName : Name} {Inv post : Database → Prop} (hinv : Inv db)
    (hpost : ∀ db', Inv db' → post db')
    (hdelete : (lookupZone db (Zone.named zoneName)).id ≠ 0 → ∀ row ∈ db.rrsets,
      row.zoneId = (lookupZone db (Zone.named zoneName)).id → ∀ db', Inv db' →
        Change db' (db'.deleteRrset row.id) ∧ Inv (db'.deleteRrset row.id))
    (hzone : ∀ db', Inv db' → (lookupZone db' (Zone.named zoneName)).id ≠ 0 →
      let removed : Database := { db' with
        zones := db'.zones.filter fun row ↦ row.id ≠ (lookupZone db' (Zone.named zoneName)).id }
      Change db' removed ∧ post removed) :
    Meets services Change (deleteZone zoneName) db fun _ db' ↦ post db' := by
  have hfind : ∀ keys, (DbMgr.findZone (Zone.named zoneName)).run (World.handle services)
      ⟨db, keys⟩ = (.ok (lookupZone db (Zone.named zoneName)), ⟨db, keys⟩) :=
    fun keys ↦ run_findZone _ ⟨db, keys⟩
  refine meets_known (selects_of_reads (reads_findZone _)) hfind ?_
  refine meets_require (fun hid ↦ ?_) fun _ ↦ hpost _ hinv
  have hselect : ∀ keys, (DbMgr.findRrsets (lookupZone db (Zone.named zoneName))).run
      (World.handle services) ⟨db, keys⟩ = (.ok ((zoneRows db
        (lookupZone db (Zone.named zoneName)).id).map
          (restore (lookupZone db (Zone.named zoneName)))), ⟨db, keys⟩) :=
    fun keys ↦ run_findRrsets hid ⟨db, keys⟩
  refine meets_known (selects_findRrsets _) hselect ?_
  refine Meets.bind (meets_removeAll ?_ hinv) (fun _ db' hinv' ↦ ?_) fun _ db' hinv' ↦ hpost _ hinv'
  · intro rrset hrrset
    obtain ⟨row, hrow, rfl⟩ := List.mem_map.mp hrrset
    have hmem := (List.perm_insertionSort _ _).mem_iff.mp hrow
    obtain ⟨hmem, hzoneId⟩ := List.mem_filter.mp hmem
    exact hdelete hid row hmem (of_decide_eq_true hzoneId)
  · have hfind' : ∀ keys, (DbMgr.findZone (lookupZone db (Zone.named zoneName))).run
        (World.handle services) ⟨db', keys⟩ =
          (.ok (lookupZone db' (lookupZone db (Zone.named zoneName))), ⟨db', keys⟩) :=
      fun keys ↦ run_findZone _ ⟨db', keys⟩
    refine meets_known (selects_of_reads (reads_findZone _)) hfind' ?_
    split_ifs with hmissing
    · exact meets_pure (hpost _ hinv')
    · unfold DbMgr.removeZone
      rw [if_neg hmissing]
      have hsame : (lookupZone db' (lookupZone db (Zone.named zoneName))).id =
          (lookupZone db' (Zone.named zoneName)).id :=
        lookupZone_id_congr rfl (lookupZone_name _ _)
      obtain ⟨hchange, hremoved⟩ := hzone db' hinv' (hsame ▸ hmissing)
      rw [← hsame] at hchange hremoved
      have hremove : Meets services Change (sql (.deleteZone
          (lookupZone db' (lookupZone db (Zone.named zoneName))).id) >>= fun written ↦
            match written with
            | .prepareError => throw .dbMgrPrepareError
            | .stepError => throw .dbMgrExecuteError
            | .finished _ => pure (Zone.named [])) db' fun _ db'' ↦ post db'' :=
        meets_statement (Or.inr hchange) (meets_pure hremoved)
      exact hremove.bind (fun _ _ hend ↦ meets_pure hend) fun _ _ hend ↦ hend

/-! ## Creation -/

/-- The zone is new, and gets the next id. -/
theorem tryMeets_addZone {post : Except Fault Zone → Database → Prop}
    (hfault : ∀ fault, post (.error fault) db)
    (hzone : (∀ row ∈ db.zones, row.name ≠ zone.name) →
      Change db (db.insertZone zone.name (int32 (lookupZone db zone).ttl)) ∧
        post (.ok ⟨nextRowId (db.zones.map ZoneRow.id), zone.name, (lookupZone db zone).ttl⟩)
          (db.insertZone zone.name (int32 (lookupZone db zone).ttl))) :
    Meets services Change (addZone zone) db post := by
  have hfind : ∀ keys, (DbMgr.findZone zone).run (World.handle services) ⟨db, keys⟩ =
      (.ok (lookupZone db zone), ⟨db, keys⟩) := fun keys ↦ run_findZone zone ⟨db, keys⟩
  refine meets_known (selects_of_reads (reads_findZone _)) hfind ?_
  refine meets_require (fun hmissing ↦ ?_) fun _ ↦ hfault _
  refine meets_insertZone (fun stored db' hopen ↦ ?_) fun _ _ ↦ hfault _
  rcases hopen with ⟨hne, -⟩ | ⟨-, habsent, rfl, rfl⟩
  · exact absurd hmissing hne
  · rw [lookupZone_name] at habsent ⊢
    exact ⟨fun _ ↦ (hzone habsent).1, (hzone habsent).2⟩

variable [PacketFormat]

theorem tryMeets_addIdCert {cert : Data} {ttl : ℤ} {post : Except Fault Unit → Database → Prop}
    (hvalid : db.Valid) (hid : zone.id ≠ 0) (hfault : ∀ fault, post (.error fault) db)
    (hinsert : ∀ version data, cert.name.getFromEnd 1 = some version →
      PacketFormat.encode cert = some data →
      (∀ row ∈ db.rrsets, row.key ≠ (zone.id, idCertLabel zone.name cert.name, Label.certRrType)) →
      Change db (db.insertRrset zone.id (idCertLabel zone.name cert.name) Label.certRrType version
        ttl data) ∧
        post (.ok ()) (db.insertRrset zone.id (idCertLabel zone.name cert.name) Label.certRrType
          version ttl data)) :
    Meets services Change (addIdCert zone cert ttl) db post := by
  refine meets_select (selects_of_reads callsOnly_orThrow) ?_ hfault
  intro _ _ version hversion
  obtain ⟨hversion, -⟩ := returns_orThrow.mp hversion
  refine meets_select (selects_of_reads callsOnly_orThrow) ?_ hfault
  intro _ _ data hdata
  obtain ⟨hdata, -⟩ := returns_orThrow.mp hdata
  have hresolve : resolveZone db zone = zone := if_neg hid
  have hfind : ∀ keys, (DbMgr.findRrset ⟨0, some zone, idCertLabel zone.name cert.name,
      Label.certRrType, version, ttl, data⟩).run (World.handle services) ⟨db, keys⟩ =
        (.ok (pick ⟨0, some zone, idCertLabel zone.name cert.name, Label.certRrType, version, ttl,
          data⟩ zone (keyRow db zone.id (idCertLabel zone.name cert.name) Label.certRrType)),
            ⟨db, keys⟩) := by
    intro keys
    rw [run_findRrset rfl ⟨db, keys⟩, hresolve]
  refine meets_known (selects_findRrset _) hfind ?_
  cases hrow : keyRow db zone.id (idCertLabel zone.name cert.name) Label.certRrType with
  | some row =>
      have hrowId := (hvalid.ids_pos row (keyRow_eq_some hrow).1).ne'
      simp only [pick, if_neg hid, ne_eq, hrowId, not_false_eq_true, decide_true]
      exact meets_require (fun hnone ↦ absurd hnone (by decide)) fun _ ↦ hfault _
  | none =>
      have habsent := keyRow_eq_none_iff.mp hrow
      obtain ⟨hchange, hpost⟩ := hinsert version data hversion hdata habsent
      simp only [pick, if_neg hid]
      refine meets_require (fun _ ↦ ?_) fun _ ↦ hfault _
      have hinserted : Meets services Change (DbMgr.insertRrset ⟨0, some zone,
          idCertLabel zone.name cert.name, Label.certRrType, version, ttl, data⟩) db
          fun outcome db' ↦ post (outcome.map fun _ ↦ ()) db' := by
        refine meets_insertRrset rfl rfl (fun stored db' hopen ↦ ?_) fun _ hzero ↦ absurd hzero hid
        rcases hopen with ⟨-, rfl, rfl⟩ | ⟨hzero, -⟩
        · exact ⟨fun hzero ↦ absurd hzero hid, habsent, hchange, hpost⟩
        · exact absurd hzero hid
      refine hinserted.bind (fun _ db' hend ↦ ?_) fun _ db' hend ↦ ?_
      · exact meets_pure hend
      · exact hend

theorem meets_addIdCert {cert : Data} {ttl : ℤ} {Inv : Database → Prop} (hvalid : db.Valid)
    (hid : zone.id ≠ 0) (hinv : Inv db)
    (hinsert : ∀ version data, cert.name.getFromEnd 1 = some version →
      PacketFormat.encode cert = some data →
      (∀ row ∈ db.rrsets, row.key ≠ (zone.id, idCertLabel zone.name cert.name, Label.certRrType)) →
      Change db (db.insertRrset zone.id (idCertLabel zone.name cert.name) Label.certRrType version
        ttl data) ∧
        Inv (db.insertRrset zone.id (idCertLabel zone.name cert.name) Label.certRrType version ttl
          data)) :
    Meets services Change (addIdCert zone cert ttl) db fun _ db' ↦ Inv db' :=
  tryMeets_addIdCert hvalid hid (fun _ ↦ hinv) hinsert

theorem tryMeets_saveCertificate {key : String} {cert : Data}
    {post : Except Fault Unit → Database → Prop} (hfault : ∀ fault, post (.error fault) db)
    (hinfo : ∀ value, PacketFormat.encode cert = some value →
      Change db (db.insertZoneInfo (int32 zone.id) key value) ∧
        post (.ok ()) (db.insertZoneInfo (int32 zone.id) key value)) :
    Meets services Change (saveCertificate zone key cert) db post := by
  refine meets_select (selects_of_reads callsOnly_orThrow) ?_ hfault
  intro _ _ value hvalue
  obtain ⟨hvalue, -⟩ := returns_orThrow.mp hvalue
  obtain ⟨hchange, hpost⟩ := hinfo value hvalue
  exact meets_setZoneInfo hchange hpost hfault

theorem meets_saveCertificate {key : String} {cert : Data} {Inv : Database → Prop} (hinv : Inv db)
    (hinfo : ∀ key value, Change db (db.insertZoneInfo (int32 zone.id) key value) ∧
      Inv (db.insertZoneInfo (int32 zone.id) key value)) :
    Meets services Change (saveCertificate zone key cert) db fun _ db' ↦ Inv db' :=
  tryMeets_saveCertificate (fun _ ↦ hinv) fun value _ ↦ hinfo key value

/-- The changes of `createZone`, with an invariant they keep from the insertion of the zone on. -/
structure Creating (services : Services Keys) [PacketFormat] (Change : Database → Database → Prop)
    (db : Database) (zoneName : Name) (certs : List Data) (post Inv : Database → Prop) : Prop where
  start : post db
  done : ∀ db', Inv db' → post db'
  valid : ∀ db', Inv db' → db'.Valid
  zone : ∀ ttl, (∀ row ∈ db.zones, row.name ≠ zoneName) →
    Change db (db.insertZone zoneName ttl) ∧ Inv (db.insertZone zoneName ttl)
  cert : ∀ cert ∈ certs, ∀ db' version ttl data, Inv db' → cert.name.getFromEnd 1 = some version →
    PacketFormat.encode cert = some data →
    (∀ row ∈ db'.rrsets, row.key ≠
      (nextRowId (db.zones.map ZoneRow.id), idCertLabel zoneName cert.name, Label.certRrType)) →
    Change db' (db'.insertRrset (nextRowId (db.zones.map ZoneRow.id))
        (idCertLabel zoneName cert.name) Label.certRrType version ttl data) ∧
      Inv (db'.insertRrset (nextRowId (db.zones.map ZoneRow.id)) (idCertLabel zoneName cert.name)
        Label.certRrType version ttl data)
  info : ∀ db' key value, Inv db' →
    Change db' (db'.insertZoneInfo (int32 (nextRowId (db.zones.map ZoneRow.id))) key value) ∧
      Inv (db'.insertZoneInfo (int32 (nextRowId (db.zones.map ZoneRow.id))) key value)
  generate : ∀ db' (stored : Zone), Inv db' → stored.name = zoneName →
    Meets services Change (generateDoe stored) db' fun _ db'' ↦ Inv db''

theorem meets_addZoneRows {dkeyCert kskCert dskCert : Data} {cacheTtl : ℤ}
    {post Inv : Database → Prop}
    (h : Creating services Change db zone.name [kskCert, dskCert] post Inv) :
    Meets services Change (addZoneRows zone dkeyCert kskCert dskCert cacheTtl) db
      fun _ db' ↦ post db' := by
  have hadd : Meets services Change (addZone zone) db fun outcome db' ↦ match outcome with
      | .ok added => Inv db' ∧ added.name = zone.name ∧
          added.id = nextRowId (db.zones.map ZoneRow.id)
      | .error _ => post db' := by
    refine tryMeets_addZone (fun _ ↦ h.start) fun habsent ↦ ?_
    obtain ⟨hchange, hinv⟩ := h.zone (int32 (lookupZone db zone).ttl) habsent
    exact ⟨hchange, hinv, rfl, rfl⟩
  refine hadd.bind ?_ fun _ _ hpost ↦ hpost
  rintro added db₁ ⟨hinv₁, hname, haddedId⟩
  have hid : added.id ≠ 0 := haddedId ▸ (nextRowId_pos _).ne'
  have hcert : ∀ cert ∈ [kskCert, dskCert], ∀ db', Inv db' →
      Meets services Change (addIdCert added cert cacheTtl) db' fun _ db'' ↦ Inv db'' := by
    intro cert hcert db' hinv
    refine meets_addIdCert (h.valid _ hinv) hid hinv fun version data hversion hdata habsent ↦ ?_
    rw [hname, haddedId] at habsent ⊢
    exact h.cert cert hcert db' version cacheTtl data hinv hversion hdata habsent
  have hsave : ∀ key cert db', Inv db' →
      Meets services Change (saveCertificate added key cert) db' fun _ db'' ↦ Inv db'' :=
    fun key cert db' hinv ↦ meets_saveCertificate hinv fun key value ↦
      haddedId ▸ h.info db' key value hinv
  refine (hcert kskCert (by simp) _ hinv₁).bind (fun _ db₂ hinv₂ ↦ ?_) fun _ _ hinv ↦ h.done _ hinv
  refine (hcert dskCert (by simp) _ hinv₂).bind (fun _ db₃ hinv₃ ↦ ?_) fun _ _ hinv ↦ h.done _ hinv
  refine (hsave _ _ _ hinv₃).bind (fun _ db₄ hinv₄ ↦ ?_) fun _ _ hinv ↦ h.done _ hinv
  refine (hsave _ _ _ hinv₄).bind (fun _ db₅ hinv₅ ↦ ?_) fun _ _ hinv ↦ h.done _ hinv
  refine (hsave _ _ _ hinv₅).bind (fun _ db₆ hinv₆ ↦ ?_) fun _ _ hinv ↦ h.done _ hinv
  exact (h.generate db₆ added hinv₆ hname).weaken fun _ _ hinv ↦ h.done _ hinv

/-- The checks and the key chain part of `createZone` leave the tables alone. -/
theorem tryMeets_createZone {zoneName parentZoneName kskCertName dskCertName dkeyCertName : Name}
    {cacheTtl : ℤ} {post : Except Fault Zone → Database → Prop}
    (hfault : ∀ fault, post (.error fault) db)
    (hrows : ∀ identity keys₀ keys₀' dkey dkeyCert keys₁ keys₁' signing₁ ksk kskCert keys₂ keys₂'
      signing₂ dsk dskCert,
      (obtainCertificate identity dkeyCertName none cacheTtl).Returns (World.handle services)
        ⟨db, keys₀⟩ (dkey, dkeyCert) ⟨db, keys₀'⟩ →
      (obtainCertificate (zoneIdentity zoneName) kskCertName signing₁ cacheTtl).Returns
        (World.handle services) ⟨db, keys₁⟩ (ksk, kskCert) ⟨db, keys₁'⟩ →
      (obtainCertificate (zoneIdentity zoneName) dskCertName signing₂ cacheTtl).Returns
        (World.handle services) ⟨db, keys₂⟩ (dsk, dskCert) ⟨db, keys₂'⟩ →
      Meets services Change (addZoneRows (lookupZone db (Zone.make zoneName cacheTtl)) dkeyCert
        kskCert dskCert cacheTtl) db post) :
    Meets services Change
      (createZone zoneName parentZoneName cacheTtl kskCertName dskCertName dkeyCertName) db post := by
  have hfind : ∀ keys, (DbMgr.findZone (Zone.make zoneName cacheTtl)).run (World.handle services)
      ⟨db, keys⟩ = (.ok (lookupZone db (Zone.make zoneName cacheTtl)), ⟨db, keys⟩) :=
    fun keys ↦ run_findZone _ ⟨db, keys⟩
  refine meets_known (selects_of_reads (reads_findZone _)) hfind ?_
  refine meets_require (fun _ ↦ ?_) fun _ ↦ hfault _
  refine meets_require (fun _ ↦ ?_) fun _ ↦ hfault _
  refine meets_require (fun _ ↦ ?_) fun _ ↦ hfault _
  refine meets_select (selects_of_reads (reads_checkCertificates _ _ _)) (fun _ _ _ _ ↦ ?_) hfault
  refine meets_require (fun _ ↦ ?_) fun _ ↦ hfault _
  refine meets_select (selects_of_reads (reads_dkeyIdentity _ _ _)) (fun _ _ dkeyIdentityName _ ↦ ?_)
    hfault
  refine meets_select (selects_of_reads reads_service) (fun _ _ _ _ ↦ ?_) hfault
  refine meets_select (selects_of_reads (reads_ensure _)) (fun _ _ _ _ ↦ ?_) hfault
  refine meets_select (selects_of_reads reads_service) (fun _ _ _ _ ↦ ?_) hfault
  refine meets_select (selects_of_reads (reads_ensure _)) (fun _ _ _ _ ↦ ?_) hfault
  refine meets_select (selects_of_reads (reads_obtainCertificate _ _ _ _))
    (fun keys₀ keys₀' obtained hdkey ↦ ?_) hfault
  obtain ⟨dkey, dkeyCert⟩ := obtained
  refine meets_select (selects_of_reads (reads_obtainCertificate _ _ _ _))
    (fun keys₁ keys₁' obtained hksk ↦ ?_) hfault
  obtain ⟨ksk, kskCert⟩ := obtained
  refine meets_select (selects_of_reads (reads_obtainCertificate _ _ _ _))
    (fun keys₂ keys₂' obtained hdsk ↦ ?_) hfault
  obtain ⟨dsk, dskCert⟩ := obtained
  refine meets_select (selects_of_reads (reads_setDefaultDsk _ _ _)) (fun _ _ _ _ ↦ ?_) hfault
  exact hrows _ _ _ _ _ _ _ _ _ _ _ _ _ _ _ hdkey hksk hdsk

theorem meets_createZone {zoneName parentZoneName kskCertName dskCertName dkeyCertName : Name}
    {cacheTtl : ℤ} {post : Database → Prop} (Inv : Database → Prop) (hsame : post db)
    (hrows : ∀ keys₁ keys₁' signing₁ ksk kskCert keys₂ keys₂' signing₂ dsk dskCert,
      (obtainCertificate (zoneIdentity zoneName) kskCertName signing₁ cacheTtl).Returns
        (World.handle services) ⟨db, keys₁⟩ (ksk, kskCert) ⟨db, keys₁'⟩ →
      (obtainCertificate (zoneIdentity zoneName) dskCertName signing₂ cacheTtl).Returns
        (World.handle services) ⟨db, keys₂⟩ (dsk, dskCert) ⟨db, keys₂'⟩ →
      Creating services Change db zoneName [kskCert, dskCert] post Inv) :
    Meets services Change
      (createZone zoneName parentZoneName cacheTtl kskCertName dskCertName dkeyCertName) db
      fun _ db' ↦ post db' := by
  refine tryMeets_createZone (fun _ ↦ hsame) ?_
  intro _ _ _ _ _ _ _ _ _ _ _ _ _ _ _ _ hksk hdsk
  have hname : (lookupZone db (Zone.make zoneName cacheTtl)).name = zoneName := lookupZone_name _ _
  refine @meets_addZoneRows _ _ _ _ _ _ _ _ _ _ post Inv ?_
  rw [hname]
  exact hrows _ _ _ _ _ _ _ _ _ _ hksk hdsk

end Ndns.Mgmt.ManagementTool
