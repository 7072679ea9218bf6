import Ndns.Daemon.QueryRules
import Ndns.Mgmt.DurableAdditions

/-!
# Every Query is Answered

A query for something that is not stored is answered with the denial record found below it, and
the guard of the zone, the denial record with the empty label, is below every query.  A
regeneration puts the guard into its zone; in between an operation may take it away, by its type or
by its key, and an operation on another zone may not.
-/

namespace Ndns.Label

open Ndn

/-- A name that goes on after zone and marker is parsed, whatever its last components are. -/
theorem exists_matchInterestName {zone rest : Name} (h : rest ≠ []) :
    ∃ re, matchInterestName (zone ++ ndnsIterativeQuery :: rest) zone = .matched re := by
  obtain ⟨init, last, rfl⟩ := (List.eq_nil_or_concat' rest).resolve_left h
  cases hlast : last.isVersion with
  | false =>
      have hmatch := matchInterestName_recordName zone init hlast
      rw [recordName, List.append_assoc, List.cons_append] at hmatch
      exact ⟨_, hmatch⟩
  | true =>
      rcases List.eq_nil_or_concat' init with rfl | ⟨label, rrType, rfl⟩
      · exact ⟨_, matchInterestName_onlyVersion zone hlast⟩
      · have hmatch := matchInterestName_recordName_version zone label rrType hlast
        rw [recordName, List.append_assoc, List.append_assoc, List.cons_append,
          ← List.append_assoc label] at hmatch
        exact ⟨_, hmatch⟩

end Ndns.Label

namespace Ndns.Mgmt

open Ndn Calls Daemon DbMgr NameServer

/-! ## Guards -/

/-- The denial record with the empty label is there. -/
def Guarded (db : Database) (zoneId : ℕ) : Prop :=
  ∃ row ∈ db.rrsets, row.key = (zoneId, [], Label.doeRrType)

variable {db db' : Database} {zoneId : ℕ}

theorem Guarded.mono (h : Guarded db zoneId) (hrows : ∀ row ∈ db.rrsets, row ∈ db'.rrsets) :
    Guarded db' zoneId := by
  obtain ⟨row, hrow, hkey⟩ := h
  exact ⟨row, hrows row hrow, hkey⟩

theorem Guarded.deleteRrset (h : Guarded db zoneId) {id : ℕ}
    (hrows : ∀ row ∈ db.rrsets, row.id = id → row.key ≠ (zoneId, [], Label.doeRrType)) :
    Guarded (db.deleteRrset id) zoneId := by
  obtain ⟨row, hrow, hkey⟩ := h
  refine ⟨row, List.mem_filter.mpr ⟨hrow, ?_⟩, hkey⟩
  exact decide_eq_true fun hid ↦ hrows row hrow hid hkey

/-- An update changes no key. -/
theorem Guarded.updateRrset (h : Guarded db zoneId) (id : ℕ) (ttl : ℤ) (version : Component)
    (data : Block) : Guarded (db.updateRrset id ttl version data) zoneId := by
  obtain ⟨row, hrow, hkey⟩ := h
  refine ⟨_, List.mem_map_of_mem hrow, ?_⟩
  split_ifs
  · exact hkey
  · exact hkey

/-- The guard is taken away by the version check of a record with its key only. -/
theorem Guarded.cleared {cleared : Database} {checked : ℕ} {rrset : Rrset}
    (h : Guarded db zoneId) (hvalid : db.Valid) (hcleared : Cleared db checked rrset cleared) :
    Guarded cleared zoneId ∨
      checked ≠ 0 ∧ (checked, rrset.label, rrset.type) = (zoneId, [], Label.doeRrType) := by
  cases hcleared with
  | absent _ => exact Or.inl h
  | older hid hrow _ =>
      obtain ⟨hmem, hkey⟩ := key_of_keyRow hrow
      by_cases hguard : (checked, rrset.label, rrset.type) = (zoneId, [], Label.doeRrType)
      · exact Or.inr ⟨hid, hguard⟩
      · refine Or.inl (h.deleteRrset fun row hother hsame ↦ ?_)
        rw [List.inj_on_of_nodup_map hvalid.ids hother hmem hsame, hkey]
        exact hguard

/-- An operation without its result. -/
theorem ManagementTool.Succeeds.discard {Keys Value Result : Type} {services : Services Keys}
    {program : Prog Value} {leaves : Database → Prop} (h : Succeeds services program db leaves)
    (result : Result) : Succeeds services (program >>= fun _ ↦ pure result) db leaves := by
  refine Meets.bind h (fun value _ hend ↦ ?_) fun _ _ _ _ hok ↦ (nomatch hok)
  exact meets_pure fun _ _ ↦ hend value rfl

section Operations

variable [PacketFormat]

/-- A regeneration puts the guard into the zone. -/
theorem Regenerates.guarded {zoneName : Name} (h : Regenerates zoneName zoneId db db')
    (hrecords : Mgmt.records db zoneId ≠ []) : Guarded db' zoneId := by
  have hdenials := h.denials
  rw [ne_eq, ← recordNames_eq_nil] at hrecords
  obtain ⟨first, rest, hnames⟩ := List.exists_cons_of_ne_nil hrecords
  have hguard : ([], Order.CircularRanges.closing first rest) ∈
      denialChain (Mgmt.recordNames db zoneId) := by
    rw [hnames]
    exact List.mem_append_right _ List.mem_cons_self
  obtain ⟨row, hrow, hdenial⟩ := forall₂_mem_right hdenials hguard
  refine ⟨row, (mem_denials.mp hrow).1, ?_⟩
  rw [RrsetRow.key, hdenial.zoneId, hdenial.label, hdenial.type]

/-! ## Packets -/

/-- The packet in every row is well formed. -/
def WellFormed (db : Database) : Prop := ∀ row ∈ db.rrsets, (PacketFormat.decode row.data).isSome

theorem WellFormed.sublist (h : WellFormed db) (hrows : ∀ row ∈ db'.rrsets, row ∈ db.rrsets) :
    WellFormed db' := fun row hrow ↦ h row (hrows row hrow)

theorem WellFormed.insertRrset (h : WellFormed db) (label : Name) (type version : Component)
    (ttl : ℤ) {data : Block} (hdata : (PacketFormat.decode data).isSome) :
    WellFormed (db.insertRrset zoneId label type version ttl data) := by
  intro row hrow
  rcases List.mem_append.mp hrow with hold | hnew
  · exact h row hold
  · rw [List.mem_singleton.mp hnew]
    exact hdata

theorem WellFormed.updateRrset (h : WellFormed db) (id : ℕ) (ttl : ℤ) (version : Component)
    {data : Block} (hdata : (PacketFormat.decode data).isSome) :
    WellFormed (db.updateRrset id ttl version data) := by
  intro row hrow
  obtain ⟨before, hbefore, rfl⟩ := List.mem_map.mp hrow
  split_ifs
  · exact hdata
  · exact h before hbefore

/-! ## Tables with answers -/

/-- What every query to the created zones can be answered from: well-formed packets, and a guard in
each of the zones. -/
structure Answerable (created : List ZoneRow) (db : Database) : Prop where
  valid : db.Valid
  wellFormed : WellFormed db
  zones : ∀ zone ∈ created, zone ∈ db.zones
  guarded : ∀ zone ∈ created, Guarded db zone.id

namespace Answerable

variable {created : List ZoneRow}

theorem insertZone (h : Answerable created db) {name : Name}
    (hnew : ∀ row ∈ db.zones, row.name ≠ name) (ttl : ℤ) :
    Answerable created (db.insertZone name ttl) where
  valid := h.valid.insertZone ttl hnew
  wellFormed := h.wellFormed
  zones zone hzone := List.mem_append_left _ (h.zones zone hzone)
  guarded := h.guarded

theorem insertZoneInfo (h : Answerable created db) (zoneId : ℤ) (key : String) (value : Block) :
    Answerable created (db.insertZoneInfo zoneId key value) :=
  ⟨h.valid.insertZoneInfo zoneId key value, h.wellFormed, h.zones, h.guarded⟩

theorem insertRrset (h : Answerable created db) {label : Name} {type version : Component}
    (hfree : ∀ row ∈ db.rrsets, row.indexKey ≠ (zoneId, label, type, version)) (ttl : ℤ)
    {data : Block} (hdata : (PacketFormat.decode data).isSome) :
    Answerable created (db.insertRrset zoneId label type version ttl data) where
  valid := h.valid.insertRrset ttl data hfree
  wellFormed := h.wellFormed.insertRrset _ _ _ _ hdata
  zones := h.zones
  guarded zone hzone := (h.guarded zone hzone).mono fun _ hrow ↦ List.mem_append_left _ hrow

theorem opens (h : Answerable created db) {zone stored : Zone} (hopens : Opens db zone stored db') :
    Answerable created db' := by
  rcases hopens with ⟨-, -, rfl⟩ | ⟨-, habsent, -, rfl⟩
  · exact h
  · exact h.insertZone habsent _

end Answerable

/-- Tables that a regeneration of one zone makes answerable. -/
structure Repairable (created : List ZoneRow) (regenerated : ℕ) (db : Database) : Prop where
  wellFormed : WellFormed db
  zones : ∀ zone ∈ created, zone ∈ db.zones
  guarded : ∀ zone ∈ created, zone.id ≠ regenerated → Guarded db zone.id

namespace Repairable

variable {created : List ZoneRow} {regenerated : ℕ}

theorem answerable (h : Repairable created regenerated db) (hvalid : db.Valid)
    (hguarded : ∀ zone ∈ created, zone.id = regenerated → Guarded db zone.id) :
    Answerable created db := by
  refine ⟨hvalid, h.wellFormed, h.zones, fun zone hzone ↦ ?_⟩
  by_cases hid : zone.id = regenerated
  · exact hguarded zone hzone hid
  · exact h.guarded zone hzone hid

/-- The denial records of the zone are replaced by well-formed ones, and no others. -/
theorem appends {zoneName : Name} {chain : List Denial} (h : Repairable created regenerated db)
    (happends : Appends zoneName regenerated chain
      (db.deleteRrsetsByType regenerated Label.doeRrType) db') :
    Repairable created regenerated db' where
  wellFormed row hrow := by
    rcases ManagementTool.mem_of_appends happends hrow with hold | ⟨denial, -, hdenial⟩
    · exact h.wellFormed row (List.mem_of_mem_filter hold)
    · obtain ⟨content, -, -, data, hdecode, -⟩ := hdenial.packet
      exact Option.isSome_of_eq_some hdecode
  zones zone hzone := by
    obtain ⟨rows, -, rfl⟩ := happends
    exact h.zones zone hzone
  guarded zone hzone hne := by
    obtain ⟨rows, -, rfl⟩ := happends
    obtain ⟨row, hrow, hkey⟩ := h.guarded zone hzone hne
    refine ⟨row, List.mem_append_left _ (List.mem_filter.mpr ⟨hrow, ?_⟩), hkey⟩
    rw [Bool.not_eq_true', Bool.eq_false_iff]
    exact fun htype ↦ hne ((congrArg Prod.fst hkey).symm.trans (RrsetRow.hasType_iff.mp htype).1)

/-- With a whole chain comes the guard of the zone. -/
theorem regenerates {zoneName : Name} (h : Repairable created regenerated db)
    (hregenerates : Regenerates zoneName regenerated db db')
    (hrecords : records db' regenerated ≠ []) (hvalid : db'.Valid) : Answerable created db' := by
  rw [hregenerates.records] at hrecords
  exact (h.appends hregenerates).answerable hvalid fun _ _ hid ↦
    hid ▸ hregenerates.guarded hrecords

end Repairable

namespace ManagementTool

variable {Keys : Type} {services : Services Keys} {created : List ZoneRow} {rrset : Rrset}
  {zone : Zone}

/-! ## Additions -/

/-- A record object with a well-formed packet; one with an id is of the zone in the tables that its
zone object names. -/
def Addable (db : Database) (rrset : Rrset) : Prop :=
  (PacketFormat.decode rrset.data).isSome ∧ (rrset.id = 0 ∨ ∀ zone ∈ rrset.zone, zone.Stored db)

/-- When a record is stored, the guard its version check has removed comes back: with the record, or
with the regeneration of its zone. -/
theorem Completed.answerable (h : Completed db zone rrset db') (hdb : Answerable created db)
    (hvalid : db'.Valid) (hdata : (PacketFormat.decode rrset.data).isSome)
    (hobject : rrset.id = 0 ∨ zone.Stored db) : Answerable created db' := by
  cases h with
  | @inserted cleared opened _ stored hnew hcleared hopens hfree hregenerates hrecords =>
      have hwellFormed : WellFormed opened := by
        refine hdb.wellFormed.sublist fun row hrow ↦ hcleared.sublist.subset ?_
        rwa [hopens.rrsets] at hrow
      refine Repairable.regenerates ⟨hwellFormed.insertRrset _ _ _ _ hdata, ?_, ?_⟩ hregenerates
        hrecords hvalid
      · intro other hother
        have hmem := hdb.zones other hother
        rw [← hcleared.zones] at hmem
        rcases hopens with ⟨-, -, rfl⟩ | ⟨-, -, -, rfl⟩
        · exact hmem
        · exact List.mem_append_left _ hmem
      · intro other hother _
        rcases (hdb.guarded other hother).cleared hdb.valid hcleared with hkept | ⟨hne, hkey⟩
        · refine hkept.mono fun row hrow ↦ List.mem_append_left _ ?_
          rwa [hopens.rrsets]
        · rcases hopens with ⟨-, rfl, rfl⟩ | ⟨hzero, -⟩
          · exact ⟨_, List.mem_append_right _ List.mem_cons_self, hkey⟩
          · exact absurd hzero hne
  | @kept cleared _ hknown hid hcleared hregenerates hrecords =>
      have hstored := hobject.resolve_left hknown
      have hlookup : (lookupZone cleared zone).id = zone.id := by
        rw [← lookupZone_id_of_stored hdb.valid hstored hid]
        exact lookupZone_id_congr hcleared.zones rfl
      refine Repairable.regenerates ⟨hdb.wellFormed.sublist fun row hrow ↦
        hcleared.sublist.subset hrow, fun other hother ↦ ?_, fun other hother hne ↦ ?_⟩ hregenerates
        hrecords hvalid
      · rw [hcleared.zones]
        exact hdb.zones other hother
      · refine ((hdb.guarded other hother).cleared hdb.valid hcleared).resolve_right ?_
        rintro ⟨-, hkey⟩
        exact hne ((congrArg Prod.fst hkey).symm.trans hlookup.symm)

theorem answers_store (h : Answerable created db) (hadds : Addable db rrset)
    (hzone : rrset.zone = some zone) :
    Succeeds services (store rrset) db (Answerable created) := by
  refine (Meets.valid (completes_store h.valid hzone) h.valid).weaken ?_
  rintro outcome db' ⟨hcompleted, hvalid⟩ value hvalue
  refine (hcompleted value hvalue).answerable h hvalid hadds.1 (hadds.2.imp_right fun hstored ↦ ?_)
  exact (Zone.Resolves.resolveZone db zone).stored (hstored zone hzone)

/-- A lookup of its zone leaves a record object one that can be added. -/
theorem Addable.resolve (hadds : Addable db rrset) (hzone : rrset.zone = some zone) :
    Addable db { rrset with zone := some (resolveZone db zone) } := by
  refine ⟨hadds.1, hadds.2.imp_right fun hstored other hother ↦ ?_⟩
  obtain rfl := Option.some.inj hother
  exact (Zone.Resolves.resolveZone db zone).stored (hstored zone hzone)

theorem answers_addRrset (h : Answerable created db) (hadds : Addable db rrset) :
    Succeeds services (addRrset rrset) db (Answerable created) := by
  cases hzone : rrset.zone with
  | none => exact (meets_addRrset_unassigned hzone h).weaken fun _ _ hend _ _ ↦ hend
  | some zone =>
      exact meets_addRrset hzone (fun _ _ hok ↦ (nomatch hok)) fun _ ↦
        answers_store h (hadds.resolve hzone) rfl

/-- AUTH records are new ones, of whichever zone the factory is. -/
theorem answers_createAuth {factory : RrsetFactory} {authTtl : ℤ} {prefixes : List Name}
    (h : Answerable created db) (hadds : Addable db rrset) (hzone : rrset.zone = some zone) :
    Meets services AnyChange (createAuth factory authTtl rrset prefixes) db fun outcome db' ↦
      ∀ result, outcome = .ok result → Answerable created db' ∧ Addable db' result ∧
        ∃ zone', result.zone = some zone' := by
  induction prefixes generalizing db rrset zone factory with
  | nil =>
      refine meets_pure fun result hresult ↦ ?_
      cases hresult
      exact ⟨h, hadds, zone, hzone⟩
  | cons labelPrefix rest ih =>
      have hzone' : (nsAt rrset labelPrefix).zone = some zone := hzone
      have hfind : ∀ keys, (DbMgr.findRrset (nsAt rrset labelPrefix)).run (World.handle services)
          ⟨db, keys⟩ = (.ok (pick (nsAt rrset labelPrefix) (resolveZone db zone)
            (keyRow db (resolveZone db zone).id labelPrefix Label.nsRrType)), ⟨db, keys⟩) :=
        fun keys ↦ run_findRrset hzone' ⟨db, keys⟩
      refine meets_known (selects_findRrset _) hfind ?_
      have hresolved := hadds.resolve hzone
      simp only [shareZone_pick]
      split_ifs
      · exact ih h hresolved rfl
      · refine meets_select (selects_of_reads (RrsetFactory.reads_generateRrset _ _ _ _ _ _ _)) ?_
          fun _ _ hok ↦ (nomatch hok)
        intro keys keys' auth hauth
        obtain ⟨-, hauthId, hauthZone, -, -, _, -, -, packet, hdecode, -⟩ :=
          RrsetFactory.returns_generateRrset hauth
        have hinserted : Meets services AnyChange (DbMgr.insertRrset auth) db fun outcome db' ↦
            ∀ inserted, outcome = .ok inserted → Answerable created db' ∧
              Addable db' { rrset with zone := some (resolveZone db zone) } := by
          refine meets_tryInsertRrset hauthId hauthZone (fun _ _ _ _ ↦ trivial) ?_
            (fun _ _ _ _ _ hok ↦ (nomatch hok)) fun _ _ _ hok ↦ (nomatch hok)
          intro stored db' hopens hfree
          refine ⟨trivial, fun _ _ ↦ ⟨(h.opens hopens).insertRrset hfree _
            (Option.isSome_of_eq_some hdecode), hresolved.1, hresolved.2.imp_right ?_⟩⟩
          intro hstored other hother hid
          obtain ⟨row, hrow, hsame⟩ := hstored other hother hid
          refine ⟨row, ?_, hsame⟩
          rcases hopens with ⟨-, -, rfl⟩ | ⟨-, -, -, rfl⟩
          · exact hrow
          · exact List.mem_append_left _ hrow
        refine hinserted.bind (fun inserted db' hend ↦ ?_) fun _ _ _ _ hok ↦ (nomatch hok)
        obtain ⟨hanswerable, haddable⟩ := hend inserted rfl
        exact ih hanswerable haddable rfl

theorem answers_addMultiLevelLabelRrset {factory : RrsetFactory} {authTtl : ℤ}
    (h : Answerable created db) (hadds : Addable db rrset) :
    Succeeds services (addMultiLevelLabelRrset rrset factory authTtl) db (Answerable created) := by
  cases hzone : rrset.zone with
  | none =>
      exact (meets_addMultiLevelLabelRrset_unassigned hzone h).weaken fun _ _ hend _ _ ↦ hend
  | some zone =>
      refine meets_addMultiLevelLabelRrset h.valid hzone (fun _ _ hok ↦ (nomatch hok))
        fun zone' htracks _ _ ↦ ?_
      have hadds' : Addable db { rrset with zone := some zone' } := by
        refine ⟨hadds.1, hadds.2.imp_right fun hstored other hother ↦ ?_⟩
        obtain rfl := Option.some.inj hother
        exact htracks.stored (hstored zone hzone)
      refine (answers_createAuth h hadds' rfl).bind (fun result db' hend ↦ ?_)
        fun _ _ _ _ hok ↦ (nomatch hok)
      obtain ⟨hanswerable, haddable, zone'', hzone''⟩ := hend result rfl
      exact answers_store hanswerable haddable hzone''

theorem answers_addRrsetFromFile {zoneName inputDskCertName : Name} {inFile : String} {ttl : ℤ}
    {needResign : Bool} (h : Answerable created db) :
    Succeeds services (addRrsetFromFile zoneName inFile ttl inputDskCertName needResign) db
      (Answerable created) := by
  refine meets_addRrsetFromFile (fun _ _ hok ↦ (nomatch hok)) ?_
  intro _ _ packet _ _ _ data wire _ re _ _ hresign _
  obtain ⟨hdecode, -⟩ := fromData_of_resign hresign
  exact answers_store h ⟨Option.isSome_of_eq_some hdecode, Or.inl rfl⟩ rfl

/-! ## Removals -/

/-- A removal is followed by the regeneration of the zone of the row. -/
theorem answers_removeRrSet {zoneName label : Name} {type : Component} (h : Answerable created db) :
    Succeeds services (removeRrSet zoneName label type) db (Answerable created) := by
  refine meets_removeRrSet (fun _ _ ↦ h) fun row hid hrow ↦ ⟨trivial, ?_⟩
  have hsame : (lookupZone (db.deleteRrset row.id) (resolveZone db (Zone.named zoneName))).id =
      (resolveZone db (Zone.named zoneName)).id := lookupZone_id_congr rfl (lookupZone_name _ _)
  have hgenerate : Meets services AnyChange (generateDoe (resolveZone db (Zone.named zoneName)))
      (db.deleteRrset row.id) (Rebuilt (resolveZone db (Zone.named zoneName))
        (db.deleteRrset row.id)) := tryMeets_generateDoe fun _ _ _ _ ↦ trivial
  refine (hgenerate.valid (h.valid.filterRrsets _)).weaken ?_
  rintro outcome db' ⟨hend, hvalid⟩ value hvalue
  cases outcome with
  | error fault => cases hvalue
  | ok stored =>
      obtain ⟨rfl, -, hrecords, hregenerates⟩ := hend
      rw [← hregenerates.records] at hrecords
      have hrepairable : Repairable created (lookupZone (db.deleteRrset row.id)
          (resolveZone db (Zone.named zoneName))).id (db.deleteRrset row.id) := by
        refine ⟨h.wellFormed.sublist fun _ ↦ List.mem_of_mem_filter, h.zones,
          fun zone hzone hne ↦ ?_⟩
        obtain ⟨hmem, hkey⟩ := key_of_keyRow hrow
        refine (h.guarded zone hzone).deleteRrset fun other hother hsameId hguard ↦ hne ?_
        rw [List.inj_on_of_nodup_map h.valid.ids hother hmem hsameId, hkey] at hguard
        exact (congrArg Prod.fst hguard).symm.trans hsame.symm
      exact hrepairable.regenerates hregenerates hrecords hvalid

/-! ## Creations -/

/-- The creation of another zone takes no guard away. -/
theorem answers_createZone {zoneName parentZoneName kskCertName dskCertName dkeyCertName : Name}
    {cacheTtl : ℤ} (h : Answerable created db) :
    Meets services AnyChange
      (createZone zoneName parentZoneName cacheTtl kskCertName dskCertName dkeyCertName) db
      fun _ db' ↦ Answerable created db' := by
  refine meets_createZone (fun db' ↦ Answerable created db' ∧ ∃ row ∈ db'.zones,
    row.id = nextRowId (db.zones.map ZoneRow.id) ∧ row.name = zoneName) h ?_
  intro _ _ _ _ kskCert _ _ _ _ dskCert _ _
  refine ⟨h, fun _ hinv ↦ hinv.1, fun _ hinv ↦ hinv.1.valid, fun ttl hnew ↦ ⟨trivial,
    h.insertZone hnew ttl, _, List.mem_append_right _ List.mem_cons_self, rfl, rfl⟩, ?_,
    fun _ _ _ hinv ↦ ⟨trivial, hinv.1.insertZoneInfo _ _ _, hinv.2⟩, ?_⟩
  · intro cert _ db' version ttl data hinv _ hdata habsent
    refine ⟨trivial, hinv.1.insertRrset (fun row hrow hindex ↦
      habsent row hrow (key_of_indexKey hindex)) ttl ?_, hinv.2⟩
    exact Option.isSome_of_eq_some (PacketFormat.decode_of_encode hdata)
  · rintro db' stored ⟨hanswerable, row, hrow, hid, hname⟩ hstoredName
    have hlookup : (lookupZone db' stored).id ≠ 0 →
        (lookupZone db' stored).id = nextRowId (db.zones.map ZoneRow.id) := by
      intro hne
      obtain ⟨found, hfound, hfoundName, hlookup⟩ := lookupZone_id_eq hne
      rw [hlookup, List.inj_on_of_nodup_map hanswerable.valid.zoneNames hfound hrow
        (hfoundName.trans (hstoredName.trans hname.symm)), hid]
    refine ((tryMeets_generateDoe fun _ _ _ _ ↦ trivial).valid hanswerable.valid).weaken ?_
    rintro outcome db'' ⟨hend, hvalid⟩
    rcases hend.rebuilding with rfl | ⟨hne, part, -, happends⟩
    · exact ⟨hanswerable, row, hrow, hid, hname⟩
    · have hzones : db''.zones = db'.zones := by
        obtain ⟨rows, -, rfl⟩ := happends
        rfl
      refine ⟨?_, row, hzones ▸ hrow, hid, hname⟩
      have hrepairable : Repairable created (lookupZone db' stored).id db' :=
        ⟨hanswerable.wellFormed, hanswerable.zones, fun zone hzone _ ↦ hanswerable.guarded zone hzone⟩
      refine (hrepairable.appends happends).answerable hvalid fun zone hzone hsame ↦ ?_
      rw [hlookup hne] at hsame
      exact absurd hsame (Database.ne_nextRowId (h.zones zone hzone))

/-- A creation that returns has put a guard into the new zone. -/
theorem guards_createZone {zoneName parentZoneName kskCertName dskCertName dkeyCertName : Name}
    {cacheTtl : ℤ} {world world' : World Keys} {zone' : Zone} (h : Answerable created world.db)
    (hreturns : (createZone zoneName parentZoneName cacheTtl kskCertName dskCertName
      dkeyCertName).Returns (World.handle services) world zone' world') :
    ∃ row : ZoneRow, row.name = zoneName ∧ Answerable (row :: created) world'.db := by
  have hkept : Answerable created world'.db := by
    have hmeets : Meets services AnyChange (createZone zoneName parentZoneName cacheTtl kskCertName
        dskCertName dkeyCertName) world.db fun _ db' ↦ Answerable created db' := answers_createZone h
    have hrun := hmeets.run world.keys
    rwa [hreturns] at hrun
  obtain ⟨added, middle, rfl, hcreates, hvalid, hgenerate⟩ := returns_createZone h.valid hreturns
  obtain ⟨rfl, hid, hrecords, hregenerates⟩ := returns_generateDoe hgenerate
  obtain ⟨ttl, hzones⟩ := hcreates.zones
  have hrow : (⟨added.id, added.name, ttl⟩ : ZoneRow) ∈ middle.db.zones := by
    rw [hzones]
    exact List.mem_append_right _ List.mem_cons_self
  have hadded : added.id ≠ 0 := hcreates.zoneId_eq ▸ (nextRowId_pos _).ne'
  have hlookup : (lookupZone middle.db added).id = added.id :=
    lookupZone_id_of_stored hvalid (fun _ ↦ ⟨_, hrow, rfl, rfl⟩) hadded
  rw [hlookup] at hrecords hregenerates
  refine ⟨⟨added.id, added.name, ttl⟩, rfl, hkept.valid, hkept.wellFormed, ?_, ?_⟩
  · rw [List.forall_mem_cons]
    exact ⟨hregenerates.zones.1 ▸ hrow, hkept.zones⟩
  · rw [List.forall_mem_cons]
    exact ⟨hregenerates.guarded hrecords, hkept.guarded⟩

end ManagementTool

/-! ## Updates -/

theorem Answerable.updateDatabase {created : List ZoneRow} {server : NameServer}
    {re : Label.MatchResult} {packet : Received} (h : Answerable created db) :
    Answerable created (NameServer.updateDatabase server re packet db).1 := by
  have hdata := Option.isSome_of_eq_some packet.decode_wire
  unfold NameServer.updateDatabase
  cases hrow : keyRow db server.zone.id re.rrLabel re.rrType with
  | none =>
      have habsent := keyRow_eq_none_iff.mp hrow
      exact h.insertRrset (fun row hrow hindex ↦ habsent row hrow (key_of_indexKey hindex)) _ hdata
  | some row =>
      simp only
      split_ifs with hnewer hforbidden
      · exact h
      · exact ⟨h.valid.updateRrset _ _ (Bool.eq_false_iff.mpr hforbidden),
          h.wellFormed.updateRrset _ _ _ hdata, h.zones,
          fun zone hzone ↦ (h.guarded zone hzone).updateRrset _ _ _ _⟩
      · exact h

/-! ## Runs -/

namespace Operation

/-- The operation returns, with any behaviour of the key chain and the other services, and a record
object it is called with can be added. -/
def Returned (before : Database) (operation : Operation) (after : Database) : Prop :=
  (match operation with
    | .addRrset rrset | .addMultiLevelLabelRrset rrset _ _ => ManagementTool.Addable before rrset
    | _ => True) ∧
  ∃ (Keys : Type) (services : Services Keys) (keys keys' : Keys) (value : Bool),
    operation.program.Returns (World.handle services) ⟨before, keys⟩ value ⟨after, keys'⟩

/-- No operation takes the guard away from a created zone. -/
theorem Returned.answerable {created : List ZoneRow} {operation : Operation}
    (h : Returned db operation db') (hdb : Answerable created db) : Answerable created db' := by
  obtain ⟨hadds, Keys, services, keys, keys', value, hreturns⟩ := h
  have hmeets : ManagementTool.Succeeds services operation.program db (Answerable created) := by
    cases operation with
    | createZone zoneName parentZoneName cacheTtl kskCertName dskCertName dkeyCertName =>
        refine ManagementTool.Succeeds.discard ?_ _
        exact (ManagementTool.answers_createZone hdb).weaken fun _ _ hend _ _ ↦ hend
    | addRrset rrset => exact (ManagementTool.answers_addRrset hdb hadds).discard _
    | addMultiLevelLabelRrset rrset zoneRrFactory authTtl =>
        exact (ManagementTool.answers_addMultiLevelLabelRrset hdb hadds).discard _
    | addRrsetFromFile zoneName inFile ttl inputDskCertName needResign =>
        exact (ManagementTool.answers_addRrsetFromFile hdb).discard _
    | removeRrSet zoneName label type => exact (ManagementTool.answers_removeRrSet hdb).discard _
    | doUpdate server interest packet =>
        have hupdate := @meets_doUpdate _ services db _ server interest packet (Answerable created)
          hdb.valid hdb fun _ _ ↦ hdb.updateDatabase
        refine hupdate.bind (fun answer _ hend ↦ ?_) fun _ _ _ _ hok ↦ (nomatch hok)
        cases answer <;> exact meets_pure fun _ _ ↦ hend
  have hend := hmeets.run keys
  rw [hreturns] at hend
  exact hend value rfl

theorem answerable_of_run {created : List ZoneRow}
    (hrun : Relation.ReflTransGen (fun before after ↦ ∃ operation, Returned before operation after)
      db db') (hdb : Answerable created db) : Answerable created db' := by
  induction hrun with
  | refl => exact hdb
  | tail _ hstep ih =>
      obtain ⟨operation, hstep⟩ := hstep
      exact hstep.answerable ih

end Operation

/-! ## Answers -/

/-- With a guard in its zone the server answers every query, whatever its name goes on with. -/
theorem run_onInterest_guarded {Keys : Type} {services : Services Keys} {server : NameServer}
    {interest : Interest} {re : Label.MatchResult} {world : World Keys} (hvalid : world.db.Valid)
    (hwellFormed : WellFormed world.db) (hguarded : Guarded world.db server.zone.id)
    (hsigns : services.SignsByDefault)
    (hmatch : Label.matchInterestName interest.name server.zone.name = .matched re)
    (htype : re.rrType ≠ Label.ndnsUpdateLabel) :
    ∃ answer keys, (onInterest server interest).run (World.handle services) world =
      (.ok (some answer), { world with keys := keys }) := by
  have hdeny : ∃ answer keys, (denyQuery server interest re).run (World.handle services) world =
      (.ok answer, { world with keys := keys }) := by
    cases hrow : lowerBoundRow world.db server.zone.id (re.rrLabel ++ [re.rrType])
        Label.doeRrType with
    | some row =>
        have hid := (hvalid.ids_pos row (lowerBoundRow_eq_some hrow).1.1).ne'
        obtain ⟨answer, _, keys, hrun, -⟩ := run_denyQuery hsigns hrow hid
        exact ⟨answer, keys, hrun⟩
    | none =>
        -- the empty label is below every label and type
        obtain ⟨guard, hguard, hkey⟩ := hguarded
        simp only [RrsetRow.key, Prod.mk.injEq] at hkey
        refine absurd ⟨hkey.1, ?_, hkey.2.2⟩ (lowerBoundRow_eq_none.mp hrow guard hguard)
        obtain ⟨first, others, hname⟩ := List.exists_cons_of_ne_nil
          (List.append_ne_nil_of_right_ne_nil re.rrLabel (List.cons_ne_nil re.rrType []))
        rw [hkey.2.1, hname]
        exact List.nil_lt_cons first others
  have hquery : ∃ answer keys, (handleQuery server interest re).run (World.handle services) world =
      (.ok answer, { world with keys := keys }) := by
    rw [run_handleQuery]
    cases hrow : keyRow world.db server.zone.id re.rrLabel re.rrType with
    | none => exact hdeny
    | some row =>
        simp only
        split_ifs
        · obtain ⟨answer, hdecode⟩ := Option.isSome_iff_exists.mp
            (hwellFormed row (keyRow_eq_some hrow).1)
          exact ⟨answer, world.keys, by rw [hdecode]; rfl⟩
        · exact hdeny
  obtain ⟨answer, keys, hrun⟩ := hquery
  refine ⟨answer, keys, ?_⟩
  unfold onInterest
  rw [hmatch]
  simp only
  rw [if_neg htype, Program.run_map, hrun]

namespace Operation

/-- In a run from an empty database, a zone has a guard from its creation on, and its server answers
every query for it. -/
theorem run_answered {zoneName parentZoneName kskCertName dskCertName dkeyCertName : Name}
    {cacheTtl : ℤ} {before created : Database}
    (hbefore : Relation.ReflTransGen
      (fun before after ↦ ∃ operation, Returned before operation after) Database.empty before)
    (hcreates : Returned before
      (.createZone zoneName parentZoneName cacheTtl kskCertName dskCertName dkeyCertName) created)
    (hafter : Relation.ReflTransGen
      (fun before after ↦ ∃ operation, Returned before operation after) created db) :
    (∃ zone ∈ db.zones, zone.name = zoneName ∧ Guarded db zone.id) ∧
    ∀ {Keys : Type} (services : Services Keys) (server : NameServer) (interest : Interest)
      (rest : Name) (keys : Keys), services.SignsByDefault → Listed db server.zone →
      server.zone.name = zoneName → rest ≠ [] →
      interest.name = zoneName ++ Label.ndnsIterativeQuery :: rest →
      ∃ re, Label.matchInterestName interest.name zoneName = .matched re ∧
        (re.rrType ≠ Label.ndnsUpdateLabel → ∃ answer keys',
          (onInterest server interest).run (World.handle services) ⟨db, keys⟩ =
            (.ok (some answer), ⟨db, keys'⟩)) := by
  have hempty : Answerable [] Database.empty :=
    ⟨Database.valid_empty, fun _ hrow ↦ (nomatch hrow), fun _ hzone ↦ (nomatch hzone),
      fun _ hzone ↦ (nomatch hzone)⟩
  obtain ⟨-, Keys, services, keys, keys', value, hreturns⟩ := hcreates
  obtain ⟨_, _, hcreate, hreturns⟩ := Program.returns_bind.mp hreturns
  obtain ⟨-, rfl⟩ := Program.returns_pure.mp hreturns
  have hstart : Answerable [] (World.mk before keys).db := answerable_of_run hbefore hempty
  obtain ⟨zone, rfl, hcreated⟩ := ManagementTool.guards_createZone hstart hcreate
  have hdb := answerable_of_run hafter hcreated
  have hzone := hdb.zones zone List.mem_cons_self
  have hguarded := hdb.guarded zone List.mem_cons_self
  refine ⟨⟨zone, hzone, rfl, hguarded⟩, ?_⟩
  intro Keys services server interest rest keys hsigns hlisted hserver hrest hname
  obtain ⟨re, hmatch⟩ := @Label.exists_matchInterestName zone.name rest hrest
  rw [← hname] at hmatch
  refine ⟨re, hmatch, fun htype ↦ ?_⟩
  obtain ⟨row, hrow, hid, hrowName⟩ := hlisted
  have hsame : row = zone :=
    List.inj_on_of_nodup_map hdb.valid.zoneNames hrow hzone (hrowName.trans hserver)
  have hworld : Guarded (World.mk db keys).db server.zone.id := by
    rw [← hid, hsame]
    exact hguarded
  rw [← hserver] at hmatch
  exact run_onInterest_guarded hdb.valid hdb.wellFormed hworld hsigns hmatch htype

end Operation

end Operations

section Examples

open LocalServices

attribute [local instance] ndnPacketFormat

/-- A query that goes on with a version only, which leaves the marker as its type. -/
def versionQuery : Interest :=
  ⟨[letter 110, Label.ndnsIterativeQuery, Component.fromVersion 1], true, 4000, []⟩

theorem run_answered_insertion :
    (∃ zone ∈ updatedDatabase.zones, zone.name = [letter 110] ∧ Guarded updatedDatabase zone.id) ∧
    ∃ answer keys', (onInterest netServer versionQuery).run (World.handle localServices)
      ⟨updatedDatabase, 0⟩ = (.ok (some answer), ⟨updatedDatabase, keys'⟩) := by
  have hcreation : Operation.Returned Database.empty creation createdDatabase :=
    ⟨trivial, ℕ, localServices, 0, _, true, Prod.ext rfl rfl⟩
  have hinsertion : Operation.Returned createdDatabase insertion updatedDatabase :=
    ⟨trivial, ℕ, localServices, 0, _, true, Prod.ext rfl rfl⟩
  obtain ⟨hguarded, hanswers⟩ := Operation.run_answered Relation.ReflTransGen.refl hcreation
    (Relation.ReflTransGen.single ⟨insertion, hinsertion⟩)
  refine ⟨hguarded, ?_⟩
  have hlisted : Listed updatedDatabase netServer.zone :=
    ⟨⟨1, [letter 110], 3600⟩, by decide, rfl, rfl⟩
  obtain ⟨re, hmatch, hanswer⟩ := hanswers localServices netServer versionQuery
    [Component.fromVersion 1] 0 (fun _ _ ↦ rfl) hlisted rfl (List.cons_ne_nil _ _) rfl
  refine hanswer ?_
  have hre : Label.MatchOutcome.matched ⟨[Component.fromVersion 1], Label.ndnsIterativeQuery,
      Component.fromVersion 1⟩ = .matched re := hmatch
  cases hre
  decide

end Examples

end Ndns.Mgmt
