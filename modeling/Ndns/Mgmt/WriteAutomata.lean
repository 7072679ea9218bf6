import Ndns.Mgmt.ConvergingUpdates
import Ndns.Mgmt.Regeneration

/-!
# An Addition and an Update, Call by Call

The management tool adds a record, and the name server updates one.  Both look up the row of their
record first, decide by its version, and write in later statements.  Each has an automaton here,
which says what the process has seen when it writes, and its program follows the automaton.
-/

namespace Ndns.Daemon.DbMgr

open Ndn

/-! ## The row of a record -/

/-- The row of the record with a key. -/
def rowAt (db : Database) (key : ℕ × Name × Component) : Option RrsetRow :=
  keyRow db key.1 key.2.1 key.2.2

variable {db : Database} {key other : ℕ × Name × Component}

theorem rowAt_eq_some_iff (hsingle : db.SingleVersion) {row : RrsetRow} :
    rowAt db key = some row ↔ row ∈ db.rrsets ∧ row.key = key := keyRow_eq_some_iff hsingle

theorem rowAt_eq_none_iff : rowAt db key = none ↔ ∀ row ∈ db.rrsets, row.key ≠ key :=
  Mgmt.keyRow_eq_none_iff

theorem rowAt_insertRrset (hnone : rowAt db key = none) (version : Component) (ttl : ℤ)
    (data : Block) : rowAt (db.insertRrset key.1 key.2.1 key.2.2 version ttl data) other =
      if other = key then
        some ⟨nextRowId (db.rrsets.map RrsetRow.id), key.1, key.2.1, key.2.2, version, ttl, data⟩
      else rowAt db other := keyRow_insertRrset_eq hnone version ttl data

/-- A record that has no row yet can be inserted. -/
theorem inserted_of_rowAt_none (hvalid : db.Valid) (hsingle : db.SingleVersion)
    (hnone : rowAt db key = none) (version : Component) (ttl : ℤ) (data : Block) :
    (db.insertRrset key.1 key.2.1 key.2.2 version ttl data).Valid ∧
      (db.insertRrset key.1 key.2.1 key.2.2 version ttl data).SingleVersion := by
  have habsent := rowAt_eq_none_iff.mp hnone
  refine ⟨hvalid.insertRrset ttl data fun row hrow hindex ↦ habsent row hrow ?_,
    hsingle.insertRrset habsent _ _ _⟩
  exact Mgmt.key_of_indexKey hindex

theorem rowAt_updateRrset {row : RrsetRow} (hvalid : db.Valid) (hsingle : db.SingleVersion)
    (hrow : rowAt db key = some row) (ttl : ℤ) (version : Component) (data : Block) :
    rowAt (db.updateRrset row.id ttl version data) other =
      if other = key then some (row.overwrite ttl version data) else rowAt db other :=
  keyRow_updateRrset_eq hvalid hsingle hrow ttl version data

/-- A deletion of the row of a record leaves the rows of the other records. -/
theorem rowAt_deleteRrset {row : RrsetRow} (hvalid : db.Valid) (hsingle : db.SingleVersion)
    (hrow : rowAt db key = some row) :
    rowAt (db.deleteRrset row.id) other = if other = key then none else rowAt db other := by
  obtain ⟨hmem, hkey⟩ := (rowAt_eq_some_iff hsingle).mp hrow
  have hsingle' : (db.deleteRrset row.id).SingleVersion := hsingle.sublist List.filter_sublist
  split_ifs with hsame
  · subst hsame
    rw [rowAt_eq_none_iff]
    intro left hleft hleftKey
    obtain ⟨hold, hid⟩ := List.mem_filter.mp hleft
    rw [List.inj_on_of_nodup_map hsingle hold hmem (hleftKey.trans hkey.symm)] at hid
    simp at hid
  · cases hother : rowAt db other with
    | none =>
        rw [rowAt_eq_none_iff] at hother ⊢
        exact fun left hleft ↦ hother left (List.mem_filter.mp hleft).1
    | some found =>
        obtain ⟨hfound, hfoundKey⟩ := (rowAt_eq_some_iff hsingle).mp hother
        rw [rowAt_eq_some_iff hsingle']
        refine ⟨List.mem_filter.mpr ⟨hfound, decide_eq_true fun hid ↦ hsame ?_⟩, hfoundKey⟩
        rw [← hfoundKey, ← hkey, List.inj_on_of_nodup_map hvalid.ids hfound hmem hid]

/-- A deletion by type leaves the rows of the records of other types. -/
theorem rowAt_deleteRrsetsByType {type : Component} (htype : other.2.2 ≠ type) (zoneId : ℕ) :
    rowAt (db.deleteRrsetsByType zoneId type) other = rowAt db other := by
  have hkeep : ((db.deleteRrsetsByType zoneId type).rrsets.filter fun row ↦
      row.hasKey other.1 other.2.1 other.2.2) =
        db.rrsets.filter fun row ↦ row.hasKey other.1 other.2.1 other.2.2 := by
    rw [Database.deleteRrsetsByType, List.filter_filter]
    refine List.filter_congr fun row _ ↦ ?_
    by_cases hkey : row.hasKey other.1 other.2.1 other.2.2 = true
    · have hrowType : row.type ≠ type := (RrsetRow.hasKey_iff.mp hkey).2.2 ▸ htype
      simp [hkey, RrsetRow.hasType, hrowType]
    · simp [hkey]
  rw [rowAt, rowAt, keyRow, keyRow, Database.selectRrset, Database.selectRrset, hkeep]

end Ndns.Daemon.DbMgr

namespace Ndns.Mgmt

open Ndn Calls Daemon DbMgr Order.CircularRanges

/-! ## An addition -/

/-- Where an addition is: before the lookup of its record, turned away by it, with the older row it
has found, with the row deleted, or after the insertion. -/
inductive AdditionPhase where
  | checking
  | turnedAway
  | judged (found : Option RrsetRow)
  | emptied
  | regenerating (phase : RegenerationPhase)

section Writers

variable [PacketFormat]

/-- The calls of an addition. -/
inductive AdditionMove (zoneName : Name) (key : ℕ × Name × Component) (version : Component)
    (db : Database) : AdditionPhase → Call → AdditionPhase → Prop
  | read {request : Call} (hreads : request.Reads) :
      AdditionMove zoneName key version db .checking request .checking
  -- the lookup of an AUTH record
  | glance : AdditionMove zoneName key version db .checking
      (.sql (.selectRrset key.1 key.2.1 Label.nsRrType)) .checking
  | look {found : Option RrsetRow} (hfound : rowAt db key = found)
      (holder : ∀ row ∈ found, row.version < version) :
      AdditionMove zoneName key version db .checking
        (.sql (.selectRrset key.1 key.2.1 key.2.2)) (.judged found)
  | turn : AdditionMove zoneName key version db .checking
      (.sql (.selectRrset key.1 key.2.1 key.2.2)) .turnedAway
  | delete {row : RrsetRow} : AdditionMove zoneName key version db (.judged (some row))
      (.sql (.deleteRrset row.id)) .emptied
  | insert {phase : AdditionPhase} {ttl : ℤ} {data : Block}
      (hphase : phase = .judged none ∨ phase = .emptied)
      (hfree : ¬ db.rrsets.any fun row ↦ row.sameIndex key.1 key.2.1 key.2.2 version) :
      AdditionMove zoneName key version db phase
        (.sql (.insertRrset key.1 key.2.1 key.2.2 version ttl data)) (.regenerating .waiting)
  | refuse {phase : AdditionPhase} {ttl : ℤ} {data : Block}
      (hphase : phase = .judged none ∨ phase = .emptied)
      (hconflict : db.rrsets.any fun row ↦ row.sameIndex key.1 key.2.1 key.2.2 version) :
      AdditionMove zoneName key version db phase
        (.sql (.insertRrset key.1 key.2.1 key.2.2 version ttl data)) .turnedAway
  | regenerate {phase phase' : RegenerationPhase} {request : Call}
      (hmove : RegenerationMove zoneName key.1 db phase request phase') :
      AdditionMove zoneName key version db (.regenerating phase) request (.regenerating phase')

/-- The automaton of an addition to a zone that the given tables list. -/
def adding {Tool Server : Type} (zoneName : Name) (key : ℕ × Name × Component) (version : Component)
    (zones : List ZoneRow) : Automaton Call AdditionPhase (Shared Tool Server) where
  holds phase shared := shared.db.zones = zones ∧ (∀ row ∈ shared.db.rrsets, row.id ≠ 0) ∧
    (phase = .regenerating .cleared → denials shared.db key.1 = [])
  moves phase request shared phase' :=
    AdditionMove zoneName key version shared.db phase request phase'

/-- An addition does not end between its lookup and its last write, and returns after it only. -/
def AdditionEnds : AdditionPhase → Except Fault Unit → Prop
  | .regenerating _, _ => True
  | .checking, .error _ | .turnedAway, .error _ => True
  | _, _ => False

/-! ## An update -/

/-- Where an update is: before the lookup of its record, turned away by it, with the older row it
has found, or after its write. -/
inductive UpdatePhase where
  | asked
  | turnedAway
  | judged (found : Option RrsetRow)
  | written

/-- The calls of an update. -/
inductive UpdateMove (key : ℕ × Name × Component) (version : Component) (db : Database) :
    UpdatePhase → Call → UpdatePhase → Prop
  | request {phase : UpdatePhase} {request : Service} (hphase : ∀ found, phase ≠ .judged found) :
      UpdateMove key version db phase (.service request) phase
  | look {found : Option RrsetRow} (hfound : rowAt db key = found)
      (holder : ∀ row ∈ found, row.version < version) :
      UpdateMove key version db .asked (.sql (.selectRrset key.1 key.2.1 key.2.2)) (.judged found)
  | turn : UpdateMove key version db .asked (.sql (.selectRrset key.1 key.2.1 key.2.2)) .turnedAway
  | update {row : RrsetRow} {ttl : ℤ} {data : Block} :
      UpdateMove key version db (.judged (some row)) (.sql (.updateRrset row.id ttl version data))
        .written
  | insert {ttl : ℤ} {data : Block}
      (hfree : ¬ db.rrsets.any fun row ↦ row.sameIndex key.1 key.2.1 key.2.2 version) :
      UpdateMove key version db (.judged none)
        (.sql (.insertRrset key.1 key.2.1 key.2.2 version ttl data)) .written
  | refuse {ttl : ℤ} {data : Block}
      (hconflict : db.rrsets.any fun row ↦ row.sameIndex key.1 key.2.1 key.2.2 version) :
      UpdateMove key version db (.judged none)
        (.sql (.insertRrset key.1 key.2.1 key.2.2 version ttl data)) .turnedAway

/-- The automaton of an update. -/
def updating {Tool Server : Type} (key : ℕ × Name × Component) (version : Component) :
    Automaton Call UpdatePhase (Shared Tool Server) where
  holds _ shared := ∀ row ∈ shared.db.rrsets, row.id ≠ 0
  moves phase request shared phase' := UpdateMove key version shared.db phase request phase'

/-- An update does not end between its lookup and its write, and reports success after it only. -/
def UpdateEnds : UpdatePhase → Except Fault (Option Data) → Prop
  | .written, _ => True
  | .judged _, _ => False
  | _, .ok (some answer) => answer.content ≠ NameServer.updateContent .updateOk
  | _, _ => True

/-! ## The programs -/

section Programs

variable {Tool Server : Type} {handle : Handler Call.Answer (Shared Tool Server)}
  {rrset : Rrset} {zone : Zone} {db : Database}

namespace ManagementTool

/-- The check for an AUTH record happens before the lookup of the record. -/
theorem follows_refuse (hexecutes : Shared.Executes handle) (hzone : rrset.zone = some zone)
    (hid : (resolveZone db zone).id ≠ 0) (zoneName : Name) (fault : Fault) :
    (refuse { rrset with type := Label.nsRrType } .auth fault).Follows handle
      (adding zoneName ((resolveZone db zone).id, rrset.label, rrset.type) rrset.version db.zones)
      (fun phase result ↦ phase = .checking ∧
        ∀ copy, result = .ok copy → copy.zone = some (resolveZone db zone)) .checking := by
  have hns : ({ rrset with type := Label.nsRrType } : Rrset).zone = some zone := hzone
  apply Program.Follows.bind
  refine follows_findRrset hexecutes hns (fun _ hholds ↦ hholds.1) (fun _ _ hreads ↦ .read hreads)
    (fun _ ↦ ⟨rfl, by rintro copy ⟨⟩⟩) hid fun shared _ ↦ ⟨.checking, .glance, ?_⟩
  simp only [pick, if_neg hid]
  cases keyRow shared.db (resolveZone db zone).id rrset.label Label.nsRrType with
  | none => exact ⟨rfl, fun copy hcopy ↦ by cases hcopy; rfl⟩
  | some row =>
      by_cases hrow : row.id = 0
      · simp only [hrow, ne_eq, not_true_eq_false, decide_false]
        exact ⟨rfl, fun copy hcopy ↦ by cases hcopy; rfl⟩
      · simp only [hrow, ne_eq, not_false_eq_true, decide_true]
        change Program.Follows _ _ _ (orThrow (PacketFormat.decode row.data) _ >>= _) _
        cases PacketFormat.decode row.data with
        | none => exact ⟨rfl, by rintro copy ⟨⟩⟩
        | some packet =>
            change Program.Follows _ _ _ (require _ _ >>= _) _
            rw [require]
            split_ifs
            · exact ⟨rfl, by rintro copy ⟨⟩⟩
            · exact ⟨rfl, fun copy hcopy ↦ by cases hcopy; rfl⟩

/-- How the version check ends: turned away, or before the insertion of the record. -/
def Checks (rrset : Rrset) (phase : AdditionPhase) : Except Fault Rrset → Prop
  | .ok checked => (phase = .judged none ∨ phase = .emptied) ∧ checked = rrset
  | .error _ => phase = .turnedAway

theorem follows_checkRrsetVersion (hexecutes : Shared.Executes handle)
    (hzone : rrset.zone = some zone) (hid : zone.id ≠ 0) (zoneName : Name) :
    (checkRrsetVersion rrset).Follows handle
      (adding zoneName (zone.id, rrset.label, rrset.type) rrset.version db.zones)
      (Checks rrset) .checking := by
  have hsame : { rrset with zone := some zone } = rrset := by rw [← hzone]
  apply Program.Follows.bind
  apply follows_of_statement (atomic_findRrset hzone hid) hexecutes
  intro shared hholds
  rw [run_findRrset hzone, resolveZone, if_neg hid]
  simp only [pick, if_neg hid]
  cases hrow : keyRow shared.db zone.id rrset.label rrset.type with
  | none =>
      exact ⟨.judged none, .look hrow fun _ hmem ↦ absurd hmem (Option.not_mem_none _), Or.inl rfl,
        hsame⟩
  | some row =>
      have hrowId : row.id ≠ 0 := hholds.2.1 row (keyRow_eq_some hrow).1
      simp only [hrowId, ne_eq, not_false_eq_true, decide_true]
      by_cases holder : row.version < rrset.version
      · refine ⟨.judged (some row), .look hrow (fun found hfound ↦ ?_), ?_⟩
        · obtain rfl := Option.some.inj hfound
          exact holder
        · change Program.Follows _ _ _ (require (row.version ≠ rrset.version) _ >>= fun _ ↦
            require (row.version < rrset.version) _ >>= _) _
          rw [require, if_pos holder.ne, Program.pure_bind, require, if_pos holder,
            Program.pure_bind]
          apply Program.Follows.bind
          apply follows_of_statement (atomic_removeRrset hrowId) hexecutes
          intro shared _
          refine ⟨.emptied, .delete, ?_⟩
          rw [run_removeRrset hrowId]
          exact ⟨Or.inr rfl, hsame⟩
      · refine ⟨.turnedAway, .turn, ?_⟩
        change Program.Follows _ _ _ (require (row.version ≠ rrset.version) _ >>= fun _ ↦
          require (row.version < rrset.version) _ >>= _) _
        rw [require]
        split_ifs
        · rw [Program.pure_bind, require, if_neg holder]
          exact (rfl : _ = _)
        · exact (rfl : _ = _)

/-- What an addition does after its check. -/
theorem follows_store (hexecutes : Shared.Executes handle) (hnew : rrset.id = 0)
    (hzone : rrset.zone = some zone) (hid : zone.id ≠ 0)
    (hlookup : (lookupZone db zone).id = zone.id) :
    (store rrset).Follows handle
      (adding zone.name (zone.id, rrset.label, rrset.type) rrset.version db.zones)
      AdditionEnds .checking := by
  apply Program.Follows.bind
  apply (follows_checkRrsetVersion hexecutes hzone hid zone.name).mono
  intro phase result hchecks
  cases result with
  | error fault =>
      obtain rfl : phase = .turnedAway := hchecks
      trivial
  | ok checked =>
      have hphase := hchecks.1
      obtain rfl : rrset = checked := hchecks.2.symm
      apply Program.Follows.bind
      apply follows_of_statement (atomic_insertRrset hnew hzone hid) hexecutes
      intro shared _
      rw [run_insertRrset hnew hzone (Nat.pos_of_ne_zero hid)]
      by_cases hconflict : shared.db.rrsets.any fun row ↦
          row.sameIndex zone.id rrset.label rrset.type rrset.version
      · rw [if_pos hconflict]
        exact ⟨.turnedAway, .refuse hphase hconflict, trivial⟩
      · rw [if_neg hconflict]
        refine ⟨.regenerating .waiting, .insert hphase hconflict, ?_⟩
        simp only [Program.AndThen, hzone]
        apply Program.Follows.bind
        have hregenerates := @follows_generateDoe _ _ _ handle hexecutes db zone
        rw [hlookup] at hregenerates
        have hmoves : ∀ phase request shared phase',
            (regeneration zone.name zone.id db.zones).moves phase request shared phase' →
            (adding zone.name (zone.id, rrset.label, rrset.type) rrset.version db.zones).moves
              (.regenerating phase) request (shared : Shared Tool Server) (.regenerating phase') :=
          fun _ _ _ _ hmove ↦ .regenerate hmove
        refine Program.Follows.embed ?_ hmoves (fun phase result _ ↦ ?_) hregenerates
        · exact fun phase shared hholds ↦
            ⟨hholds.1, fun hcleared ↦ hholds.2.2 (congrArg _ hcleared)⟩
        · cases result with
          | ok value => trivial
          | error fault => trivial

/-- An addition of a new record object follows its automaton. -/
theorem follows_addRrset (hexecutes : Shared.Executes handle) (hnew : rrset.id = 0)
    (hzone : rrset.zone = some zone) (hid : (resolveZone db zone).id ≠ 0)
    (hlookup : (lookupZone db zone).id = (resolveZone db zone).id) :
    (addRrset rrset).Follows handle
      (adding zone.name ((resolveZone db zone).id, rrset.label, rrset.type) rrset.version db.zones)
      AdditionEnds .checking := by
  apply Program.Follows.bind
  apply (follows_refuse hexecutes hzone hid zone.name _).mono
  rintro phase result ⟨rfl, hcopy⟩
  cases result with
  | error fault => trivial
  | ok copy =>
      have hresolved : (rrset.shareZone copy).zone = some (resolveZone db zone) := hcopy copy rfl
      have hname : (resolveZone db zone).name = zone.name := resolveZone_name db zone
      have hsame : (lookupZone db (resolveZone db zone)).id = (resolveZone db zone).id :=
        (lookupZone_id_congr rfl hname).trans hlookup
      have hstore := @follows_store _ _ _ handle (rrset.shareZone copy) _ db hexecutes hnew
        hresolved hid hsame
      rw [hname] at hstore
      exact hstore

end ManagementTool

section Update

open NameServer

variable {server : NameServer} {interest : Interest}
  {packet : Received} {re : Label.MatchResult}

/-- The code that `applyUpdate` ends with, once its exceptions are turned into a failure. -/
def Applies (phase : UpdatePhase) : Except Fault UpdateReturnCode → Prop
  | .ok code => phase = .written ∨ phase = .turnedAway ∧ code = .updateFailure
  | .error _ => False

/-- The lookup and the write of an update. -/
theorem follows_applyUpdate (hexecutes : Shared.Executes handle) :
    ((applyUpdate server re packet).tryCatch fun _ ↦ pure .updateFailure).Follows handle
      (updating (server.zone.id, re.rrLabel, re.rrType) re.version) Applies .asked := by
  have hid : server.zone.id ≠ 0 := server.zone_found.ne'
  apply Program.Follows.tryCatch
  apply Program.Follows.bind
  apply follows_of_statement (atomic_findRrset rfl hid) hexecutes
  intro shared hholds
  rw [run_findRrset rfl, resolveZone, if_neg hid]
  simp only [Rrset.keyed, pick, if_neg hid]
  cases hrow : keyRow shared.db server.zone.id re.rrLabel re.rrType with
  | none =>
      refine ⟨.judged none, .look hrow fun _ hmem ↦ absurd hmem (Option.not_mem_none _), ?_⟩
      apply Program.Follows.bind
      apply follows_of_statement (atomic_insertRrset rfl rfl hid) hexecutes
      intro shared _
      rw [run_insertRrset rfl rfl server.zone_found]
      by_cases hconflict : shared.db.rrsets.any fun row ↦
          row.sameIndex server.zone.id re.rrLabel re.rrType re.version
      · rw [if_pos hconflict]
        exact ⟨.turnedAway, .refuse hconflict, Or.inr ⟨rfl, rfl⟩⟩
      · rw [if_neg hconflict]
        exact ⟨.written, .insert hconflict, Or.inl rfl⟩
  | some row =>
      have hrowId : row.id ≠ 0 := hholds row (keyRow_eq_some hrow).1
      simp only [hrowId, ne_eq, not_false_eq_true, decide_true]
      by_cases holder : row.version < re.version
      · refine ⟨.judged (some row), .look hrow (fun found hfound ↦ ?_), ?_⟩
        · obtain rfl := Option.some.inj hfound
          exact holder
        · change Program.Follows _ _ _ (replaceRecord _ _ _) _
          unfold replaceRecord
          split_ifs with hnewer
          · apply Program.Follows.bind
            apply follows_of_statement (atomic_updateRrset hrowId (Option.some_ne_none _)) hexecutes
            intro shared _
            refine ⟨.written, .update, ?_⟩
            rw [run_updateRrset hrowId (Option.some_ne_none _)]
            exact Or.inl rfl
          · exact absurd holder hnewer
      · refine ⟨.turnedAway, .turn, ?_⟩
        change Program.Follows _ _ _ (replaceRecord _ _ _) _
        unfold replaceRecord
        split_ifs with hnewer
        · exact absurd hnewer holder
        · exact Or.inr ⟨rfl, rfl⟩

omit [PacketFormat] in
theorem follows_signed {key : ℕ × Name × Component} {version : Component} {phase : UpdatePhase}
    (hphase : ∀ found, phase ≠ .judged found) (signer : Signer) (answer : Data) :
    (signed signer answer).Follows handle (updating key version) (fun phase' result ↦
      phase' = phase ∧ ∀ packet, result = .ok packet → packet.content = answer.content) phase := by
  intro shared _
  refine ⟨phase, .request hphase, ?_⟩
  change Program.Follows _ _ _
    (orThrow (handle (.service (.sign signer answer)) shared).1 _ >>= _) _
  cases (handle (.service (.sign signer answer)) shared).1 with
  | none => exact ⟨rfl, by rintro packet ⟨⟩⟩
  | some signature => exact ⟨rfl, fun packet hpacket ↦ by cases hpacket; rfl⟩

/-- An update of a packet whose name matches follows its automaton. -/
theorem follows_doUpdate (hexecutes : Shared.Executes handle)
    (hmatch : Label.matchDataName packet.data.name server.zone.name = .matched re) :
    (doUpdate server interest packet).Follows handle
      (updating (server.zone.id, re.rrLabel, re.rrType) re.version) UpdateEnds .asked := by
  unfold doUpdate
  rw [hmatch]
  apply Program.Follows.bind
  intro shared _
  refine ⟨.asked, .request (by rintro found ⟨⟩), ?_⟩
  change Program.Follows _ _ _ (Program.tryCatch _ _ >>= _) _
  apply Program.Follows.bind
  apply (follows_applyUpdate hexecutes).mono
  intro phase result happlies
  cases result with
  | error fault => exact happlies.elim
  | ok code =>
      have hphase : ∀ found, phase ≠ .judged found := by
        rintro found rfl
        rcases happlies with h | h
        · cases h
        · cases h.1
      apply Program.Follows.bind
      apply (follows_signed hphase _ _).mono
      rintro phase' result ⟨rfl, hcontent⟩
      cases result with
      | error fault =>
          rcases happlies with rfl | ⟨rfl, -⟩
          · trivial
          · trivial
      | ok answer =>
          rcases happlies with rfl | ⟨rfl, rfl⟩
          · trivial
          · intro hsame
            rw [hcontent answer rfl] at hsame
            cases updateContent_injective hsame

end Update

end Programs

end Writers

end Ndns.Mgmt
