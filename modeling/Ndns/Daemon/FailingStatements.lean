import Ndns.Daemon.UpdateIntegrity

/-!
# Updates on a Database That Fails

A statement can fail before it runs or while it runs, for example when the file is read-only or
locked by another process; either way the tables stay as they are.  `find` takes a failing SELECT
for a missing row, and `update` does not look at the result of its statement, so two combinations
of failures make the server acknowledge an update that the tables do not show.
-/

namespace Ndns.Daemon

open Ndn Calls

/-! ## Statements that fail -/

/-- Where a statement fails: in `sqlite3_prepare_v2` or in its first `sqlite3_step`. -/
inductive Trouble where
  | prepare
  | step
deriving DecidableEq

def Trouble.selected {Row : Type} : Trouble → Selected Row
  | .prepare => .prepareError
  | .step => .stepped [] false

def Trouble.written : Trouble → Written
  | .prepare => .prepareError
  | .step => .stepError

/-- What a program sees of a statement that fails. -/
def Sql.failure (trouble : Trouble) : (statement : Sql) → statement.Answer
  | .selectZoneInfo _ => trouble.selected
  | .selectZone _ => trouble.selected
  | .selectZones => trouble.selected
  | .selectRrset _ _ _ => trouble.selected
  | .selectLowerBound _ _ _ => trouble.selected
  | .selectRrsets _ => trouble.selected
  | .insertZone _ _ => trouble.written
  | .insertZoneInfo _ _ _ => trouble.written
  | .deleteZone _ => trouble.written
  | .insertRrset _ _ _ _ _ _ => trouble.written
  | .deleteRrsetsByType _ _ => trouble.written
  | .deleteRrset _ => trouble.written
  | .updateRrset _ _ _ _ => trouble.written
  | .clearAllData => trouble.written

/-- A world, and what will go wrong with its next statement, the one after it, and so on. -/
structure Troubled (Keys : Type) where
  world : World Keys
  troubles : ℕ → Option Trouble

namespace Troubled

variable {Keys : Type}

/-- What a program sees of a statement. -/
def answer (state : Troubled Keys) (statement : Sql) : statement.Answer :=
  match state.troubles 0 with
  | some trouble => statement.failure trouble
  | none => (statement.execute state.world.db).1

/-- The state after a statement; one that fails leaves the tables as they are. -/
def after (state : Troubled Keys) (statement : Sql) : Troubled Keys :=
  ⟨⟨match state.troubles 0 with
      | some _ => state.world.db
      | none => (statement.execute state.world.db).2, state.world.keys⟩,
    fun index ↦ state.troubles (index + 1)⟩

/-- Services work as ever. -/
def handle (services : Services Keys) : Handler Call.Answer (Troubled Keys)
  | .sql statement, state => (state.answer statement, state.after statement)
  | .service request, state =>
      ((World.handle services (.service request) state.world).1,
        ⟨(World.handle services (.service request) state.world).2, state.troubles⟩)

variable {services : Services Keys}

@[simp]
theorem run_sql (statement : Sql) (state : Troubled Keys) :
    @Program.run Call Call.Answer Fault (no_index statement.Answer) (Troubled Keys)
        (handle services) (sql statement) state =
      (.ok (state.answer statement), state.after statement) := rfl

@[simp]
theorem run_service (request : Service) (state : Troubled Keys) :
    @Program.run Call Call.Answer Fault (no_index request.Answer) (Troubled Keys)
        (handle services) (service request) state =
      (.ok (services.answer request state.world.keys).1,
        ⟨{ state.world with keys := (services.answer request state.world.keys).2 },
          state.troubles⟩) := rfl

end Troubled

namespace NameServer

variable {Keys : Type} {services : Services Keys} {server : NameServer} {re : Label.MatchResult}
  {state state' : Troubled Keys}

theorem not_forbidsUpdate {db : Database} (hvalid : db.Valid) (hsingle : db.SingleVersion) {row : RrsetRow}
    (hrow : row ∈ db.rrsets) {version : Component} (hnewer : row.version < version) :
    db.forbidsUpdate row.id version = false := by
  by_contra hforbids
  obtain ⟨other, hother, hindex⟩ :=
    (Database.forbidsUpdate_iff hvalid hrow hnewer).mp (Bool.eq_true_of_not_eq_false hforbids)
  simp only [RrsetRow.indexKey, Prod.mk.injEq] at hindex
  have hkey : other.key = row.key := by
    simp only [RrsetRow.key, hindex.1, hindex.2.1, hindex.2.2.1]
  rw [List.inj_on_of_nodup_map hsingle hother hrow hkey] at hindex
  exact hnewer.ne hindex.2.2.2

theorem updateContent_injective : Function.Injective updateContent := by
  intro left right
  cases left <;> cases right <;> decide

theorem returns_answerName_troubled {interest : Interest} {name : Name}
    (h : (answerName interest).Returns (Troubled.handle services) state name state') :
    state'.world.db = state.world.db ∧ state'.troubles = state.troubles := by
  obtain ⟨_, _, hnow, hpure⟩ := Program.returns_bind.mp h
  obtain ⟨-, rfl⟩ := Program.returns_pure.mp hpure
  obtain ⟨-, rfl⟩ := Prod.mk.inj hnow
  exact ⟨rfl, rfl⟩

theorem returns_signed_troubled {signer : Signer} {packet answer : Data}
    (h : (signed signer packet).Returns (Troubled.handle services) state answer state') :
    answer.content = packet.content ∧ state'.world.db = state.world.db := by
  obtain ⟨signature, _, hsign, h⟩ := Program.returns_bind.mp h
  obtain ⟨-, rfl⟩ := Prod.mk.inj hsign
  obtain ⟨_, _, horThrow, hpure⟩ := Program.returns_bind.mp h
  obtain ⟨rfl, rfl⟩ := Program.returns_pure.mp hpure
  cases signature with
  | none => cases horThrow
  | some value =>
      obtain ⟨-, rfl⟩ := Prod.mk.inj horThrow
      exact ⟨rfl, rfl⟩

/-- The record object after the lookup of an update; no row is found when the statement fails. -/
def troubledFind (server : NameServer) (re : Label.MatchResult) (db : Database) :
    Option Trouble → Except Fault (Bool × Rrset)
  | some .prepare => .error .dbMgrPrepareError
  | some .step => .ok (DbMgr.pick (Rrset.keyed server.zone re.rrLabel re.rrType) server.zone none)
  | none => .ok (DbMgr.pick (Rrset.keyed server.zone re.rrLabel re.rrType) server.zone
      (DbMgr.keyRow db server.zone.id re.rrLabel re.rrType))

theorem run_troubledFind (state : Troubled Keys) :
    ∃ troubles, (DbMgr.findRrset (Rrset.keyed server.zone re.rrLabel re.rrType)).run
        (Troubled.handle services) state =
      (troubledFind server re state.world.db (state.troubles 0), ⟨state.world, troubles⟩) ∧
        troubles 0 = state.troubles 1 := by
  refine ⟨fun index ↦ state.troubles (index + 1), ?_, rfl⟩
  have hid : server.zone.id ≠ 0 := server.zone_found.ne'
  unfold DbMgr.findRrset DbMgr.findWith DbMgr.findNewZone troubledFind DbMgr.pick DbMgr.keyRow
  simp only [Rrset.keyed, if_neg hid, Program.pure_bind, Program.run_bind, Troubled.run_sql,
    Troubled.answer, Troubled.after]
  rcases state.troubles 0 with _ | _ | _
  · simp only [Sql.execute]
    cases (state.world.db.selectRrset server.zone.id re.rrLabel re.rrType).head? <;> rfl
  · rfl
  · rfl

variable [PacketFormat] {packet : Received}

/-- The insertion of a new record, as far as its statement goes well. -/
def troubledInsert (server : NameServer) (re : Label.MatchResult) (packet : Received)
    (db : Database) : Option Trouble → Database × UpdateReturnCode
  | some _ => (db, .updateFailure)
  | none =>
      if db.rrsets.any fun row ↦ row.sameIndex server.zone.id re.rrLabel re.rrType re.version then
        (db, .updateFailure)
      else
        (db.insertRrset server.zone.id re.rrLabel re.rrType re.version server.zone.ttl packet.wire,
          .updateOk)

/-- The replacement of a stored record, as far as its statement goes well. -/
def troubledReplace (re : Label.MatchResult) (packet : Received) (db : Database) (row : RrsetRow)
    (second : Option Trouble) : Database × UpdateReturnCode :=
  if row.version < re.version then
    match second with
    | some .prepare => (db, .updateFailure)
    | some .step => (db, .updateOk)
    | none =>
        (if db.forbidsUpdate row.id re.version then db
          else db.updateRrset row.id row.ttl re.version packet.wire, .updateOk)
  else (db, .updateFailure)

/-- The tables and the return code after an update, when its first and its second statement go as
given. -/
def troubledUpdate (server : NameServer) (re : Label.MatchResult) (packet : Received)
    (db : Database) (first second : Option Trouble) : Database × UpdateReturnCode :=
  match first with
  | some .prepare => (db, .updateFailure)
  | some .step => troubledInsert server re packet db second
  | none =>
      match DbMgr.keyRow db server.zone.id re.rrLabel re.rrType with
      | some row => troubledReplace re packet db row second
      | none => troubledInsert server re packet db second

theorem run_troubledInsert {rrset : Rrset} (hid : rrset.id = 0)
    (hzone : rrset.zone = some server.zone) (hlabel : rrset.label = re.rrLabel)
    (htype : rrset.type = re.rrType) (state : Troubled Keys) :
    ∃ troubles, ((insertRecord server rrset re.version packet.wire).tryCatch
        fun _ ↦ pure .updateFailure).run (Troubled.handle services) state =
      (.ok (troubledInsert server re packet state.world.db (state.troubles 0)).2,
        ⟨⟨(troubledInsert server re packet state.world.db (state.troubles 0)).1,
          state.world.keys⟩, troubles⟩) := by
  obtain ⟨id, zone, label, type, version, ttl, data⟩ := rrset
  simp only at hid hzone hlabel htype
  subst hid hzone hlabel htype
  refine ⟨fun index ↦ state.troubles (index + 1), ?_⟩
  unfold insertRecord DbMgr.insertRrset DbMgr.insertZone
  simp only [ne_eq, not_true_eq_false, if_false, if_pos server.zone_found,
    Program.pure_bind, Program.run_tryCatch, Program.run_bind, Troubled.run_sql, Troubled.answer,
    Troubled.after, troubledInsert]
  rcases state.troubles 0 with _ | _ | _
  · simp only [Sql.execute]
    split_ifs <;> rfl
  · rfl
  · rfl

theorem run_troubledReplace {rrset : Rrset} (hid : rrset.id ≠ 0) (hzone : rrset.zone ≠ none)
    {row : RrsetRow} (hrow : rrset.id = row.id ∧ rrset.version = row.version ∧ rrset.ttl = row.ttl)
    (state : Troubled Keys) :
    ∃ troubles, ((replaceRecord rrset re.version packet.wire).tryCatch
        fun _ ↦ pure .updateFailure).run (Troubled.handle services) state =
      (.ok (troubledReplace re packet state.world.db row (state.troubles 0)).2,
        ⟨⟨(troubledReplace re packet state.world.db row (state.troubles 0)).1,
          state.world.keys⟩, troubles⟩) := by
  obtain ⟨id, zone, label, type, version, ttl, data⟩ := rrset
  simp only at hid hzone hrow
  obtain ⟨rfl, rfl, rfl⟩ := hrow
  unfold replaceRecord troubledReplace DbMgr.updateRrset
  by_cases hnewer : row.version < re.version
  · refine ⟨fun index ↦ state.troubles (index + 1), ?_⟩
    simp only [if_pos hnewer, if_neg hid, if_neg hzone, Program.run_tryCatch, Program.run_bind,
      Troubled.run_sql, Troubled.answer, Troubled.after]
    rcases state.troubles 0 with _ | _ | _
    · simp only [Sql.execute]
      split_ifs <;> rfl
    · rfl
    · rfl
  · refine ⟨state.troubles, ?_⟩
    simp only [if_neg hnewer]
    rfl

/-- `doUpdate` catches every exception of its statements. -/
theorem run_troubledUpdate (hids : ∀ row ∈ state.world.db.rrsets, 0 < row.id) :
    ∃ troubles, ((applyUpdate server re packet).tryCatch fun _ ↦ pure .updateFailure).run
        (Troubled.handle services) state =
      (.ok (troubledUpdate server re packet state.world.db (state.troubles 0) (state.troubles 1)).2,
        ⟨⟨(troubledUpdate server re packet state.world.db (state.troubles 0) (state.troubles 1)).1,
          state.world.keys⟩, troubles⟩) := by
  obtain ⟨troubles, hfind, hsecond⟩ := @run_troubledFind _ services server re state
  have hrest : ∀ {found rrset}, troubledFind server re state.world.db (state.troubles 0) =
      .ok (found, rrset) →
      ((applyUpdate server re packet).tryCatch fun _ ↦ pure .updateFailure).run
          (Troubled.handle services) state =
        ((if found then replaceRecord rrset re.version packet.wire
          else insertRecord server rrset re.version packet.wire).tryCatch
            fun _ ↦ pure .updateFailure).run (Troubled.handle services)
              ⟨state.world, troubles⟩ := by
    intro found rrset hfound
    unfold applyUpdate
    rw [Program.run_tryCatch, Program.run_bind, hfind, hfound, Program.run_tryCatch]
  have hinsert : troubledFind server re state.world.db (state.troubles 0) =
        .ok (DbMgr.pick (Rrset.keyed server.zone re.rrLabel re.rrType) server.zone none) →
      ∃ troubles', ((applyUpdate server re packet).tryCatch fun _ ↦ pure .updateFailure).run
          (Troubled.handle services) state =
        (.ok (troubledInsert server re packet state.world.db (state.troubles 1)).2,
          ⟨⟨(troubledInsert server re packet state.world.db (state.troubles 1)).1,
            state.world.keys⟩, troubles'⟩) := by
    intro hnone
    rw [DbMgr.pick, if_neg server.zone_found.ne'] at hnone
    rw [hrest hnone, ← hsecond]
    exact run_troubledInsert rfl rfl rfl rfl ⟨state.world, troubles⟩
  unfold troubledUpdate
  cases hfirst : state.troubles 0 with
  | some trouble =>
      cases trouble with
      | prepare =>
          refine ⟨troubles, ?_⟩
          unfold applyUpdate
          rw [Program.run_tryCatch, Program.run_bind, hfind, hfirst]
          rfl
      | step => exact hinsert (by rw [hfirst, troubledFind])
  | none =>
      cases hrow : DbMgr.keyRow state.world.db server.zone.id re.rrLabel re.rrType with
      | none => exact hinsert (by rw [hfirst, troubledFind, hrow])
      | some row =>
          have hid : row.id ≠ 0 := (hids row (DbMgr.keyRow_eq_some hrow).1).ne'
          have hfound : troubledFind server re state.world.db (state.troubles 0) =
              .ok (true, { (Rrset.keyed server.zone re.rrLabel re.rrType).fill row with
                zone := some server.zone }) := by
            rw [hfirst, troubledFind, hrow, DbMgr.pick, if_neg server.zone_found.ne']
            simp [hid]
          rw [hrest hfound, ← hsecond]
          exact run_troubledReplace hid (by simp) ⟨rfl, rfl, rfl⟩ ⟨state.world, troubles⟩

/-! ## Acknowledgements -/

/-- The one row for the key of the packet holds the version and the wire encoding of the packet. -/
def Holds (server : NameServer) (re : Label.MatchResult) (packet : Received) (db : Database) :
    Prop :=
  ∃ row ∈ db.rrsets, row.key = (server.zone.id, re.rrLabel, re.rrType) ∧
    row.version = re.version ∧ row.data = packet.wire ∧
    ∀ other ∈ db.rrsets, other.key = row.key → other = row

/-- `UPDATE_OK` stands for a row that holds the packet, `UPDATE_FAILURE` for a table that is as it
was. -/
def Truthful (server : NameServer) (re : Label.MatchResult) (packet : Received)
    (db db' : Database) (answer : Data) : Prop :=
  (answer.content = updateContent .updateOk → Holds server re packet db') ∧
    (answer.content = updateContent .updateFailure → db'.rrsets = db.rrsets)

/-- The lookup finds an older row, and the UPDATE fails while it runs. -/
def LosesUpdate (server : NameServer) (re : Label.MatchResult) (state : Troubled Keys) : Prop :=
  state.troubles 0 = none ∧ state.troubles 1 = some .step ∧
    ∃ row ∈ state.world.db.rrsets, row.key = (server.zone.id, re.rrLabel, re.rrType) ∧
      row.version < re.version

/-- The lookup fails while it runs and misses a row of another version, and the INSERT succeeds. -/
def MissesRow (server : NameServer) (re : Label.MatchResult) (state : Troubled Keys) : Prop :=
  state.troubles 0 = some .step ∧ state.troubles 1 = none ∧
    ∃ row ∈ state.world.db.rrsets, row.key = (server.zone.id, re.rrLabel, re.rrType) ∧
      row.version ≠ re.version

/-- An update that is answered has been parsed, and its answer tells what became of it. -/
theorem returns_doUpdate_troubled {interest : Interest} {answer : Data}
    (hids : ∀ row ∈ state.world.db.rrsets, 0 < row.id)
    (hmatch : Label.matchDataName packet.data.name server.zone.name = .matched re)
    (h : (doUpdate server interest packet).Returns (Troubled.handle services) state
      (some answer) state') :
    answer.content = updateContent
        (troubledUpdate server re packet state.world.db (state.troubles 0) (state.troubles 1)).2 ∧
      state'.world.db =
        (troubledUpdate server re packet state.world.db (state.troubles 0) (state.troubles 1)).1 := by
  simp only [doUpdate, hmatch] at h
  obtain ⟨name, named, hname, h⟩ := Program.returns_bind.mp h
  obtain ⟨code, updated, hcode, h⟩ := Program.returns_bind.mp h
  obtain ⟨reply, _, hsigned, h⟩ := Program.returns_bind.mp h
  obtain ⟨hreply, rfl⟩ := Program.returns_pure.mp h
  obtain ⟨hdb, htroubles⟩ := returns_answerName_troubled hname
  obtain ⟨hcontent, hsame⟩ := returns_signed_troubled hsigned
  obtain ⟨troubles, hrun⟩ := @run_troubledUpdate _ services server re named _ packet
    (by rwa [hdb])
  rw [hdb, htroubles] at hrun
  obtain ⟨hvalue, rfl⟩ := Prod.mk.inj (hcode.symm.trans hrun)
  cases hreply
  cases hvalue
  exact ⟨hcontent, hsame⟩

theorem truthful_iff {db db' : Database} {answer : Data} {code : UpdateReturnCode}
    (hcontent : answer.content = updateContent code) :
    Truthful server re packet db db' answer ↔
      (code = .updateOk → Holds server re packet db') ∧
        (code = .updateFailure → db'.rrsets = db.rrsets) := by
  unfold Truthful
  simp only [hcontent, updateContent_injective.eq_iff]

section Rows

variable {db : Database}

theorem holds_insertRrset (hnone : DbMgr.keyRow db server.zone.id re.rrLabel re.rrType = none) :
    Holds server re packet (db.insertRrset server.zone.id re.rrLabel re.rrType re.version
      server.zone.ttl packet.wire) := by
  refine ⟨_, List.mem_append_right _ (List.mem_singleton.mpr rfl), rfl, rfl, rfl, ?_⟩
  intro other hother hkey
  rcases List.mem_append.mp hother with hold | hnew
  · simp only [RrsetRow.key, Prod.mk.injEq] at hkey
    exact absurd hkey (DbMgr.keyRow_eq_none.mp hnone other hold)
  · exact List.mem_singleton.mp hnew

theorem not_holds_insertRrset {row : RrsetRow} (hrow : row ∈ db.rrsets)
    (hkey : row.key = (server.zone.id, re.rrLabel, re.rrType)) (version : Component) (ttl : ℤ)
    (wire : Block) : ¬ Holds server re packet
      (db.insertRrset server.zone.id re.rrLabel re.rrType version ttl wire) := by
  rintro ⟨held, -, hheld, -, -, honly⟩
  have hold := honly row (List.mem_append_left _ hrow) (hkey.trans hheld.symm)
  have hnew := honly _ (List.mem_append_right _ (List.mem_singleton.mpr rfl)) hheld.symm
  have hid : row.id = nextRowId (db.rrsets.map RrsetRow.id) :=
    congrArg RrsetRow.id (hold.trans hnew.symm)
  exact Database.ne_nextRowId hrow hid

theorem not_holds_of_ne {row : RrsetRow} (hrow : row ∈ db.rrsets)
    (hkey : row.key = (server.zone.id, re.rrLabel, re.rrType)) (hversion : row.version ≠ re.version) :
    ¬ Holds server re packet db := by
  rintro ⟨held, -, hheld, hheldVersion, -, honly⟩
  exact hversion ((honly row hrow (hkey.trans hheld.symm)).symm ▸ hheldVersion)

theorem holds_updateRrset (hsingle : db.SingleVersion) {row : RrsetRow}
    (hrow : row ∈ db.rrsets) (hkey : row.key = (server.zone.id, re.rrLabel, re.rrType)) (ttl : ℤ) :
    Holds server re packet (db.updateRrset row.id ttl re.version packet.wire) := by
  refine ⟨row.overwrite ttl re.version packet.wire,
    List.mem_map.mpr ⟨row, hrow, if_pos rfl⟩, hkey, rfl, rfl, ?_⟩
  intro other hother hotherKey
  obtain ⟨old, hold, rfl⟩ := List.mem_map.mp hother
  have hsame : old.key = row.key := by
    split_ifs at hotherKey
    · exact hotherKey
    · exact hotherKey
  rw [List.inj_on_of_nodup_map hsingle hold hrow hsame, if_pos rfl]

end Rows

/-- A reply tells the truth except for the two combinations of failures. -/
theorem doUpdate_truthful_iff {interest : Interest} {answer : Data}
    (hvalid : state.world.db.Valid) (hsingle : state.world.db.SingleVersion)
    (hmatch : Label.matchDataName packet.data.name server.zone.name = .matched re)
    (h : (doUpdate server interest packet).Returns (Troubled.handle services) state
      (some answer) state') :
    Truthful server re packet state.world.db state'.world.db answer ↔
      ¬ LosesUpdate server re state ∧ ¬ MissesRow server re state := by
  obtain ⟨hcontent, hdb⟩ := returns_doUpdate_troubled hvalid.ids_pos hmatch h
  rw [truthful_iff hcontent, hdb]
  unfold LosesUpdate MissesRow
  generalize state.world.db = db at hvalid hsingle ⊢
  have hkeyOf : ∀ row : RrsetRow, row.key = (server.zone.id, re.rrLabel, re.rrType) ↔
      row.zoneId = server.zone.id ∧ row.label = re.rrLabel ∧ row.type = re.rrType := by
    intro row
    simp [RrsetRow.key]
  cases hfound : DbMgr.keyRow db server.zone.id re.rrLabel re.rrType with
  | none =>
      have habsent : ∀ row ∈ db.rrsets, row.key ≠ (server.zone.id, re.rrLabel, re.rrType) :=
        fun row hrow hkey ↦ DbMgr.keyRow_eq_none.mp hfound row hrow ((hkeyOf row).mp hkey)
      have hindex : (db.rrsets.any fun row ↦
          row.sameIndex server.zone.id re.rrLabel re.rrType re.version) = false := by
        rw [List.any_eq_false]
        intro row hrow hsame
        obtain ⟨hzone, hlabel, htype, -⟩ := RrsetRow.sameIndex_iff.mp hsame
        exact habsent row hrow ((hkeyOf row).mpr ⟨hzone, hlabel, htype⟩)
      have hnone : ∀ good : RrsetRow → Prop, ¬ ∃ row ∈ db.rrsets,
          row.key = (server.zone.id, re.rrLabel, re.rrType) ∧ good row :=
        fun good ⟨row, hrow, hkey, _⟩ ↦ habsent row hrow hkey
      simp only [hnone, and_false, not_false_eq_true, and_self, iff_true]
      unfold troubledUpdate troubledInsert
      simp only [hfound, hindex, Bool.false_eq_true, if_false]
      rcases state.troubles 0 with _ | _ | _ <;> rcases state.troubles 1 with _ | _ <;>
        simp [holds_insertRrset hfound]
  | some row =>
      obtain ⟨hrow, hzone, hlabel, htype⟩ := DbMgr.keyRow_eq_some hfound
      have hkey := (hkeyOf row).mpr ⟨hzone, hlabel, htype⟩
      have honly : ∀ good : RrsetRow → Prop, (∃ row ∈ db.rrsets,
          row.key = (server.zone.id, re.rrLabel, re.rrType) ∧ good row) ↔ good row := by
        intro good
        constructor
        · rintro ⟨other, hother, hsame, hgood⟩
          rwa [List.inj_on_of_nodup_map hsingle hother hrow (hsame.trans hkey.symm)] at hgood
        · exact fun hgood ↦ ⟨row, hrow, hkey, hgood⟩
      have hindex : (db.rrsets.any fun row ↦
          row.sameIndex server.zone.id re.rrLabel re.rrType re.version) = true ↔
            row.version = re.version := by
        rw [← honly fun other ↦ other.version = re.version, List.any_eq_true]
        simp only [RrsetRow.sameIndex_iff, hkeyOf, and_assoc]
      simp only [honly]
      unfold troubledUpdate troubledInsert troubledReplace
      simp only [hfound, hindex]
      have hinserted := @not_holds_insertRrset server re _ packet db row hrow hkey re.version
        server.zone.ttl packet.wire
      rcases state.troubles 0 with _ | _ | _
      · by_cases hnewer : row.version < re.version
        · simp only [if_pos hnewer, not_forbidsUpdate hvalid hsingle hrow hnewer]
          rcases state.troubles 1 with _ | _ | _
          · simp [holds_updateRrset hsingle hrow hkey]
          · simp
          · simp [hnewer, not_holds_of_ne hrow hkey hnewer.ne]
        · simp [hnewer]
      · simp
      · rcases state.troubles 1 with _ | _
        · by_cases hsame : row.version = re.version
          · simp [hsame]
          · simp [hsame, hinserted]
        · simp

end NameServer

namespace NameServer

section Examples

attribute [local instance] ndnPacketFormat

open LocalServices

/-- A text record of the zone /n in its second version. -/
def secondRecord : Data :=
  ⟨Label.recordName [letter 110] [letter 119] Label.txtRrType ++ [Component.fromVersion 2],
    NdnsContentType.resp.toCode, 0, [], [], []⟩

def secondPacket : Received :=
  ⟨(Layout.encode secondRecord).getD Block.invalid, secondRecord, by decide⟩

def secondMatch : Label.MatchResult := ⟨[letter 119], Label.txtRrType, Component.fromVersion 2⟩

/-- The database of the zone /n with the first version of that record. -/
def firstDatabase : Database :=
  ⟨[⟨1, [letter 110], 3600⟩], [], [⟨1, 1, [letter 119], Label.txtRrType, Component.fromVersion 1, 3600,
    Block.invalid⟩]⟩

theorem firstDatabase_valid : firstDatabase.Valid := by
  constructor <;> simp [firstDatabase]

theorem firstDatabase_singleVersion : firstDatabase.SingleVersion := List.nodup_singleton _

/-- A database that nothing goes wrong with, and one that is locked when the UPDATE runs. -/
def quiet (locked : Option Trouble) : Troubled ℕ :=
  ⟨⟨firstDatabase, 0⟩, fun index ↦ if index = 1 then locked else none⟩

def okAnswer : Data :=
  ⟨[Component.fromVersion 0], NdnsContentType.resp.toCode, 4000, updateContent .updateOk, [], []⟩

theorem doUpdate_truthful_quiet : ∃ state',
    (doUpdate netServer updateInterest secondPacket).Returns (Troubled.handle localServices)
        (quiet none) (some okAnswer) state' ∧
      Truthful netServer secondMatch secondPacket firstDatabase state'.world.db okAnswer := by
  have hreturns : (doUpdate netServer updateInterest secondPacket).Returns
      (Troubled.handle localServices) (quiet none) (some okAnswer)
      ⟨⟨firstDatabase.updateRrset 1 3600 (Component.fromVersion 2) secondPacket.wire, 1⟩,
        fun index ↦ (quiet none).troubles (index + 1 + 1)⟩ := rfl
  refine ⟨_, hreturns, (doUpdate_truthful_iff firstDatabase_valid
    firstDatabase_singleVersion rfl hreturns).mpr ?_⟩
  constructor
  · rintro ⟨-, hsecond, -⟩
    cases hsecond
  · rintro ⟨hfirst, -⟩
    cases hfirst

/-- The UPDATE fails because the file is locked, and the server acknowledges the update. -/
theorem doUpdate_acknowledges_locked : ∃ state',
    (doUpdate netServer updateInterest secondPacket).Returns (Troubled.handle localServices)
        (quiet (some .step)) (some okAnswer) state' ∧
      ¬ Truthful netServer secondMatch secondPacket firstDatabase state'.world.db okAnswer := by
  have hreturns : (doUpdate netServer updateInterest secondPacket).Returns
      (Troubled.handle localServices) (quiet (some .step)) (some okAnswer)
      ⟨⟨firstDatabase, 1⟩, fun index ↦ (quiet (some .step)).troubles (index + 1 + 1)⟩ := rfl
  refine ⟨_, hreturns, fun htruthful ↦ ?_⟩
  exact not_holds_of_ne (List.mem_singleton.mpr rfl) rfl (by decide) (htruthful.1 rfl)

end Examples

end NameServer

end Ndns.Daemon
