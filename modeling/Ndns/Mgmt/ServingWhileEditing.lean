import Ndns.Mgmt.Regeneration
import Ndns.Mgmt.Resolvability

/-!
# Queries during a Regeneration

The name server answers a query with two separate statements while the management tool replaces the
denial records of the zone.  The second one can find the tables between the deletion and the
insertion of the guard.  Then it finds a denial that does not belong to the query, or none at all,
and the server throws.
-/

namespace Ndns.Mgmt

open Ndn Calls Daemon Clients Order.CircularRanges

section Editing

variable [PacketFormat]

/-! ## The tables during a regeneration -/

/-- The tables in a phase of the regeneration, compared with the tables at its start. -/
structure Stage (zoneName : Name) (zoneId : ℕ) (base : Database) (phase : RegenerationPhase)
    (db : Database) : Prop where
  zones : db.zones = base.zones
  rest : db.rrsets.filter (fun row ↦ !row.hasType zoneId Label.doeRrType) =
    base.rrsets.filter fun row ↦ !row.hasType zoneId Label.doeRrType
  ids : ∀ row ∈ db.rrsets, row.id ≠ 0
  chain : match phase with
    | .waiting => db = base
    | .cleared => denials db zoneId = []
    | .inserting names count => names = recordNames base zoneId ∧
        List.Forall₂ (IsDenial zoneName zoneId) (denials db zoneId) ((denialChain names).take count)

section Stage

variable {zoneName : Name} {zoneId : ℕ} {base db : Database} {phase phase' : RegenerationPhase}

theorem Stage.start (hvalid : base.Valid) : Stage zoneName zoneId base .waiting base :=
  ⟨rfl, rfl, fun row hrow ↦ (hvalid.ids_pos row hrow).ne', rfl⟩

theorem Stage.records (h : Stage zoneName zoneId base phase db) :
    records db zoneId = records base zoneId := by
  have hsplit : ∀ tables : Database, Mgmt.records tables zoneId =
      (tables.rrsets.filter fun row ↦ !row.hasType zoneId Label.doeRrType).filter
        fun row ↦ row.zoneId = zoneId := by
    intro tables
    rw [Mgmt.records, List.filter_filter]
    refine List.filter_congr fun row _ ↦ ?_
    by_cases hzone : row.zoneId = zoneId <;> simp [hzone, RrsetRow.hasType]
  rw [hsplit, hsplit, h.rest]

theorem Stage.recordNames (h : Stage zoneName zoneId base phase db) :
    recordNames db zoneId = recordNames base zoneId := by
  rw [Mgmt.recordNames, Mgmt.recordNames, h.records]

/-- A row of the tables was there at the start, or is a denial of the new chain. -/
theorem Stage.origin (h : Stage zoneName zoneId base phase db) {row : RrsetRow}
    (hrow : row ∈ db.rrsets) :
    row ∈ base.rrsets ∨ ∃ denial ∈ denialChain (Mgmt.recordNames base zoneId),
      IsDenial zoneName zoneId row denial := by
  by_cases htype : row.hasType zoneId Label.doeRrType = true
  · have hdenial : row ∈ denials db zoneId := List.mem_filter.mpr ⟨hrow, htype⟩
    have hchain := h.chain
    cases phase with
    | waiting => exact Or.inl (hchain ▸ hrow)
    | cleared =>
        rw [hchain] at hdenial
        cases hdenial
    | inserting names count =>
        obtain ⟨rfl, hrows⟩ := hchain
        obtain ⟨denial, hmem, hisDenial⟩ := forall₂_mem_left hrows hdenial
        exact Or.inr ⟨denial, List.mem_of_mem_take hmem, hisDenial⟩
  · have hkept : row ∈ db.rrsets.filter fun row ↦ !row.hasType zoneId Label.doeRrType :=
      List.mem_filter.mpr ⟨hrow, by simpa only [Bool.not_eq_true, Bool.not_eq_true'] using htype⟩
    rw [h.rest] at hkept
    exact Or.inl (List.mem_filter.mp hkept).1

/-- The statement of a move of the regeneration leads to its next stage. -/
theorem Stage.step (h : Stage zoneName zoneId base phase db) {statement : Sql}
    (hmove : RegenerationMove zoneName zoneId db phase (.sql statement) phase') :
    Stage zoneName zoneId base phase' (statement.execute db).2 := by
  cases hmove with
  | read hreads =>
      have hsame : (statement.execute db).2 = db := by
        cases statement <;> first | rfl | exact hreads.elim
      rw [hsame]
      exact h
  | clear =>
      constructor
      · exact h.zones
      · refine Eq.trans ?_ h.rest
        simp [Sql.execute, Database.deleteRrsetsByType, List.filter_filter]
      · exact fun row hrow ↦ h.ids row (List.mem_filter.mp hrow).1
      · simp [Sql.execute, denials, Database.deleteRrsetsByType, List.filter_filter]
  | collect => exact ⟨h.zones, h.rest, h.ids, h.recordNames, h.chain ▸ .nil⟩
  | @insert names count denial version ttl data hdenial hrow hfree =>
      have hnew : (⟨nextRowId (db.rrsets.map RrsetRow.id), zoneId, denial.1, Label.doeRrType, version,
          ttl, data⟩ : RrsetRow).hasType zoneId Label.doeRrType = true :=
        RrsetRow.hasType_iff.mpr ⟨rfl, rfl⟩
      rw [Sql.execute, if_neg hfree]
      constructor
      · exact h.zones
      · rw [Database.insertRrset, List.filter_append, List.filter_cons_of_neg (by simp [hnew])]
        exact (List.append_nil _).trans h.rest
      · intro row hmem
        rcases List.mem_append.mp hmem with hold | hlast
        · exact h.ids row hold
        · rw [List.mem_singleton.mp hlast]
          exact (nextRowId_pos _).ne'
      · obtain ⟨hnames, hrows⟩ := h.chain
        refine ⟨hnames, ?_⟩
        rw [denials, Database.insertRrset, List.filter_append, List.filter_cons_of_pos (by simp),
          List.filter_nil, List.take_add_one, hdenial]
        exact List.rel_append hrows (.cons (hrow _) .nil)
  | refuse hconflict =>
      rw [Sql.execute, if_pos hconflict]
      exact h

end Stage

/-! ## A query -/

/-- Where a query is: before its first statement, with a row to answer with, with nothing to answer
with, and after the lookup of a denial. -/
inductive QueryPhase where
  | asked
  | answering (row : RrsetRow)
  | denying
  | denied (row : Option RrsetRow)

/-- The calls of a query. -/
inductive QueryMove (zoneId : ℕ) (re : Label.MatchResult) (db : Database) :
    QueryPhase → Call → QueryPhase → Prop
  | request {phase : QueryPhase} {request : Service} :
      QueryMove zoneId re db phase (.service request) phase
  | hit {row : RrsetRow} (hrow : DbMgr.keyRow db zoneId re.rrLabel re.rrType = some row) :
      QueryMove zoneId re db .asked (.sql (.selectRrset zoneId re.rrLabel re.rrType))
        (.answering row)
  | pass : QueryMove zoneId re db .asked (.sql (.selectRrset zoneId re.rrLabel re.rrType)) .denying
  | lookup : QueryMove zoneId re db .denying
      (.sql (.selectLowerBound zoneId (re.rrLabel ++ [re.rrType]) Label.doeRrType))
      (.denied (DbMgr.lowerBoundRow db zoneId (re.rrLabel ++ [re.rrType]) Label.doeRrType))

/-- The automaton of a query. -/
def querying {Tool Server : Type} (zoneId : ℕ) (re : Label.MatchResult) :
    Automaton Call QueryPhase (Shared Tool Server) where
  holds _ _ := True
  moves phase request shared phase' := QueryMove zoneId re shared.db phase request phase'

/-- How a query ends. -/
def Answers : QueryPhase → Except Fault Data → Prop
  | .answering row, .ok answer => PacketFormat.decode row.data = some answer
  | .answering row, .error _ => PacketFormat.decode row.data = none
  | .denied (some row), .ok answer =>
      NdnsContentType.ofCode answer.contentType = .nack ∧ answer.content = contentOf row.data
  | .denied (some row), .error _ => row.id = 0
  | .denied none, .error _ => True
  | _, _ => False

section Query

variable {Tool Keys : Type} {services : Services Keys} {server : NameServer} {interest : Interest}
  {re : Label.MatchResult}

theorem follows_denyQuery (hsigns : services.SignsByDefault) :
    (server.denyQuery interest re).Follows
      (Shared.serverHandle services : Handler Call.Answer (Shared Tool Keys))
      (querying server.zone.id re) Answers .denying := by
  apply Program.Follows.bind
  intro shared _
  refine ⟨.denying, .request, ?_⟩
  change Program.Follows _ _ Answers (DbMgr.findLowerBound _ >>= _) _
  apply Program.Follows.bind
  apply follows_of_statement (DbMgr.atomic_findLowerBound rfl server.zone_found.ne')
    (Shared.executes_serverHandle services)
  intro shared _
  refine ⟨_, .lookup, ?_⟩
  rw [DbMgr.run_findLowerBound rfl, NameServer.resolveZone_zone]
  simp only [Rrset.keyed, DbMgr.pick, if_neg server.zone_found.ne']
  cases hrow : DbMgr.lowerBoundRow shared.db server.zone.id (re.rrLabel ++ [re.rrType])
      Label.doeRrType with
  | none => trivial
  | some row =>
      by_cases hid : row.id = 0
      · simp only [hid, ne_eq, not_true_eq_false, decide_false]
        exact hid
      · simp only [hid, ne_eq, not_false_eq_true, decide_true]
        intro shared _
        refine ⟨_, .request, ?_⟩
        generalize hpacket : Data.mk _ _ _ _ _ _ = packet
        obtain ⟨signature, hsignature⟩ := Option.isSome_iff_exists.mp (hsigns packet shared.server)
        change Program.Follows _ _ Answers
          (orThrow (services.answer (.sign .default packet) shared.server).1 _ >>= _) _
        rw [hsignature, ← hpacket]
        exact ⟨rfl, rfl⟩

/-- A query follows the automaton. -/
theorem follows_handleQuery (hsigns : services.SignsByDefault) :
    (server.handleQuery interest re).Follows
      (Shared.serverHandle services : Handler Call.Answer (Shared Tool Keys))
      (querying server.zone.id re) Answers .asked := by
  apply Program.Follows.bind
  apply follows_of_statement (DbMgr.atomic_findRrset rfl server.zone_found.ne')
    (Shared.executes_serverHandle services)
  intro shared _
  rw [DbMgr.run_findRrset rfl, NameServer.resolveZone_zone]
  simp only [Rrset.keyed, DbMgr.pick, if_neg server.zone_found.ne']
  cases hrow : DbMgr.keyRow shared.db server.zone.id re.rrLabel re.rrType with
  | none => exact ⟨_, .pass, follows_denyQuery hsigns⟩
  | some row =>
      by_cases hfound : row.id ≠ 0 ∧ (re.version.isEmpty ∨ re.version = row.version)
      · refine ⟨_, .hit hrow, ?_⟩
        simp only [Program.AndThen, Rrset.fill, decide_eq_true_eq, if_pos hfound]
        cases hdecode : PacketFormat.decode row.data with
        | none => exact hdecode
        | some answer => exact hdecode
      · refine ⟨_, .pass, ?_⟩
        simp only [Program.AndThen, Rrset.fill, decide_eq_true_eq, if_neg hfound]
        exact follows_denyQuery hsigns

end Query

/-! ## Both together -/

/-- The tables are in a stage of the regeneration, and the server has seen them in one. -/
structure Serving {Tool Server : Type} (zoneName : Name) (zoneId : ℕ) (base : Database)
    (re : Label.MatchResult) (left : RegenerationPhase) (right : QueryPhase)
    (shared : Shared Tool Server) : Prop where
  stage : Stage zoneName zoneId base left shared.db
  answering : ∀ row, right = .answering row → ∃ phase seen, Stage zoneName zoneId base phase seen ∧
    DbMgr.keyRow seen zoneId re.rrLabel re.rrType = some row
  denied : ∀ row, right = .denied row → ∃ phase seen, shared.lookedUp = some seen ∧
    Stage zoneName zoneId base phase seen ∧
      row = DbMgr.lowerBoundRow seen zoneId (re.rrLabel ++ [re.rrType]) Label.doeRrType

/-- A regeneration and a query keep this, whoever makes the next call. -/
theorem keptTogether_serving {Tool Server : Type} (tools : Services Tool)
    (services : Services Server) (zoneName : Name) (zoneId : ℕ) (base : Database)
    (re : Label.MatchResult) :
    KeptTogether (Shared.toolHandle tools) (Shared.serverHandle services)
      (regeneration zoneName zoneId base.zones) (querying zoneId re)
      (Serving zoneName zoneId base re) fun _ _ _ ↦ True := by
  constructor
  · intro left right shared h
    refine ⟨⟨h.stage.zones, ?_⟩, trivial⟩
    rintro rfl
    exact h.stage.chain
  · intro left right shared request left' h _ hmove
    cases request with
    | sql statement => exact ⟨h.stage.step hmove, h.answering, h.denied⟩
    | service request =>
        cases hmove
        exact ⟨h.stage, h.answering, h.denied⟩
  · intro left right shared request right' h _ hmove
    cases hmove with
    | request => exact ⟨h.stage, h.answering, h.denied⟩
    | hit hrow =>
        refine ⟨h.stage, fun row hphase ↦ ?_, nofun⟩
        cases hphase
        exact ⟨left, shared.db, h.stage, hrow⟩
    | pass => exact ⟨h.stage, nofun, nofun⟩
    | lookup =>
        refine ⟨h.stage, nofun, fun row hphase ↦ ?_⟩
        cases hphase
        exact ⟨left, shared.db, rfl, h.stage, rfl⟩

/-! ## What the server answers -/

/-- The client finds the name in the range of the denial record. -/
def Covers (row : RrsetRow) (query : Name) : Prop :=
  ∃ doe range, PacketFormat.decode row.data = some doe ∧
    Response.wireDecodeDoe doe.content = some range ∧ Excludes range query

/-- Below every name there is a denial record, which covers the name when it is absent. -/
def CompleteChain (db : Database) (zoneId : ℕ) : Prop :=
  ∀ (label : Name) (type : Component), ∃ row,
    DbMgr.lowerBoundRow db zoneId (label ++ [type]) Label.doeRrType = some row ∧
      (label ++ [type] ∉ recordNames db zoneId → Covers row (label ++ [type]))

/-- The denial records are the first part of the new chain, without the guard. -/
def Interrupted (zoneName : Name) (zoneId : ℕ) (base db : Database) : Prop :=
  ∃ count < (denialChain (recordNames base zoneId)).length,
    List.Forall₂ (IsDenial zoneName zoneId) (denials db zoneId)
      ((denialChain (recordNames base zoneId)).take count)

/-- A record set that is neither stored before the regeneration nor part of the new chain. -/
def AbsentThroughout (base : Database) (zoneId : ℕ) (label : Name) (type : Component) : Prop :=
  (∀ row ∈ base.rrsets, row.hasKey zoneId label type = false) ∧
    (type = Label.doeRrType → label ∉ (denialChain (recordNames base zoneId)).map Prod.fst)

section Together

variable {zoneName : Name} {zoneId : ℕ} {base db : Database} {phase : RegenerationPhase}

/-- A chain whose ends ascend is complete. -/
theorem Chained.complete (h : Chained zoneName zoneId db) (hrecords : records db zoneId ≠ [])
    (hset : ((records db zoneId).map recordKey).Nodup) (hascend : EndsAscend db zoneId) :
    CompleteChain db zoneId := by
  intro label type
  have hnames := recordNames_eq_nil.not.mpr hrecords
  obtain ⟨row, denial, hrow, -, hisDenial, hdenial, hbelow, hgreatest⟩ :=
    h.lowerBoundRow hnames (List.append_ne_nil_of_right_ne_nil label (List.cons_ne_nil type []))
  refine ⟨row, hrow, fun habsent ↦ ?_⟩
  obtain ⟨first, rest, hfirst⟩ := List.exists_cons_of_ne_nil hnames
  obtain ⟨doe, hdecode, hrange⟩ := hisDenial.wireDecodeDoe
  exact ⟨doe, denial.2, hdecode, hrange, excludes_of_ascending hfirst (nodup_recordNames hset)
    ((endsAscend_iff hfirst).mp hascend) hdenial hbelow habsent hgreatest⟩

/-- The tables are those at the start, or hold a part of the new chain, or the whole of it. -/
theorem Stage.trichotomy (h : Stage zoneName zoneId base phase db)
    (hrecords : Mgmt.records base zoneId ≠ []) :
    db = base ∨ Interrupted zoneName zoneId base db ∨ Chained zoneName zoneId db := by
  have hchain := h.chain
  have hpos : 0 < (denialChain (Mgmt.recordNames base zoneId)).length := by
    rw [length_denialChain, if_neg]
    · exact Nat.succ_pos _
    · exact fun hlength ↦ hrecords (recordNames_eq_nil.mp (List.length_eq_zero_iff.mp hlength))
  cases phase with
  | waiting => exact Or.inl hchain
  | cleared => exact Or.inr (Or.inl ⟨0, hpos, hchain ▸ .nil⟩)
  | inserting names count =>
      obtain ⟨rfl, hrows⟩ := hchain
      rcases lt_or_ge count (denialChain (Mgmt.recordNames base zoneId)).length with hlt | hge
      · exact Or.inr (Or.inl ⟨count, hlt, hrows⟩)
      · rw [List.take_of_length_le hge, ← h.recordNames] at hrows
        exact Or.inr (Or.inr hrows)

/-- Every row of the tables can be decoded if this was so at the start. -/
theorem Stage.decodes (h : Stage zoneName zoneId base phase db)
    (hdecodes : ∀ row ∈ base.rrsets, (PacketFormat.decode row.data).isSome) {row : RrsetRow}
    (hrow : row ∈ db.rrsets) : (PacketFormat.decode row.data).isSome := by
  rcases h.origin hrow with hold | ⟨denial, -, hdenial⟩
  · exact hdecodes row hold
  · obtain ⟨data, hdecode, -⟩ := hdenial.wireDecodeDoe
    rw [hdecode]
    rfl

/-- What is absent throughout is absent at every stage. -/
theorem Stage.absent (h : Stage zoneName zoneId base phase db) {label : Name} {type : Component}
    (habsent : AbsentThroughout base zoneId label type) :
    DbMgr.keyRow db zoneId label type = none := by
  rw [DbMgr.keyRow_eq_none]
  rintro row hrow ⟨hzone, hlabel, htype⟩
  rcases h.origin hrow with hold | ⟨denial, hmem, hdenial⟩
  · have hnot := habsent.1 row hold
    rw [RrsetRow.hasKey_iff.mpr ⟨hzone, hlabel, htype⟩] at hnot
    cases hnot
  · refine habsent.2 (htype.symm.trans hdenial.type) (List.mem_map.mpr ⟨denial, hmem, ?_⟩)
    rw [← hdenial.label, hlabel]

end Together

/-! ## Every schedule -/

section Schedules

variable {Tool Keys : Type} {tools : Services Tool} {services : Services Keys}
  {server : NameServer} {interest : Interest} {re : Label.MatchResult} {zone : Zone}
  {base : Database}

/-- The regeneration and the query before their first calls. -/
def editing (zone : Zone) (server : NameServer) (interest : Interest) (re : Label.MatchResult)
    (base : Database) (tool : Tool) (keys : Keys) :
    Config Call.Answer Fault Zone Data (Shared Tool Keys) :=
  ⟨ManagementTool.generateDoe zone, server.handleQuery interest re, ⟨base, tool, keys, none⟩⟩

/-- What is known when the server has ended. -/
theorem serving_of_schedule (hvalid : base.Valid) (hsigns : services.SignsByDefault)
    (hserver : (DbMgr.lookupZone base zone).id = server.zone.id) (tool : Tool) (keys : Keys)
    (schedule : List Side) {result : Except Fault Data}
    (hresult : ((editing zone server interest re base tool keys).run (Shared.toolHandle tools)
      (Shared.serverHandle services) schedule).right.outcome = some result) :
    ∃ left right, Answers right result ∧ Serving zone.name server.zone.id base re left right
      ((editing zone server interest re base tool keys).run (Shared.toolHandle tools)
        (Shared.serverHandle services) schedule).state := by
  have hstart : (editing zone server interest re base tool keys).Keeps (Shared.toolHandle tools)
      (Shared.serverHandle services) (regeneration zone.name server.zone.id base.zones)
      (querying server.zone.id re) Completes Answers (Serving zone.name server.zone.id base re)
      .waiting .asked := by
    refine ⟨?_, follows_handleQuery hsigns, .start hvalid, nofun, nofun⟩
    rw [← hserver]
    exact ManagementTool.follows_generateDoe (Shared.executes_toolHandle tools)
  obtain ⟨left, right, -, hright, hserving⟩ :=
    (keptTogether_serving tools services zone.name server.zone.id base re).run
      (fun _ (_ : True) ↦ trivial) hstart (fun _ _ ↦ trivial)
  exact ⟨left, right, hright.of_outcome hresult, hserving⟩

/-- A query that throws has looked for a denial between the deletion of the old chain and the
insertion of the guard of the new one, when no label in the tables was below the queried name.  A
denial comes from one of the chains, and covers an absent name outside of that time. -/
theorem query_during_regeneration (hvalid : base.Valid)
    (hset : ((records base server.zone.id).map recordKey).Nodup)
    (hcomplete : CompleteChain base server.zone.id)
    (hrecords : records base server.zone.id ≠ [])
    (hdecodes : ∀ row ∈ base.rrsets, (PacketFormat.decode row.data).isSome)
    (hsigns : services.SignsByDefault)
    (hserver : (DbMgr.lookupZone base zone).id = server.zone.id) (tool : Tool) (keys : Keys)
    (schedule : List Side) {final : Config Call.Answer Fault Zone Data (Shared Tool Keys)}
    (hfinal : (editing zone server interest re base tool keys).run (Shared.toolHandle tools)
      (Shared.serverHandle services) schedule = final) :
    (∀ fault, final.right.outcome = some (.error fault) → ∃ seen,
        final.state.lookedUp = some seen ∧ Interrupted zone.name server.zone.id base seen ∧
          ∀ row ∈ denials seen server.zone.id, ¬ row.label < re.rrLabel ++ [re.rrType]) ∧
      ∀ answer, final.right.outcome = some (.ok answer) →
        AbsentThroughout base server.zone.id re.rrLabel re.rrType →
          NdnsContentType.ofCode answer.contentType = .nack ∧ ∃ seen row,
            final.state.lookedUp = some seen ∧
            DbMgr.lowerBoundRow seen server.zone.id (re.rrLabel ++ [re.rrType]) Label.doeRrType =
              some row ∧
            answer.content = contentOf row.data ∧
            (row ∈ denials base server.zone.id ∨
              ∃ denial ∈ denialChain (recordNames base server.zone.id),
                IsDenial zone.name server.zone.id row denial) ∧
            (seen = base ∨ Chained zone.name server.zone.id seen ∧ EndsAscend base server.zone.id →
              Covers row (re.rrLabel ++ [re.rrType])) := by
  subst hfinal
  constructor
  · intro fault hfault
    obtain ⟨left, right, hend, hserving⟩ := serving_of_schedule hvalid hsigns hserver tool keys
      schedule hfault
    cases right with
    | asked => exact hend.elim
    | denying => exact hend.elim
    | answering row =>
        obtain ⟨phase, seen, hstage, hrow⟩ := hserving.answering row rfl
        have hdecode := hstage.decodes hdecodes (DbMgr.keyRow_eq_some hrow).1
        rw [show PacketFormat.decode row.data = none from hend] at hdecode
        cases hdecode
    | denied found =>
        obtain ⟨phase, seen, hseen, hstage, hfound⟩ := hserving.denied found rfl
        cases found with
        | some row =>
            exact absurd hend (hstage.ids row (DbMgr.lowerBoundRow_eq_some hfound.symm).1.1)
        | none =>
            refine ⟨seen, hseen, ?_, ?_⟩
            · rcases hstage.trichotomy hrecords with rfl | hinterrupted | hchained
              · obtain ⟨row, hrow, -⟩ := hcomplete re.rrLabel re.rrType
                cases hfound.trans hrow
              · exact hinterrupted
              · have hnames : recordNames seen server.zone.id ≠ [] := by
                  rw [hstage.recordNames]
                  exact recordNames_eq_nil.not.mpr hrecords
                obtain ⟨row, -, hrow, -⟩ := hchained.lowerBoundRow hnames
                  (List.append_ne_nil_of_right_ne_nil re.rrLabel (List.cons_ne_nil re.rrType []))
                cases hfound.trans hrow
            · intro row hrow hbelow
              obtain ⟨hmem, hzone, htype⟩ := mem_denials.mp hrow
              exact DbMgr.lowerBoundRow_eq_none.mp hfound.symm row hmem ⟨hzone, hbelow, htype⟩
  · intro answer hanswer habsent
    obtain ⟨left, right, hend, hserving⟩ := serving_of_schedule hvalid hsigns hserver tool keys
      schedule hanswer
    cases right with
    | asked => exact hend.elim
    | denying => exact hend.elim
    | answering row =>
        obtain ⟨phase, seen, hstage, hrow⟩ := hserving.answering row rfl
        cases (hstage.absent habsent).symm.trans hrow
    | denied found =>
        obtain ⟨phase, seen, hseen, hstage, hfound⟩ := hserving.denied found rfl
        cases found with
        | none => exact hend.elim
        | some row =>
            refine ⟨hend.1, seen, row, hseen, hfound.symm, hend.2, ?_, ?_⟩
            · obtain ⟨⟨hmem, hzone, -, htype⟩, -⟩ := DbMgr.lowerBoundRow_eq_some hfound.symm
              exact (hstage.origin hmem).imp_left fun hold ↦ mem_denials.mpr ⟨hold, hzone, htype⟩
            · have habove : re.rrLabel ++ [re.rrType] ∉ recordNames seen server.zone.id := by
                rw [notMem_recordNames, hstage.records]
                rintro other hother ⟨hlabel, htype⟩
                obtain ⟨hmem, hzone, -⟩ := mem_records.mp hother
                have hnot := habsent.1 other hmem
                rw [RrsetRow.hasKey_iff.mpr ⟨hzone, hlabel, htype⟩] at hnot
                cases hnot
              have hcovers : CompleteChain seen server.zone.id →
                  Covers row (re.rrLabel ++ [re.rrType]) := by
                intro hseenComplete
                obtain ⟨other, hother, hcovered⟩ := hseenComplete re.rrLabel re.rrType
                obtain rfl : row = other := Option.some.inj (hfound.trans hother)
                exact hcovered habove
              rintro (rfl | ⟨hchained, hascend⟩)
              · exact hcovers hcomplete
              · apply hcovers
                apply hchained.complete
                · rwa [hstage.records]
                · rwa [hstage.records]
                · unfold EndsAscend at hascend ⊢
                  rwa [hstage.records]

end Schedules

end Editing

section Examples

open LocalServices NameServer

attribute [local instance] ndnPacketFormat

/-- The zone /n with a TXT record at /w. -/
def editedZone : Database := withText [letter 119] netZone

/-- A query for a TXT record at /a during a regeneration of this zone. -/
def editedQuery : Config Call.Answer Fault Zone Data (Shared ℕ ℕ) :=
  editing (Zone.named [letter 110]) netServer
    ⟨Label.recordName [letter 110] [letter 97] Label.txtRrType, true, 4000, []⟩
    ⟨[letter 97], Label.txtRrType, Component.empty⟩ editedZone 0 0

theorem editedZone_serves : Serves [letter 110] 1 editedZone :=
  serves_run Database.valid_empty (by simp [Database.empty]) netZone_step
    (.single (withText_adds [letter 119] netZone (by decide)))

theorem editedZone_records : (records editedZone 1 ≠ [] ∧
      ((records editedZone 1).map recordKey).Nodup) ∧
    ∀ row ∈ editedZone.rrsets, (PacketFormat.decode row.data).isSome ∧
      row.hasKey 1 [letter 97] Label.txtRrType = false := by
  decide +kernel

theorem editedZone_complete : CompleteChain editedZone 1 := by
  apply editedZone_serves.chained.complete editedZone_records.1.1 editedZone_records.1.2
  unfold EndsAscend
  decide +kernel

/-- The server looks for a denial between the two statements that find the zone and delete its
chain, and answers when the chain has gone. -/
def aroundDeletion : List Side := [.right, .left, .right, .right, .left, .left, .right]

/-- A query whose denial was looked up before the deletion. -/
theorem query_around_deletion : ∃ answer seen row,
    (editedQuery.run (Shared.toolHandle localServices) (Shared.serverHandle localServices)
      aroundDeletion).right.outcome = some (.ok answer) ∧
    denials (editedQuery.run (Shared.toolHandle localServices) (Shared.serverHandle localServices)
      aroundDeletion).state.db 1 = [] ∧
    DbMgr.lowerBoundRow seen 1 ([letter 97] ++ [Label.txtRrType]) Label.doeRrType = some row ∧
    answer.content = contentOf row.data ∧ Covers row ([letter 97] ++ [Label.txtRrType]) := by
  generalize hfinal : editedQuery.run (Shared.toolHandle localServices)
    (Shared.serverHandle localServices) aroundDeletion = final
  have hrun : (final.state.lookedUp = some editedZone ∧ denials final.state.db 1 = []) ∧
      (final.right.outcome.map Except.toBool) = some true := by
    rw [← hfinal]
    decide +kernel
  obtain ⟨⟨hseen, hdeleted⟩, hok⟩ := hrun
  obtain ⟨result, hresult, htrue⟩ := Option.map_eq_some_iff.mp hok
  cases result with
  | error fault => cases htrue
  | ok answer =>
      obtain ⟨-, seen, row, hlookedUp, hrow, hcontent, -, hcovers⟩ :=
        (query_during_regeneration editedZone_serves.valid editedZone_records.1.2
          editedZone_complete editedZone_records.1.1 (fun row hrow ↦ (editedZone_records.2 row hrow).1)
          (fun _ _ ↦ rfl) rfl 0 0 aroundDeletion hfinal).2 answer hresult
          ⟨fun row hrow ↦ (editedZone_records.2 row hrow).2, nofun⟩
      exact ⟨answer, seen, row, hresult, hdeleted, hrow, hcontent,
        hcovers (Or.inl (Option.some.inj (hlookedUp.symm.trans hseen)))⟩

/-- Between the deletion and the first insertion the server finds no denial and throws. -/
theorem query_after_deletion : CompleteChain editedZone 1 ∧
    ∃ schedule fault, (editedQuery.run (Shared.toolHandle localServices)
      (Shared.serverHandle localServices) schedule).right.outcome = some (.error fault) :=
  ⟨editedZone_complete, [.right, .left, .left, .right, .right],
    .runtimeError "fail to find DoE record of zone", by decide +kernel⟩

end Examples

end Ndns.Mgmt
