import Ndns.Daemon.InterruptedLookups
import Ndns.Mgmt.LoopBounds

/-!
# Errors Read as the End of the Rows

A regeneration removes the old denial records before it selects the others.  When that selection is
interrupted, the chain is made over the rows delivered so far, and the operation returns.  The
condition for a fresh chain is worked out here, and put together with what the lookups themselves,
the updates and the queries make of an interruption.
-/

namespace Ndns.Daemon

open Ndn Calls

variable {Keys Value : Type} {services : Services Keys} {state state' : Interrupted Keys}

theorem Call.Asks.steady {call : Call} (h : call.Asks) : Interrupted.Steady call := by
  cases call with
  | service request => trivial
  | sql statement => exact h.elim

/-- What a program without lookups returns, it returns on a healthy database. -/
theorem Interrupted.returns_of_steady {program : Prog Value} {value : Value}
    (hsteady : program.CallsOnly Steady)
    (h : program.Returns (handle services) state value state') :
    program.Returns (World.handle services) state.world value state'.world ∧
      state'.stops = state.stops := by
  unfold Program.Returns at h ⊢
  rw [run_steady hsteady] at h
  obtain ⟨hvalue, rfl⟩ := Prod.mk.inj h
  exact ⟨Prod.ext hvalue rfl, rfl⟩

namespace DbMgr

theorem steady_removeRrsetsOfZoneByType {zone : Zone} (hid : zone.id ≠ 0) (type : Component) :
    (removeRrsetsOfZoneByType zone type).CallsOnly Interrupted.Steady := by
  unfold removeRrsetsOfZoneByType requireZone findNewZone
  rw [if_neg hid, Program.pure_bind, if_neg hid, Program.pure_bind]
  refine ⟨rfl, fun written ↦ ?_⟩
  cases written <;> trivial

/-- The lookup of a zone finds what there is unless its first call fails. -/
theorem foundZone_eq (state : Interrupted Keys) (zone : Zone) :
    foundZone state zone =
      if state.stops 0 = some 0 then { zone with id := 0 } else lookupZone state.world.db zone := by
  have hfirst := Selected.first_interrupt (state.stops 0)
    (state.world.db.zones.filter fun row ↦ saveName row.name = saveName zone.name)
  rw [List.head?_filter] at hfirst
  have hanswer : (state.answer (.selectZone zone.name)).first = if state.stops 0 = some 0 then none
      else state.world.db.zones.find? fun row ↦ saveName row.name = saveName zone.name := hfirst
  rw [foundZone, hanswer]
  split_ifs
  · rfl
  · rw [lookupZone]
    cases state.world.db.zones.find? fun row ↦ saveName row.name = saveName zone.name <;> rfl

theorem foundZone_of_ne {zone : Zone} (h : (foundZone state zone).id ≠ 0) :
    foundZone state zone = lookupZone state.world.db zone := by
  rw [foundZone_eq] at h ⊢
  split_ifs at h ⊢
  · exact absurd rfl h
  · rfl

/-- The rows an interrupted selection delivers. -/
def delivered (stop : Option ℕ) (rows : List RrsetRow) : List RrsetRow :=
  match stop with
  | none => rows
  | some count => rows.take count

theorem delivered_eq_self_iff {stop : Option ℕ} {rows : List RrsetRow} :
    delivered stop rows = rows ↔ ∀ count, stop = some count → rows.length ≤ count := by
  cases stop with
  | none => exact ⟨fun _ _ h ↦ (nomatch h), fun _ ↦ rfl⟩
  | some count =>
      rw [delivered, List.take_eq_self_iff]
      exact ⟨fun h _ heq ↦ Option.some.inj heq ▸ h, fun h ↦ h count rfl⟩

theorem delivered_eq_of_length {stop : Option ℕ} {rows : List RrsetRow}
    (h : (delivered stop rows).length = rows.length) : delivered stop rows = rows := by
  cases stop with
  | none => rfl
  | some count =>
      rw [delivered, List.length_take] at h
      exact List.take_of_length_le (by omega)

theorem run_findRrsets_delivered {zone : Zone} (hid : zone.id ≠ 0) (state : Interrupted Keys) :
    (findRrsets zone).run (Interrupted.handle services) state =
      (.ok ((delivered (state.stops 0) (zoneRows state.world.db zone.id)).map (restore zone)),
        state.next) := by
  have hanswer : ∃ finished, state.answer (.selectRrsets zone.id) =
      .stepped (delivered (state.stops 0) (zoneRows state.world.db zone.id)) finished := by
    unfold Interrupted.answer Sql.interrupt
    cases state.stops 0 with
    | none => exact ⟨true, rfl⟩
    | some count => exact ⟨false, rfl⟩
  obtain ⟨finished, hanswer⟩ := hanswer
  rw [findRrsets, requireZone, Program.run_bind, Program.run_bind, findNewZone, if_neg hid]
  simp only [Program.run_pure, if_neg hid]
  rw [Program.run_bind, Interrupted.run_select rfl, hanswer]
  rfl

end DbMgr

namespace RrsetFactory

theorem returns_onlyCheckZone_interrupted {factory checked : RrsetFactory}
    {outcome : Except Fault Unit} (hnew : factory.checked = false)
    (h : factory.onlyCheckZone.Returns (Interrupted.handle services) state (outcome, checked)
      state') :
    checked.zone = DbMgr.foundZone state factory.zone ∧
      ((∃ value, outcome = .ok value) → checked.zone.id ≠ 0) ∧ state' = state.next := by
  rw [Program.Returns, onlyCheckZone, if_neg (by simp [hnew]), Program.run_bind, run_attempt,
    DbMgr.run_findZone_interrupted] at h
  simp only at h
  split_ifs at h with hid
  · cases h
    exact ⟨rfl, fun hok ↦ by simp at hok, rfl⟩
  · cases h
    exact ⟨rfl, fun _ ↦ hid, rfl⟩

/-- An interrupted check that passes has found the zone. -/
theorem returns_checkZoneKey_interrupted {factory checked : RrsetFactory}
    (hnew : factory.checked = false)
    (h : (factory.checkZoneKey >>= raise).Returns (Interrupted.handle services) state checked
      state') :
    checked.zone = DbMgr.lookupZone state.world.db factory.zone ∧ checked.zone.id ≠ 0 ∧
      state'.world.db = state.world.db := by
  obtain ⟨⟨outcome, object⟩, middle, hcheck, hraise⟩ := Program.returns_bind.mp h
  obtain ⟨⟨first, found⟩, looked, honly, hmatch⟩ := Program.returns_bind.mp hcheck
  obtain ⟨hzone, hid, rfl⟩ := returns_onlyCheckZone_interrupted hnew honly
  rcases outcome with fault | _
  · exact (Program.returns_throw.mp hraise).elim
  obtain ⟨rfl, rfl⟩ := Program.returns_pure.mp hraise
  have hobject : (∃ value, first = .ok value) ∧ object = found ∧
      middle.world.db = state.world.db := by
    rcases first with fault | _
    · cases (Program.returns_pure.mp hmatch).1
    · refine ⟨⟨_, rfl⟩, ?_⟩
      simp only at hmatch
      split_ifs at hmatch
      · obtain ⟨hobject, rfl⟩ := Program.returns_pure.mp hmatch
        cases hobject
        exact ⟨rfl, rfl⟩
      · obtain ⟨matched, after, hattempt, hend⟩ := Program.returns_bind.mp hmatch
        obtain ⟨hhealthy, -⟩ := Interrupted.returns_of_steady
          ((callsOnly_attempt (asks_matchCertificate _ _)).mono Call.Asks.steady) hattempt
        have hdb := db_of_returns (callsOnly_attempt (reads_matchCertificate _ _)) hhealthy
        rcases matched with _ | _ | _
        · cases (Program.returns_pure.mp hend).1
        · cases (Program.returns_pure.mp hend).1
        · obtain ⟨hobject, rfl⟩ := Program.returns_pure.mp hend
          cases hobject
          exact ⟨rfl, hdb⟩
  obtain ⟨hok, rfl, hdb⟩ := hobject
  have hfound := hid hok
  rw [hzone] at hfound ⊢
  rw [DbMgr.foundZone_of_ne hfound]
  exact ⟨rfl, DbMgr.foundZone_of_ne hfound ▸ hfound, hdb⟩

end RrsetFactory

end Ndns.Daemon

namespace Ndns.Mgmt

open Ndn Calls Daemon

/-- The rows a regeneration selects, after the old denial records of the zone are gone. -/
def selectedRows (db : Database) (zoneId : ℕ) : List RrsetRow :=
  DbMgr.zoneRows (db.deleteRrsetsByType zoneId Label.doeRrType) zoneId

theorem length_selectedRows (db : Database) (zoneId : ℕ) :
    (selectedRows db zoneId).length = (records db zoneId).length := by
  have hfilter : (db.deleteRrsetsByType zoneId Label.doeRrType).rrsets.filter
      (fun row ↦ row.zoneId = zoneId) = records db zoneId := by
    rw [Database.deleteRrsetsByType, records, List.filter_filter]
    refine List.filter_congr fun row _ ↦ ?_
    by_cases hzone : row.zoneId = zoneId <;> simp [RrsetRow.hasType, hzone]
  rw [selectedRows, DbMgr.zoneRows, Database.selectRrsets, List.length_insertionSort, hfilter]

namespace ManagementTool

variable [PacketFormat] {Keys : Type} {services : Services Keys} {state state' : Interrupted Keys}
  {zone : Zone}

theorem steady_insertDoe (factory : RrsetFactory) (label lowerLabel upperLabel : Name) :
    (insertDoe factory label lowerLabel upperLabel).CallsOnly Interrupted.Steady :=
  ((RrsetFactory.asks_generateRrset _ _ _ _ _ _ _).mono Call.Asks.steady).bind fun doe ↦
    (DbMgr.steady_insertRrset doe).bind fun _ ↦ trivial

theorem steady_insertRanges (factory : RrsetFactory) (first : Rrset) (rest : List Rrset) :
    (insertRanges factory (first :: rest)).CallsOnly Interrupted.Steady := by
  induction rest generalizing first with
  | nil => trivial
  | cons second rest ih => exact (steady_insertDoe _ _ _ _).bind fun _ ↦ ih second

theorem steady_insertChain (factory : RrsetFactory) (allRecords : List Rrset) :
    (insertChain factory allRecords).CallsOnly Interrupted.Steady := by
  cases allRecords with
  | nil => trivial
  | cons first rest =>
      exact (steady_insertRanges factory first rest).bind fun _ ↦
        (steady_insertDoe _ _ _ _).bind fun _ ↦ steady_insertDoe _ _ _ _

/-- What a regeneration whose lookups are interrupted returns: the chain over the rows that were
delivered. -/
theorem returns_generateDoe_interrupted {zone' : Zone}
    (h : (generateDoe zone).Returns (Interrupted.handle services) state zone' state') :
    zone' = DbMgr.lookupZone state.world.db zone ∧ zone'.id ≠ 0 ∧
      DbMgr.delivered (state.stops 1) (selectedRows state.world.db zone'.id) ≠ [] ∧
      Appends zone.name zone'.id
        (denialChain ((((DbMgr.delivered (state.stops 1) (selectedRows state.world.db
          zone'.id)).map (DbMgr.restore zone')).insertionSort fun left right ↦
            rrsetKey left ≤ rrsetKey right).map doeName))
        (state.world.db.deleteRrsetsByType zone'.id Label.doeRrType) state'.world.db := by
  unfold generateDoe at h
  obtain ⟨found, looked, hfind, h⟩ := Program.returns_bind.mp h
  rw [Program.Returns, DbMgr.run_findZone_interrupted] at hfind
  obtain ⟨hfound, rfl⟩ := Prod.mk.inj hfind
  obtain rfl := Except.ok.inj hfound
  obtain ⟨_, required, hrequire, h⟩ := Program.returns_bind.mp h
  have hrequired : (DbMgr.foundZone state zone).id ≠ 0 ∧ required = state.next := by
    unfold require at hrequire
    split_ifs at hrequire with hid
    · exact ⟨hid, (Program.returns_pure.mp hrequire).2.symm⟩
    · exact (Program.returns_throw.mp hrequire).elim
  obtain ⟨hid, rfl⟩ := hrequired
  rw [DbMgr.foundZone_of_ne hid] at h hid
  obtain ⟨_, removed, hremove, h⟩ := Program.returns_bind.mp h
  obtain ⟨hremoved, hstops⟩ := Interrupted.returns_of_steady
    (DbMgr.steady_removeRrsetsOfZoneByType hid _) hremove
  obtain ⟨-, hworld⟩ := (Program.returns_iff_of_run
    (DbMgr.run_removeRrsetsOfZoneByType hid Label.doeRrType _)).mp hremoved
  have hdb : removed.world.db = state.world.db.deleteRrsetsByType
      (DbMgr.lookupZone state.world.db zone).id Label.doeRrType := (congrArg World.db hworld).symm
  have hdelivered : removed.stops 0 = state.stops 1 := congrFun hstops 0
  obtain ⟨_, selected, hselect, h⟩ := Program.returns_bind.mp h
  rw [Program.Returns, DbMgr.run_findRrsets_delivered hid] at hselect
  obtain ⟨hrecords, rfl⟩ := Prod.mk.inj hselect
  obtain rfl := Except.ok.inj hrecords
  obtain ⟨factory, made, hmake, h⟩ := Program.returns_bind.mp h
  obtain ⟨hmade, -⟩ := Interrupted.returns_of_steady
    ((RrsetFactory.asks_make _ _).mono Call.Asks.steady) hmake
  have hmadeDb := db_of_returns (RrsetFactory.reads_make _ _) hmade
  obtain ⟨hfactoryZone, hfactoryNew⟩ := RrsetFactory.returns_make hmade
  obtain ⟨outcome, checkedState, hcheck, h⟩ := Program.returns_bind.mp h
  obtain ⟨checked, raised, hraise, h⟩ := Program.returns_bind.mp h
  obtain ⟨hcheckedZone, hcheckedId, hcheckedDb⟩ := RrsetFactory.returns_checkZoneKey_interrupted
    hfactoryNew (Program.returns_bind.mpr ⟨outcome, checkedState, hcheck, hraise⟩)
  obtain ⟨_, chained, hchain, h⟩ := Program.returns_bind.mp h
  obtain ⟨rfl, rfl⟩ := Program.returns_pure.mp h
  obtain ⟨hchainHealthy, -⟩ := Interrupted.returns_of_steady (steady_insertChain _ _) hchain
  obtain ⟨hnonempty, happends⟩ := returns_insertChain hcheckedId hchainHealthy
  have hname : (DbMgr.lookupZone state.world.db zone).name = zone.name :=
    DbMgr.lookupZone_name _ _
  have hcheckedName : checked.zone.name = zone.name := by
    rw [hcheckedZone, DbMgr.lookupZone_name, hfactoryZone]
    exact hname
  have hcheckedSame : checked.zone.id = (DbMgr.lookupZone state.world.db zone).id := by
    rw [hcheckedZone, hfactoryZone]
    refine DbMgr.lookupZone_id_congr ?_ hname
    have hzones : removed.world.db.zones = state.world.db.zones := by
      rw [hdb]
      rfl
    rw [hmadeDb]
    exact hzones
  have hbase : made.world.db = state.world.db.deleteRrsetsByType
      (DbMgr.lookupZone state.world.db zone).id Label.doeRrType := hmadeDb.trans hdb
  rw [hcheckedName, hcheckedSame, hcheckedDb, hbase, hdelivered, hdb] at happends
  refine ⟨rfl, hid, fun hempty ↦ hnonempty ?_, happends⟩
  rw [selectedRows] at hempty
  rw [hdelivered, hdb, hempty]
  rfl

/-- After an interrupted regeneration the chain is fresh exactly when all rows were delivered. -/
theorem generateDoe_fresh_iff {zone' : Zone}
    (h : (generateDoe zone).Returns (Interrupted.handle services) state zone' state') :
    Fresh state'.world.db zone'.id ↔
      ∀ count, state.stops 1 = some count → (records state.world.db zone'.id).length ≤ count := by
  obtain ⟨rfl, hid, hne, happends⟩ := returns_generateDoe_interrupted h
  have hcomplete := @DbMgr.delivered_eq_self_iff (state.stops 1)
    (selectedRows state.world.db (DbMgr.lookupZone state.world.db zone).id)
  rw [length_selectedRows] at hcomplete
  rw [← hcomplete]
  constructor
  · intro hfresh
    have hlength := hfresh.length_eq
    simp only [List.length_map, happends.denials.length_eq, length_denialChain, recordNames,
      happends.records, List.length_insertionSort] at hlength
    have hpos := List.length_pos_iff.mpr hne
    refine DbMgr.delivered_eq_of_length ?_
    rw [length_selectedRows]
    split_ifs at hlength <;> omega
  · intro hall
    rw [hall] at happends
    rw [selectedRows, map_doeName_sorted] at happends
    exact Regenerates.fresh happends

end ManagementTool

section Examples

open LocalServices

attribute [local instance] ndnPacketFormat

/-- The database of the zone /n, with one `sqlite3_step` call that yields an error code. -/
def busyState (statement count : ℕ) : Interrupted ℕ :=
  ⟨⟨createdDatabase, 0⟩, fun index ↦ if index = statement then some count else none⟩

/-- A query for a certificate of the zone /n. -/
def certQuery : Label.MatchResult := ⟨certLabel 2, Label.certRrType, Component.fromVersion 3⟩

/-- A later version of the certificate. -/
def laterCert : Data :=
  ⟨Label.recordName [letter 110] (certLabel 2) Label.certRrType ++ [Component.fromVersion 9],
    NdnsContentType.key.toCode, 0, [], [], []⟩

def laterPacket : Received := ⟨(Layout.encode laterCert).getD Block.invalid, laterCert, by decide⟩

/-- The row of the certificate. -/
def certRow : RrsetRow :=
  (DbMgr.keyRow createdDatabase 1 (certLabel 2) Label.certRrType).get (by decide +kernel)

end Examples

end Ndns.Mgmt
