import Ndns.Daemon.Database
import Mathlib.Data.List.Nodup

/-!
# Table Constraints

The primary keys and unique columns of the schema, and that no statement breaks them.  Row ids are
positive because the first one is 1, which is what lets id 0 stand for a missing row.
-/

namespace Ndns.Daemon

open Ndn

/-- The columns of the unique index of the rrsets table. -/
def RrsetRow.indexKey (row : RrsetRow) : ℕ × Name × Component × Component :=
  (row.zoneId, row.label, row.type, row.version)

/-- The columns a record is looked up by. -/
def RrsetRow.key (row : RrsetRow) : ℕ × Name × Component := (row.zoneId, row.label, row.type)

namespace Database

/-- At most one row, and so one version, for each zone, label and type. -/
def SingleVersion (db : Database) : Prop := (db.rrsets.map RrsetRow.key).Nodup

structure Valid (db : Database) : Prop where
  zoneIds : (db.zones.map ZoneRow.id).Nodup
  zoneIds_pos : ∀ zone ∈ db.zones, 0 < zone.id
  zoneNames : (db.zones.map ZoneRow.name).Nodup
  ids : (db.rrsets.map RrsetRow.id).Nodup
  ids_pos : ∀ row ∈ db.rrsets, 0 < row.id
  index : (db.rrsets.map RrsetRow.indexKey).Nodup

theorem valid_empty : empty.Valid := by
  constructor <;> simp [empty]

theorem nodup_map_append_singleton {Row Key : Type} {key : Row → Key} {rows : List Row} {row : Row}
    (hrows : (rows.map key).Nodup) (hrow : ∀ other ∈ rows, key other ≠ key row) :
    ((rows ++ [row]).map key).Nodup := by
  rw [List.map_append, List.map_singleton, List.nodup_append]
  refine ⟨hrows, List.nodup_singleton _, ?_⟩
  intro value hvalue other hother
  obtain ⟨member, hmember, rfl⟩ := List.mem_map.mp hvalue
  rw [List.mem_singleton.mp hother]
  exact hrow member hmember

theorem nodup_map_filter {Row Key : Type} {key : Row → Key} {rows : List Row}
    (hrows : (rows.map key).Nodup) (keep : Row → Bool) : ((rows.filter keep).map key).Nodup :=
  hrows.sublist (List.filter_sublist.map _)

theorem ne_nextRowId {Row : Type} {id : Row → ℕ} {rows : List Row} {row : Row}
    (hrow : row ∈ rows) : id row ≠ nextRowId (rows.map id) :=
  (lt_nextRowId (List.mem_map_of_mem hrow)).ne

variable {db : Database}

theorem Valid.insertZone (h : db.Valid) {name : Name} (ttl : ℤ)
    (hnew : ∀ zone ∈ db.zones, zone.name ≠ name) :
    (db.insertZone name ttl).Valid where
  zoneIds := nodup_map_append_singleton h.zoneIds fun _ ↦ ne_nextRowId
  zoneIds_pos := by
    intro zone hzone
    rcases List.mem_append.mp hzone with hold | hnewZone
    · exact h.zoneIds_pos zone hold
    · rw [List.mem_singleton.mp hnewZone]
      exact nextRowId_pos _
  zoneNames := nodup_map_append_singleton h.zoneNames hnew
  ids := h.ids
  ids_pos := h.ids_pos
  index := h.index

theorem Valid.filterZones (h : db.Valid) (keep : ZoneRow → Bool) :
    Valid { db with zones := db.zones.filter keep } where
  zoneIds := nodup_map_filter h.zoneIds keep
  zoneIds_pos zone hzone := h.zoneIds_pos zone (List.mem_of_mem_filter hzone)
  zoneNames := nodup_map_filter h.zoneNames keep
  ids := h.ids
  ids_pos := h.ids_pos
  index := h.index

theorem Valid.filterRrsets (h : db.Valid) (keep : RrsetRow → Bool) :
    Valid { db with rrsets := db.rrsets.filter keep } where
  zoneIds := h.zoneIds
  zoneIds_pos := h.zoneIds_pos
  zoneNames := h.zoneNames
  ids := nodup_map_filter h.ids keep
  ids_pos row hrow := h.ids_pos row (List.mem_of_mem_filter hrow)
  index := nodup_map_filter h.index keep

theorem Valid.insertRrset (h : db.Valid) {zoneId : ℕ} {label : Name} {type version : Component}
    (ttl : ℤ) (data : Block)
    (hnew : ∀ row ∈ db.rrsets, row.indexKey ≠ (zoneId, label, type, version)) :
    (db.insertRrset zoneId label type version ttl data).Valid where
  zoneIds := h.zoneIds
  zoneIds_pos := h.zoneIds_pos
  zoneNames := h.zoneNames
  ids := nodup_map_append_singleton h.ids fun _ ↦ ne_nextRowId
  ids_pos := by
    intro row hrow
    rcases List.mem_append.mp hrow with hold | hnewRow
    · exact h.ids_pos row hold
    · rw [List.mem_singleton.mp hnewRow]
      exact nextRowId_pos _
  index := nodup_map_append_singleton h.index hnew

theorem Valid.insertZoneInfo (h : db.Valid) (zoneId : ℤ) (key : String) (value : Block) :
    (db.insertZoneInfo zoneId key value).Valid :=
  ⟨h.zoneIds, h.zoneIds_pos, h.zoneNames, h.ids, h.ids_pos, h.index⟩

theorem forbidsUpdate_eq_false {id : ℕ} {version : Component}
    (h : db.forbidsUpdate id version = false) {row other : RrsetRow} (hrow : row ∈ db.rrsets)
    (hid : row.id = id) (hother : other ∈ db.rrsets) (hne : other.id ≠ id) :
    other.indexKey ≠ (row.zoneId, row.label, row.type, version) := by
  intro hkey
  simp only [RrsetRow.indexKey, Prod.mk.injEq] at hkey
  have htrue : db.forbidsUpdate id version = true := by
    rw [forbidsUpdate, List.any_eq_true]
    refine ⟨row, hrow, ?_⟩
    simp only [hid, true_and, decide_eq_true_eq, List.any_eq_true]
    exact ⟨other, hother, by simpa using ⟨hne, hkey⟩⟩
  rw [h] at htrue
  cases htrue

theorem Valid.updateRrset (h : db.Valid) {id : ℕ} (ttl : ℤ) {version : Component} (data : Block)
    (hallowed : db.forbidsUpdate id version = false) :
    (db.updateRrset id ttl version data).Valid where
  zoneIds := h.zoneIds
  zoneIds_pos := h.zoneIds_pos
  zoneNames := h.zoneNames
  ids := by
    have hids : (db.updateRrset id ttl version data).rrsets.map RrsetRow.id =
        db.rrsets.map RrsetRow.id := by
      rw [Database.updateRrset, List.map_map]
      refine List.map_congr_left fun row _ ↦ ?_
      simp only [Function.comp]
      split_ifs <;> rfl
    rw [hids]
    exact h.ids
  ids_pos := by
    intro row hrow
    obtain ⟨old, hold, rfl⟩ := List.mem_map.mp hrow
    have hpos := h.ids_pos old hold
    split_ifs <;> exact hpos
  index := by
    rw [Database.updateRrset, List.map_map]
    refine List.Nodup.map_on ?_ (List.Nodup.of_map _ h.ids)
    intro left hleft right hright hkey
    by_contra hne
    have hneId : left.id ≠ right.id := fun hid ↦ hne (List.inj_on_of_nodup_map h.ids hleft hright hid)
    simp only [Function.comp] at hkey
    split_ifs at hkey with hl hr hr
    · exact hneId (hl.trans hr.symm)
    · exact forbidsUpdate_eq_false hallowed hleft hl hright hr hkey.symm
    · exact forbidsUpdate_eq_false hallowed hright hr hleft hl hkey
    · exact hne (List.inj_on_of_nodup_map h.index hleft hright hkey)

theorem forbidsUpdate_iff (hvalid : db.Valid) {row : RrsetRow} (hrow : row ∈ db.rrsets)
    {version : Component} (hnewer : row.version < version) :
    db.forbidsUpdate row.id version = true ↔
      ∃ other ∈ db.rrsets, other.indexKey = (row.zoneId, row.label, row.type, version) := by
  constructor
  · intro h
    obtain ⟨same, hsame, hboth⟩ := List.any_eq_true.mp h
    simp only [decide_eq_true_eq, List.any_eq_true] at hboth
    obtain ⟨hid, other, hother, hkey⟩ := hboth
    obtain rfl : same = row := List.inj_on_of_nodup_map hvalid.ids hsame hrow hid
    exact ⟨other, hother, by simpa [RrsetRow.indexKey] using hkey.2⟩
  · rintro ⟨other, hother, hkey⟩
    by_contra hallowed
    have hne : other.id ≠ row.id := by
      intro hid
      obtain rfl : other = row := List.inj_on_of_nodup_map hvalid.ids hother hrow hid
      simp only [RrsetRow.indexKey, Prod.mk.injEq, true_and] at hkey
      exact hnewer.ne hkey
    exact forbidsUpdate_eq_false (Bool.eq_false_iff.mpr hallowed) hrow rfl hother hne hkey

theorem updateRrset_ne {row : RrsetRow} (hrow : row ∈ db.rrsets) {version : Component}
    (hnewer : row.version < version) (ttl : ℤ) (wire : Block) :
    db.updateRrset row.id ttl version wire ≠ db := by
  intro hsame
  have hrows : db.rrsets.map (fun other ↦
      if other.id = row.id then other.overwrite ttl version wire else other) =
        db.rrsets.map id := by
    rw [List.map_id]
    exact congrArg Database.rrsets hsame
  have hversion := congrArg RrsetRow.version (List.map_inj_left.mp hrows row hrow)
  rw [if_pos rfl] at hversion
  exact hnewer.ne hversion.symm

theorem insertRrset_ne (zoneId : ℕ) (label : Name) (type version : Component) (ttl : ℤ)
    (wire : Block) : db.insertRrset zoneId label type version ttl wire ≠ db := by
  intro hsame
  have hlength := congrArg (fun tables : Database ↦ tables.rrsets.length) hsame
  simp [Database.insertRrset] at hlength

end Database

/-- No statement breaks a constraint of the schema. -/
theorem Sql.execute_valid (statement : Sql) {db : Database} (h : db.Valid) :
    (statement.execute db).2.Valid := by
  cases statement with
  | insertZone name ttl =>
      simp only [Sql.execute]
      split_ifs with hexists
      · exact h
      · refine h.insertZone ttl fun zone hzone hname ↦ hexists ?_
        exact List.any_eq_true.mpr ⟨zone, hzone, by simpa using hname⟩
  | insertZoneInfo zoneId key value => exact h.insertZoneInfo zoneId key value
  | deleteZone id => exact h.filterZones _
  | insertRrset zoneId label type version ttl data =>
      simp only [Sql.execute]
      split_ifs with hexists
      · exact h
      · refine h.insertRrset ttl data fun row hrow hkey ↦ hexists ?_
        simp only [RrsetRow.indexKey, Prod.mk.injEq] at hkey
        exact List.any_eq_true.mpr ⟨row, hrow, by simpa using hkey⟩
  | deleteRrsetsByType zoneId type => exact h.filterRrsets _
  | deleteRrset id => exact h.filterRrsets _
  | updateRrset id ttl version data =>
      simp only [Sql.execute]
      split_ifs with hforbidden
      · exact h
      · exact h.updateRrset ttl data (by simpa using hforbidden)
  | clearAllData => constructor <;> simp [Sql.execute]
  | selectZoneInfo | selectZone | selectZones | selectRrset | selectLowerBound | selectRrsets =>
      exact h

end Ndns.Daemon
