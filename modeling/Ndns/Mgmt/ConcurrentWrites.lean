import Ndns.Mgmt.WriteAutomata

/-!
# Updates during an Addition

The name server updates a record while the management tool adds one, in another process on the same
database.  What keeps their records apart from each other is that the lookup of a process and its
writes belong together: when the other process does not come in between with a write of the same
record, the record ends with the newest version that was acknowledged.
-/

namespace Ndns.Mgmt

open Ndn Calls Daemon DbMgr Order.CircularRanges

/-- The record is stored, in this version or a newer one. -/
def AtLeast (db : Database) (key : ℕ × Name × Component) (version : Component) : Prop :=
  ∃ row, rowAt db key = some row ∧ version ≤ row.version

/-! ## Both together -/

theorem AtLeast.congr {db db' : Database} {key : ℕ × Name × Component} {version : Component}
    (h : AtLeast db key version) (hrow : rowAt db' key = rowAt db key) :
    AtLeast db' key version := by
  unfold AtLeast
  rw [hrow]
  exact h

/-- The process has looked up its record and has still to write it. -/
def AdditionPhase.Writes : AdditionPhase → Prop
  | .judged _ | .emptied => True
  | _ => False

@[inherit_doc AdditionPhase.Writes]
def UpdatePhase.Writes : UpdatePhase → Prop
  | .judged _ => True
  | _ => False

/-- What an addition knows of its record. -/
def AdditionPhase.Knows (key : ℕ × Name × Component) (version : Component) (db : Database) :
    AdditionPhase → Prop
  | .judged found => rowAt db key = found ∧ ∀ row ∈ found, row.version < version
  | .emptied => rowAt db key = none
  | .regenerating _ => AtLeast db key version
  | _ => True

/-- The denial records that have been inserted so far belong to the first labels of the chain. -/
def RegenerationPhase.Chains (zoneId : ℕ) (db : Database) : RegenerationPhase → Prop
  | .waiting => True
  | .cleared => denials db zoneId = []
  | .inserting names count => ((denialChain names).map Prod.fst).Nodup ∧
      ∀ row ∈ denials db zoneId, row.label ∈ ((denialChain names).map Prod.fst).take count

/-- The tables while an addition and an update take turns.  An updated record may be missing for a
while, when the addition is about to insert it in a newer version. -/
structure Writing (zones : List ZoneRow) (added updated : ℕ × Name × Component)
    (addedVersion updatedVersion : Component) (left : AdditionPhase) (right : UpdatePhase)
    (db : Database) : Prop where
  valid : db.Valid
  single : db.SingleVersion
  zones : db.zones = zones
  chains : ∀ phase, left = .regenerating phase → phase.Chains added.1 db
  knows : left.Knows added addedVersion db
  judged : ∀ found, right = .judged found →
    rowAt db updated = found ∧ ∀ row ∈ found, row.version < updatedVersion
  written : right = .written → AtLeast db updated updatedVersion ∨
    left = .emptied ∧ updated = added ∧ updatedVersion ≤ addedVersion

/-- The two processes may take turns, unless both are about to write the same record. -/
def Compatible (added updated : ℕ × Name × Component) (left : AdditionPhase) (right : UpdatePhase) :
    Prop := updated = added → ¬ (left.Writes ∧ right.Writes)

section Writing

variable {zones : List ZoneRow} {zoneName : Name} {added updated : ℕ × Name × Component}
  {addedVersion updatedVersion : Component} {left left' : AdditionPhase}
  {right right' : UpdatePhase} {db db' : Database} {statement : Sql}

/-- Nothing about the records has changed. -/
theorem AdditionPhase.Knows.congr (h : left.Knows added addedVersion db)
    (hrow : rowAt db' added = rowAt db added) : left.Knows added addedVersion db' := by
  cases left with
  | checking => trivial
  | turnedAway => trivial
  | judged found => exact ⟨hrow.trans h.1, h.2⟩
  | emptied => exact hrow.trans h
  | regenerating phase => exact AtLeast.congr h hrow

theorem rowAt_eq_none_of_free (hknows : left.Knows added addedVersion db)
    (hphase : left = .judged none ∨ left = .emptied) : rowAt db added = none := by
  rcases hphase with rfl | rfl
  · exact hknows.1
  · exact hknows

theorem not_conflict {key : ℕ × Name × Component} {version : Component}
    (hnone : rowAt db key = none) :
    ¬ db.rrsets.any fun row ↦ row.sameIndex key.1 key.2.1 key.2.2 version := by
  intro hconflict
  obtain ⟨row, hrow, hsame⟩ := List.any_eq_true.mp hconflict
  obtain ⟨hzone, hlabel, htype, -⟩ := RrsetRow.sameIndex_iff.mp hsame
  refine rowAt_eq_none_iff.mp hnone row hrow ?_
  rw [RrsetRow.key, hzone, hlabel, htype]

/-- The statement that deletes the older row of the record. -/
theorem Writing.delete {row : RrsetRow}
    (hapart : Compatible added updated (.judged (some row)) right)
    (h : Writing zones added updated addedVersion updatedVersion (.judged (some row)) right db) :
    Writing zones added updated addedVersion updatedVersion .emptied right
      (db.deleteRrset row.id) := by
  obtain ⟨hrow, holder⟩ := h.knows
  have hrowAt : ∀ other, rowAt (db.deleteRrset row.id) other =
      if other = added then none else rowAt db other :=
    fun _ ↦ rowAt_deleteRrset h.valid h.single hrow
  constructor
  · exact h.valid.filterRrsets _
  · exact h.single.sublist List.filter_sublist
  · exact h.zones
  · rintro phase ⟨⟩
  · exact (hrowAt added).trans (if_pos rfl)
  · rintro found rfl
    have hne : updated ≠ added := fun hsame ↦ hapart hsame ⟨trivial, trivial⟩
    rw [hrowAt, if_neg hne]
    exact h.judged found rfl
  · intro hright
    rcases h.written hright with hstored | ⟨hphase, -⟩
    · by_cases hsame : updated = added
      · obtain ⟨stored, hstored, hversion⟩ := hstored
        rw [hsame, hrow] at hstored
        obtain rfl := Option.some.inj hstored
        exact Or.inr ⟨rfl, hsame, hversion.trans (holder row rfl).le⟩
      · exact Or.inl (hstored.congr ((hrowAt updated).trans (if_neg hsame)))
    · cases hphase

/-- The statement that inserts the record. -/
theorem Writing.insert (hapart : Compatible added updated left right)
    (h : Writing zones added updated addedVersion updatedVersion left right db)
    (hphase : left = .judged none ∨ left = .emptied) (ttl : ℤ) (data : Block) :
    Writing zones added updated addedVersion updatedVersion (.regenerating .waiting) right
      (db.insertRrset added.1 added.2.1 added.2.2 addedVersion ttl data) := by
  have hnone := rowAt_eq_none_of_free h.knows hphase
  have hinserted := inserted_of_rowAt_none h.valid h.single hnone addedVersion ttl data
  have hwrites : left.Writes := by
    rcases hphase with rfl | rfl
    · trivial
    · trivial
  have hrowAt : ∀ other, rowAt (db.insertRrset added.1 added.2.1 added.2.2 addedVersion ttl data)
      other = if other = added then some _ else rowAt db other :=
    fun _ ↦ rowAt_insertRrset hnone addedVersion ttl data
  have hadded : AtLeast (db.insertRrset added.1 added.2.1 added.2.2 addedVersion ttl data) added
      addedVersion := ⟨_, (hrowAt added).trans (if_pos rfl), le_rfl⟩
  constructor
  · exact hinserted.1
  · exact hinserted.2
  · exact h.zones
  · intro phase hphase
    cases hphase
    trivial
  · exact hadded
  · rintro found rfl
    have hne : updated ≠ added := fun hsame ↦ hapart hsame ⟨hwrites, trivial⟩
    rw [hrowAt, if_neg hne]
    exact h.judged found rfl
  · intro hright
    rcases h.written hright with hstored | ⟨-, rfl, hversion⟩
    · by_cases hsame : updated = added
      · obtain ⟨stored, hstored, -⟩ := hstored
        rw [hsame, hnone] at hstored
        cases hstored
      · exact Or.inl (hstored.congr ((hrowAt updated).trans (if_neg hsame)))
    · obtain ⟨row, hrow, hrowVersion⟩ := hadded
      exact Or.inl ⟨row, hrow, hversion.trans hrowVersion⟩

/-- The tables hold no other rows of the two records than before. -/
theorem Writing.of_rows (h : Writing zones added updated addedVersion updatedVersion left right db)
    (hvalid : db'.Valid) (hsingle : db'.SingleVersion) (hzones : db'.zones = db.zones)
    (hadded : rowAt db' added = rowAt db added) (hupdated : rowAt db' updated = rowAt db updated)
    (hknows : left.Knows added addedVersion db → left'.Knows added addedVersion db)
    (hleft : left = .emptied → left' = .emptied)
    (hchains : ∀ phase, left' = .regenerating phase → phase.Chains added.1 db') :
    Writing zones added updated addedVersion updatedVersion left' right db' where
  valid := hvalid
  single := hsingle
  zones := hzones.trans h.zones
  chains := hchains
  knows := (hknows h.knows).congr hadded
  judged found hright := by
    rw [hupdated]
    exact h.judged found hright
  written hright := (h.written hright).imp (fun hstored ↦ hstored.congr hupdated)
    (And.imp_left hleft)

/-- A lookup that the addition makes. -/
theorem Writing.look {found : Option RrsetRow} (hfound : rowAt db added = found)
    (holder : ∀ row ∈ found, row.version < addedVersion)
    (h : Writing zones added updated addedVersion updatedVersion .checking right db) :
    Writing zones added updated addedVersion updatedVersion (.judged found) right db :=
  h.of_rows h.valid h.single rfl rfl rfl (fun _ ↦ ⟨hfound, holder⟩) (by rintro ⟨⟩)
    (by rintro phase ⟨⟩)

theorem Writing.turn
    (h : Writing zones added updated addedVersion updatedVersion .checking right db) :
    Writing zones added updated addedVersion updatedVersion .turnedAway right db :=
  h.of_rows h.valid h.single rfl rfl rfl (fun _ ↦ trivial) (by rintro ⟨⟩) (by rintro phase ⟨⟩)

/-- A statement of the regeneration, which is not about the two records. -/
theorem Writing.regenerate [PacketFormat] {phase phase' : RegenerationPhase}
    (hadded : added.2.2 ≠ Label.doeRrType) (hupdated : updated.2.2 ≠ Label.doeRrType)
    (h : Writing zones added updated addedVersion updatedVersion (.regenerating phase) right db)
    (hmove : RegenerationMove zoneName added.1 db phase (.sql statement) phase') :
    Writing zones added updated addedVersion updatedVersion (.regenerating phase') right
      (statement.execute db).2 := by
  have hchains := h.chains phase rfl
  cases hmove with
  | read hreads =>
      have hsame : (statement.execute db).2 = db := by
        cases statement <;> first | rfl | exact hreads.elim
      rw [hsame]
      exact h
  | clear =>
      refine h.of_rows (h.valid.filterRrsets _) (h.single.sublist List.filter_sublist) rfl
        (rowAt_deleteRrsetsByType hadded _) (rowAt_deleteRrsetsByType hupdated _) id
        (by rintro ⟨⟩) ?_
      intro phase hphase
      cases hphase
      simp [RegenerationPhase.Chains, Sql.execute, denials, Database.deleteRrsetsByType,
        List.filter_filter]
  | collect =>
      refine h.of_rows h.valid h.single rfl rfl rfl id (by rintro ⟨⟩) ?_
      intro phase hphase
      cases hphase
      refine ⟨nodup_denialChain_labels h.single _, fun row hrow ↦ ?_⟩
      have hnone : denials db added.1 = [] := hchains
      change row ∈ denials db added.1 at hrow
      rw [hnone] at hrow
      cases hrow
  | @insert names count denial version ttl data hdenial hrow hfree =>
      obtain ⟨hnodup, hlabels⟩ := hchains
      have hlabel : ((denialChain names).map Prod.fst)[count]? = some denial.1 := by
        rw [List.getElem?_map, hdenial]
        rfl
      have hnone : rowAt db (added.1, denial.1, Label.doeRrType) = none := by
        rw [rowAt_eq_none_iff]
        intro row hrow hkey
        simp only [RrsetRow.key, Prod.mk.injEq] at hkey
        have hmem := hlabels row
          (List.mem_filter.mpr ⟨hrow, RrsetRow.hasType_iff.mpr ⟨hkey.1, hkey.2.2⟩⟩)
        have hnext : denial.1 ∈ ((denialChain names).map Prod.fst).drop count := by
          refine @List.mem_of_getElem? _ _ 0 _ ?_
          rw [List.getElem?_drop, Nat.add_zero, hlabel]
        exact List.disjoint_take_drop hnodup le_rfl (hkey.2.1 ▸ hmem) hnext
      have hrowAt : ∀ other : ℕ × Name × Component, other.2.2 ≠ Label.doeRrType →
          rowAt (db.insertRrset added.1 denial.1 Label.doeRrType version ttl data) other =
            rowAt db other := by
        intro other hother
        refine (rowAt_insertRrset hnone version ttl data).trans (if_neg ?_)
        rintro rfl
        exact hother rfl
      obtain ⟨hvalid, hsingle⟩ :=
        inserted_of_rowAt_none h.valid h.single hnone version ttl data
      rw [Sql.execute, if_neg hfree]
      refine h.of_rows hvalid hsingle rfl (hrowAt _ hadded) (hrowAt _ hupdated) id
        (by rintro ⟨⟩) ?_
      intro phase hphase
      cases hphase
      refine ⟨hnodup, fun row hmem ↦ ?_⟩
      rw [List.take_add_one, hlabel, List.mem_append]
      obtain ⟨hmem, hisDenial⟩ := List.mem_filter.mp hmem
      rcases List.mem_append.mp hmem with hold | hnew
      · exact Or.inl (hlabels row (List.mem_filter.mpr ⟨hold, hisDenial⟩))
      · rw [List.mem_singleton.mp hnew]
        exact Or.inr List.mem_cons_self
  | refuse hconflict =>
      rw [Sql.execute, if_pos hconflict]
      exact h

/-- A statement of the addition. -/
theorem Writing.stepAddition [PacketFormat] (hadded : added.2.2 ≠ Label.doeRrType)
    (hupdated : updated.2.2 ≠ Label.doeRrType) (hapart : Compatible added updated left right)
    (h : Writing zones added updated addedVersion updatedVersion left right db)
    (hmove : AdditionMove zoneName added addedVersion db left (.sql statement) left') :
    Writing zones added updated addedVersion updatedVersion left' right
      (statement.execute db).2 := by
  cases hmove with
  | read hreads =>
      have hsame : (statement.execute db).2 = db := by
        cases statement <;> first | rfl | exact hreads.elim
      rw [hsame]
      exact h
  | glance => exact h
  | look hfound holder => exact h.look hfound holder
  | turn => exact h.turn
  | delete => exact h.delete hapart
  | insert hphase hfree =>
      rw [Sql.execute, if_neg hfree]
      exact h.insert hapart hphase _ _
  | refuse hphase hconflict =>
      exact absurd hconflict (not_conflict (rowAt_eq_none_of_free h.knows hphase))
  | regenerate hmove => exact h.regenerate hadded hupdated hmove

theorem RegenerationPhase.Chains.of_subset {zoneId : ℕ} {phase : RegenerationPhase}
    (h : phase.Chains zoneId db) (hrows : ∀ row ∈ denials db' zoneId, row ∈ denials db zoneId) :
    phase.Chains zoneId db' := by
  cases phase with
  | waiting => trivial
  | cleared =>
      have hnone : denials db zoneId = [] := h
      rw [hnone] at hrows
      exact List.eq_nil_iff_forall_not_mem.mpr fun row hrow ↦
        absurd (hrows row hrow) List.not_mem_nil
  | inserting names count => exact ⟨h.1, fun row hrow ↦ h.2 row (hrows row hrow)⟩

/-- What a write of the other process does to what an addition knows: while its own writes are
still to come, the other process writes another record. -/
theorem AdditionPhase.Knows.of_write (hapart : ¬ (left.Writes ∧ updated = added))
    (h : left.Knows added addedVersion db)
    (hother : updated ≠ added → rowAt db' added = rowAt db added)
    (hsame : updated = added → AtLeast db added addedVersion → AtLeast db' added addedVersion) :
    left.Knows added addedVersion db' := by
  by_cases hkey : updated = added
  · cases left with
    | checking => trivial
    | turnedAway => trivial
    | judged found => exact absurd ⟨trivial, hkey⟩ hapart
    | emptied => exact absurd ⟨trivial, hkey⟩ hapart
    | regenerating phase => exact hsame hkey h
  · exact h.congr (hother hkey)

/-- The statement that overwrites the older row of the record. -/
theorem Writing.update {row : RrsetRow} (hupdated : updated.2.2 ≠ Label.doeRrType)
    (hapart : Compatible added updated left (.judged (some row)))
    (h : Writing zones added updated addedVersion updatedVersion left (.judged (some row)) db)
    (ttl : ℤ) (data : Block) :
    Writing zones added updated addedVersion updatedVersion left .written
      ((Sql.updateRrset row.id ttl updatedVersion data).execute db).2 := by
  obtain ⟨hrow, holder⟩ := h.judged _ rfl
  have hnewer := holder row rfl
  obtain ⟨hmem, hkey⟩ := (rowAt_eq_some_iff h.single).mp hrow
  have hallowed := NameServer.not_forbidsUpdate h.valid h.single hmem hnewer
  have hrowAt : ∀ other, rowAt (db.updateRrset row.id ttl updatedVersion data) other =
      if other = updated then some (row.overwrite ttl updatedVersion data) else rowAt db other :=
    fun _ ↦ rowAt_updateRrset h.valid h.single hrow ttl updatedVersion data
  have hstored : AtLeast (db.updateRrset row.id ttl updatedVersion data) updated updatedVersion :=
    ⟨_, (hrowAt updated).trans (if_pos rfl), le_rfl⟩
  have hexecute : ((Sql.updateRrset row.id ttl updatedVersion data).execute db).2 =
      db.updateRrset row.id ttl updatedVersion data := by
    simp only [Sql.execute, hallowed, Bool.false_eq_true, if_false]
  rw [hexecute]
  constructor
  · exact h.valid.updateRrset ttl data hallowed
  · exact h.single.updateRrset _ _ _ _
  · exact h.zones
  · refine fun phase hphase ↦ (h.chains phase hphase).of_subset fun other hother ↦ ?_
    obtain ⟨hotherMem, hzone, htype⟩ := mem_denials.mp hother
    obtain ⟨old, hold, rfl⟩ := List.mem_map.mp hotherMem
    split_ifs at hzone htype ⊢ with hid
    · rw [List.inj_on_of_nodup_map h.valid.ids hold hmem hid] at htype
      exact absurd ((congrArg (fun key ↦ key.2.2) hkey).symm.trans htype) hupdated
    · exact mem_denials.mpr ⟨hold, hzone, htype⟩
  · refine h.knows.of_write (fun hboth ↦ hapart hboth.2 ⟨hboth.1, trivial⟩)
      (fun hne ↦ (hrowAt added).trans (if_neg (Ne.symm hne))) ?_
    rintro rfl ⟨stored, hstoredRow, hversion⟩
    obtain rfl := Option.some.inj (hrow.symm.trans hstoredRow)
    exact ⟨_, (hrowAt updated).trans (if_pos rfl), hversion.trans hnewer.le⟩
  · rintro found ⟨⟩
  · exact fun _ ↦ Or.inl hstored

/-- The statement that inserts the updated record. -/
theorem Writing.insertUpdate (hupdated : updated.2.2 ≠ Label.doeRrType)
    (hapart : Compatible added updated left (.judged none))
    (h : Writing zones added updated addedVersion updatedVersion left (.judged none) db)
    (ttl : ℤ) (data : Block) :
    Writing zones added updated addedVersion updatedVersion left .written
      (db.insertRrset updated.1 updated.2.1 updated.2.2 updatedVersion ttl data) := by
  obtain ⟨hnone, -⟩ := h.judged _ rfl
  have hinserted := inserted_of_rowAt_none h.valid h.single hnone updatedVersion ttl data
  have hrowAt : ∀ other,
      rowAt (db.insertRrset updated.1 updated.2.1 updated.2.2 updatedVersion ttl data) other =
        if other = updated then some _ else rowAt db other :=
    fun _ ↦ rowAt_insertRrset hnone updatedVersion ttl data
  constructor
  · exact hinserted.1
  · exact hinserted.2
  · exact h.zones
  · refine fun phase hphase ↦ (h.chains phase hphase).of_subset fun other hother ↦ ?_
    obtain ⟨hotherMem, hzone, htype⟩ := mem_denials.mp hother
    rcases List.mem_append.mp hotherMem with hold | hnew
    · exact mem_denials.mpr ⟨hold, hzone, htype⟩
    · rw [List.mem_singleton.mp hnew] at htype
      exact absurd htype hupdated
  · refine h.knows.of_write (fun hboth ↦ hapart hboth.2 ⟨hboth.1, trivial⟩)
      (fun hne ↦ (hrowAt added).trans (if_neg (Ne.symm hne))) ?_
    rintro rfl ⟨stored, hstored, -⟩
    rw [hnone] at hstored
    cases hstored
  · rintro found ⟨⟩
  · exact fun _ ↦ Or.inl ⟨_, (hrowAt updated).trans (if_pos rfl), le_rfl⟩

/-- A statement of the update. -/
theorem Writing.stepUpdate (hupdated : updated.2.2 ≠ Label.doeRrType)
    (hapart : Compatible added updated left right)
    (h : Writing zones added updated addedVersion updatedVersion left right db)
    (hmove : UpdateMove updated updatedVersion db right (.sql statement) right') :
    Writing zones added updated addedVersion updatedVersion left right'
      (statement.execute db).2 := by
  cases hmove with
  | look hfound holder =>
      refine ⟨h.valid, h.single, h.zones, h.chains, h.knows, fun found hphase ↦ ?_, by rintro ⟨⟩⟩
      cases hphase
      exact ⟨hfound, holder⟩
  | turn => exact ⟨h.valid, h.single, h.zones, h.chains, h.knows, by rintro found ⟨⟩, by rintro ⟨⟩⟩
  | update => exact h.update hupdated hapart _ _
  | insert hfree =>
      rw [Sql.execute, if_neg hfree]
      exact h.insertUpdate hupdated hapart _ _
  | refuse hconflict => exact absurd hconflict (not_conflict (h.judged none rfl).1)

theorem keptTogether_writing [PacketFormat] {Tool Server : Type} (tools : Services Tool)
    (services : Services Server) (hadded : added.2.2 ≠ Label.doeRrType)
    (hupdated : updated.2.2 ≠ Label.doeRrType) :
    KeptTogether (Shared.toolHandle tools) (Shared.serverHandle services)
      (adding zoneName added addedVersion zones) (updating updated updatedVersion)
      (fun left right shared ↦
        Writing zones added updated addedVersion updatedVersion left right shared.db)
      fun left right _ ↦ Compatible added updated left right := by
  constructor
  · intro left right shared h
    have hids : ∀ row ∈ shared.db.rrsets, row.id ≠ 0 :=
      fun row hrow ↦ (h.valid.ids_pos row hrow).ne'
    exact ⟨⟨h.zones, hids, fun hphase ↦ h.chains _ hphase⟩, hids⟩
  · intro left right shared request left' h hapart hmove
    cases request with
    | sql statement => exact h.stepAddition hadded hupdated hapart hmove
    | service request =>
        cases hmove with
        | read => exact h
        | regenerate hmove =>
            cases hmove
            exact h
  · intro left right shared request right' h hapart hmove
    cases request with
    | sql statement => exact h.stepUpdate hupdated hapart hmove
    | service request =>
        cases hmove
        exact h

end Writing

/-! ## Who is about to write -/

/-- The program's next statement writes a record that is no denial. -/
def aboutToWrite {Value : Type} (program : Prog Value) : Bool :=
  match program.pending with
  | some (.sql (.insertRrset _ _ type _ _ _)) => type ≠ Label.doeRrType
  | some (.sql (.updateRrset _ _ _ _)) => true
  | some (.sql (.deleteRrset _)) => true
  | _ => false

section Schedules

variable {Tool Server Value : Type} {handle : Handler Call.Answer (Shared Tool Server)}
  {zoneName : Name} {key : ℕ × Name × Component} {version : Component} {zones : List ZoneRow}
  {shared : Shared Tool Server}

/-- Between its lookup and its last write of the record, an addition is about to write. -/
theorem aboutToWrite_of_adding [PacketFormat] {program : Prog Unit} {phase : AdditionPhase}
    (hfollows : program.Follows handle (adding zoneName key version zones) AdditionEnds phase)
    (hholds : (adding zoneName key version zones).holds phase shared)
    (htype : key.2.2 ≠ Label.doeRrType) (hwrites : phase.Writes) : aboutToWrite program := by
  cases program with
  | done value => cases phase <;> first | exact hfollows.elim | exact hwrites.elim
  | raise fault => cases phase <;> first | exact hfollows.elim | exact hwrites.elim
  | call request next =>
      obtain ⟨phase', hmove, -⟩ := hfollows shared hholds
      cases hmove with
      | read => exact hwrites.elim
      | glance => exact hwrites.elim
      | look => exact hwrites.elim
      | turn => exact hwrites.elim
      | delete => rfl
      | insert => exact decide_eq_true htype
      | refuse => exact decide_eq_true htype
      | regenerate => exact hwrites.elim

@[inherit_doc aboutToWrite_of_adding]
theorem aboutToWrite_of_updating {program : Prog (Option Data)} {phase : UpdatePhase}
    (hfollows : program.Follows handle (updating key version) UpdateEnds phase)
    (hholds : (updating key version).holds phase shared)
    (htype : key.2.2 ≠ Label.doeRrType) (hwrites : phase.Writes) : aboutToWrite program := by
  cases program with
  | done value => cases phase <;> first | exact hfollows.elim | exact hwrites.elim
  | raise fault => cases phase <;> first | exact hfollows.elim | exact hwrites.elim
  | call request next =>
      obtain ⟨phase', hmove, -⟩ := hfollows shared hholds
      cases hmove with
      | request hphase =>
          cases phase with
          | judged found => exact absurd rfl (hphase found)
          | asked => exact hwrites.elim
          | turnedAway => exact hwrites.elim
          | written => exact hwrites.elim
      | look => exact hwrites.elim
      | turn => exact hwrites.elim
      | update => rfl
      | insert => exact decide_eq_true htype
      | refuse => exact decide_eq_true htype

end Schedules

section Contention

variable [PacketFormat] {Tool Keys : Type} {tools : Services Tool} {services : Services Keys}
  {server : NameServer} {interest : Interest} {packet : Received} {rrset : Rrset} {zone : Zone}
  {base : Database}

/-- The addition and the update before their first calls. -/
def contending (rrset : Rrset) (server : NameServer) (interest : Interest) (packet : Received)
    (base : Database) (tool : Tool) (keys : Keys) :
    Config Call.Answer Fault Unit (Option Data) (Shared Tool Keys) :=
  ⟨ManagementTool.addRrset rrset, server.doUpdate interest packet, ⟨base, tool, keys, none⟩⟩

/-- Both processes have looked up their records, and both have still to write them. -/
def Overlaps (config : Config Call.Answer Fault Unit (Option Data) (Shared Tool Keys)) : Prop :=
  aboutToWrite config.left ∧ aboutToWrite config.right

instance (config : Config Call.Answer Fault Unit (Option Data) (Shared Tool Keys)) :
    Decidable (Overlaps config) := inferInstanceAs (Decidable (_ ∧ _))

/-- The key that an addition to a stored zone writes. -/
def addedKey (base : Database) (zone : Zone) (rrset : Rrset) : ℕ × Name × Component :=
  ((resolveZone base zone).id, rrset.label, rrset.type)

/-- The key that an update writes. -/
def updatedKey (server : NameServer) (re : Label.MatchResult) : ℕ × Name × Component :=
  (server.zone.id, re.rrLabel, re.rrType)

/-- Both programs follow their automata. -/
def Contends (tools : Services Tool) (services : Services Keys) (base : Database) (zone : Zone)
    (rrset : Rrset) (updated : ℕ × Name × Component) (updatedVersion : Component)
    (config : Config Call.Answer Fault Unit (Option Data) (Shared Tool Keys)) :
    AdditionPhase → UpdatePhase → Prop :=
  config.Keeps (Shared.toolHandle tools) (Shared.serverHandle services)
    (adding zone.name (addedKey base zone rrset) rrset.version base.zones)
    (updating updated updatedVersion) AdditionEnds UpdateEnds fun left right shared ↦
      Writing base.zones (addedKey base zone rrset) updated rrset.version updatedVersion left right
        shared.db

variable {updated : ℕ × Name × Component} {updatedVersion : Component} {left : AdditionPhase}
  {right : UpdatePhase} {config : Config Call.Answer Fault Unit (Option Data) (Shared Tool Keys)}

/-- A whole schedule in which the two processes never write one record at the same time. -/
theorem contends_of_schedule
    (hstart :
      Contends tools services base zone rrset updated updatedVersion config .checking .asked)
    (hadded : rrset.type ≠ Label.doeRrType) (hupdated : updated.2.2 ≠ Label.doeRrType)
    {schedule : List Side}
    (hapart : updated = addedKey base zone rrset → ∀ past, past <+: schedule →
      ¬ Overlaps (config.run (Shared.toolHandle tools) (Shared.serverHandle services) past)) :
    ∃ left right, Contends tools services base zone rrset updated updatedVersion
      (config.run (Shared.toolHandle tools) (Shared.serverHandle services) schedule)
      left right := by
  have hkept := @keptTogether_writing base.zones zone.name (addedKey base zone rrset) updated
    rrset.version updatedVersion _ Tool Keys tools services hadded hupdated
  have hpermits : ∀ {config left right},
      Contends tools services base zone rrset updated updatedVersion config left right →
      (updated = addedKey base zone rrset → ¬ Overlaps config) →
      Compatible (addedKey base zone rrset) updated left right := by
    rintro config left right ⟨hleft, hright, hwriting⟩ hpermits hsame hboth
    have hholds := hkept.holds hwriting
    exact hpermits hsame ⟨aboutToWrite_of_adding hleft hholds.1 hadded hboth.1,
      aboutToWrite_of_updating hright hholds.2 hupdated hboth.2⟩
  exact hkept.run hpermits hstart fun past hpast hsame ↦ hapart hsame past hpast

/-- Before the first calls of an addition to a stored zone. -/
theorem contends_start
    (hfollows : (server.doUpdate interest packet).Follows
      (Shared.serverHandle services : Handler Call.Answer (Shared Tool Keys))
      (updating updated updatedVersion) UpdateEnds .asked)
    (hvalid : base.Valid) (hsingle : base.SingleVersion) (hnew : rrset.id = 0)
    (hzone : rrset.zone = some zone) (hid : (resolveZone base zone).id ≠ 0)
    (hlookup : (lookupZone base zone).id = (resolveZone base zone).id) (tool : Tool) (keys : Keys) :
    Contends tools services base zone rrset updated updatedVersion
      (contending rrset server interest packet base tool keys) .checking .asked :=
  ⟨ManagementTool.follows_addRrset (Shared.executes_toolHandle tools) hnew hzone hid hlookup,
    hfollows, ⟨hvalid, hsingle, rfl, by rintro phase ⟨⟩, trivial, by rintro found ⟨⟩,
      by rintro ⟨⟩⟩⟩

/-- What the addition leaves when it has ended. -/
theorem Contends.added_atLeast
    (h : Contends tools services base zone rrset updated updatedVersion config left right)
    (hleft : config.left.outcome = some (.ok ())) :
    AtLeast config.state.db (addedKey base zone rrset) rrset.version := by
  obtain ⟨hfollows, -, hwriting⟩ := h
  have hend := hfollows.of_outcome hleft
  cases left with
  | regenerating phase => exact hwriting.knows
  | checking => exact hend.elim
  | turnedAway => exact hend.elim
  | judged found => exact hend.elim
  | emptied => exact hend.elim

/-- What the update leaves when it has reported success and the addition has ended, too. -/
theorem Contends.updated_atLeast
    (h : Contends tools services base zone rrset updated updatedVersion config left right)
    {added : Except Fault Unit} (hleft : config.left.outcome = some added) {answer : Data}
    (hright : config.right.outcome = some (.ok (some answer)))
    (hcontent : answer.content = NameServer.updateContent .updateOk) :
    AtLeast config.state.db updated updatedVersion := by
  obtain ⟨hfollowsLeft, hfollows, hwriting⟩ := h
  have hend := hfollows.of_outcome hright
  cases right with
  | written =>
      rcases hwriting.written rfl with hstored | ⟨rfl, -⟩
      · exact hstored
      · exact (hfollowsLeft.of_outcome hleft).elim
  | judged found => exact hend.elim
  | asked => exact absurd hcontent hend
  | turnedAway => exact absurd hcontent hend

/-- The row that the update is about to overwrite is a row of its record. -/
theorem Contends.aims
    (h : Contends tools services base zone rrset updated updatedVersion config left right)
    {id : ℕ} {ttl : ℤ} {version : Component} {data : Block}
    (hpending : config.right.pending = some (.sql (.updateRrset id ttl version data)))
    {row : RrsetRow} (hrow : row ∈ config.state.db.rrsets) (hrowId : row.id = id) :
    row.key = updated := by
  obtain ⟨-, hfollows, hwriting⟩ := h
  have hholds : ∀ row ∈ config.state.db.rrsets, row.id ≠ 0 :=
    fun row hrow ↦ (hwriting.valid.ids_pos row hrow).ne'
  cases hprogram : config.right with
  | done value =>
      rw [hprogram] at hpending
      cases hpending
  | raise fault =>
      rw [hprogram] at hpending
      cases hpending
  | call request next =>
      rw [hprogram] at hpending hfollows
      obtain rfl := Option.some.inj hpending
      obtain ⟨right', hmove, -⟩ := hfollows config.state hholds
      cases hmove
      obtain ⟨hmem, hkey⟩ := (rowAt_eq_some_iff hwriting.single).mp (hwriting.judged _ rfl).1
      rw [List.inj_on_of_nodup_map hwriting.valid.ids hrow hmem hrowId, hkey]

/-- An update of a packet whose name does not match makes no calls. -/
theorem follows_unmatched (key : ℕ × Name × Component) (version : Component)
    (hmatch : ∀ re, Label.matchDataName packet.data.name server.zone.name ≠ .matched re) :
    (server.doUpdate interest packet).Follows
      (Shared.serverHandle services : Handler Call.Answer (Shared Tool Keys))
      (updating key version) UpdateEnds .asked := by
  unfold NameServer.doUpdate
  cases hcase : Label.matchDataName packet.data.name server.zone.name with
  | outOfBounds => trivial
  | noMatch => trivial
  | matched re => exact absurd hcase (hmatch re)

/-- An addition and an update, under every schedule in which they do not both have looked up one
record and still to write it: each record has one row, which is not older than what was
acknowledged, and the update overwrites a row of its own record only. -/
theorem no_lost_update (hvalid : base.Valid) (hsingle : base.SingleVersion) (hnew : rrset.id = 0)
    (hzone : rrset.zone = some zone) (hid : (resolveZone base zone).id ≠ 0)
    (hlookup : (lookupZone base zone).id = (resolveZone base zone).id)
    (hadded : rrset.type ≠ Label.doeRrType)
    (hupdated : ∀ re, Label.matchDataName packet.data.name server.zone.name = .matched re →
      re.rrType ≠ Label.doeRrType) (tool : Tool) (keys : Keys) {schedule : List Side}
    (hapart : ∀ re, Label.matchDataName packet.data.name server.zone.name = .matched re →
      updatedKey server re = addedKey base zone rrset → ∀ past, past <+: schedule →
        ¬ Overlaps ((contending rrset server interest packet base tool keys).run
          (Shared.toolHandle tools) (Shared.serverHandle services) past))
    {final : Config Call.Answer Fault Unit (Option Data) (Shared Tool Keys)}
    (hfinal : (contending rrset server interest packet base tool keys).run
      (Shared.toolHandle tools) (Shared.serverHandle services) schedule = final)
    {added : Except Fault Unit} {updated : Except Fault (Option Data)}
    (hleft : final.left.outcome = some added) (hright : final.right.outcome = some updated) :
    final.state.db.SingleVersion ∧
      (added = .ok () → AtLeast final.state.db (addedKey base zone rrset) rrset.version) ∧
      ∀ re, Label.matchDataName packet.data.name server.zone.name = .matched re →
        (∀ answer, updated = .ok (some answer) →
          answer.content = NameServer.updateContent .updateOk →
            AtLeast final.state.db (updatedKey server re) re.version) ∧
        ∀ past before, past <+: schedule →
          (contending rrset server interest packet base tool keys).run (Shared.toolHandle tools)
            (Shared.serverHandle services) past = before →
          ∀ id ttl version data,
            before.right.pending = some (.sql (.updateRrset id ttl version data)) →
              ∀ row ∈ before.state.db.rrsets, row.id = id → row.key = updatedKey server re := by
  subst hfinal
  by_cases hmatched : ∃ re, Label.matchDataName packet.data.name server.zone.name = .matched re
  · obtain ⟨re, hmatch⟩ := hmatched
    have hstart := @contends_start _ _ _ tools services server interest packet rrset zone base
      (updatedKey server re) re.version
      (follows_doUpdate (Shared.executes_serverHandle services) hmatch) hvalid hsingle hnew hzone
      hid hlookup tool keys
    have hcontends : ∀ past, past <+: schedule → ∃ left right,
        Contends tools services base zone rrset (updatedKey server re) re.version
          ((contending rrset server interest packet base tool keys).run (Shared.toolHandle tools)
            (Shared.serverHandle services) past) left right :=
      fun past hpast ↦ contends_of_schedule hstart hadded (hupdated re hmatch)
        fun hsame earlier hearlier ↦ hapart re hmatch hsame earlier (hearlier.trans hpast)
    obtain ⟨left, right, hend⟩ := hcontends schedule List.prefix_rfl
    refine ⟨hend.2.2.single, ?_, fun other hother ↦ ?_⟩
    · rintro rfl
      exact hend.added_atLeast hleft
    · obtain rfl : re = other := by
        rw [hmatch] at hother
        cases hother
        rfl
      constructor
      · rintro answer rfl hcontent
        exact hend.updated_atLeast hleft hright hcontent
      · rintro past before hpast rfl id ttl version data hpending row hrow hrowId
        obtain ⟨left', right', hbefore⟩ := hcontends past hpast
        exact hbefore.aims hpending hrow hrowId
  · push Not at hmatched
    have hkey : ((0, [], Label.nsRrType) : ℕ × Name × Component) ≠ addedKey base zone rrset :=
      fun hsame ↦ hid (congrArg Prod.fst hsame).symm
    have hstart := @contends_start _ _ _ tools services server interest packet rrset zone base
      _ Component.empty (follows_unmatched (0, [], Label.nsRrType) _ hmatched)
      hvalid hsingle hnew hzone hid hlookup tool keys
    obtain ⟨left, right, hend⟩ := @contends_of_schedule _ _ _ tools services rrset zone base _ _ _
      hstart hadded (by decide) schedule fun hsame ↦ absurd hsame hkey
    refine ⟨hend.2.2.single, ?_, fun re hmatch ↦ absurd hmatch (hmatched re)⟩
    rintro rfl
    exact hend.added_atLeast hleft

end Contention

section Examples

open LocalServices NameServer

attribute [local instance] ndnPacketFormat

/-- The second version of the text record at /w in the zone /n. -/
def secondRrset : Rrset :=
  ⟨0, some netServer.zone, [letter 119], Label.txtRrType, Component.fromVersion 2, 3600,
    secondPacket.wire⟩

/-- Its addition while the server receives the third version. -/
def secondAndThird (base : Database) :
    Config Call.Answer Fault Unit (Option Data) (Shared ℕ ℕ) :=
  contending secondRrset netServer updateInterest thirdPacket base 0 0

def runSides (base : Database) (schedule : List Side) :
    Config Call.Answer Fault Unit (Option Data) (Shared ℕ ℕ) :=
  (secondAndThird base).run (Shared.toolHandle localServices) (Shared.serverHandle localServices)
    schedule

/-- The server looks up the record after its insertion and writes it during the regeneration. -/
def afterInsertion : List Side :=
  [.left, .right, .left, .left, .left, .right, .left, .right, .right] ++ List.replicate 12 .left

/-- Both versions are acknowledged, and the third one stays. -/
theorem both_stored : ∃ final, runSides firstDatabase afterInsertion = final ∧
    final.left.outcome = some (.ok ()) ∧ final.right.outcome = some (.ok (some okAnswer)) ∧
    final.state.db.SingleVersion ∧
    AtLeast final.state.db (1, [letter 119], Label.txtRrType) (Component.fromVersion 3) := by
  generalize hfinal : runSides firstDatabase afterInsertion = final
  have hended : final.left.outcome = some (.ok ()) ∧
      final.right.outcome = some (.ok (some okAnswer)) := by
    rw [← hfinal]
    decide +kernel
  have hapart : ∀ past ∈ afterInsertion.inits, ¬ Overlaps (runSides firstDatabase past) := by
    decide +kernel
  have hmatch : Label.matchDataName thirdPacket.data.name netServer.zone.name =
      .matched ⟨[letter 119], Label.txtRrType, Component.fromVersion 3⟩ := by decide +kernel
  obtain ⟨hsingle, -, hupdate⟩ := @no_lost_update _ _ _ localServices localServices netServer
    updateInterest thirdPacket secondRrset netServer.zone firstDatabase firstDatabase_valid
    firstDatabase_singleVersion rfl rfl (by decide) (by decide) (by decide)
    (fun re hre ↦ by rw [hmatch] at hre; cases hre; decide) 0 0 afterInsertion
    (fun _ _ _ past hpast ↦ hapart past ((List.mem_inits _ _).mpr hpast)) final hfinal _ _ hended.1
    hended.2
  exact ⟨final, rfl, hended.1, hended.2, hsingle, (hupdate _ hmatch).1 okAnswer rfl rfl⟩

/-- A zone with a row whose id is higher than the number of rows. -/
def sparseDatabase : Database :=
  ⟨[⟨1, [letter 110], 3600⟩], [],
    [⟨1, 1, [letter 97], Label.txtRrType, Component.fromVersion 1, 3600, Block.invalid⟩,
      ⟨5, 1, [letter 119], Label.txtRrType, Component.fromVersion 1, 3600, Block.invalid⟩]⟩

/-- When the two do overlap, an acknowledged version can be replaced by an older one, the record
can end with two rows, and the update can overwrite a denial record. -/
theorem overlapping_writes :
    (∃ schedule final, runSides firstDatabase schedule = final ∧
      final.left.outcome = some (.ok ()) ∧ final.right.outcome = some (.ok (some okAnswer)) ∧
      ∀ row ∈ final.state.db.rrsets, row.version < Component.fromVersion 3) ∧
    (∃ schedule final, runSides firstDatabase schedule = final ∧
      final.left.outcome = some (.ok ()) ∧ final.right.outcome = some (.ok (some okAnswer)) ∧
      ¬ final.state.db.SingleVersion) ∧
    ∃ schedule final, runSides sparseDatabase schedule = final ∧
      final.left.outcome = some (.ok ()) ∧ final.right.outcome = some (.ok (some okAnswer)) ∧
      ∃ row ∈ final.state.db.rrsets, row.type = Label.doeRrType ∧ row.data = thirdPacket.wire := by
  refine ⟨⟨[.left, .left, .right, .right, .right, .right] ++ List.replicate 15 .left, _, rfl, ?_⟩,
    ⟨[.left, .left, .left, .right, .right, .left, .right, .right] ++ List.replicate 16 .left, _,
      rfl, ?_⟩,
    ⟨[.left, .left, .right, .right] ++ List.replicate 18 .left ++ [.right, .right], _, rfl, ?_⟩⟩
  · decide +kernel
  · unfold Database.SingleVersion
    decide +kernel
  · decide +kernel

end Examples

end Ndns.Mgmt
