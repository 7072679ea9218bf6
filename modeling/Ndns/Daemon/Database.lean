import Ndns.Calls.Program
import Ndns.Label
import Mathlib.Data.List.Sort
import Mathlib.Data.Prod.Lex

/-!
# Tables, Statements and Services

The name service works on three SQLite tables through fourteen SQL statements, and on a key chain,
a clock and files through a handful of library services.  Each statement and each service request
is one atomic call of the programs of this development.

A statement answers what its `sqlite3_step` calls report, so a program sees rows and result codes,
not the table.  `Sql.execute` is the behaviour of a healthy database with its documented defaults:
foreign keys are not enforced, unique columns are, and a new row takes the largest row id plus
one.  Names are stored and compared in their sortable form, components in their wire form.  Rows are
selected through the unique index of the records, and come in its order.
-/

namespace Ndns.Daemon

open Ndn Calls

/-! ## Tables -/

structure ZoneRow where
  id : ℕ
  name : Name
  ttl : ℤ
deriving DecidableEq

structure ZoneInfoRow where
  zoneId : ℤ
  key : String
  value : Block
deriving DecidableEq

structure RrsetRow where
  id : ℕ
  zoneId : ℕ
  label : Name
  type : Component
  version : Component
  ttl : ℤ
  data : Block
deriving DecidableEq

structure Database where
  zones : List ZoneRow
  zoneInfo : List ZoneInfoRow
  rrsets : List RrsetRow
deriving DecidableEq

namespace Database

def empty : Database := ⟨[], [], []⟩

end Database

/-- The row id an `INTEGER PRIMARY KEY` table gives to its next row. -/
def nextRowId (ids : List ℕ) : ℕ := ids.foldr max 0 + 1

theorem lt_nextRowId {ids : List ℕ} {id : ℕ} (hid : id ∈ ids) : id < nextRowId ids := by
  induction ids with
  | nil => simp at hid
  | cons head ids ih =>
      rw [nextRowId, List.foldr_cons]
      rcases List.mem_cons.mp hid with rfl | htail
      · omega
      · have hlt := ih htail
        rw [nextRowId] at hlt
        omega

theorem nextRowId_pos (ids : List ℕ) : 0 < nextRowId ids := Nat.succ_pos _

/-- `sqlite3_bind_int` and `sqlite3_column_int`: the signed 32-bit value of a number. -/
def int32 (value : ℤ) : ℤ := Int.bmod value (2 ^ 32)

/-! ## Statements -/

/-- The SQL statements of `DbMgr`, each with the values bound to it. -/
inductive Sql where
  | insertZone (name : Name) (ttl : ℤ)
  | insertZoneInfo (zoneId : ℤ) (key : String) (value : Block)
  | selectZoneInfo (zoneId : ℤ)
  | selectZone (name : Name)
  | selectZones
  | deleteZone (id : ℕ)
  | insertRrset (zoneId : ℕ) (label : Name) (type version : Component) (ttl : ℤ) (data : Block)
  | selectRrset (zoneId : ℕ) (label : Name) (type : Component)
  | selectLowerBound (zoneId : ℕ) (label : Name) (type : Component)
  | selectRrsets (zoneId : ℕ)
  | deleteRrsetsByType (zoneId : ℕ) (type : Component)
  | deleteRrset (id : ℕ)
  | updateRrset (id : ℕ) (ttl : ℤ) (version : Component) (data : Block)
  | clearAllData

/-- What a SELECT reports: the rows delivered before the first result code other than
`SQLITE_ROW`, and whether that code was `SQLITE_DONE`. -/
inductive Selected (Row : Type) where
  | prepareError
  | stepped (rows : List Row) (finished : Bool)

/-- What a writing statement reports; `rowid` is `sqlite3_last_insert_rowid`. -/
inductive Written where
  | prepareError
  | stepError
  | finished (rowid : ℕ)

@[reducible]
def Sql.Answer : Sql → Type
  | .selectZoneInfo _ => Selected ZoneInfoRow
  | .selectZone _ => Selected ZoneRow
  | .selectZones => Selected ZoneRow
  | .selectRrset _ _ _ => Selected RrsetRow
  | .selectLowerBound _ _ _ => Selected RrsetRow
  | .selectRrsets _ => Selected RrsetRow
  | _ => Written

namespace RrsetRow

/-- The WHERE clause that identifies a record by zone, label and type. -/
def hasKey (row : RrsetRow) (zoneId : ℕ) (label : Name) (type : Component) : Bool :=
  row.zoneId = zoneId ∧ saveName row.label = saveName label ∧ row.type.encode = type.encode

def hasType (row : RrsetRow) (zoneId : ℕ) (type : Component) : Bool :=
  row.zoneId = zoneId ∧ row.type.encode = type.encode

/-- The WHERE clause of the lower bound query. -/
def isBelow (row : RrsetRow) (zoneId : ℕ) (label : Name) (type : Component) : Bool :=
  row.zoneId = zoneId ∧ saveName row.label < saveName label ∧ row.type.encode = type.encode

@[simp]
theorem hasKey_iff {row : RrsetRow} {zoneId : ℕ} {label : Name} {type : Component} :
    row.hasKey zoneId label type = true ↔
      row.zoneId = zoneId ∧ row.label = label ∧ row.type = type := by
  simp [hasKey]

@[simp]
theorem hasType_iff {row : RrsetRow} {zoneId : ℕ} {type : Component} :
    row.hasType zoneId type = true ↔ row.zoneId = zoneId ∧ row.type = type := by
  simp [hasType]

@[simp]
theorem isBelow_iff {row : RrsetRow} {zoneId : ℕ} {label : Name} {type : Component} :
    row.isBelow zoneId label type = true ↔
      row.zoneId = zoneId ∧ row.label < label ∧ row.type = type := by
  simp [isBelow]

/-- Equality on the columns of the unique index. -/
def sameIndex (row : RrsetRow) (zoneId : ℕ) (label : Name) (type version : Component) : Bool :=
  row.hasKey zoneId label type ∧ row.version.encode = version.encode

@[simp]
theorem sameIndex_iff {row : RrsetRow} {zoneId : ℕ} {label : Name} {type version : Component} :
    row.sameIndex zoneId label type version = true ↔
      row.zoneId = zoneId ∧ row.label = label ∧ row.type = type ∧ row.version = version := by
  simp [sameIndex, and_assoc]

/-- The columns of the unique index behind the zone, in their order. -/
def indexColumns (row : RrsetRow) : Blob ×ₗ Blob ×ₗ Blob :=
  toLex (saveName row.label, toLex (row.type.encode, row.version.encode))

theorem saveName_le_of_indexColumns_le {left right : RrsetRow}
    (h : left.indexColumns ≤ right.indexColumns) : saveName left.label ≤ saveName right.label :=
  Prod.Lex.monotone_fst _ _ h

instance : Std.Total fun left right : RrsetRow ↦ left.indexColumns ≤ right.indexColumns :=
  ⟨fun _ _ ↦ le_total _ _⟩

instance : IsTrans RrsetRow fun left right ↦ left.indexColumns ≤ right.indexColumns :=
  ⟨fun _ _ _ ↦ le_trans⟩

instance : Std.Total fun left right : RrsetRow ↦ right.indexColumns ≤ left.indexColumns :=
  ⟨fun _ _ ↦ le_total _ _⟩

instance : IsTrans RrsetRow fun left right ↦ right.indexColumns ≤ left.indexColumns :=
  ⟨fun _ _ _ hfirst hsecond ↦ hsecond.trans hfirst⟩

/-- Under one key, the index is ordered by the version. -/
theorem indexColumns_lt_iff {left right : RrsetRow} (hlabel : left.label = right.label)
    (htype : left.type = right.type) :
    left.indexColumns < right.indexColumns ↔ left.version.encode < right.version.encode := by
  rw [indexColumns, indexColumns, hlabel, htype, Prod.Lex.toLex_lt_toLex, Prod.Lex.toLex_lt_toLex]
  simp

/-- The row after `UPDATE rrsets SET ttl=?, version=?, data=?`. -/
def overwrite (row : RrsetRow) (ttl : ℤ) (version : Component) (data : Block) : RrsetRow :=
  { row with ttl := ttl, version := version, data := data }

end RrsetRow

namespace Database

/-- The rows of a key, in the order of the unique index: the least version first. -/
def selectRrset (db : Database) (zoneId : ℕ) (label : Name) (type : Component) : List RrsetRow :=
  (db.rrsets.filter fun row ↦ row.hasKey zoneId label type).insertionSort
    fun left right ↦ left.indexColumns ≤ right.indexColumns

/-- The rows below a label, with the index read backwards for the descending order. -/
def selectLowerBound (db : Database) (zoneId : ℕ) (label : Name) (type : Component) :
    List RrsetRow :=
  (db.rrsets.filter fun row ↦ row.isBelow zoneId label type).insertionSort
    fun left right ↦ right.indexColumns ≤ left.indexColumns

/-- The rows of a zone, by their labels. -/
def selectRrsets (db : Database) (zoneId : ℕ) : List RrsetRow :=
  (db.rrsets.filter fun row ↦ row.zoneId = zoneId).insertionSort
    fun left right ↦ left.indexColumns ≤ right.indexColumns

/-- The tables after the successful insertion of a record. -/
def insertRrset (db : Database) (zoneId : ℕ) (label : Name) (type version : Component) (ttl : ℤ)
    (data : Block) : Database :=
  { db with rrsets := db.rrsets ++
    [⟨nextRowId (db.rrsets.map RrsetRow.id), zoneId, label, type, version, ttl, data⟩] }

/-- The tables after the successful insertion of a zone. -/
def insertZone (db : Database) (name : Name) (ttl : ℤ) : Database :=
  { db with zones := db.zones ++ [⟨nextRowId (db.zones.map ZoneRow.id), name, ttl⟩] }

/-- `INSERT OR REPLACE` on the primary key of the zone_info table. -/
def insertZoneInfo (db : Database) (zoneId : ℤ) (key : String) (value : Block) : Database :=
  let kept := db.zoneInfo.filter fun row ↦ ¬ (row.zoneId = zoneId ∧ row.key = key)
  { db with zoneInfo := kept ++ [⟨zoneId, key, value⟩] }

def deleteRrset (db : Database) (id : ℕ) : Database :=
  { db with rrsets := db.rrsets.filter fun row ↦ row.id ≠ id }

def deleteRrsetsByType (db : Database) (zoneId : ℕ) (type : Component) : Database :=
  { db with rrsets := db.rrsets.filter fun row ↦ !row.hasType zoneId type }

def updateRrset (db : Database) (id : ℕ) (ttl : ℤ) (version : Component) (data : Block) :
    Database :=
  { db with rrsets := db.rrsets.map fun row ↦
    if row.id = id then row.overwrite ttl version data else row }

/-- The unique index forbids an UPDATE that makes two rows equal on its columns. -/
def forbidsUpdate (db : Database) (id : ℕ) (version : Component) : Bool :=
  db.rrsets.any fun row ↦ row.id = id ∧
    db.rrsets.any fun other ↦
      other.id ≠ id ∧ other.sameIndex row.zoneId row.label row.type version

end Database

/-- Execution of one statement on a healthy database. -/
def Sql.execute : (statement : Sql) → Database → statement.Answer × Database
  | .insertZone name ttl, db =>
      if db.zones.any fun zone ↦ saveName zone.name = saveName name then (.stepError, db)
      else (.finished (nextRowId (db.zones.map ZoneRow.id)), db.insertZone name ttl)
  | .insertZoneInfo zoneId key value, db =>
      (.finished 0, db.insertZoneInfo zoneId key value)
  | .selectZoneInfo zoneId, db =>
      (.stepped (db.zoneInfo.filter fun row ↦ row.zoneId = zoneId) true, db)
  | .selectZone name, db =>
      (.stepped (db.zones.filter fun zone ↦ saveName zone.name = saveName name) true, db)
  | .selectZones, db => (.stepped db.zones true, db)
  | .deleteZone id, db =>
      (.finished 0, { db with zones := db.zones.filter fun zone ↦ zone.id ≠ id })
  | .insertRrset zoneId label type version ttl data, db =>
      if db.rrsets.any fun row ↦ row.sameIndex zoneId label type version then (.stepError, db)
      else (.finished (nextRowId (db.rrsets.map RrsetRow.id)),
        db.insertRrset zoneId label type version ttl data)
  | .selectRrset zoneId label type, db =>
      (.stepped (db.selectRrset zoneId label type) true, db)
  | .selectLowerBound zoneId label type, db =>
      (.stepped (db.selectLowerBound zoneId label type) true, db)
  | .selectRrsets zoneId, db => (.stepped (db.selectRrsets zoneId) true, db)
  | .deleteRrsetsByType zoneId type, db => (.finished 0, db.deleteRrsetsByType zoneId type)
  | .deleteRrset id, db => (.finished 0, db.deleteRrset id)
  | .updateRrset id ttl version data, db =>
      if db.forbidsUpdate id version then (.stepError, db)
      else (.finished 0, db.updateRrset id ttl version data)
  | .clearAllData, db => (.finished 0, { db with zones := [], rrsets := [] })

/-! ## Services -/

/-- Which key signs a packet. -/
inductive Signer where
  | default
  | byCertificate (certName : Name)
  | byKey (keyName : Name)
deriving DecidableEq

/-- What loading a file gives: the element it holds, if it is a file and holds one. -/
inductive Loaded where
  | notFile
  | contents (wire : Option Block)

/-- Requests to the key chain, the validator, the clock and the file system.  A service that can throw answers
with an option or a flag. -/
inductive Service where
  | now
  | sign (signer : Signer) (packet : Data)
  | validate (packet : Data)
  | defaultKeyName (identity : Name)
  | defaultCertificateName (identity : Name)
  | certificates (identity : Name)
  | createIdentity (identity : Name)
  | createKey (identity : Name)
  | findKey (identity keyName : Name)
  | publicKey (keyName : Name)
  | keyDefaultCertificateName (keyName : Name)
  | addCertificate (keyName : Name) (certificate : Data)
  | deleteCertificate (keyName certName : Name)
  | setDefaultKey (identity keyName : Name)
  | setDefaultCertificate (keyName certName : Name)
  | load (file : String)

@[reducible]
def Service.Answer : Service → Type
  | .now => ℕ
  | .sign _ _ => Option (Blob × Blob)
  | .defaultKeyName _ => Option Name
  | .defaultCertificateName _ => Option Name
  | .certificates _ => Option (List Data)
  | .createKey _ => Option Name
  | .publicKey _ => Option Blob
  | .keyDefaultCertificateName _ => Option Name
  | .load _ => Loaded
  | _ => Bool

/-- The behaviour of the services on their own state, for example the key chain. -/
structure Services (Keys : Type) where
  answer : (service : Service) → Keys → service.Answer × Keys

/-! ## Programs -/

/-- One atomic call of a program. -/
inductive Call where
  | sql (statement : Sql)
  | service (service : Service)

@[reducible]
def Call.Answer : Call → Type
  | .sql statement => statement.Answer
  | .service request => request.Answer

/-- Exceptions, by the class that is thrown, the text of the message and the name in it.
`undefinedBehavior` marks a run the language gives no meaning to, and `nonTermination` one that
repeats its last statements for ever; no handler of the source catches them. -/
inductive Fault where
  | dbMgrPrepareError
  | dbMgrExecuteError
  | dbMgrRrsetError (text : String)
  | dbMgrError (text : String)
  | rrsetFactoryError (text : String)
  | managementToolError (text : String) (subject : Name)
  | runtimeError (text : String)
  | keyChainError
  | tlvError
  | lengthError
  | undefinedBehavior
  | nonTermination
deriving DecidableEq

abbrev Prog (Value : Type) := Program Call.Answer Fault Value

/-- The database and the state of the services. -/
structure World (Keys : Type) where
  db : Database
  keys : Keys

/-- Statements act on the database, services on their own state. -/
def World.handle {Keys : Type} (services : Services Keys) : Handler Call.Answer (World Keys)
  | .sql statement, world =>
      ((statement.execute world.db).1, { world with db := (statement.execute world.db).2 })
  | .service request, world =>
      ((services.answer request world.keys).1,
        { world with keys := (services.answer request world.keys).2 })

def sql (statement : Sql) : Prog statement.Answer :=
  (Program.request (Call.sql statement) : Prog (Call.Answer (Call.sql statement)))

def service (request : Service) : Prog request.Answer :=
  (Program.request (Call.service request) : Prog (Call.Answer (Call.service request)))

/-! ## Control -/

/-- Continue only when a condition holds. -/
def require (condition : Prop) [Decidable condition] (fault : Fault) : Prog Unit :=
  if condition then pure () else throw fault

/-- The value a computation produced, or the given exception. -/
def orThrow {Value : Type} (value : Option Value) (fault : Fault) : Prog Value :=
  match value with
  | some value => pure value
  | none => throw fault

/-- Run a program up to its exception. -/
def attempt {Value : Type} (program : Prog Value) : Prog (Except Fault Value) :=
  (program >>= fun value ↦ pure (.ok value)).tryCatch fun fault ↦ pure (.error fault)

/-! ## Execution -/

variable {Keys : Type} {services : Services Keys} {world world' : World Keys}

-- the type of the answer is no help in finding this rule
@[simp]
theorem run_sql (statement : Sql) (world : World Keys) :
    @Program.run Call Call.Answer Fault (no_index statement.Answer) (World Keys)
        (World.handle services) (sql statement) world =
      (.ok (statement.execute world.db).1,
        { world with db := (statement.execute world.db).2 }) := rfl

@[simp]
theorem run_service (request : Service) (world : World Keys) :
    @Program.run Call Call.Answer Fault (no_index request.Answer) (World Keys)
        (World.handle services) (service request) world =
      (.ok (services.answer request world.keys).1,
        { world with keys := (services.answer request world.keys).2 }) := rfl

/-- A service request leaves the database alone. -/
theorem returns_service {request : Service} {answer : request.Answer} :
    (service request).Returns (World.handle services) world answer world' ↔
      services.answer request world.keys = (answer, world'.keys) ∧ world'.db = world.db := by
  obtain ⟨db', keys'⟩ := world'
  unfold Program.Returns
  rw [run_service]
  constructor
  · intro h
    simp only [Prod.mk.injEq, Except.ok.injEq, World.mk.injEq] at h
    exact ⟨Prod.ext h.1 h.2.2, h.2.1.symm⟩
  · rintro ⟨hanswer, hdb⟩
    simp only [hanswer, ← hdb]

variable {Value : Type}

@[simp]
theorem returns_require {condition : Prop} [Decidable condition] {fault : Fault} {value : Unit} :
    (require condition fault).Returns (World.handle services) world value world' ↔
      condition ∧ world = world' := by
  unfold require
  split_ifs with h <;> simp [h]

@[simp]
theorem returns_orThrow {option : Option Value} {fault : Fault} {value : Value} :
    (orThrow option fault).Returns (World.handle services) world value world' ↔
      option = some value ∧ world = world' := by
  cases option <;> simp [orThrow]

theorem run_attempt {State : Type} {handle : Handler Call.Answer State} (program : Prog Value)
    (state : State) : (attempt program).run handle state =
      (.ok (program.run handle state).1, (program.run handle state).2) := by
  rw [attempt, Program.run_tryCatch, Program.run_bind]
  rcases program.run handle state with ⟨_ | _, _⟩ <;> rfl

end Ndns.Daemon
