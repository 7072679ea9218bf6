import Ndns.Daemon.Database

/-!
# The Database Manager

`DbMgr` turns the statements into operations on `Zone` and `Rrset` objects.  An object with id 0
is one the database has not seen; several operations look up or create the zone of a record as a
side effect, and then the zone object carried by the record is the updated one.

An operation only sees what its statements answer, so nothing here assumes that they succeed.
-/

namespace Ndns.Daemon

open Ndn Calls

/-! ## Objects -/

structure Zone where
  id : ℕ
  name : Name
  ttl : ℤ
deriving DecidableEq

/-- `Zone(name, ttl)`: a zone the database has not been asked about. -/
def Zone.make (name : Name) (ttl : ℤ) : Zone := ⟨0, name, ttl⟩

/-- The time to live of a zone object built from a name only. -/
def Zone.defaultTtl : ℤ := 3600

/-- `Zone(name)`. -/
def Zone.named (name : Name) : Zone := .make name Zone.defaultTtl

structure Rrset where
  id : ℕ
  zone : Option Zone
  label : Name
  type : Component
  version : Component
  ttl : ℤ
  data : Block
deriving DecidableEq

/-- A default-constructed element, which has no TLV-TYPE. -/
def Block.invalid : Block :=
  ⟨2 ^ 32 - 1, [], by decide, by decide, Component.empty.size_lt⟩

/-- `Rrset(zone)` with a label and a type, as every lookup prepares it. -/
def Rrset.keyed (zone : Zone) (label : Name) (type : Component) : Rrset :=
  ⟨0, some zone, label, type, Component.empty, 0, Block.invalid⟩

/-- Copy the columns a lookup selects into the object. -/
def Rrset.fill (rrset : Rrset) (row : RrsetRow) : Rrset :=
  { rrset with id := row.id, ttl := row.ttl, version := row.version, data := row.data }

namespace DbMgr

/-! ## Zones -/

/-- `DbMgr::insert(Zone&)`; nothing happens when the object already has an id. -/
def insertZone (zone : Zone) : Prog Zone :=
  if 0 < zone.id then pure zone
  else do
    match ← sql (.insertZone zone.name (int32 zone.ttl)) with
    | .prepareError => throw .dbMgrPrepareError
    | .stepError => throw .dbMgrExecuteError
    | .finished rowid => pure { zone with id := rowid }

/-- `DbMgr::setZoneInfo`. -/
def setZoneInfo (zone : Zone) (key : String) (value : Block) : Prog Unit :=
  if zone.id = 0 then throw (.dbMgrError "zone has not been initialized")
  else if 10 < key.utf8ByteSize then throw (.dbMgrError "key length should not exceed 10")
  else do
    match ← sql (.insertZoneInfo (int32 zone.id) key value) with
    | .prepareError => throw .dbMgrPrepareError
    | .stepError => throw .dbMgrExecuteError
    | .finished _ => pure ()

/-- `DbMgr::find(Zone&)`; the zone was found when the id of the result is not 0. -/
def findZone (zone : Zone) : Prog Zone := do
  match ← sql (.selectZone zone.name) with
  | .prepareError => throw .dbMgrPrepareError
  | .stepped rows _ =>
      match rows.head? with
      | some row => pure { zone with id := row.id, ttl := int32 row.ttl }
      | none => pure { zone with id := 0 }

/-- The lookup that operations on records make for a zone object without an id. -/
def findNewZone (zone : Zone) : Prog Zone :=
  if zone.id = 0 then findZone zone else pure zone

/-- `DbMgr::getZoneInfo`: the map as the list of its entries. -/
def getZoneInfo (zone : Zone) : Prog (List (String × Block)) := do
  let zone ← findNewZone zone
  if zone.id = 0 then throw (.dbMgrError "zone has not been initialized")
  else
    match ← sql (.selectZoneInfo (int32 zone.id)) with
    | .prepareError => throw .dbMgrPrepareError
    | .stepped rows _ => pure (rows.map fun row ↦ (row.key, row.value))

/-- `DbMgr::listZones`. -/
def listZones : Prog (List Zone) := do
  match ← sql .selectZones with
  | .prepareError => throw .dbMgrPrepareError
  | .stepped rows _ => pure (rows.map fun row ↦ ⟨row.id, row.name, int32 row.ttl⟩)

/-- `DbMgr::clearAllData`: the zones and the record sets, but not the information about zones. -/
def clearAllData : Prog Unit := do
  match ← sql .clearAllData with
  | .prepareError | .stepError => throw .dbMgrExecuteError
  | .finished _ => pure ()

/-- `DbMgr::remove(Zone&)`. -/
def removeZone (zone : Zone) : Prog Zone :=
  if zone.id = 0 then pure zone
  else do
    match ← sql (.deleteZone zone.id) with
    | .prepareError => throw .dbMgrPrepareError
    | .stepError => throw .dbMgrExecuteError
    | .finished _ => pure (Zone.named [])

/-! ## Record sets -/

/-- `DbMgr::insert(Rrset&)`; nothing happens when the object already has an id, and the zone is
created when its object has none. -/
def insertRrset (rrset : Rrset) : Prog Rrset :=
  if rrset.id ≠ 0 then pure rrset
  else
    match rrset.zone with
    | none => throw (.dbMgrRrsetError "Rrset has not been assigned to a zone")
    | some zone => do
        -- `insertZone` makes the test for id 0 itself
        let zone ← insertZone zone
        match ← sql (.insertRrset zone.id rrset.label rrset.type rrset.version rrset.ttl
            rrset.data) with
        | .prepareError => throw .dbMgrPrepareError
        | .stepError => throw .dbMgrExecuteError
        | .finished rowid => pure { rrset with id := rowid, zone := some zone }

/-- The part `find` and `findLowerBound` share: the first selected row fills the object. -/
def findWith (select : ℕ → Prog (Selected RrsetRow)) (rrset : Rrset) : Prog (Bool × Rrset) :=
  match rrset.zone with
  | none => throw (.dbMgrRrsetError "Rrset has not been assigned to a zone")
  | some zone => do
      let zone ← findNewZone zone
      if zone.id = 0 then pure (false, { rrset with zone := some zone })
      else
        match ← select zone.id with
        | .prepareError => throw .dbMgrPrepareError
        | .stepped rows _ =>
            match rows.head? with
            | some row => pure (decide (row.id ≠ 0), { rrset.fill row with zone := some zone })
            | none => pure (false, { rrset with id := 0, zone := some zone })

/-- `DbMgr::find(Rrset&)`. -/
def findRrset (rrset : Rrset) : Prog (Bool × Rrset) :=
  findWith (fun zoneId ↦ sql (.selectRrset zoneId rrset.label rrset.type)) rrset

/-- `DbMgr::findLowerBound`: the largest label of the type strictly below the given one. -/
def findLowerBound (rrset : Rrset) : Prog (Bool × Rrset) :=
  findWith (fun zoneId ↦ sql (.selectLowerBound zoneId rrset.label rrset.type)) rrset

/-- The zone of the operations on a whole zone, looked up when its object has no id. -/
def requireZone (zone : Zone) : Prog Zone := do
  let zone ← findNewZone zone
  if zone.id = 0 then
    throw (.dbMgrRrsetError
      "Attempting to find all the rrsets with a zone does not in the database")
  else pure zone

/-- A selected row as an object of its zone. -/
def restore (zone : Zone) (row : RrsetRow) : Rrset :=
  ⟨row.id, some zone, row.label, row.type, row.version, row.ttl, row.data⟩

/-- `DbMgr::findRrsets`. -/
def findRrsets (zone : Zone) : Prog (List Rrset) := do
  let zone ← requireZone zone
  match ← sql (.selectRrsets zone.id) with
  | .prepareError => throw .dbMgrPrepareError
  | .stepped rows _ => pure (rows.map (restore zone))

/-- `DbMgr::removeRrsetsOfZoneByType`. -/
def removeRrsetsOfZoneByType (zone : Zone) (type : Component) : Prog Unit := do
  let zone ← requireZone zone
  match ← sql (.deleteRrsetsByType zone.id type) with
  | .prepareError => throw .dbMgrPrepareError
  | .stepError => throw .dbMgrExecuteError
  | .finished _ => pure ()

/-- `DbMgr::remove(Rrset&)`. -/
def removeRrset (rrset : Rrset) : Prog Unit :=
  if rrset.id = 0 then
    throw (.dbMgrRrsetError "Attempting to remove Rrset that has no assigned id")
  else do
    match ← sql (.deleteRrset rrset.id) with
    | .prepareError => throw .dbMgrPrepareError
    | .stepError => throw .dbMgrExecuteError
    | .finished _ => pure ()

/-- `DbMgr::update(Rrset&)`.  The result code of the statement is not looked at. -/
def updateRrset (rrset : Rrset) : Prog Unit :=
  if rrset.id = 0 then
    throw (.dbMgrRrsetError "Attempting to replace Rrset that has no assigned id")
  else if rrset.zone = none then
    throw (.dbMgrRrsetError "Rrset has not been assigned to a zone")
  else do
    match ← sql (.updateRrset rrset.id rrset.ttl rrset.version rrset.data) with
    | .prepareError => throw .dbMgrPrepareError
    | .stepError | .finished _ => pure ()

end DbMgr

end Ndns.Daemon
