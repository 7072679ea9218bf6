import Ndns.Clients.IterativeQueryController
import Ndns.Daemon.HealthyDatabase
import Ndns.Daemon.NameServer

/-!
# Answers to Queries

A query on a healthy database is answered with the stored packet of the record, or with an
`NDNS_NACK` that the client unwraps into the denial record found below the queried name.
-/

namespace Ndns.Daemon

open Ndn Calls

/-- The key chain signs with its default key, whatever the packet and its own state. -/
def Services.SignsByDefault {Keys : Type} (services : Services Keys) : Prop :=
  ∀ packet keys, (services.answer (.sign .default packet) keys).1.isSome

/-- A type a query can ask for: not a version, and with no meaning of its own to the server. -/
structure Queried (type : Component) : Prop where
  notUpdate : type ≠ Label.ndnsUpdateLabel
  notDoe : type ≠ Label.doeRrType
  notVersion : type.isVersion = false

/-- A type up to the empty generic component is an ordinary one. -/
theorem queried_of_le_empty {type : Component} (h : type ≤ Component.empty) : Queried type := by
  refine ⟨?_, ?_, ?_⟩
  · rintro rfl
    exact absurd h (by decide)
  · rintro rfl
    exact absurd h (by decide)
  · rw [← not_lt, Component.lt_iff] at h
    have htype : type.type ≠ Component.versionType := fun heq ↦ h (Or.inl (by rw [heq]; decide))
    simp [Component.isVersion, htype]

namespace NameServer

theorem resolveZone_zone (server : NameServer) (db : Database) :
    DbMgr.resolveZone db server.zone = server.zone := if_neg server.zone_found.ne'

variable {Keys : Type} {services : Services Keys} {world : World Keys}

theorem run_signed_default (hsigns : services.SignsByDefault) (answer : Data)
    (world : World Keys) :
    ∃ (signature : Blob × Blob) (keys : Keys), (signed .default answer).run (World.handle services) world =
      (.ok { answer with signatureInfo := signature.1, signatureValue := signature.2 },
        { world with keys := keys }) := by
  obtain ⟨signature, hsignature⟩ := Option.isSome_iff_exists.mp (hsigns answer world.keys)
  refine ⟨signature, (services.answer (.sign .default answer) world.keys).2, ?_⟩
  rw [signed, Program.run_bind, run_service]
  simp only [hsignature, orThrow]
  rfl

variable {server : NameServer} {interest : Interest} {re : Label.MatchResult} {row : RrsetRow}

/-- The negative answer carries the denial record found below the queried name. -/
theorem run_denyQuery (hsigns : services.SignsByDefault)
    (hrow : DbMgr.lowerBoundRow world.db server.zone.id (re.rrLabel ++ [re.rrType])
      Label.doeRrType = some row) (hid : row.id ≠ 0) :
    ∃ answer version keys, (denyQuery server interest re).run (World.handle services) world =
        (.ok answer, { world with keys := keys }) ∧
      answer.name = interest.name ++ [version] ∧
      NdnsContentType.ofCode answer.contentType = .nack ∧
      answer.content = contentOf row.data := by
  have hfind : ∀ keys, (DbMgr.findLowerBound
      (Rrset.keyed server.zone (re.rrLabel ++ [re.rrType]) Label.doeRrType)).run
      (World.handle services) { world with keys := keys } = _ :=
    fun keys ↦ DbMgr.run_findLowerBound rfl _
  simp only [resolveZone_zone, Rrset.keyed, hrow, DbMgr.pick, if_neg server.zone_found.ne'] at hfind
  unfold denyQuery answerName
  rw [Program.run_bind, Program.run_bind, run_service]
  simp only [Program.run_pure]
  rw [Program.run_bind]
  simp only [Rrset.keyed, hfind, hid, ne_eq, not_false_eq_true, decide_true, if_true]
  obtain ⟨signature, keys, hsigned⟩ := run_signed_default hsigns
    ⟨interest.name ++ [Component.fromVersion (services.answer .now world.keys).1],
      NdnsContentType.nack.toCode, server.contentFreshness, contentOf row.data, [], []⟩
    { world with keys := (services.answer .now world.keys).2 }
  exact ⟨_, _, keys, hsigned, rfl, rfl, rfl⟩

variable [PacketFormat]

/-- An Interest named after a record is a query for it. -/
theorem run_onInterest_query {label : Name} {type : Component} (hqueried : Queried type)
    (hname : interest.name = Label.recordName server.zone.name label type) :
    (onInterest server interest).run (World.handle services) world =
      match (handleQuery server interest ⟨label, type, Component.empty⟩).run
          (World.handle services) world with
      | (.ok data, world') => (.ok (some data), world')
      | (.error fault, world') => (.error fault, world') := by
  unfold onInterest
  rw [hname, Label.matchInterestName_recordName _ _ hqueried.notVersion]
  simp only [if_neg hqueried.notUpdate]
  rw [Program.run_map]
  rcases (handleQuery server interest ⟨label, type, Component.empty⟩).run
    (World.handle services) world with ⟨_ | _, _⟩ <;> rfl

/-- A query is answered with the record that is found, if it has the version asked for, and denied
otherwise. -/
theorem run_handleQuery (server : NameServer) (interest : Interest) (re : Label.MatchResult)
    (world : World Keys) : (handleQuery server interest re).run (World.handle services) world =
      match DbMgr.keyRow world.db server.zone.id re.rrLabel re.rrType with
      | some row =>
          if row.id ≠ 0 ∧ (re.version.isEmpty = true ∨ re.version = row.version) then
            (orThrow (PacketFormat.decode row.data) .tlvError).run (World.handle services) world
          else (denyQuery server interest re).run (World.handle services) world
      | none => (denyQuery server interest re).run (World.handle services) world := by
  have hfind : (DbMgr.findRrset (Rrset.keyed server.zone re.rrLabel re.rrType)).run
      (World.handle services) world = _ := DbMgr.run_findRrset rfl world
  simp only [resolveZone_zone, Rrset.keyed, DbMgr.pick, if_neg server.zone_found.ne'] at hfind
  rw [handleQuery, Program.run_bind]
  simp only [Rrset.keyed, hfind]
  cases DbMgr.keyRow world.db server.zone.id re.rrLabel re.rrType with
  | none => simp
  | some row =>
      simp only [decide_eq_true_eq, Rrset.fill]
      split_ifs <;> rfl

/-- A stored record is answered with its packet. -/
theorem run_handleQuery_found {data : Data}
    (hrow : DbMgr.keyRow world.db server.zone.id re.rrLabel re.rrType = some row)
    (hid : row.id ≠ 0) (hversion : re.version.isEmpty = true)
    (hdecode : PacketFormat.decode row.data = some data) :
    (handleQuery server interest re).run (World.handle services) world = (.ok data, world) := by
  rw [run_handleQuery, hrow]
  simp only
  rw [if_pos ⟨hid, Or.inl hversion⟩, hdecode]
  rfl

/-- A query for a record that is not stored is denied. -/
theorem run_handleQuery_absent
    (hrow : DbMgr.keyRow world.db server.zone.id re.rrLabel re.rrType = none) :
    (handleQuery server interest re).run (World.handle services) world =
      (denyQuery server interest re).run (World.handle services) world := by
  rw [run_handleQuery, hrow]

end NameServer

end Ndns.Daemon
