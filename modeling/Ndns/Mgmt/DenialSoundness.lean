import Ndns.Clients.IterativeQueryController
import Ndns.Daemon.LocalServices
import Ndns.Mgmt.DenialRecords

/-!
# Soundness of the Denial Chain

The client takes a descending range for a proof of the absence of every name, and every chain over
two different names has a descending range.  So the chain denies no stored record exactly when the
zone has a single record set.
-/

namespace Ndns.Mgmt

open Ndn Calls Daemon Clients Order.CircularRanges

theorem isAbsentByRange_iff {lastLabelType : Name} {range : Name × Name} :
    IterativeQueryController.isAbsentByRange lastLabelType range = true ↔
      Excludes range lastLabelType := by
  simp [IterativeQueryController.isAbsentByRange, Excludes]

theorem isAbsentByDoe_eq {controller : IterativeQueryController} {data : Data}
    {range : Name × Name} (h : Response.wireDecodeDoe data.content = some range) :
    controller.isAbsentByDoe data =
      .ok (IterativeQueryController.isAbsentByRange controller.lastLabelType range) := by
  rw [IterativeQueryController.isAbsentByDoe, h]

theorem mem_denialChain {names : List Name} {denial : Denial} :
    denial ∈ denialChain names ↔
      (denial.2 ∈ ranges names ∧ denial.1 = denial.2.1) ∨
        ∃ first rest, names = first :: rest ∧ denial = ([], closing first rest) := by
  cases names with
  | nil => simp [denialChain, ranges]
  | cons first rest =>
      rw [denialChain, List.mem_append, List.mem_singleton]
      refine or_congr ⟨?_, ?_⟩ ⟨?_, ?_⟩
      · intro hmem
        obtain ⟨range, hrange, rfl⟩ := List.mem_map.mp hmem
        exact ⟨hrange, rfl⟩
      · rintro ⟨hrange, hlabel⟩
        exact List.mem_map.mpr ⟨denial.2, hrange, Prod.ext hlabel.symm rfl⟩
      · rintro rfl
        exact ⟨first, rest, rfl, rfl⟩
      · rintro ⟨_, _, hnames, rfl⟩
        cases hnames
        rfl

/-- The range of a denial is a range of the names, for the guard as well. -/
theorem range_mem_of_mem_denialChain {names : List Name} {denial : Denial}
    (h : denial ∈ denialChain names) : denial.2 ∈ ranges names := by
  rcases mem_denialChain.mp h with ⟨hrange, -⟩ | ⟨first, rest, rfl, rfl⟩
  · exact hrange
  · rw [ranges, rangesFrom_eq]
    exact List.mem_append_right _ List.mem_cons_self

section Soundness

variable [PacketFormat]

/-- No denial record of the zone makes the client conclude that a stored record is absent. -/
def DenialSound (db : Database) (zoneId : ℕ) : Prop :=
  ∀ doe ∈ denials db zoneId, ∀ record ∈ records db zoneId,
    ∀ controller : IterativeQueryController,
      controller.lastLabelType = record.label ++ [record.type] →
        ∃ data, PacketFormat.decode doe.data = some data ∧
          controller.isAbsentByDoe data = .ok false

variable {zoneName : Name} {zoneId : ℕ} {db db' : Database}

/-- A regenerated chain is sound exactly when no range of it excludes a name. -/
theorem Regenerates.denialSound_iff (h : Regenerates zoneName zoneId db db') :
    DenialSound db' zoneId ↔ ∀ range ∈ ranges (Mgmt.recordNames db zoneId),
      ∀ name ∈ Mgmt.recordNames db zoneId, ¬ Excludes range name := by
  constructor
  · intro hsound range hrange name hname hexcludes
    obtain ⟨record, hrecord, rfl⟩ := mem_recordNames.mp hname
    obtain ⟨doe, hdoe, hdenial⟩ := forall₂_mem_right h.denials
      (mem_denialChain.mpr (Or.inl ⟨hrange, rfl⟩) : (range.1, range) ∈ denialChain _)
    obtain ⟨data, hdecode, hwire⟩ := hdenial.wireDecodeDoe
    obtain ⟨data', hdecode', hfalse⟩ := hsound doe hdoe record (h.records zoneId ▸ hrecord)
      ⟨[], record.type, 0, .queryNs, 0, 1, none, record.label ++ [record.type]⟩ rfl
    cases hdecode.symm.trans hdecode'
    rw [isAbsentByDoe_eq hwire, isAbsentByRange_iff.mpr hexcludes] at hfalse
    cases hfalse
  · intro hnone doe hdoe record hrecord controller hlast
    obtain ⟨denial, hmem, hdenial⟩ := forall₂_mem_left h.denials hdoe
    obtain ⟨data, hdecode, hwire⟩ := hdenial.wireDecodeDoe
    refine ⟨data, hdecode, ?_⟩
    rw [isAbsentByDoe_eq hwire, hlast]
    have hname : record.label ++ [record.type] ∈ Mgmt.recordNames db zoneId :=
      mem_recordNames.mpr ⟨record, h.records zoneId ▸ hrecord, rfl⟩
    have hnot := hnone denial.2 (range_mem_of_mem_denialChain hmem) _ hname
    rw [← isAbsentByRange_iff, Bool.not_eq_true] at hnot
    rw [hnot]

namespace ManagementTool

variable {Keys : Type} {services : Services Keys} {world world' : World Keys}

/-- The chain `generateDoe` leaves denies no stored record exactly when all records of the zone
have the same label and type. -/
theorem generateDoe_sound_iff {zone zone' : Zone}
    (h : (generateDoe zone).Returns (World.handle services) world zone' world') :
    DenialSound world'.db zone'.id ↔
      ∀ left ∈ records world.db (DbMgr.lookupZone world.db zone).id,
        ∀ right ∈ records world.db (DbMgr.lookupZone world.db zone).id,
          left.label = right.label ∧ left.type = right.type := by
  obtain ⟨rfl, -, -, hregenerates⟩ := returns_generateDoe h
  rw [hregenerates.denialSound_iff, forall_not_excludes_iff]
  constructor
  · intro hsame left hleft right hright
    have hnames := hsame _ (mem_recordNames.mpr ⟨left, hleft, rfl⟩) _
      (mem_recordNames.mpr ⟨right, hright, rfl⟩)
    obtain ⟨hlabel, htype⟩ := List.append_inj' hnames rfl
    exact ⟨hlabel, (List.cons.inj htype).1⟩
  · intro hsame left hleft right hright
    obtain ⟨leftRow, hleftRow, rfl⟩ := mem_recordNames.mp hleft
    obtain ⟨rightRow, hrightRow, rfl⟩ := mem_recordNames.mp hright
    obtain ⟨hlabel, htype⟩ := hsame leftRow hleftRow rightRow hrightRow
    rw [hlabel, htype]

end ManagementTool

end Soundness

section Examples

open LocalServices

attribute [local instance] ndnPacketFormat

/-- The zone /n with TXT records at the given labels. -/
def txtDatabase (labels : List Name) : Database :=
  ⟨[⟨1, [letter 110], 3600⟩], [], labels.zipIdx.map fun (label, index) ↦
    ⟨index + 1, 1, label, Label.txtRrType, Component.fromVersion 1, 3600, Block.invalid⟩⟩

/-- The database after a regeneration of the chain of the zone /n. -/
def regenerated (labels : List Name) : Except Fault Zone × World ℕ :=
  (ManagementTool.generateDoe (Zone.named [letter 110])).run (World.handle localServices)
    ⟨txtDatabase labels, 0⟩

theorem generateDoe_single_sound : DenialSound (regenerated [[letter 97]]).2.db 1 :=
  (@ManagementTool.generateDoe_sound_iff _ _ localServices _ (regenerated [[letter 97]]).2 _
    ⟨1, [letter 110], 3600⟩ (Prod.ext rfl rfl)).mpr (by decide)

/-- With two records, the range from the last to the first denies both of them. -/
theorem generateDoe_pair_unsound :
    ∃ zone' world', (ManagementTool.generateDoe (Zone.named [letter 110])).Returns
        (World.handle localServices) ⟨txtDatabase [[letter 97], [letter 98]], 0⟩ zone' world' ∧
      ¬ DenialSound world'.db zone'.id := by
  refine ⟨⟨1, [letter 110], 3600⟩, (regenerated [[letter 97], [letter 98]]).2, Prod.ext rfl rfl, ?_⟩
  intro hsound
  let guard := (regenerated [[letter 97], [letter 98]]).2.db.rrsets.getLast (by decide)
  let controller : IterativeQueryController :=
    ⟨[], Label.txtRrType, 0, .queryNs, 0, 1, none, [letter 97, Label.txtRrType]⟩
  obtain ⟨data, hdecode, hfalse⟩ := hsound guard (by decide)
    ⟨1, 1, [letter 97], Label.txtRrType, Component.fromVersion 1, 3600, Block.invalid⟩ (by decide)
    controller rfl
  have habsent : (PacketFormat.decode guard.data).map controller.isAbsentByDoe =
      some (.ok true) := by decide
  rw [hdecode, Option.map_some, hfalse] at habsent
  cases habsent

end Examples

end Ndns.Mgmt
