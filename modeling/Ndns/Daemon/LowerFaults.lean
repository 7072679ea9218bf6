import Ndns.Calls.Contracts
import Ndns.Daemon.RrsetFactory

/-!
# Faults of the Lower Layers

The database manager, the key chain operations and the record factory throw faults of their own.
Whatever their calls answer, no fault of the management tool comes from them, and none of their
runs is without a meaning.
-/

namespace Ndns.Daemon

open Ndn Calls

/-- A fault that is neither one of the management tool nor a run without a meaning. -/
def Fault.Lower : Fault → Prop
  | .managementToolError _ _ | .undefinedBehavior | .nonTermination => False
  | _ => True

variable {Value Result : Type}

/-- However its calls are answered, the program throws faults of the lower layers only. -/
def ThrowsLower (program : Prog Value) : Prop :=
  program.Ends fun outcome ↦ ∀ fault, outcome = .error fault → fault.Lower

theorem throwsLower_pure (value : Value) : ThrowsLower (pure value) := fun _ h ↦ nomatch h

theorem throwsLower_throw {fault : Fault} (h : fault.Lower) :
    ThrowsLower (throw fault : Prog Value) := fun _ hfault ↦ Except.error.inj hfault ▸ h

theorem ThrowsLower.bind {program : Prog Value} {rest : Value → Prog Result}
    (h : ThrowsLower program) (hrest : ∀ value, ThrowsLower (rest value)) :
    ThrowsLower (program >>= rest) :=
  Program.Ends.bind h (fun value _ ↦ hrest value) fun fault hlower _ hother ↦
    Except.error.inj hother ▸ hlower fault rfl

theorem throwsLower_sql (statement : Sql) : ThrowsLower (sql statement) :=
  Program.ends_request fun _ _ h ↦ nomatch h

theorem throwsLower_service (request : Service) : ThrowsLower (service request) :=
  Program.ends_request fun _ _ h ↦ nomatch h

theorem throwsLower_require {condition : Prop} [Decidable condition] {fault : Fault}
    (h : fault.Lower) : ThrowsLower (require condition fault) := by
  unfold require
  split_ifs
  · exact throwsLower_pure ()
  · exact throwsLower_throw h

theorem throwsLower_orThrow {value : Option Value} {fault : Fault} (h : fault.Lower) :
    ThrowsLower (orThrow value fault) := by
  cases value with
  | none => exact throwsLower_throw h
  | some value => exact throwsLower_pure value

/-- An attempt throws nothing, and returns the faults of its program. -/
theorem ends_attempt {program : Prog Value} (h : ThrowsLower program) :
    (attempt program).Ends fun outcome ↦
      ∀ fault, outcome = .error fault ∨ outcome = .ok (.error fault) → fault.Lower := by
  have hprogram : (program >>= fun value ↦ (pure (.ok value) : Prog (Except Fault Value))).Ends
      fun outcome ↦ ∀ fault, outcome = .error fault ∨ outcome = .ok (.error fault) →
        fault.Lower := by
    refine Program.Ends.bind h (fun value _ fault ↦ ?_) fun fault hlower other ↦ ?_
    · rintro (hfault | hfault) <;> cases hfault
    · rintro (hfault | hfault) <;> cases hfault
      exact hlower fault rfl
  refine hprogram.tryCatch (fun value hvalue ↦ hvalue) fun fault hlower other ↦ ?_
  rintro (hfault | hfault) <;> cases hfault
  exact hlower fault (Or.inl rfl)

/-! ## The database manager -/

theorem throwsLower_findZone (zone : Zone) : ThrowsLower (DbMgr.findZone zone) := by
  refine (throwsLower_sql _).bind fun selected ↦ ?_
  rcases selected with _ | ⟨rows, _⟩
  · exact throwsLower_throw trivial
  · cases rows <;> exact throwsLower_pure _

theorem throwsLower_findNewZone (zone : Zone) : ThrowsLower (DbMgr.findNewZone zone) := by
  unfold DbMgr.findNewZone
  split_ifs
  · exact throwsLower_findZone zone
  · exact throwsLower_pure zone

theorem throwsLower_findRrset (rrset : Rrset) : ThrowsLower (DbMgr.findRrset rrset) := by
  unfold DbMgr.findRrset DbMgr.findWith
  cases rrset.zone with
  | none => exact throwsLower_throw trivial
  | some zone =>
      refine (throwsLower_findNewZone zone).bind fun zone ↦ ?_
      split_ifs
      · exact throwsLower_pure _
      · refine (throwsLower_sql _).bind fun selected ↦ ?_
        rcases selected with _ | ⟨rows, _⟩
        · exact throwsLower_throw trivial
        · cases rows <;> exact throwsLower_pure _

theorem throwsLower_removeRrset (rrset : Rrset) : ThrowsLower (DbMgr.removeRrset rrset) := by
  unfold DbMgr.removeRrset
  split_ifs
  · exact throwsLower_throw trivial
  · refine (throwsLower_sql _).bind fun written ↦ ?_
    cases written with
    | prepareError | stepError => exact throwsLower_throw trivial
    | finished rowid => exact throwsLower_pure ()

theorem throwsLower_requireZone (zone : Zone) : ThrowsLower (DbMgr.requireZone zone) := by
  refine (throwsLower_findNewZone zone).bind fun zone ↦ ?_
  split_ifs
  · exact throwsLower_throw trivial
  · exact throwsLower_pure zone

theorem throwsLower_findRrsets (zone : Zone) : ThrowsLower (DbMgr.findRrsets zone) := by
  refine (throwsLower_requireZone zone).bind fun zone ↦ (throwsLower_sql _).bind fun selected ↦ ?_
  rcases selected with _ | ⟨rows, _⟩
  · exact throwsLower_throw trivial
  · exact throwsLower_pure _

theorem throwsLower_removeRrsetsOfZoneByType (zone : Zone) (type : Component) :
    ThrowsLower (DbMgr.removeRrsetsOfZoneByType zone type) := by
  refine (throwsLower_requireZone zone).bind fun zone ↦ (throwsLower_sql _).bind fun written ↦ ?_
  cases written with
  | prepareError | stepError => exact throwsLower_throw trivial
  | finished rowid => exact throwsLower_pure ()

theorem throwsLower_setZoneInfo (zone : Zone) (key : String) (value : Block) :
    ThrowsLower (DbMgr.setZoneInfo zone key value) := by
  unfold DbMgr.setZoneInfo
  split_ifs
  · exact throwsLower_throw trivial
  · exact throwsLower_throw trivial
  · refine (throwsLower_sql _).bind fun written ↦ ?_
    cases written with
    | prepareError | stepError => exact throwsLower_throw trivial
    | finished rowid => exact throwsLower_pure ()

theorem throwsLower_insertZone (zone : Zone) : ThrowsLower (DbMgr.insertZone zone) := by
  unfold DbMgr.insertZone
  split_ifs
  · exact throwsLower_pure zone
  · refine (throwsLower_sql _).bind fun written ↦ ?_
    cases written with
    | prepareError | stepError => exact throwsLower_throw trivial
    | finished rowid => exact throwsLower_pure _

theorem throwsLower_insertRrset (rrset : Rrset) : ThrowsLower (DbMgr.insertRrset rrset) := by
  unfold DbMgr.insertRrset
  split_ifs
  · exact throwsLower_pure rrset
  · cases rrset.zone with
    | none => exact throwsLower_throw trivial
    | some zone =>
        refine (throwsLower_insertZone zone).bind fun stored ↦ (throwsLower_sql _).bind
          fun written ↦ ?_
        cases written with
        | prepareError | stepError => exact throwsLower_throw trivial
        | finished rowid => exact throwsLower_pure _

/-! ## The record factory -/

namespace RrsetFactory

theorem throwsLower_make (zoneName inputDskCertName : Name) :
    ThrowsLower (make zoneName inputDskCertName) := by
  unfold make
  split_ifs
  · exact ((throwsLower_service _).bind fun _ ↦ throwsLower_orThrow (by trivial)).bind fun _ ↦
      ((throwsLower_service _).bind fun _ ↦ throwsLower_orThrow (by trivial)).bind fun _ ↦
        throwsLower_pure _
  · exact throwsLower_pure _

theorem throwsLower_matchCertificate (certName identity : Name) :
    ThrowsLower (matchCertificate certName identity) := by
  have hcertificate : ThrowsLower (CertHelper.getCertificate identity certName) :=
    (throwsLower_service _).bind fun _ ↦ (throwsLower_orThrow (by trivial)).bind fun _ ↦
      throwsLower_orThrow (by trivial)
  refine Program.Ends.bind (ends_attempt hcertificate) (fun outcome hlower ↦ ?_) ?_
  · rcases outcome with fault | certificate
    · have hfault := hlower fault (Or.inr rfl)
      cases fault with
      | keyChainError => exact throwsLower_pure false
      | _ => exact throwsLower_throw hfault
    · exact throwsLower_pure true
  · rintro fault hlower other hother
    cases hother
    exact hlower fault (Or.inl rfl)

/-- The outcome of a check that is handed on is a fault of the lower layers. -/
theorem ends_onlyCheckZone (factory : RrsetFactory) : factory.onlyCheckZone.Ends fun outcome ↦
    ∀ fault, (outcome = .error fault ∨ ∃ factory', outcome = .ok (.error fault, factory')) →
      fault.Lower := by
  unfold onlyCheckZone
  split_ifs
  · rintro fault (hfault | ⟨_, hfault⟩) <;> cases hfault
  · refine Program.Ends.bind (ends_attempt (throwsLower_findZone factory.zone))
      (fun outcome hlower ↦ ?_) fun fault hlower other ↦ ?_
    · rcases outcome with fault | zone
      · rintro other (hfault | ⟨_, hfault⟩) <;> cases hfault
        exact hlower fault (Or.inr rfl)
      · dsimp only
        split_ifs
        · rintro fault (hfault | ⟨_, hfault⟩) <;> cases hfault
          trivial
        · rintro fault (hfault | ⟨_, hfault⟩) <;> cases hfault
    · rintro (hfault | ⟨_, hfault⟩) <;> cases hfault
      exact hlower fault (Or.inl rfl)

theorem ends_checkZoneKey (factory : RrsetFactory) : factory.checkZoneKey.Ends fun outcome ↦
    ∀ fault, (outcome = .error fault ∨ ∃ factory', outcome = .ok (.error fault, factory')) →
      fault.Lower := by
  refine Program.Ends.bind (ends_onlyCheckZone factory) (fun checked hlower ↦ ?_)
    fun fault hlower other ↦ ?_
  · rcases checked with ⟨fault | _, factory'⟩
    · rintro other (hfault | ⟨_, hfault⟩) <;> cases hfault
      exact hlower fault (Or.inr ⟨_, rfl⟩)
    · dsimp only
      split_ifs
      · rintro fault (hfault | ⟨_, hfault⟩) <;> cases hfault
      · refine Program.Ends.bind (ends_attempt (throwsLower_matchCertificate _ _))
          (fun outcome hlower ↦ ?_) fun fault hlower other ↦ ?_
        · rcases outcome with fault | _ | _
          · rintro other (hfault | ⟨_, hfault⟩) <;> cases hfault
            exact hlower fault (Or.inr rfl)
          · rintro fault (hfault | ⟨_, hfault⟩) <;> cases hfault
            trivial
          · rintro fault (hfault | ⟨_, hfault⟩) <;> cases hfault
        · rintro (hfault | ⟨_, hfault⟩) <;> cases hfault
          exact hlower fault (Or.inl rfl)
  · rintro (hfault | ⟨_, hfault⟩) <;> cases hfault
    exact hlower fault (Or.inl rfl)

theorem throwsLower_checkZoneKey (factory : RrsetFactory) {rest : RrsetFactory → Prog Value}
    (hrest : ∀ checked, ThrowsLower (rest checked)) :
    ThrowsLower (factory.checkZoneKey >>= fun outcome ↦ raise outcome >>= rest) := by
  refine Program.Ends.bind (ends_checkZoneKey factory) (fun outcome hlower ↦ ?_)
    fun fault hlower other hother ↦ ?_
  · rcases outcome with ⟨fault | _, checked⟩
    · exact throwsLower_throw (hlower fault (Or.inr ⟨_, rfl⟩))
    · exact hrest checked
  · cases hother
    exact hlower fault (Or.inl rfl)

variable [PacketFormat]

theorem throwsLower_generateRrset (factory : RrsetFactory) (label : Name) (type : Component)
    (contentType : NdnsContentType) (version : ℕ) (ttl : ℤ) (content : Option Blob) :
    ThrowsLower (factory.generateRrset label type contentType version ttl content) := by
  have hversion : ThrowsLower (chooseVersion version) := by
    unfold chooseVersion
    split_ifs
    · exact throwsLower_service _
    · exact throwsLower_pure version
  have hbase : ∀ ttl, ThrowsLower (factory.generateBaseRrset label type version ttl) :=
    fun _ ↦ hversion.bind fun _ ↦ throwsLower_pure _
  refine (throwsLower_require (by trivial)).bind fun _ ↦ (hbase _).bind fun _ ↦ ?_
  exact (throwsLower_orThrow (by trivial)).bind fun _ ↦ (throwsLower_require (by trivial)).bind fun _ ↦
    (throwsLower_service _).bind fun _ ↦ (throwsLower_orThrow (by trivial)).bind fun _ ↦
      (throwsLower_orThrow (by trivial)).bind fun _ ↦ throwsLower_pure _

end RrsetFactory

end Ndns.Daemon
