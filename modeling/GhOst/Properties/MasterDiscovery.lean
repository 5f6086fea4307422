import GhOst.Infra.Follow
import GhOst.Logic.MasterDiscovery

/-!
# The search for the master ends

Without query errors the search follows the link from each instance to its master, and a link to an
invalid key counts as none.
-/

namespace GhOst.Logic

open Infra

/-- The master that the search goes on with. -/
def masterOf (topology : Topology) (key : InstanceKey) : Option InstanceKey :=
  match getMasterKeyFromSlaveStatus topology key with
  | .ok (some masterKey) => if masterKey.isValid then some masterKey else none
  | _ => none

/-- The instances of a topology, all of which answer, with the masters of all of them. -/
structure Answers (topology : Topology) (instances : Finset InstanceKey) : Prop where
  noErrors : ∀ key ∈ instances,
    ∃ masterKey, getMasterKeyFromSlaveStatus topology key = .ok masterKey
  closed : ∀ key ∈ instances, ∀ masterKey, masterOf topology key = some masterKey →
    masterKey ∈ instances

def discovered (allowMasterMaster : Bool) : FollowEnd InstanceKey → Except String InstanceKey
  | .last key => .ok key
  | .again key masterKey =>
    if allowMasterMaster then .ok key else .error (masterMasterError masterKey)

variable {topology : Topology} {instances : Finset InstanceKey}

/-- **The search follows the links.** -/
theorem getMasterConnectionConfigSafe_eq (h : Answers topology instances) (allowMasterMaster : Bool)
    {key : InstanceKey} (hkey : key ∈ instances) (fuel : Nat) (visitedKeys : List InstanceKey) :
    getMasterConnectionConfigSafe topology allowMasterMaster fuel key visitedKeys =
      (follow (masterOf topology) fuel key visitedKeys).map fun found =>
        (discovered allowMasterMaster found.1, found.2) := by
  induction fuel generalizing key visitedKeys with
  | zero => rfl
  | succ fuel ih =>
    obtain ⟨answer, hanswer⟩ := h.noErrors key hkey
    have hclosed := h.closed key hkey
    rw [getMasterConnectionConfigSafe, follow, hanswer]
    unfold masterOf at hclosed ⊢
    rw [hanswer] at hclosed ⊢
    cases answer with
    | none => rfl
    | some masterKey =>
      dsimp only at hclosed ⊢
      cases hvalid : masterKey.isValid with
      | false => rfl
      | true =>
        rw [hvalid, if_pos rfl] at hclosed
        rw [Bool.not_true, if_neg Bool.false_ne_true, if_pos rfl]
        dsimp only
        by_cases hmem : masterKey ∈ visitedKeys
        · rw [if_pos hmem, if_pos hmem]
          cases allowMasterMaster <;> rfl
        · rw [if_neg hmem, if_neg hmem, ih (hclosed masterKey rfl), Option.map_map, Option.map_map]
          rfl

/-- A replica, whose master and that one's master replicate from each other. -/
def smallTopology : Topology := fun key =>
  .ok [{ masterLogFile := "bin.000001", slaveIORunning := "Yes", slaveSQLRunning := "Yes",
         masterHost := if key.hostname = "b" then "c" else "b", masterPort := 3306 }]

end GhOst.Logic
