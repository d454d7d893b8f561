import NeuralMesh.Coordinator.Grpc

/-!
# Whether a provider can run a job

`MacChipInfo::can_serve` of `crates/nm-common/src/types.rs`, and `can_run` of
`sdk/python/neuralmesh/provider.py` on the fields it reads.
-/

namespace NeuralMesh

/-- 4 GB are reserved for macOS. -/
def Coordinator.Grpc.MacChipInfo.canServe (chip : MacChipInfo) (ramGb : UInt32) : Bool :=
  ramGb + 4 ≤ chip.unifiedMemoryGb

theorem Coordinator.Grpc.MacChipInfo.canServe_of_le {chip : MacChipInfo} {ramGb : UInt32}
    (hle : (ramGb.toNat : Int) + 4 ≤ asI32 chip.unifiedMemoryGb.toNat) : chip.canServe ramGb := by
  have hstored := asI32_le chip.unifiedMemoryGb.toNat
  have hlt := chip.unifiedMemoryGb.toNat_lt
  have hfour : (4 : UInt32).toNat = 4 := rfl
  rw [canServe, decide_eq_true_eq, UInt32.le_iff_toNat_le, UInt32.toNat_add, hfour,
    Nat.mod_eq_of_lt (by omega)]
  omega

namespace Sdk

structure Provider where
  unifiedMemoryGb : Option Int
  installedRuntimes : Option (List String)
  state : Option String
  deriving DecidableEq, Repr

namespace Provider

def available (p : Provider) : Bool := p.state = some "available"

/-- True if this provider can handle a job with the given requirements. -/
def canRun (p : Provider) (ramGb : Int) (runtime : Option String) : Bool :=
  let ramOk := ramGb + 4 ≤ p.unifiedMemoryGb.getD 0
  let rtOk := runtime.all fun r => r ∈ p.installedRuntimes.getD []
  p.available && ramOk && rtOk

/-- The provider as the coordinator lists it. -/
def ofRow (row : NeuralMesh.Provider) : Provider where
  unifiedMemoryGb := row.caps.unifiedMemoryGb
  installedRuntimes := some (row.caps.installedRuntimes.getD [])
  state := some row.state.text

theorem canRun_iff {p : Provider} {ramGb : Int} {runtime : String} :
    p.canRun ramGb (some runtime) ↔ p.available ∧ ramGb + 4 ≤ p.unifiedMemoryGb.getD 0 ∧
      runtime ∈ p.installedRuntimes.getD [] := by
  simp only [canRun, Option.all_some, Bool.and_eq_true, decide_eq_true_eq, and_assoc]

end Provider

end Sdk

end NeuralMesh
