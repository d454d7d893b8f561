import NeuralMesh.Base.Calls
import Mathlib.Data.List.Basic

/-!
# Program-derived addresses

An address derived from seeds is a digest that is no point of the curve. Nobody has a key for it; the
programme signs for it by showing the seeds.
-/

namespace NeuralMesh.Solana

abbrev Pubkey := BitVec 256

instance : LawfulBEq Pubkey := inferInstance

abbrev Seed := List UInt8

/-- The 32 bytes of a key. -/
def Pubkey.bytes (key : Pubkey) : Seed :=
  (List.range 32).map fun i => UInt8.ofNat (key.toNat / 256 ^ i)

inductive PubkeyError where
  | maxSeedLengthExceeded | invalidSeeds
  deriving DecidableEq, Repr

/-- What address derivation computes with. -/
structure Runtime where
  /-- SHA-256 of these bytes, the programme's id and the runtime's marker. -/
  digest : List UInt8 → Pubkey
  /-- Whether the bytes are a point of ed25519. -/
  onCurve : Pubkey → Bool

namespace Runtime

variable (runtime : Runtime)

/-- `Pubkey::create_program_address` -/
def createProgramAddress (seeds : List Seed) : Except PubkeyError Pubkey := do
  ensure (seeds.length ≤ 16) .maxSeedLengthExceeded
  ensure (∀ seed ∈ seeds, seed.length ≤ 32) .maxSeedLengthExceeded
  let address := runtime.digest seeds.flatten
  ensure (¬ runtime.onCurve address) .invalidSeeds
  return address

/-- The bumps in the order they are tried. -/
def bumps : List UInt8 := (List.range 255).map fun i => .ofNat (255 - i)

/-- `Pubkey::find_program_address`; `none` where it panics. -/
def findProgramAddress (seeds : List Seed) : Option (Pubkey × UInt8) :=
  bumps.findSome? fun bump =>
    (runtime.createProgramAddress (seeds ++ [[bump]])).toOption.map (·, bump)

variable {runtime} {seeds : List Seed} {address : Pubkey} {bump : UInt8}

/-- The address found is the one its bump derives. -/
theorem createProgramAddress_of_find
    (hfind : runtime.findProgramAddress seeds = some (address, bump)) :
    runtime.createProgramAddress (seeds ++ [[bump]]) = .ok address := by
  obtain ⟨tried, _, hmap⟩ := List.exists_of_findSome?_eq_some hfind
  cases hderived : runtime.createProgramAddress (seeds ++ [[tried]]) with
  | error e =>
      rw [hderived] at hmap
      cases hmap
  | ok derived =>
      rw [hderived] at hmap
      cases hmap
      exact hderived

/-- No address is found for a seed that is too long. -/
theorem seeds_legal_of_find (hfind : runtime.findProgramAddress seeds = some (address, bump)) :
    ∀ seed ∈ seeds, seed.length ≤ 32 := by
  have hderived := createProgramAddress_of_find hfind
  simp only [createProgramAddress, bind_eq_ok, ensure_eq_ok, List.forall_mem_append] at hderived
  obtain ⟨_, _, _, ⟨hlengths, _⟩, _⟩ := hderived
  exact hlengths

/-- Whatever the bytes, some bump takes their digest off the curve. -/
def OffCurve (runtime : Runtime) : Prop :=
  ∀ bytes, ∃ bump ∈ bumps, ¬ runtime.onCurve (runtime.digest (bytes ++ [bump]))

/-- Then the seeds alone decide whether an address is found. -/
theorem findProgramAddress_isSome (hoff : runtime.OffCurve) (hcount : seeds.length < 16) :
    (runtime.findProgramAddress seeds).isSome ↔ ∀ seed ∈ seeds, seed.length ≤ 32 := by
  constructor
  · intro hsome
    obtain ⟨⟨address, bump⟩, hfind⟩ := Option.isSome_iff_exists.mp hsome
    exact seeds_legal_of_find hfind
  · intro hlengths
    obtain ⟨bump, hbump, hout⟩ := hoff seeds.flatten
    have hderived : runtime.createProgramAddress (seeds ++ [[bump]]) =
        .ok (runtime.digest (seeds.flatten ++ [bump])) := by
      simp only [createProgramAddress, bind_eq_ok, ensure_eq_ok, pure_eq_ok, exists_const,
        List.forall_mem_append, List.flatten_append, List.length_append]
      exact ⟨hcount, ⟨hlengths, by simp⟩, hout, rfl⟩
    rw [findProgramAddress, List.findSome?_isSome_iff]
    exact ⟨bump, hbump, by simp [hderived, Except.toOption]⟩

end Runtime

end NeuralMesh.Solana
