import NeuralMesh.Base.Lines
import NeuralMesh.Base.Single

/-!
# The GPU of a Mac

What `gpu_detect.rs` reads from the output of `ioreg`, and how the idle detector uses it. The outputs
of the programs that are run are given.
-/

namespace NeuralMesh.Macos

open Text

structure GpuStats where
  utilizationPct : F32
  memoryUsedMb : Nat
  memoryTotalMb : Nat

section ParseIoreg

variable {α : Type} (parse : List Char → Option α) (key : List Char)

/-- The loop over the lines: the first one with the key and an `=` decides. -/
def parseIoregLines : List (List Char) → Option α
  | [] => none
  | line :: rest =>
      if key <:+: line then
        match afterFirst '=' line with
        | some value => parse (trimMatches (· = '"') (trim value))
        | none => parseIoregLines rest
      else parseIoregLines rest

/-- `parse_ioreg_float` and `parse_ioreg_u64`, which differ in what they parse. -/
def parseIoreg (text : String) : Option α := parseIoregLines parse key (lines text.toList)

end ParseIoreg

def parseIoregFloat (text key : String) : Option F32 := parseIoreg F32.fromStr key.toList text

def parseIoregU64 (text key : String) : Option Nat := parseIoreg u64FromStr key.toList text

/-- What the programs answer. -/
structure Commands where
  /-- `ioreg -r -d 1 -n AGXAccelerator`, `none` if it does not run -/
  ioreg : Option String
  /-- `sysctl_u64("hw.memsize")` -/
  memsize : Option Nat

def sampleGpuUtilization (commands : Commands) : Option GpuStats := do
  let text ← commands.ioreg
  let utilPct := ((parseIoregFloat text "Device Utilization %").or
    (parseIoregFloat text "GPU Activity(%)")).getD (.finite 0)
  let memoryUsedMb := (parseIoregU64 text "IOGPUOutstandingBufferMB").getD 0
  let memoryTotalMb := commands.memsize.getD 0 / (1024 * 1024)
  return { utilizationPct := utilPct, memoryUsedMb, memoryTotalMb }

/-- `IdleDetector::is_gpu_idle` -/
def isGpuIdle (thresholdPct : F32) (commands : Commands) : Bool :=
  ((sampleGpuUtilization commands).map fun s => s.utilizationPct.lt thresholdPct).getD true

end NeuralMesh.Macos
