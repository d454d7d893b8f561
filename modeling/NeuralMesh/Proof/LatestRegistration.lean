import NeuralMesh.Proof.BestProvider
import NeuralMesh.Proof.SubmittedConstraints

/-!
# The latest registration

The conflict clause of `register_provider` takes over five of the eleven columns that the insert
carries; the other six stay what the first registration said.
-/

namespace NeuralMesh

open Coordinator Program

variable {s t : Db} {log : List (Db × Operation)} {p : ProviderId}

/-- The columns a registration carries; without `capabilities` or `chip` it is refused. -/
def Coordinator.Grpc.RegisterProviderRequest.columns (req : Grpc.RegisterProviderRequest) :
    Option Capabilities :=
  req.capabilities.bind fun caps =>
    caps.chip.map fun chip =>
      { chipModel := some chip.chipModel
        unifiedMemoryGb := some (asI32 chip.unifiedMemoryGb.toNat)
        gpuCores := some (asI32 chip.gpuCores.toNat)
        metalVersion := some chip.metalVersion
        serialNumber := some chip.serialNumber
        installedRuntimes := some caps.installedRuntimes
        maxJobRamGb := some (asI32 caps.maxJobRamGb.toNat)
        bandwidthMbps := some (asI32 caps.bandwidthMbps.toNat)
        region := some caps.region
        floorPriceNmcPerHour := some caps.floorPriceNmcPerHour
        nmVersion := some req.nmVersion }

/-! ### What is taken over -/

namespace Capabilities

/-- The columns after a conflict. -/
def takeOver (kept caps : Capabilities) : Capabilities :=
  { kept with
    chipModel := caps.chipModel
    unifiedMemoryGb := caps.unifiedMemoryGb
    gpuCores := caps.gpuCores
    installedRuntimes := caps.installedRuntimes
    floorPriceNmcPerHour := caps.floorPriceNmcPerHour }

@[simp]
theorem takeOver_takeOver (first caps latest : Capabilities) :
    (first.takeOver caps).takeOver latest = first.takeOver latest := rfl

@[simp]
theorem takeOver_self (caps : Capabilities) : caps.takeOver caps = caps := rfl

/-- Alike in the columns the conflict clause leaves out. -/
structure SameKept (first latest : Capabilities) : Prop where
  metalVersion : first.metalVersion = latest.metalVersion
  serialNumber : first.serialNumber = latest.serialNumber
  maxJobRamGb : first.maxJobRamGb = latest.maxJobRamGb
  bandwidthMbps : first.bandwidthMbps = latest.bandwidthMbps
  region : first.region = latest.region
  nmVersion : first.nmVersion = latest.nmVersion

theorem takeOver_eq_iff {first latest : Capabilities} :
    first.takeOver latest = latest ↔ first.SameKept latest := by
  constructor
  · intro heq
    rw [← heq]
    exact ⟨rfl, rfl, rfl, rfl, rfl, rfl⟩
  · rintro ⟨hmetal, hserial, hram, hbandwidth, hregion, hversion⟩
    rw [takeOver, hmetal, hserial, hram, hbandwidth, hregion, hversion]

/-- The columns after several registrations, oldest first. -/
def stored (declared : List Capabilities) : Option Capabilities :=
  declared.foldl (fun kept caps => some (kept.elim caps fun kept => kept.takeOver caps)) none

theorem stored_concat (declared : List Capabilities) (caps : Capabilities) :
    stored (declared ++ [caps]) = some ((stored declared).elim caps fun kept => kept.takeOver caps) := by
  rw [stored, List.foldl_append]
  rfl

/-- The first registration, with what the latest one is taken over from. -/
theorem stored_eq {declared : List Capabilities} {latest : Capabilities}
    (hlatest : declared.getLast? = some latest) :
    ∃ first, declared.head? = some first ∧ stored declared = some (first.takeOver latest) := by
  induction declared using List.reverseRecOn generalizing latest with
  | nil => cases hlatest
  | append_singleton declared caps ih =>
      rw [List.getLast?_concat, Option.some.injEq] at hlatest
      subst hlatest
      rw [stored_concat]
      cases hbefore : declared.getLast? with
      | none =>
          obtain rfl := List.getLast?_eq_none_iff.mp hbefore
          exact ⟨caps, rfl, rfl⟩
      | some before =>
          obtain ⟨first, hfirst, hstored⟩ := ih hbefore
          refine ⟨first, ?_, ?_⟩
          · rw [List.head?_append, hfirst, Option.some_or]
          · rw [hstored, Option.elim_some, takeOver_takeOver]

end Capabilities

/-! ### One operation -/

namespace Operation

/-- What the operation declares for the provider. -/
def declares (p : ProviderId) : Operation → Option Capabilities
  | registerProvider req => if req.providerId = p then req.columns else none
  | _ => none

def isRegistration : Operation → Bool
  | registerProvider _ => true
  | _ => false

/-- A registration is refused and changes nothing, or it is one upsert. -/
theorem registerProvider_after (req : Grpc.RegisterProviderRequest) (s : Db) :
    (registerProvider req).after s =
      match req.columns with
      | none => s
      | some caps =>
          { s with providers :=
              s.providers.upsert req.providerId (.registered caps) (.reregister caps) } := by
  rw [after, program, run_forget, Grpc.registerProvider, Grpc.RegisterProviderRequest.columns]
  cases req.capabilities with
  | none => rfl
  | some caps =>
      rw [Option.bind_some]
      dsimp only
      cases caps.chip with
      | none => rfl
      | some chip => rfl

theorem declared_row {op : Operation} {caps : Capabilities} (hcaps : op.declares p = some caps)
    (s : Db) : (op.after s).providers.get? p =
      some (((s.providers.get? p).map (.reregister caps)).getD (.registered caps)) := by
  cases op with
  | registerProvider req =>
      rw [declares] at hcaps
      split at hcaps
      · rename_i heq
        rw [registerProvider_after, hcaps, ← heq]
        dsimp only
        rw [Table.get?_upsert, if_pos rfl]
      · cases hcaps
  | _ => cases hcaps

theorem undeclared_row {req : Grpc.RegisterProviderRequest}
    (hnone : (registerProvider req).declares p = none) (s : Db) :
    ((registerProvider req).after s).providers.get? p = s.providers.get? p := by
  rw [registerProvider_after]
  cases hcolumns : req.columns with
  | none => rfl
  | some caps =>
      dsimp only
      rw [Table.get?_upsert, if_neg]
      rintro rfl
      rw [declares, if_pos rfl, hcolumns] at hnone
      cases hnone

end Operation

/-- The columns of the provider's row, or its absence, are the same. -/
def KeepsCaps (p : ProviderId) (s t : Db) : Prop :=
  (t.providers.get? p).map Provider.caps = (s.providers.get? p).map Provider.caps

theorem KeepsCaps.of_exec {q : Action} {a : q.Answer}
    (hnot : ∀ caps, q ≠ .providers (.register p caps)) (hexec : q.exec s = some (a, t)) :
    KeepsCaps p s t := by
  rw [KeepsCaps]
  cases hrow : s.providers.get? p with
  | none =>
      cases hrow' : t.providers.get? p with
      | none => rfl
      | some row' =>
          rcases Action.exec_providers hexec with hsame | ⟨w, rfl, happly⟩
          · rw [hsame, hrow] at hrow'
            cases hrow'
          · rw [happly] at hrow'
            obtain ⟨caps, rfl, -⟩ := w.registered_of_apply hrow hrow'
            exact absurd rfl (hnot caps)
  | some row =>
      rcases Action.exec_provider hexec hrow with hkept | ⟨w, rfl, hedit⟩
      · rw [hkept]
      · rw [hedit, Option.map_some, Option.map_some,
          ProvidersWrite.edit_caps _ _ (fun caps heq => hnot caps (heq ▸ rfl)) row]

theorem Operation.undeclared_keepsCaps {op : Operation} (hnone : op.declares p = none) (s : Db) :
    KeepsCaps p s (op.after s) := by
  by_cases hregisters : ∃ req, op = .registerProvider req
  · obtain ⟨req, rfl⟩ := hregisters
    rw [KeepsCaps, undeclared_row hnone]
  · refine run_rel Action.exec (R := KeepsCaps p) (fun _ => rfl) (fun _ _ _ hst htu => htu.trans hst)
      (fun _ _ _ _ hspares hexec => .of_exec hspares hexec) _ s
      (Uses.mono (fun q hmay caps heq => ?_) (program_mayIssue op))
    subst heq
    cases op with
    | registerProvider req => exact hregisters ⟨req, rfl⟩
    | _ => simp [MayIssue, WritesProvider] at hmay

/-! ### A run -/

/-- What the registrations of the provider declared, oldest first. -/
def declarations (p : ProviderId) (log : List (Db × Operation)) : List Capabilities :=
  log.filterMap fun entry => entry.2.declares p

theorem declarations_concat (log : List (Db × Operation)) (s : Db) (op : Operation) :
    declarations p (log ++ [(s, op)]) = declarations p log ++ (op.declares p).toList := by
  rw [declarations, List.filterMap_append]
  cases hop : op.declares p <;> simp [declarations, hop]

/-- The row after the run: its columns, and all of it when only registrations ran. -/
structure RecordsDeclared (p : ProviderId) (log : List (Db × Operation)) (t : Db) : Prop where
  caps : (t.providers.get? p).map Provider.caps = Capabilities.stored (declarations p log)
  row : (∀ entry ∈ log, entry.2.isRegistration) →
    t.providers.get? p = (Capabilities.stored (declarations p log)).map Provider.registered
  state : ∀ before u op, log = before ++ [(u, op)] → (op.declares p).isSome →
    ∃ row, t.providers.get? p = some row ∧ row.state = .offline

theorem RecordsDeclared.after (hrecords : RecordsDeclared p log t) (op : Operation) :
    RecordsDeclared p (log ++ [(t, op)]) (op.after t) := by
  cases hcaps : op.declares p with
  | none =>
      have hsame : declarations p (log ++ [(t, op)]) = declarations p log := by
        rw [declarations_concat, hcaps, Option.toList_none, List.append_nil]
      refine ⟨?_, fun hall => ?_, fun before u op' heq hsome => ?_⟩
      · rw [hsame, ← hrecords.caps]
        exact Operation.undeclared_keepsCaps hcaps t
      · have hthis := hall (t, op) (List.mem_append_right _ (List.mem_singleton_self _))
        have hbefore := hrecords.row fun entry hentry => hall entry (List.mem_append_left _ hentry)
        cases op with
        | registerProvider req => rw [hsame, Operation.undeclared_row hcaps, hbefore]
        | _ => cases hthis
      · obtain ⟨-, hlast⟩ := List.append_inj' heq rfl
        cases hlast
        rw [hcaps] at hsome
        cases hsome
  | some caps =>
      have hmore : declarations p (log ++ [(t, op)]) = declarations p log ++ [caps] := by
        rw [declarations_concat, hcaps, Option.toList_some]
      have hrow := Operation.declared_row hcaps t
      refine ⟨?_, fun hall => ?_, fun before u op' heq _ => ⟨_, hrow, ?_⟩⟩
      · rw [hmore, Capabilities.stored_concat, ← hrecords.caps, hrow]
        cases t.providers.get? p with
        | none => rfl
        | some row => rfl
      · have hbefore := hrecords.row fun entry hentry => hall entry (List.mem_append_left _ hentry)
        rw [hmore, Capabilities.stored_concat, hrow, hbefore]
        cases Capabilities.stored (declarations p log) with
        | none => rfl
        | some kept => rfl
      · cases t.providers.get? p with
        | none => rfl
        | some row => rfl

theorem History.recordsDeclared {P : Db → Operation → Prop} (hhistory : History P Db.init log t) :
    RecordsDeclared p log t := by
  induction hhistory with
  | start => exact ⟨rfl, fun _ => rfl, fun before u op heq => by simp at heq⟩
  | operation _ _ ih => exact ih.after _
  | idle _ hshuffled ih =>
      have hsame := hshuffled.providers.get?_eq p
      exact ⟨hsame ▸ ih.caps, hsame ▸ ih.row, hsame ▸ ih.state⟩

/-- The row holds what the latest registration declared, also where the auction reads it. Right after
a registration the provider is offline, and when only registrations ran the whole row is the one that
a first registration creates. -/
structure LatestWins (p : ProviderId) (log : List (Db × Operation)) (t : Db) : Prop where
  holds : ∀ latest ∈ (declarations p log).getLast?,
    ∃ row, t.providers.get? p = some row ∧ row.caps = latest
  matched : ∀ latest ∈ (declarations p log).getLast?, ∀ minRamGb maxPrice row,
    (p, row) ∈ (Read.eval t (.candidates minRamGb maxPrice) : List (ProviderId × Provider)) →
    row.caps = latest
  state : ∀ before u op, log = before ++ [(u, op)] → (op.declares p).isSome →
    ∃ row, t.providers.get? p = some row ∧ row.state = .offline
  created : ∀ latest ∈ (declarations p log).getLast?, (∀ entry ∈ log, entry.2.isRegistration) →
    t.providers.get? p = some (.registered latest)

/-- In every run the row is that of the latest registration exactly when the latest agrees with the
first in the columns the conflict clause leaves out. -/
theorem latestWins_iff (hhistory : History (fun _ _ => True) Db.init log t) :
    LatestWins p log t ↔
      ∀ first ∈ (declarations p log).head?, ∀ latest ∈ (declarations p log).getLast?,
        first.SameKept latest := by
  have hrecords : RecordsDeclared p log t := hhistory.recordsDeclared
  constructor
  · intro hwins first hfirst latest hlatest
    obtain ⟨row, hrow, hcaps⟩ := hwins.holds latest hlatest
    obtain ⟨first', hfirst', hstored⟩ := Capabilities.stored_eq hlatest
    cases hfirst.symm.trans hfirst'
    have hsame := hrecords.caps
    rw [hrow, hstored, Option.map_some, hcaps, Option.some.injEq] at hsame
    exact Capabilities.takeOver_eq_iff.mp hsame.symm
  · intro hagree
    have hstored : ∀ latest ∈ (declarations p log).getLast?,
        Capabilities.stored (declarations p log) = some latest := by
      intro latest hlatest
      obtain ⟨first, hfirst, hstored⟩ := Capabilities.stored_eq hlatest
      rw [hstored, Capabilities.takeOver_eq_iff.mpr (hagree first hfirst latest hlatest)]
    have hholds : ∀ latest ∈ (declarations p log).getLast?,
        ∃ row, t.providers.get? p = some row ∧ row.caps = latest := by
      intro latest hlatest
      exact Option.map_eq_some_iff.mp (hrecords.caps.trans (hstored latest hlatest))
    refine ⟨hholds, fun latest hlatest minRamGb maxPrice row hmem => ?_, hrecords.state,
      fun latest hlatest hall => ?_⟩
    · obtain ⟨row', hrow', hcaps⟩ := hholds latest hlatest
      have hrow := (mem_offers_iff.mp (List.mem_of_mem_take hmem)).1
      cases hrow.symm.trans hrow'
      exact hcaps
    · rw [hrecords.row hall, hstored latest hlatest, Option.map_some]

/-- The provider offers 8 GB, then only 4. -/
def lowered : List Operation :=
  [registrationWith 8, registrationWith 4, agentHeartbeat "p" "available"]

theorem lowered_latestWins_iff :
    History (fun _ _ => True) Db.init (logOf lowered Db.init) (afterAll lowered Db.init) ∧
      (LatestWins "p" (logOf lowered Db.init) (afterAll lowered Db.init) ↔
        ∀ first ∈ (declarations "p" (logOf lowered Db.init)).head?,
          ∀ latest ∈ (declarations "p" (logOf lowered Db.init)).getLast?, first.SameKept latest) :=
  ⟨.afterAll (meetsAll_true _ _), latestWins_iff (.afterAll (meetsAll_true _ _))⟩

/-- The row offers 8 GB still. -/
theorem lowered_not_latestWins :
    ¬ LatestWins "p" (logOf lowered Db.init) (afterAll lowered Db.init) := by
  intro hwins
  obtain ⟨row, hrow, hcaps⟩ := hwins.holds _ rfl
  cases hrow
  have hram : (some 8 : Option Int) = some 4 := congrArg Capabilities.maxJobRamGb hcaps
  cases hram

end NeuralMesh
