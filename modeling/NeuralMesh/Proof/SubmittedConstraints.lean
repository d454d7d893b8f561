import NeuralMesh.System.Assignments
import NeuralMesh.System.Constraints
import NeuralMesh.System.History
import Mathlib.Data.UInt

/-!
# The constraints of a submission

The auction compares the columns `min_ram_gb` and `max_price_per_hour` of a job with the columns
`max_job_ram_gb` and `floor_price_nmc_per_hour` of a provider. What was submitted and what was
declared comes to these columns through casts, and a second registration leaves `max_job_ram_gb` as
it was.
-/

namespace NeuralMesh

open Coordinator Program

variable {s t : Db} {jobId : JobId} {providerId : ProviderId}

/-- What a submission asks for. -/
structure Demand where
  minRamGb : Int
  maxPrice : ℚ
  deriving DecidableEq

/-- What a registration offers. -/
structure Offer where
  maxJobRamGb : Nat
  floorPrice : ℚ
  deriving DecidableEq

namespace Operation

/-- What the operation asks for the job. -/
def demand (jobId : JobId) : Operation → Option Demand
  | submitJob ids body =>
      if ids.jobId = jobId then some ⟨body.minRamGb, body.maxPricePerHour⟩ else none
  | grpcSubmitJob k req =>
      if k = jobId then req.requirements.map fun reqs => ⟨reqs.minRamGb.toNat, reqs.maxPricePerH⟩
      else none
  | _ => none

/-- What the operation offers for the provider; a registration without `capabilities` or without
`chip` is refused. -/
def offer (providerId : ProviderId) : Operation → Option Offer
  | registerProvider req =>
      if req.providerId = providerId then
        req.capabilities.bind fun caps =>
          caps.chip.map fun _ => ⟨caps.maxJobRamGb.toNat, caps.floorPriceNmcPerHour⟩
      else none
  | _ => none

/-- A refused registration offers nothing. -/
theorem offer_of_refused {req : Grpc.RegisterProviderRequest}
    (hnone : ∀ caps ∈ req.capabilities, caps.chip = none) (p : ProviderId) :
    (registerProvider req).offer p = none := by
  rw [offer]
  split
  · cases hcaps : req.capabilities with
    | none => rfl
    | some caps => rw [Option.bind_some, hnone caps hcaps, Option.map_none]
  · rfl

/-- The operation submits the job. -/
def submission (jobId : JobId) (s : Db) (op : Operation) : Option Demand :=
  if (s.jobs.get? jobId).isNone ∧ ((op.after s).jobs.get? jobId).isSome then op.demand jobId
  else none

end Operation

/-- What the submission of the job asked for. -/
def submittedAs (jobId : JobId) (log : List (Db × Operation)) : Option Demand :=
  (log.filterMap fun entry => entry.2.submission jobId entry.1).getLast?

/-- What the latest registration of the provider offered. -/
def registeredAs (providerId : ProviderId) (log : List (Db × Operation)) : Option Offer :=
  (log.filterMap fun entry => entry.2.offer providerId).getLast?

theorem getLast?_filterMap_concat {α β : Type} (f : α → Option β) (l : List α) (a : α) :
    ((l ++ [a]).filterMap f).getLast? = (f a).or (l.filterMap f).getLast? := by
  rw [List.filterMap_append]
  cases hf : f a with
  | none => simp [hf]
  | some b => simp [hf]

/-- The numbers that are stored are the submitted ones, and no more than the declared ones: a
submission asks for less than 2^31 GB, and a registration declares at least what is stored. -/
def StoresNumbers (s : Db) : Operation → Prop
  | .grpcSubmitJob _ req => ∀ reqs ∈ req.requirements, reqs.minRamGb.toNat < 2 ^ 31
  | .registerProvider req => ∀ caps ∈ req.capabilities, caps.chip.isSome →
      ∀ row ∈ s.providers.get? req.providerId, ∀ ram ∈ row.caps.maxJobRamGb,
        ram ≤ caps.maxJobRamGb.toNat
  | _ => True

/-! ### What the columns hold -/

/-- The row asks for what was submitted. -/
structure Job.AsksFor (job : Job) (demand : Demand) : Prop where
  ram : job.spec.minRamGb = some demand.minRamGb
  price : job.spec.maxPricePerHour = some demand.maxPrice

/-- The row offers no more than what was declared. -/
structure Provider.Offers (row : Provider) (offer : Offer) : Prop where
  ram : ∃ ram, row.caps.maxJobRamGb = some ram ∧ ram ≤ offer.maxJobRamGb
  price : row.caps.floorPriceNmcPerHour = some offer.floorPrice

theorem ProvidersWrite.edit_caps (now : Time) (p : ProviderId) {w : ProvidersWrite}
    (hnot : ∀ caps, w ≠ .register p caps) (row : Provider) : (w.edit now p row).caps = row.caps := by
  cases w with
  | register providerId caps =>
      simp only [edit]
      split
      · rename_i heq
        exact absurd (heq ▸ rfl) (hnot caps)
      · rfl
  | _ =>
      simp only [edit]
      split <;> rfl

/-- The providers of the second database have the capabilities they had. -/
def SameCaps (s t : Db) : Prop :=
  ∀ p row', t.providers.get? p = some row' →
    ∃ row, s.providers.get? p = some row ∧ row'.caps = row.caps

namespace SameCaps

theorem refl (s : Db) : SameCaps s s := fun _ row hrow => ⟨row, hrow, rfl⟩

theorem trans {u : Db} (hst : SameCaps s t) (htu : SameCaps t u) : SameCaps s u := by
  intro p row'' hrow''
  obtain ⟨row', hrow', hcaps'⟩ := htu p row'' hrow''
  obtain ⟨row, hrow, hcaps⟩ := hst p row' hrow'
  exact ⟨row, hrow, hcaps'.trans hcaps⟩

theorem of_exec {q : Action} {a : q.Answer}
    (hnot : ∀ p caps, q ≠ .providers (.register p caps)) (hexec : q.exec s = some (a, t)) :
    SameCaps s t := by
  intro p row' hrow'
  cases hrow : s.providers.get? p with
  | none =>
      rcases Action.exec_providers hexec with hsame | ⟨w, rfl, happly⟩
      · rw [hsame, hrow] at hrow'
        cases hrow'
      · rw [happly] at hrow'
        obtain ⟨caps, rfl, -⟩ := w.registered_of_apply hrow hrow'
        exact absurd rfl (hnot p caps)
  | some row =>
      rcases Action.exec_provider hexec hrow with hkept | ⟨w, rfl, hedit⟩
      · cases hkept.symm.trans hrow'
        exact ⟨_, rfl, rfl⟩
      · cases hedit.symm.trans hrow'
        exact ⟨row, rfl, ProvidersWrite.edit_caps _ _ (fun caps heq => hnot p caps (heq ▸ rfl)) row⟩

end SameCaps

/-- The same, and none of them became available. -/
def OnlyLeases (s t : Db) : Prop :=
  ∀ p row', t.providers.get? p = some row' →
    ∃ row, s.providers.get? p = some row ∧ row'.caps = row.caps ∧
      (row'.state = .available → row.state = .available)

namespace OnlyLeases

theorem refl (s : Db) : OnlyLeases s s := fun _ row hrow => ⟨row, hrow, rfl, id⟩

theorem trans {u : Db} (hst : OnlyLeases s t) (htu : OnlyLeases t u) : OnlyLeases s u := by
  intro p row'' hrow''
  obtain ⟨row', hrow', hcaps', hstate'⟩ := htu p row'' hrow''
  obtain ⟨row, hrow, hcaps, hstate⟩ := hst p row' hrow'
  exact ⟨row, hrow, hcaps'.trans hcaps, fun havailable => hstate (hstate' havailable)⟩

theorem of_exec {q : Action} {a : q.Answer}
    (hleases : ∀ w, q = .providers w → ∃ p k, w = .lease p k) (hexec : q.exec s = some (a, t)) :
    OnlyLeases s t := by
  have hsame : SameCaps s t := .of_exec (fun p caps heq => by
    obtain ⟨_, _, hlease⟩ := hleases _ heq
    cases hlease) hexec
  intro p row' hrow'
  obtain ⟨row, hrow, hcaps⟩ := hsame p row' hrow'
  refine ⟨row, hrow, hcaps, fun havailable => ?_⟩
  rcases Action.exec_provider hexec hrow with hkept | ⟨w, hw, hedit⟩
  · cases hkept.symm.trans hrow'
    exact havailable
  · obtain ⟨p', k, rfl⟩ := hleases w hw
    cases hedit.symm.trans hrow'
    simp only [ProvidersWrite.edit] at havailable
    split at havailable
    · cases havailable
    · exact havailable

end OnlyLeases

/-- A job of the second database was there with the same specification, or it is a new one. -/
structure SpecsFrom (New : JobId → JobSpec → Prop) (s t : Db) : Prop where
  row : ∀ k job', t.jobs.get? k = some job' →
    (∃ job, s.jobs.get? k = some job ∧ job'.spec = job.spec) ∨
      s.jobs.get? k = none ∧ New k job'.spec
  stays : ∀ k, (s.jobs.get? k).isSome → (t.jobs.get? k).isSome

namespace SpecsFrom

variable {New : JobId → JobSpec → Prop}

theorem refl (s : Db) : SpecsFrom New s s := ⟨fun _ job hjob => .inl ⟨job, hjob, rfl⟩, fun _ => id⟩

theorem trans {u : Db} (hst : SpecsFrom New s t) (htu : SpecsFrom New t u) : SpecsFrom New s u := by
  refine ⟨fun k job'' hjob'' => ?_, fun k hsome => htu.stays k (hst.stays k hsome)⟩
  rcases htu.row k job'' hjob'' with ⟨job', hjob', hspec'⟩ | ⟨hnone, hnew⟩
  · rw [hspec']
    exact hst.row k job' hjob'
  · refine .inr ⟨?_, hnew⟩
    by_contra hsome
    have hstays := hst.stays k (Option.isSome_iff_ne_none.mpr hsome)
    rw [hnone] at hstays
    cases hstays

theorem of_exec {q : Action} {a : q.Answer}
    (hinserts : ∀ k consumerId spec, q = .jobs (.insert k consumerId spec) → New k spec)
    (hexec : q.exec s = some (a, t)) : SpecsFrom New s t := by
  refine ⟨fun k job' hjob' => ?_, fun k hsome => Action.exec_job_isSome hexec hsome⟩
  cases hjob : s.jobs.get? k with
  | none =>
      rcases Action.exec_jobs hexec with hsame | ⟨w, rfl, happly⟩
      · rw [hsame, hjob] at hjob'
        cases hjob'
      · obtain ⟨consumerId, spec, rfl, rfl⟩ := JobsWrite.submitted_of_apply happly hjob hjob'
        exact .inr ⟨rfl, hinserts k consumerId spec rfl⟩
  | some job =>
      rcases Action.exec_job hexec hjob with hkept | ⟨w, -, hedit⟩
      · cases hkept.symm.trans hjob'
        exact .inl ⟨_, rfl, rfl⟩
      · cases hedit.symm.trans hjob'
        exact .inl ⟨_, rfl, w.edit_spec _ _ _⟩

/-- An operation that inserts new jobs only. -/
theorem of_uses {op : Operation}
    (huses : op.program.Uses fun q => ∀ k consumerId spec,
      q = .jobs (.insert k consumerId spec) → New k spec) : SpecsFrom New s (op.after s) :=
  run_rel Action.exec .refl (fun _ _ _ => .trans)
    (fun _ _ _ _ hinserts hexec => .of_exec hinserts hexec) _ s huses

end SpecsFrom

/-- A job of the second database was there with the same specification, or the operation submits it.
-/
structure KeepsSpecs (op : Operation) (s t : Db) : Prop where
  row : ∀ k job', t.jobs.get? k = some job' →
    (∃ job, s.jobs.get? k = some job ∧ job'.spec = job.spec) ∨
      s.jobs.get? k = none ∧ ∃ demand, op.demand k = some demand ∧ job'.AsksFor demand
  stays : ∀ k, (s.jobs.get? k).isSome → (t.jobs.get? k).isSome

namespace Operation

/-- The job is inserted with the numbers that were submitted. -/
theorem program_inserts {op : Operation} (hstores : StoresNumbers s op) :
    op.program.Uses fun q => ∀ k consumerId spec, q = .jobs (.insert k consumerId spec) →
      ∃ demand, op.demand k = some demand ∧ spec.minRamGb = some demand.minRamGb ∧
        spec.maxPricePerHour = some demand.maxPrice := by
  cases op with
  | grpcSubmitJob jobId req =>
      rw [program, uses_forget, Grpc.submitJob]
      split
      · trivial
      · rename_i reqs hreqs
        refine ⟨fun k consumerId spec heq => ?_, fun _ => trivial, trivial⟩
        cases heq
        refine ⟨⟨reqs.minRamGb.toNat, reqs.maxPricePerH⟩, ?_, ?_, rfl⟩
        · rw [demand, if_pos rfl, hreqs, Option.map_some]
        · exact congrArg some (asI32_of_lt (hstores reqs hreqs))
  | _ =>
      refine Uses.mono (fun q hinserts k consumerId spec heq => ?_)
        (program_inserts_body fun _ _ heq => by cases heq)
      obtain ⟨ids, body, hop, rfl, rfl⟩ := hinserts k consumerId spec heq
      rw [hop]
      exact ⟨⟨body.minRamGb, body.maxPricePerHour⟩, if_pos rfl, rfl, rfl⟩

theorem after_keepsSpecs {op : Operation} (hstores : StoresNumbers s op) :
    KeepsSpecs op s (op.after s) := by
  have hspecs := SpecsFrom.of_uses (s := s) (program_inserts hstores)
  refine ⟨fun k job' hjob' => ?_, hspecs.stays⟩
  rcases hspecs.row k job' hjob' with hkept | ⟨hnone, demand, hdemand, hram, hprice⟩
  · exact .inl hkept
  · exact .inr ⟨hnone, demand, hdemand, hram, hprice⟩

theorem after_sameCaps {op : Operation} (hnot : ∀ req, op ≠ .registerProvider req) (s : Db) :
    SameCaps s (op.after s) := by
  refine run_rel Action.exec SameCaps.refl (fun _ _ _ => .trans)
    (fun _ _ _ _ hspares hexec => .of_exec hspares hexec) _ s
    (Uses.mono (fun q hmay p caps heq => ?_) (program_mayIssue op))
  subst heq
  cases op with
  | registerProvider req => exact hnot req rfl
  | _ => simp [MayIssue, WritesProvider] at hmay

end Operation

/-- A registration is refused, or the row of the provider takes over what the upsert refreshes. -/
theorem registerProvider_cases (req : Grpc.RegisterProviderRequest) (s : Db) :
    (∀ caps ∈ req.capabilities, caps.chip = none) ∧
        (Operation.registerProvider req).after s = s ∨
      ∃ (caps : Grpc.ProviderCapabilities) (chip : Grpc.MacChipInfo) (columns : Capabilities),
        req.capabilities = some caps ∧ caps.chip = some chip ∧
        columns.unifiedMemoryGb = some (asI32 chip.unifiedMemoryGb.toNat) ∧
        columns.installedRuntimes = some caps.installedRuntimes ∧
        columns.maxJobRamGb = some (asI32 caps.maxJobRamGb.toNat) ∧
        columns.floorPriceNmcPerHour = some caps.floorPriceNmcPerHour ∧
        ((Operation.registerProvider req).after s).providers =
          s.providers.upsert req.providerId (.registered columns) (.reregister columns) := by
  rw [Operation.after, Operation.program, run_forget, Grpc.registerProvider]
  cases hcaps : req.capabilities with
  | none => exact .inl ⟨fun caps heq => absurd heq (Option.not_mem_none caps), rfl⟩
  | some caps =>
      dsimp only
      cases hchip : caps.chip with
      | none => exact .inl ⟨fun caps' heq => Option.some.inj heq ▸ hchip, rfl⟩
      | some chip => exact .inr ⟨caps, chip, _, rfl, hchip, rfl, rfl, rfl, rfl, rfl⟩

/-- The columns hold what was submitted and no more than what was declared. -/
structure Stored (log : List (Db × Operation)) (s : Db) : Prop where
  job : ∀ k job, s.jobs.get? k = some job →
    ∃ demand, submittedAs k log = some demand ∧ job.AsksFor demand
  provider : ∀ p row, s.providers.get? p = some row →
    ∃ offer, registeredAs p log = some offer ∧ row.Offers offer

namespace Stored

variable {log : List (Db × Operation)}

theorem init : Stored [] Db.init :=
  ⟨fun k job hjob => (by cases hjob), fun p row hrow => (by cases hrow)⟩

theorem shuffled (hstored : Stored log s) (hshuffled : s.Shuffled t) : Stored log t := by
  refine ⟨fun k job hjob => hstored.job k job ?_, fun p row hrow => hstored.provider p row ?_⟩
  · rw [hshuffled.jobs.get?_eq k, hjob]
  · rw [hshuffled.providers.get?_eq p, hrow]

theorem after_job (hstored : Stored log s) {op : Operation} (hstores : StoresNumbers s op)
    (k : JobId) (job' : Job) (hjob' : (op.after s).jobs.get? k = some job') :
    ∃ demand, submittedAs k (log ++ [(s, op)]) = some demand ∧ job'.AsksFor demand := by
  rw [submittedAs, getLast?_filterMap_concat, Operation.submission, hjob']
  rcases (Operation.after_keepsSpecs hstores).row k job' hjob' with
    ⟨job, hjob, hspec⟩ | ⟨hnone, demand, hdemand, hasks⟩
  · obtain ⟨demand, hdemand, hasks⟩ := hstored.job k job hjob
    refine ⟨demand, ?_, hspec ▸ hasks.ram, hspec ▸ hasks.price⟩
    rw [hjob, if_neg fun h => Bool.noConfusion h.1]
    exact hdemand
  · refine ⟨demand, ?_, hasks⟩
    rw [hnone, if_pos ⟨rfl, rfl⟩, hdemand]
    rfl

theorem after_registration (hstored : Stored log s) {req : Grpc.RegisterProviderRequest}
    (hstores : StoresNumbers s (.registerProvider req)) (p : ProviderId) (row' : Provider)
    (hrow' : ((Operation.registerProvider req).after s).providers.get? p = some row') :
    ∃ offer, registeredAs p (log ++ [(s, .registerProvider req)]) = some offer ∧
      row'.Offers offer := by
  rw [registeredAs, getLast?_filterMap_concat]
  rcases registerProvider_cases req s with ⟨hnone, hsame⟩ | ⟨caps, chip, columns, hcaps, hchip, -,
    -, hram, hprice, hproviders⟩
  · rw [hsame] at hrow'
    rw [Operation.offer_of_refused hnone p]
    exact hstored.provider p row' hrow'
  rw [hproviders] at hrow'
  have hoffer : (Operation.registerProvider req).offer req.providerId =
      some ⟨caps.maxJobRamGb.toNat, caps.floorPriceNmcPerHour⟩ := by
    rw [Operation.offer, if_pos rfl, hcaps, Option.bind_some, hchip, Option.map_some]
  rcases Table.get?_upsert_cases hrow' with ⟨rfl, -, rfl⟩ | ⟨row, rfl, hrow, rfl⟩ | ⟨hne, hold⟩
  · rw [hoffer]
    exact ⟨_, rfl, ⟨_, hram, asI32_le _⟩, hprice⟩
  · -- the upsert leaves `max_job_ram_gb`
    obtain ⟨offer, -, ⟨ram, hstoredRam, -⟩, -⟩ := hstored.provider _ row hrow
    rw [hoffer]
    exact ⟨_, rfl, ⟨ram, hstoredRam, hstores caps hcaps (by rw [hchip]; rfl) row hrow ram hstoredRam⟩,
      hprice⟩
  · rw [Operation.offer, if_neg fun heq => hne heq.symm]
    exact hstored.provider p row' hold

theorem after (hstored : Stored log s) {op : Operation} (hstores : StoresNumbers s op) :
    Stored (log ++ [(s, op)]) (op.after s) := by
  refine ⟨hstored.after_job hstores, fun p row' hrow' => ?_⟩
  by_cases hregisters : ∃ req, op = .registerProvider req
  · obtain ⟨req, rfl⟩ := hregisters
    exact hstored.after_registration hstores p row' hrow'
  · have hnot : ∀ req, op ≠ .registerProvider req := fun req heq => hregisters ⟨req, heq⟩
    have hnone : op.offer p = none := by
      cases op with
      | registerProvider req => exact absurd rfl (hnot req)
      | _ => rfl
    obtain ⟨row, hrow, hcaps⟩ := Operation.after_sameCaps hnot s p row' hrow'
    obtain ⟨offer, hoffer, hram, hprice⟩ := hstored.provider p row hrow
    refine ⟨offer, ?_, hcaps ▸ hram, hcaps ▸ hprice⟩
    rw [registeredAs, getLast?_filterMap_concat, hnone]
    exact hoffer

end Stored

theorem History.stored {log : List (Db × Operation)} (hrun : History StoresNumbers Db.init log t) :
    Stored log t := by
  induction hrun with
  | start => exact .init
  | operation _ hstores ih => exact ih.after hstores
  | idle _ hshuffled ih => exact ih.shuffled hshuffled

/-! ### The auction -/

/-- The columns admit the job. -/
structure Provider.Admits (row : Provider) (job : Job) : Prop where
  state : row.state = .available
  ram : ∃ ram ∈ row.caps.maxJobRamGb, job.spec.minRamGb.getD 0 ≤ ram
  floor : ∃ floor ∈ row.caps.floorPriceNmcPerHour, floor ≤ job.spec.maxPricePerHour.getD f64Max

/-- A job is assigned at its price limit, to a provider whose columns admit it. -/
theorem assignQueued_assigns {queued : List (JobId × Job)} {price : ℚ} {restore : Bool}
    (hassigned : .jobs (.assign jobId providerId price restore) ∈
      (assignQueued queued).committed Action.exec s) :
    ∃ job row, (jobId, job) ∈ queued ∧ s.providers.get? providerId = some row ∧
      price = job.spec.maxPricePerHour.getD (1 / 10) ∧ row.Admits job := by
  induction queued generalizing s with
  | nil => cases hassigned
  | cons entry queued ih =>
      obtain ⟨k, job⟩ := entry
      have hlater : ∀ t, OnlyLeases s t → .jobs (.assign jobId providerId price restore) ∈
          (assignQueued queued).committed Action.exec t →
          ∃ job' row, (jobId, job') ∈ (k, job) :: queued ∧
            s.providers.get? providerId = some row ∧
            price = job'.spec.maxPricePerHour.getD (1 / 10) ∧ row.Admits job' := by
        intro t hleases hmem
        obtain ⟨job', row', hjob', hrow', hprice, havailable, hram, hfloor⟩ := ih hmem
        obtain ⟨row, hrow, hcaps, hstate⟩ := hleases providerId row' hrow'
        exact ⟨job', row, List.mem_cons_of_mem _ hjob', hrow, hprice, hstate havailable,
          hcaps ▸ hram, hcaps ▸ hfloor⟩
      rw [assignQueued, findBestProvider, askElse, committed] at hassigned
      dsimp only [Action.exec] at hassigned
      rcases List.mem_cons.mp hassigned with heq | hassigned
      · cases heq
      cases hbest : bestCandidate (job.spec.maxPricePerHour.getD f64Max) (Read.eval s (.candidates
          (job.spec.minRamGb.getD 0) (job.spec.maxPricePerHour.getD f64Max))) with
      | none =>
          rw [hbest] at hassigned
          exact hlater s (.refl s) hassigned
      | some best =>
          rw [hbest, Option.map_some] at hassigned
          dsimp only [assignJob] at hassigned
          rw [committed] at hassigned
          split at hassigned
          · rename_i u hexec
            rcases List.mem_cons.mp hassigned with heq | hassigned
            · cases heq
              obtain ⟨hrow, havailable, hram, hfloor⟩ :=
                Read.candidates_found (bestCandidate_mem hbest)
              exact ⟨job, best.2, List.mem_cons_self, hrow, rfl, havailable, hram, hfloor⟩
            · have hlease : Action.exec (.providers (.lease best.1 k)) u =
                  some (_, { u with providers := _ }) := rfl
              rw [committed, hlease] at hassigned
              rcases List.mem_cons.mp hassigned with heq | hassigned
              · cases heq
              refine hlater _ (.trans (.of_exec (fun w heq => ?_) hexec)
                (.of_exec (fun w heq => ?_) hlease)) hassigned
              · cases heq
              · cases heq
                exact ⟨best.1, k, rfl⟩
          · cases hassigned

/-- An auction assigns a queued job, to a provider whose columns admit it. -/
theorem runAuctionCycle_assigns {price : ℚ} {restore : Bool}
    (hassigned : .jobs (.assign jobId providerId price restore) ∈
      Operation.runAuctionCycle.program.committed Action.exec t) :
    ∃ job row, t.jobs.get? jobId = some job ∧ t.providers.get? providerId = some row ∧
      price = job.spec.maxPricePerHour.getD (1 / 10) ∧ row.Admits job := by
  rw [Operation.program, committed_forget, runAuctionCycle, askOr, committed] at hassigned
  dsimp only [Action.exec] at hassigned
  rcases List.mem_cons.mp hassigned with heq | hassigned
  · cases heq
  obtain ⟨job, row, hqueued, hrow, hprice, hadmits⟩ := assignQueued_assigns hassigned
  exact ⟨job, row, (Read.queuedJobs_found hqueued).1, hrow, hprice, hadmits⟩

/-- The job goes to the provider within what was submitted and what was declared last. -/
structure Respects (log : List (Db × Operation)) (jobId : JobId) (providerId : ProviderId)
    (price : ℚ) (demand : Demand) (offer : Offer) : Prop where
  submitted : submittedAs jobId log = some demand
  registered : registeredAs providerId log = some offer
  ram : demand.minRamGb ≤ offer.maxJobRamGb
  floor : offer.floorPrice ≤ price
  limit : price ≤ demand.maxPrice

/-- While every submission and every registration stores its numbers, every assignment respects
them. -/
theorem assignment_respects {log : List (Db × Operation)}
    (hrun : History StoresNumbers Db.init log t) {op : Operation} {price : ℚ} {restore : Bool}
    (hassigned : .jobs (.assign jobId providerId price restore) ∈
      op.program.committed Action.exec t) :
    ∃ demand offer, Respects log jobId providerId price demand offer := by
  have hop : op = .runAuctionCycle :=
    Operation.assigns_of_issues (op.program_issues.committed Action.exec t _ hassigned) rfl
  subst hop
  obtain ⟨job, row, hjob, hrow, rfl, -, ⟨ram, hram, hleRam⟩, floor, hfloor, hleFloor⟩ :=
    runAuctionCycle_assigns hassigned
  obtain ⟨demand, hdemand, hasks⟩ := hrun.stored.job jobId job hjob
  obtain ⟨offer, hoffer, ⟨stored, hstored, hle⟩, hprice⟩ := hrun.stored.provider providerId row hrow
  cases hstored.symm.trans hram
  cases hprice.symm.trans hfloor
  rw [hasks.ram, Option.getD_some] at hleRam
  rw [hasks.price, Option.getD_some] at hleFloor
  exact ⟨demand, offer, hdemand, hoffer, hleRam.trans hle,
    by rw [hasks.price]; exact hleFloor, by rw [hasks.price]; exact le_refl _⟩

/-! ### Three runs -/

def Action.assignment : Action → Option (JobId × ProviderId × ℚ × Bool)
  | .jobs (.assign jobId providerId pricePerHour restore) =>
      some (jobId, providerId, pricePerHour, restore)
  | _ => none

theorem mem_of_assignment {ran : List Action} {price : ℚ} {restore : Bool}
    (hmem : (jobId, providerId, price, restore) ∈ ran.filterMap Action.assignment) :
    .jobs (.assign jobId providerId price restore) ∈ ran := by
  obtain ⟨q, hq, hassignment⟩ := List.mem_filterMap.mp hmem
  cases q with
  | jobs w =>
      cases w with
      | assign jobId' providerId' price' restore' =>
          cases hassignment
          exact hq
      | _ => cases hassignment
  | _ => cases hassignment

/-- The registration of a provider that offers this much memory. -/
def registrationWith (maxJobRamGb : UInt32) : Operation :=
  .registerProvider
    { providerId := "p"
      nmVersion := "0.1.0"
      capabilities := some
        { chip := some ⟨"M2", 16, 10, "Metal 3", "C02"⟩
          installedRuntimes := ["shell"]
          maxJobRamGb
          bandwidthMbps := 100
          region := "my"
          floorPriceNmcPerHour := 1 } }

/-- A job submitted over gRPC that needs this much memory. -/
def submissionWith (minRamGb : UInt32) : Operation :=
  .grpcSubmitJob "a" ⟨"alice", some ⟨4, minRamGb, 3600, 5⟩, "", "", "", ""⟩

/-- A second registration offers more than the first one. -/
def upgraded : List Operation :=
  [registrationWith 4, registrationWith 8, submissionWith 4, agentHeartbeat "p" "available"]

theorem assignment_respects_upgraded :
    ∃ demand offer, Respects (logOf upgraded Db.init) "a" "p" 5 demand offer := by
  have hrun : History StoresNumbers Db.init (logOf upgraded Db.init) (afterAll upgraded Db.init) := by
    refine .afterAll ⟨?_, ?_, ?_, trivial, trivial⟩
    · intro caps hcaps _ row hrow
      cases hrow
    · intro caps hcaps _ row hrow ram hram
      cases hcaps
      have hstored : (((registrationWith 4).after Db.init).providers.get? "p").bind
          (fun row => row.caps.maxJobRamGb) = some 4 := by decide +kernel
      rw [hrow, Option.bind_some, hram] at hstored
      cases hstored
      decide
    · intro reqs hreqs
      cases hreqs
      decide
  have hassigned : .jobs (.assign "a" "p" 5 false) ∈
      Operation.runAuctionCycle.program.committed Action.exec (afterAll upgraded Db.init) :=
    mem_of_assignment (by decide +kernel)
  exact assignment_respects hrun hassigned

/-- The second registration of a provider offers less than the first one, and a submission asks for
more than an `i32` holds. -/
def downgraded : List Operation :=
  [registrationWith 8, registrationWith 4, submissionWith 8, agentHeartbeat "p" "available"]

def oversized : List Operation :=
  [registrationWith 8, submissionWith (2 ^ 31), agentHeartbeat "p" "available"]

/-- After the run an auction assigns the job to a provider that declared less memory. -/
def AssignsBeyond (ops : List Operation) : Prop :=
  ∃ log t demand offer, History (fun _ _ => True) Db.init log t ∧ t = afterAll ops Db.init ∧
    .jobs (.assign "a" "p" 5 false) ∈ Operation.runAuctionCycle.program.committed Action.exec t ∧
    submittedAs "a" log = some demand ∧ registeredAs "p" log = some offer ∧
    offer.maxJobRamGb < demand.minRamGb

theorem assignment_exceeds : AssignsBeyond downgraded ∧ AssignsBeyond oversized := by
  refine ⟨?_, ?_⟩
  · exact ⟨_, _, ⟨8, 5⟩, ⟨4, 1⟩, .afterAll (meetsAll_true _ _), rfl,
      mem_of_assignment (by decide +kernel), by decide +kernel, by decide +kernel, by decide⟩
  · exact ⟨_, _, ⟨2 ^ 31, 5⟩, ⟨8, 1⟩, .afterAll (meetsAll_true _ _), rfl,
      mem_of_assignment (by decide +kernel), by decide +kernel, by decide +kernel, by decide⟩

end NeuralMesh
