import NeuralMesh.Proof.SubmittedConstraints
import NeuralMesh.Sdk.Provider

/-!
# Providers that can run their jobs

`can_serve` and `can_run` ask for 4 GB of unified memory beside what the job needs, and for its
runtime among the installed ones. The auction asks for neither: it compares `max_job_ram_gb`, which
a registration states on its own and a second one leaves as it was.
-/

namespace NeuralMesh

open Coordinator Program

variable {s t : Db} {jobId : JobId} {providerId : ProviderId}

/-! ### What was submitted and registered -/

/-- What a registration tells of the machine. -/
structure Machine where
  chip : Grpc.MacChipInfo
  installedRuntimes : List String

namespace Operation

/-- What the operation tells of the provider's machine. -/
def machine (providerId : ProviderId) : Operation → Option Machine
  | registerProvider req =>
      if req.providerId = providerId then
        req.capabilities.bind fun caps => caps.chip.map fun chip => ⟨chip, caps.installedRuntimes⟩
      else none
  | _ => none

/-- The request with which the operation submits the job over REST. -/
def restBody (jobId : JobId) (s : Db) : Operation → Option SubmitJobBody
  | submitJob ids body =>
      if ids.jobId = jobId ∧ (s.jobs.get? jobId).isNone ∧
          (((submitJob ids body).after s).jobs.get? jobId).isSome then
        some body
      else none
  | _ => none

end Operation

/-- The request that submitted the job over REST. -/
def submittedOverRest (jobId : JobId) (log : List (Db × Operation)) : Option SubmitJobBody :=
  (log.filterMap fun entry => entry.2.restBody jobId entry.1).getLast?

/-- The machine of the provider's latest registration. -/
def registeredMachine (providerId : ProviderId) (log : List (Db × Operation)) : Option Machine :=
  (log.filterMap fun entry => entry.2.machine providerId).getLast?

/-! ### The condition -/

/-- A provider with these columns lists the runtime of the job if they admit it. -/
def Job.ListedBy (job : Job) (maxJobRamGb : Int) (floorPrice : ℚ) (runtimes : List String) : Prop :=
  job.spec.minRamGb.getD 0 ≤ maxJobRamGb → floorPrice ≤ job.spec.maxPricePerHour.getD f64Max →
    runtimeStr job ∈ runtimes

/-- The row is one that a submission over REST inserts. -/
def Job.OverRest (job : Job) : Prop := ∃ body : SubmitJobBody, job.spec = body.spec

def Provider.Lists (row : Provider) (job : Job) : Prop :=
  ∀ ram ∈ row.caps.maxJobRamGb, ∀ floor ∈ row.caps.floorPriceNmcPerHour,
    job.ListedBy ram floor (row.caps.installedRuntimes.getD [])

/-- `max_job_ram_gb` after a registration. -/
def Db.jobRamAfter (s : Db) (providerId : ProviderId) (caps : Grpc.ProviderCapabilities) :
    Option Int :=
  match s.providers.get? providerId with
  | some row => row.caps.maxJobRamGb
  | none => some (asI32 caps.maxJobRamGb.toNat)

/-- A registration leaves 4 GB of the stored memory beside `max_job_ram_gb`, and whenever a provider
and a job over REST come together, the columns admit the job only if its runtime is listed. -/
def Suits (s : Db) : Operation → Prop
  | .submitJob _ body => ∀ p row, s.providers.get? p = some row →
      row.Lists (.submitted s.now body.accountId body.spec)
  | .registerProvider req => ∀ caps ∈ req.capabilities, ∀ chip ∈ caps.chip,
      ∀ ram ∈ s.jobRamAfter req.providerId caps,
        ram + 4 ≤ asI32 chip.unifiedMemoryGb.toNat ∧
          ∀ k job, s.jobs.get? k = some job → job.OverRest →
            job.ListedBy ram caps.floorPriceNmcPerHour caps.installedRuntimes
  | _ => True

/-! ### New jobs -/

theorem Job.ListedBy.of_spec {job job' : Job} (hspec : job'.spec = job.spec) {ram : Int} {floor : ℚ}
    {runtimes : List String} (hlisted : job.ListedBy ram floor runtimes) :
    job'.ListedBy ram floor runtimes := by
  rw [ListedBy, runtimeStr, hspec]
  exact hlisted

theorem Job.OverRest.of_spec {job job' : Job} (hspec : job'.spec = job.spec)
    (hrest : job'.OverRest) : job.OverRest := by
  obtain ⟨body, hbody⟩ := hrest
  exact ⟨body, hspec ▸ hbody⟩

theorem Provider.Lists.of_same {row row' : Provider} {job job' : Job} (hcaps : row'.caps = row.caps)
    (hspec : job'.spec = job.spec) (hlists : row.Lists job) : row'.Lists job' := by
  intro ram hram floor hfloor
  rw [hcaps] at hram hfloor ⊢
  exact (hlists ram hram floor hfloor).of_spec hspec

namespace Operation

/-- The operation submits the job with this specification; a submission over gRPC stores keys. -/
def Submits : Operation → JobId → JobSpec → Prop
  | submitJob ids body, jobId, spec => jobId = ids.jobId ∧ spec = body.spec
  | grpcSubmitJob _ _, _, spec => spec.consumerSshPubkey.isSome
  | _, _, _ => False

theorem program_submits (op : Operation) :
    op.program.Uses fun q => ∀ k consumerId spec, q = .jobs (.insert k consumerId spec) →
      op.Submits k spec := by
  cases op with
  | grpcSubmitJob jobId req =>
      rw [program, uses_forget, Grpc.submitJob]
      split
      · trivial
      · refine ⟨fun k consumerId spec heq => ?_, fun _ => trivial, trivial⟩
        cases heq
        rfl
  | _ =>
      refine Uses.mono (fun q hinserts k consumerId spec heq => ?_)
        (program_inserts_body fun _ _ heq => by cases heq)
      obtain ⟨ids, body, hop, rfl, rfl⟩ := hinserts k consumerId spec heq
      rw [hop]
      exact ⟨rfl, rfl⟩

theorem after_specsFrom (op : Operation) (s : Db) : SpecsFrom op.Submits s (op.after s) :=
  .of_uses op.program_submits

/-- A new job over REST is the one the operation submits. -/
theorem Submits.rest {op : Operation} {k : JobId} {job : Job} (hsubmits : op.Submits k job.spec)
    (hrest : job.OverRest) :
    ∃ ids body, op = .submitJob ids body ∧ k = ids.jobId ∧ job.spec = body.spec := by
  cases op with
  | submitJob ids body => exact ⟨ids, body, rfl, hsubmits⟩
  | grpcSubmitJob jobId req =>
      obtain ⟨body, hbody⟩ := hrest
      rw [Submits, hbody] at hsubmits
      cases hsubmits
  | _ => cases hsubmits

theorem machine_of_refused {req : Grpc.RegisterProviderRequest}
    (hnone : ∀ caps ∈ req.capabilities, caps.chip = none) (p : ProviderId) :
    (registerProvider req).machine p = none := by
  rw [machine]
  split
  · cases hcaps : req.capabilities with
    | none => rfl
    | some caps => rw [Option.bind_some, hnone caps hcaps, Option.map_none]
  · rfl

theorem machine_of_ne {op : Operation} (hnot : ∀ req, op ≠ .registerProvider req)
    (p : ProviderId) : op.machine p = none := by
  cases op with
  | registerProvider req => exact absurd rfl (hnot req)
  | _ => rfl

/-- The row of a provider after a registration. -/
theorem registerProvider_row {req : Grpc.RegisterProviderRequest} {p : ProviderId} {row' : Provider}
    (hrow' : ((registerProvider req).after s).providers.get? p = some row') :
    (registerProvider req).machine p = none ∧ s.providers.get? p = some row' ∨
      ∃ caps chip, req.capabilities = some caps ∧ caps.chip = some chip ∧
        (registerProvider req).machine p = some ⟨chip, caps.installedRuntimes⟩ ∧
        row'.caps.maxJobRamGb = s.jobRamAfter req.providerId caps ∧
        row'.caps.unifiedMemoryGb = some (asI32 chip.unifiedMemoryGb.toNat) ∧
        row'.caps.installedRuntimes = some caps.installedRuntimes ∧
        row'.caps.floorPriceNmcPerHour = some caps.floorPriceNmcPerHour := by
  rcases registerProvider_cases req s with ⟨hnone, hsame⟩ | ⟨caps, chip, columns, hcaps, hchip,
    hunified, hruntimes, hram, hfloor, hproviders⟩
  · rw [hsame] at hrow'
    exact .inl ⟨machine_of_refused hnone p, hrow'⟩
  rw [hproviders] at hrow'
  have hmachine : (registerProvider req).machine req.providerId =
      some ⟨chip, caps.installedRuntimes⟩ := by
    rw [machine, if_pos rfl, hcaps, Option.bind_some, hchip, Option.map_some]
  rcases Table.get?_upsert_cases hrow' with ⟨rfl, hrow, rfl⟩ | ⟨row, rfl, hrow, rfl⟩ | ⟨hne, hold⟩
  · refine .inr ⟨caps, chip, hcaps, hchip, hmachine, ?_, hunified, hruntimes, hfloor⟩
    rw [Db.jobRamAfter, hrow]
    exact hram
  · refine .inr ⟨caps, chip, hcaps, hchip, hmachine, ?_, hunified, hruntimes, hfloor⟩
    rw [Db.jobRamAfter, hrow]
    rfl
  · exact .inl ⟨if_neg fun heq => hne heq.symm, hold⟩

end Operation

/-! ### What the columns hold -/

/-- The row holds what the registration told, and `max_job_ram_gb` leaves 4 GB. -/
structure Provider.Keeps (row : Provider) (machine : Machine) : Prop where
  unified : row.caps.unifiedMemoryGb = some (asI32 machine.chip.unifiedMemoryGb.toNat)
  runtimes : row.caps.installedRuntimes = some machine.installedRuntimes
  reserve : ∃ ram, row.caps.maxJobRamGb = some ram ∧
    ram + 4 ≤ asI32 machine.chip.unifiedMemoryGb.toNat

theorem Provider.Keeps.of_caps {row row' : Provider} {machine : Machine}
    (hcaps : row'.caps = row.caps) (hkeeps : row.Keeps machine) : row'.Keeps machine :=
  ⟨hcaps ▸ hkeeps.unified, hcaps ▸ hkeeps.runtimes, hcaps ▸ hkeeps.reserve⟩

structure Suited (log : List (Db × Operation)) (s : Db) : Prop where
  job : ∀ k body, submittedOverRest k log = some body →
    ∃ job, s.jobs.get? k = some job ∧ job.spec = body.spec
  provider : ∀ p row, s.providers.get? p = some row →
    ∃ machine, registeredMachine p log = some machine ∧ row.Keeps machine
  lists : ∀ k job p row, s.jobs.get? k = some job → job.OverRest →
    s.providers.get? p = some row → row.Lists job

namespace Suited

variable {log : List (Db × Operation)}

theorem init : Suited [] Db.init :=
  ⟨fun k body hbody => (by cases hbody), fun p row hrow => (by cases hrow),
    fun k job p row hjob => (by cases hjob)⟩

theorem shuffled (hsuited : Suited log s) (hshuffled : s.Shuffled t) : Suited log t where
  job k body hbody := by
    rw [← hshuffled.jobs.get?_eq k]
    exact hsuited.job k body hbody
  provider p row hrow := by
    rw [← hshuffled.providers.get?_eq p] at hrow
    exact hsuited.provider p row hrow
  lists k job p row hjob hrest hrow := by
    rw [← hshuffled.jobs.get?_eq k] at hjob
    rw [← hshuffled.providers.get?_eq p] at hrow
    exact hsuited.lists k job p row hjob hrest hrow

theorem after_job (hsuited : Suited log s) (op : Operation) (k : JobId) (body : SubmitJobBody)
    (hbody : submittedOverRest k (log ++ [(s, op)]) = some body) :
    ∃ job, (op.after s).jobs.get? k = some job ∧ job.spec = body.spec := by
  have hspecs := op.after_specsFrom s
  rw [submittedOverRest, getLast?_filterMap_concat, Option.or_eq_some_iff] at hbody
  rcases hbody with hnew | ⟨-, hold⟩
  · cases op with
    | submitJob ids body' =>
        rw [Operation.restBody, Option.ite_none_right_eq_some] at hnew
        obtain ⟨⟨rfl, hnone, hsome⟩, heq⟩ := hnew
        cases heq
        obtain ⟨job, hjob⟩ := Option.isSome_iff_exists.mp hsome
        rcases hspecs.row _ job hjob with ⟨job₀, hjob₀, -⟩ | ⟨-, hsubmits⟩
        · rw [hjob₀] at hnone
          cases hnone
        · exact ⟨job, hjob, hsubmits.2⟩
    | _ => cases hnew
  · obtain ⟨job, hjob, hspec⟩ := hsuited.job k body hold
    obtain ⟨job', hjob'⟩ := Option.isSome_iff_exists.mp (hspecs.stays k (by rw [hjob]; rfl))
    rcases hspecs.row k job' hjob' with ⟨job₀, hjob₀, hkept⟩ | ⟨hnone, -⟩
    · cases hjob₀.symm.trans hjob
      exact ⟨job', hjob', hkept.trans hspec⟩
    · rw [hnone] at hjob
      cases hjob

theorem after_registration (hsuited : Suited log s) {req : Grpc.RegisterProviderRequest}
    (hsuits : Suits s (.registerProvider req)) {p : ProviderId} {row' : Provider}
    (hrow' : ((Operation.registerProvider req).after s).providers.get? p = some row') :
    (∃ machine, registeredMachine p (log ++ [(s, .registerProvider req)]) = some machine ∧
        row'.Keeps machine) ∧
      ∀ k job, s.jobs.get? k = some job → job.OverRest → row'.Lists job := by
  rw [registeredMachine, getLast?_filterMap_concat]
  rcases Operation.registerProvider_row hrow' with ⟨hnone, hrow⟩ | ⟨caps, chip, hcaps, hchip,
    hmachine, hram, hunified, hruntimes, hfloor⟩
  · rw [hnone]
    exact ⟨hsuited.provider p row' hrow, fun k job hjob hrest =>
      hsuited.lists k job p row' hjob hrest hrow⟩
  have hmeets := hsuits caps hcaps chip hchip
  obtain ⟨ram, hstored⟩ : ∃ ram, s.jobRamAfter req.providerId caps = some ram := by
    rw [Db.jobRamAfter]
    cases hrow : s.providers.get? req.providerId with
    | none => exact ⟨_, rfl⟩
    | some row =>
        obtain ⟨machine, -, -, -, ram, hram, -⟩ := hsuited.provider _ row hrow
        exact ⟨ram, hram⟩
  rw [hmachine]
  refine ⟨⟨_, rfl, hunified, hruntimes, ram, hram.trans hstored, (hmeets ram hstored).1⟩, ?_⟩
  intro k job hjob hrest ram' hram' floor hfloor'
  rw [hram] at hram'
  rw [hfloor, Option.mem_some_iff] at hfloor'
  subst hfloor'
  rw [hruntimes, Option.getD_some]
  exact (hmeets ram' hram').2 k job hjob hrest

theorem after (hsuited : Suited log s) {op : Operation} (hsuits : Suits s op) :
    Suited (log ++ [(s, op)]) (op.after s) := by
  have hspecs := op.after_specsFrom s
  by_cases hregisters : ∃ req, op = .registerProvider req
  · obtain ⟨req, rfl⟩ := hregisters
    refine ⟨hsuited.after_job _, fun p row' hrow' => (hsuited.after_registration hsuits hrow').1,
      fun k job' p row' hjob' hrest hrow' => ?_⟩
    rcases hspecs.row k job' hjob' with ⟨job, hjob, hspec⟩ | ⟨-, hsubmits⟩
    · exact ((hsuited.after_registration hsuits hrow').2 k job hjob (hrest.of_spec hspec)).of_same
        rfl hspec
    · cases hsubmits
  · have hnot : ∀ req, op ≠ .registerProvider req := fun req heq => hregisters ⟨req, heq⟩
    have hsame := Operation.after_sameCaps hnot s
    refine ⟨hsuited.after_job op, fun p row' hrow' => ?_, fun k job' p row' hjob' hrest hrow' => ?_⟩
    · obtain ⟨row, hrow, hcaps⟩ := hsame p row' hrow'
      obtain ⟨machine, hmachine, hkeeps⟩ := hsuited.provider p row hrow
      refine ⟨machine, ?_, hkeeps.of_caps hcaps⟩
      rw [registeredMachine, getLast?_filterMap_concat, Operation.machine_of_ne hnot]
      exact hmachine
    · obtain ⟨row, hrow, hcaps⟩ := hsame p row' hrow'
      rcases hspecs.row k job' hjob' with ⟨job, hjob, hspec⟩ | ⟨-, hsubmits⟩
      · exact (hsuited.lists k job p row hjob (hrest.of_spec hspec) hrow).of_same hcaps hspec
      · obtain ⟨ids, body, rfl, -, hspec⟩ := hsubmits.rest hrest
        exact (hsuits p row hrow).of_same hcaps hspec

end Suited

theorem History.suited {log : List (Db × Operation)} (hrun : History Suits Db.init log t) :
    Suited log t := by
  induction hrun with
  | start => exact .init
  | operation _ hsuits ih => exact ih.after hsuits
  | idle _ hshuffled ih => exact ih.shuffled hshuffled

/-! ### The assignment -/

/-- 4 GB more than the job needs and its runtime are there. -/
structure Machine.Runs (machine : Machine) (row : Provider) (body : SubmitJobBody) (job : Job) :
    Prop where
  serves : ∀ ramGb : UInt32, (ramGb.toNat : Int) = body.minRamGb → machine.chip.canServe ramGb
  runs : (Sdk.Provider.ofRow row).canRun body.minRamGb (some (runtimeStr job))
  runtime : runtimeStr job ∈ machine.installedRuntimes

/-- While every registration and every submission over REST meets the condition, a job over REST is
assigned to a provider that can run it. -/
theorem assignment_runs {log : List (Db × Operation)} (hrun : History Suits Db.init log t)
    {body : SubmitJobBody} (hbody : submittedOverRest jobId log = some body) {op : Operation}
    {price : ℚ} {restore : Bool}
    (hassigned : .jobs (.assign jobId providerId price restore) ∈
      op.program.committed Action.exec t) :
    ∃ machine row job, registeredMachine providerId log = some machine ∧
      t.providers.get? providerId = some row ∧ t.jobs.get? jobId = some job ∧
      machine.Runs row body job := by
  have hop : op = .runAuctionCycle :=
    Operation.assigns_of_issues (op.program_issues.committed Action.exec t _ hassigned) rfl
  subst hop
  obtain ⟨job, row, hjob, hrow, -, havailable, ⟨ram, hram, hle⟩, floor, hfloor, hprice⟩ :=
    runAuctionCycle_assigns hassigned
  obtain ⟨job', hjob', hspec⟩ := hrun.suited.job jobId body hbody
  cases hjob'.symm.trans hjob
  obtain ⟨machine, hmachine, hkeeps⟩ := hrun.suited.provider providerId row hrow
  have hlists := hrun.suited.lists jobId job providerId row hjob ⟨body, hspec⟩ hrow ram hram floor
    hfloor hle hprice
  obtain ⟨stored, hstored, hreserve⟩ := hkeeps.reserve
  cases hstored.symm.trans hram
  rw [hspec] at hle
  have hfits : body.minRamGb + 4 ≤ asI32 machine.chip.unifiedMemoryGb.toNat :=
    (Int.add_le_add_right hle 4).trans hreserve
  refine ⟨machine, row, job, hmachine, hrow, hjob,
    fun ramGb heq => Grpc.MacChipInfo.canServe_of_le (heq ▸ hfits), Sdk.Provider.canRun_iff.mpr ⟨?_, ?_, hlists⟩, ?_⟩
  · rw [Sdk.Provider.available, Sdk.Provider.ofRow, havailable]
    rfl
  · rw [Sdk.Provider.ofRow, hkeeps.unified]
    exact hfits
  · rw [hkeeps.runtimes] at hlists
    exact hlists

/-! ### Two runs -/

/-- A job over REST and a provider with this much memory that declares 8 GB of it for jobs. -/
def meeting (body : SubmitJobBody) (unifiedMemoryGb : UInt32) : List Operation :=
  [topUp "alice" 10, .submitJob ⟨"a", "escrow-a", "lock-a"⟩ body,
    .registerProvider
      { providerId := "p"
        nmVersion := "0.1.0"
        capabilities := some
          { chip := some ⟨"M2", unifiedMemoryGb, 10, "Metal 3", "C02"⟩
            installedRuntimes := ["shell"]
            maxJobRamGb := 8
            bandwidthMbps := 100
            region := "my"
            floorPriceNmcPerHour := 1 } },
    agentHeartbeat "p" "available"]

/-- An hour with 8 GB. -/
def eightGbHour (runtime : String) : SubmitJobBody where
  accountId := "alice"
  runtime
  minRamGb := 8
  maxDurationSecs := 3600
  maxPricePerHour := 5
  bundleHash := none
  bundleUrl := none
  scriptName := none
  preferredRegion := none

theorem submittedOverRest_meeting {body : SubmitJobBody} {unifiedMemoryGb : UInt32}
    (hsubmitted : (((Operation.submitJob ⟨"a", "escrow-a", "lock-a"⟩ body).after
      ((topUp "alice" 10).after Db.init)).jobs.get? "a").isSome) :
    submittedOverRest "a" (logOf (meeting body unifiedMemoryGb) Db.init) = some body := by
  have hnone : (((topUp "alice" 10).after Db.init).jobs.get? "a").isNone := by decide +kernel
  have hbody : (Operation.submitJob ⟨"a", "escrow-a", "lock-a"⟩ body).restBody "a"
      ((topUp "alice" 10).after Db.init) = some body := if_pos ⟨rfl, hnone, hsubmitted⟩
  simp only [submittedOverRest, meeting, logOf, List.filterMap_cons, hbody]
  rfl

theorem assignment_runs_shell :
    ∃ machine row job,
      registeredMachine "p" (logOf (meeting (eightGbHour "shell") 16) Db.init) = some machine ∧
      (afterAll (meeting (eightGbHour "shell") 16) Db.init).providers.get? "p" = some row ∧
      (afterAll (meeting (eightGbHour "shell") 16) Db.init).jobs.get? "a" = some job ∧
      machine.Runs row (eightGbHour "shell") job := by
  have hrun : History Suits Db.init (logOf (meeting (eightGbHour "shell") 16) Db.init)
      (afterAll (meeting (eightGbHour "shell") 16) Db.init) := by
    refine .afterAll ⟨trivial, fun p row hrow => ?_, fun caps hcaps chip hchip ram hram => ?_,
      trivial, trivial⟩
    · have hempty : ((topUp "alice" 10).after Db.init).providers.rows.isEmpty := by decide +kernel
      have hmem := Table.mem_rows_iff.mpr hrow
      rw [List.isEmpty_iff.mp hempty] at hmem
      cases hmem
    · cases hcaps
      cases hchip
      have hnone : (afterAll ((meeting (eightGbHour "shell") 16).take 2) Db.init).providers.get? "p" =
          none := Option.isNone_iff_eq_none.mp (by decide +kernel)
      have hshell : ∀ entry ∈ (afterAll ((meeting (eightGbHour "shell") 16).take 2) Db.init).jobs.rows,
          runtimeStr entry.2 = "shell" := by decide +kernel
      have hram8 : ram = asI32 8 := by
        have hstored : (afterAll ((meeting (eightGbHour "shell") 16).take 2) Db.init).jobRamAfter "p" _ =
            some ram := hram
        rw [Db.jobRamAfter, hnone] at hstored
        exact (Option.some.inj hstored).symm
      subst hram8
      refine ⟨by decide, fun k job hjob _ _ _ => ?_⟩
      rw [hshell (k, job) (Table.mem_rows_iff.mpr hjob)]
      exact List.mem_singleton_self _
  have hassigned : .jobs (.assign "a" "p" 5 false) ∈ Operation.runAuctionCycle.program.committed
      Action.exec (afterAll (meeting (eightGbHour "shell") 16) Db.init) :=
    mem_of_assignment (by decide +kernel)
  exact assignment_runs hrun (submittedOverRest_meeting (by decide +kernel)) hassigned

/-- An MLX job that needs all of the memory of a machine without MLX is assigned to it. -/
theorem assignment_exceeds_machine :
    ∃ log t machine row job, History (fun _ _ => True) Db.init log t ∧
      submittedOverRest "a" log = some (eightGbHour "mlx") ∧
      .jobs (.assign "a" "p" 5 false) ∈
        Operation.runAuctionCycle.program.committed Action.exec t ∧
      registeredMachine "p" log = some machine ∧ t.providers.get? "p" = some row ∧
      t.jobs.get? "a" = some job ∧ machine.chip.canServe 8 = false ∧
      runtimeStr job ∉ machine.installedRuntimes ∧
      (Sdk.Provider.ofRow row).canRun 8 (some (runtimeStr job)) = false := by
  have hrow : ((afterAll (meeting (eightGbHour "mlx") 8) Db.init).providers.get? "p").map
      Sdk.Provider.ofRow = some ⟨some 8, some ["shell"], some "available"⟩ := by decide +kernel
  have hjob : ((afterAll (meeting (eightGbHour "mlx") 8) Db.init).jobs.get? "a").map runtimeStr =
      some "mlx" := by decide +kernel
  obtain ⟨row, hrow, hlisted⟩ := Option.map_eq_some_iff.mp hrow
  obtain ⟨job, hjob, hruntime⟩ := Option.map_eq_some_iff.mp hjob
  refine ⟨_, _, ⟨⟨"M2", 8, 10, "Metal 3", "C02"⟩, ["shell"]⟩, row, job,
    .afterAll (meetsAll_true _ (meeting (eightGbHour "mlx") 8)),
    submittedOverRest_meeting (by decide +kernel), mem_of_assignment (by decide +kernel), ?_, hrow,
    hjob, by decide, ?_, ?_⟩
  · rfl
  · rw [hruntime]
    decide
  · rw [hlisted, hruntime]
    decide

end NeuralMesh
