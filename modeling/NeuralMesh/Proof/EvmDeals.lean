import NeuralMesh.Base.Deals
import NeuralMesh.Proof.EvmEscrow

/-!
# The escrow contract carries out deals

`Job.deal` reads a job as a deal and `acts` a call as what it does to one. Every run of the contract
is then a run of the protocol, and sends what the protocol pays.
-/

namespace NeuralMesh.Evm

def EscrowState.phase : EscrowState → Deals.Phase
  | .open => .offered
  | .locked => .taken
  | .settled => .settled
  | .cancelled => .withdrawn

def Job.terms (job : Job) : Deals.Terms Address := ⟨job.consumer, job.provider, job.lockedNmc⟩

/-- An unwritten key has no deal. -/
def Job.deal (job : Job) : Option (Deals.Terms Address × Deals.Phase) :=
  if job.createdAt = 0 then none else some (job.terms, job.state.phase)

def Contracts.deals (s : Contracts) : Deals.State Key Address := fun key => (s.jobs key).deal

section Acts

variable (site : Site)

/-- What a successful call does to the deals. -/
def acts (taken : Taken Call Contracts (List Payout)) : List (Deals.Act Key Address) :=
  match taken.call.method with
  | .createEscrow jobId provider amount _ _ =>
      [.offer (site.keccak256 jobId) ⟨taken.call.msg.sender, provider, amount⟩]
  | .lockEscrow jobId => [.take (site.keccak256 jobId)]
  | .releaseEscrow jobId actualCost =>
      let key := site.keccak256 jobId
      [.settle key (taken.before.jobs key).terms taken.before.feeCollector actualCost
        taken.before.platformFeeBps.toNat]
  | .cancelEscrow jobId =>
      let key := site.keccak256 jobId
      [.withdraw key (taken.before.jobs key).terms]
  | .setFee _ | .setFeeCollector _ => []

/-- What a call sent, without the empty transfers. -/
def sentBy (taken : Taken Call Contracts (List Payout)) : List (Address × Nat) :=
  Deals.sent (taken.output.map fun p => (p.dest, p.amount))

end Acts

section Refinement

variable {site : Site} {s t : Contracts} {payouts : List Payout} {job : Job} {key : Key}

theorem deal_of_created (hcreated : job.createdAt ≠ 0) :
    job.deal = some (job.terms, job.state.phase) := if_neg hcreated

/-- Writing a job writes its deal. -/
theorem deals_setJob (hcreated : job.createdAt ≠ 0) :
    (s.setJob key job).deals = Function.update s.deals key (some (job.terms, job.state.phase)) := by
  funext key'
  change (Function.update s.jobs key job key').deal = _
  rw [Function.update_apply, Function.update_apply]
  split
  · exact deal_of_created hcreated
  · rfl

theorem deals_sendAll {self : Address} (hsend : Contracts.sendAll self payouts s = .ok t) :
    t.deals = s.deals := by
  induction payouts generalizing s with
  | nil =>
      cases hsend
      rfl
  | cons p ps ih =>
      simp only [Contracts.sendAll, bind_eq_ok, mapError_eq_ok] at hsend
      obtain ⟨nmc, _, hrest⟩ := hsend
      have hdeals := ih hrest
      exact hdeals

/-- The legs of a settlement are the payments of the deal. -/
theorem sent_settlementLegs (collector : Address) (cost : Nat) (bps : UInt16) :
    Deals.sent ((settlementLegs job collector (cost - Deals.fee cost bps.toNat)
        (Deals.fee cost bps.toNat) (job.lockedNmc - cost)).map fun p => (p.dest, p.amount)) =
      Deals.sent (Deals.Act.settle key job.terms collector cost bps.toNat).payments := by
  have hskip : ∀ ps : List Payout,
      Deals.sent ((ps.filter fun p => 0 < p.amount).map fun p => (p.dest, p.amount)) =
        Deals.sent (ps.map fun p => (p.dest, p.amount)) := by
    intro ps
    rw [Deals.sent, Deals.sent, List.filter_map, List.filter_map, List.filter_filter]
    congr 2
    funext p
    exact Bool.and_self _
  exact hskip _

/-- A successful call steps the deals as it shows, and sends what they pay. -/
theorem exec_deals {c : Call} (hfee : s.platformFeeBps ≤ maxFeeBps) (htime : c.msg.timestamp64 ≠ 0)
    (hexec : c.exec site s = .ok (payouts, t)) :
    Steps Deals.Step s.deals (acts site ⟨s, c, payouts, t⟩) t.deals ∧
      sentBy ⟨s, c, payouts, t⟩ =
        Deals.sent ((acts site ⟨s, c, payouts, t⟩).flatMap Deals.Act.payments) := by
  obtain ⟨msg, method⟩ := c
  cases method with
  | createEscrow jobId provider amount price maxDurationSecs =>
      simp only [Call.exec, createEscrow, bind_eq_ok, ensure_eq_ok, mapError_eq_ok, pure_eq_ok,
        exists_const, Prod.mk.injEq] at hexec
      obtain ⟨hnew, _, nmc, _, rfl, rfl⟩ := hexec
      refine ⟨.single ?_, rfl⟩
      rw [deals_setJob]
      · exact .offer _ (if_pos hnew)
      · exact htime
  | lockEscrow jobId =>
      simp only [Call.exec, lockEscrow, bind_eq_ok, ensure_eq_ok, pure_eq_ok, exists_const,
        Prod.mk.injEq] at hexec
      obtain ⟨hcreated, hopen, _, _, deadline, _, rfl, rfl⟩ := hexec
      refine ⟨.single ?_, rfl⟩
      rw [deals_setJob]
      · refine .take ?_
        rw [Contracts.deals, deal_of_created hcreated, hopen]
        rfl
      · exact hcreated
  | releaseEscrow jobId actualCost =>
      simp only [Call.exec, releaseEscrow, bind_eq_ok, ensure_eq_ok, pure_eq_ok, checkedMul_eq_ok,
        checkedSub_eq_ok, exists_const, Prod.mk.injEq] at hexec
      obtain ⟨_, hcreated, hlocked, hle, _, ⟨_, rfl⟩, _, ⟨_, rfl⟩, _, ⟨_, rfl⟩, u, hsend, rfl,
        rfl⟩ := hexec
      have hrate : s.platformFeeBps.toNat ≤ 10000 :=
        (UInt16.le_iff_toNat_le.mp hfee).trans (by decide)
      refine ⟨.single ?_, ?_⟩
      · rw [deals_sendAll hsend, deals_setJob]
        · refine .settle s.feeCollector ?_ hle hrate
          rw [Contracts.deals, deal_of_created hcreated, hlocked]
          rfl
        · exact hcreated
      · rw [acts, List.flatMap_singleton]
        exact sent_settlementLegs s.feeCollector actualCost s.platformFeeBps
  | cancelEscrow jobId =>
      simp only [Call.exec, cancelEscrow, bind_eq_ok, ensure_eq_ok, pure_eq_ok, exists_const,
        Prod.mk.injEq] at hexec
      obtain ⟨hcreated, _, hguard, u, hsend, rfl, rfl⟩ := hexec
      have hopen : (s.jobs (site.keccak256 jobId)).state.phase = .offered ∨
          (s.jobs (site.keccak256 jobId)).state.phase = .taken := by
        have hlive := cancelGuard_live hguard
        cases hstate : (s.jobs (site.keccak256 jobId)).state with
        | «open» => exact .inl rfl
        | locked => exact .inr rfl
        | settled | cancelled =>
            rw [Job.isLive, hstate] at hlive
            cases hlive
      refine ⟨.single ?_, rfl⟩
      rw [deals_sendAll hsend, deals_setJob]
      · exact .withdraw (deal_of_created hcreated) hopen
      · exact hcreated
  | setFee feeBps =>
      simp only [Call.exec, setFee, bind_eq_ok, ensure_eq_ok, pure_eq_ok, exists_const,
        Prod.mk.injEq] at hexec
      obtain ⟨_, _, rfl, rfl⟩ := hexec
      exact ⟨.nil _, rfl⟩
  | setFeeCollector collector =>
      simp only [Call.exec, setFeeCollector, bind_eq_ok, ensure_eq_ok, pure_eq_ok, exists_const,
        Prod.mk.injEq] at hexec
      obtain ⟨_, rfl, rfl⟩ := hexec
      exact ⟨.nil _, rfl⟩

/-- The contract refines the protocol, at any block with a time. -/
theorem refines_deals : Refines (Call.exec site) (Elsewhere site.self) Deals.Step
    (fun s deals => Sound site s ∧ deals = s.deals) (acts site)
    (fun taken => taken.call.msg.timestamp64 ≠ 0) where
  call c s payouts t deals := by
    rintro ⟨hsound, rfl⟩ hexec htime
    have hafter := (exec_effect hsound.approvals hexec).sound hsound
    exact ⟨t.deals, (exec_deals hsound.fee htime hexec).1, hafter, rfl⟩
  env s t deals := by
    rintro ⟨hsound, rfl⟩ helsewhere
    obtain ⟨hafter, hjobs, _⟩ := helsewhere.sound hsound
    refine ⟨hafter, ?_⟩
    funext key
    rw [Contracts.deals, Contracts.deals, hjobs]

end Refinement

section Runs

variable {site : Site} {s t : Contracts} {nmc : Erc20} {isProvider : Address → Bool}
  {feeCollector admin oracle : Address} {platformFeeBps : UInt16}
  {calls : List (Taken Call Contracts (List Payout))}

theorem escrow_carriesOut (hsealed : nmc.Sealed site.self)
    (hdeploy : deploy nmc isProvider feeCollector platformFeeBps admin oracle = .ok s)
    (hrun : Runs site s calls t) (htime : ∀ taken ∈ calls, taken.call.msg.timestamp64 ≠ 0) :
    Deals.CarriesOut (calls.flatMap (acts site)) t.deals (calls.flatMap sentBy) := by
  obtain ⟨hsound, hjobs⟩ := deploy_sound hsealed hdeploy
  have hnothing : Deals.nothing = s.deals := by
    funext key
    rw [Contracts.deals, hjobs]
    rfl
  obtain ⟨_, hpath, _, rfl⟩ := refines_deals.run ⟨hsound, rfl⟩ hrun htime
  rw [← hnothing] at hpath
  refine ⟨.of_steps hpath, ?_⟩
  have hsent : ∀ taken ∈ calls,
      sentBy taken = Deals.sent ((acts site taken).flatMap Deals.Act.payments) := by
    intro taken hmem
    have hbefore := hrun.holds_before hsound
      (fun _ _ _ _ hsound hexec => (exec_effect hsound.approvals hexec).sound hsound)
      (fun _ _ hsound helsewhere => (helsewhere.sound hsound).1) hmem
    exact (exec_deals hbefore.fee (htime taken hmem) (hrun.exec_of_mem hmem)).2
  rw [Deals.sent_payments, List.flatMap_congr hsent, ← Deals.sent_payments, Deals.sent_sent]

theorem held_le_owed (job : Job) : Deals.held job.deal ≤ job.owed := by
  unfold Job.deal
  split
  · exact Nat.zero_le _
  · rw [Job.owed, Job.isLive]
    cases job.state with
    | «open» | locked | settled | cancelled => exact Nat.le_refl _

theorem sampleMessage_timed (sender : Address) : (sampleMessage sender).timestamp64 ≠ 0 := by
  change UInt64.ofNat 1700000000 ≠ 0
  decide

end Runs

end NeuralMesh.Evm
