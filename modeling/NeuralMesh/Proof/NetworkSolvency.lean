import NeuralMesh.Base.Refinement
import NeuralMesh.Evm.Network
import NeuralMesh.Proof.EvmEscrow
import NeuralMesh.Proof.NmcSupply
import NeuralMesh.Proof.RegistryStake

/-!
# The contracts of a deployment together

What a contract does to the token it does by transfers, so the others see it as another account that
uses the token. Every run of the deployment is then a run of each contract, and what was proved about
one contract in any environment holds within the deployment.
-/

namespace NeuralMesh.Evm

open Relation

/-- Transfers that the account `sender` asks for. -/
def Spends (sender : Address) : Erc20 → Erc20 → Prop :=
  ReflTransGen fun t t' => (∃ dest value, t.move sender dest value = .ok t') ∨
    ∃ source dest value, t.transferFrom sender source dest value = .ok t'

/-- Calls of the token by other accounts. -/
def UsedBy (others : Address → Prop) : Erc20 → Erc20 → Prop :=
  ReflTransGen fun t t' => ∃ sender c, others sender ∧ TokenCall.exec sender c t = .ok t'

theorem Spends.usedBy {sender : Address} {t t' : Erc20} {others : Address → Prop}
    (hspends : Spends sender t t') (hother : others sender) : UsedBy others t t' := by
  refine ReflTransGen.mono (fun u v hstep => ?_) _ _ hspends
  rcases hstep with ⟨dest, value, hmove⟩ | ⟨source, dest, value, htransfer⟩
  · exact ⟨sender, .transfer dest value, hother, hmove⟩
  · exact ⟨sender, .transferFrom source dest value, hother, htransfer⟩

/-! ### What a contract does to the token -/

section Contracts

variable {site : Site} {s t : Contracts} {payouts : List Payout}

theorem sendAll_spends {self : Address} (hsend : Contracts.sendAll self payouts s = .ok t) :
    Spends self s.nmc t.nmc ∧ t.isProvider = s.isProvider := by
  induction payouts generalizing s with
  | nil =>
      cases hsend
      exact ⟨.refl, rfl⟩
  | cons p ps ih =>
      simp only [Contracts.sendAll, bind_eq_ok, mapError_eq_ok] at hsend
      obtain ⟨nmc, hmove, hrest⟩ := hsend
      obtain ⟨hspends, hsame⟩ := ih hrest
      exact ⟨.head (.inl ⟨p.dest, p.amount, hmove⟩) hspends, hsame⟩

theorem exec_spends {c : Call} (hexec : c.exec site s = .ok (payouts, t)) :
    Spends site.self s.nmc t.nmc ∧ t.isProvider = s.isProvider := by
  obtain ⟨msg, method⟩ := c
  cases method with
  | createEscrow jobId provider amount price maxDurationSecs =>
      simp only [Call.exec, createEscrow, bind_eq_ok, ensure_eq_ok, mapError_eq_ok, pure_eq_ok,
        exists_const, Prod.mk.injEq] at hexec
      obtain ⟨_, _, nmc, htransfer, _, rfl⟩ := hexec
      exact ⟨.single (.inr ⟨msg.sender, site.self, amount, htransfer⟩), rfl⟩
  | lockEscrow jobId =>
      simp only [Call.exec, lockEscrow, bind_eq_ok, ensure_eq_ok, pure_eq_ok, exists_const,
        Prod.mk.injEq] at hexec
      obtain ⟨_, _, _, _, _, _, _, rfl⟩ := hexec
      exact ⟨.refl, rfl⟩
  | releaseEscrow jobId actualCost =>
      simp only [Call.exec, releaseEscrow, bind_eq_ok, ensure_eq_ok, pure_eq_ok, exists_const,
        Prod.mk.injEq] at hexec
      obtain ⟨_, _, _, _, _, _, _, _, _, _, u, hsend, _, rfl⟩ := hexec
      have hsent := sendAll_spends hsend
      exact hsent
  | cancelEscrow jobId =>
      simp only [Call.exec, cancelEscrow, bind_eq_ok, ensure_eq_ok, pure_eq_ok, exists_const,
        Prod.mk.injEq] at hexec
      obtain ⟨_, _, _, u, hsend, _, rfl⟩ := hexec
      have hsent := sendAll_spends hsend
      exact hsent
  | setFee feeBps =>
      simp only [Call.exec, setFee, bind_eq_ok, ensure_eq_ok, pure_eq_ok, exists_const,
        Prod.mk.injEq] at hexec
      obtain ⟨_, _, _, rfl⟩ := hexec
      exact ⟨.refl, rfl⟩
  | setFeeCollector collector =>
      simp only [Call.exec, setFeeCollector, bind_eq_ok, ensure_eq_ok, pure_eq_ok, exists_const,
        Prod.mk.injEq] at hexec
      obtain ⟨_, _, rfl⟩ := hexec
      exact ⟨.refl, rfl⟩

end Contracts

namespace Registry

variable {self : ContractAddress} {s t : Registry} {payouts : List Payout}

theorem exec_spends {c : Call} (hexec : c.exec self s = .ok (payouts, t)) :
    Spends self s.nmc t.nmc := by
  obtain ⟨msg, method⟩ := c
  cases method with
  | registerAndStake amount providerIdPrefix =>
      obtain ⟨_, _, _, _, _, nmc, htransfer, _, rfl⟩ := registerAndStake_eq_ok.mp hexec
      exact .single (.inr ⟨msg.sender, self, amount, htransfer⟩)
  | addStake amount =>
      obtain ⟨_, _, _, nmc, htransfer, _, _, rfl⟩ := addStake_eq_ok.mp hexec
      exact .single (.inr ⟨msg.sender, self, amount, htransfer⟩)
  | queueUnstake amount =>
      obtain ⟨_, _, _, _, _, _, _, rfl⟩ := queueUnstake_eq_ok.mp hexec
      exact .refl
  | claimUnstake =>
      obtain ⟨_, _, nmc, hmove, _, rfl⟩ := claimUnstake_eq_ok.mp hexec
      exact .single (.inl ⟨_, _, hmove⟩)
  | slash provider amount =>
      obtain ⟨_, _, _, hpaid⟩ := slash_eq_ok.mp hexec
      split at hpaid
      · obtain ⟨nmc, hmove, _, rfl⟩ := hpaid
        exact .single (.inl ⟨_, _, hmove⟩)
      · obtain ⟨_, rfl⟩ := hpaid
        exact .refl
  | setTreasury treasury =>
      obtain ⟨_, _, rfl⟩ := setTreasury_eq_ok.mp hexec
      exact .refl
  | setPaused paused =>
      obtain ⟨_, _, rfl⟩ := setPaused_eq_ok.mp hexec
      exact .refl

end Registry

namespace NmcToken

variable {s t : NmcToken}

/-- Neither the caller nor the signer of a permit is the contract, which signs nothing. -/
structure Call.Spares (contract : Address) (c : Call) : Prop where
  sender : c.msg.sender ≠ contract
  signer : ∀ owner spender value deadline signer,
    c.method = .permit owner spender value deadline signer → signer ≠ contract

/-- What a call of the token does to the balances and allowances. -/
theorem exec_usedBy {contract : Address} {c : Call} {u : Unit} (hspares : c.Spares contract)
    (hexec : c.exec s = .ok (u, t)) : UsedBy (· ≠ contract) s.erc20 t.erc20 := by
  obtain ⟨msg, method⟩ := c
  have hsender := hspares.sender
  have hone : ∀ (tc : TokenCall) {erc20 : Erc20}, tc.exec msg.sender s.erc20 = .ok erc20 →
      UsedBy (· ≠ contract) s.erc20 erc20 := fun tc erc20 hused => .single ⟨_, tc, hsender, hused⟩
  cases method with
  | bridgeMint recipient amount nonce =>
      simp only [Call.exec, bridgeMint, mint, bind_eq_ok, ensure_eq_ok, mapError_eq_ok, pure_eq_ok,
        exists_const, Prod.mk.injEq, true_and] at hexec
      obtain ⟨_, _, _, _, _, _, _, erc20, hmint, _, _, rfl⟩ := hexec
      exact hone (.mint recipient amount) hmint
  | bridgeBurn amount =>
      simp only [Call.exec, bridgeBurn, burn, bind_eq_ok, ensure_eq_ok, mapError_eq_ok, pure_eq_ok,
        exists_const, Prod.mk.injEq, true_and] at hexec
      obtain ⟨_, _, erc20, hburn, rfl⟩ := hexec
      exact hone (.burn amount) hburn
  | setPaused paused =>
      simp only [Call.exec, NmcToken.setPaused, bind_eq_ok, ensure_eq_ok, pure_eq_ok, exists_const,
        Prod.mk.injEq, true_and] at hexec
      obtain ⟨_, rfl⟩ := hexec
      exact .refl
  | transfer dest value =>
      obtain ⟨erc20, hmove, rfl⟩ := onErc20_eq_ok.mp hexec
      exact hone (.transfer dest value) hmove
  | approve spender value =>
      obtain ⟨erc20, happrove, rfl⟩ := onErc20_eq_ok.mp hexec
      exact hone (.approve spender value) happrove
  | transferFrom source dest value =>
      obtain ⟨erc20, htransfer, rfl⟩ := onErc20_eq_ok.mp hexec
      exact hone (.transferFrom source dest value) htransfer
  | burn value =>
      simp only [Call.exec, NmcToken.burn, bind_eq_ok, mapError_eq_ok, pure_eq_ok, Prod.mk.injEq,
        true_and] at hexec
      obtain ⟨erc20, hburn, rfl⟩ := hexec
      exact hone (.burn value) hburn
  | burnFrom source value =>
      simp only [Call.exec, NmcToken.burnFrom, NmcToken.burn, bind_eq_ok, mapError_eq_ok,
        pure_eq_ok, Prod.exists, onErc20_eq_ok, Prod.mk.injEq, true_and] at hexec
      obtain ⟨_, _, ⟨erc20, hspend, rfl⟩, burnt, hburn, rfl⟩ := hexec
      exact hone (.burnFrom source value) (bind_eq_ok.mpr ⟨erc20, hspend, hburn⟩)
  | permit owner spender value deadline signer =>
      simp only [Call.exec, permit, bind_eq_ok, ensure_eq_ok, exists_const, onErc20_eq_ok] at hexec
      obtain ⟨_, hsigner, erc20, happrove, rfl⟩ := hexec
      have hother := hspares.signer _ _ _ _ _ rfl
      rw [hsigner] at hother
      exact .single ⟨owner, .approve spender value, hother, happrove⟩
  | delegate delegatee =>
      cases hexec
      exact .refl
  | delegateBySig delegatee nonce expiry signer =>
      simp only [Call.exec, delegateBySig, delegate, bind_eq_ok, ensure_eq_ok, exists_const,
        Except.ok.injEq, Prod.mk.injEq, true_and] at hexec
      obtain ⟨_, _, rfl⟩ := hexec
      exact .refl

/-- The transfers of a contract as calls of the token. -/
theorem runs_of_spends {sender : Address} {erc20 : Erc20} (hspends : Spends sender s.erc20 erc20) :
    ∃ calls, Runs s calls { s with erc20 } := by
  induction hspends with
  | refl => exact ⟨[], .nil s⟩
  | @tail u v _ hlast ih =>
      obtain ⟨calls, hrun⟩ := ih
      rcases hlast with ⟨dest, value, hmove⟩ | ⟨source, dest, value, htransfer⟩
      · refine ⟨_, hrun.call (c := ⟨⟨sender, 0⟩, .transfer dest value⟩) (o := ()) ?_⟩
        exact onErc20_eq_ok.mpr ⟨v, hmove, rfl⟩
      · refine ⟨_, hrun.call (c := ⟨⟨sender, 0⟩, .transferFrom source dest value⟩) (o := ()) ?_⟩
        exact onErc20_eq_ok.mpr ⟨v, htransfer, rfl⟩

end NmcToken

/-! ### The view of each contract -/

namespace Network

section Views

variable {layout : Layout}

/-- The escrow's part in a call. -/
def escrowCalls (taken : Taken Call Network Output) : List (Taken Evm.Call Contracts (List Payout)) :=
  match taken.call, taken.output with
  | .escrow c, .escrow payouts => [⟨taken.before.escrow, c, payouts, taken.after.escrow⟩]
  | _, _ => []

/-- The registry's part in a call. -/
def registryCalls (taken : Taken Call Network Output) :
    List (Taken Registry.Call Registry (List Payout)) :=
  match taken.call, taken.output with
  | .registry c, .registry payouts => [⟨taken.before.registry, c, payouts, taken.after.registry⟩]
  | _, _ => []

/-- Neither the escrow nor the registry calls the token but by its own functions. -/
def Spares (layout : Layout) : Call → Prop
  | .nmc c => c.Spares layout.escrow.self ∧ c.Spares layout.registry
  | _ => True

theorem escrow_env {contract : Address} {s : Contracts} {nmc : Erc20}
    (hused : UsedBy (· ≠ contract) s.nmc nmc) :
    ReflTransGen (Evm.Elsewhere contract) s { s with nmc } := by
  induction hused with
  | refl => exact .refl
  | tail _ hlast ih =>
      obtain ⟨sender, c, hother, hexec⟩ := hlast
      exact ih.tail (.token hother hexec)

theorem registry_env {contract : Address} {s : Registry} {nmc : Erc20}
    (hused : UsedBy (· ≠ contract) s.nmc nmc) :
    ReflTransGen (Registry.Elsewhere contract) s { s with nmc } := by
  induction hused with
  | refl => exact .refl
  | tail _ hlast ih =>
      obtain ⟨sender, c, hother, hexec⟩ := hlast
      exact ih.tail (.token hother hexec)

/-- Nothing but the token changes for the escrow. -/
theorem escrow_of_nmc (s : Network) {nmc : Erc20} (hsame : nmc = s.nmc.erc20) :
    { s.escrow with nmc } = s.escrow := by rw [hsame, ← s.escrow_nmc]

theorem registry_of_nmc (s : Network) {nmc : Erc20} (hsame : nmc = s.nmc.erc20) :
    { s.registry with nmc } = s.registry := by rw [hsame, ← s.registry_nmc]

/-- The escrow only reads who is a provider. -/
theorem escrow_setEscrow (s : Network) {escrow : Contracts}
    (hsame : escrow.isProvider = s.escrow.isProvider) : (s.setEscrow escrow).escrow = escrow := by
  have hread : (s.setEscrow escrow).escrow =
      { escrow with isProvider := s.nfts.nft.isProvider } := rfl
  rw [hread, ← s.escrow_isProvider, ← hsame]

/-- The escrow sees the deployment as the contract with its environment. -/
theorem projects_escrow : Projects (Call.exec layout) Elsewhere (Evm.Call.exec layout.escrow)
    (Evm.Elsewhere layout.escrow.self) escrow escrowCalls (Spares layout) where
  call c s o t hspares hexec := by
    cases c with
    | nmc c =>
        simp only [Call.exec, bind_eq_ok, mapError_eq_ok, pure_eq_ok, Prod.exists,
          Prod.mk.injEq] at hexec
        obtain ⟨_, nmc, hcall, rfl, rfl⟩ := hexec
        have hused := NmcToken.exec_usedBy hspares.1 hcall
        rw [← s.escrow_nmc] at hused
        exact .of_path (escrow_env hused)
    | nfts c =>
        simp only [Call.exec, bind_eq_ok, mapError_eq_ok, pure_eq_ok, Prod.exists,
          Prod.mk.injEq] at hexec
        obtain ⟨_, nfts, _, rfl, rfl⟩ := hexec
        exact (CallRun.nil s.escrow).env (.providers _ _)
    | registry c =>
        simp only [Call.exec, bind_eq_ok, mapError_eq_ok, pure_eq_ok, Prod.exists,
          Prod.mk.injEq] at hexec
        obtain ⟨_, registry, hcall, rfl, rfl⟩ := hexec
        have hspends := Registry.exec_spends hcall
        rw [s.registry_nmc, ← s.escrow_nmc] at hspends
        exact .of_path (escrow_env (hspends.usedBy layout.distinct.symm))
    | escrow c =>
        simp only [Call.exec, bind_eq_ok, mapError_eq_ok, pure_eq_ok, Prod.exists,
          Prod.mk.injEq] at hexec
        obtain ⟨payouts, escrow, hcall, rfl, rfl⟩ := hexec
        rw [← s.escrow_setEscrow (exec_spends hcall).2] at hcall
        exact (CallRun.nil s.escrow).call hcall
  env s t helsewhere := by
    cases helsewhere with
    | nmc hasRole =>
        have hsame : (s.setNmc { s.nmc with hasRole }).escrow = s.escrow := s.escrow_of_nmc rfl
        rw [hsame]
        exact .nil _
    | nfts hasRole => exact (CallRun.nil s.escrow).env (.providers _ _)
    | registry hasRole =>
        have hsame : (s.setRegistry { s.registry with hasRole }).escrow = s.escrow :=
          s.escrow_of_nmc s.registry_nmc
        rw [hsame]
        exact .nil _
    | escrow hasRole =>
        have hsame : (s.setEscrow { s.escrow with hasRole }).escrow = { s.escrow with hasRole } :=
          s.escrow_setEscrow rfl
        rw [hsame]
        exact (CallRun.nil s.escrow).env (.roles _ _)

/-- So does the registry. -/
theorem projects_registry : Projects (Call.exec layout) Elsewhere
    (Registry.Call.exec layout.registry) (Registry.Elsewhere layout.registry) registry
    registryCalls (Spares layout) where
  call c s o t hspares hexec := by
    cases c with
    | nmc c =>
        simp only [Call.exec, bind_eq_ok, mapError_eq_ok, pure_eq_ok, Prod.exists,
          Prod.mk.injEq] at hexec
        obtain ⟨_, nmc, hcall, rfl, rfl⟩ := hexec
        have hused := NmcToken.exec_usedBy hspares.2 hcall
        rw [← s.registry_nmc] at hused
        exact .of_path (registry_env hused)
    | nfts c =>
        simp only [Call.exec, bind_eq_ok, mapError_eq_ok, pure_eq_ok, Prod.exists,
          Prod.mk.injEq] at hexec
        obtain ⟨_, nfts, _, rfl, rfl⟩ := hexec
        exact .nil s.registry
    | registry c =>
        simp only [Call.exec, bind_eq_ok, mapError_eq_ok, pure_eq_ok, Prod.exists,
          Prod.mk.injEq] at hexec
        obtain ⟨payouts, registry, hcall, rfl, rfl⟩ := hexec
        exact (CallRun.nil s.registry).call hcall
    | escrow c =>
        simp only [Call.exec, bind_eq_ok, mapError_eq_ok, pure_eq_ok, Prod.exists,
          Prod.mk.injEq] at hexec
        obtain ⟨_, escrow, hcall, rfl, rfl⟩ := hexec
        have hspends := (exec_spends hcall).1
        rw [s.escrow_nmc, ← s.registry_nmc] at hspends
        exact .of_path (registry_env (hspends.usedBy layout.distinct))
  env s t helsewhere := by
    cases helsewhere with
    | nmc hasRole =>
        have hsame : (s.setNmc { s.nmc with hasRole }).registry = s.registry := s.registry_of_nmc rfl
        rw [hsame]
        exact .nil _
    | nfts hasRole => exact .nil s.registry
    | registry hasRole => exact (CallRun.nil s.registry).env (.roles _ _)
    | escrow hasRole =>
        have hsame : (s.setEscrow { s.escrow with hasRole }).registry = s.registry :=
          s.registry_of_nmc s.escrow_nmc
        rw [hsame]
        exact .nil _

/-- Every call of the deployment is a run of the token. -/
theorem nmc_runs {c : Call} {s t : Network} {o : Output} (hexec : c.exec layout s = .ok (o, t)) :
    ∃ calls, NmcToken.Runs s.nmc calls t.nmc := by
  cases c with
  | nmc c =>
      simp only [Call.exec, bind_eq_ok, mapError_eq_ok, pure_eq_ok, Prod.exists,
        Prod.mk.injEq] at hexec
      obtain ⟨_, nmc, hcall, rfl, rfl⟩ := hexec
      exact ⟨_, (CallRun.nil s.nmc).call hcall⟩
  | nfts c =>
      simp only [Call.exec, bind_eq_ok, mapError_eq_ok, pure_eq_ok, Prod.exists,
        Prod.mk.injEq] at hexec
      obtain ⟨_, nfts, _, rfl, rfl⟩ := hexec
      exact ⟨[], .nil s.nmc⟩
  | registry c =>
      simp only [Call.exec, bind_eq_ok, mapError_eq_ok, pure_eq_ok, Prod.exists,
        Prod.mk.injEq] at hexec
      obtain ⟨_, registry, hcall, rfl, rfl⟩ := hexec
      have hspends := Registry.exec_spends hcall
      rw [s.registry_nmc] at hspends
      exact NmcToken.runs_of_spends hspends
  | escrow c =>
      simp only [Call.exec, bind_eq_ok, mapError_eq_ok, pure_eq_ok, Prod.exists,
        Prod.mk.injEq] at hexec
      obtain ⟨_, escrow, hcall, rfl, rfl⟩ := hexec
      have hspends := (exec_spends hcall).1
      rw [s.escrow_nmc] at hspends
      exact NmcToken.runs_of_spends hspends

theorem elsewhere_nmc {s t : Network} (helsewhere : Elsewhere s t) :
    ∃ calls, NmcToken.Runs s.nmc calls t.nmc := by
  refine ⟨[], ?_⟩
  cases helsewhere with
  | nmc hasRole => exact (CallRun.nil s.nmc).env (.roles _ _)
  | nfts hasRole => exact .nil s.nmc
  | registry hasRole =>
      have hsame : (s.setRegistry { s.registry with hasRole }).nmc = s.nmc := by
        have hread : (s.setRegistry { s.registry with hasRole }).nmc =
            { s.nmc with erc20 := s.registry.nmc } := rfl
        rw [hread, s.registry_nmc]
      rw [hsame]
      exact .nil s.nmc
  | escrow hasRole =>
      have hsame : (s.setEscrow { s.escrow with hasRole }).nmc = s.nmc := by
        have hread : (s.setEscrow { s.escrow with hasRole }).nmc =
            { s.nmc with erc20 := s.escrow.nmc } := rfl
        rw [hread, s.escrow_nmc]
      rw [hsame]
      exact .nil s.nmc

end Views

/-! ### Solvency -/

section Runs

open Finset

variable {layout : Layout} {deployer bridge oracle feeCollector : Address}
  {qvOracles : List Address} {s t : Network} {calls : List (Taken Call Network Output)}

/-- What the script leaves. -/
theorem deploy_ok (hdeploy : deploy deployer bridge oracle feeCollector qvOracles = .ok s) :
    s.nmc = NmcToken.deploy deployer bridge ∧
      s.registry = Registry.deploy s.nmc.erc20 feeCollector deployer oracle ∧
      Evm.deploy s.nmc.erc20 s.nfts.nft.isProvider feeCollector 800 deployer oracle = .ok s.escrow := by
  simp only [deploy, bind_eq_ok, mapError_eq_ok, pure_eq_ok] at hdeploy
  obtain ⟨verifier, _, escrow, hescrow, rfl⟩ := hdeploy
  refine ⟨rfl, rfl, ?_⟩
  dsimp only
  have hsame := hescrow
  simp only [Evm.deploy, bind_eq_ok, ensure_eq_ok, pure_eq_ok, exists_const] at hsame
  obtain ⟨_, rfl⟩ := hsame
  exact hescrow

theorem run_supply (hdeploy : deploy deployer bridge oracle feeCollector qvOracles = .ok s)
    (hrun : Runs layout s calls t) : ∃ calls, NmcToken.Accounted calls t.nmc := by
  have hall : ∃ calls, NmcToken.Runs (NmcToken.deploy deployer bridge) calls t.nmc := by
    refine hrun.preserves (I := fun u => ∃ calls, NmcToken.Runs (NmcToken.deploy deployer bridge)
      calls u.nmc) ?_ ?_ ?_
    · rw [(deploy_ok hdeploy).1]
      exact ⟨[], .nil _⟩
    · intro c u o v hbefore hexec
      obtain ⟨earlier, hearlier⟩ := hbefore
      obtain ⟨later, hlater⟩ := nmc_runs hexec
      exact ⟨_, hearlier.trans hlater⟩
    · intro u v hbefore helsewhere
      obtain ⟨earlier, hearlier⟩ := hbefore
      obtain ⟨later, hlater⟩ := elsewhere_nmc helsewhere
      exact ⟨_, hearlier.trans hlater⟩
  obtain ⟨calls, hruns⟩ := hall
  exact ⟨calls, NmcToken.run_accounted hruns⟩

/-- Whatever is called by whom on any of the contracts, what is locked in jobs and what is staked are
different coins of the supply: each contract holds what it owes, and both debts together are no more
than there is. -/
theorem network_solvent (hdeploy : deploy deployer bridge oracle feeCollector qvOracles = .ok s)
    (hrun : Runs layout s calls t) (hspares : ∀ taken ∈ calls, Spares layout taken.call)
    (jobs : Finset Key) (providers : Finset Address) :
    ∑ key ∈ jobs, (t.escrow.jobs key).owed ≤ t.nmc.erc20.balanceOf layout.escrow.self ∧
      ∑ p ∈ providers, (t.registry.providers p).held ≤
        t.nmc.erc20.balanceOf layout.registry ∧
      ∑ key ∈ jobs, (t.escrow.jobs key).owed + ∑ p ∈ providers, (t.registry.providers p).held ≤
        t.nmc.totalSupply := by
  obtain ⟨hnmc, hregistry, hescrow⟩ := deploy_ok hdeploy
  have hsealed : ∀ a, s.nmc.erc20.Sealed a := by
    intro a spender
    rw [hnmc]
    rfl
  have hjobs := run_solvent (hsealed _) hescrow (projects_escrow.run hrun hspares) jobs
  have hstakes := projects_registry.run hrun hspares
  rw [hregistry] at hstakes
  have hheld := (Registry.run_sound (hsealed _) hstakes).solvent providers
  rw [t.escrow_nmc] at hjobs
  rw [t.registry_nmc] at hheld
  refine ⟨hjobs, hheld, ?_⟩
  obtain ⟨_, haccounted⟩ := run_supply hdeploy hrun
  have hboth := haccounted.backs {layout.escrow.self, layout.registry.val}
  rw [sum_pair layout.distinct] at hboth
  exact (Nat.add_le_add hjobs hheld).trans hboth

end Runs

/-! ### A sample run -/

def sampleLayout : Layout where
  escrow := ⟨100, fun _ => 1⟩
  registry := ⟨101, by decide⟩
  chain := ⟨⟨102, by decide⟩, fun _ => 1, fun _ => true⟩
  distinct := by decide

/-- Bridge `2` mints a thousand NMC for provider `3`, which stakes a hundred of them. -/
def sampleCalls : List Call :=
  [.nmc ⟨⟨2, 1700000000⟩, .bridgeMint 3 (1000 * 10 ^ 18) 1⟩,
    .nmc ⟨⟨3, 1700000000⟩, .approve 101 (100 * 10 ^ 18)⟩,
    .registry ⟨⟨3, 1700000000⟩, .registerAndStake (100 * 10 ^ 18) 7⟩]

theorem sampleCalls_spare : ∀ c ∈ sampleCalls, Spares sampleLayout c := by
  have hspares : ∀ (contract sender : Address) (method : NmcToken.Method), sender ≠ contract →
      (∀ owner spender value deadline signer, method ≠ .permit owner spender value deadline signer) →
      NmcToken.Call.Spares contract ⟨⟨sender, 1700000000⟩, method⟩ :=
    fun contract sender method hsender hmethod =>
      ⟨hsender, fun _ _ _ _ _ hpermit => absurd hpermit (hmethod _ _ _ _ _)⟩
  rw [sampleCalls, List.forall_mem_cons, List.forall_mem_cons, List.forall_mem_singleton]
  refine ⟨⟨hspares _ _ _ (by decide) ?_, hspares _ _ _ (by decide) ?_⟩,
    ⟨hspares _ _ _ (by decide) ?_, hspares _ _ _ (by decide) ?_⟩, trivial⟩
  all_goals
    intro _ _ _ _ _ hpermit
    cases hpermit

theorem network_solvent_staked : ∃ s calls t, Runs sampleLayout s calls t ∧
    calls.map Taken.call = sampleCalls ∧
    ∑ key ∈ {1}, (t.escrow.jobs key).owed + ∑ p ∈ {3}, (t.registry.providers p).held ≤
      t.nmc.totalSupply := by
  obtain ⟨s, hdeploy⟩ : ∃ s, deploy 1 2 6 4 [11, 12, 13] = .ok s := ⟨_, rfl⟩
  obtain ⟨calls, t, hreplay, hcalls⟩ : ∃ calls t,
      replay (Call.exec sampleLayout) sampleCalls s = .ok (calls, t) ∧
        calls.map Taken.call = sampleCalls := by
    cases hdeploy
    exact ⟨_, _, rfl, rfl⟩
  have hrun : Runs sampleLayout s calls t := .of_replay hreplay
  have hspares : ∀ taken ∈ calls, Spares sampleLayout taken.call := by
    intro taken hmem
    exact sampleCalls_spare _ (hcalls ▸ List.mem_map_of_mem hmem)
  exact ⟨s, calls, t, hrun, hcalls, (network_solvent hdeploy hrun hspares {1} {3}).2.2⟩

end Network

end NeuralMesh.Evm
