import NeuralMesh.Base.Reserve
import NeuralMesh.Evm.NmcToken

/-!
# The supply of NMC

`Step` says what a successful call does to the balances, the supply and the bridge nonces. The
balances never add up to more than the supply, so a burn takes its amount off it; the supply is
then what was minted less what was burnt.
-/

namespace NeuralMesh.Evm

/-! ### Balances and the supply -/

namespace Erc20

variable {t t' : Erc20} {source dest owner spender : Address} {value supply : Nat}

theorem balanceOf_approve (happrove : t.approve owner spender value = .ok t') :
    t'.balanceOf = t.balanceOf := by
  simp only [approve, bind_eq_ok, ensure_eq_ok, pure_eq_ok, exists_const] at happrove
  obtain ⟨_, _, rfl⟩ := happrove
  rfl

theorem backs_debit (hbacks : Backs supply t.balanceOf) (hle : value ≤ t.balanceOf source) :
    Backs (supply - value) (t.setBalance source (t.balanceOf source - value)).balanceOf := by
  have hsupply : t.balanceOf source ≤ supply := hbacks.le source
  refine hbacks.update source (fun a ha => ?_) ?_
  · rw [balanceOf_setBalance, if_neg ha]
  · rw [balanceOf_setBalance, if_pos rfl]
    omega

theorem backs_credit (hbacks : Backs supply t.balanceOf) (dest : Address) (value : Nat) :
    Backs (supply + value) (t.setBalance dest (t.balanceOf dest + value)).balanceOf := by
  refine hbacks.update dest (fun a ha => ?_) ?_
  · rw [balanceOf_setBalance, if_neg ha]
  · rw [balanceOf_setBalance, if_pos rfl]
    omega

/-- A transfer leaves what backs the balances as it is. -/
theorem backs_move (hbacks : Backs supply t.balanceOf) (hmove : t.move source dest value = .ok t') :
    Backs supply t'.balanceOf := by
  obtain ⟨_, _, hle, rfl⟩ := move_eq_ok.mp hmove
  have hsupply : t.balanceOf source ≤ supply := hbacks.le source
  have hback : supply - value + value = supply := Nat.sub_add_cancel (hle.trans hsupply)
  have hafter := backs_credit (backs_debit hbacks hle) dest value
  rwa [hback] at hafter

theorem mint_eq_ok : t.mint dest value = .ok t' ↔
    dest ≠ 0 ∧ t' = t.setBalance dest (t.balanceOf dest + value) := by
  simp only [mint, bind_eq_ok, ensure_eq_ok, pure_eq_ok, exists_const]

theorem burn_eq_ok : t.burn source value = .ok t' ↔ source ≠ 0 ∧ value ≤ t.balanceOf source ∧
    t' = t.setBalance source (t.balanceOf source - value) := by
  simp only [burn, bind_eq_ok, ensure_eq_ok, pure_eq_ok, exists_const]

end Erc20

namespace NmcToken

/-- A successful call of the contract. -/
abbrev Record := Taken Call NmcToken Unit

/-- What a call minted. -/
def mintedBy (taken : Record) : Nat :=
  match taken.call.method with
  | .bridgeMint _ amount _ => amount
  | _ => 0

/-- What a call burnt. -/
def burntBy (taken : Record) : Nat :=
  match taken.call.method with
  | .bridgeBurn amount | .burn amount | .burnFrom _ amount => amount
  | _ => 0

/-- The bridge nonce of a mint. -/
def mintNonce? (taken : Record) : Option Nat :=
  match taken.call.method with
  | .bridgeMint _ _ nonce => some nonce
  | _ => none

/-- What a successful call does. -/
inductive Step (c : Call) (s t : NmcToken) : Prop
  | mint {recipient : Address} {amount nonce : Nat}
      (hcall : c.method = .bridgeMint recipient amount nonce) (hfresh : s.usedNonces nonce = false)
      (hcap : s.totalSupply + amount ≤ maxSupply)
      (hsupply : t.totalSupply = s.totalSupply + amount)
      (hused : t.usedNonces = Function.update s.usedNonces nonce true)
      (hbacks : ∀ n, Backs n s.erc20.balanceOf → Backs (n + amount) t.erc20.balanceOf)
  | burn {amount : Nat} (hcall : mintNonce? ⟨s, c, (), t⟩ = none)
      (hmint : mintedBy ⟨s, c, (), t⟩ = 0) (hburn : burntBy ⟨s, c, (), t⟩ = amount)
      {source : Address} (hle : amount ≤ s.erc20.balanceOf source)
      (hsupply : t.totalSupply = uncheckedSub s.totalSupply amount)
      (hused : t.usedNonces = s.usedNonces)
      (hbacks : ∀ n, Backs n s.erc20.balanceOf → Backs (n - amount) t.erc20.balanceOf)
  | other (hcall : mintNonce? ⟨s, c, (), t⟩ = none) (hmint : mintedBy ⟨s, c, (), t⟩ = 0)
      (hburn : burntBy ⟨s, c, (), t⟩ = 0) (hsupply : t.totalSupply = s.totalSupply)
      (hused : t.usedNonces = s.usedNonces)
      (hbacks : ∀ n, Backs n s.erc20.balanceOf → Backs n t.erc20.balanceOf)

section Steps

variable {s t : NmcToken} {msg : Message} {u : Unit} {source : Address} {value : Nat}

theorem onErc20_eq_ok {operation : Erc20 → Erc20.Result} : s.onErc20 operation = .ok (u, t) ↔
    ∃ erc20, operation s.erc20 = .ok erc20 ∧ t = { s with erc20 } := by
  simp only [onErc20, bind_eq_ok, mapError_eq_ok, pure_eq_ok, Prod.mk.injEq, true_and]

theorem burn_eq_ok : s.burn source value = .ok (u, t) ↔
    source ≠ 0 ∧ value ≤ s.erc20.balanceOf source ∧
      t = { s with
        erc20 := s.erc20.setBalance source (s.erc20.balanceOf source - value)
        totalSupply := uncheckedSub s.totalSupply value } := by
  simp only [burn, bind_eq_ok, mapError_eq_ok, Erc20.burn_eq_ok, pure_eq_ok, Prod.mk.injEq, true_and]
  constructor
  · intro h
    obtain ⟨_, ⟨hsource, hle, rfl⟩, rfl⟩ := h
    exact ⟨hsource, hle, rfl⟩
  · intro h
    obtain ⟨hsource, hle, rfl⟩ := h
    exact ⟨_, ⟨hsource, hle, rfl⟩, rfl⟩

theorem bridgeMint_step {recipient : Address} {amount nonce : Nat}
    (hexec : bridgeMint msg recipient amount nonce s = .ok (u, t)) :
    Step ⟨msg, .bridgeMint recipient amount nonce⟩ s t := by
  simp only [bridgeMint, mint, bind_eq_ok, ensure_eq_ok, mapError_eq_ok, Erc20.mint_eq_ok,
    pure_eq_ok, exists_const, Prod.mk.injEq, true_and] at hexec
  obtain ⟨_, _, _, _, hfresh, _, hcap, _, ⟨_, rfl⟩, _, _, rfl⟩ := hexec
  exact .mint rfl hfresh hcap rfl rfl fun n hbacks => Erc20.backs_credit hbacks recipient amount

theorem bridgeBurn_step {amount : Nat} (hexec : bridgeBurn msg amount s = .ok (u, t)) :
    Step ⟨msg, .bridgeBurn amount⟩ s t := by
  simp only [bridgeBurn, bind_eq_ok, ensure_eq_ok, burn_eq_ok, exists_const] at hexec
  obtain ⟨_, _, _, hle, rfl⟩ := hexec
  exact .burn rfl rfl rfl hle rfl rfl fun n hbacks => Erc20.backs_debit hbacks hle

theorem burnFrom_step (hexec : burnFrom msg source value s = .ok (u, t)) :
    Step ⟨msg, .burnFrom source value⟩ s t := by
  simp only [burnFrom, bind_eq_ok, Prod.exists, onErc20_eq_ok, burn_eq_ok] at hexec
  obtain ⟨_, _, ⟨erc20, hspend, rfl⟩, _, hle, rfl⟩ := hexec
  have hsame := Erc20.balanceOf_spendAllowance hspend
  refine .burn rfl rfl rfl (hsame ▸ hle) rfl rfl fun n hbacks => ?_
  rw [← hsame] at hbacks
  exact Erc20.backs_debit hbacks hle

/-- An operation on balances and allowances that leaves what backs the balances as it is. -/
theorem other_step {c : Call} {operation : Erc20 → Erc20.Result}
    (hcall : ∀ t, mintNonce? ⟨s, c, (), t⟩ = none) (hmint : ∀ t, mintedBy ⟨s, c, (), t⟩ = 0)
    (hburn : ∀ t, burntBy ⟨s, c, (), t⟩ = 0)
    (hoperation : ∀ erc20, operation s.erc20 = .ok erc20 → ∀ n, Backs n s.erc20.balanceOf →
      Backs n erc20.balanceOf)
    (hexec : s.onErc20 operation = .ok (u, t)) : Step c s t := by
  obtain ⟨erc20, hok, rfl⟩ := onErc20_eq_ok.mp hexec
  exact .other (hcall _) (hmint _) (hburn _) rfl rfl (hoperation erc20 hok)

/-- Every successful call is one of these steps. -/
theorem exec_step {c : Call} (hexec : c.exec s = .ok (u, t)) : Step c s t := by
  obtain ⟨msg, method⟩ := c
  cases method with
  | bridgeMint recipient amount nonce => exact bridgeMint_step hexec
  | bridgeBurn amount => exact bridgeBurn_step hexec
  | setPaused paused =>
      simp only [Call.exec, setPaused, bind_eq_ok, ensure_eq_ok, pure_eq_ok, exists_const,
        Prod.mk.injEq, true_and] at hexec
      obtain ⟨_, rfl⟩ := hexec
      exact .other rfl rfl rfl rfl rfl fun _ hbacks => hbacks
  | transfer dest value =>
      exact other_step (fun _ => rfl) (fun _ => rfl) (fun _ => rfl)
        (fun _ hmove _ hbacks => Erc20.backs_move hbacks hmove) hexec
  | approve spender value =>
      refine other_step (fun _ => rfl) (fun _ => rfl) (fun _ => rfl) ?_ hexec
      intro erc20 happrove n hbacks
      rwa [Erc20.balanceOf_approve happrove]
  | transferFrom source dest value =>
      refine other_step (fun _ => rfl) (fun _ => rfl) (fun _ => rfl) ?_ hexec
      intro erc20 htransfer n hbacks
      obtain ⟨spent, hspend, hmove⟩ := bind_eq_ok.mp htransfer
      refine Erc20.backs_move ?_ hmove
      rwa [Erc20.balanceOf_spendAllowance hspend]
  | burn value =>
      obtain ⟨_, hle, rfl⟩ := burn_eq_ok.mp hexec
      exact .burn rfl rfl rfl hle rfl rfl fun n hbacks => Erc20.backs_debit hbacks hle
  | burnFrom source value => exact burnFrom_step hexec
  | permit owner spender value deadline signer =>
      simp only [Call.exec, permit, bind_eq_ok, ensure_eq_ok, onErc20_eq_ok, exists_const] at hexec
      obtain ⟨_, _, erc20, happrove, rfl⟩ := hexec
      refine .other rfl rfl rfl rfl rfl fun n hbacks => ?_
      rwa [Erc20.balanceOf_approve happrove]
  | delegate delegatee =>
      cases hexec
      exact .other rfl rfl rfl rfl rfl fun _ hbacks => hbacks
  | delegateBySig delegatee nonce expiry signer =>
      simp only [Call.exec, delegateBySig, delegate, bind_eq_ok, ensure_eq_ok, exists_const] at hexec
      obtain ⟨_, _, hexec⟩ := hexec
      cases hexec
      exact .other rfl rfl rfl rfl rfl fun _ hbacks => hbacks

end Steps

/-! ### Every run -/

/-- How many mints had this nonce. -/
def mintsWith (nonce : Nat) (calls : List Record) : Nat :=
  calls.countP fun taken => mintNonce? taken = some nonce

/-- What holds of the supply after these calls. -/
structure Accounted (calls : List Record) (s : NmcToken) : Prop where
  supply : s.totalSupply + totalOf burntBy calls = totalOf mintedBy calls
  cap : s.totalSupply ≤ maxSupply
  /-- The balances do not exceed the supply. -/
  backs : Backs s.totalSupply s.erc20.balanceOf
  used : ∀ nonce, s.usedNonces nonce = true ↔ 0 < mintsWith nonce calls
  once : ∀ nonce, mintsWith nonce calls ≤ 1

section Runs

variable {s t : NmcToken} {c : Call} {calls : List Record}

theorem uncheckedSub_of_le {a b : Nat} (hle : b ≤ a) (hlt : a < 2 ^ 256) :
    uncheckedSub a b = a - b := by
  have hshift : a + 2 ^ 256 - b = a - b + 2 ^ 256 := by omega
  rw [uncheckedSub, hshift, Nat.add_mod_right, Nat.mod_eq_of_lt]
  omega

theorem mintsWith_concat (nonce : Nat) (taken : Record) :
    mintsWith nonce (calls ++ [taken]) =
      mintsWith nonce calls + if mintNonce? taken = some nonce then 1 else 0 := by
  unfold mintsWith
  rw [List.countP_append, List.countP_singleton]
  simp only [decide_eq_true_eq]

theorem maxSupply_lt : maxSupply < 2 ^ 256 := by decide

/-- A call that is no mint leaves the account of the nonces as it is. -/
theorem mintsWith_of_none (hcall : mintNonce? ⟨s, c, (), t⟩ = none) (nonce : Nat) :
    mintsWith nonce (calls ++ [⟨s, c, (), t⟩]) = mintsWith nonce calls := by
  have hnot : mintNonce? ⟨s, c, (), t⟩ ≠ some nonce := by
    rw [hcall]
    exact fun h => by cases h
  rw [mintsWith_concat, if_neg hnot, Nat.add_zero]

theorem Accounted.mint {amount nonce : Nat} {recipient : Address} (haccounted : Accounted calls s)
    (hcall : c.method = .bridgeMint recipient amount nonce) (hfresh : s.usedNonces nonce = false)
    (hcap : s.totalSupply + amount ≤ maxSupply) (hsupply : t.totalSupply = s.totalSupply + amount)
    (hused : t.usedNonces = Function.update s.usedNonces nonce true)
    (hbacks : Backs (s.totalSupply + amount) t.erc20.balanceOf) :
    Accounted (calls ++ [⟨s, c, (), t⟩]) t := by
  have hmint : mintedBy ⟨s, c, (), t⟩ = amount := by rw [mintedBy, hcall]
  have hburn : burntBy ⟨s, c, (), t⟩ = 0 := by rw [burntBy, hcall]
  have hnonce : ∀ n, mintsWith n (calls ++ [⟨s, c, (), t⟩]) =
      mintsWith n calls + if nonce = n then 1 else 0 := by
    intro n
    rw [mintsWith_concat, mintNonce?, hcall]
    simp only [Option.some.injEq]
  have hnew : mintsWith nonce calls = 0 := by
    refine Nat.eq_zero_of_not_pos fun hpos => ?_
    rw [(haccounted.used nonce).mpr hpos] at hfresh
    cases hfresh
  refine ⟨?_, hsupply ▸ hcap, hsupply ▸ hbacks, fun n => ?_, fun n => ?_⟩
  · have hbefore := haccounted.supply
    rw [totalOf_concat, totalOf_concat, hmint, hburn, hsupply]
    omega
  · rw [hused, hnonce, Function.update_apply]
    by_cases hn : n = nonce
    · rw [if_pos hn, if_pos hn.symm]
      exact iff_of_true rfl (Nat.succ_pos _)
    · rw [if_neg hn, if_neg (Ne.symm hn), Nat.add_zero]
      exact haccounted.used n
  · rw [hnonce]
    by_cases hn : nonce = n
    · rw [if_pos hn, ← hn, hnew]
    · rw [if_neg hn]
      exact haccounted.once n

theorem Accounted.step (haccounted : Accounted calls s) (hstep : Step c s t) :
    Accounted (calls ++ [⟨s, c, (), t⟩]) t := by
  have hbefore := haccounted.supply
  cases hstep with
  | mint hcall hfresh hcap hsupply hused hbacks =>
      exact haccounted.mint hcall hfresh hcap hsupply hused (hbacks _ haccounted.backs)
  | @burn amount hcall hmint hburn source hle hsupply hused hbacks =>
      have hcovered : amount ≤ s.totalSupply := hle.trans (haccounted.backs.le source)
      -- the unchecked subtraction does not wrap: the balances are within the supply
      have hsub : t.totalSupply = s.totalSupply - amount := by
        rw [hsupply, uncheckedSub_of_le hcovered (Nat.lt_of_le_of_lt haccounted.cap maxSupply_lt)]
      refine ⟨?_, ?_, ?_, fun nonce => ?_, fun nonce => ?_⟩
      · rw [totalOf_concat, totalOf_concat, hmint, hburn, hsub]
        omega
      · rw [hsub]
        exact (Nat.sub_le _ _).trans haccounted.cap
      · rw [hsub]
        exact hbacks _ haccounted.backs
      · rw [hused, mintsWith_of_none hcall]
        exact haccounted.used nonce
      · rw [mintsWith_of_none hcall]
        exact haccounted.once nonce
  | other hcall hmint hburn hsupply hused hbacks =>
      refine ⟨?_, hsupply ▸ haccounted.cap, ?_, fun nonce => ?_, fun nonce => ?_⟩
      · rw [totalOf_concat, totalOf_concat, hmint, hburn, hsupply]
        exact hbefore
      · rw [hsupply]
        exact hbacks _ haccounted.backs
      · rw [hused, mintsWith_of_none hcall]
        exact haccounted.used nonce
      · rw [mintsWith_of_none hcall]
        exact haccounted.once nonce

theorem deploy_accounted (admin bridge : Address) : Accounted [] (deploy admin bridge) where
  supply := rfl
  cap := Nat.zero_le _
  backs := .zero 0
  used := fun nonce => iff_of_false (fun h => by cases h) (Nat.lt_irrefl 0)
  once := fun nonce => Nat.zero_le _

variable {admin bridge : Address}

theorem run_accounted (hrun : Runs (deploy admin bridge) calls t) : Accounted calls t := by
  refine hrun.invariant (I := Accounted) (deploy_accounted admin bridge) ?_ ?_
  · intro calls c t u v haccounted hexec
    exact haccounted.step (exec_step hexec)
  · intro calls t u haccounted helsewhere
    cases helsewhere with
    | roles hasRole =>
        exact ⟨haccounted.supply, haccounted.cap, haccounted.backs, haccounted.used, haccounted.once⟩

/-- The supply stays under its cap and is what was minted less what was burnt, and a bridge nonce is
used exactly if a mint had it, which then is the only one. -/
theorem supply_safe (hrun : Runs (deploy admin bridge) calls t) :
    t.totalSupply ≤ maxSupply ∧ (∀ nonce, mintsWith nonce calls ≤ 1) ∧
      (∀ nonce, t.usedNonces nonce = true ↔ ∃ taken ∈ calls, mintNonce? taken = some nonce) ∧
      t.totalSupply + totalOf burntBy calls = totalOf mintedBy calls := by
  have haccounted := run_accounted hrun
  refine ⟨haccounted.cap, haccounted.once, fun nonce => ?_, haccounted.supply⟩
  rw [haccounted.used, mintsWith, List.countP_pos_iff]
  simp only [decide_eq_true_eq]

/-- No account holds more than there is. -/
theorem balance_le_supply (hrun : Runs (deploy admin bridge) calls t) (a : Address) :
    t.erc20.balanceOf a ≤ t.totalSupply := (run_accounted hrun).backs.le a

end Runs

/-! ### A sample run -/

/-- Bridge `2` mints a thousand NMC for account `3`, which burns one. -/
def sampleCalls : List Call :=
  [⟨⟨2, 1700000000⟩, .bridgeMint 3 (1000 * 10 ^ 18) 1⟩, ⟨⟨3, 1700000000⟩, .burn (10 ^ 18)⟩]

theorem supply_safe_burnt : ∃ calls t, Runs (deploy 1 2) calls t ∧
    calls.map Taken.call = sampleCalls ∧ t.totalSupply ≤ maxSupply ∧
    (∀ nonce, mintsWith nonce calls ≤ 1) ∧
    (∀ nonce, t.usedNonces nonce = true ↔ ∃ taken ∈ calls, mintNonce? taken = some nonce) ∧
    t.totalSupply + totalOf burntBy calls = totalOf mintedBy calls := by
  obtain ⟨calls, t, hreplay, hcalls⟩ : ∃ calls t,
      replay Call.exec sampleCalls (deploy 1 2) = .ok (calls, t) ∧
        calls.map Taken.call = sampleCalls := ⟨_, _, rfl, rfl⟩
  have hrun : Runs (deploy 1 2) calls t := .of_replay hreplay
  exact ⟨calls, t, hrun, hcalls, supply_safe hrun⟩

end NmcToken

end NeuralMesh.Evm
