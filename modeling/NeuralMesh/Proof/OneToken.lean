import NeuralMesh.Evm.MintHook
import NeuralMesh.Proof.ProviderTokens

/-!
# One token for each provider

A mint looks for a token of its provider before the hook and writes the mappings after it. The hook
may have another token minted for the same provider: then that token is left with its owner, and
without an entry, for good.
-/

namespace NeuralMesh.Evm.Deployment

/-- Nobody owns two tokens, and the two mappings and the owners agree. -/
structure OneTokenEach (s : ProviderNft) : Prop where
  atMostOne : ∀ owner, owner ≠ 0 → ∀ x y, s.ownerOf x = owner → s.ownerOf y = owner → x = y
  named : ∀ provider, provider ≠ 0 → ∀ x,
    s.providerTokenId provider = x ∧ x ≠ 0 ↔ s.tokenProvider x = provider
  owned : ∀ provider, provider ≠ 0 → ∀ x, s.tokenProvider x = provider ↔ s.ownerOf x = provider

/-- Where a hook returns, its provider still has no entry. -/
def StillNew (taken : Taken Step Underway (Option Nat)) : Prop :=
  match taken.call, taken.before.waiting with
  | .received, w :: _ => taken.before.now.nft.providerTokenId w.mint.provider = 0
  | _, _ => True

section Effects

variable {chain : Chain} {msg : Message} {mint : Mint} {s t : Deployment} {tokenId : Nat}
  {o : Option Nat} {provider : Address}

/-- The storage when the hook is called. -/
def begun (mint : Mint) (s : Deployment) : Deployment :=
  { s with
    nft := ProviderNft.moved mint.provider s.nft.nextTokenId
      { s.nft with nextTokenId := s.nft.nextTokenId + 1 } }

theorem mintTo_eq_ok {dest : Address} {n n' : ProviderNft} : n.mintTo dest tokenId = .ok n' ↔
    dest ≠ 0 ∧ n.ownerOf tokenId = 0 ∧ n' = n.moved dest tokenId := by
  simp only [ProviderNft.mintTo, bind_eq_ok, ensure_eq_ok, pure_eq_ok, exists_const, Prod.exists,
    ProviderNft.update_eq_ok]
  constructor
  · intro h
    obtain ⟨hdest, _, _, ⟨_, rfl, rfl⟩, hnew, rfl⟩ := h
    exact ⟨hdest, hnew, rfl⟩
  · intro h
    obtain ⟨hdest, hnew, rfl⟩ := h
    exact ⟨hdest, _, _, ⟨.inl hnew, rfl, rfl⟩, hnew, rfl⟩

theorem beginMint_ok (hexec : beginMint msg mint s = .ok (tokenId, t)) :
    s.nft.providerTokenId mint.provider = 0 ∧ mint.provider ≠ 0 ∧ tokenId = s.nft.nextTokenId ∧
      t = begun mint s := by
  simp only [beginMint, bind_eq_ok, ensure_eq_ok, pure_eq_ok, exists_const, Prod.exists,
    ProviderNft.takeTokenId_eq_ok, mintTo_eq_ok, Prod.mk.injEq] at hexec
  obtain ⟨_, hnew, _, _, _, _, ⟨_, rfl, rfl⟩, _, ⟨hdest, _, rfl⟩, rfl, rfl⟩ := hexec
  exact ⟨hnew, hdest, rfl, rfl⟩

/-- `mintProvider` is its two parts, where the hook takes the token and calls nothing. -/
theorem mintProvider_eq_ok : mintProvider chain msg mint s = .ok (o, t) ↔
    ∃ tokenId u, beginMint msg mint s = .ok (tokenId, u) ∧ chain.acceptsToken mint.provider ∧
      o = some tokenId ∧ t = endMint ⟨msg, mint, tokenId⟩ u := by
  simp only [mintProvider, beginMint, bind_eq_ok, ensure_eq_ok, pure_eq_ok, exists_const,
    Prod.exists, ProviderNft.takeTokenId_eq_ok, ProviderNft.safeMint_eq_ok, mintTo_eq_ok,
    Prod.mk.injEq]
  constructor
  · intro h
    obtain ⟨hrole, hnew, hregistered, hcommitment, _, _, ⟨hlt, rfl, rfl⟩, _,
      ⟨hdest, hfree, haccepts, rfl⟩, rfl, rfl⟩ := h
    exact ⟨_, _, ⟨hrole, hnew, hregistered, hcommitment, _, _, ⟨hlt, rfl, rfl⟩, _,
      ⟨hdest, hfree, rfl⟩, rfl, rfl⟩, haccepts, rfl, rfl⟩
  · intro h
    obtain ⟨_, _, ⟨hrole, hnew, hregistered, hcommitment, _, _, ⟨hlt, rfl, rfl⟩, _,
      ⟨hdest, hfree, rfl⟩, rfl, rfl⟩, haccepts, rfl, rfl⟩ := h
    exact ⟨hrole, hnew, hregistered, hcommitment, _, _, ⟨hlt, rfl, rfl⟩, _,
      ⟨hdest, hfree, haccepts, rfl⟩, rfl, rfl⟩

/-- A call that nothing reenters is a run of its steps. -/
theorem hookRuns_of_exec {c : Call} (hexec : c.exec chain s = .ok (o, t)) :
    ∃ steps, HookRuns chain ⟨s, []⟩ steps ⟨t, []⟩ := by
  obtain ⟨msg, method⟩ := c
  have hother : Step.exec chain (.call ⟨msg, method⟩) ⟨s, []⟩ = .ok (o, ⟨t, []⟩) →
      ∃ steps, HookRuns chain ⟨s, []⟩ steps ⟨t, []⟩ := fun hstep => ⟨_, (CallRun.nil _).call hstep⟩
  cases method with
  | mintProvider mint =>
      obtain ⟨tokenId, u, hbegin, _, rfl, rfl⟩ := mintProvider_eq_ok.mp hexec
      refine ⟨_, ((CallRun.nil _).call (o := none) (c := .call ⟨msg, .mintProvider mint⟩)
        (u := ⟨u, [⟨msg, mint, tokenId⟩]⟩) ?_).call (c := .received) rfl⟩
      rw [Step.exec, hbegin]
      rfl
  | verifier method =>
      refine hother ?_
      rw [Step.exec, hexec]
      · rfl
      · rintro _ _ ⟨⟩
  | slashProvider provider =>
      refine hother ?_
      rw [Step.exec, hexec]
      · rfl
      · rintro _ _ ⟨⟩
  | transferFrom dest tokenId =>
      refine hother ?_
      rw [Step.exec, hexec]
      · rfl
      · rintro _ _ ⟨⟩

end Effects

/-! ### What the tokens are like within a transaction -/

/-- Entries of the mappings belong to owners; a waiting mint has a token without an entry. -/
structure Booked (s : ProviderNft) (waiting : List Waiting) : Prop where
  next : 0 < s.nextTokenId
  zero : s.ownerOf 0 = 0
  unminted : ∀ x, s.nextTokenId ≤ x → s.ownerOf x = 0
  named : ∀ p, s.providerTokenId p ≠ 0 → p ≠ 0 ∧ s.ownerOf (s.providerTokenId p) = p ∧
    s.tokenProvider (s.providerTokenId p) = p
  provider : ∀ x, s.tokenProvider x ≠ 0 → s.ownerOf x = s.tokenProvider x
  held : ∀ w ∈ waiting, w.mint.provider ≠ 0 ∧ s.ownerOf w.tokenId = w.mint.provider ∧
    s.tokenProvider w.tokenId = 0
  each : (waiting.map Waiting.tokenId).Nodup

/-- A token that is owned has its entry, or its mint is waiting. -/
def Settled (s : ProviderNft) (waiting : List Waiting) : Prop :=
  ∀ x, s.ownerOf x ≠ 0 →
    (∃ w ∈ waiting, w.tokenId = x) ∨ s.providerTokenId (s.ownerOf x) = x

/-- What a step does. -/
inductive StepEffect (step : Step) (s t : Underway) : Prop
  | other (hstep : step ≠ .received) (hnft : t.now.nft = s.now.nft) (hwaiting : t.waiting = s.waiting)
  | begin (hstep : step ≠ .received) (msg : Message) (mint : Mint)
      (hnew : s.now.nft.providerTokenId mint.provider = 0) (hdest : mint.provider ≠ 0)
      (hafter : t = ⟨begun mint s.now, ⟨msg, mint, s.now.nft.nextTokenId⟩ :: s.waiting⟩)
  | slash (hstep : step ≠ .received) (provider : Address)
      (htoken : s.now.nft.providerTokenId provider ≠ 0)
      (hafter : t = ⟨afterSlash provider s.now, s.waiting⟩)
  | received (hstep : step = .received) (w : Waiting) (rest : List Waiting)
      (hwaiting : s.waiting = w :: rest) (hafter : t = ⟨endMint w s.now, rest⟩)

section Steps

variable {chain : Chain} {step : Step} {s t : Underway} {o : Option Nat}

theorem step_effect (hexec : step.exec chain s = .ok (o, t)) : StepEffect step s t := by
  unfold Step.exec at hexec
  split at hexec
  · rename_i msg mint
    simp only [bind_eq_ok, mapError_eq_ok, pure_eq_ok, Prod.exists, Prod.mk.injEq] at hexec
    obtain ⟨tokenId, now, hbegin, _, rfl⟩ := hexec
    obtain ⟨hnew, hdest, rfl, rfl⟩ := beginMint_ok hbegin
    exact .begin (by rintro ⟨⟩) msg mint hnew hdest rfl
  · rename_i c hnot
    simp only [bind_eq_ok, mapError_eq_ok, pure_eq_ok, Prod.exists, Prod.mk.injEq] at hexec
    obtain ⟨o', now, hcall, _, rfl⟩ := hexec
    cases exec_effect hcall with
    | verifier _ _ hafter => exact .other (by rintro ⟨⟩) (by rw [hafter]) rfl
    | mint hmint =>
        obtain ⟨msg, method⟩ := c
        cases hmint
        exact absurd rfl (hnot msg _)
    | slash _ htoken hafter => exact .slash (by rintro ⟨⟩) _ htoken (by rw [hafter])
  · split at hexec
    · cases hexec
    · rename_i w rest hwaiting
      cases hexec
      exact .received rfl w rest hwaiting rfl

end Steps

/-! ### The books -/

section Books

variable {s : Deployment} {waiting rest : List Waiting} {mint : Mint} {w : Waiting}
  {provider : Address} {x : Nat}

theorem begun_ownerOf : (begun mint s).nft.ownerOf x =
    if x = s.nft.nextTokenId then mint.provider else s.nft.ownerOf x :=
  Function.update_apply _ _ _ _

theorem begun_tokenId (p : Address) :
    (begun mint s).nft.providerTokenId p = s.nft.providerTokenId p := rfl

theorem endMint_ownerOf : (endMint w s).nft.ownerOf x = s.nft.ownerOf x := rfl

theorem endMint_tokenId (p : Address) : (endMint w s).nft.providerTokenId p =
    if p = w.mint.provider then w.tokenId else s.nft.providerTokenId p :=
  Function.update_apply _ _ _ _

theorem endMint_tokenProvider : (endMint w s).nft.tokenProvider x =
    if x = w.tokenId then w.mint.provider else s.nft.tokenProvider x :=
  Function.update_apply _ _ _ _

theorem afterSlash_tokenProvider : (afterSlash provider s).nft.tokenProvider x =
    if x = s.nft.providerTokenId provider then 0 else s.nft.tokenProvider x :=
  Function.update_apply _ _ _ _

namespace Booked

theorem ne_next {n : ProviderNft} (hbooked : Booked n waiting) (howned : n.ownerOf x ≠ 0) :
    x ≠ n.nextTokenId := by
  rintro rfl
  exact howned (hbooked.unminted _ le_rfl)

theorem provider_ne_next {n : ProviderNft} (hbooked : Booked n waiting)
    (hentry : n.tokenProvider x ≠ 0) : x ≠ n.nextTokenId := by
  refine hbooked.ne_next ?_
  rw [hbooked.provider x hentry]
  exact hentry

/-- A waiting token is in no entry. -/
theorem tokenId_ne {n : ProviderNft} (hbooked : Booked n waiting) (hmem : w ∈ waiting)
    (p : Address) : n.providerTokenId p ≠ w.tokenId := by
  obtain ⟨hdest, howner, hentry⟩ := hbooked.held w hmem
  intro heq
  by_cases hzero : n.providerTokenId p = 0
  · rw [← heq, hzero, hbooked.zero] at howner
    exact hdest howner.symm
  · obtain ⟨hp, _, hprovider⟩ := hbooked.named p hzero
    rw [heq, hentry] at hprovider
    exact hp hprovider.symm

theorem begin (hbooked : Booked s.nft waiting) (hdest : mint.provider ≠ 0) (msg : Message) :
    Booked (begun mint s).nft (⟨msg, mint, s.nft.nextTokenId⟩ :: waiting) where
  next := Nat.succ_pos _
  zero := by
    rw [begun_ownerOf, if_neg hbooked.next.ne, hbooked.zero]
  unminted := by
    intro x hle
    have hlt : s.nft.nextTokenId < x := hle
    rw [begun_ownerOf, if_neg hlt.ne', hbooked.unminted x hlt.le]
  named := by
    intro p hentry
    rw [begun_tokenId] at hentry ⊢
    obtain ⟨hp, howner, hprovider⟩ := hbooked.named p hentry
    rw [begun_ownerOf, if_neg (hbooked.ne_next (by rw [howner]; exact hp))]
    exact ⟨hp, howner, hprovider⟩
  provider := by
    intro x hentry
    rw [begun_ownerOf, if_neg (hbooked.provider_ne_next hentry)]
    exact hbooked.provider x hentry
  held := by
    intro w hmem
    rw [begun_ownerOf]
    rcases List.mem_cons.mp hmem with rfl | hmem
    · rw [if_pos rfl]
      refine ⟨hdest, rfl, ?_⟩
      by_contra hentry
      exact hbooked.provider_ne_next hentry rfl
    · obtain ⟨hprovider, howner, hentry⟩ := hbooked.held w hmem
      rw [if_neg (hbooked.ne_next (by rw [howner]; exact hprovider))]
      exact ⟨hprovider, howner, hentry⟩
  each := by
    rw [List.map_cons, List.nodup_cons]
    refine ⟨fun hmem => ?_, hbooked.each⟩
    obtain ⟨w, hmem, heq⟩ := List.mem_map.mp hmem
    obtain ⟨hprovider, howner, _⟩ := hbooked.held w hmem
    exact hbooked.ne_next (by rw [howner]; exact hprovider) heq

theorem slash (hbooked : Booked s.nft waiting) (htoken : s.nft.providerTokenId provider ≠ 0) :
    Booked (afterSlash provider s).nft waiting where
  next := hbooked.next
  zero := by
    rw [afterSlash_ownerOf, if_neg htoken.symm, hbooked.zero]
  unminted := by
    intro x hle
    rw [afterSlash_ownerOf]
    split
    · rfl
    · exact hbooked.unminted x hle
  named := by
    intro p hentry
    rw [afterSlash_tokenId] at hentry ⊢
    split at hentry
    · exact absurd rfl hentry
    · rename_i hne
      obtain ⟨hp, howner, hprovider⟩ := hbooked.named p hentry
      have hother : s.nft.providerTokenId p ≠ s.nft.providerTokenId provider := by
        intro heq
        rw [heq, (hbooked.named provider htoken).2.1] at howner
        exact hne howner.symm
      rw [if_neg hne, afterSlash_ownerOf, afterSlash_tokenProvider, if_neg hother, if_neg hother]
      exact ⟨hp, howner, hprovider⟩
  provider := by
    intro x hentry
    rw [afterSlash_tokenProvider] at hentry ⊢
    rw [afterSlash_ownerOf]
    split at hentry
    · exact absurd rfl hentry
    · rename_i hne
      rw [if_neg hne, if_neg hne]
      exact hbooked.provider x hentry
  held := by
    intro w hmem
    rw [afterSlash_ownerOf, afterSlash_tokenProvider,
      if_neg (hbooked.tokenId_ne hmem provider).symm, if_neg (hbooked.tokenId_ne hmem provider).symm]
    exact hbooked.held w hmem
  each := hbooked.each

theorem received (hbooked : Booked s.nft (w :: rest)) : Booked (endMint w s).nft rest where
  next := hbooked.next
  zero := hbooked.zero
  unminted := hbooked.unminted
  named := by
    intro p hentry
    obtain ⟨hdest, howner, hfree⟩ := hbooked.held w List.mem_cons_self
    rw [endMint_tokenId] at hentry ⊢
    rw [endMint_tokenProvider]
    split
    · rename_i hp
      rw [if_pos rfl, hp]
      exact ⟨hdest, howner, rfl⟩
    · rename_i hp
      rw [if_neg hp] at hentry
      rw [if_neg (hbooked.tokenId_ne List.mem_cons_self p)]
      exact hbooked.named p hentry
  provider := by
    intro x hentry
    rw [endMint_tokenProvider] at hentry ⊢
    split
    · rename_i hx
      rw [hx]
      exact (hbooked.held w List.mem_cons_self).2.1
    · rename_i hx
      rw [if_neg hx] at hentry
      exact hbooked.provider x hentry
  held := by
    intro w' hmem
    have heach := hbooked.each
    rw [List.map_cons, List.nodup_cons] at heach
    have hne : w'.tokenId ≠ w.tokenId := fun heq =>
      heach.1 (heq ▸ List.mem_map_of_mem hmem)
    rw [endMint_tokenProvider, if_neg hne]
    exact hbooked.held w' (List.mem_cons_of_mem w hmem)
  each := by
    have heach := hbooked.each
    rw [List.map_cons, List.nodup_cons] at heach
    exact heach.2

/-- Between two transactions the entries are exactly those of the owners. -/
theorem oneTokenEach_iff_settled {n : ProviderNft} (hbooked : Booked n []) :
    OneTokenEach n ↔ Settled n [] := by
  constructor
  · intro hone x howned
    have hentry := (hone.owned _ howned x).mpr rfl
    exact .inr ((hone.named _ howned x).mpr hentry).1
  · intro hsettled
    have hnamed : ∀ x, n.ownerOf x ≠ 0 → n.providerTokenId (n.ownerOf x) = x := by
      intro x howned
      rcases hsettled x howned with ⟨w, hmem, _⟩ | hentry
      · cases hmem
      · exact hentry
    have howned : ∀ p, p ≠ 0 → ∀ x, n.ownerOf x = p → n.providerTokenId p = x ∧ x ≠ 0 := by
      rintro _ hp x rfl
      refine ⟨hnamed x hp, ?_⟩
      rintro rfl
      exact hp hbooked.zero
    have hprovider : ∀ p, p ≠ 0 → ∀ x, n.providerTokenId p = x ∧ x ≠ 0 → n.tokenProvider x = p := by
      rintro p _ x ⟨rfl, hx⟩
      exact (hbooked.named p hx).2.2
    have howner : ∀ p, p ≠ 0 → ∀ x, n.tokenProvider x = p → n.ownerOf x = p := by
      rintro _ hp x rfl
      exact hbooked.provider x hp
    refine ⟨fun a ha x y hx hy => ?_, fun p hp x => ?_, fun p hp x => ?_⟩
    · rw [← (howned a ha x hx).1, (howned a ha y hy).1]
    · exact ⟨hprovider p hp x, fun h => howned p hp x (howner p hp x h)⟩
    · exact ⟨howner p hp x, fun h => hprovider p hp x (howned p hp x h)⟩

end Booked

theorem settled_begin (hbooked : Booked s.nft waiting) (msg : Message) :
    Settled (begun mint s).nft (⟨msg, mint, s.nft.nextTokenId⟩ :: waiting) ↔
      Settled s.nft waiting := by
  constructor
  · intro h x howned
    have hx := hbooked.ne_next howned
    have hlater := h x
    rw [begun_ownerOf, if_neg hx] at hlater
    rcases hlater howned with ⟨w, hmem, heq⟩ | hentry
    · rcases List.mem_cons.mp hmem with rfl | hmem
      · exact absurd heq.symm hx
      · exact .inl ⟨w, hmem, heq⟩
    · exact .inr hentry
  · intro h x howned
    rw [begun_ownerOf] at howned ⊢
    by_cases hx : x = s.nft.nextTokenId
    · exact .inl ⟨_, List.mem_cons_self, hx.symm⟩
    · rw [if_neg hx] at howned ⊢
      rcases h x howned with ⟨w, hmem, heq⟩ | hentry
      · exact .inl ⟨w, List.mem_cons_of_mem _ hmem, heq⟩
      · exact .inr hentry

theorem settled_slash (hbooked : Booked s.nft waiting)
    (htoken : s.nft.providerTokenId provider ≠ 0) :
    Settled (afterSlash provider s).nft waiting ↔ Settled s.nft waiting := by
  have howner := (hbooked.named provider htoken).2.1
  constructor
  · intro h x howned
    by_cases hx : x = s.nft.providerTokenId provider
    · exact .inr (by rw [hx, howner])
    · have hlater := h x
      rw [afterSlash_ownerOf, if_neg hx, afterSlash_tokenId] at hlater
      rcases hlater howned with hwaits | hentry
      · exact .inl hwaits
      · split at hentry
        · rw [← hentry, hbooked.zero] at howned
          exact absurd rfl howned
        · exact .inr hentry
  · intro h x howned
    rw [afterSlash_ownerOf] at howned ⊢
    split at howned
    · exact absurd rfl howned
    · rename_i hx
      rw [if_neg hx, afterSlash_tokenId]
      rcases h x howned with hwaits | hentry
      · exact .inl hwaits
      · rw [if_neg fun heq => hx (by rw [← heq, hentry])]
        exact .inr hentry

/-- A token is left without its entry exactly where the hook returns to a provider that has one. -/
theorem settled_received (hbooked : Booked s.nft (w :: rest)) :
    Settled (endMint w s).nft rest ↔
      Settled s.nft (w :: rest) ∧ s.nft.providerTokenId w.mint.provider = 0 := by
  obtain ⟨hdest, howner, _⟩ := hbooked.held w List.mem_cons_self
  constructor
  · intro h
    refine ⟨fun x howned => ?_, ?_⟩
    · have hlater := h x howned
      rw [endMint_tokenId] at hlater
      rcases hlater with ⟨w', hmem, heq⟩ | hentry
      · exact .inl ⟨w', List.mem_cons_of_mem w hmem, heq⟩
      · split at hentry
        · exact .inl ⟨w, List.mem_cons_self, hentry⟩
        · exact .inr hentry
    · by_contra hentry
      have howner' := (hbooked.named _ hentry).2.1
      have hlater := h (s.nft.providerTokenId w.mint.provider) (by
        rw [endMint_ownerOf, howner']
        exact hdest)
      rcases hlater with ⟨w', hmem, heq⟩ | hother
      · exact hbooked.tokenId_ne (List.mem_cons_of_mem w hmem) _ heq.symm
      · rw [endMint_tokenId, endMint_ownerOf, if_pos howner'] at hother
        exact hbooked.tokenId_ne List.mem_cons_self _ hother.symm
  · intro ⟨h, hnone⟩ x howned
    rw [endMint_tokenId]
    rcases h x howned with ⟨w', hmem, heq⟩ | hentry
    · rcases List.mem_cons.mp hmem with rfl | hmem
      · right
        rw [if_pos]
        · exact heq
        · rw [← heq]
          exact howner
      · exact .inl ⟨w', hmem, heq⟩
    · right
      rw [if_neg]
      · exact hentry
      · intro heq
        have hzero : x = 0 := by
          rw [← hentry]
          exact (congrArg s.nft.providerTokenId heq).trans hnone
        rw [hzero] at howned
        exact howned hbooked.zero

end Books

/-! ### Any run -/

section Runs

variable {chain : Chain} {step : Step} {s t u : Underway} {o : Option Nat}
  {calls : List (Taken Step Underway (Option Nat))} {v : QuantumVerifier} {admin minter : Address}

theorem stillNew_of_ne (hstep : step ≠ .received) : StillNew ⟨s, step, o, t⟩ := by
  cases step with
  | call c => trivial
  | received => exact absurd rfl hstep

theorem StepEffect.booked (heffect : StepEffect step s t) (hbooked : Booked s.now.nft s.waiting) :
    Booked t.now.nft t.waiting := by
  cases heffect with
  | other _ hnft hwaiting =>
      rw [hnft, hwaiting]
      exact hbooked
  | begin _ msg mint _ hdest hafter =>
      rw [hafter]
      exact hbooked.begin hdest msg
  | slash _ provider htoken hafter =>
      rw [hafter]
      exact hbooked.slash htoken
  | received _ w rest hwaiting hafter =>
      rw [hafter]
      rw [hwaiting] at hbooked
      exact hbooked.received

theorem StepEffect.settled_iff (heffect : StepEffect step s t)
    (hbooked : Booked s.now.nft s.waiting) :
    Settled t.now.nft t.waiting ↔
      Settled s.now.nft s.waiting ∧ StillNew ⟨s, step, o, t⟩ := by
  cases heffect with
  | other hstep hnft hwaiting =>
      rw [hnft, hwaiting, and_iff_left (stillNew_of_ne hstep)]
  | begin hstep msg mint _ _ hafter =>
      rw [and_iff_left (stillNew_of_ne hstep), hafter]
      exact settled_begin hbooked msg
  | slash hstep provider htoken hafter =>
      rw [and_iff_left (stillNew_of_ne hstep), hafter]
      exact settled_slash hbooked htoken
  | received hstep w rest hwaiting hafter =>
      rw [hwaiting] at hbooked
      rw [hafter, hwaiting, settled_received hbooked, StillNew, hstep, hwaiting]

theorem Elsewhere.booked {waiting : List Waiting} {d d' : Deployment} (helsewhere : Elsewhere d d')
    (hbooked : Booked d.nft waiting) : Booked d'.nft waiting := by
  cases helsewhere with
  | roles hasRole =>
      exact ⟨hbooked.next, hbooked.zero, hbooked.unminted, hbooked.named, hbooked.provider,
        hbooked.held, hbooked.each⟩

theorem Elsewhere.settled_iff {waiting : List Waiting} {d d' : Deployment}
    (helsewhere : Elsewhere d d') : Settled d'.nft waiting ↔ Settled d.nft waiting := by
  cases helsewhere with
  | roles hasRole => rfl

theorem deploy_booked (admin minter : Address) : Booked (ProviderNft.deploy admin minter) [] where
  next := Nat.one_pos
  zero := rfl
  unminted := fun _ _ => rfl
  named := fun _ hentry => absurd rfl hentry
  provider := fun _ hentry => absurd rfl hentry
  held := by
    intro w hmem
    cases hmem
  each := List.nodup_nil

theorem run_booked (hrun : HookRuns chain ⟨⟨v, ProviderNft.deploy admin minter⟩, []⟩ calls t) :
    Booked t.now.nft t.waiting ∧
      (Settled t.now.nft t.waiting ↔ ∀ taken ∈ calls, StillNew taken) := by
  refine hrun.invariant (I := fun calls t => Booked t.now.nft t.waiting ∧
    (Settled t.now.nft t.waiting ↔ ∀ taken ∈ calls, StillNew taken)) ⟨deploy_booked admin minter, ?_⟩
    ?_ ?_
  · refine iff_of_true (fun x howned => absurd rfl howned) fun taken hmem => ?_
    cases hmem
  · intro calls step s o t ⟨hbooked, hsettled⟩ hexec
    have heffect := step_effect hexec
    refine ⟨heffect.booked hbooked, ?_⟩
    rw [heffect.settled_iff (o := o) hbooked, hsettled, List.forall_mem_append,
      List.forall_mem_singleton]
  · intro calls s t ⟨hbooked, hsettled⟩ ⟨helsewhere, hwaiting⟩
    rw [hwaiting, helsewhere.settled_iff]
    exact ⟨helsewhere.booked hbooked, hsettled⟩

/-- The tokens of the first are still with their owners, or burnt. -/
structure KeepsOwners (n n' : ProviderNft) : Prop where
  next : n.nextTokenId ≤ n'.nextTokenId
  owner : ∀ x, x < n.nextTokenId → n'.ownerOf x = n.ownerOf x ∨ n'.ownerOf x = 0

theorem StepEffect.keepsOwners {n : ProviderNft} (heffect : StepEffect step s t)
    (hkeeps : KeepsOwners n s.now.nft) : KeepsOwners n t.now.nft := by
  cases heffect with
  | other _ hnft _ =>
      rw [hnft]
      exact hkeeps
  | begin _ msg mint _ _ hafter =>
      rw [hafter]
      refine ⟨hkeeps.next.trans (Nat.le_succ _), fun x hx => ?_⟩
      rw [begun_ownerOf, if_neg (hx.trans_le hkeeps.next).ne]
      exact hkeeps.owner x hx
  | slash _ provider _ hafter =>
      rw [hafter]
      refine ⟨hkeeps.next, fun x hx => ?_⟩
      rw [afterSlash_ownerOf]
      split
      · exact .inr rfl
      · exact hkeeps.owner x hx
  | received _ w rest _ hafter =>
      rw [hafter]
      exact ⟨hkeeps.next, hkeeps.owner⟩

theorem Elsewhere.keepsOwners {n : ProviderNft} {d d' : Deployment} (helsewhere : Elsewhere d d')
    (hkeeps : KeepsOwners n d.nft) : KeepsOwners n d'.nft := by
  cases helsewhere with
  | roles hasRole => exact ⟨hkeeps.next, hkeeps.owner⟩

theorem run_keepsOwners (hrun : HookRuns chain s calls t) : KeepsOwners s.now.nft t.now.nft := by
  refine hrun.preserves (I := fun u => KeepsOwners s.now.nft u.now.nft)
    ⟨le_rfl, fun _ _ => .inl rfl⟩ ?_ fun _ _ hkeeps helsewhere => helsewhere.1.keepsOwners hkeeps
  exact fun _ _ _ _ hkeeps hexec => (step_effect hexec).keepsOwners hkeeps

/-- A token never has a second owner. -/
theorem owner_eq (hbooked : Booked s.now.nft s.waiting) (hrun : HookRuns chain s calls t) {x : Nat}
    (howned : s.now.nft.ownerOf x ≠ 0) (hlater : t.now.nft.ownerOf x ≠ 0) :
    t.now.nft.ownerOf x = s.now.nft.ownerOf x := by
  have hminted : x < s.now.nft.nextTokenId :=
    Nat.lt_of_not_le fun hle => howned (hbooked.unminted x hle)
  exact ((run_keepsOwners hrun).owner x hminted).resolve_right hlater

/-- Between two transactions everybody has one token, with its entries, exactly when every hook so
far returned to a provider without one; and no token changes its owner. -/
theorem oneTokenEach_iff (hrun : HookRuns chain ⟨⟨v, ProviderNft.deploy admin minter⟩, []⟩ calls t)
    (hdone : t.waiting = []) :
    (OneTokenEach t.now.nft ∧ ∀ later u, HookRuns chain t later u → u.waiting = [] →
      ∀ x, t.now.nft.ownerOf x ≠ 0 → u.now.nft.ownerOf x ≠ 0 →
        u.now.nft.ownerOf x = t.now.nft.ownerOf x) ↔
      ∀ taken ∈ calls, StillNew taken := by
  obtain ⟨hbooked, hsettled⟩ := run_booked hrun
  rw [← hsettled, and_iff_left fun later u hlater _ x => owner_eq hbooked hlater]
  rw [hdone] at hbooked ⊢
  exact hbooked.oneTokenEach_iff_settled

end Runs

/-! ### Sample runs -/

/-- Contract `3` holds the minter's role, and mints itself a token. -/
def selfMint : Step :=
  .call ⟨⟨3, 1700000000⟩,
    .mintProvider ⟨3, "ipfs://Qm...", "apple", "M4 Pro", 64, 20, 0xa, 0xd113, 0x5e⟩⟩

/-- The verifier with the contract attested by oracle `1`. -/
theorem selfMint_ok : ∃ w earlier v calls t, QuantumVerifier.deploy 7 [1] 1 = .ok w ∧
    replay (QuantumVerifier.Call.exec QuantumVerifier.sampleKeccak)
      [QuantumVerifier.sampleApproval 1 0xa] w = .ok (earlier, v) ∧
    replay (Step.exec sampleChain) [selfMint, .received] ⟨⟨v, ProviderNft.deploy 5 3⟩, []⟩ =
      .ok (calls, t) ∧ t.waiting = [] :=
  ⟨_, _, _, _, _, rfl, rfl, rfl, rfl⟩

/-- The hook of the first mint mints again. -/
theorem selfMintTwice_ok : ∃ w earlier v calls t, QuantumVerifier.deploy 7 [1] 1 = .ok w ∧
    replay (QuantumVerifier.Call.exec QuantumVerifier.sampleKeccak)
      [QuantumVerifier.sampleApproval 1 0xa] w = .ok (earlier, v) ∧
    replay (Step.exec sampleChain) [selfMint, selfMint, .received, .received]
      ⟨⟨v, ProviderNft.deploy 5 3⟩, []⟩ = .ok (calls, t) ∧ t.waiting = [] ∧
    t.now.nft.ownerOf 1 = 3 ∧ t.now.nft.ownerOf 2 = 3 :=
  ⟨_, _, _, _, _, rfl, rfl, rfl, rfl, rfl, rfl⟩

/-- The contract has two tokens when the transaction is over. -/
theorem two_tokens : ∃ v calls t,
    HookRuns sampleChain ⟨⟨v, ProviderNft.deploy 5 3⟩, []⟩ calls t ∧ t.waiting = [] ∧
    ¬ OneTokenEach t.now.nft := by
  obtain ⟨_, _, v, calls, t, _, _, hreplay, hdone, hfirst, hsecond⟩ := selfMintTwice_ok
  refine ⟨v, calls, t, .of_replay hreplay, hdone, fun hone => ?_⟩
  have hsame := hone.atMostOne 3 (by decide) 1 2 hfirst hsecond
  exact absurd hsame (by decide)

theorem oneTokenEach_selfMint : ∃ v calls t,
    HookRuns sampleChain ⟨⟨v, ProviderNft.deploy 5 3⟩, []⟩ calls t ∧ t.waiting = [] ∧
    ((OneTokenEach t.now.nft ∧ ∀ later u, HookRuns sampleChain t later u → u.waiting = [] →
        ∀ x, t.now.nft.ownerOf x ≠ 0 → u.now.nft.ownerOf x ≠ 0 →
          u.now.nft.ownerOf x = t.now.nft.ownerOf x) ↔
      ∀ taken ∈ calls, StillNew taken) := by
  obtain ⟨_, _, v, calls, t, _, _, hreplay, hdone⟩ := selfMint_ok
  have hrun : HookRuns sampleChain ⟨⟨v, ProviderNft.deploy 5 3⟩, []⟩ calls t := .of_replay hreplay
  exact ⟨v, calls, t, hrun, hdone, oneTokenEach_iff hrun hdone⟩

end NeuralMesh.Evm.Deployment
