import NeuralMesh.Proof.SolanaSteps

/-!
# Balances of token accounts

What the token programme does to one account: its kind and its owner stay, and the balances move by
the amounts of the payments.
-/

namespace NeuralMesh.Solana

variable {runtime : Runtime} {tx : Tx} {s t u : State} {signers : List Pubkey}
  {mint source dest authority key : Pubkey} {amount : UInt64} {legs : List Transfer}

/-! ### Kinds and owners -/

/-- What the token programme may make of an account. -/
def Retold : Option (Account Record) → Option (Account Record) → Prop
  | some (.token v), b => ∃ w, b = some (.token w) ∧ w.owner = v.owner ∧
      (v.delegate = none → w.delegate = none)
  | some (.mint _), b => ∃ m, b = some (.mint m)
  | a, b => b = a

theorem Retold.refl (a : Option (Account Record)) : Retold a a := by
  unfold Retold
  split
  · exact ⟨_, rfl, rfl, id⟩
  · exact ⟨_, rfl⟩
  · rfl

theorem Retold.trans {a b c : Option (Account Record)} (hfirst : Retold a b)
    (hsecond : Retold b c) : Retold a c := by
  unfold Retold at hfirst ⊢
  split at hfirst
  · obtain ⟨w, rfl, howner, hdelegate⟩ := hfirst
    obtain ⟨x, rfl, howner', hdelegate'⟩ := hsecond
    exact ⟨x, rfl, howner'.trans howner, hdelegate' ∘ hdelegate⟩
  · obtain ⟨m, rfl⟩ := hfirst
    exact hsecond
  · rename_i hother hother'
    subst hfirst
    unfold Retold at hsecond
    split at hsecond
    · exact absurd rfl (hother _)
    · exact absurd rfl (hother' _)
    · exact hsecond

/-- The token programme was at work, and nobody else. -/
def Moved (s t : State) : Prop := ∀ key, Retold (s.read key) (t.read key)

namespace Moved

theorem refl (s : State) : Moved s s := fun _ => .refl _

theorem trans (hfirst : Moved s t) (hsecond : Moved t u) : Moved s u :=
  fun key => (hfirst key).trans (hsecond key)

theorem write (a : Account Record) (hretold : Retold (s.read key) (some a)) :
    Moved s (s.write key a) := by
  intro key'
  rw [Accounts.read_write]
  split
  · rename_i hkey
    exact hkey ▸ hretold
  · exact .refl _

theorem token (hmoved : Moved s t) {v : TokenAccount} (hread : s.read key = some (.token v)) :
    ∃ w, t.read key = some (.token w) ∧ w.owner = v.owner ∧
      (v.delegate = none → w.delegate = none) := by
  have hretold := hmoved key
  rw [hread] at hretold
  exact hretold

theorem data (hmoved : Moved s t) {d : Record} (hread : s.read key = some (.data d)) :
    t.read key = some (.data d) := by
  have hretold := hmoved key
  rw [hread] at hretold
  exact hretold

theorem vacant (hmoved : Moved s t) (hread : s.read key = none) : t.read key = none := by
  have hretold := hmoved key
  rw [hread] at hretold
  exact hretold

/-- What is a record afterwards was one before. -/
theorem data_before (hmoved : Moved s t) {d : Record} (hread : t.read key = some (.data d)) :
    s.read key = some (.data d) := by
  cases hbefore : s.read key with
  | none => cases (hmoved.vacant hbefore).symm.trans hread
  | some a =>
      cases a with
      | mint m =>
          have hretold := hmoved key
          rw [hbefore] at hretold
          obtain ⟨m', hm⟩ := hretold
          cases hm.symm.trans hread
      | token v =>
          obtain ⟨w, hw, _⟩ := hmoved.token hbefore
          cases hw.symm.trans hread
      | data d' => rw [← hmoved.data hbefore, hread]

end Moved

theorem authorize_kept {v w : TokenAccount}
    (hauthorize : v.authorize signers authority amount = .ok w) :
    w.owner = v.owner ∧ (v.delegate = none → w.delegate = none) := by
  unfold TokenAccount.authorize at hauthorize
  split at hauthorize
  · rename_i hdelegate
    simp only [bind_eq_ok, ensure_eq_ok, orFail_eq_ok, pure_eq_ok, exists_const] at hauthorize
    obtain ⟨_, delegatedAmount, _, rfl⟩ := hauthorize
    refine ⟨rfl, fun hnone => ?_⟩
    rw [hdelegate] at hnone
    cases hnone
  · simp only [bind_eq_ok, ensure_eq_ok, pure_eq_ok, exists_const] at hauthorize
    obtain ⟨_, _, rfl⟩ := hauthorize
    exact ⟨rfl, id⟩

/-- Without a delegate only the owner spends. -/
theorem owner_of_authorize {v w : TokenAccount} (hdelegate : v.delegate = none)
    (hauthorize : v.authorize signers authority amount = .ok w) : v.owner = authority := by
  unfold TokenAccount.authorize at hauthorize
  rw [if_neg (by simp [hdelegate])] at hauthorize
  simp only [bind_eq_ok, ensure_eq_ok, pure_eq_ok, exists_const] at hauthorize
  exact hauthorize.1

/-! ### One transfer -/

/-- The tokens in an account; none when it is no token account. -/
def amountAt (s : State) (key : Pubkey) : Nat :=
  match s.read key with
  | some (.token v) => v.amount.toNat
  | _ => 0

theorem amountAt_of_token {v : TokenAccount} (hread : s.read key = some (.token v)) :
    amountAt s key = v.amount.toNat := by
  rw [amountAt, hread]

theorem amountAt_congr (hsame : t.read key = s.read key) : amountAt t key = amountAt s key := by
  rw [amountAt, hsame, amountAt]

theorem amountAt_of_other (hother : ∀ v, s.read key ≠ some (.token v)) : amountAt s key = 0 := by
  unfold amountAt
  split
  · rename_i hread
    exact absurd hread (hother _)
  · rfl

/-- A write that replaces no token account and makes none. -/
theorem amountAt_write {key' : Pubkey} {a : Account Record}
    (hold : ∀ v, s.read key' ≠ some (.token v)) (hnew : ∀ v, a ≠ .token v) :
    amountAt (s.write key' a) key = amountAt s key := by
  by_cases hkey : key = key'
  · subst hkey
    rw [amountAt_of_other hold, amountAt_of_other]
    rw [Accounts.read_write, if_pos rfl]
    simpa using hnew
  · apply amountAt_congr
    rw [Accounts.read_write, if_neg hkey]

/-- What a transfer says and does. -/
theorem transfer_eq_ok (htransfer : s.transfer signers source dest authority amount = .ok t) :
    ∃ src dst spent, s.read source = some (.token src) ∧ s.read dest = some (.token dst) ∧
      amount ≤ src.amount ∧ src.authorize signers authority amount = .ok spent ∧
      (source = dest ∧ t = s ∨
        source ≠ dest ∧ dst.amount.toNat + amount.toNat < 2 ^ 64 ∧
        t = (s.write source (.token { spent with amount := src.amount - amount })).write dest
          (.token { dst with amount := dst.amount + amount })) := by
  unfold Accounts.transfer at htransfer
  simp only [bind_eq_ok, Accounts.token_eq_ok, ensure_eq_ok, exists_const] at htransfer
  obtain ⟨src, hsrc, dst, hdst, _, hfunds, _, spent, hspent, hmoved⟩ := htransfer
  refine ⟨src, dst, spent, hsrc, hdst, hfunds, hspent, ?_⟩
  split at hmoved
  · rename_i hself
    cases hmoved
    exact .inl ⟨hself, rfl⟩
  · rename_i hself
    simp only [bind_eq_ok, orFail_eq_ok, checkedAdd_eq_some, pure_eq_ok] at hmoved
    obtain ⟨_, ⟨hroom, rfl⟩, rfl⟩ := hmoved
    exact .inr ⟨hself, hroom, rfl⟩

theorem transfer_moved (htransfer : s.transfer signers source dest authority amount = .ok t) :
    Moved s t := by
  obtain ⟨src, dst, spent, hsrc, hdst, _, hspent, ⟨_, rfl⟩ | ⟨hself, _, rfl⟩⟩ :=
    transfer_eq_ok htransfer
  · exact .refl _
  · obtain ⟨howner, hdelegate⟩ := authorize_kept hspent
    refine Moved.trans (.write _ ?_) (.write _ ?_)
    · rw [hsrc]
      exact ⟨_, rfl, howner, hdelegate⟩
    · rw [Accounts.read_write, if_neg hself.symm, hdst]
      exact ⟨_, rfl, rfl, id⟩

theorem transfer_self (htransfer : s.transfer signers source source authority amount = .ok t) :
    t = s := by
  obtain ⟨_, _, _, _, _, _, _, ⟨_, rfl⟩ | ⟨hself, _⟩⟩ := transfer_eq_ok htransfer
  · rfl
  · exact absurd rfl hself

theorem amountAt_source (htransfer : s.transfer signers source dest authority amount = .ok t)
    (hself : source ≠ dest) : amountAt t source + amount.toNat = amountAt s source := by
  obtain ⟨src, _, _, hsrc, _, hfunds, _, ⟨hsame, _⟩ | ⟨_, _, rfl⟩⟩ := transfer_eq_ok htransfer
  · exact absurd hsame hself
  · rw [amountAt_of_token hsrc, amountAt, Accounts.read_write, if_neg hself, Accounts.read_write,
      if_pos rfl]
    show (src.amount - amount).toNat + amount.toNat = src.amount.toNat
    rw [UInt64.toNat_sub_of_le _ _ hfunds]
    exact Nat.sub_add_cancel (UInt64.le_iff_toNat_le.mp hfunds)

theorem amountAt_dest (htransfer : s.transfer signers source dest authority amount = .ok t)
    (hself : source ≠ dest) : amountAt t dest = amountAt s dest + amount.toNat := by
  obtain ⟨_, dst, _, _, hdst, _, _, ⟨hsame, _⟩ | ⟨_, hroom, rfl⟩⟩ := transfer_eq_ok htransfer
  · exact absurd hsame hself
  · rw [amountAt_of_token hdst, amountAt, Accounts.read_write, if_pos rfl]
    show (dst.amount + amount).toNat = dst.amount.toNat + amount.toNat
    rw [UInt64.toNat_add, Nat.mod_eq_of_lt hroom]

theorem amountAt_elsewhere (htransfer : s.transfer signers source dest authority amount = .ok t)
    (hsource : key ≠ source) (hdest : key ≠ dest) : amountAt t key = amountAt s key := by
  obtain ⟨_, _, _, _, _, _, _, ⟨_, rfl⟩ | ⟨_, _, rfl⟩⟩ := transfer_eq_ok htransfer
  · rfl
  · apply amountAt_congr
    rw [Accounts.read_write, if_neg hdest, Accounts.read_write, if_neg hsource]

/-! ### A list of payments -/

/-- What the payments bring to the accounts with `p`. -/
def paidInto (p : Pubkey → Prop) [DecidablePred p] (legs : List Transfer) : Nat :=
  ((legs.filter fun leg => p leg.dest).map fun leg => leg.amount.toNat).sum

theorem paidInto_cons (p : Pubkey → Prop) [DecidablePred p] (leg : Transfer)
    (legs : List Transfer) :
    paidInto p (leg :: legs) = (if p leg.dest then leg.amount.toNat else 0) + paidInto p legs := by
  rw [paidInto, List.filter_cons]
  by_cases hdest : p leg.dest
  · rw [if_pos (decide_eq_true hdest), if_pos hdest]
    rfl
  · rw [if_neg (by simp [hdest]), if_neg hdest, paidInto, Nat.zero_add]

/-- Where no payment is empty, nothing is brought exactly when nobody there is paid. -/
theorem paidInto_eq_zero {p : Pubkey → Prop} [DecidablePred p]
    (hpos : ∀ leg ∈ legs, 0 < leg.amount) :
    paidInto p legs = 0 ↔ ∀ leg ∈ legs, ¬ p leg.dest := by
  rw [paidInto, List.sum_eq_zero_iff_forall_eq_nat, List.forall_mem_map]
  constructor
  · intro hzero leg hmem hp
    have hamount := hzero leg (List.mem_filter.mpr ⟨hmem, decide_eq_true hp⟩)
    have hpositive : 0 < leg.amount.toNat := UInt64.lt_iff_toNat_lt.mp (hpos leg hmem)
    omega
  · intro hnone leg hmem
    obtain ⟨hleg, hp⟩ := List.mem_filter.mp hmem
    exact absurd (of_decide_eq_true hp) (hnone leg hleg)

theorem sendAll_moved (hsend : sendAll runtime tx legs s = .ok t) : Moved s t :=
  sendAll_rel Moved.refl Moved.trans transfer_moved hsend

/-- What the source of the payments loses goes to the others. -/
theorem sendAll_amountAt_source (hsource : ∀ leg ∈ legs, leg.source = source)
    (hsend : sendAll runtime tx legs s = .ok t) :
    amountAt t source + paidInto (· ≠ source) legs = amountAt s source := by
  induction legs generalizing s with
  | nil =>
      cases hsend
      rfl
  | cons leg legs ih =>
      simp only [sendAll, send, bind_eq_ok, mapError_eq_ok] at hsend
      obtain ⟨u, ⟨derived, _, hfirst⟩, hrest⟩ := hsend
      obtain ⟨hleg, hlegs⟩ := List.forall_mem_cons.mp hsource
      have hafter := ih hlegs hrest
      rw [paidInto_cons]
      rw [hleg] at hfirst
      by_cases hself : leg.dest = source
      · rw [hself] at hfirst
        rw [transfer_self hfirst] at hafter
        rw [if_neg (not_not_intro hself)]
        omega
      · have hpaid := amountAt_source hfirst (Ne.symm hself)
        rw [if_pos hself]
        omega

/-- Any other account receives what is paid into it. -/
theorem sendAll_amountAt_dest (hsource : ∀ leg ∈ legs, leg.source = source) (hkey : key ≠ source)
    (hsend : sendAll runtime tx legs s = .ok t) :
    amountAt t key = amountAt s key + paidInto (· = key) legs := by
  induction legs generalizing s with
  | nil =>
      cases hsend
      rfl
  | cons leg legs ih =>
      simp only [sendAll, send, bind_eq_ok, mapError_eq_ok] at hsend
      obtain ⟨u, ⟨derived, _, hfirst⟩, hrest⟩ := hsend
      obtain ⟨hleg, hlegs⟩ := List.forall_mem_cons.mp hsource
      have hafter := ih hlegs hrest
      rw [paidInto_cons]
      rw [hleg] at hfirst
      by_cases hdest : leg.dest = key
      · rw [hdest] at hfirst
        have hpaid := amountAt_dest hfirst hkey.symm
        rw [if_pos hdest]
        omega
      · have hsame := amountAt_elsewhere hfirst hkey (Ne.symm hdest)
        rw [if_neg hdest]
        omega

/-! ### Minting and burning -/

theorem mintTo_moved (hmint : s.mintTo signers mint dest authority amount = .ok t) :
    Moved s t := by
  simp only [Accounts.mintTo, bind_eq_ok, Accounts.token_eq_ok, Accounts.mint_eq_ok, ensure_eq_ok,
    orFail_eq_ok, pure_eq_ok, exists_const] at hmint
  obtain ⟨dst, hdst, _, _, m, hm, _, _, _, _, credited, _, supply, _, rfl⟩ := hmint
  have hne : mint ≠ dest := by
    rintro rfl
    cases hm.symm.trans hdst
  refine Moved.trans (.write _ ?_) (.write _ ?_)
  · rw [hdst]
    exact ⟨_, rfl, rfl, id⟩
  · rw [Accounts.read_write, if_neg hne, hm]
    exact ⟨_, rfl⟩

theorem mintTo_amountAt (hmint : s.mintTo signers mint dest authority amount = .ok t)
    (hkey : key ≠ dest) : amountAt t key = amountAt s key := by
  simp only [Accounts.mintTo, bind_eq_ok, Accounts.token_eq_ok, Accounts.mint_eq_ok, ensure_eq_ok,
    orFail_eq_ok, pure_eq_ok, exists_const] at hmint
  obtain ⟨dst, hdst, _, _, m, hm, _, _, _, _, credited, _, supply, _, rfl⟩ := hmint
  have hne : mint ≠ dest := by
    rintro rfl
    cases hm.symm.trans hdst
  rw [amountAt_write]
  · apply amountAt_congr
    rw [Accounts.read_write, if_neg hkey]
  · rw [Accounts.read_write, if_neg hne, hm]
    simp
  · simp

/-- What a burn says and does. -/
theorem burn_eq_ok (hburn : s.burn signers mint source authority amount = .ok t) :
    ∃ src spent m supply, s.read source = some (.token src) ∧ s.read mint = some (.mint m) ∧
      src.authorize signers authority amount = .ok spent ∧
      t = (s.write source (.token { spent with amount := src.amount - amount })).write mint
        (.mint { m with supply }) := by
  simp only [Accounts.burn, bind_eq_ok, Accounts.token_eq_ok, Accounts.mint_eq_ok, ensure_eq_ok,
    orFail_eq_ok, pure_eq_ok, exists_const] at hburn
  obtain ⟨src, hsrc, m, hm, _, _, _, spent, hspent, supply, _, rfl⟩ := hburn
  exact ⟨src, spent, m, supply, hsrc, hm, hspent, rfl⟩

theorem burn_moved (hburn : s.burn signers mint source authority amount = .ok t) : Moved s t := by
  obtain ⟨src, spent, m, supply, hsrc, hm, hspent, rfl⟩ := burn_eq_ok hburn
  obtain ⟨howner, hdelegate⟩ := authorize_kept hspent
  have hne : mint ≠ source := by
    rintro rfl
    cases hm.symm.trans hsrc
  refine Moved.trans (.write _ ?_) (.write _ ?_)
  · rw [hsrc]
    exact ⟨_, rfl, howner, hdelegate⟩
  · rw [Accounts.read_write, if_neg hne, hm]
    exact ⟨_, rfl⟩

theorem burn_amountAt (hburn : s.burn signers mint source authority amount = .ok t)
    (hkey : key ≠ source) : amountAt t key = amountAt s key := by
  obtain ⟨src, spent, m, supply, hsrc, hm, _, rfl⟩ := burn_eq_ok hburn
  have hne : mint ≠ source := by
    rintro rfl
    cases hm.symm.trans hsrc
  rw [amountAt_write]
  · apply amountAt_congr
    rw [Accounts.read_write, if_neg hkey]
  · rw [Accounts.read_write, if_neg hne, hm]
    simp
  · simp

end NeuralMesh.Solana
