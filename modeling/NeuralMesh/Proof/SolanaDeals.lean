import NeuralMesh.Base.Deals
import NeuralMesh.Proof.SolanaEscrow

/-!
# The Solana programme carries out deals

The escrow accounts read as deals, and the instructions as what they do to them. Every run steps the
deals as the protocol allows. The programme takes the accounts it pays from its caller, so what it
sends is what the protocol pays when these are the recorded ones.
-/

namespace NeuralMesh.Solana

def EscrowState.phase : EscrowState → Deals.Phase
  | .open => .offered
  | .locked => .taken
  | .settled => .settled
  | .cancelled => .withdrawn

/-- The deal is between token accounts. -/
def JobEscrow.terms (esc : JobEscrow) : Deals.Terms Pubkey :=
  ⟨esc.consumerTokenAccount, esc.providerTokenAccount, esc.lockedNmc.toNat⟩

def JobEscrow.deal (esc : JobEscrow) : Deals.Terms Pubkey × Deals.Phase :=
  (esc.terms, esc.state.phase)

def escrowAt (s : State) (key : Pubkey) : Option JobEscrow := (s.read key).bind asEscrow

def configAt (s : State) (key : Pubkey) : Option ProgramConfig := (s.read key).bind asConfig

def dealsOf (s : State) : Deals.State Pubkey Pubkey := fun key => (escrowAt s key).map JobEscrow.deal

/-- What an instruction does to the deals, unless it is refused. -/
def acts (taken : Attempted) : List (Deals.Act Pubkey Pubkey) :=
  match taken.output, taken.call.instruction with
  | .ok _, .createEscrow a _ lockedNmc _ _ =>
      [.offer a.escrow ⟨a.consumerTokenAccount, a.providerTokenAccount, lockedNmc.toNat⟩]
  | .ok _, .lockEscrow a => [.take a.escrow]
  | .ok _, .releaseEscrow a actualCost =>
      match escrowAt taken.before a.escrow, configAt taken.before a.config with
      | some esc, some cfg =>
          [.settle a.escrow esc.terms cfg.feeCollector actualCost.toNat cfg.platformFeeBps.toNat]
      | _, _ => []
  | .ok _, .cancelEscrow a =>
      match escrowAt taken.before a.escrow with
      | some esc => [.withdraw a.escrow esc.terms]
      | none => []
  | _, _ => []

/-- What the programme sent out of the escrows, without the empty transfers. -/
def sentBy (taken : Attempted) : List (Pubkey × Nat) :=
  match taken.output with
  | .ok transfers =>
      Deals.sent ((transfers.filter fun p => p.seeds.isSome).map fun p => (p.dest, p.amount.toNat))
  | .error _ => []

/-- A settlement or a cancellation that succeeds is passed the token accounts of the parties. -/
structure PaysParties (taken : Attempted) : Prop where
  released : ∀ transfers a actualCost esc, taken.output = .ok transfers →
    taken.call.instruction = .releaseEscrow a actualCost →
    taken.before.read a.escrow = some (.data (.escrow esc)) →
    a.providerTokenAccount = esc.providerTokenAccount ∧
      a.consumerTokenAccount = esc.consumerTokenAccount
  cancelled : ∀ transfers a esc, taken.output = .ok transfers →
    taken.call.instruction = .cancelEscrow a →
    taken.before.read a.escrow = some (.data (.escrow esc)) →
    a.consumerTokenAccount = esc.consumerTokenAccount

section Deals

variable {runtime : Runtime} {tx : Tx} {s t : State} {transfers : List Transfer} {key : Pubkey}
  {esc : JobEscrow} {cfg : ProgramConfig}

theorem escrowAt_eq_some : escrowAt s key = some esc ↔ s.read key = some (.data (.escrow esc)) := by
  rw [escrowAt, Option.bind_eq_some_iff]
  simp only [asEscrow_eq_some, exists_eq_right]

theorem configAt_eq_some : configAt s key = some cfg ↔ s.read key = some (.data (.config cfg)) := by
  rw [configAt, Option.bind_eq_some_iff]
  simp only [asConfig_eq_some, exists_eq_right]

theorem dealsOf_sameRecords (hsame : s.SameRecords t) : dealsOf t = dealsOf s := by
  funext key
  have hescrow : escrowAt t key = escrowAt s key := by
    refine Option.ext fun esc => ?_
    rw [escrowAt_eq_some, escrowAt_eq_some]
    exact hsame key _
  rw [dealsOf, dealsOf, hescrow]

theorem dealsOf_write_escrow :
    dealsOf (s.write key (.data (.escrow esc))) =
      Function.update (dealsOf s) key (some esc.deal) := by
  funext key'
  rw [dealsOf, escrowAt, Accounts.read_write, Function.update_apply]
  split
  · rfl
  · rfl

/-- Writing anything else where no escrow is. -/
theorem dealsOf_write {a : Account Record} (hfree : escrowAt s key = none)
    (hother : asEscrow a = none) : dealsOf (s.write key a) = dealsOf s := by
  funext key'
  rw [dealsOf, dealsOf, escrowAt, Accounts.read_write]
  split
  · rename_i hkey
    rw [hkey, hfree, Option.bind_some, hother]
  · rfl

theorem escrowAt_none {a : Account Record} (hread : s.read key = some a)
    (hother : asEscrow a = none) : escrowAt s key = none := by
  rw [escrowAt, hread, Option.bind_some, hother]

/-- A new escrow is at an address that had none. -/
theorem dealsOf_opened {a : CreateEscrow}
    (hvault : a.vault ≠ a.escrow ∧ s.read a.vault = none) :
    dealsOf (a.opened s) = Function.update (dealsOf s) a.escrow (some JobEscrow.zeroed.deal) := by
  rw [CreateEscrow.opened, dealsOf_write, dealsOf_write_escrow]
  · rw [escrowAt, Accounts.read_write, if_neg hvault.1, hvault.2, Option.bind_none]
  · rfl

/-- An instruction that succeeds steps the deals as it shows. -/
theorem exec_deals {c : Call} (hsound : ConfigsSound runtime s)
    (hexec : c.exec runtime s = .ok (transfers, t)) :
    Steps Deals.Step (dealsOf s) (acts ⟨s, c, .ok transfers, t⟩) (dealsOf t) := by
  obtain ⟨tx, instruction⟩ := c
  cases instruction with
  | initializeConfig a platformFeeBps bridgeMintLimit =>
      obtain ⟨bump, _, _, _, hvacant, _, _, rfl⟩ := initializeConfig_eq_ok hexec
      rw [dealsOf_write (by rw [escrowAt, hvacant, Option.bind_none]) rfl]
      exact .nil _
  | bridgeMint a amount nonce =>
      obtain ⟨cfg, nonceAcc, u, hcfg, hnonce, _, _, _, _, _, _, _, _, _, hminted, _, _, rfl⟩ :=
        bridgeMint_eq_ok hexec
      have hsame := Accounts.mintTo_sameRecords hminted
      have hcfg' := (hsame _ _).mpr hcfg
      have hnonce' := (hsame _ _).mpr hnonce
      rw [dealsOf_write, dealsOf_write, dealsOf_sameRecords hsame]
      · exact .nil _
      · exact escrowAt_none hcfg' rfl
      · rfl
      · rw [escrowAt, Accounts.read_write]
        split
        · rfl
        · rw [hnonce']
          rfl
      · rfl
  | bridgeBurn a amount =>
      obtain ⟨cfg, u, hcfg, _, _, _, hburned, _, _, rfl⟩ := bridgeBurn_eq_ok hexec
      have hsame := Accounts.burn_sameRecords hburned
      rw [dealsOf_write (escrowAt_none ((hsame _ _).mpr hcfg) rfl) rfl, dealsOf_sameRecords hsame]
      exact .nil _
  | createEscrow a jobId lockedNmc pricePerHour maxDurationSecs =>
      obtain ⟨_, _, _, _, u, _, _, _, hvacant, _, hvault, _, _, _, _, hsend, rfl⟩ :=
        createEscrow_eq_ok hexec
      refine .single ?_
      rw [dealsOf_write_escrow, dealsOf_sameRecords (sendAll_sameRecords hsend),
        dealsOf_opened hvault, Function.update_idem]
      refine .offer _ ?_
      rw [dealsOf, escrowAt, hvacant]
      rfl
  | lockEscrow a =>
      obtain ⟨esc, hesc, _, _, _, hopen, _, rfl⟩ := lockEscrow_eq_ok hexec
      refine .single ?_
      rw [dealsOf_write_escrow]
      refine .take ?_
      rw [dealsOf, escrowAt_eq_some.mpr hesc, Option.map_some, JobEscrow.deal, hopen]
      rfl
  | releaseEscrow a actualCost =>
      obtain ⟨cfg, esc, u, hcfg, hesc, hlocked, hcost, haccepted, _, hsend, rfl⟩ :=
        releaseEscrow_eq_ok hexec
      have hshown : acts ⟨s, ⟨tx, .releaseEscrow a actualCost⟩, .ok transfers,
          u.write a.escrow (.data (.escrow { esc with
            actualCost
            feeCollected := feeOf actualCost cfg.platformFeeBps
            state := .settled
            settledAt := tx.unixTimestamp }))⟩ =
          [.settle a.escrow esc.terms cfg.feeCollector actualCost.toNat cfg.platformFeeBps.toNat] := by
        simp only [acts, escrowAt_eq_some.mpr hesc, configAt_eq_some.mpr hcfg]
      have hrate : cfg.platformFeeBps.toNat ≤ 10000 :=
        (UInt16.le_iff_toNat_le.mp (hsound _ _ hcfg).capped).trans (by decide)
      rw [hshown, dealsOf_write_escrow, dealsOf_sameRecords (sendAll_sameRecords hsend)]
      refine .single (.settle cfg.feeCollector ?_ (UInt64.le_iff_toNat_le.mp hcost) hrate)
      rw [dealsOf, escrowAt_eq_some.mpr hesc, Option.map_some, JobEscrow.deal, hlocked]
      rfl
  | cancelEscrow a =>
      obtain ⟨cfg, esc, u, hcfg, hesc, hlive, haccepted, _, hsend, rfl⟩ := cancelEscrow_eq_ok hexec
      have hshown : acts ⟨s, ⟨tx, .cancelEscrow a⟩, .ok transfers,
          u.write a.escrow (.data (.escrow { esc with state := .cancelled }))⟩ =
          [.withdraw a.escrow esc.terms] := by
        simp only [acts, escrowAt_eq_some.mpr hesc]
      have hphase : esc.state.phase = .offered ∨ esc.state.phase = .taken := by
        rcases hlive with hopen | hlocked
        · rw [hopen]
          exact .inl rfl
        · rw [hlocked]
          exact .inr rfl
      rw [hshown, dealsOf_write_escrow, dealsOf_sameRecords (sendAll_sameRecords hsend)]
      refine .single (.withdraw ?_ hphase)
      rw [dealsOf, escrowAt_eq_some.mpr hesc]
      rfl
  | updateConfig a platformFeeBps bridgeMintLimit =>
      obtain ⟨cfg, hcfg, _, _, _, _, _, rfl⟩ := updateConfig_eq_ok hexec
      rw [dealsOf_write (escrowAt_none hcfg rfl) rfl]
      exact .nil _

/-! ### The payments -/

/-- What the payments out of an escrow bring. -/
def paid (legs : List Transfer) : List (Pubkey × Nat) := legs.map fun p => (p.dest, p.amount.toNat)

theorem sent_nonempty (legs : List Transfer) :
    Deals.sent (paid (legs.filter fun p => 0 < p.amount)) = Deals.sent (paid legs) := by
  rw [Deals.sent, Deals.sent, paid, paid, List.filter_map, List.filter_map, List.filter_filter]
  congr 2
  funext p
  exact Bool.and_self _

/-- A settlement divides what was locked, between the accounts it is passed. -/
theorem sentBy_release {a : ReleaseEscrow} {actualCost : UInt64}
    (hcap : cfg.platformFeeBps ≤ maxFeeBps) (hcost : actualCost ≤ esc.lockedNmc)
    (hfits : actualCost.toNat * cfg.platformFeeBps.toNat < 2 ^ 64) :
    Deals.sent (paid ((a.legs actualCost cfg esc).filter fun p => p.seeds.isSome)) =
      Deals.sent [(a.providerTokenAccount,
          actualCost.toNat - Deals.fee actualCost.toNat cfg.platformFeeBps.toNat),
        (a.feeCollector, Deals.fee actualCost.toNat cfg.platformFeeBps.toNat),
        (a.consumerTokenAccount, esc.lockedNmc.toNat - actualCost.toNat)] := by
  have hsigned : (a.legs actualCost cfg esc).filter (fun p => p.seeds.isSome) =
      a.legs actualCost cfg esc := by
    refine List.filter_eq_self.mpr fun p hmem => ?_
    rcases mem_legs.mp hmem with ⟨_, rfl⟩ | ⟨_, rfl⟩ | ⟨_, rfl⟩
    · rfl
    · rfl
    · rfl
  rw [hsigned, ReleaseEscrow.legs, settlementLegs, sent_nonempty]
  simp only [paid, List.map_cons, List.map_nil, JobEscrow.payment,
    UInt64.toNat_sub_of_le _ _ (feeOf_le hcap hfits), UInt64.toNat_sub_of_le _ _ hcost,
    toNat_feeOf hfits, Deals.fee]

/-- The payments of an attempt are those of its acts, up to the accounts they go to. -/
structure PaysActs (taken : Attempted) : Prop where
  amounts : (sentBy taken).map Prod.snd =
    (Deals.sent ((acts taken).flatMap Deals.Act.payments)).map Prod.snd
  parties : PaysParties taken → sentBy taken = Deals.sent ((acts taken).flatMap Deals.Act.payments)

theorem PaysActs.of_eq {taken : Attempted}
    (hsame : sentBy taken = Deals.sent ((acts taken).flatMap Deals.Act.payments)) :
    PaysActs taken := ⟨congrArg _ hsame, fun _ => hsame⟩

theorem exec_paysActs {c : Call} (hsound : ConfigsSound runtime s)
    (hexec : c.exec runtime s = .ok (transfers, t)) : PaysActs ⟨s, c, .ok transfers, t⟩ := by
  obtain ⟨tx, instruction⟩ := c
  cases instruction with
  | initializeConfig a platformFeeBps bridgeMintLimit =>
      obtain ⟨_, _, _, _, _, _, rfl, _⟩ := initializeConfig_eq_ok hexec
      exact .of_eq rfl
  | bridgeMint a amount nonce =>
      obtain ⟨_, _, _, _, _, _, _, _, _, _, _, _, _, _, _, _, rfl, _⟩ := bridgeMint_eq_ok hexec
      exact .of_eq rfl
  | bridgeBurn a amount =>
      obtain ⟨_, _, _, _, _, _, _, _, rfl, _⟩ := bridgeBurn_eq_ok hexec
      exact .of_eq rfl
  | createEscrow a jobId lockedNmc pricePerHour maxDurationSecs =>
      obtain ⟨_, _, _, _, _, _, _, _, _, _, _, _, _, _, rfl, _⟩ := createEscrow_eq_ok hexec
      exact .of_eq rfl
  | lockEscrow a =>
      obtain ⟨_, _, _, _, _, _, rfl, _⟩ := lockEscrow_eq_ok hexec
      exact .of_eq rfl
  | releaseEscrow a actualCost =>
      obtain ⟨cfg, esc, u, hcfg, hesc, hlocked, hcost, haccepted, rfl, hsend, rfl⟩ :=
        releaseEscrow_eq_ok hexec
      have hsent := sentBy_release (a := a) (hsound _ _ hcfg).capped hcost haccepted.fits
      have hshown : ∀ t, acts ⟨s, ⟨tx, .releaseEscrow a actualCost⟩,
          .ok (a.legs actualCost cfg esc), t⟩ =
          [.settle a.escrow esc.terms cfg.feeCollector actualCost.toNat
            cfg.platformFeeBps.toNat] := fun t => by
        simp only [acts, escrowAt_eq_some.mpr hesc, configAt_eq_some.mpr hcfg]
      refine ⟨?_, fun hparties => ?_⟩
      · rw [hshown]
        refine (congrArg _ hsent).trans ?_
        rw [Deals.map_snd_sent, Deals.map_snd_sent]
        rfl
      · obtain ⟨hprovider, hconsumer⟩ := hparties.released _ _ _ _ rfl rfl hesc
        rw [hshown]
        refine hsent.trans ?_
        rw [hprovider, hconsumer, haccepted.collector]
        rfl
  | cancelEscrow a =>
      obtain ⟨cfg, esc, u, hcfg, hesc, hlive, haccepted, rfl, hsend, rfl⟩ := cancelEscrow_eq_ok hexec
      have hshown : ∀ transfers t, acts ⟨s, ⟨tx, .cancelEscrow a⟩, .ok transfers, t⟩ =
          [.withdraw a.escrow esc.terms] := fun transfers t => by
        simp only [acts, escrowAt_eq_some.mpr hesc]
      refine ⟨?_, fun hparties => ?_⟩
      · rw [hshown, sentBy, Deals.map_snd_sent, Deals.map_snd_sent]
        rfl
      · have hconsumer := hparties.cancelled _ _ _ rfl rfl hesc
        rw [hshown, sentBy, hconsumer]
        rfl
  | updateConfig a platformFeeBps bridgeMintLimit =>
      obtain ⟨_, _, _, _, _, _, rfl, _⟩ := updateConfig_eq_ok hexec
      exact .of_eq rfl

/-- The same of an attempt, which may be refused. -/
theorem attempt_deals {c : Call} {r : Except Failure (List Transfer)}
    (hsound : ConfigsSound runtime s) (hattempt : tryCall (Call.exec runtime) c s = .ok (r, t)) :
    Steps Deals.Step (dealsOf s) (acts ⟨s, c, r, t⟩) (dealsOf t) ∧ PaysActs ⟨s, c, r, t⟩ := by
  rcases tryCall_cases hattempt with ⟨transfers, rfl, hexec⟩ | ⟨e, rfl, _, rfl⟩
  · exact ⟨exec_deals hsound hexec, exec_paysActs hsound hexec⟩
  · exact ⟨.nil _, .of_eq rfl⟩

/-- The programme refines the protocol. -/
theorem refines_deals : Refines (tryCall (Call.exec runtime)) (Elsewhere runtime) Deals.Step
    (fun s deals => ConfigsSound runtime s ∧ deals = dealsOf s) acts fun _ => True where
  call c s r t deals := by
    rintro ⟨hsound, rfl⟩ hattempt _
    exact ⟨dealsOf t, (attempt_deals hsound hattempt).1, hsound.tryCall hattempt, rfl⟩
  env s t deals := by
    rintro ⟨hsound, rfl⟩ helsewhere
    exact ⟨hsound.elsewhere helsewhere, (dealsOf_sameRecords helsewhere.records).symm⟩

end Deals

section Runs

variable {runtime : Runtime} {s t : State} {calls : List Attempted}

theorem Undeployed.dealsOf (hstart : Undeployed s) : Deals.nothing = dealsOf s := by
  funext key
  have hnone : escrowAt s key = none := by
    refine Option.eq_none_iff_forall_ne_some.mpr fun esc hesc => ?_
    exact hstart key _ (escrowAt_eq_some.mp hesc)
  rw [Solana.dealsOf, hnone]
  rfl

theorem run_paysActs (hstart : Undeployed s) (hrun : Runs runtime s calls t) {taken : Attempted}
    (hmem : taken ∈ calls) : PaysActs taken :=
  (attempt_deals (run_configsSound hstart hrun hmem) (hrun.exec_of_mem hmem)).2

theorem programme_history (hstart : Undeployed s) (hrun : Runs runtime s calls t) :
    Deals.History (calls.flatMap acts) (dealsOf t) := by
  obtain ⟨_, hsteps, _, rfl⟩ := refines_deals.run ⟨.of_undeployed hstart, rfl⟩ hrun fun _ _ => trivial
  rw [← hstart.dealsOf] at hsteps
  exact .of_steps hsteps

theorem programme_carriesOut (hstart : Undeployed s) (hrun : Runs runtime s calls t)
    (hparties : ∀ taken ∈ calls, PaysParties taken) :
    Deals.CarriesOut (calls.flatMap acts) (dealsOf t) (calls.flatMap sentBy) := by
  refine ⟨programme_history hstart hrun, ?_⟩
  have hsent := List.flatMap_congr fun taken hmem =>
    (run_paysActs hstart hrun hmem).parties (hparties taken hmem)
  rw [hsent, ← Deals.sent_payments, Deals.sent_sent]

end Runs

end NeuralMesh.Solana
