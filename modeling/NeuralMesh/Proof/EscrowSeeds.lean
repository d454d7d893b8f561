import NeuralMesh.Proof.SolanaEscrow

/-!
# The keys of an escrow

An escrow and its vault are at addresses derived from the job id, and the escrow signs for the vault
by showing its seeds again, rebuilt from the record. The record has room for 64 bytes and keeps them
exactly; a seed has room for 32. So a longer id is admitted, but there is no address for it.
-/

namespace NeuralMesh.Solana

variable {runtime : Runtime} {tx : Tx} {s t u : State} {transfers : List Transfer}
  {calls : List Attempted} {jobId : String} {escrow vault key : Pubkey}

/-! ### What stays of an account -/

/-- What an instruction can make of an account. An escrow keeps its id and its bump, and a token
account its owner; it is not handed to a delegate. -/
def Becomes : Account Record → Account Record → Prop
  | .token v, b => ∃ w, b = .token w ∧ w.owner = v.owner ∧ (v.delegate = none → w.delegate = none)
  | .data (.escrow e), b => ∃ f, b = .data (.escrow f) ∧ f.id = e.id ∧ f.bump = e.bump
  | _, _ => True

theorem Becomes.refl (a : Account Record) : Becomes a a := by
  unfold Becomes
  split
  · exact ⟨_, rfl, rfl, id⟩
  · exact ⟨_, rfl, rfl, rfl⟩
  · trivial

theorem Becomes.trans {a b c : Account Record} (hfirst : Becomes a b) (hsecond : Becomes b c) :
    Becomes a c := by
  unfold Becomes at hfirst ⊢
  split at hfirst
  · obtain ⟨w, rfl, howner, hdelegate⟩ := hfirst
    obtain ⟨x, rfl, howner', hdelegate'⟩ := hsecond
    exact ⟨x, rfl, howner'.trans howner, hdelegate' ∘ hdelegate⟩
  · obtain ⟨f, rfl, hid, hbump⟩ := hfirst
    obtain ⟨g, rfl, hid', hbump'⟩ := hsecond
    exact ⟨g, rfl, hid'.trans hid, hbump'.trans hbump⟩
  · trivial

def Keeps (s t : State) : Prop :=
  ∀ key a, s.read key = some a → ∃ b, t.read key = some b ∧ Becomes a b

namespace Keeps

theorem refl (s : State) : Keeps s s := fun _ a hread => ⟨a, hread, .refl a⟩

theorem trans (hfirst : Keeps s t) (hsecond : Keeps t u) : Keeps s u := by
  intro key a hread
  obtain ⟨b, hb, hab⟩ := hfirst key a hread
  obtain ⟨c, hc, hbc⟩ := hsecond key b hb
  exact ⟨c, hc, hab.trans hbc⟩

/-- Only what was there at first counts, not what has been written since. -/
theorem write (hkeeps : Keeps s t) {new : Account Record}
    (hnew : ∀ old, s.read key = some old → Becomes old new) : Keeps s (t.write key new) := by
  intro key' a hread
  rw [Accounts.read_write]
  split
  · rename_i hkey
    subst hkey
    exact ⟨new, rfl, hnew a hread⟩
  · exact hkeeps key' a hread

theorem write_vacant (hkeeps : Keeps s t) (hvacant : s.read key = none) (new : Account Record) :
    Keeps s (t.write key new) := by
  apply hkeeps.write
  intro old hread
  rw [hvacant] at hread
  cases hread

theorem write_over (hkeeps : Keeps s t) {old new : Account Record} (hread : s.read key = some old)
    (hbecomes : Becomes old new) : Keeps s (t.write key new) := by
  apply hkeeps.write
  intro found hfound
  rw [hread] at hfound
  cases hfound
  exact hbecomes

end Keeps

theorem authorize_becomes {v w : TokenAccount} {signers : List Pubkey} {authority : Pubkey}
    {amount rest : UInt64} (hauthorize : v.authorize signers authority amount = .ok w) :
    Becomes (.token v) (.token { w with amount := rest }) := by
  unfold TokenAccount.authorize at hauthorize
  split at hauthorize
  · rename_i hdelegate
    simp only [bind_eq_ok, ensure_eq_ok, orFail_eq_ok, pure_eq_ok, exists_const] at hauthorize
    obtain ⟨_, delegatedAmount, _, rfl⟩ := hauthorize
    refine ⟨_, rfl, rfl, fun hnone => ?_⟩
    rw [hdelegate] at hnone
    cases hnone
  · simp only [bind_eq_ok, ensure_eq_ok, pure_eq_ok, exists_const] at hauthorize
    obtain ⟨_, _, rfl⟩ := hauthorize
    exact ⟨_, rfl, rfl, id⟩

section Tokens

variable {signers : List Pubkey} {mint source dest authority : Pubkey} {amount : UInt64}

theorem transfer_keeps (htransfer : s.transfer signers source dest authority amount = .ok t) :
    Keeps s t := by
  unfold Accounts.transfer at htransfer
  simp only [bind_eq_ok, Accounts.token_eq_ok, ensure_eq_ok, exists_const] at htransfer
  obtain ⟨src, hsrc, dst, hdst, _, _, _, spent, hspent, hmoved⟩ := htransfer
  split at hmoved
  · cases hmoved
    exact .refl s
  · simp only [bind_eq_ok, orFail_eq_ok, pure_eq_ok] at hmoved
    obtain ⟨credited, _, rfl⟩ := hmoved
    refine Keeps.write_over ?_ hdst ⟨_, rfl, rfl, id⟩
    exact (Keeps.refl s).write_over hsrc (authorize_becomes hspent)

theorem mintTo_keeps (hmint : s.mintTo signers mint dest authority amount = .ok t) :
    Keeps s t := by
  simp only [Accounts.mintTo, bind_eq_ok, Accounts.token_eq_ok, Accounts.mint_eq_ok, ensure_eq_ok,
    orFail_eq_ok, pure_eq_ok, exists_const] at hmint
  obtain ⟨dst, hdst, _, _, m, hm, _, _, _, _, credited, _, supply, _, rfl⟩ := hmint
  refine Keeps.write_over ?_ hm trivial
  exact (Keeps.refl s).write_over hdst ⟨_, rfl, rfl, id⟩

theorem burn_keeps (hburn : s.burn signers mint source authority amount = .ok t) : Keeps s t := by
  simp only [Accounts.burn, bind_eq_ok, Accounts.token_eq_ok, Accounts.mint_eq_ok, ensure_eq_ok,
    orFail_eq_ok, pure_eq_ok, exists_const] at hburn
  obtain ⟨src, hsrc, m, hm, _, _, _, spent, hspent, supply, _, rfl⟩ := hburn
  refine Keeps.write_over ?_ hm trivial
  exact (Keeps.refl s).write_over hsrc (authorize_becomes hspent)

theorem sendAll_keeps {legs : List Transfer} (hsend : sendAll runtime tx legs s = .ok t) :
    Keeps s t := sendAll_rel Keeps.refl Keeps.trans transfer_keeps hsend

end Tokens

/-- No instruction closes an account, moves an escrow or gives a token account away. -/
theorem exec_keeps {c : Call} (hexec : c.exec runtime s = .ok (transfers, t)) : Keeps s t := by
  obtain ⟨tx, instruction⟩ := c
  cases instruction with
  | initializeConfig a platformFeeBps bridgeMintLimit =>
      obtain ⟨_, _, _, _, hvacant, _, _, rfl⟩ := initializeConfig_eq_ok hexec
      exact (Keeps.refl s).write_vacant hvacant _
  | bridgeMint a amount nonce =>
      obtain ⟨_, _, u, hcfg, hnonce, _, _, _, _, _, _, _, _, _, hminted, _, _, rfl⟩ :=
        bridgeMint_eq_ok hexec
      exact ((mintTo_keeps hminted).write_over hcfg trivial).write_over hnonce trivial
  | bridgeBurn a amount =>
      obtain ⟨_, u, hcfg, _, _, _, hburned, _, _, rfl⟩ := bridgeBurn_eq_ok hexec
      exact (burn_keeps hburned).write_over hcfg trivial
  | createEscrow a jobId lockedNmc pricePerHour maxDurationSecs =>
      obtain ⟨_, _, _, _, u, _, _, _, hvacant, _, ⟨_, hvaultVacant⟩, _, _, _, _, hsend, rfl⟩ :=
        createEscrow_eq_ok hexec
      have hopened : Keeps s (a.opened s) :=
        ((Keeps.refl s).write_vacant hvacant _).write_vacant hvaultVacant _
      exact (hopened.trans (sendAll_keeps hsend)).write_vacant hvacant _
  | lockEscrow a =>
      obtain ⟨_, hesc, _, _, _, _, _, rfl⟩ := lockEscrow_eq_ok hexec
      exact (Keeps.refl s).write_over hesc ⟨_, rfl, rfl, rfl⟩
  | releaseEscrow a actualCost =>
      obtain ⟨_, _, u, _, hesc, _, _, _, _, hsend, rfl⟩ := releaseEscrow_eq_ok hexec
      exact (sendAll_keeps hsend).write_over hesc ⟨_, rfl, rfl, rfl⟩
  | cancelEscrow a =>
      obtain ⟨_, _, u, _, hesc, _, _, _, hsend, rfl⟩ := cancelEscrow_eq_ok hexec
      exact (sendAll_keeps hsend).write_over hesc ⟨_, rfl, rfl, rfl⟩
  | updateConfig a platformFeeBps bridgeMintLimit =>
      obtain ⟨_, hcfg, _, _, _, _, _, rfl⟩ := updateConfig_eq_ok hexec
      exact (Keeps.refl s).write_over hcfg trivial

/-! ### From the creation on -/

/-- The escrow and the vault of a job stand where its id derives them, the record holds the seeds,
and the vault is the escrow's. -/
structure Keyed (runtime : Runtime) (jobId : String) (escrow vault : Pubkey) (s : State) :
    Prop where
  record : ∃ esc, s.read escrow = some (.data (.escrow esc)) ∧ esc.id.bytes = utf8 jobId ∧
    runtime.findProgramAddress (escrowSeeds (utf8 jobId)) = some (escrow, esc.bump)
  vault : ∃ v bump, s.read vault = some (.token v) ∧ v.owner = escrow ∧ v.delegate = none ∧
    runtime.findProgramAddress (vaultSeeds (utf8 jobId)) = some (vault, bump)

namespace Keyed

theorem created {a : CreateEscrow} {lockedNmc pricePerHour : UInt64} {maxDurationSecs : UInt32}
    (hexec : createEscrow runtime tx a jobId lockedNmc pricePerHour maxDurationSecs s =
      .ok (transfers, t)) : Keyed runtime jobId a.escrow a.vault t := by
  obtain ⟨_, bump, vaultBump, id, u, _, _, hescrow, _, hvault, ⟨hne, _⟩, _, _, hid, _, hsend,
    rfl⟩ := createEscrow_eq_ok hexec
  have hopened : (a.opened s).read a.vault =
      some (.token ⟨a.nmcMint, a.escrow, 0, none, 0, false⟩) := by
    simp [CreateEscrow.opened]
  obtain ⟨_, hread, v, rfl, howner, hdelegate⟩ := sendAll_keeps hsend _ _ hopened
  constructor
  · refine ⟨_, (Accounts.read_write _).trans (if_pos rfl), ?_, ?_⟩
    · exact JobId.bytes_of_ofBytes hid
    · exact hescrow
  · exact ⟨v, vaultBump, by simp [hne, hread], howner, hdelegate rfl, hvault⟩

theorem keeps (hkeyed : Keyed runtime jobId escrow vault s) (hkeeps : Keeps s t) :
    Keyed runtime jobId escrow vault t := by
  obtain ⟨⟨esc, hesc, hbytes, hfind⟩, v, bump, hv, howner, hdelegate, hvault⟩ := hkeyed
  obtain ⟨_, hesc', esc', rfl, hid, hbump⟩ := hkeeps _ _ hesc
  obtain ⟨_, hv', w, rfl, howner', hdelegate'⟩ := hkeeps _ _ hv
  constructor
  · exact ⟨esc', hesc', by rw [hid, hbytes], by rw [hbump, hfind]⟩
  · exact ⟨w, bump, hv', howner'.trans howner, hdelegate' hdelegate, hvault⟩

theorem elsewhere (hkeyed : Keyed runtime jobId escrow vault s) (hchange : Elsewhere runtime s t) :
    Keyed runtime jobId escrow vault t := by
  obtain ⟨⟨esc, hesc, hbytes, hfind⟩, v, bump, hv, howner, hdelegate, hvault⟩ := hkeyed
  constructor
  · exact ⟨esc, (hchange.records _ _).mpr hesc, hbytes, hfind⟩
  · obtain ⟨amount, frozen, _, hread⟩ := hchange.vaults _ _ vault v
      (Runtime.createProgramAddress_of_find hvault)
      (howner ▸ Runtime.createProgramAddress_of_find hfind) hdelegate hv
    exact ⟨_, bump, hread, howner, hdelegate, hvault⟩

end Keyed

/-- An attempt that opened an escrow for the job at these addresses. -/
def Opens (taken : Attempted) (jobId : String) (escrow vault : Pubkey) : Prop :=
  ∃ a lockedNmc pricePerHour maxDurationSecs transfers,
    taken.call.instruction = .createEscrow a jobId lockedNmc pricePerHour maxDurationSecs ∧
      taken.output = .ok transfers ∧ a.escrow = escrow ∧ a.vault = vault

theorem run_keyed (hrun : Runs runtime s calls t) :
    ∀ taken ∈ calls, ∀ jobId escrow vault, Opens taken jobId escrow vault →
      Keyed runtime jobId escrow vault t := by
  apply hrun.lasting (P := fun taken t => ∀ jobId escrow vault, Opens taken jobId escrow vault →
    Keyed runtime jobId escrow vault t)
  · intro c s r t hattempt jobId escrow vault hopens
    obtain ⟨tx, instruction⟩ := c
    obtain ⟨a, lockedNmc, pricePerHour, maxDurationSecs, transfers, hinstruction, houtput, rfl,
      rfl⟩ := hopens
    obtain rfl : instruction = _ := hinstruction
    obtain rfl : r = _ := houtput
    exact .created (tryCall_eq_ok.mp hattempt)
  · intro taken c s r t hkeyed hattempt jobId escrow vault hopens
    have hbefore := hkeyed jobId escrow vault hopens
    rcases tryCall_cases hattempt with ⟨transfers, _, hexec⟩ | ⟨_, _, _, rfl⟩
    · exact hbefore.keeps (exec_keeps hexec)
    · exact hbefore
  · intro taken s t hkeyed hchange jobId escrow vault hopens
    exact (hkeyed jobId escrow vault hopens).elsewhere hchange

/-! ### Which ids have keys -/

/-- The seeds that the later instructions rebuild from the record of a job are those that derived
its address, and the address they sign for is the authority over the vault. -/
def Rebuilds (runtime : Runtime) (jobId : String) (escrow vault : Pubkey) (s : State) : Prop :=
  ∃ esc v bump, s.read escrow = some (.data (.escrow esc)) ∧ s.read vault = some (.token v) ∧
    runtime.findProgramAddress (escrowSeeds (utf8 jobId)) = some (escrow, bump) ∧
    escrowSeeds esc.id.bytes = escrowSeeds (utf8 jobId) ∧ esc.bump = bump ∧
    pda escrow runtime (escrowSeeds esc.id.bytes) esc.bump = .ok () ∧
    derivedSigners runtime (some esc.signerSeeds) = .ok [v.owner]

theorem Keyed.rebuilds (hkeyed : Keyed runtime jobId escrow vault s) :
    Rebuilds runtime jobId escrow vault s := by
  obtain ⟨⟨esc, hesc, hbytes, hfind⟩, v, _, hv, howner, _, _⟩ := hkeyed
  have hderived : runtime.createProgramAddress (escrowSeeds esc.id.bytes ++ [[esc.bump]]) =
      .ok escrow := by
    rw [hbytes]
    exact Runtime.createProgramAddress_of_find hfind
  refine ⟨esc, v, esc.bump, hesc, hv, hfind, by rw [hbytes], rfl, pda_eq_ok.mpr hderived, ?_⟩
  rw [derivedSigners, JobEscrow.signerSeeds, hderived, howner]
  rfl

/-- Both addresses of a job are derived, and once its escrow is open the seeds are rebuilt in every
later state. -/
structure EscrowKeys (runtime : Runtime) (jobId : String) : Prop where
  escrow : (runtime.findProgramAddress (escrowSeeds (utf8 jobId))).isSome
  vault : (runtime.findProgramAddress (vaultSeeds (utf8 jobId))).isSome
  rebuilt : ∀ s calls t, Runs runtime s calls t → ∀ taken ∈ calls, ∀ escrow vault,
    Opens taken jobId escrow vault → Rebuilds runtime jobId escrow vault t

/-- The prefix of a job id is short enough, so the id decides. -/
theorem escrowSeeds_legal {id : Seed} :
    (∀ seed ∈ escrowSeeds id, seed.length ≤ 32) ↔ id.length ≤ 32 := by
  rw [escrowSeeds, List.forall_mem_cons, List.forall_mem_singleton]
  exact and_iff_right (by decide +kernel)

theorem vaultSeeds_legal {id : Seed} :
    (∀ seed ∈ vaultSeeds id, seed.length ≤ 32) ↔ id.length ≤ 32 := by
  rw [vaultSeeds, List.forall_mem_cons, List.forall_mem_singleton]
  exact and_iff_right (by decide +kernel)

/-- A job has its keys exactly when its id is no longer than one seed. -/
theorem escrowKeys_iff (hoff : runtime.OffCurve) (jobId : String) :
    EscrowKeys runtime jobId ↔ (utf8 jobId).length ≤ 32 := by
  have hescrow : (runtime.findProgramAddress (escrowSeeds (utf8 jobId))).isSome ↔
      (utf8 jobId).length ≤ 32 := by
    rw [Runtime.findProgramAddress_isSome hoff (by simp [escrowSeeds]), escrowSeeds_legal]
  have hvault : (runtime.findProgramAddress (vaultSeeds (utf8 jobId))).isSome ↔
      (utf8 jobId).length ≤ 32 := by
    rw [Runtime.findProgramAddress_isSome hoff (by simp [vaultSeeds]), vaultSeeds_legal]
  constructor
  · exact fun hkeys => hescrow.mp hkeys.escrow
  · intro hshort
    refine ⟨hescrow.mpr hshort, hvault.mpr hshort, ?_⟩
    intro s calls t hrun taken hmem escrow vault hopens
    exact (run_keyed hrun taken hmem jobId escrow vault hopens).rebuilds

theorem sampleRuntime_offCurve : sampleRuntime.OffCurve := by
  intro bytes
  exact ⟨255, by decide, Bool.false_ne_true⟩

/-- The short id of the sample, with the run that opens its escrow. -/
theorem escrowKeys_sample :
    EscrowKeys sampleRuntime "job-1" ∧
      (∃ calls, Runs sampleRuntime sampleStart calls sampleOpened ∧
        ∃ taken ∈ calls, Opens taken "job-1" sampleEscrow sampleVault) ∧
      Rebuilds sampleRuntime "job-1" sampleEscrow sampleVault sampleOpened := by
  have hkeys : EscrowKeys sampleRuntime "job-1" :=
    (escrowKeys_iff sampleRuntime_offCurve "job-1").mpr (by decide +kernel)
  have hrun : Runs sampleRuntime sampleStart
      (attempts (Call.exec sampleRuntime) [sampleInit, sampleCreate] sampleStart) sampleOpened :=
    CallRun.attempts _ _ _ _
  have hopens : ∃ taken ∈ attempts (Call.exec sampleRuntime) [sampleInit, sampleCreate] sampleStart,
      Opens taken "job-1" sampleEscrow sampleVault :=
    ⟨_, List.mem_cons_of_mem _ List.mem_cons_self, _, _, _, _, [⟨12, sampleVault, 2, 40, none⟩], rfl,
      by decide +kernel, rfl, rfl⟩
  obtain ⟨taken, hmem, hopen⟩ := hopens
  exact ⟨hkeys, ⟨_, hrun, taken, hmem, hopen⟩, hkeys.rebuilt _ _ _ hrun taken hmem _ _ hopen⟩

/-- A job id as `Uuid::new_v4().to_string()` gives it. -/
def sampleUuid : String := "550e8400-e29b-41d4-a716-446655440000"

/-- The 36 bytes of a UUID pass the check of `create_escrow`, and no address is derived from them. -/
theorem escrowKeys_uuid :
    (JobId.ofBytes (utf8 sampleUuid)).isSome ∧ (utf8 sampleUuid).length = 36 ∧
      sampleRuntime.findProgramAddress (escrowSeeds (utf8 sampleUuid)) = none ∧
      ¬ EscrowKeys sampleRuntime sampleUuid := by
  have hnone : sampleRuntime.findProgramAddress (escrowSeeds (utf8 sampleUuid)) = none := by
    decide +kernel
  refine ⟨by decide +kernel, by decide +kernel, hnone, fun hkeys => ?_⟩
  have hsome := hkeys.escrow
  rw [hnone] at hsome
  cases hsome

/-- `create_escrow` opens no escrow for an id that is longer than a seed. -/
theorem createEscrow_of_long {a : CreateEscrow} {lockedNmc pricePerHour : UInt64}
    {maxDurationSecs : UInt32} (hlong : 32 < (utf8 jobId).length) :
    createEscrow runtime tx a jobId lockedNmc pricePerHour maxDurationSecs s ≠
      .ok (transfers, t) := by
  intro hexec
  obtain ⟨_, _, _, _, _, _, _, hescrow, _⟩ := createEscrow_eq_ok hexec
  have hshort := escrowSeeds_legal.mp (Runtime.seeds_legal_of_find hescrow)
  omega

end NeuralMesh.Solana
