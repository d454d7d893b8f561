import NeuralMesh.Proof.OracleVotes

/-!
# What it takes to write a record again

Approvals are never taken back, so the counter of a pair that has been recorded stays where it is.
From there one more oracle writes the record again, whatever has been recorded in between.
-/

namespace NeuralMesh.Evm.QuantumVerifier

open Tally

/-- The call recorded an attestation of this provider. -/
def Records (provider : Address) (taken : Record) : Prop :=
  taken.output = true ∧ ∃ commitment, taken.call.pair? = some (provider, commitment)

variable {keccak256 : BitVec 416 → Key} {u v w : QuantumVerifier} {between : List Record} {c : Call}
  {provider : Address} {commitment : Key} {metadata : Metadata}

theorem Effect.threshold {recorded : Bool} (heffect : Effect keccak256 c recorded u v)
    (hfixed : c.manages = false) : v.threshold = u.threshold := by
  cases heffect with
  | approve _ _ _ hafter =>
      rw [hafter, afterApproval]
      split
      · rfl
      · rfl
  | manage hmanages =>
      rw [hfixed] at hmanages
      cases hmanages
  | revoke _ _ _ _ hafter =>
      rw [hafter]
      rfl

/-- While nothing is recorded for the provider, an approval leaves the counter below the
threshold. -/
theorem run_waiting {pairs : Set (Address × Key)} (hinj : Set.InjOn (pairKey keccak256) pairs)
    (hpair : (provider, commitment) ∈ pairs) (hrun : Runs keccak256 u between v)
    (hpairs : approvedPairs between ⊆ pairs)
    (hfixed : ∀ taken ∈ between, taken.call.manages = false)
    (hnone : ∀ taken ∈ between, ¬ Records provider taken) :
    v.threshold = u.threshold ∧
      (approvals (provider, commitment) between = [] ∨
        (v.approvalCount (pairKey keccak256 (provider, commitment))).toNat <
          u.threshold.toNat) := by
  refine hrun.invariant (I := fun calls t => approvedPairs calls ⊆ pairs →
    (∀ taken ∈ calls, taken.call.manages = false) → (∀ taken ∈ calls, ¬ Records provider taken) →
      t.threshold = u.threshold ∧ (approvals (provider, commitment) calls = [] ∨
        (t.approvalCount (pairKey keccak256 (provider, commitment))).toNat < u.threshold.toNat))
    (fun _ _ _ => ⟨rfl, .inl rfl⟩) ?_ ?_ hpairs hfixed hnone
  · intro calls c t recorded u' ih hexec hpairs hfixed hnone
    have hlast : (⟨t, c, recorded, u'⟩ : Record) ∈ calls ++ [⟨t, c, recorded, u'⟩] :=
      List.mem_append_right _ (List.mem_singleton_self _)
    have hbefore := approvedPairs_concat calls ⟨t, c, recorded, u'⟩
    obtain ⟨hthreshold, hwaiting⟩ := ih
      (fun pair hmem => hpairs (hbefore ▸ .inl hmem))
      (fun taken hmem => hfixed taken (List.mem_append_left _ hmem))
      fun taken hmem => hnone taken (List.mem_append_left _ hmem)
    have heffect := exec_effect hexec
    refine ⟨(heffect.threshold (hfixed _ hlast)).trans hthreshold, ?_⟩
    by_cases hsame : c.pair? = some (provider, commitment)
    · right
      obtain ⟨metadata, _, _, hrecorded, hafter⟩ := heffect.approval hsame
      -- it was not recorded, so the new count is too low
      have hlow : recorded = false :=
        Bool.eq_false_iff.mpr fun htrue => hnone _ hlast ⟨htrue, commitment, hsame⟩
      rw [hlow] at hrecorded
      have hlt := of_decide_eq_false hrecorded.symm
      rw [hafter, approvalCount_afterApproval, Function.update_self, ← hthreshold]
      exact UInt8.lt_iff_toNat_lt.mp (UInt8.not_le.mp hlt)
    · have hspared := heffect.spares hinj hpair (fun _ h => hpairs ⟨_, hlast, h⟩) hsame
      rw [approvals_concat, approvalOf?_none hsame, Option.toList_none, List.append_nil, hspared.2]
      exact hwaiting
  · intro calls t t' _ hnothing
    exact hnothing.elim

/-- With the oracles and the threshold as they are, `threshold` oracles approve a commitment between
one record of the provider and the next exactly when nobody had approved it before, or one oracle
is enough. -/
theorem fresh_consensus (hrun : Runs keccak256 u between v)
    (hfixed : ∀ taken ∈ between, taken.call.manages = false)
    (hnone : ∀ taken ∈ between, ¬ Records provider taken)
    (hcall : c.method = .approveAttestation provider commitment metadata)
    (hexec : c.exec keccak256 v = .ok (true, w))
    (hinj : Set.InjOn (pairKey keccak256) (approvedPairs (between ++ [⟨v, c, true, w⟩]))) :
    u.threshold.toNat ≤
        (voters (approvals (provider, commitment) (between ++ [⟨v, c, true, w⟩]))).card ↔
      u.threshold.toNat ≤ 1 ∨ u.approvalCount (pairKey keccak256 (provider, commitment)) = 0 := by
  have hsub : approvedPairs between ⊆ approvedPairs (between ++ [⟨v, c, true, w⟩]) := by
    rw [approvedPairs_concat]
    exact Set.subset_union_left
  obtain ⟨haccepts, _, henough⟩ := exec_recorded hcall hexec
  have hcounted := run_counted hinj (mem_approvedPairs hcall) hrun hsub
  obtain ⟨hthreshold, hwaiting⟩ := run_waiting hinj (mem_approvedPairs hcall) hrun hsub hfixed hnone
  have hcount := hcounted.count
  have hvoters : (voters (approvals (provider, commitment) (between ++ [⟨v, c, true, w⟩]))).card =
      (approvals (provider, commitment) between).length + 1 := by
    rw [approvals_last hcall, card_voters (hcounted.each.concat (hcounted.new_voter haccepts)),
      List.length_append, List.length_singleton]
  have hzero : u.approvalCount (pairKey keccak256 (provider, commitment)) = 0 ↔
      (u.approvalCount (pairKey keccak256 (provider, commitment))).toNat = 0 := by
    rw [← UInt8.toNat_inj]
    rfl
  rw [hvoters, hzero]
  rw [hthreshold] at henough
  rcases hwaiting with hnil | hlow
  · rw [hnil] at hcount ⊢
    rw [List.length_nil] at hcount ⊢
    omega
  · omega

/-! ### A sample run -/

/-- Oracles `1` and `2` approve one commitment and then another, and oracle `4` the first one. -/
theorem sampleRollback_ok : ∃ s calls u w, deploy 7 [1, 2, 4] 2 = .ok s ∧
    replay (Call.exec sampleKeccak)
      [sampleApproval 1 0xa, sampleApproval 2 0xa, sampleApproval 1 0xb, sampleApproval 2 0xb] s =
        .ok (calls, u) ∧
    (sampleApproval 4 0xa).exec sampleKeccak u = .ok (true, w) ∧
    calls.map Taken.output = [false, true, false, true] ∧ u.threshold = 2 ∧
    (u.attestations 3).commitment = 0xb ∧ (w.attestations 3).commitment = 0xa :=
  ⟨_, _, _, _, rfl, rfl, rfl, rfl, rfl, rfl, rfl⟩

theorem sampleRollback_pairs (u w : QuantumVerifier) :
    approvedPairs ([] ++ [⟨u, sampleApproval 4 0xa, true, w⟩]) ⊆ {(3, 0xa)} := by
  intro pair hmem
  obtain ⟨taken, hmem, hpair⟩ := hmem
  rw [List.nil_append, List.mem_singleton] at hmem
  subst hmem
  cases hpair
  rfl

/-- One oracle of three rolls a provider back to its earlier commitment, with a threshold of two. -/
theorem rollback_by_one : ∃ s calls u w, deploy 7 [1, 2, 4] 2 = .ok s ∧
    Runs sampleKeccak s calls u ∧ (sampleApproval 4 0xa).exec sampleKeccak u = .ok (true, w) ∧
    calls.map Taken.output = [false, true, false, true] ∧ u.threshold = 2 ∧
    (u.attestations 3).commitment = 0xb ∧ (w.attestations 3).commitment = 0xa ∧
    (voters (approvals (3, 0xa) ([] ++ [⟨u, sampleApproval 4 0xa, true, w⟩]))).card = 1 := by
  obtain ⟨s, calls, u, w, hdeploy, hreplay, hexec, houtputs, hthreshold, hold, hnew⟩ :=
    sampleRollback_ok
  exact ⟨s, calls, u, w, hdeploy, .of_replay hreplay, hexec, houtputs, hthreshold, hold, hnew, rfl⟩

theorem fresh_consensus_rollback : ∃ s calls u w, deploy 7 [1, 2, 4] 2 = .ok s ∧
    Runs sampleKeccak s calls u ∧ (sampleApproval 4 0xa).exec sampleKeccak u = .ok (true, w) ∧
    (u.threshold.toNat ≤
        (voters (approvals (3, 0xa) ([] ++ [⟨u, sampleApproval 4 0xa, true, w⟩]))).card ↔
      u.threshold.toNat ≤ 1 ∨ u.approvalCount (pairKey sampleKeccak (3, 0xa)) = 0) := by
  obtain ⟨s, calls, u, w, hdeploy, hreplay, hexec, _⟩ := sampleRollback_ok
  refine ⟨s, calls, u, w, hdeploy, .of_replay hreplay, hexec, ?_⟩
  have hempty : ∀ {P : Record → Prop}, ∀ taken ∈ ([] : List Record), P taken :=
    fun taken hmem => by cases hmem
  exact fresh_consensus (.nil u) hempty hempty rfl hexec
    ((Set.injOn_singleton _ _).mono (sampleRollback_pairs u w))

end NeuralMesh.Evm.QuantumVerifier
