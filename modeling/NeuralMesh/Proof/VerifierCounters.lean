import NeuralMesh.Base.Marked
import NeuralMesh.Proof.OracleVotes
import Mathlib.Data.BitVec

/-!
# The verifier's counters

`oracleCount` counts the oracles and `approvalCount` the approvals of a key, each kept beside the
mapping it counts. Every successful call changes a mapping and its counter together, and none writes
the record of a revoked provider.
-/

namespace NeuralMesh.Evm.QuantumVerifier

instance : Finite Address := Finite.of_equiv _ (BitVec.equivFin (m := 160)).symm.toEquiv

variable (keccak256 : BitVec 416 → Key)

/-- Who has successfully approved a pair with this key. -/
def approvers (key : Key) (calls : List Record) : Set Address :=
  {oracle | ∃ taken ∈ calls, taken.call.msg.sender = oracle ∧
    ∃ pair, taken.call.pair? = some pair ∧ pairKey keccak256 pair = key}

/-- The oracles are counted, and there are enough of them. -/
structure Staffed (s : QuantumVerifier) : Prop where
  count : (marked s.oracles).ncard = s.oracleCount.toNat
  positive : 0 < s.threshold
  enough : s.threshold ≤ s.oracleCount

/-- The approvals are counted. -/
structure Tallied (calls : List Record) (s : QuantumVerifier) : Prop where
  approved : ∀ key, marked (s.oracleApproved key) = approvers keccak256 key calls
  count : ∀ key, (marked (s.oracleApproved key)).ncard = (s.approvalCount key).toNat

variable {keccak256} {s t u : QuantumVerifier} {calls : List Record} {c : Call} {recorded : Bool}
  {oracle provider : Address}

/-! ### The oracles -/

theorem toNat_pred8 {n : UInt8} (hne : n ≠ 0) : (n - 1).toNat + 1 = n.toNat := by
  have hpos : 0 < n.toNat := UInt8.lt_iff_toNat_lt.mp (UInt8.pos_iff_ne_zero.mpr hne)
  have hone : (1 : UInt8) ≤ n := UInt8.le_iff_toNat_le.mpr hpos
  rw [UInt8.toNat_sub_of_le _ _ hone]
  exact Nat.sub_add_cancel hpos

theorem checkedPred8_eq_ok {m n : UInt8} : checkedPred8 m = .ok n ↔ m ≠ 0 ∧ n = m - 1 := by
  simp only [checkedPred8, bind_eq_ok, ensure_eq_ok, pure_eq_ok, exists_const]

theorem insertOracle_counts (hinsert : s.insertOracle oracle = .ok t)
    (hcount : (marked s.oracles).ncard = s.oracleCount.toNat) :
    (marked t.oracles).ncard = t.oracleCount.toNat ∧
      t.oracleCount.toNat = s.oracleCount.toNat + 1 ∧ t.threshold = s.threshold := by
  obtain ⟨hnew, hlt, rfl⟩ := insertOracle_eq_ok.mp hinsert
  have hsucc := toNat_succ8 hlt
  refine ⟨?_, hsucc, rfl⟩
  show (marked (Function.update s.oracles oracle true)).ncard = (s.oracleCount + 1).toNat
  rw [ncard_marked_insert hnew, hcount, hsucc]

/-- The loop of the constructor. -/
theorem insertOracles_counts {oracles : List Address}
    (hfold : oracles.foldlM (fun s oracle => insertOracle oracle s) s = .ok t)
    (hcount : (marked s.oracles).ncard = s.oracleCount.toNat) :
    (marked t.oracles).ncard = t.oracleCount.toNat ∧
      t.oracleCount.toNat = s.oracleCount.toNat + oracles.length ∧ t.threshold = s.threshold := by
  induction oracles generalizing s with
  | nil =>
      cases hfold
      exact ⟨hcount, rfl, rfl⟩
  | cons oracle rest ih =>
      rw [List.foldlM_cons] at hfold
      obtain ⟨u, hinsert, hrest⟩ := bind_eq_ok.mp hfold
      obtain ⟨hcount', hnext, hthreshold⟩ := insertOracle_counts hinsert hcount
      obtain ⟨hlast, hlength, hsame⟩ := ih hrest hcount'
      refine ⟨hlast, ?_, hsame.trans hthreshold⟩
      rw [hlength, hnext, List.length_cons]
      omega

theorem deploy_staffed {sender : Address} {oracles : List Address} {threshold : UInt8}
    (hdeploy : deploy sender oracles threshold = .ok s) : Staffed s := by
  simp only [deploy, bind_eq_ok, ensure_eq_ok, exists_const] at hdeploy
  obtain ⟨⟨henough, hpositive⟩, hfold⟩ := hdeploy
  obtain ⟨hcount, hlength, hthreshold⟩ := insertOracles_counts hfold (by
    rw [marked_false, Set.ncard_empty]
    rfl)
  refine ⟨hcount, ?_, ?_⟩
  · rw [hthreshold]
    exact hpositive
  · rw [hthreshold, UInt8.le_iff_toNat_le, hlength]
    exact henough.trans (Nat.le_add_left _ _)

theorem Staffed.addOracle {msg : Message} (hstaffed : Staffed s)
    (hexec : QuantumVerifier.addOracle msg oracle s = .ok (recorded, t)) : Staffed t := by
  simp only [QuantumVerifier.addOracle, bind_eq_ok, pure_eq_ok, Prod.mk.injEq] at hexec
  obtain ⟨_, _, u, hinsert, _, rfl⟩ := hexec
  obtain ⟨hcount, hnext, hthreshold⟩ := insertOracle_counts hinsert hstaffed.count
  have henough := UInt8.le_iff_toNat_le.mp hstaffed.enough
  refine ⟨hcount, hthreshold ▸ hstaffed.positive, ?_⟩
  rw [hthreshold, UInt8.le_iff_toNat_le, hnext]
  exact henough.trans (Nat.le_succ _)

theorem Staffed.removeOracle {msg : Message} (hstaffed : Staffed s)
    (hexec : QuantumVerifier.removeOracle msg oracle s = .ok (recorded, t)) : Staffed t := by
  simp only [QuantumVerifier.removeOracle, bind_eq_ok, ensure_eq_ok, checkedPred8_eq_ok, pure_eq_ok,
    exists_const, Prod.mk.injEq] at hexec
  obtain ⟨_, _, horacle, _, ⟨hne, rfl⟩, henough, _, rfl⟩ := hexec
  refine ⟨?_, hstaffed.positive, henough⟩
  have herase := ncard_marked_erase horacle
  have hpred := toNat_pred8 hne
  have hcount := hstaffed.count
  show (marked (Function.update s.oracles oracle false)).ncard = (s.oracleCount - 1).toNat
  omega

theorem Staffed.setThreshold {msg : Message} {threshold : UInt8} (hstaffed : Staffed s)
    (hexec : QuantumVerifier.setThreshold msg threshold s = .ok (recorded, t)) : Staffed t := by
  simp only [QuantumVerifier.setThreshold, bind_eq_ok, ensure_eq_ok, pure_eq_ok, exists_const,
    Prod.mk.injEq] at hexec
  obtain ⟨_, _, ⟨hpositive, henough⟩, _, rfl⟩ := hexec
  exact ⟨hstaffed.count, hpositive, henough⟩

theorem Staffed.exec (hstaffed : Staffed s) (hexec : c.exec keccak256 s = .ok (recorded, t)) :
    Staffed t := by
  obtain ⟨msg, method⟩ := c
  cases method with
  | addOracle oracle => exact hstaffed.addOracle hexec
  | removeOracle oracle => exact hstaffed.removeOracle hexec
  | setThreshold threshold => exact hstaffed.setThreshold hexec
  | approveAttestation provider commitment metadata =>
      obtain ⟨_, _, rfl⟩ := approveAttestation_eq_ok.mp hexec
      unfold afterApproval
      split
      · exact ⟨hstaffed.count, hstaffed.positive, hstaffed.enough⟩
      · exact ⟨hstaffed.count, hstaffed.positive, hstaffed.enough⟩
  | revokeAttestation provider =>
      obtain ⟨_, _, _, rfl⟩ := revokeAttestation_eq_ok.mp hexec
      exact ⟨hstaffed.count, hstaffed.positive, hstaffed.enough⟩

/-! ### The approvals -/

theorem approvers_concat (key : Key) (taken : Record) :
    approvers keccak256 key (calls ++ [taken]) = approvers keccak256 key calls ∪
      {oracle | taken.call.msg.sender = oracle ∧
        ∃ pair, taken.call.pair? = some pair ∧ pairKey keccak256 pair = key} := by
  ext oracle
  simp only [approvers, Set.mem_union, Set.mem_ofPred_eq, List.mem_append, List.mem_singleton]
  constructor
  · intro h
    obtain ⟨other, hmem | rfl, happroved⟩ := h
    · exact .inl ⟨other, hmem, happroved⟩
    · exact .inr happroved
  · intro h
    rcases h with ⟨other, hmem, happroved⟩ | happroved
    · exact ⟨other, .inl hmem, happroved⟩
    · exact ⟨taken, .inr rfl, happroved⟩

/-- A call that approves no pair with the key. -/
theorem approvers_other {key : Key} {taken : Record}
    (hother : ∀ pair, taken.call.pair? = some pair → pairKey keccak256 pair ≠ key) :
    approvers keccak256 key (calls ++ [taken]) = approvers keccak256 key calls := by
  rw [approvers_concat, Set.union_eq_left]
  intro oracle h
  obtain ⟨_, pair, hpair, hkey⟩ := h
  exact absurd hkey (hother pair hpair)

theorem approvers_approved {provider : Address} {commitment : Key} {metadata : Metadata}
    (hcall : c.method = .approveAttestation provider commitment metadata) :
    approvers keccak256 (pairKey keccak256 (provider, commitment))
        (calls ++ [⟨t, c, recorded, u⟩]) =
      insert c.msg.sender
        (approvers keccak256 (pairKey keccak256 (provider, commitment)) calls) := by
  have hpair : c.pair? = some (provider, commitment) := pair?_eq_some.mpr ⟨metadata, hcall⟩
  rw [approvers_concat, Set.insert_eq, Set.union_comm]
  congr 1
  ext oracle
  rw [Set.mem_ofPred_eq, Set.mem_singleton_iff]
  exact ⟨fun h => h.1.symm, fun h => ⟨h.symm, _, hpair, rfl⟩⟩

theorem Tallied.approve {commitment : Key} {metadata : Metadata}
    (htallied : Tallied keccak256 calls t)
    (hcall : c.method = .approveAttestation provider commitment metadata)
    (haccepts : Accepts keccak256 c.msg provider commitment metadata t)
    (hafter : u = afterApproval keccak256 c.msg provider commitment metadata t recorded) :
    Tallied keccak256 (calls ++ [⟨t, c, recorded, u⟩]) u := by
  refine ⟨fun key => ?_, fun key => ?_⟩
  · rw [hafter, oracleApproved_afterApproval]
    by_cases hkey : key = pairKey keccak256 (provider, commitment)
    · rw [hkey, Function.update_self, marked_insert, approvers_approved hcall, htallied.approved]
    · rw [Function.update_of_ne hkey, htallied.approved, approvers_other]
      intro pair hpair
      cases hpair.symm.trans (pair?_eq_some.mpr ⟨metadata, hcall⟩)
      exact Ne.symm hkey
  · rw [hafter, oracleApproved_afterApproval, approvalCount_afterApproval]
    by_cases hkey : key = pairKey keccak256 (provider, commitment)
    · rw [hkey, Function.update_self, Function.update_self, ncard_marked_insert haccepts.fresh,
        htallied.count, toNat_succ8 haccepts.count]
    · rw [Function.update_of_ne hkey, Function.update_of_ne hkey, htallied.count]

/-- A call that approves nothing. -/
theorem Tallied.other (htallied : Tallied keccak256 calls t) (hpair : c.pair? = none)
    (happroved : u.oracleApproved = t.oracleApproved) (hcount : u.approvalCount = t.approvalCount) :
    Tallied keccak256 (calls ++ [⟨t, c, recorded, u⟩]) u := by
  refine ⟨fun key => ?_, fun key => ?_⟩
  · rw [happroved, htallied.approved, approvers_other]
    intro pair hsome
    rw [hpair] at hsome
    cases hsome
  · rw [happroved, hcount, htallied.count]

theorem Tallied.effect (htallied : Tallied keccak256 calls t)
    (heffect : Effect keccak256 c recorded t u) :
    Tallied keccak256 (calls ++ [⟨t, c, recorded, u⟩]) u := by
  cases heffect with
  | approve hcall haccepts _ hafter => exact htallied.approve hcall haccepts hafter
  | manage hmanages _ _ _ _ hafter =>
      refine htallied.other ?_ (by rw [hafter]) (by rw [hafter])
      obtain ⟨msg, method⟩ := c
      cases method with
      | addOracle _ | removeOracle _ | setThreshold _ => rfl
      | approveAttestation _ _ _ | revokeAttestation _ => cases hmanages
  | revoke hcall _ _ _ hafter =>
      refine htallied.other ?_ (by rw [hafter, afterRevocation]) (by rw [hafter, afterRevocation])
      rw [Call.pair?, hcall]

theorem deploy_tallied {sender : Address} {oracles : List Address} {threshold : UInt8}
    (hdeploy : deploy sender oracles threshold = .ok s) : Tallied keccak256 [] s := by
  obtain ⟨_, _, happroved, hcount⟩ := deploy_eq_ok hdeploy
  have hnone : ∀ key, marked (s.oracleApproved key) = ∅ := by
    intro key
    rw [happroved, marked_false]
  refine ⟨fun key => ?_, fun key => ?_⟩
  · rw [hnone]
    refine (Set.eq_empty_of_forall_notMem fun oracle h => ?_).symm
    obtain ⟨_, hmem, _⟩ := h
    cases hmem
  · rw [hnone, hcount, Set.ncard_empty]
    rfl

/-! ### A revoked provider -/

theorem Effect.revoked (heffect : Effect keccak256 c recorded s t)
    (hrevoked : (s.attestations provider).revoked) :
    t.attestations provider = s.attestations provider := by
  cases heffect with
  | @approve q commitment metadata _ haccepts _ hafter =>
      rw [hafter, attestations_afterApproval, if_neg]
      intro h
      rw [h.2, haccepts.live] at hrevoked
      cases hrevoked
  | manage _ _ _ _ _ hafter => rw [hafter]
  | @revoke q _ _ _ _ hafter =>
      rw [hafter, attestations_afterRevocation]
      split
      · rename_i heq
        subst heq
        rw [← hrevoked]
      · rfl

theorem run_revoked (hrun : Runs keccak256 s calls t)
    (hrevoked : (s.attestations provider).revoked) :
    t.attestations provider = s.attestations provider := by
  refine hrun.preserves (I := fun u => u.attestations provider = s.attestations provider) rfl ?_
    fun _ _ _ hnothing => hnothing.elim
  intro c t recorded u hsame hexec
  rw [(exec_effect hexec).revoked (by rw [hsame]; exact hrevoked), hsame]

/-! ### Any run -/

/-- The counters are exact in every state of a run, and what is revoked stays as it is. -/
theorem counters_exact {sender : Address} {oracles : List Address} {threshold : UInt8}
    (hdeploy : deploy sender oracles threshold = .ok s) (hrun : Runs keccak256 s calls t) :
    (marked t.oracles).ncard = t.oracleCount.toNat ∧
      (1 ≤ t.threshold.toNat ∧ t.threshold.toNat ≤ t.oracleCount.toNat) ∧
      (∀ key, (t.approvalCount key).toNat = (approvers keccak256 key calls).ncard) ∧
      ∀ provider, (t.attestations provider).revoked → ∀ later u, Runs keccak256 t later u →
        u.attestations provider = t.attestations provider := by
  have hstaffed : Staffed t := hrun.preserves (deploy_staffed hdeploy)
    (fun _ _ _ _ hstaffed hexec => hstaffed.exec hexec) fun _ _ _ hnothing => hnothing.elim
  have htallied : Tallied keccak256 calls t := hrun.invariant (deploy_tallied hdeploy)
    (fun _ _ _ _ _ htallied hexec => htallied.effect (exec_effect hexec))
    fun _ _ _ _ hnothing => hnothing.elim
  refine ⟨hstaffed.count, ⟨UInt8.lt_iff_toNat_lt.mp hstaffed.positive,
    UInt8.le_iff_toNat_le.mp hstaffed.enough⟩, fun key => ?_,
    fun provider hrevoked later u hlater => run_revoked hlater hrevoked⟩
  rw [← htallied.approved, htallied.count]

theorem counters_exact_sample : ∃ s calls t, deploy 7 [1, 2, 4] 2 = .ok s ∧
    Runs sampleKeccak s calls t ∧ (marked t.oracles).ncard = t.oracleCount.toNat ∧
    (1 ≤ t.threshold.toNat ∧ t.threshold.toNat ≤ t.oracleCount.toNat) ∧
    (∀ key, (t.approvalCount key).toNat = (approvers sampleKeccak key calls).ncard) ∧
    ∀ provider, (t.attestations provider).revoked → ∀ later u, Runs sampleKeccak t later u →
      u.attestations provider = t.attestations provider := by
  obtain ⟨s, calls, t, _, hdeploy, hreplay, _⟩ := sampleRemoved_ok
  have hrun : Runs sampleKeccak s calls t := .of_replay hreplay
  exact ⟨s, calls, t, hdeploy, hrun, counters_exact hdeploy hrun⟩

end NeuralMesh.Evm.QuantumVerifier
