import NeuralMesh.Base.Tally
import NeuralMesh.Evm.QuantumVerifier
import Mathlib.Data.Set.Function

/-!
# The oracles' approvals

The verifier counts the approvals of a pair of provider and commitment under the hash of the pair.
Where no two pairs of a run collide, the counter is the number of oracles that approved the pair,
each of them once.
-/

namespace NeuralMesh.Evm.QuantumVerifier

open Tally

/-- A successful call of the contract. -/
abbrev Record := Taken Call QuantumVerifier Bool

/-- The pair a call approves. -/
def Call.pair? (c : Call) : Option (Address × Key) :=
  match c.method with
  | .approveAttestation provider commitment _ => some (provider, commitment)
  | .addOracle _ | .removeOracle _ | .setThreshold _ | .revokeAttestation _ => none

/-- The call changes who the oracles are or how many of them it takes. -/
def Call.manages (c : Call) : Bool :=
  match c.method with
  | .addOracle _ | .removeOracle _ | .setThreshold _ => true
  | .approveAttestation _ _ _ | .revokeAttestation _ => false

/-- The approval of a pair by a call: who gave it, and with what metadata. -/
def approvalOf? (pair : Address × Key) (taken : Record) : Option (Address × Metadata) :=
  match taken.call.method with
  | .approveAttestation provider commitment metadata =>
      if (provider, commitment) = pair then some (taken.call.msg.sender, metadata) else none
  | .addOracle _ | .removeOracle _ | .setThreshold _ | .revokeAttestation _ => none

/-- The approvals of a pair, in order. -/
def approvals (pair : Address × Key) (calls : List Record) : List (Address × Metadata) :=
  calls.filterMap (approvalOf? pair)

def approvedPairs (calls : List Record) : Set (Address × Key) :=
  {pair | ∃ taken ∈ calls, taken.call.pair? = some pair}

section Effects

variable (keccak256 : BitVec 416 → Key)

/-- The key a pair is counted under. -/
def pairKey (pair : Address × Key) : Key := approvalKey keccak256 pair.1 pair.2

/-- The storage with one more approval counted. -/
def counted (pair : Address × Key) (oracle : Address) (s : QuantumVerifier) : QuantumVerifier :=
  { s with
    oracleApproved := Function.update s.oracleApproved (pairKey keccak256 pair)
      (Function.update (s.oracleApproved (pairKey keccak256 pair)) oracle true)
    approvalCount := Function.update s.approvalCount (pairKey keccak256 pair)
      (s.approvalCount (pairKey keccak256 pair) + 1) }

/-- What `approveAttestation` requires. -/
structure Accepts (msg : Message) (provider : Address) (commitment : Key) (metadata : Metadata)
    (s : QuantumVerifier) : Prop where
  oracle : s.oracles msg.sender
  key : metadata.ed25519Pubkey.length = 32
  live : (s.attestations provider).revoked = false
  fresh : s.oracleApproved (pairKey keccak256 (provider, commitment)) msg.sender = false
  count : (s.approvalCount (pairKey keccak256 (provider, commitment))).toNat + 1 < 2 ^ 8

/-- The storage after an accepted approval. -/
def afterApproval (msg : Message) (provider : Address) (commitment : Key) (metadata : Metadata)
    (s : QuantumVerifier) (recorded : Bool) : QuantumVerifier :=
  if recorded then
    { counted keccak256 (provider, commitment) msg.sender s with
      attestations := Function.update s.attestations provider (recordOf msg commitment metadata) }
  else counted keccak256 (provider, commitment) msg.sender s

/-- The storage with a provider's attestation revoked. -/
def afterRevocation (provider : Address) (s : QuantumVerifier) : QuantumVerifier :=
  { s with
    attestations := Function.update s.attestations provider
      { s.attestations provider with revoked := true } }

/-- What a successful call does. -/
inductive Effect (c : Call) (recorded : Bool) (s t : QuantumVerifier) : Prop
  | approve {provider : Address} {commitment : Key} {metadata : Metadata}
      (hcall : c.method = .approveAttestation provider commitment metadata)
      (haccepts : Accepts keccak256 c.msg provider commitment metadata s)
      (hrecorded : recorded = decide (s.threshold ≤
        s.approvalCount (pairKey keccak256 (provider, commitment)) + 1))
      (hafter : t = afterApproval keccak256 c.msg provider commitment metadata s recorded)
  | manage (hcall : c.manages) (hrecorded : recorded = false) (oracles : Address → Bool)
      (oracleCount threshold : UInt8) (hafter : t = { s with oracles, oracleCount, threshold })
  | revoke {provider : Address} (hcall : c.method = .revokeAttestation provider)
      (howner : c.msg.sender = s.owner) (hcommitment : (s.attestations provider).commitment ≠ 0)
      (hrecorded : recorded = false) (hafter : t = afterRevocation provider s)

variable {keccak256} {msg : Message} {s t : QuantumVerifier} {recorded : Bool}

theorem attestations_afterRevocation (provider q : Address) (s : QuantumVerifier) :
    (afterRevocation provider s).attestations q =
      if q = provider then { s.attestations provider with revoked := true } else s.attestations q :=
  Function.update_apply _ _ _ _

theorem attestations_afterApproval {provider : Address} {commitment : Key} {metadata : Metadata}
    (q : Address) :
    (afterApproval keccak256 msg provider commitment metadata s recorded).attestations q =
      if recorded ∧ q = provider then recordOf msg commitment metadata else s.attestations q := by
  cases recorded with
  | false => rfl
  | true =>
      simp only [true_and]
      exact Function.update_apply _ _ _ _

theorem checkedSucc8_eq_ok {m n : UInt8} :
    checkedSucc8 m = .ok n ↔ m.toNat + 1 < 2 ^ 8 ∧ n = m + 1 := by
  simp only [checkedSucc8, bind_eq_ok, ensure_eq_ok, pure_eq_ok, exists_const]

theorem toNat_succ8 {n : UInt8} (hlt : n.toNat + 1 < 2 ^ 8) : (n + 1).toNat = n.toNat + 1 := by
  rw [UInt8.toNat_add]
  exact Nat.mod_eq_of_lt hlt

theorem insertOracle_eq_ok {oracle : Address} : s.insertOracle oracle = .ok t ↔
    s.oracles oracle = false ∧ s.oracleCount.toNat + 1 < 2 ^ 8 ∧
      t = { s with
        oracles := Function.update s.oracles oracle true
        oracleCount := s.oracleCount + 1 } := by
  simp only [insertOracle, bind_eq_ok, ensure_eq_ok, checkedSucc8_eq_ok, pure_eq_ok, exists_const]
  constructor
  · intro hinsert
    obtain ⟨hnew, _, ⟨hcount, rfl⟩, hafter⟩ := hinsert
    exact ⟨hnew, hcount, hafter⟩
  · intro hinsert
    obtain ⟨hnew, hcount, hafter⟩ := hinsert
    exact ⟨hnew, _, ⟨hcount, rfl⟩, hafter⟩

theorem approveAttestation_eq_ok {provider : Address} {commitment : Key} {metadata : Metadata} :
    approveAttestation keccak256 msg provider commitment metadata s = .ok (recorded, t) ↔
      Accepts keccak256 msg provider commitment metadata s ∧
        recorded = decide (s.threshold ≤
          s.approvalCount (pairKey keccak256 (provider, commitment)) + 1) ∧
        t = afterApproval keccak256 msg provider commitment metadata s recorded := by
  simp only [approveAttestation, bind_eq_ok, ensure_eq_ok, checkedSucc8_eq_ok, exists_const]
  constructor
  · intro hexec
    obtain ⟨horacle, hkey, hlive, hfresh, _, ⟨hcount, rfl⟩, hexec⟩ := hexec
    refine ⟨⟨horacle, hkey, hlive, hfresh, hcount⟩, ?_⟩
    split at hexec
    · rename_i henough
      simp only [pure_eq_ok, Prod.mk.injEq] at hexec
      obtain ⟨rfl, rfl⟩ := hexec
      exact ⟨(decide_eq_true henough).symm, rfl⟩
    · rename_i hfew
      simp only [pure_eq_ok, Prod.mk.injEq] at hexec
      obtain ⟨rfl, rfl⟩ := hexec
      exact ⟨(decide_eq_false hfew).symm, rfl⟩
  · intro h
    obtain ⟨haccepts, hrecorded, hafter⟩ := h
    refine ⟨haccepts.oracle, haccepts.key, haccepts.live, haccepts.fresh, _,
      ⟨haccepts.count, rfl⟩, ?_⟩
    split
    · rename_i henough
      have htrue : recorded = true := hrecorded.trans (decide_eq_true henough)
      rw [hafter, htrue]
      rfl
    · rename_i hfew
      have hfalse : recorded = false := hrecorded.trans (decide_eq_false hfew)
      rw [hafter, hfalse]
      rfl

theorem revokeAttestation_eq_ok {provider : Address} :
    revokeAttestation msg provider s = .ok (recorded, t) ↔ msg.sender = s.owner ∧
      (s.attestations provider).commitment ≠ 0 ∧ recorded = false ∧
        t = afterRevocation provider s := by
  simp only [revokeAttestation, onlyOwner, bind_eq_ok, ensure_eq_ok, pure_eq_ok, exists_const,
    Prod.mk.injEq]
  rfl

/-- Every successful call has an effect of this kind. -/
theorem exec_effect {c : Call} (hexec : c.exec keccak256 s = .ok (recorded, t)) :
    Effect keccak256 c recorded s t := by
  obtain ⟨msg, method⟩ := c
  cases method with
  | addOracle oracle =>
      simp only [Call.exec, addOracle, onlyOwner, bind_eq_ok, ensure_eq_ok, pure_eq_ok, exists_const,
        Prod.mk.injEq] at hexec
      obtain ⟨_, u, hinsert, rfl, rfl⟩ := hexec
      obtain ⟨_, _, rfl⟩ := insertOracle_eq_ok.mp hinsert
      exact .manage rfl rfl _ _ s.threshold rfl
  | removeOracle oracle =>
      simp only [Call.exec, removeOracle, onlyOwner, bind_eq_ok, ensure_eq_ok, pure_eq_ok,
        exists_const, Prod.mk.injEq] at hexec
      obtain ⟨_, _, oracleCount, _, _, rfl, rfl⟩ := hexec
      exact .manage rfl rfl _ oracleCount s.threshold rfl
  | setThreshold threshold =>
      simp only [Call.exec, setThreshold, onlyOwner, bind_eq_ok, ensure_eq_ok, pure_eq_ok,
        exists_const, Prod.mk.injEq] at hexec
      obtain ⟨_, _, rfl, rfl⟩ := hexec
      exact .manage rfl rfl s.oracles s.oracleCount threshold rfl
  | approveAttestation provider commitment metadata =>
      obtain ⟨haccepts, hrecorded, hafter⟩ := approveAttestation_eq_ok.mp hexec
      exact .approve rfl haccepts hrecorded hafter
  | revokeAttestation provider =>
      obtain ⟨howner, hcommitment, hrecorded, hafter⟩ := revokeAttestation_eq_ok.mp hexec
      exact .revoke rfl howner hcommitment hrecorded hafter

end Effects

/-! ### The count of a pair -/

section Counting

variable {keccak256 : BitVec 416 → Key} {pair : Address × Key} {s t u : QuantumVerifier}
  {calls : List Record} {c : Call} {recorded : Bool}

theorem approvals_concat (taken : Record) :
    approvals pair (calls ++ [taken]) =
      approvals pair calls ++ (approvalOf? pair taken).toList := by
  unfold approvals
  rw [List.filterMap_append]
  cases happroval : approvalOf? pair taken with
  | none => rw [List.filterMap_cons_none happroval, List.filterMap_nil, Option.toList_none]
  | some approval =>
      rw [List.filterMap_cons_some happroval, List.filterMap_nil, Option.toList_some]

theorem approvalOf?_none {taken : Record} (hpair : taken.call.pair? ≠ some pair) :
    approvalOf? pair taken = none := by
  unfold approvalOf?
  split
  · rename_i hcall
    refine if_neg fun heq => hpair ?_
    rw [Call.pair?, hcall, ← heq]
  · rfl
  · rfl
  · rfl
  · rfl

theorem approvedPairs_concat (calls : List Record) (taken : Record) :
    approvedPairs (calls ++ [taken]) =
      approvedPairs calls ∪ {pair | taken.call.pair? = some pair} := by
  ext pair
  constructor
  · intro h
    obtain ⟨other, hmem, hpair⟩ := h
    rcases List.mem_append.mp hmem with hmem | hmem
    · exact .inl ⟨other, hmem, hpair⟩
    · rw [List.mem_singleton.mp hmem] at hpair
      exact .inr hpair
  · intro h
    rcases h with ⟨other, hmem, hpair⟩ | hpair
    · exact ⟨other, List.mem_append_left _ hmem, hpair⟩
    · exact ⟨taken, List.mem_append_right _ (List.mem_singleton_self taken), hpair⟩

/-- Over these calls the counter of a pair grew by its approvals, which came from oracles that had
not approved it before, once from each. -/
structure Counted (keccak256 : BitVec 416 → Key) (pair : Address × Key) (s : QuantumVerifier)
    (calls : List Record) (t : QuantumVerifier) : Prop where
  each : OneVoteEach (approvals pair calls)
  fresh : ∀ oracle ∈ voters (approvals pair calls),
    s.oracleApproved (pairKey keccak256 pair) oracle = false
  approved : ∀ oracle, t.oracleApproved (pairKey keccak256 pair) oracle = false ↔
    s.oracleApproved (pairKey keccak256 pair) oracle = false ∧
      oracle ∉ voters (approvals pair calls)
  count : (t.approvalCount (pairKey keccak256 pair)).toNat =
    (s.approvalCount (pairKey keccak256 pair)).toNat + (approvals pair calls).length

theorem Counted.nil (s : QuantumVerifier) : Counted keccak256 pair s [] s where
  each := .nil
  fresh := fun oracle hmem => by cases hmem
  approved := fun oracle => ⟨fun h => ⟨h, fun hmem => by cases hmem⟩, And.left⟩
  count := rfl

/-- A call that leaves the pair's counter alone. -/
theorem Counted.other (hcounted : Counted keccak256 pair s calls t)
    (hpair : c.pair? ≠ some pair)
    (happroved : u.oracleApproved (pairKey keccak256 pair) =
      t.oracleApproved (pairKey keccak256 pair))
    (hcount : u.approvalCount (pairKey keccak256 pair) =
      t.approvalCount (pairKey keccak256 pair)) :
    Counted keccak256 pair s (calls ++ [⟨t, c, recorded, u⟩]) u := by
  have hsame : approvals pair (calls ++ [⟨t, c, recorded, u⟩]) = approvals pair calls := by
    rw [approvals_concat, approvalOf?_none hpair, Option.toList_none, List.append_nil]
  refine ⟨?_, ?_, ?_, ?_⟩
  · rw [hsame]
    exact hcounted.each
  · rw [hsame]
    exact hcounted.fresh
  · rw [hsame, happroved]
    exact hcounted.approved
  · rw [hsame, hcount]
    exact hcounted.count

variable {provider : Address} {commitment : Key} {metadata : Metadata}

theorem oracleApproved_afterApproval (msg : Message) :
    (afterApproval keccak256 msg provider commitment metadata t recorded).oracleApproved =
      Function.update t.oracleApproved (pairKey keccak256 (provider, commitment))
        (Function.update (t.oracleApproved (pairKey keccak256 (provider, commitment)))
          msg.sender true) := by
  unfold afterApproval
  split
  · rfl
  · rfl

theorem approvalCount_afterApproval (msg : Message) :
    (afterApproval keccak256 msg provider commitment metadata t recorded).approvalCount =
      Function.update t.approvalCount (pairKey keccak256 (provider, commitment))
        (t.approvalCount (pairKey keccak256 (provider, commitment)) + 1) := by
  unfold afterApproval
  split
  · rfl
  · rfl

theorem pair?_eq_some : c.pair? = some (provider, commitment) ↔
    ∃ metadata, c.method = .approveAttestation provider commitment metadata := by
  obtain ⟨msg, method⟩ := c
  cases method with
  | approveAttestation _ _ _ => simp [Call.pair?]
  | addOracle _ | removeOracle _ | setThreshold _ | revokeAttestation _ =>
      refine iff_of_false (fun h => by cases h) fun h => ?_
      obtain ⟨_, hmethod⟩ := h
      cases hmethod

theorem approvals_last
    (hcall : c.method = .approveAttestation provider commitment metadata) :
    approvals (provider, commitment) (calls ++ [⟨t, c, recorded, u⟩]) =
      approvals (provider, commitment) calls ++ [(c.msg.sender, metadata)] := by
  rw [approvals_concat, approvalOf?]
  simp only [hcall, if_true, Option.toList_some]

/-- An approval of the pair is counted once more. -/
theorem Counted.approve (hcounted : Counted keccak256 (provider, commitment) s calls t)
    (hcall : c.method = .approveAttestation provider commitment metadata)
    (haccepts : Accepts keccak256 c.msg provider commitment metadata t)
    (hafter : u = afterApproval keccak256 c.msg provider commitment metadata t recorded) :
    Counted keccak256 (provider, commitment) s (calls ++ [⟨t, c, recorded, u⟩]) u := by
  obtain ⟨hfresh, hnew⟩ := (hcounted.approved _).mp haccepts.fresh
  have hvote : approvals (provider, commitment) (calls ++ [⟨t, c, recorded, u⟩]) =
      approvals (provider, commitment) calls ++ [(c.msg.sender, metadata)] := approvals_last hcall
  have hvoters : voters (approvals (provider, commitment) (calls ++ [⟨t, c, recorded, u⟩])) =
      voters (approvals (provider, commitment) calls) ∪ {c.msg.sender} := by
    rw [hvote, voters_append]
    rfl
  refine ⟨?_, ?_, ?_, ?_⟩
  · rw [hvote]
    exact hcounted.each.concat hnew
  · intro oracle hmem
    rw [hvoters, Finset.mem_union, Finset.mem_singleton] at hmem
    rcases hmem with hmem | rfl
    · exact hcounted.fresh oracle hmem
    · exact hfresh
  · intro oracle
    rw [hvoters, Finset.mem_union, Finset.mem_singleton, hafter, oracleApproved_afterApproval,
      Function.update_self, Function.update_apply]
    split
    · rename_i hsender
      exact iff_of_false (fun h => by cases h) fun h => h.2 (.inr hsender)
    · rename_i hother
      rw [hcounted.approved]
      simp only [hother, or_false]
  · rw [hvote, hafter, approvalCount_afterApproval, Function.update_self,
      toNat_succ8 haccepts.count, hcounted.count, List.length_append, List.length_singleton,
      Nat.add_assoc]

/-- A call that approves the pair does this. -/
theorem Effect.approval (heffect : Effect keccak256 c recorded t u)
    (hpair : c.pair? = some (provider, commitment)) :
    ∃ metadata, c.method = .approveAttestation provider commitment metadata ∧
      Accepts keccak256 c.msg provider commitment metadata t ∧
      recorded = decide (t.threshold ≤
        t.approvalCount (pairKey keccak256 (provider, commitment)) + 1) ∧
      u = afterApproval keccak256 c.msg provider commitment metadata t recorded := by
  obtain ⟨metadata, hcall⟩ := pair?_eq_some.mp hpair
  cases heffect with
  | approve hcall' haccepts hrecorded hafter =>
      cases hcall.symm.trans hcall'
      exact ⟨metadata, hcall, haccepts, hrecorded, hafter⟩
  | manage hmanages =>
      rw [Call.manages, hcall] at hmanages
      cases hmanages
  | revoke hcall' => cases hcall.symm.trans hcall'

/-- Any other call leaves the pair's counter alone, as long as no other pair has its hash. -/
theorem Effect.spares {pairs : Set (Address × Key)} (heffect : Effect keccak256 c recorded t u)
    (hinj : Set.InjOn (pairKey keccak256) pairs) (hpair : pair ∈ pairs)
    (hcall : ∀ other, c.pair? = some other → other ∈ pairs) (hother : c.pair? ≠ some pair) :
    u.oracleApproved (pairKey keccak256 pair) = t.oracleApproved (pairKey keccak256 pair) ∧
      u.approvalCount (pairKey keccak256 pair) = t.approvalCount (pairKey keccak256 pair) := by
  cases heffect with
  | @approve provider commitment metadata hmethod _ _ hafter =>
      have hpair' : c.pair? = some (provider, commitment) := pair?_eq_some.mpr ⟨metadata, hmethod⟩
      have hkey : pairKey keccak256 pair ≠ pairKey keccak256 (provider, commitment) := by
        intro heq
        apply hother
        rw [hpair', hinj hpair (hcall _ hpair') heq]
      rw [hafter, oracleApproved_afterApproval, approvalCount_afterApproval]
      exact ⟨Function.update_of_ne hkey _ _, Function.update_of_ne hkey _ _⟩
  | manage _ _ _ _ _ hafter =>
      rw [hafter]
      exact ⟨rfl, rfl⟩
  | revoke _ _ _ _ hafter =>
      rw [hafter]
      exact ⟨rfl, rfl⟩

/-- Nothing but the approvals of a pair counts for it, as long as no other pair has its hash. -/
theorem run_counted {pairs : Set (Address × Key)} (hinj : Set.InjOn (pairKey keccak256) pairs)
    (hpair : pair ∈ pairs) (hrun : Runs keccak256 s calls t)
    (hpairs : approvedPairs calls ⊆ pairs) : Counted keccak256 pair s calls t := by
  refine hrun.invariant (I := fun calls u => approvedPairs calls ⊆ pairs →
    Counted keccak256 pair s calls u) (fun _ => .nil s) ?_ ?_ hpairs
  · intro calls c t recorded u ih hexec hpairs
    rw [approvedPairs_concat, Set.union_subset_iff] at hpairs
    have hcounted := ih hpairs.1
    have heffect := exec_effect hexec
    by_cases hsame : c.pair? = some pair
    · obtain ⟨metadata, hcall, haccepts, _, hafter⟩ := heffect.approval hsame
      exact hcounted.approve hcall haccepts hafter
    · obtain ⟨happroved, hcount⟩ := heffect.spares hinj hpair (fun _ h => hpairs.2 h) hsame
      exact hcounted.other hsame happroved hcount
  · intro calls u v _ hnothing
    exact hnothing.elim

end Counting

/-! ### Who stands behind a record -/

section Threshold

variable {keccak256 : BitVec 416 → Key} {s t u : QuantumVerifier} {calls : List Record} {c : Call}
  {provider : Address} {commitment : Key} {metadata : Metadata}

theorem insertOracles_eq_ok {oracles : List Address}
    (hfold : oracles.foldlM (fun s oracle => insertOracle oracle s) s = .ok t) :
    ∃ oracles oracleCount, t = { s with oracles, oracleCount } := by
  induction oracles generalizing s with
  | nil =>
      cases hfold
      exact ⟨_, _, rfl⟩
  | cons oracle rest ih =>
      rw [List.foldlM_cons] at hfold
      obtain ⟨u, hinsert, hrest⟩ := bind_eq_ok.mp hfold
      obtain ⟨_, _, rfl⟩ := insertOracle_eq_ok.mp hinsert
      obtain ⟨oracles', oracleCount', rfl⟩ := ih hrest
      exact ⟨oracles', oracleCount', rfl⟩

/-- A fresh deployment has counted nothing and recorded nothing. -/
theorem deploy_eq_ok {sender : Address} {oracles : List Address} {threshold : UInt8}
    (hdeploy : deploy sender oracles threshold = .ok s) :
    s.owner = sender ∧ s.attestations = (fun _ => .zero) ∧
      s.oracleApproved = (fun _ _ => false) ∧ s.approvalCount = fun _ => 0 := by
  simp only [deploy, bind_eq_ok, ensure_eq_ok, exists_const] at hdeploy
  obtain ⟨_, hfold⟩ := hdeploy
  obtain ⟨oracles', oracleCount, rfl⟩ := insertOracles_eq_ok hfold
  exact ⟨rfl, rfl, rfl, rfl⟩

/-- The next approval of a counted pair comes from somebody who has not approved it. -/
theorem Counted.new_voter (hcounted : Counted keccak256 (provider, commitment) s calls t)
    (haccepts : Accepts keccak256 c.msg provider commitment metadata t) :
    c.msg.sender ∉ voters (approvals (provider, commitment) calls) :=
  ((hcounted.approved _).mp haccepts.fresh).2

/-- What an approval that records something says of the counter. -/
theorem exec_recorded (hcall : c.method = .approveAttestation provider commitment metadata)
    (hexec : c.exec keccak256 t = .ok (true, u)) :
    Accepts keccak256 c.msg provider commitment metadata t ∧ u.oracles = t.oracles ∧
      t.threshold.toNat ≤ (t.approvalCount (pairKey keccak256 (provider, commitment))).toNat + 1 := by
  rw [Call.exec, hcall] at hexec
  obtain ⟨haccepts, hrecorded, hafter⟩ := approveAttestation_eq_ok.mp hexec
  refine ⟨haccepts, ?_, ?_⟩
  · rw [hafter]
    rfl
  · rw [← toNat_succ8 haccepts.count]
    exact UInt8.le_iff_toNat_le.mp (of_decide_eq_true hrecorded.symm)

/-- The pairs of a run and of one more approval include the one approved. -/
theorem mem_approvedPairs {recorded : Bool}
    (hcall : c.method = .approveAttestation provider commitment metadata) :
    (provider, commitment) ∈ approvedPairs (calls ++ [⟨t, c, recorded, u⟩]) := by
  refine ⟨_, List.mem_append_right _ (List.mem_singleton_self _), ?_⟩
  show c.pair? = some (provider, commitment)
  rw [Call.pair?, hcall]

/-- The counter of a pair that is being recorded, in a run from the deployment. -/
theorem counted_before {sender : Address} {oracles : List Address} {threshold : UInt8}
    {recorded : Bool} (hdeploy : deploy sender oracles threshold = .ok s)
    (hrun : Runs keccak256 s calls t)
    (hcall : c.method = .approveAttestation provider commitment metadata)
    (hinj : Set.InjOn (pairKey keccak256) (approvedPairs (calls ++ [⟨t, c, recorded, u⟩]))) :
    Counted keccak256 (provider, commitment) s calls t ∧
      (t.approvalCount (pairKey keccak256 (provider, commitment))).toNat =
        (approvals (provider, commitment) calls).length := by
  have hsub : approvedPairs calls ⊆ approvedPairs (calls ++ [⟨t, c, recorded, u⟩]) := by
    rw [approvedPairs_concat]
    exact Set.subset_union_left
  have hcounted := run_counted hinj (mem_approvedPairs hcall) hrun hsub
  refine ⟨hcounted, ?_⟩
  rw [hcounted.count, (deploy_eq_ok hdeploy).2.2.2]
  exact Nat.zero_add _

/-- A record has the approval of `threshold` oracles of its time exactly when the approvals by
addresses that were removed since are no more than the counter can spare. -/
theorem threshold_met {sender : Address} {oracles : List Address} {threshold : UInt8}
    (hdeploy : deploy sender oracles threshold = .ok s) (hrun : Runs keccak256 s calls t)
    (hcall : c.method = .approveAttestation provider commitment metadata)
    (hexec : c.exec keccak256 t = .ok (true, u))
    (hinj : Set.InjOn (pairKey keccak256) (approvedPairs (calls ++ [⟨t, c, true, u⟩]))) :
    t.threshold.toNat ≤
        (voters ((approvals (provider, commitment) (calls ++ [⟨t, c, true, u⟩])).filter
          fun vote => u.oracles vote.1)).card ↔
      t.threshold.toNat +
          (voters ((approvals (provider, commitment) calls).filter
            fun vote => !t.oracles vote.1)).card ≤
        (t.approvalCount (pairKey keccak256 (provider, commitment))).toNat + 1 := by
  obtain ⟨haccepts, horacles, _⟩ := exec_recorded hcall hexec
  obtain ⟨hcounted, hcount⟩ := counted_before hdeploy hrun hcall hinj
  rw [hcount, horacles, approvals_last hcall]
  exact quorum_iff hcounted.each (hcounted.new_voter haccepts) haccepts.oracle _

/-- Where all who approved a pair are still oracles, `threshold` of them stand behind its record. -/
theorem threshold_met_of_standing {sender : Address} {oracles : List Address} {threshold : UInt8}
    (hdeploy : deploy sender oracles threshold = .ok s) (hrun : Runs keccak256 s calls t)
    (hcall : c.method = .approveAttestation provider commitment metadata)
    (hexec : c.exec keccak256 t = .ok (true, u))
    (hinj : Set.InjOn (pairKey keccak256) (approvedPairs (calls ++ [⟨t, c, true, u⟩])))
    (hstanding : ∀ oracle ∈ voters (approvals (provider, commitment) calls), t.oracles oracle) :
    t.threshold.toNat ≤
      (voters ((approvals (provider, commitment) (calls ++ [⟨t, c, true, u⟩])).filter
        fun vote => u.oracles vote.1)).card := by
  obtain ⟨haccepts, horacles, henough⟩ := exec_recorded hcall hexec
  obtain ⟨hcounted, hcount⟩ := counted_before hdeploy hrun hcall hinj
  have hremoved : (approvals (provider, commitment) calls).filter
      (fun vote => !t.oracles vote.1) = [] := by
    refine List.filter_eq_nil_iff.mpr fun vote hmem => ?_
    rw [hstanding vote.1 (mem_voters.mpr ⟨vote.2, hmem⟩)]
    decide
  rw [horacles, approvals_last hcall]
  refine (quorum_iff hcounted.each (hcounted.new_voter haccepts) haccepts.oracle _).mpr ?_
  rw [hremoved, ← hcount]
  exact henough

end Threshold

/-! ### A sample run -/

/-- The hash of provider `3` with the commitment `0xa`, and with `0xb`. -/
def sampleKeccak (packed : BitVec 416) : Key :=
  if packed = (3 : Address) ++ (0xa : Key) then
    0xd58fcfe0e65505dc6b6e48b3610c1d8ca390af4e449e2302e038115d8586cd8f
  else 0x2b8266cd31c1488ef505fa491419905dc612c387407c35faa2782ae29ea8bcd4

def sampleMetadata : Metadata := ⟨"apple", "M4 Pro", 0xd113, List.replicate 32 0xed⟩

/-- The oracle's approval of a commitment of provider `3`. -/
def sampleApproval (oracle : Address) (commitment : Key) : Call :=
  ⟨⟨oracle, 1700000000⟩, .approveAttestation 3 commitment sampleMetadata⟩

/-- Owner `7` removes oracle `1`. -/
def sampleRemoval : Call := ⟨⟨7, 1700000000⟩, .removeOracle 1⟩

/-- Oracle `1` approves and is removed, and oracle `2` approves. -/
theorem sampleRemoved_ok : ∃ s calls t u, deploy 7 [1, 2, 4] 2 = .ok s ∧
    replay (Call.exec sampleKeccak) [sampleApproval 1 0xa, sampleRemoval] s = .ok (calls, t) ∧
    (sampleApproval 2 0xa).exec sampleKeccak t = .ok (true, u) ∧ t.threshold = 2 ∧
    approvedPairs (calls ++ [⟨t, sampleApproval 2 0xa, true, u⟩]) ⊆ {(3, 0xa)} ∧
    (voters ((approvals (3, 0xa) (calls ++ [⟨t, sampleApproval 2 0xa, true, u⟩])).filter
      fun vote => u.oracles vote.1)).card = 1 := by
  refine ⟨_, _, _, _, rfl, rfl, rfl, rfl, ?_, ?_⟩
  · intro pair hmem
    obtain ⟨taken, hmem, hpair⟩ := hmem
    simp only [List.mem_append, List.mem_cons, List.not_mem_nil, or_false] at hmem
    rcases hmem with (rfl | rfl) | rfl
    · cases hpair
      rfl
    · cases hpair
    · cases hpair
      rfl
  · decide +kernel

/-- The record is written with the approval of one oracle, where two are asked for. -/
theorem threshold_missed : ∃ s calls t u, deploy 7 [1, 2, 4] 2 = .ok s ∧
    Runs sampleKeccak s calls t ∧ (sampleApproval 2 0xa).exec sampleKeccak t = .ok (true, u) ∧
    Set.InjOn (pairKey sampleKeccak)
      (approvedPairs (calls ++ [⟨t, sampleApproval 2 0xa, true, u⟩])) ∧
    ¬ t.threshold.toNat ≤
      (voters ((approvals (3, 0xa) (calls ++ [⟨t, sampleApproval 2 0xa, true, u⟩])).filter
        fun vote => u.oracles vote.1)).card := by
  obtain ⟨s, calls, t, u, hdeploy, hreplay, hexec, hthreshold, hpairs, hcard⟩ := sampleRemoved_ok
  refine ⟨s, calls, t, u, hdeploy, .of_replay hreplay, hexec,
    (Set.injOn_singleton _ _).mono hpairs, ?_⟩
  rw [hcard, hthreshold]
  decide

theorem threshold_met_sample : ∃ s calls t u, deploy 7 [1, 2, 4] 2 = .ok s ∧
    Runs sampleKeccak s calls t ∧ (sampleApproval 2 0xa).exec sampleKeccak t = .ok (true, u) ∧
    (t.threshold.toNat ≤
        (voters ((approvals (3, 0xa) (calls ++ [⟨t, sampleApproval 2 0xa, true, u⟩])).filter
          fun vote => u.oracles vote.1)).card ↔
      t.threshold.toNat +
          (voters ((approvals (3, 0xa) calls).filter fun vote => !t.oracles vote.1)).card ≤
        (t.approvalCount (pairKey sampleKeccak (3, 0xa))).toNat + 1) := by
  obtain ⟨s, calls, t, u, hdeploy, hreplay, hexec, hthreshold, hpairs, hcard⟩ := sampleRemoved_ok
  have hrun : Runs sampleKeccak s calls t := .of_replay hreplay
  exact ⟨s, calls, t, u, hdeploy, hrun, hexec,
    threshold_met hdeploy hrun rfl hexec ((Set.injOn_singleton _ _).mono hpairs)⟩

end NeuralMesh.Evm.QuantumVerifier
