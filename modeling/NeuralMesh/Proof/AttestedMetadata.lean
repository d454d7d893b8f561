import NeuralMesh.Proof.OracleVotes

/-!
# The metadata of a record

The oracles vote on a provider and a commitment. The other fields of a record are those of the call
that wrote it: other oracles need not have submitted them, and another submission by that one oracle
makes another record.
-/

namespace NeuralMesh.Evm.QuantumVerifier

open Tally

/-- A field of a record besides the commitment. -/
inductive Field where
  | gpuVendor | gpuModel | dil3PubkeyHash | ed25519Pubkey
  deriving DecidableEq, Repr

/-- The two submissions agree on the field. -/
def Field.same (field : Field) (m m' : Metadata) : Bool :=
  match field with
  | .gpuVendor => m.gpuVendor = m'.gpuVendor
  | .gpuModel => m.gpuModel = m'.gpuModel
  | .dil3PubkeyHash => m.dil3PubkeyHash = m'.dil3PubkeyHash
  | .ed25519Pubkey => m.ed25519Pubkey = m'.ed25519Pubkey

theorem Field.same_self (field : Field) (m : Metadata) : field.same m m = true := by
  cases field with
  | gpuVendor => exact decide_eq_true rfl
  | gpuModel => exact decide_eq_true rfl
  | dil3PubkeyHash => exact decide_eq_true rfl
  | ed25519Pubkey => exact decide_eq_true rfl

/-- That many oracles approved the commitment, and that many submitted each field of the record. -/
structure Agreed (quorum : Nat) (votes : List (Address × Metadata)) (record : AttestationRecord) :
    Prop where
  commitment : quorum ≤ (voters votes).card
  field : ∀ field : Field,
    quorum ≤ (voters (votes.filter fun vote => field.same vote.2 record.toMetadata)).card

section Recorded

variable {keccak256 : BitVec 416 → Key} {s t u : QuantumVerifier} {calls : List Record} {c : Call}
  {provider : Address} {commitment : Key} {metadata : Metadata}

theorem attestations_recorded
    (hcall : c.method = .approveAttestation provider commitment metadata)
    (hexec : c.exec keccak256 t = .ok (true, u)) :
    u.attestations provider = recordOf c.msg commitment metadata := by
  rw [Call.exec, hcall] at hexec
  obtain ⟨_, _, hafter⟩ := approveAttestation_eq_ok.mp hexec
  rw [hafter, attestations_afterApproval, if_pos ⟨rfl, rfl⟩]

/-- A record is agreed on exactly when, field by field, the approvals that differ from it are no
more than the counter can spare. -/
theorem recorded_agreed {sender : Address} {oracles : List Address} {threshold : UInt8}
    (hdeploy : deploy sender oracles threshold = .ok s) (hrun : Runs keccak256 s calls t)
    (hcall : c.method = .approveAttestation provider commitment metadata)
    (hexec : c.exec keccak256 t = .ok (true, u))
    (hinj : Set.InjOn (pairKey keccak256) (approvedPairs (calls ++ [⟨t, c, true, u⟩]))) :
    Agreed t.threshold.toNat
        (approvals (provider, (u.attestations provider).commitment) (calls ++ [⟨t, c, true, u⟩]))
        (u.attestations provider) ↔
      ∀ field : Field, t.threshold.toNat +
          (voters ((approvals (provider, commitment) calls).filter
            fun vote => !field.same vote.2 metadata)).card ≤
        (t.approvalCount (pairKey keccak256 (provider, commitment))).toNat + 1 := by
  obtain ⟨haccepts, _, henough⟩ := exec_recorded hcall hexec
  obtain ⟨hcounted, hcount⟩ := counted_before hdeploy hrun hcall hinj
  have hnew := hcounted.new_voter haccepts
  have hfield : ∀ field : Field, t.threshold.toNat ≤
      (voters ((approvals (provider, commitment) calls ++ [(c.msg.sender, metadata)]).filter
        fun vote => field.same vote.2 metadata)).card ↔
      t.threshold.toNat + (voters ((approvals (provider, commitment) calls).filter
        fun vote => !field.same vote.2 metadata)).card ≤
          (approvals (provider, commitment) calls).length + 1 :=
    fun field => quorum_iff hcounted.each hnew (field.same_self metadata) _
  rw [hcount] at henough ⊢
  rw [attestations_recorded hcall hexec]
  simp only [recordOf, approvals_last hcall]
  constructor
  · intro hagreed field
    exact (hfield field).mp (hagreed.field field)
  · intro hfew
    refine ⟨?_, fun field => (hfield field).mpr (hfew field)⟩
    rw [card_voters (hcounted.each.concat hnew), List.length_append, List.length_singleton]
    exact henough

end Recorded

/-! ### Another submission -/

section Twice

variable (keccak256 : BitVec 416 → Key)

/-- The call will write the provider's record. -/
def Writes (provider : Address) (c : Call) (s : QuantumVerifier) : Prop :=
  ∃ commitment metadata, c.method = .approveAttestation provider commitment metadata ∧
    Accepts keccak256 c.msg provider commitment metadata s ∧
    s.threshold ≤ s.approvalCount (pairKey keccak256 (provider, commitment)) + 1

/-- One of the calls, made in this order, will write the provider's record. -/
def WrittenIn (provider : Address) : List Call → QuantumVerifier → Prop
  | [], _ => False
  | c :: cs, s => Writes keccak256 provider c s ∨
      WrittenIn provider cs (perform (Call.exec keccak256) c s).2

/-- The storage with other metadata in a provider's record. -/
def withMetadata (provider : Address) (metadata : Metadata) (s : QuantumVerifier) :
    QuantumVerifier :=
  { s with
    attestations := Function.update s.attestations provider
      { s.attestations provider with toMetadata := metadata } }

variable {keccak256} {provider : Address} {metadata : Metadata} {c : Call} {s : QuantumVerifier}

theorem accepts_withMetadata {msg : Message} {q : Address} {commitment : Key} {m : Metadata} :
    Accepts keccak256 msg q commitment m (s.withMetadata provider metadata) ↔
      Accepts keccak256 msg q commitment m s := by
  have hrevoked : ((s.withMetadata provider metadata).attestations q).revoked =
      (s.attestations q).revoked := by
    simp only [withMetadata, Function.update_apply]
    split
    · rename_i hq
      rw [hq]
    · rfl
  constructor
  · intro h
    exact ⟨h.oracle, h.key, hrevoked ▸ h.live, h.fresh, h.count⟩
  · intro h
    exact ⟨h.oracle, h.key, hrevoked.trans h.live, h.fresh, h.count⟩

/-- A call that will write the record leaves no trace of the metadata before it. -/
theorem perform_of_writes (hwrites : Writes keccak256 provider c s) :
    (perform (Call.exec keccak256) c (s.withMetadata provider metadata)).2 =
      (perform (Call.exec keccak256) c s).2 := by
  obtain ⟨commitment, m, hcall, haccepts, henough⟩ := hwrites
  have hwrite : ∀ s', Accepts keccak256 c.msg provider commitment m s' →
      s'.threshold ≤ s'.approvalCount (pairKey keccak256 (provider, commitment)) + 1 →
        (perform (Call.exec keccak256) c s').2 =
          afterApproval keccak256 c.msg provider commitment m s' true := by
    intro s' haccepts henough
    have hexec : c.exec keccak256 s' =
        .ok (true, afterApproval keccak256 c.msg provider commitment m s' true) := by
      rw [Call.exec, hcall]
      exact approveAttestation_eq_ok.mpr ⟨haccepts, (decide_eq_true henough).symm, rfl⟩
    exact perform_of_ok hexec
  rw [hwrite s haccepts henough,
    hwrite (s.withMetadata provider metadata) (accepts_withMetadata.mpr haccepts) henough]
  simp only [afterApproval, if_true, counted, withMetadata, Function.update_idem]

theorem afterApproval_withMetadata {msg : Message} {q : Address} {commitment : Key} {m : Metadata}
    {recorded : Bool} (hother : recorded = true → q ≠ provider) :
    afterApproval keccak256 msg q commitment m (s.withMetadata provider metadata) recorded =
      (afterApproval keccak256 msg q commitment m s recorded).withMetadata provider metadata := by
  cases recorded with
  | false => rfl
  | true =>
      have hq := hother rfl
      simp only [afterApproval, if_true, counted, withMetadata, Function.update_of_ne hq.symm]
      rw [Function.update_comm hq]

theorem afterRevocation_withMetadata (q : Address) :
    afterRevocation q (s.withMetadata provider metadata) =
      (afterRevocation q s).withMetadata provider metadata := by
  by_cases hq : q = provider
  · subst hq
    simp only [afterRevocation, withMetadata, Function.update_self, Function.update_idem]
  · simp only [afterRevocation, withMetadata, Function.update_of_ne hq,
      Function.update_of_ne (Ne.symm hq)]
    rw [Function.update_comm (Ne.symm hq)]

/-- Any other call leaves it as it is. -/
theorem perform_of_not_writes (hkeep : ¬ Writes keccak256 provider c s) :
    (perform (Call.exec keccak256) c (s.withMetadata provider metadata)).2 =
      (perform (Call.exec keccak256) c s).2.withMetadata provider metadata := by
  refine perform_comm fun recorded t => ?_
  obtain ⟨msg, method⟩ := c
  cases method with
  | addOracle oracle =>
      simp only [Call.exec, addOracle, onlyOwner, bind_eq_ok, ensure_eq_ok, insertOracle_eq_ok,
        pure_eq_ok, exists_const, Prod.mk.injEq]
      constructor
      · intro h
        obtain ⟨howner, u, ⟨hnew, hcount, rfl⟩, rfl, rfl⟩ := h
        exact ⟨_, ⟨howner, _, ⟨hnew, hcount, rfl⟩, rfl, rfl⟩, rfl⟩
      · intro h
        obtain ⟨_, ⟨howner, u, ⟨hnew, hcount, rfl⟩, rfl, rfl⟩, rfl⟩ := h
        exact ⟨howner, _, ⟨hnew, hcount, rfl⟩, rfl, rfl⟩
  | removeOracle oracle =>
      simp only [Call.exec, removeOracle, onlyOwner, bind_eq_ok, ensure_eq_ok, pure_eq_ok,
        exists_const, Prod.mk.injEq]
      constructor
      · intro h
        obtain ⟨howner, horacle, oracleCount, hcount, hthreshold, rfl, rfl⟩ := h
        exact ⟨_, ⟨howner, horacle, oracleCount, hcount, hthreshold, rfl, rfl⟩, rfl⟩
      · intro h
        obtain ⟨_, ⟨howner, horacle, oracleCount, hcount, hthreshold, rfl, rfl⟩, rfl⟩ := h
        exact ⟨howner, horacle, oracleCount, hcount, hthreshold, rfl, rfl⟩
  | setThreshold threshold =>
      simp only [Call.exec, setThreshold, onlyOwner, bind_eq_ok, ensure_eq_ok, pure_eq_ok,
        exists_const, Prod.mk.injEq]
      constructor
      · intro h
        obtain ⟨howner, hthreshold, rfl, rfl⟩ := h
        exact ⟨_, ⟨howner, hthreshold, rfl, rfl⟩, rfl⟩
      · intro h
        obtain ⟨_, ⟨howner, hthreshold, rfl, rfl⟩, rfl⟩ := h
        exact ⟨howner, hthreshold, rfl, rfl⟩
  | approveAttestation q commitment m =>
      simp only [Call.exec, approveAttestation_eq_ok, accepts_withMetadata]
      have hother : Accepts keccak256 msg q commitment m s → recorded = decide (s.threshold ≤
          s.approvalCount (pairKey keccak256 (q, commitment)) + 1) → recorded = true →
            q ≠ provider := by
        intro haccepts hrecorded htrue hq
        subst hq
        rw [htrue] at hrecorded
        exact hkeep ⟨commitment, m, rfl, haccepts, of_decide_eq_true hrecorded.symm⟩
      constructor
      · intro h
        obtain ⟨haccepts, hrecorded, hafter⟩ := h
        refine ⟨_, ⟨haccepts, hrecorded, rfl⟩, ?_⟩
        rw [hafter, afterApproval_withMetadata (hother haccepts hrecorded)]
      · intro h
        obtain ⟨u, ⟨haccepts, hrecorded, rfl⟩, hafter⟩ := h
        refine ⟨haccepts, hrecorded, ?_⟩
        rw [hafter, afterApproval_withMetadata (hother haccepts hrecorded)]
  | revokeAttestation q =>
      have hcommitment : ((s.withMetadata provider metadata).attestations q).commitment =
          (s.attestations q).commitment := by
        simp only [withMetadata, Function.update_apply]
        split
        · rename_i hq
          rw [hq]
        · rfl
      simp only [Call.exec, revokeAttestation_eq_ok, afterRevocation_withMetadata, hcommitment]
      constructor
      · intro h
        obtain ⟨howner, hregistered, hrecorded, hafter⟩ := h
        exact ⟨_, ⟨howner, hregistered, hrecorded, rfl⟩, hafter⟩
      · intro h
        obtain ⟨_, ⟨howner, hregistered, hrecorded, rfl⟩, hafter⟩ := h
        exact ⟨howner, hregistered, hrecorded, hafter⟩

theorem stateAfter_of_written {cs : List Call} (hwritten : WrittenIn keccak256 provider cs s) :
    stateAfter (Call.exec keccak256) cs (s.withMetadata provider metadata) =
      stateAfter (Call.exec keccak256) cs s := by
  induction cs generalizing s with
  | nil => exact hwritten.elim
  | cons c cs ih =>
      show stateAfter _ cs (perform _ c _).2 = stateAfter _ cs (perform _ c s).2
      by_cases hwrites : Writes keccak256 provider c s
      · rw [perform_of_writes hwrites]
      · rw [perform_of_not_writes hwrites]
        exact ih (hwritten.resolve_left hwrites)

theorem stateAfter_of_not_written {cs : List Call} (metadata : Metadata)
    (hnone : ¬ WrittenIn keccak256 provider cs s) :
    stateAfter (Call.exec keccak256) cs (s.withMetadata provider metadata) =
      (stateAfter (Call.exec keccak256) cs s).withMetadata provider metadata := by
  induction cs generalizing s with
  | nil => rfl
  | cons c cs ih =>
      have hhead : ¬ Writes keccak256 provider c s := fun h => hnone (.inl h)
      have htail := ih (s := (perform (Call.exec keccak256) c s).2) fun h => hnone (.inr h)
      show stateAfter _ cs (perform _ c _).2 = (stateAfter _ cs (perform _ c s).2).withMetadata _ _
      rw [perform_of_not_writes hhead]
      exact htail

theorem metadata_withMetadata :
    ((s.withMetadata provider metadata).attestations provider).toMetadata = metadata := by
  simp only [withMetadata, Function.update_self]

theorem withMetadata_self (s : QuantumVerifier) (provider : Address) :
    s.withMetadata provider (s.attestations provider).toMetadata = s := by
  unfold withMetadata
  rw [Function.update_eq_self]

/-- The metadata stays as long as the record is not written. -/
theorem metadata_kept {cs : List Call} (hnone : ¬ WrittenIn keccak256 provider cs s) :
    ((stateAfter (Call.exec keccak256) cs s).attestations provider).toMetadata =
      (s.attestations provider).toMetadata := by
  have hsame := stateAfter_of_not_written (s.attestations provider).toMetadata hnone
  rw [withMetadata_self] at hsame
  rw [hsame, metadata_withMetadata]

variable {msg : Message} {commitment : Key} {metadata' : Metadata}

/-- Another submission is accepted alike. -/
theorem accepts_resubmitted (hkey : metadata.ed25519Pubkey.length = 32)
    (hkey' : metadata'.ed25519Pubkey.length = 32) :
    Accepts keccak256 msg provider commitment metadata' s ↔
      Accepts keccak256 msg provider commitment metadata s := by
  constructor
  · intro h
    exact ⟨h.oracle, hkey, h.live, h.fresh, h.count⟩
  · intro h
    exact ⟨h.oracle, hkey', h.live, h.fresh, h.count⟩

/-- Where the call writes the record, another submission makes another record. -/
theorem resubmitted_of_writes (hkey : metadata.ed25519Pubkey.length = 32)
    (hkey' : metadata'.ed25519Pubkey.length = 32)
    (hwrites : Writes keccak256 provider
      ⟨msg, .approveAttestation provider commitment metadata⟩ s) :
    (perform (Call.exec keccak256) ⟨msg, .approveAttestation provider commitment metadata'⟩ s).2 =
      (perform (Call.exec keccak256)
        ⟨msg, .approveAttestation provider commitment metadata⟩ s).2.withMetadata
          provider metadata' ∧
    ((perform (Call.exec keccak256) ⟨msg, .approveAttestation provider commitment metadata⟩
      s).2.attestations provider).toMetadata = metadata := by
  obtain ⟨k, m, hcall, haccepts, henough⟩ := hwrites
  cases hcall
  have hfirst : Call.exec keccak256 ⟨msg, .approveAttestation provider commitment metadata⟩ s =
      .ok (true, afterApproval keccak256 msg provider commitment metadata s true) :=
    approveAttestation_eq_ok.mpr ⟨haccepts, (decide_eq_true henough).symm, rfl⟩
  have hsecond : Call.exec keccak256 ⟨msg, .approveAttestation provider commitment metadata'⟩ s =
      .ok (true, afterApproval keccak256 msg provider commitment metadata' s true) :=
    approveAttestation_eq_ok.mpr ⟨(accepts_resubmitted hkey hkey').mpr haccepts,
      (decide_eq_true henough).symm, rfl⟩
  rw [perform_of_ok hfirst, perform_of_ok hsecond]
  constructor
  · simp only [afterApproval, if_true, withMetadata, Function.update_self, Function.update_idem,
      recordOf]
  · simp only [afterApproval, if_true, Function.update_self, recordOf]

/-- Where it does not, another submission makes no difference. -/
theorem resubmitted_of_not_writes (hkey : metadata.ed25519Pubkey.length = 32)
    (hkey' : metadata'.ed25519Pubkey.length = 32)
    (hkeep : ¬ Writes keccak256 provider
      ⟨msg, .approveAttestation provider commitment metadata⟩ s) :
    (perform (Call.exec keccak256) ⟨msg, .approveAttestation provider commitment metadata'⟩ s).2 =
      (perform (Call.exec keccak256)
        ⟨msg, .approveAttestation provider commitment metadata⟩ s).2 := by
  refine perform_congr fun recorded t => ?_
  simp only [Call.exec, approveAttestation_eq_ok, accepts_resubmitted hkey hkey']
  refine and_congr_right fun haccepts => and_congr_right fun hrecorded => ?_
  -- an approval that records nothing only counts
  have hfew : recorded = false := by
    rw [hrecorded]
    exact decide_eq_false fun henough => hkeep ⟨commitment, metadata, rfl, haccepts, henough⟩
  rw [hfew]
  rfl

/-- Another submission by one call leaves the record as it is exactly when it is the same, or the
call does not write the record, or a later one does. -/
theorem resubmitted_iff (hkey : metadata.ed25519Pubkey.length = 32)
    (hkey' : metadata'.ed25519Pubkey.length = 32) (rest : List Call) :
    (stateAfter (Call.exec keccak256)
          (⟨msg, .approveAttestation provider commitment metadata'⟩ :: rest) s).attestations provider =
        (stateAfter (Call.exec keccak256)
          (⟨msg, .approveAttestation provider commitment metadata⟩ :: rest) s).attestations provider ↔
      metadata' = metadata ∨
        ¬ Writes keccak256 provider ⟨msg, .approveAttestation provider commitment metadata⟩ s ∨
        WrittenIn keccak256 provider rest (perform (Call.exec keccak256)
          ⟨msg, .approveAttestation provider commitment metadata⟩ s).2 := by
  show (stateAfter _ rest (perform _ _ s).2).attestations provider =
    (stateAfter _ rest (perform _ _ s).2).attestations provider ↔ _
  by_cases hwrites : Writes keccak256 provider
      ⟨msg, .approveAttestation provider commitment metadata⟩ s
  · obtain ⟨hother, hmetadata⟩ := resubmitted_of_writes hkey hkey' hwrites
    rw [hother]
    by_cases hwritten : WrittenIn keccak256 provider rest (perform (Call.exec keccak256)
        ⟨msg, .approveAttestation provider commitment metadata⟩ s).2
    · rw [stateAfter_of_written hwritten]
      exact iff_of_true rfl (.inr (.inr hwritten))
    · rw [stateAfter_of_not_written metadata' hwritten]
      have hkept := metadata_kept hwritten
      rw [hmetadata] at hkept
      have hself := withMetadata_self (stateAfter (Call.exec keccak256) rest
        (perform (Call.exec keccak256)
          ⟨msg, .approveAttestation provider commitment metadata⟩ s).2) provider
      rw [hkept] at hself
      constructor
      · intro hsame
        left
        rw [← hkept, ← hsame, metadata_withMetadata]
      · intro h
        have heq : metadata' = metadata :=
          h.resolve_right fun h => h.elim (fun hnot => hnot hwrites) hwritten
        rw [heq, hself]
  · rw [resubmitted_of_not_writes hkey hkey' hwrites]
    exact iff_of_true rfl (.inr (.inl hwrites))

end Twice

/-- In any run, a record is agreed on exactly when few enough of the approvals differ from it, and
depends on the submission of a single call exactly when that call is the last that writes it. -/
theorem record_agreed {keccak256 : BitVec 416 → Key} {sender : Address} {oracles : List Address}
    {threshold : UInt8} {s t : QuantumVerifier} {calls : List Record}
    (hdeploy : deploy sender oracles threshold = .ok s) (hrun : Runs keccak256 s calls t) :
    (∀ c provider commitment metadata u,
      c.method = .approveAttestation provider commitment metadata →
      c.exec keccak256 t = .ok (true, u) →
      Set.InjOn (pairKey keccak256) (approvedPairs (calls ++ [⟨t, c, true, u⟩])) →
      (Agreed t.threshold.toNat
          (approvals (provider, (u.attestations provider).commitment) (calls ++ [⟨t, c, true, u⟩]))
          (u.attestations provider) ↔
        ∀ field : Field, t.threshold.toNat +
            (voters ((approvals (provider, commitment) calls).filter
              fun vote => !field.same vote.2 metadata)).card ≤
          (t.approvalCount (pairKey keccak256 (provider, commitment))).toNat + 1)) ∧
    ∀ msg provider commitment (metadata metadata' : Metadata) rest,
      metadata.ed25519Pubkey.length = 32 → metadata'.ed25519Pubkey.length = 32 →
      ((stateAfter (Call.exec keccak256)
            (⟨msg, .approveAttestation provider commitment metadata'⟩ :: rest) t).attestations
              provider =
          (stateAfter (Call.exec keccak256)
            (⟨msg, .approveAttestation provider commitment metadata⟩ :: rest) t).attestations
              provider ↔
        metadata' = metadata ∨
          ¬ Writes keccak256 provider ⟨msg, .approveAttestation provider commitment metadata⟩ t ∨
          WrittenIn keccak256 provider rest (perform (Call.exec keccak256)
            ⟨msg, .approveAttestation provider commitment metadata⟩ t).2) :=
  ⟨fun _ _ _ _ _ hcall hexec hinj => recorded_agreed hdeploy hrun hcall hexec hinj,
    fun _ _ _ _ _ rest hkey hkey' => resubmitted_iff hkey hkey' rest⟩

/-! ### A sample run -/

/-- Oracle `2` submits another key hash than oracle `1`. -/
def sampleDissent : Call :=
  ⟨⟨2, 1700000000⟩,
    .approveAttestation 3 0xa { sampleMetadata with dil3PubkeyHash := 0xbad }⟩

theorem sampleDissent_ok : ∃ s calls t u, deploy 7 [1, 2, 4] 2 = .ok s ∧
    replay (Call.exec sampleKeccak) [sampleApproval 1 0xa] s = .ok (calls, t) ∧
    sampleDissent.exec sampleKeccak t = .ok (true, u) ∧ t.threshold = 2 ∧
    (u.attestations 3).commitment = 0xa ∧ (u.attestations 3).dil3PubkeyHash = 0xbad ∧
    approvedPairs (calls ++ [⟨t, sampleDissent, true, u⟩]) ⊆ {(3, 0xa)} ∧
    (voters ((approvals (3, 0xa) (calls ++ [⟨t, sampleDissent, true, u⟩])).filter fun vote =>
      Field.same .dil3PubkeyHash vote.2 (u.attestations 3).toMetadata)).card = 1 := by
  refine ⟨_, _, _, _, rfl, rfl, rfl, rfl, rfl, rfl, ?_, ?_⟩
  · intro pair hmem
    obtain ⟨taken, hmem, hpair⟩ := hmem
    simp only [List.mem_append, List.mem_cons, List.not_mem_nil, or_false] at hmem
    rcases hmem with rfl | rfl
    · cases hpair
      rfl
    · cases hpair
      rfl
  · decide +kernel

/-- With a threshold of two, the recorded key hash was submitted by one oracle alone. -/
theorem metadata_of_one : ∃ s calls t u, deploy 7 [1, 2, 4] 2 = .ok s ∧
    Runs sampleKeccak s calls t ∧ sampleDissent.exec sampleKeccak t = .ok (true, u) ∧
    (u.attestations 3).dil3PubkeyHash = 0xbad ∧
    ¬ Agreed t.threshold.toNat
      (approvals (3, (u.attestations 3).commitment) (calls ++ [⟨t, sampleDissent, true, u⟩]))
      (u.attestations 3) := by
  obtain ⟨s, calls, t, u, hdeploy, hreplay, hexec, hthreshold, hcommitment, hhash, _, hcard⟩ :=
    sampleDissent_ok
  refine ⟨s, calls, t, u, hdeploy, .of_replay hreplay, hexec, hhash, fun hagreed => ?_⟩
  have hfield := hagreed.field .dil3PubkeyHash
  rw [hcommitment, hcard, hthreshold] at hfield
  exact absurd hfield (by decide)

theorem record_agreed_sample : ∃ s calls t u, deploy 7 [1, 2, 4] 2 = .ok s ∧
    Runs sampleKeccak s calls t ∧ sampleDissent.exec sampleKeccak t = .ok (true, u) ∧
    (Agreed t.threshold.toNat
        (approvals (3, (u.attestations 3).commitment) (calls ++ [⟨t, sampleDissent, true, u⟩]))
        (u.attestations 3) ↔
      ∀ field : Field, t.threshold.toNat +
          (voters ((approvals (3, 0xa) calls).filter fun vote =>
            !field.same vote.2 { sampleMetadata with dil3PubkeyHash := 0xbad })).card ≤
        (t.approvalCount (pairKey sampleKeccak (3, 0xa))).toNat + 1) := by
  obtain ⟨s, calls, t, u, hdeploy, hreplay, hexec, _, _, _, hpairs, _⟩ := sampleDissent_ok
  have hrun : Runs sampleKeccak s calls t := .of_replay hreplay
  exact ⟨s, calls, t, u, hdeploy, hrun, hexec, (record_agreed hdeploy hrun).1 _ _ _ _ _ rfl hexec
    ((Set.injOn_singleton _ _).mono hpairs)⟩

end NeuralMesh.Evm.QuantumVerifier
