import NeuralMesh.Ledger.SendTx
import NeuralMesh.Proof.Eip1559
import Mathlib.Data.List.Perm.Basic

/-!
# The nonces of concurrent settlements

The oracle signs with the number of mined transactions that it read, three requests earlier. So two
calls sign distinct nonces exactly when the chain mined a transaction of the key between their reads.
-/

namespace NeuralMesh.Ledger

/-- A call and the number of mined transactions that it read. -/
structure NonceRead where
  who : Nat
  mined : Nat
  deriving DecidableEq

structure Signing where
  who : Nat
  signed : SignedTx

/-- The number that the signed transaction stands for, as its call must have read it. -/
def Signing.read (s : Signing) : NonceRead := ⟨s.who, s.signed.tx.nonce.toNat⟩

abbrev RpcEvent := Event Rpc Chain Vec

def nonceRead : RpcEvent → Option NonceRead
  | .ran who _ (.getTransactionCount address) before _ => some ⟨who, before.transactionCount address⟩
  | _ => none

/-- A transaction is signed when it goes to the node, whatever becomes of it there. -/
def signing : RpcEvent → Option Signing
  | .ran who _ (.sendRawTransaction signed) _ _ => some ⟨who, signed⟩
  | .refused who _ (.sendRawTransaction signed) => some ⟨who, signed⟩
  | .lost who _ (.sendRawTransaction signed) => some ⟨who, signed⟩
  | _ => none

def nonceReads (es : List RpcEvent) : List NonceRead := es.filterMap nonceRead

def signings (es : List RpcEvent) : List Signing := es.filterMap signing

/-- The signed transactions carry pairwise distinct nonces. -/
def DistinctNonces (es : List RpcEvent) : Prop :=
  ((signings es).map (·.signed.tx.nonce)).Nodup

/-- The reads of the calls that came to sign. -/
def signedReads (es : List RpcEvent) : List NonceRead :=
  (nonceReads es).filter fun read => read.who ∈ (signings es).map (·.who)

/-- Between the reads of any two calls that signed, a transaction of the key was mined. -/
def MinedBetween (es : List RpcEvent) : Prop :=
  (signedReads es).Pairwise fun first second => first.mined < second.mined

/-! ### What is left of a call -/

def Rpc.Later : Rpc → Prop
  | .getTransactionCount _ | .sendRawTransaction _ => False
  | _ => True

/-- Neither reads a nonce nor sends. -/
abbrev Quiet (call : Call) : Prop := call.Uses Rpc.Later

/-- May send once, with the nonce `n`. -/
def Carries (n : UInt64) : Call → Prop
  | .done _ => True
  | .query (.sendRawTransaction signed) next fail =>
      signed.tx.nonce = n ∧ (∀ a, Quiet (next a)) ∧ Quiet fail
  | .query (.getTransactionCount _) _ _ => False
  | .query .gasPrice next fail => (∀ a, Carries n (next a)) ∧ Carries n fail
  | .query .chainId next fail => (∀ a, Carries n (next a)) ∧ Carries n fail
  | .query (.getTransactionReceipt _) next fail => (∀ a, Carries n (next a)) ∧ Carries n fail

/-- Begins with the nonce of `address`, and carries it. -/
def Begins (address : EthAddress) : Call → Prop
  | .done _ => True
  | .query (.getTransactionCount a) next fail =>
      a = address ∧ (∀ n, Carries n (next n)) ∧ Quiet fail
  | _ => False

theorem waitForReceipt_quiet {txHash : String} {maxAttempts : Nat} {next : Receipt → Call}
    (hnext : ∀ receipt, Quiet (next receipt)) (left : Nat) :
    Quiet (waitForReceipt txHash maxAttempts next left) := by
  induction left with
  | zero => trivial
  | succ left ih =>
      refine ⟨trivial, ?_, trivial⟩
      intro answer
      cases answer with
      | some receipt => exact hnext receipt
      | none => exact ih

theorem signAndSend_carries (key : SigningKey) (tx : Eip1559Tx) :
    Carries tx.nonce (signAndSend key tx) := by
  rw [signAndSend]
  split
  · trivial
  · refine ⟨rfl, ?_, trivial⟩
    intro txHash
    apply waitForReceipt_quiet
    intro receipt
    split <;> trivial

/-- Every call of one oracle reads the nonce of one address, and signs with what it read. -/
theorem sendTx_begins (k256 : K256) (oracle : ArbitrumOracle) :
    ∃ address, ∀ calldata, Begins address (sendTx k256 oracle calldata) := by
  cases hkey : oracle.signingKey k256 with
  | none =>
      refine ⟨default, fun calldata => ?_⟩
      rw [sendTx, hkey]
      trivial
  | some signer =>
      refine ⟨signingKeyToAddress signer, fun calldata => ?_⟩
      rw [sendTx, hkey]
      refine ⟨rfl, fun nonce => ⟨fun gasPrice => ⟨fun chainId => ?_, trivial⟩, trivial⟩, trivial⟩
      cases parseAddress oracle.escrowAddrHex with
      | none => trivial
      | some toAddr => exact signAndSend_carries _ (settlementTx nonce gasPrice chainId toAddr calldata)

/-! ### Runs -/

/-- Where a call stands, given what was read and signed so far. -/
inductive Stage (address : EthAddress) (reads : List NonceRead) (signed : List Signing) (i : Nat) :
    Call → Prop
  | waiting {call : Call} (hcall : Begins address call) (hread : i ∉ reads.map (·.who))
      (hsigned : i ∉ signed.map (·.who)) : Stage address reads signed i call
  | carrying {call : Call} (n : UInt64) (hcall : Carries n call) (hread : ⟨i, n.toNat⟩ ∈ reads)
      (hsigned : i ∉ signed.map (·.who)) : Stage address reads signed i call
  | quiet {call : Call} (hcall : Quiet call) : Stage address reads signed i call

/-- What was read and signed so far, beside the pool. -/
structure Traced (address : EthAddress) (reads : List NonceRead) (signed : List Signing)
    (p : Pool Rpc.Answer Chain Vec (Except SendError String)) : Prop where
  sorted : reads.Pairwise fun first second => first.mined ≤ second.mined
  bound : ∀ read ∈ reads, read.mined ≤ p.store.transactionCount address
  readOnce : (reads.map (·.who)).Nodup
  signedOnce : (signed.map (·.who)).Nodup
  source : ∀ s ∈ signed, s.read ∈ reads
  stages : ∀ i r, p.requests[i]? = some r → Stage address reads signed i r.rest

namespace Stage

variable {address : EthAddress} {reads : List NonceRead} {signed : List Signing} {i : Nat}

theorem of_count {a : EthAddress} {next : UInt64 → Call} {fail : Call}
    (hstage : Stage address reads signed i (.query (.getTransactionCount a) next fail)) :
    (a = address ∧ (∀ n, Carries n (next n)) ∧ Quiet fail) ∧ i ∉ reads.map (·.who) ∧
      i ∉ signed.map (·.who) := by
  cases hstage with
  | waiting hcall hread hsigned => exact ⟨hcall, hread, hsigned⟩
  | carrying n hcall => exact hcall.elim
  | quiet hcall => exact hcall.1.elim

theorem of_send {t : SignedTx} {next : String → Call} {fail : Call}
    (hstage : Stage address reads signed i (.query (.sendRawTransaction t) next fail)) :
    ((∀ a, Quiet (next a)) ∧ Quiet fail) ∧ ⟨i, t.tx.nonce.toNat⟩ ∈ reads ∧
      i ∉ signed.map (·.who) := by
  cases hstage with
  | waiting hcall => exact hcall.elim
  | carrying n hcall hread hsigned =>
      obtain ⟨rfl, hquiet⟩ := hcall
      exact ⟨hquiet, hread, hsigned⟩
  | quiet hcall => exact hcall.1.elim

theorem of_later {q : Rpc} {next : q.Answer → Call} {fail : Call} (hlater : q.Later)
    (hstage : Stage address reads signed i (.query q next fail)) :
    (∀ a, Stage address reads signed i (next a)) ∧ Stage address reads signed i fail := by
  cases hstage with
  | waiting hcall => cases q <;> first | exact hlater.elim | exact hcall.elim
  | carrying n hcall hread hsigned =>
      have hrest : (∀ a, Carries n (next a)) ∧ Carries n fail := by
        cases q <;> first | exact hlater.elim | exact hcall
      exact ⟨fun a => .carrying n (hrest.1 a) hread hsigned, .carrying n hrest.2 hread hsigned⟩
  | quiet hcall => exact ⟨fun a => .quiet (hcall.2.1 a), .quiet hcall.2.2⟩

/-- What another call reads and signs does not matter. -/
theorem other {call : Call} (hstage : Stage address reads signed i call) (newReads : List NonceRead)
    (newSigned : List Signing) (hreads : i ∉ newReads.map (·.who))
    (hsigned : i ∉ newSigned.map (·.who)) :
    Stage address (reads ++ newReads) (signed ++ newSigned) i call := by
  have hmore : i ∉ signed.map (·.who) → i ∉ (signed ++ newSigned).map (·.who) := by
    intro hold
    rw [List.map_append, List.mem_append]
    exact not_or_intro hold hsigned
  cases hstage with
  | waiting hcall hread hold =>
      refine .waiting hcall ?_ (hmore hold)
      rw [List.map_append, List.mem_append]
      exact not_or_intro hread hreads
  | carrying n hcall hread hold =>
      exact .carrying n hcall (List.mem_append_left _ hread) (hmore hold)
  | quiet hcall => exact .quiet hcall

end Stage

theorem exec_transactionCount {q : Rpc} {a : q.Answer} {c d : Chain}
    (hexec : q.exec c = some (a, d)) : d.transactionCount = c.transactionCount := by
  cases q with
  | sendRawTransaction signed =>
      obtain ⟨txHash, _, heq⟩ := Option.map_eq_some_iff.mp hexec
      rw [← (Prod.mk.inj heq).2]
  | getTransactionReceipt txHash =>
      rw [← (Prod.mk.inj (Option.some.inj hexec)).2]
  | _ =>
      rw [Rpc.exec] at hexec
      split at hexec
      · rw [← (Prod.mk.inj (Option.some.inj hexec)).2]
      · cases hexec

namespace Traced

variable {address : EthAddress} {reads : List NonceRead} {signed : List Signing} {c d : Chain}
  {rs : List (Request Rpc.Answer Vec (Except SendError String))} {i : Nat} {op : Vec} {begun : Bool}

/-- The chain moves on. -/
theorem advance {p : Pool Rpc.Answer Chain Vec (Except SendError String)}
    (htraced : Traced address reads signed p)
    (hcount : p.store.transactionCount address ≤ d.transactionCount address) :
    Traced address reads signed ⟨d, p.requests⟩ where
  sorted := htraced.sorted
  bound := fun read hread => (htraced.bound read hread).trans hcount
  readOnce := htraced.readOnce
  signedOnce := htraced.signedOnce
  source := htraced.source
  stages := htraced.stages

/-- A call goes on, and neither reads nor signs. -/
theorem go {call : Call} (htraced : Traced address reads signed ⟨c, rs⟩)
    (hstage : Stage address reads signed i call) :
    Traced address reads signed ⟨c, rs.set i ⟨op, true, call⟩⟩ where
  sorted := htraced.sorted
  bound := htraced.bound
  readOnce := htraced.readOnce
  signedOnce := htraced.signedOnce
  source := htraced.source
  stages := Pool.forall_places_set (fun j r _ => htraced.stages j r) hstage

theorem read {call : Call} {n : UInt64} (htraced : Traced address reads signed ⟨c, rs⟩)
    (hcall : Carries n call) (hn : n.toNat = c.transactionCount address)
    (hread : i ∉ reads.map (·.who)) (hsigned : i ∉ signed.map (·.who)) :
    Traced address (reads ++ [⟨i, c.transactionCount address⟩]) signed
      ⟨c, rs.set i ⟨op, true, call⟩⟩ where
  sorted := by
    rw [List.pairwise_append]
    refine ⟨htraced.sorted, List.pairwise_singleton _ _, ?_⟩
    intro first hfirst second hsecond
    rw [List.mem_singleton.mp hsecond]
    exact htraced.bound first hfirst
  bound := by
    intro read hmem
    rcases List.mem_append.mp hmem with hold | hnew
    · exact htraced.bound read hold
    · rw [List.mem_singleton.mp hnew]
  readOnce := by
    rw [List.map_append, List.map_singleton, ← List.concat_eq_append]
    exact htraced.readOnce.concat hread
  signedOnce := htraced.signedOnce
  source := fun s hs => List.mem_append_left _ (htraced.source s hs)
  stages := by
    apply Pool.forall_places_set
    · intro j r hne hr
      have hother := (htraced.stages j r hr).other [⟨i, c.transactionCount address⟩] []
        (by simpa using hne) (by simp)
      rwa [List.append_nil] at hother
    · apply Stage.carrying n hcall _ hsigned
      rw [hn]
      exact List.mem_append_right _ (List.mem_singleton.mpr rfl)

theorem sign {call : Call} {t : SignedTx} (htraced : Traced address reads signed ⟨c, rs⟩)
    (hcall : Quiet call) (hread : ⟨i, t.tx.nonce.toNat⟩ ∈ reads)
    (hsigned : i ∉ signed.map (·.who)) :
    Traced address reads (signed ++ [⟨i, t⟩]) ⟨c, rs.set i ⟨op, true, call⟩⟩ where
  sorted := htraced.sorted
  bound := htraced.bound
  readOnce := htraced.readOnce
  signedOnce := by
    rw [List.map_append, List.map_singleton, ← List.concat_eq_append]
    exact htraced.signedOnce.concat hsigned
  source := by
    intro s hmem
    rcases List.mem_append.mp hmem with hold | hnew
    · exact htraced.source s hold
    · rw [List.mem_singleton.mp hnew]
      exact hread
  stages := by
    apply Pool.forall_places_set
    · intro j r hne hr
      have hother := (htraced.stages j r hr).other [] [⟨i, t⟩] (by simp)
        (by simpa using hne)
      rwa [List.append_nil] at hother
    · exact .quiet hcall

/-- A request to the node that is answered. -/
theorem ran {q : Rpc} {next : q.Answer → Call} {fail : Call} {a : q.Answer}
    (htraced : Traced address reads signed ⟨c, rs⟩)
    (hrequest : rs[i]? = some ⟨op, begun, .query q next fail⟩) (hexec : q.exec c = some (a, d)) :
    Traced address (reads ++ (nonceRead (.ran i op q c d)).toList)
      (signed ++ (signing (.ran i op q c d)).toList) ⟨d, rs.set i ⟨op, true, next a⟩⟩ := by
  have hstage := htraced.stages i _ hrequest
  suffices h : Traced address (reads ++ (nonceRead (.ran i op q c d)).toList)
      (signed ++ (signing (.ran i op q c d)).toList) ⟨c, rs.set i ⟨op, true, next a⟩⟩ from
    h.advance (exec_transactionCount hexec ▸ le_rfl)
  cases q with
  | getTransactionCount a' =>
      obtain ⟨⟨rfl, hcarries, _⟩, hread, hsigned⟩ := hstage.of_count
      rw [Rpc.exec] at hexec
      split at hexec
      · rename_i hfits
        rw [← (Prod.mk.inj (Option.some.inj hexec)).1]
        simp only [nonceRead, signing, Option.toList_some, Option.toList_none, List.append_nil]
        exact htraced.read (hcarries _) (UInt64.toNat_ofNat_of_lt' hfits) hread hsigned
      · cases hexec
  | sendRawTransaction t =>
      obtain ⟨⟨hquiet, _⟩, hread, hsigned⟩ := hstage.of_send
      simp only [nonceRead, signing, Option.toList_some, Option.toList_none, List.append_nil]
      exact htraced.sign (hquiet a) hread hsigned
  | _ =>
      simp only [nonceRead, signing, Option.toList_none, List.append_nil]
      exact htraced.go ((hstage.of_later (by trivial)).1 a)

/-- One that fails, at the node or on the way. -/
theorem failed {q : Rpc} {next : q.Answer → Call} {fail : Call}
    (htraced : Traced address reads signed ⟨c, rs⟩)
    (hrequest : rs[i]? = some ⟨op, begun, .query q next fail⟩) :
    Traced address reads (signed ++ (signing (.lost i op q)).toList)
      ⟨c, rs.set i ⟨op, true, fail⟩⟩ := by
  have hstage := htraced.stages i _ hrequest
  cases q with
  | getTransactionCount a' =>
      obtain ⟨⟨_, _, hquiet⟩, _⟩ := hstage.of_count
      simp only [signing, Option.toList_none, List.append_nil]
      exact htraced.go (.quiet hquiet)
  | sendRawTransaction t =>
      obtain ⟨⟨_, hquiet⟩, hread, hsigned⟩ := hstage.of_send
      exact htraced.sign hquiet hread hsigned
  | _ =>
      simp only [signing, Option.toList_none, List.append_nil]
      exact htraced.go (hstage.of_later (by trivial)).2

end Traced

theorem nonceReads_concat (es : List RpcEvent) (e : RpcEvent) :
    nonceReads (es ++ [e]) = nonceReads es ++ (nonceRead e).toList := by
  rw [nonceReads, List.filterMap_append]
  cases h : nonceRead e <;> simp [h, nonceReads]

theorem signings_concat (es : List RpcEvent) (e : RpcEvent) :
    signings (es ++ [e]) = signings es ++ (signing e).toList := by
  rw [signings, List.filterMap_append]
  cases h : signing e <;> simp [h, signings]

variable {k256 : K256} {oracle : ArbitrumOracle} {c : Chain} {calls : List Vec}
  {es : List RpcEvent} {p : Pool Rpc.Answer Chain Vec (Except SendError String)}

theorem Traced.step {p' : Pool Rpc.Answer Chain Vec (Except SendError String)}
    {address : EthAddress} {e : RpcEvent}
    (htraced : Traced address (nonceReads es) (signings es) p)
    (hstep : Pool.Step Rpc.exec Chain.Advances p e p') :
    Traced address (nonceReads (es ++ [e])) (signings (es ++ [e])) p' := by
  rw [nonceReads_concat, signings_concat]
  cases hstep with
  | ran hrequest hexec => exact htraced.ran hrequest hexec
  | @refused _ _ i op _ q _ _ hrequest _ =>
      have hfailed := htraced.failed hrequest
      rw [show nonceRead (.refused i op q) = none from rfl, Option.toList_none, List.append_nil]
      cases q <;> exact hfailed
  | @lost _ _ i op _ q _ _ hrequest =>
      rw [show nonceRead (.lost i op q) = none from rfl, Option.toList_none, List.append_nil]
      exact htraced.failed hrequest
  | environment hchange =>
      simp only [nonceRead, signing, Option.toList_none, List.append_nil]
      exact htraced.advance (hchange address)

theorem traced_of_runs
    (hrun : Pool.Runs Rpc.exec Chain.Advances (fun _ _ => True)
      (Pool.start (sendTx k256 oracle) c calls) es p) :
    ∃ address, Traced address (nonceReads es) (signings es) p := by
  obtain ⟨address, hbegins⟩ := sendTx_begins k256 oracle
  refine ⟨address, ?_⟩
  induction hrun with
  | nil =>
      refine ⟨.nil, ?_, .nil, .nil, ?_, ?_⟩
      · exact fun _ hmem => absurd hmem List.not_mem_nil
      · exact fun _ hmem => absurd hmem List.not_mem_nil
      · intro i r hr
        obtain ⟨calldata, _, rfl⟩ := Option.map_eq_some_iff.mp ((List.getElem?_map ..).symm.trans hr)
        exact .waiting (hbegins calldata) List.not_mem_nil List.not_mem_nil
  | snoc _ hstep _ ih => exact ih.step hstep

/-! ### The nonces -/

/-- What was signed is what was read by those that signed. -/
theorem Traced.perm {address : EthAddress}
    (htraced : Traced address (nonceReads es) (signings es) p) :
    ((signings es).map Signing.read).Perm (signedReads es) := by
  have hunique : ∀ a ∈ nonceReads es, ∀ b ∈ nonceReads es, a.who = b.who → a = b :=
    fun a ha b hb => List.inj_on_of_nodup_map htraced.readOnce ha hb
  rw [List.perm_ext_iff_of_nodup]
  · intro read
    rw [List.mem_map, signedReads, List.mem_filter, decide_eq_true_eq, List.mem_map]
    constructor
    · rintro ⟨s, hs, rfl⟩
      exact ⟨htraced.source s hs, s, hs, rfl⟩
    · rintro ⟨hread, s, hs, hwho⟩
      exact ⟨s, hs, hunique _ (htraced.source s hs) _ hread hwho⟩
  · apply List.Nodup.of_map NonceRead.who
    rw [List.map_map]
    exact htraced.signedOnce
  · exact (List.Nodup.of_map _ htraced.readOnce).filter _

/-- Concurrent settlements sign distinct nonces exactly when, between the reads of any two of them,
the chain mined a transaction of the key. -/
theorem distinct_nonces_iff
    (hrun : Pool.Runs Rpc.exec Chain.Advances (fun _ _ => True)
      (Pool.start (sendTx k256 oracle) c calls) es p) : DistinctNonces es ↔ MinedBetween es := by
  obtain ⟨address, htraced⟩ := traced_of_runs hrun
  have hsorted : (signedReads es).Pairwise fun first second => first.mined ≤ second.mined :=
    htraced.sorted.filter _
  have hsame : ((signings es).map (·.signed.tx.nonce)).Nodup ↔
      ((signedReads es).map (·.mined)).Nodup := by
    rw [← (htraced.perm.map NonceRead.mined).nodup_iff, List.map_map]
    have hnats : (signings es).map (NonceRead.mined ∘ Signing.read) =
        ((signings es).map (·.signed.tx.nonce)).map UInt64.toNat := by
      rw [List.map_map]
      rfl
    rw [hnats]
    exact (List.nodup_map_iff fun _ _ => UInt64.toNat_inj.mp).symm
  rw [DistinctNonces, hsame, MinedBetween, List.Nodup, List.pairwise_map]
  constructor
  · intro hdistinct
    exact (hsorted.and hdistinct).imp fun ⟨hle, hne⟩ => lt_of_le_of_ne hle hne
  · exact fun hmined => hmined.imp fun hlt => hlt.ne

/-! ### Two settlements -/

def sampleSigner : Signer where
  key := Eip1559Tx.sampleKey
  encodedPoint :=
    ⟨([0x04] ++ toBigEndian 32 0x4bc2a31265153f07e70e0bab08724e6b85e217f8cd628ceb62974247bb493382 ++
      toBigEndian 32 0xce28cab79ad7119ee1ad3ebcdb98a16805211530ecc6cfefa1b88e6dff99232a).toArray,
      by simp⟩

def sampleK256 : K256 where
  fromBytes bytes := if bytes = List.replicate 32 0x46 then some sampleSigner else none

def sampleOracle : ArbitrumOracle where
  oraclePkHex := "4646464646464646464646464646464646464646464646464646464646464646"
  escrowAddrHex := "0x1111111111111111111111111111111111111111"
  enabled := true

/-- A chain where `n` transactions of every account are mined. -/
def chainAt (n : Nat) : Chain where
  transactionCount _ := n
  gasPrice := 100000000
  chainId := 421614
  admits _ := some "0x01"
  receipts _ := none
  mempool := []

/-- What is left of a sample call once it has its nonce. -/
def sampleRest (calldata : Vec) (nonce : UInt64) : Call :=
  askNode .gasPrice fun gasPrice =>
  askNode .chainId fun chainId =>
  signAndSend Eip1559Tx.sampleKey (settlementTx nonce gasPrice chainId (Vector.replicate 20 0x11) calldata)

theorem sendTx_sample (calldata : Vec) :
    sendTx sampleK256 sampleOracle calldata =
      askNode (.getTransactionCount (signingKeyToAddress sampleSigner)) (sampleRest calldata) := by
  have hbytes : hexDecode sampleOracle.oraclePkHex.toList = some (List.replicate 32 0x46) := by
    decide +kernel
  have hkey : sampleOracle.signingKey sampleK256 = some sampleSigner := by
    rw [ArbitrumOracle.signingKey, hbytes]
    show sampleK256.fromBytes (List.replicate 32 0x46) = some sampleSigner
    simp [sampleK256]
  have haddress : parseAddress sampleOracle.escrowAddrHex = some (Vector.replicate 20 0x11) := by
    decide +kernel
  rw [sendTx, hkey, haddress]
  rfl

/-- The node answers whatever `send_tx` asks before the receipt. -/
structure Chain.Answers (c : Chain) : Prop where
  gasPrice : c.gasPrice < 2 ^ 128
  chainId : c.chainId < 2 ^ 64
  admits : ∀ raw, (c.admits raw).isSome

/-- A call that has its nonce can sign and send with nothing in between. -/
theorem runs_sign {c : Chain} (hc : c.Answers)
    (rs : List (Request Rpc.Answer Vec (Except SendError String))) {i : Nat} {calldata : Vec}
    {nonce : UInt64} (hrequest : rs[i]? = some ⟨calldata, true, sampleRest calldata nonce⟩) :
    ∃ signed d rest, signed.tx.nonce = nonce ∧ d.Answers ∧
      Pool.Runs Rpc.exec Chain.Advances (fun _ _ => True) ⟨c, rs⟩
        [.ran i calldata .gasPrice c c, .ran i calldata .chainId c c,
          .ran i calldata (.sendRawTransaction signed) c d]
        ⟨d, rs.set i ⟨calldata, true, rest⟩⟩ := by
  have hi : i < rs.length := (List.getElem?_eq_some_iff.mp hrequest).1
  let tx := settlementTx nonce (BitVec.ofNat 128 c.gasPrice) (UInt64.ofNat c.chainId)
    (Vector.replicate 20 0x11) calldata
  obtain ⟨raw, hraw⟩ : ∃ raw, tx.signAndEncode Eip1559Tx.sampleKey = some raw := ⟨_, rfl⟩
  obtain ⟨txHash, hhash⟩ := Option.isSome_iff_exists.mp (hc.admits raw)
  have hsend : signAndSend Eip1559Tx.sampleKey tx =
      sendSigned ⟨Eip1559Tx.sampleKey, tx, raw, hraw⟩ := by
    rw [signAndSend]
    split
    · rename_i hnone
      cases hnone.symm.trans hraw
    · rename_i raw' hraw'
      cases hraw'.symm.trans hraw
      rfl
  have hnil : Pool.Runs Rpc.exec Chain.Advances (fun _ _ => True) ⟨c, rs⟩ [] ⟨c, rs⟩ := .nil _
  have hgas := hnil.snoc (.ran hrequest (if_pos hc.gasPrice)) trivial
  have hid := hgas.snoc (.ran (List.getElem?_set_self hi) (if_pos hc.chainId)) trivial
  rw [List.set_set] at hid
  have hsent := hid.snoc
    (.ran (i := i) (q := .sendRawTransaction ⟨Eip1559Tx.sampleKey, tx, raw, hraw⟩)
      (by rw [List.getElem?_set_self hi]; exact congrArg some (congrArg _ hsend))
      (by rw [Rpc.exec, hhash, Option.map_some])) trivial
  rw [List.set_set] at hsent
  exact ⟨⟨Eip1559Tx.sampleKey, tx, raw, hraw⟩, { c with mempool := c.mempool ++ [raw] }, _, rfl,
    ⟨hc.gasPrice, hc.chainId, hc.admits⟩, hsent⟩

def sampleCalldata : Vec := .new

theorem exec_getTransactionCount {n : Nat} (hn : n < 2 ^ 64) (address : EthAddress) :
    Rpc.exec (.getTransactionCount address) (chainAt n) = some (UInt64.ofNat n, chainAt n) :=
  if_pos hn

/-- Two calls read their nonces, and then both sign; in between, `mined` is what the chain mines. -/
theorem runs_two (mined : Nat) (hmined : mined < 2 ^ 64) :
    ∃ signed signed' es p, Pool.Runs Rpc.exec Chain.Advances (fun _ _ => True)
        (Pool.start (sendTx sampleK256 sampleOracle) (chainAt 0) [sampleCalldata, sampleCalldata]) es p ∧
      nonceReads es = [⟨0, 0⟩, ⟨1, mined⟩] ∧ signings es = [⟨0, signed⟩, ⟨1, signed'⟩] ∧
      signed.tx.nonce = 0 ∧ signed'.tx.nonce = UInt64.ofNat mined := by
  have hstart : Pool.Runs Rpc.exec Chain.Advances (fun _ _ => True)
      (Pool.start (sendTx sampleK256 sampleOracle) (chainAt 0) [sampleCalldata, sampleCalldata]) []
      ⟨chainAt 0, [⟨sampleCalldata, false, sendTx sampleK256 sampleOracle sampleCalldata⟩,
        ⟨sampleCalldata, false, sendTx sampleK256 sampleOracle sampleCalldata⟩]⟩ := .nil _
  rw [sendTx_sample] at hstart
  have hadvance : Chain.Advances (chainAt 0) (chainAt mined) := fun _ => Nat.zero_le _
  have hreads := ((hstart.snoc (.ran (i := 0) rfl (exec_getTransactionCount (by decide) _))
    trivial).snoc (.environment hadvance) trivial).snoc
    (.ran (i := 1) rfl (exec_getTransactionCount hmined _)) trivial
  have hanswers : (chainAt mined).Answers := ⟨by simp [chainAt], by simp [chainAt], fun _ => rfl⟩
  obtain ⟨signed, d, rest, hnonce, hd, hfirst⟩ := runs_sign hanswers
    [⟨sampleCalldata, true, sampleRest sampleCalldata 0⟩,
      ⟨sampleCalldata, true, sampleRest sampleCalldata (UInt64.ofNat mined)⟩] (i := 0) rfl
  obtain ⟨signed', d', rest', hnonce', -, hsecond⟩ := runs_sign hd
    [⟨sampleCalldata, true, rest⟩,
      ⟨sampleCalldata, true, sampleRest sampleCalldata (UInt64.ofNat mined)⟩] (i := 1) rfl
  exact ⟨signed, signed', _, _, (hreads.trans hfirst).trans hsecond, rfl, rfl, hnonce, hnonce'⟩

/-- Two calls, with a transaction of the key mined between their reads. -/
theorem distinct_nonces_mined :
    ∃ es p, Pool.Runs Rpc.exec Chain.Advances (fun _ _ => True)
      (Pool.start (sendTx sampleK256 sampleOracle) (chainAt 0) [sampleCalldata, sampleCalldata])
      es p ∧ (signings es).length = 2 ∧ (DistinctNonces es ↔ MinedBetween es) ∧ MinedBetween es := by
  obtain ⟨signed, signed', es, p, hrun, hreads, hsigned, _⟩ := runs_two 1 (by decide)
  refine ⟨es, p, hrun, ?_, distinct_nonces_iff hrun, ?_⟩
  · rw [hsigned]
    rfl
  · rw [MinedBetween, signedReads, hreads, hsigned]
    simp

/-- Two calls that both read before either transaction is mined sign the same nonce. -/
theorem distinct_nonces_fail :
    ¬ ∀ k256 oracle c calls es p, Pool.Runs Rpc.exec Chain.Advances (fun _ _ => True)
      (Pool.start (sendTx k256 oracle) c calls) es p → DistinctNonces es := by
  intro hall
  obtain ⟨signed, signed', es, p, hrun, _, hsigned, hnonce, hnonce'⟩ := runs_two 0 (by decide)
  have hdistinct := hall _ _ _ _ _ _ hrun
  rw [DistinctNonces, hsigned] at hdistinct
  simp [hnonce, hnonce'] at hdistinct

end NeuralMesh.Ledger
