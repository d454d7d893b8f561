import NeuralMesh.Base.CriticalSection
import NeuralMesh.Coordinator.Reports
import NeuralMesh.Store.Frame
import NeuralMesh.System.Operation

/-!
# Milestones and their deposits

`report_completion` counts the milestones a provider has on record, pays the ones after them at the
ledger one by one, and records each when its deposit is over. The table keeps a milestone from being
recorded twice, and nothing keeps it from being paid twice: two reports may both count before either
records, and a count that fails is taken for zero. A deposit that fails is recorded all the same.

Here reports of any number of calls are interleaved statement by statement, each deposit being one
step, and between two steps the rest of the database may change in any way.
-/

namespace NeuralMesh

open Coordinator Program

/-- A call of `report_completion`; the ledger draws its transaction ids from `txIds`. -/
structure CompletionCall where
  oracleEnabled : Bool
  txIds : Int → TxId
  message : Grpc.JobComplete

def CompletionCall.program (call : CompletionCall) : Grpc.Rpc Grpc.JobCompleteAck :=
  Grpc.reportCompletion call.oracleEnabled call.txIds call.message

abbrev Completions := Pool Action.Answer Db CompletionCall (Except Grpc.Status Grpc.JobCompleteAck)

abbrev Completion := Request Action.Answer CompletionCall (Except Grpc.Status Grpc.JobCompleteAck)

abbrev CompletionEvent := Event Action Db CompletionCall

/-- Nothing happens to `milestone_rewards`. -/
def KeepsMilestones (s t : Db) : Prop := s.milestoneRewards.Reordered t.milestoneRewards

/-! ### Paying and recording -/

/-- The hours of the `k`-th milestone, as `report_completion` computes them. -/
def milestoneHours (k : Int) : Int := wrapI32 (k * 8)

/-- The reference its deposit carries. -/
def milestoneReference (hours : Int) : String := "milestone_" ++ toString hours ++ "h"

/-- 1 for a deposit of 50 HC for the milestone that succeeds: the ledger records it, which it does
unless the transaction id is taken. -/
def Action.pays (provider : ProviderId) (hours : Int) (s : Db) : Action → Nat
  | .ledgerDeposit accountId amount reference txId =>
      if accountId = provider ∧ amount = 50 ∧ reference = milestoneReference hours ∧
        (s.transactions.get? txId).isNone then 1 else 0
  | _ => 0

/-- How many deposits for the milestone succeed in a run. -/
def payments (provider : ProviderId) (hours : Int) (es : List CompletionEvent) : Nat :=
  totalWeight (fun q before _ => q.pays provider hours before) es

/-- 1 for a milestone that is on record. -/
def Db.recorded (s : Db) (provider : ProviderId) (hours : Int) : Nat :=
  if (s.milestoneRewards.get? (provider, hours)).isSome then 1 else 0

/-- No milestone is paid twice and whatever is on record is paid, those on record at the start being
paid before. -/
structure PaidOnce (s : Db) (es : List CompletionEvent) (t : Db) : Prop where
  atMostOnce : ∀ provider hours, s.recorded provider hours + payments provider hours es ≤ 1
  paid : ∀ provider hours,
    t.recorded provider hours ≤ s.recorded provider hours + payments provider hours es

/-- The milestones a provider has on record are its first `n`. -/
structure Claimed (provider : ProviderId) (n : Nat) (s : Db) : Prop where
  rows : ∀ hours, (s.milestoneRewards.get? (provider, hours)).isSome ↔
    ∃ k : Nat, k < n ∧ hours = milestoneHours (k + 1)
  count : Read.eval s (.milestoneCount provider) = n
  bound : n ≤ 2 ^ 29

/-! ### What is asked of a step -/

/-- The statements between the count and the end of the loop. -/
def Action.rewards (provider : ProviderId) : Action → Prop
  | .ledgerDeposit accountId _ _ _ => accountId = provider
  | .insertMilestone providerId _ _ => providerId = provider
  | _ => False

/-- The request has a milestone of the provider to pay or to record. -/
def Rewarding (provider : ProviderId) (r : Completion) : Prop :=
  r.begun = true ∧ r.rest.Next (Action.rewards provider)

/-- A report counts the milestones of a provider only while no other has one of the provider left to
pay or to record; no count fails, except before the first milestone; no deposit fails; no record
is lost, and its provider is registered; and no total reaches the hours from which on
`milestone_num * 8` wraps around to milestones that were paid. -/
def RewardsInOrder (p : Completions) : CompletionEvent → Prop
  | .ran i _ (.read (.milestoneCount provider)) _ _ => p.NoOther (Rewarding provider) i
  | .lost i _ (.read (.milestoneCount provider)) =>
      p.NoOther (Rewarding provider) i ∧ Read.eval p.store (.milestoneCount provider) = (0 : Nat)
  | .ran _ _ (.ledgerDeposit _ _ _ txId) s _ => s.transactions.get? txId = none
  | .lost _ _ (.ledgerDeposit _ _ _ _) => False
  | .lost _ _ (.insertMilestone _ _ _) => False
  | .refused _ _ (.insertMilestone provider _ _) => (p.store.providers.get? provider).isSome
  | .ran _ _ (.providers (.addHours provider hours)) s _ =>
      ∀ row ∈ s.providers.get? provider,
        (row.totalGpuHoursContributed.getD 0 + hours) / 8 < 2 ^ 29 + 1
  | _ => True

/-! ### The numbers of the milestones -/

theorem wrapI32_of_bounds {n : Int} (hlow : -2 ^ 31 ≤ n) (hhigh : n < 2 ^ 31) : wrapI32 n = n := by
  rw [wrapI32, BitVec.toInt_ofInt]
  apply Int.bmod_eq_of_le <;> omega

/-- The first 2 ^ 29 milestones have different hours. -/
theorem milestoneHours_inj {j k : Int} (hj : 0 < j ∧ j ≤ 2 ^ 29) (hk : 0 < k ∧ k ≤ 2 ^ 29)
    (heq : milestoneHours j = milestoneHours k) : j = k := by
  simp only [milestoneHours, wrapI32, BitVec.toInt_ofInt] at heq
  have hmod : (j * 8) % 2 ^ 32 = (k * 8) % 2 ^ 32 := by
    have hemod := congrArg (fun b : Int => b % ((2 ^ 32 : Nat) : Int)) heq
    rwa [Int.bmod_emod, Int.bmod_emod] at hemod
  omega

theorem nat_repr_inj {m n : Nat} (heq : m.repr = n.repr) : m = n := by
  have hdigits : Nat.toDigits 10 m = Nat.toDigits 10 n := by
    rw [← Nat.toList_repr, ← Nat.toList_repr, heq]
  have hread := congrArg (fun digits => Nat.ofDigitChars 10 digits 0) hdigits
  rwa [Nat.ofDigitChars_toDigits (by decide) (by decide),
    Nat.ofDigitChars_toDigits (by decide) (by decide)] at hread

theorem nat_repr_ne_minus {m n : Nat} : m.repr ≠ "-" ++ n.repr := by
  intro heq
  have hlist := congrArg String.toList heq
  rw [Nat.toList_repr, String.toList_append] at hlist
  have hminus : '-' ∈ Nat.toDigits 10 m := by
    rw [hlist]
    exact List.mem_append_left _ (by decide)
  exact absurd (Nat.isDigit_of_mem_toDigits (by decide) (by decide) hminus) (by decide)

theorem int_repr_inj {a b : Int} (heq : a.repr = b.repr) : a = b := by
  cases a with
  | ofNat m =>
      cases b with
      | ofNat n => rw [nat_repr_inj heq]
      | negSucc n => exact absurd heq nat_repr_ne_minus
  | negSucc m =>
      cases b with
      | ofNat n => exact absurd heq.symm nat_repr_ne_minus
      | negSucc n =>
          have hrepr : (m + 1).repr = (n + 1).repr := (String.append_right_inj "-").mp heq
          rw [Nat.succ.inj (nat_repr_inj hrepr)]

theorem milestoneReference_inj {hours hours' : Int} :
    milestoneReference hours = milestoneReference hours' ↔ hours = hours' := by
  rw [milestoneReference, milestoneReference, String.append_left_inj, String.append_right_inj]
  exact ⟨int_repr_inj, congrArg Int.repr⟩

theorem unclaimedMilestones_eq (claimed earned : Int) :
    Grpc.unclaimedMilestones claimed earned =
      (List.range (earned + 1 - wrapI32 (claimed + 1)).toNat).map
        fun i : Nat => wrapI32 (claimed + 1) + (i : Int) := by
  simp [Grpc.unclaimedMilestones, List.map_eq_flatMap, List.flatMap_assoc]

/-- While milestones are left, the first of them is the one after those on record. -/
theorem unclaimedMilestones_cons {n : Nat} {earned : Int} (hlt : n < earned)
    (hearned : earned ≤ 2 ^ 29) :
    Grpc.unclaimedMilestones n earned =
      ((n : Int) + 1) :: Grpc.unclaimedMilestones ((n + 1 : Nat) : Int) earned := by
  have hfirst : wrapI32 ((n : Int) + 1) = n + 1 := wrapI32_of_bounds (by omega) (by omega)
  have hsecond : wrapI32 (((n + 1 : Nat) : Int) + 1) = n + 2 := by
    rw [wrapI32_of_bounds (by omega) (by omega), Nat.cast_add, Nat.cast_one, add_assoc]
    rfl
  have hlength : (earned + 1 - ((n : Int) + 1)).toNat = (earned + 1 - (n + 2)).toNat + 1 := by
    omega
  rw [unclaimedMilestones_eq, unclaimedMilestones_eq, hfirst, hsecond, hlength,
    List.range_succ_eq_map, List.map_cons, List.map_map]
  congr 1
  apply List.map_congr_left
  intro i _
  simp only [Function.comp_apply]
  omega

theorem unclaimedMilestones_nil {n : Nat} {earned : Int} (hle : earned ≤ n)
    (hn : n ≤ 2 ^ 29) : Grpc.unclaimedMilestones n earned = [] := by
  have hfirst : wrapI32 ((n : Int) + 1) = n + 1 := wrapI32_of_bounds (by omega) (by omega)
  have hlength : (earned + 1 - ((n : Int) + 1)).toNat = 0 := by omega
  rw [unclaimedMilestones_eq, hfirst, hlength, List.range_zero, List.map_nil]

/-! ### What is on record -/

namespace Claimed

variable {provider : ProviderId} {n : Nat} {s t : Db}

/-- The milestone after those on record is not. -/
theorem not_recorded (hclaimed : Claimed provider n s) (hn : n < 2 ^ 29) :
    s.milestoneRewards.get? (provider, milestoneHours (n + 1)) = none := by
  by_contra hsome
  obtain ⟨k, hk, heq⟩ := (hclaimed.rows _).mp (Option.isSome_iff_ne_none.mpr hsome)
  have hsame := milestoneHours_inj (by omega) (by omega) heq
  omega

/-- Recording it. -/
theorem record (hclaimed : Claimed provider n s) (hn : n < 2 ^ 29) {row : MilestoneReward}
    {a : Unit}
    (hexec : Action.exec (.insertMilestone provider (milestoneHours (n + 1)) row) s =
      some (a, t)) :
    Claimed provider (n + 1) t ∧ ∀ hours, t.recorded provider hours =
      s.recorded provider hours + if milestoneHours (n + 1) = hours then 1 else 0 := by
  have hnone := hclaimed.not_recorded hn
  rw [Action.exec] at hexec
  split at hexec
  swap
  · cases hexec
  cases hexec
  obtain ⟨rewards, hinsert⟩ := Option.ne_none_iff_exists'.mp
    (mt (Table.insert?_eq_none_iff (r := row)).mp (not_not.mpr hnone))
  have hupsert : s.milestoneRewards.upsert (provider, milestoneHours (n + 1)) row (fun old => old) =
      rewards := by
    rw [Table.upsert, hinsert, Option.getD_some]
  have hget : ∀ hours, (rewards.get? (provider, hours)).isSome ↔
      (s.milestoneRewards.get? (provider, hours)).isSome ∨ hours = milestoneHours (n + 1) := by
    intro hours
    rw [Table.get?_of_insert? hinsert]
    by_cases heq : hours = milestoneHours (n + 1)
    · simp [heq]
    · simp [heq]
  refine ⟨⟨fun hours => ?_, ?_, by omega⟩, fun hours => ?_⟩
  · show ((Table.upsert _ _ _ _).get? _).isSome ↔ _
    rw [hupsert, hget, hclaimed.rows]
    constructor
    · rintro (⟨k, hk, heq⟩ | heq)
      · exact ⟨k, by omega, heq⟩
      · exact ⟨n, by omega, heq⟩
    · rintro ⟨k, hk, heq⟩
      by_cases hkn : k = n
      · exact .inr (hkn ▸ heq)
      · exact .inl ⟨k, by omega, heq⟩
  · have hcount := hclaimed.count
    simp only [Read.eval] at hcount ⊢
    rw [hupsert, (Table.rows_of_insert? hinsert).2, List.filter_append, List.length_append, hcount]
    simp
  · show (if ((Table.upsert _ _ _ _).get? _).isSome then 1 else 0) = _
    rw [hupsert, Db.recorded]
    by_cases heq : milestoneHours (n + 1) = hours
    · subst heq
      rw [if_pos ((hget _).mpr (.inr rfl)), hnone, if_pos rfl]
      rfl
    · have hsame : (rewards.get? (provider, hours)).isSome =
          (s.milestoneRewards.get? (provider, hours)).isSome := by
        rw [Bool.eq_iff_iff, hget]
        exact or_iff_left fun h => heq h.symm
      rw [hsame, if_neg heq, add_zero]

end Claimed

/-- What is on record of the provider is the same. -/
structure SameMilestones (provider : ProviderId) (s t : Db) : Prop where
  rows : ∀ hours, (t.milestoneRewards.get? (provider, hours)).isSome =
    (s.milestoneRewards.get? (provider, hours)).isSome
  count : (Read.eval t (.milestoneCount provider) : Nat) = Read.eval s (.milestoneCount provider)

namespace SameMilestones

variable {provider : ProviderId} {s t : Db}

theorem of_eq (heq : t.milestoneRewards = s.milestoneRewards) : SameMilestones provider s t := by
  refine ⟨fun hours => by rw [heq], ?_⟩
  simp only [Read.eval, heq]

theorem of_keeps (hkeeps : KeepsMilestones s t) : SameMilestones provider s t :=
  ⟨fun hours => by rw [Table.Reordered.get?_eq hkeeps], (hkeeps.filter _).length_eq.symm⟩

theorem recorded (hsame : SameMilestones provider s t) (hours : Int) :
    t.recorded provider hours = s.recorded provider hours := by
  rw [Db.recorded, Db.recorded, hsame.rows]

theorem claimed (hsame : SameMilestones provider s t) {n : Nat} (hclaimed : Claimed provider n s) :
    Claimed provider n t where
  rows hours := by rw [hsame.rows, hclaimed.rows]
  count := hsame.count.trans hclaimed.count
  bound := hclaimed.bound

end SameMilestones

/-- The statement has nothing to do with the milestones of the provider. -/
def Action.SparesMilestones (provider : ProviderId) : Action → Prop
  | .read (.milestoneCount providerId) => providerId ≠ provider
  | .ledgerDeposit accountId _ _ _ => accountId ≠ provider
  | .insertMilestone providerId _ _ => providerId ≠ provider
  | _ => True

namespace Action.SparesMilestones

variable {provider : ProviderId} {q : Action} {s t : Db}

theorem not_rewards (hspares : q.SparesMilestones provider) : ¬ q.rewards provider := by
  cases q with
  | ledgerDeposit accountId amount reference txId => exact hspares
  | insertMilestone providerId hours row => exact hspares
  | _ => exact not_false

theorem pays_eq_zero (hspares : q.SparesMilestones provider) (hours : Int) (s : Db) :
    q.pays provider hours s = 0 := by
  cases q with
  | ledgerDeposit accountId amount reference txId => exact if_neg fun hpays => hspares hpays.1
  | _ => rfl

/-- A milestone of another provider. -/
theorem sameMilestones_insert {providerId : ProviderId} {hours : Int} {row : MilestoneReward}
    {a : Unit} (hother : providerId ≠ provider)
    (hexec : Action.exec (.insertMilestone providerId hours row) s = some (a, t)) :
    SameMilestones provider s t := by
  rw [Action.exec] at hexec
  split at hexec
  swap
  · cases hexec
  cases hexec
  have hkey : ∀ h, (provider, h) ≠ (providerId, hours) :=
    fun h heq => hother (Prod.ext_iff.mp heq).1.symm
  refine ⟨fun h => ?_, ?_⟩
  · rw [Table.get?_upsert, if_neg (hkey h)]
  · simp only [Read.eval]
    rw [Table.upsert]
    cases hinsert : s.milestoneRewards.insert? (providerId, hours) row with
    | none =>
        rw [Option.getD_none, Table.update, Table.updateWhere]
        simp
    | some rewards =>
        rw [Option.getD_some, (Table.rows_of_insert? hinsert).2, List.filter_append]
        simp [hother]

theorem sameMilestones (hspares : q.SparesMilestones provider) {a : q.Answer}
    (hexec : q.exec s = some (a, t)) : SameMilestones provider s t := by
  cases q with
  | insertMilestone providerId hours row => exact sameMilestones_insert hspares hexec
  | _ => exact .of_eq (Action.exec_sameIn .milestones rfl hexec)

end Action.SparesMilestones

/-! ### The loop -/

/-- The milestone is recorded when its deposit is over. -/
def recordMilestone (provider : ProviderId) (hours : Int) (next : Grpc.Rpc Grpc.JobCompleteAck)
    (txId : Option TxId) : Grpc.Rpc Grpc.JobCompleteAck :=
  attempt (.insertMilestone provider hours { rewardHc := 50, accountId := provider, txId }) next

theorem issueMilestones_cons (txIds : Int → TxId) (provider : ProviderId)
    (next : Grpc.Rpc Grpc.JobCompleteAck) (k : Int) (rest : List Int) :
    Grpc.issueMilestones txIds provider next (k :: rest) =
      .query (.ledgerDeposit provider 50 (milestoneReference (milestoneHours k)) (txIds k))
        (recordMilestone provider (milestoneHours k)
          (Grpc.issueMilestones txIds provider next rest))
        (recordMilestone provider (milestoneHours k)
          (Grpc.issueMilestones txIds provider next rest) none) := rfl

/-- A request in the loop, with `n` milestones on record: it is about to pay the one after them, or
has paid it and is about to record it. `paid` counts the deposits for `hours`. -/
inductive InLoop (provider : ProviderId) (hours : Int) (paid : Nat) (s : Db) (r : Completion) : Prop
  | paying (n : Nat) (earned : Int) (txIds : Int → TxId) (next : Grpc.Rpc Grpc.JobCompleteAck)
      (hclaimed : Claimed provider n s) (hlt : n < earned) (hearned : earned ≤ 2 ^ 29)
      (hnext : next.Uses (Action.SparesMilestones provider))
      (hrest : r.rest = Grpc.issueMilestones txIds provider next
        (Grpc.unclaimedMilestones n earned))
      (hpaid : paid = s.recorded provider hours)
  | recording (n : Nat) (earned : Int) (txIds : Int → TxId) (txId : Option TxId)
      (next : Grpc.Rpc Grpc.JobCompleteAck)
      (hclaimed : Claimed provider n s) (hlt : n < earned) (hearned : earned ≤ 2 ^ 29)
      (hnext : next.Uses (Action.SparesMilestones provider))
      (hrest : r.rest = recordMilestone provider (milestoneHours (n + 1))
        (Grpc.issueMilestones txIds provider next
          (Grpc.unclaimedMilestones ((n + 1 : Nat) : Int) earned)) txId)
      (hpaid : paid = s.recorded provider hours + if milestoneHours (n + 1) = hours then 1 else 0)

/-- The rest of a report once its hours are added. -/
def countMilestones (txIds : Int → TxId) (provider : ProviderId) (earned : Int)
    (next : Grpc.Rpc Grpc.JobCompleteAck) : Grpc.Rpc Grpc.JobCompleteAck :=
  askElse (Grpc.issueMilestones txIds provider next (Grpc.unclaimedMilestones 0 earned))
    (.read (.milestoneCount provider)) fun (count : Nat) =>
  Grpc.issueMilestones txIds provider next (Grpc.unclaimedMilestones (asI32 count) earned)

/-- The rest of a report outside the loop. -/
inductive OutOfLoop (provider : ProviderId) :
    CompletionCall → Grpc.Rpc Grpc.JobCompleteAck → Prop
  | spares {call : CompletionCall} {rest : Grpc.Rpc Grpc.JobCompleteAck}
      (huses : rest.Uses (Action.SparesMilestones provider)) : OutOfLoop provider call rest
  | reporting {call : CompletionCall} (hprovider : call.message.providerId = provider) :
      OutOfLoop provider call call.program
  | adding {call : CompletionCall} {next : Grpc.Rpc Grpc.JobCompleteAck}
      (hprovider : call.message.providerId = provider)
      (hnext : next.Uses (Action.SparesMilestones provider)) :
      OutOfLoop provider call (Grpc.rewardHours call.txIds call.message next)
  | counting {call : CompletionCall} {next : Grpc.Rpc Grpc.JobCompleteAck} {txIds : Int → TxId}
      {earned : Int} (hearned : earned ≤ 2 ^ 29)
      (hnext : next.Uses (Action.SparesMilestones provider)) :
      OutOfLoop provider call (countMilestones txIds provider earned next)

theorem OutOfLoop.not_next {provider : ProviderId} {call : CompletionCall}
    {rest : Grpc.Rpc Grpc.JobCompleteAck} (hout : OutOfLoop provider call rest) :
    ¬ rest.Next (Action.rewards provider) := by
  cases hout with
  | spares huses => exact huses.not_next fun q hq => hq.not_rewards
  | reporting _ => exact not_false
  | adding _ _ => exact not_false
  | counting _ _ => exact not_false

/-- The loop of one provider, followed for one of its milestones; `base` counts the payments before
the run. -/
def rewardSection (provider : ProviderId) (hours : Int) (base : Nat) :
    CriticalSection Action.Answer Db CompletionCall (Except Grpc.Status Grpc.JobCompleteAck)
      Nat where
  inside := Rewarding provider
  outside r := OutOfLoop provider r.op r.rest
  free m s := (∃ n, Claimed provider n s) ∧ base + m = s.recorded provider hours
  held m s r := InLoop provider hours (base + m) s r

section

variable {provider : ProviderId} {hours : Int} {base : Nat} {s t : Db}

/-- What is not about the provider's milestones keeps what is known of them. -/
theorem SameMilestones.kept (hsame : SameMilestones provider s t) (hours : Int) (base : Nat) :
    (∀ m, (rewardSection provider hours base).free m s →
      (rewardSection provider hours base).free m t) ∧
    ∀ m r, (rewardSection provider hours base).held m s r →
      (rewardSection provider hours base).held m t r := by
  constructor
  · rintro m ⟨⟨n, hclaimed⟩, hpaid⟩
    exact ⟨⟨n, hsame.claimed hclaimed⟩, by rw [hpaid, hsame.recorded]⟩
  · intro m r hheld
    cases hheld with
    | paying n earned txIds next hclaimed hlt hearned hnext hrest hpaid =>
        exact .paying n earned txIds next (hsame.claimed hclaimed) hlt hearned hnext hrest
          (by rw [hpaid, hsame.recorded])
    | recording n earned txIds txId next hclaimed hlt hearned hnext hrest hpaid =>
        exact .recording n earned txIds txId next (hsame.claimed hclaimed) hlt hearned hnext hrest
          (by rw [hpaid, hsame.recorded])

/-- With `n` milestones on record the loop over those after them pays one, or there are none. -/
theorem enter {m n : Nat} {earned : Int} {txIds : Int → TxId}
    {next : Grpc.Rpc Grpc.JobCompleteAck} {call : CompletionCall} (hclaimed : Claimed provider n s)
    (hearned : earned ≤ 2 ^ 29) (hnext : next.Uses (Action.SparesMilestones provider))
    (hpaid : base + m = s.recorded provider hours) :
    (rewardSection provider hours base).Left m s
      ⟨call, true, Grpc.issueMilestones txIds provider next
        (Grpc.unclaimedMilestones n earned)⟩ := by
  by_cases hlt : (n : Int) < earned
  · refine .inside ⟨rfl, ?_⟩ (.paying n earned txIds next hclaimed hlt hearned hnext rfl hpaid)
    rw [unclaimedMilestones_cons hlt hearned]
    rfl
  · rw [unclaimedMilestones_nil (not_lt.mp hlt) hclaimed.bound]
    have hout : OutOfLoop provider call next := .spares hnext
    exact .outside (fun hin => hout.not_next hin.2) hout ⟨⟨n, hclaimed⟩, hpaid⟩

/-- A deposit that succeeds. -/
theorem deposit_succeeds {txId : TxId} {amount : ℚ} {reference : String}
    {a : Option TxId} (hfree : s.transactions.get? txId = none)
    (hexec : Action.exec (.ledgerDeposit provider amount reference txId) s = some (a, t)) :
    a = some txId ∧ SameMilestones provider s t := by
  refine ⟨?_, .of_eq (Action.exec_sameIn .milestones rfl hexec)⟩
  rw [Action.exec] at hexec
  split at hexec
  · cases hexec
    rfl
  · rename_i hnone
    rw [NewTransaction.insert, Table.insert?_eq_none_iff] at hnone
    exact absurd hfree hnone

/-- A step in the loop. -/
theorem InLoop.step {p : Completions} {i : Nat} {r r' : Completion} {e : CompletionEvent} {m : Nat}
    (hmove : Request.Move Action.exec p.store i r e t r') (hguard : RewardsInOrder p e)
    (hin : InLoop provider hours (base + m) p.store r) :
    (rewardSection provider hours base).Left
      (m + e.weight fun q before _ => q.pays provider hours before) t r' := by
  cases hin with
  | paying n earned txIds next hclaimed hlt hearned hnext hrest hpaid =>
      rw [unclaimedMilestones_cons hlt hearned, issueMilestones_cons] at hrest
      rcases hmove.cases_query hrest with ⟨a, hexec, rfl, rfl⟩ | ⟨hexec, _⟩ | ⟨rfl, _⟩
      · have hunused : p.store.transactions.get? (txIds (n + 1)) = none := hguard
        obtain ⟨rfl, hsame⟩ := deposit_succeeds hunused hexec
        have hweight : (Event.ran i r.op (Action.ledgerDeposit provider 50
            (milestoneReference (milestoneHours (n + 1))) (txIds (n + 1))) p.store t).weight
              (fun q before _ => q.pays provider hours before) =
            if milestoneHours (n + 1) = hours then 1 else 0 := by
          simp only [Event.weight, Action.pays, milestoneReference_inj, hunused, true_and,
            Option.isNone_none, and_true]
        refine .inside ⟨rfl, rfl⟩ (.recording n earned txIds _ next (hsame.claimed hclaimed) hlt
          hearned hnext rfl ?_)
        rw [hweight, ← add_assoc, hpaid, hsame.recorded]
      · rw [Action.exec] at hexec
        split at hexec <;> cases hexec
      · exact hguard.elim
  | recording n earned txIds txId next hclaimed hlt hearned hnext hrest hpaid =>
      rcases hmove.cases_query hrest with ⟨a, hexec, rfl, rfl⟩ | ⟨hexec, rfl, _⟩ | ⟨rfl, _⟩
      · obtain ⟨hclaimed', hrecorded⟩ := hclaimed.record (by omega) hexec
        exact enter hclaimed' hearned hnext (hpaid.trans (hrecorded hours).symm)
      · have hregistered : (p.store.providers.get? provider).isSome := hguard
        rw [Action.exec, if_pos hregistered] at hexec
        cases hexec
      · exact hguard.elim

/-! ### Outside the loop -/

/-- A call stores its report, then counts the hours of a completed job, then settles. -/
theorem CompletionCall.program_eq (call : CompletionCall) :
    ∃ settle : Grpc.Rpc Grpc.JobCompleteAck,
      (∀ provider, settle.Uses (Action.SparesMilestones provider)) ∧
      call.program = .query
        (.jobs (.report call.message.jobId call.message.jobState call.message.outputHash
          (asI64 call.message.actualRuntimeS.toNat)))
        (fun _ => if call.message.jobState = .complete ∧ call.message.providerId ≠ "" then
          Grpc.rewardHours call.txIds call.message settle else settle)
        (done (.error (.internal "DB: "))) := by
  exact ⟨_, fun provider => Grpc.settle_uses trivial fun _ => trivial, rfl⟩

/-- A call begins outside the loop. -/
theorem OutOfLoop.start (provider : ProviderId) (call : CompletionCall) :
    OutOfLoop provider call call.program := by
  by_cases hprovider : call.message.providerId = provider
  · exact .reporting hprovider
  · obtain ⟨settle, hsettle, hprogram⟩ := call.program_eq
    apply OutOfLoop.spares
    rw [hprogram]
    refine ⟨trivial, fun _ => ?_, trivial⟩
    split
    · exact Grpc.rewardHours_uses (fun _ => trivial) hprovider (fun _ _ _ => hprovider)
        (fun _ _ => hprovider) (hsettle provider)
    · exact hsettle provider

theorem truncI32_le {x : ℚ} (hx : x < 2 ^ 29 + 1) : truncI32 x ≤ 2 ^ 29 := by
  have hround : (if 0 ≤ x then ⌊x⌋ else ⌈x⌉) ≤ 2 ^ 29 := by
    split
    · apply Int.lt_add_one_iff.mp
      rw [Int.floor_lt]
      exact_mod_cast hx
    · rename_i hneg
      have hceil : ⌈x⌉ ≤ 0 := Int.ceil_le.mpr (by exact_mod_cast (not_le.mp hneg).le)
      omega
  rw [truncI32]
  omega

/-- A statement that has nothing to do with the provider's milestones, whose request stays outside
the loop. -/
theorem outside_of_spares {p : Completions} {i : Nat} {r r' : Completion} {e : CompletionEvent}
    (hmove : Request.Move Action.exec p.store i r e t r') {q : Action}
    {next : q.Answer → Grpc.Rpc Grpc.JobCompleteAck} {fail : Grpc.Rpc Grpc.JobCompleteAck}
    (hrest : r.rest = .query q next fail) (hspares : q.SparesMilestones provider)
    (hnext : ∀ a, q.exec p.store = some (a, t) → e = .ran i r.op q p.store t →
      OutOfLoop provider r.op (next a))
    (hfail : OutOfLoop provider r.op fail) :
    e.weight (fun q before _ => q.pays provider hours before) = 0 ∧
      (rewardSection provider hours base).Spares p i t r' := by
  rcases hmove.cases_query hrest with ⟨a, hexec, rfl, rfl⟩ | ⟨_, rfl, rfl, rfl⟩ | ⟨rfl, rfl, rfl⟩
  · have hkept := (hspares.sameMilestones hexec).kept hours base
    have hout := hnext a hexec rfl
    exact ⟨hspares.pays_eq_zero hours p.store,
      ⟨hkept.1, hkept.2, .inl ⟨fun hin => hout.not_next hin.2, hout⟩⟩⟩
  · exact ⟨rfl, ⟨fun _ h => h, fun _ _ h => h, .inl ⟨fun hin => hfail.not_next hin.2, hfail⟩⟩⟩
  · exact ⟨rfl, ⟨fun _ h => h, fun _ _ h => h, .inl ⟨fun hin => hfail.not_next hin.2, hfail⟩⟩⟩

/-- The count of the provider's milestones, right when nobody else is in the loop. -/
theorem enter_of_count {p : Completions} {i : Nat} {call : CompletionCall} {txIds : Int → TxId}
    {next : Grpc.Rpc Grpc.JobCompleteAck} {earned count : Int}
    (hothers : p.NoOther (Rewarding provider) i) (hearned : earned ≤ 2 ^ 29)
    (hnext : next.Uses (Action.SparesMilestones provider))
    (hcount : ∀ n, Claimed provider n p.store → count = n) :
    (rewardSection provider hours base).Spares p i p.store
      ⟨call, true, Grpc.issueMilestones txIds provider next
        (Grpc.unclaimedMilestones count earned)⟩ := by
  refine ⟨fun _ h => h, fun _ _ h => h, ?_⟩
  cases hmilestones : Grpc.unclaimedMilestones count earned with
  | nil =>
      have hout : OutOfLoop provider call next := .spares hnext
      exact .inl ⟨fun hin => hout.not_next hin.2, hout⟩
  | cons k rest =>
      refine .inr ⟨⟨rfl, rfl⟩, hothers, fun m hfree => ?_⟩
      obtain ⟨⟨n, hclaimed⟩, hpaid⟩ := hfree
      rw [← hmilestones, hcount n hclaimed]
      cases enter hclaimed hearned hnext hpaid with
      | inside _ hheld => exact hheld
      | outside hinside _ _ =>
          refine absurd ⟨rfl, ?_⟩ hinside
          rw [← hcount n hclaimed, hmilestones]
          rfl

/-- A step outside the loop. -/
theorem OutOfLoop.step {p : Completions} {i : Nat} {r r' : Completion} {e : CompletionEvent}
    (hmove : Request.Move Action.exec p.store i r e t r') (hguard : RewardsInOrder p e)
    (hout : OutOfLoop provider r.op r.rest) :
    e.weight (fun q before _ => q.pays provider hours before) = 0 ∧
      (rewardSection provider hours base).Spares p i t r' := by
  generalize hrest : r.rest = rest at hout
  cases hout with
  | spares huses =>
      cases rest with
      | done result => cases hmove <;> cases hrest
      | query q next fail =>
          exact outside_of_spares hmove hrest huses.1 (fun a _ _ => .spares (huses.2.1 a))
            (.spares huses.2.2)
  | reporting hprovider =>
      obtain ⟨settle, hsettle, hprogram⟩ := r.op.program_eq
      refine outside_of_spares hmove (hrest.trans hprogram) trivial (fun a _ _ => ?_)
        (.spares trivial)
      split
      · exact .adding hprovider (hsettle provider)
      · exact .spares (hsettle provider)
  | adding hprovider hnext =>
      refine outside_of_spares hmove hrest trivial (fun updated hexec he => ?_) (.spares hnext)
      cases updated with
      | none => exact .spares hnext
      | some row =>
          rw [hprovider] at hexec he ⊢
          subst he
          refine .counting (truncI32_le ?_) hnext
          have hrow := congrArg (fun answered => answered.map Prod.fst) hexec
          simp only [Action.exec, ProvidersWrite.apply, Option.map_some, Option.some.injEq,
            Table.get?_update_self, Option.map_eq_some_iff] at hrow
          obtain ⟨before, hbefore, rfl⟩ := hrow
          exact hguard before hbefore
  | counting hearned hnext =>
      rcases hmove.cases_query hrest with ⟨count, hexec, rfl, rfl⟩ | ⟨hexec, _⟩ | ⟨rfl, rfl, rfl⟩
      · cases hexec
        refine ⟨rfl, enter_of_count hguard hearned hnext fun n hclaimed => ?_⟩
        have hbound := hclaimed.bound
        rw [hclaimed.count, asI32_of_lt (by omega)]
      · cases hexec
      · refine ⟨rfl, enter_of_count hguard.1 hearned hnext fun n hclaimed => ?_⟩
        rw [show n = 0 from hclaimed.count.symm.trans hguard.2]
        rfl

end

/-! ### Paid once -/

theorem recorded_le_one (s : Db) (provider : ProviderId) (hours : Int) :
    s.recorded provider hours ≤ 1 := by
  rw [Db.recorded]
  split <;> omega

/-- In or out of the loop, the milestone is paid at most once, and at least once if it is on
record. -/
theorem paid_of_kept {provider : ProviderId} {hours : Int} {base m : Nat} {p : Completions}
    (hkept : (rewardSection provider hours base).Kept m p) :
    base + m ≤ 1 ∧ p.store.recorded provider hours ≤ base + m := by
  have hone := recorded_le_one p.store provider hours
  cases hkept with
  | free _ hfree =>
      have hpaid : base + m = p.store.recorded provider hours := hfree.2
      omega
  | held _ _ _ _ _ hheld =>
      cases hheld with
      | paying n earned txIds next hclaimed hlt hearned hnext hrest hpaid => omega
      | recording n earned txIds txId next hclaimed hlt hearned hnext hrest hpaid =>
          by_cases heq : milestoneHours (n + 1) = hours
          · have hnone : p.store.recorded provider hours = 0 := by
              rw [Db.recorded, ← heq, hclaimed.not_recorded (by omega)]
              rfl
            rw [if_pos heq] at hpaid
            omega
          · rw [if_neg heq] at hpaid
            omega

/-- However the reports are interleaved, as long as every step meets `RewardsInOrder` no milestone
is paid twice and whatever is on record is paid. -/
theorem milestones_paid_once {s : Db} {calls : List CompletionCall} {es : List CompletionEvent}
    {p : Completions} (hstart : ∀ provider, ∃ n, Claimed provider n s)
    (hrun : Pool.Runs Action.exec KeepsMilestones RewardsInOrder
      (Pool.start CompletionCall.program s calls) es p) : PaidOnce s es p.store := by
  have hkept : ∀ provider hours,
      (rewardSection provider hours (s.recorded provider hours)).Kept
        (payments provider hours es) p := by
    intro provider hours
    apply hrun.critical (fun q before _ => q.pays provider hours before)
    · exact fun p i r e t r' m hmove hguard _ hheld => hheld.step hmove hguard
    · exact fun p i r e t r' hmove hguard _ hout => hout.step hmove hguard
    · exact fun s s' hkeeps => (SameMilestones.of_keeps hkeeps).kept hours _
    · intro r hr
      obtain ⟨call, _, rfl⟩ := List.mem_map.mp hr
      exact ⟨fun hin => Bool.noConfusion hin.1, .start provider call⟩
    · exact ⟨hstart provider, rfl⟩
  constructor
  · intro provider hours
    exact (paid_of_kept (hkept provider hours)).1
  · intro provider hours
    exact (paid_of_kept (hkept provider hours)).2

/-- A provider that has contributed no hours yet. -/
def newProvider : Db := afterAll [registration "p"] Db.init

theorem newProvider_claimed (provider : ProviderId) : ∃ n, Claimed provider n newProvider := by
  have hempty : newProvider.milestoneRewards = .empty := rfl
  refine ⟨0, fun hours => ?_, ?_, by omega⟩
  · rw [hempty, Table.get?_empty]
    simp
  · simp [Read.eval, hempty, Table.empty]

/-- It reports a job of eight hours. -/
def eightHours (jobId : JobId) : CompletionCall where
  oracleEnabled := false
  txIds := fun k => jobId ++ toString k
  message := ⟨jobId, "p", 0, "hash", 28800⟩

/-- What `RewardsInOrder` asks of the statements of a report that is alone. -/
def aloneInOrder (q : Action) (s : Db) : Bool :=
  match q with
  | .ledgerDeposit _ _ _ txId => (s.transactions.get? txId).isNone
  | .insertMilestone providerId _ _ => (s.providers.get? providerId).isSome
  | .providers (.addHours providerId hours) => (s.providers.get? providerId).all fun row =>
      decide ((row.totalGpuHoursContributed.getD 0 + hours) / 8 < 2 ^ 29 + 1)
  | _ => true

theorem rewardsInOrder_ran {p : Completions} {i : Nat} {call : CompletionCall} {q : Action} {t : Db}
    (halone : p.Alone i) (hq : aloneInOrder q p.store = true) :
    RewardsInOrder p (.ran i call q p.store t) := by
  have hothers : ∀ provider, p.NoOther (Rewarding provider) i := by
    intro provider j r hj hr hin
    apply halone j r hj hr
    refine ⟨hin.1, ?_⟩
    rintro ⟨result, hdone⟩
    have hnext := hin.2
    rw [hdone] at hnext
    exact hnext
  unfold RewardsInOrder
  split <;> rename_i heq <;> first | trivial | cases heq
  · exact hothers _
  · exact Option.isNone_iff_eq_none.mp hq
  · intro row hrow
    simp only [aloneInOrder] at hq
    rw [Option.mem_def.mp hrow] at hq
    exact of_decide_eq_true hq

theorem rewardsInOrder_refused {p : Completions} {i : Nat} {call : CompletionCall} {q : Action}
    (hq : aloneInOrder q p.store = true) : RewardsInOrder p (.refused i call q) := by
  unfold RewardsInOrder
  split <;> rename_i heq <;> first | trivial | cases heq
  exact hq

/-- Two reports of eight hours, one after the other. -/
theorem milestones_paid_once_inOrder :
    ∃ es rs, Pool.Runs Action.exec KeepsMilestones RewardsInOrder
        (Pool.start CompletionCall.program newProvider [eightHours "a", eightHours "b"]) es
        ⟨[eightHours "a", eightHours "b"].foldl
          (fun s call => (call.program.run Action.exec s).2) newProvider, rs⟩ ∧
      PaidOnce newProvider es ([eightHours "a", eightHours "b"].foldl
          (fun s call => (call.program.run Action.exec s).2) newProvider) := by
  have heach : EachInOrder Action.exec (fun q s => aloneInOrder q s = true) CompletionCall.program
      [eightHours "a", eightHours "b"] newProvider := by decide +kernel
  obtain ⟨es, rs, -, hrun⟩ := Pool.runs_inOrder KeepsMilestones (G := RewardsInOrder)
    (fun _ _ _ _ _ halone hq => rewardsInOrder_ran halone hq)
    (fun _ _ _ _ _ hq => rewardsInOrder_refused hq) heach
  exact ⟨es, rs, hrun, milestones_paid_once newProvider_claimed hrun⟩

/-- Two reports at once, each counting before the other records: both pay the first milestone. And a
deposit that fails, whose milestone is recorded all the same. -/
theorem milestones_paid_once_fails :
    (¬ ∀ (s : Db) (calls : List CompletionCall) (es : List CompletionEvent) (p : Completions),
      (∀ provider, ∃ n, Claimed provider n s) →
      Pool.Runs Action.exec KeepsMilestones (fun _ _ => True)
        (Pool.start CompletionCall.program s calls) es p →
      ∀ provider hours, s.recorded provider hours + payments provider hours es ≤ 1) ∧
    ¬ ∀ (s : Db) (calls : List CompletionCall) (es : List CompletionEvent) (p : Completions),
      (∀ provider, ∃ n, Claimed provider n s) →
      Pool.Runs Action.exec KeepsMilestones (fun _ _ => True)
        (Pool.start CompletionCall.program s calls) es p →
      ∀ provider hours, p.store.recorded provider hours ≤
        s.recorded provider hours + payments provider hours es := by
  let atOnce : Completions :=
    Pool.start CompletionCall.program newProvider [eightHours "a", eightHours "b"]
  constructor
  · intro hall
    let script : List (Nat × Bool) :=
      [(0, true), (0, true), (1, true), (1, true), (0, true), (1, true), (0, true), (1, true)]
    have honce := hall newProvider _ _ _ newProvider_claimed
      (Pool.runs_play script atOnce) "p" 8
    exact absurd honce (by decide +kernel)
  · intro hall
    let script : List (Nat × Bool) := [(0, true), (0, true), (0, true), (0, false), (0, true)]
    have hpaid := hall newProvider _ _ _ newProvider_claimed
      (Pool.runs_play script atOnce) "p" 8
    exact absurd hpaid (by decide +kernel)

end NeuralMesh
