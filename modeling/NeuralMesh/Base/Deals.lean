import NeuralMesh.Base.Refinement
import Mathlib.Logic.Function.Basic
import Mathlib.Tactic.Ring

/-!
# Escrowed deals

What an escrow is for: somebody offers an amount for a piece of work under a key, somebody takes the
offer, and in the end either the work is settled at a cost of at most the amount, or the offer is
withdrawn. `Life` lists what can ever happen under one key.
-/

namespace NeuralMesh.Deals

/-- Who puts how much down for whom. -/
structure Terms (π : Type) where
  payer : π
  payee : π
  amount : Nat
  deriving DecidableEq

inductive Phase where
  | offered | taken | settled | withdrawn
  deriving DecidableEq, Repr

/-- What happens; `rate` is the fee for each ten thousand of the cost. -/
inductive Act (κ π : Type) where
  | offer (key : κ) (terms : Terms π)
  | take (key : κ)
  | settle (key : κ) (terms : Terms π) (collector : π) (cost rate : Nat)
  | withdraw (key : κ) (terms : Terms π)
  deriving DecidableEq

abbrev State (κ π : Type) := κ → Option (Terms π × Phase)

def fee (cost rate : Nat) : Nat := cost * rate / 10000

namespace Act

variable {κ π : Type}

def key : Act κ π → κ
  | offer key _ | take key | settle key _ _ _ _ | withdraw key _ => key

/-- Who is paid what. -/
def payments : Act κ π → List (π × Nat)
  | offer _ _ | take _ => []
  | settle _ terms collector cost rate =>
      [(terms.payee, cost - fee cost rate), (collector, fee cost rate),
        (terms.payer, terms.amount - cost)]
  | withdraw _ terms => [(terms.payer, terms.amount)]

end Act

variable {κ π : Type}

section Protocol

variable [DecidableEq κ]

/-- Nothing has been offered yet. -/
def nothing : State κ π := fun _ => none

inductive Step : State κ π → Act κ π → State κ π → Prop
  | offer {s : State κ π} {key : κ} (terms : Terms π) (hnew : s key = none) :
      Step s (.offer key terms) (Function.update s key (some (terms, .offered)))
  | take {s : State κ π} {key : κ} {terms : Terms π} (hread : s key = some (terms, .offered)) :
      Step s (.take key) (Function.update s key (some (terms, .taken)))
  | settle {s : State κ π} {key : κ} {terms : Terms π} {cost rate : Nat} (collector : π)
      (hread : s key = some (terms, .taken)) (hcost : cost ≤ terms.amount) (hrate : rate ≤ 10000) :
      Step s (.settle key terms collector cost rate) (Function.update s key (some (terms, .settled)))
  | withdraw {s : State κ π} {key : κ} {terms : Terms π} {phase : Phase}
      (hread : s key = some (terms, phase)) (hopen : phase = .offered ∨ phase = .taken) :
      Step s (.withdraw key terms) (Function.update s key (some (terms, .withdrawn)))

variable {s t : State κ π} {act : Act κ π} {acts : List (Act κ π)} {key : κ}

/-- What is under the other keys stays. -/
theorem Step.frame (hstep : Step s act t) (hkey : act.key ≠ key) : t key = s key := by
  cases hstep with
  | offer _ _ | take _ | settle _ _ _ _ | withdraw _ _ => exact Function.update_of_ne hkey.symm _ _

/-! ### The life of a deal -/

/-- What happened under a key, and what is under it now. -/
inductive Life (key : κ) : List (Act κ π) → Option (Terms π × Phase) → Prop
  | unoffered : Life key [] none
  | offered (terms : Terms π) : Life key [.offer key terms] (some (terms, .offered))
  | taken (terms : Terms π) : Life key [.offer key terms, .take key] (some (terms, .taken))
  | settled (terms : Terms π) (collector : π) {cost rate : Nat} (hcost : cost ≤ terms.amount)
      (hrate : rate ≤ 10000) :
      Life key [.offer key terms, .take key, .settle key terms collector cost rate]
        (some (terms, .settled))
  | withdrawn (terms : Terms π) :
      Life key [.offer key terms, .withdraw key terms] (some (terms, .withdrawn))
  | abandoned (terms : Terms π) :
      Life key [.offer key terms, .take key, .withdraw key terms] (some (terms, .withdrawn))

theorem Life.step (hlife : Life act.key acts (s act.key)) (hstep : Step s act t) :
    Life act.key (acts ++ [act]) (t act.key) := by
  cases hstep with
  | offer terms hnew =>
      simp only [Act.key, hnew, Function.update_self] at hlife ⊢
      cases hlife
      exact .offered terms
  | take hread =>
      simp only [Act.key, hread, Function.update_self] at hlife ⊢
      cases hlife
      exact .taken _
  | settle collector hread hcost hrate =>
      simp only [Act.key, hread, Function.update_self] at hlife ⊢
      cases hlife
      exact .settled _ collector hcost hrate
  | withdraw hread hopen =>
      simp only [Act.key, hread, Function.update_self] at hlife ⊢
      rcases hopen with rfl | rfl
      · cases hlife
        exact .withdrawn _
      · cases hlife
        exact .abandoned _

/-- Whatever happens under the other keys, each deal has such a life. -/
theorem life_of_path (hpath : Steps Step nothing acts s) (key : κ) :
    Life key (acts.filter fun act => act.key = key) (s key) := by
  refine hpath.invariant (I := fun acts s => Life key (acts.filter fun act => act.key = key) (s key))
    .unoffered fun acts act s t hlife hstep => ?_
  rw [List.filter_append]
  by_cases hkey : act.key = key
  · subst hkey
    rw [List.filter_cons_of_pos (by simp)]
    exact hlife.step hstep
  · rw [List.filter_cons_of_neg (by simpa using hkey), hstep.frame hkey, List.filter_nil,
      List.append_nil]
    exact hlife

/-! ### The money -/

def total (payments : List (π × Nat)) : Nat := (payments.map Prod.snd).sum

/-- The payments that pay something. -/
def sent (payments : List (π × Nat)) : List (π × Nat) := payments.filter fun p => 0 < p.2

theorem sent_append (l l' : List (π × Nat)) : sent (l ++ l') = sent l ++ sent l' :=
  List.filter_append ..

theorem map_snd_sent (l : List (π × Nat)) :
    (sent l).map Prod.snd = (l.map Prod.snd).filter fun amount => 0 < amount := by
  rw [sent, List.filter_map]
  rfl

theorem sent_sent (l : List (π × Nat)) : sent (sent l) = sent l := by
  rw [sent, sent, List.filter_filter]
  simp only [Bool.and_self]

/-- What was put down under a key. -/
def deposited : Option (Terms π × Phase) → Nat
  | some (terms, _) => terms.amount
  | none => 0

/-- What is still there of it. -/
def held : Option (Terms π × Phase) → Nat
  | some (terms, .offered) | some (terms, .taken) => terms.amount
  | _ => 0

theorem fee_le (cost : Nat) {rate : Nat} (hrate : rate ≤ 10000) : fee cost rate ≤ cost := by
  rw [fee]
  exact Nat.div_le_of_le_mul (Nat.mul_comm 10000 cost ▸ Nat.mul_le_mul_left cost hrate)

omit [DecidableEq κ] in
/-- What was put down is there or was paid out. -/
theorem Life.balanced {now : Option (Terms π × Phase)} (hlife : Life key acts now) :
    total (acts.flatMap Act.payments) + held now = deposited now := by
  cases hlife with
  | unoffered => rfl
  | offered _ | taken _ => exact Nat.zero_add _
  | withdrawn _ | abandoned _ => simp [Act.payments, total, held, deposited]
  | @settled terms _ cost rate hcost hrate =>
      have hfee := fee_le cost hrate
      simp [Act.payments, total, held, deposited]
      omega

end Protocol

/-! ### What carries out deals -/

/-- Acts that the protocol allows, with the deals they leave. -/
structure History [DecidableEq κ] (acts : List (Act κ π)) (deals : State κ π) : Prop where
  steps : Steps Step nothing acts deals
  life : ∀ key, Life key (acts.filter fun act => act.key = key) (deals key)
  balanced : ∀ key,
    total ((acts.filter fun act => act.key = key).flatMap Act.payments) + held (deals key) =
      deposited (deals key)

theorem History.of_steps [DecidableEq κ] {acts : List (Act κ π)} {deals : State κ π}
    (hsteps : Steps Step nothing acts deals) : History acts deals where
  steps := hsteps
  life := life_of_path hsteps
  balanced key := (life_of_path hsteps key).balanced

/-- What the acts of a history pay, by what shows them. -/
theorem sent_payments {α : Type} (f : α → List (Act κ π)) (l : List α) :
    sent ((l.flatMap f).flatMap Act.payments) =
      l.flatMap fun a => sent ((f a).flatMap Act.payments) := by
  rw [List.flatMap_assoc, sent, List.filter_flatMap]
  rfl

/-- The payments made are those of the acts. -/
structure CarriesOut [DecidableEq κ] (acts : List (Act κ π)) (deals : State κ π)
    (payments : List (π × Nat)) : Prop extends History acts deals where
  payments : sent payments = sent (acts.flatMap Act.payments)

/-! ### The same history under other names -/

/-- What an act makes of a deal. -/
def Act.apply (now : Option (Terms π × Phase)) : Act κ π → Option (Terms π × Phase)
  | offer _ terms => some (terms, .offered)
  | take _ => now.map fun deal => (deal.1, .taken)
  | settle _ _ _ _ _ => now.map fun deal => (deal.1, .settled)
  | withdraw _ _ => now.map fun deal => (deal.1, .withdrawn)

/-- What the acts of one deal leave of it. -/
def outcome : List (Act κ π) → Option (Terms π × Phase) := List.foldl Act.apply none

theorem Life.now_eq {key : κ} {acts : List (Act κ π)} {now : Option (Terms π × Phase)}
    (hlife : Life key acts now) : now = outcome acts := by
  cases hlife with
  | unoffered | offered _ | taken _ | settled _ _ _ _ | withdrawn _ | abandoned _ => rfl

section Rename

variable {κ' π' : Type} (f : κ → κ') (g : π → π') (unit : Nat)

def Terms.rename (terms : Terms π) : Terms π' :=
  ⟨g terms.payer, g terms.payee, unit * terms.amount⟩

/-- The act under other names, with the amounts in units of another size. -/
def Act.rename : Act κ π → Act κ' π'
  | offer key terms => offer (f key) (terms.rename g unit)
  | take key => take (f key)
  | settle key terms collector cost rate =>
      settle (f key) (terms.rename g unit) (g collector) (unit * cost) rate
  | withdraw key terms => withdraw (f key) (terms.rename g unit)

/-- What is under a key, renamed. -/
def renamed : Option (Terms π × Phase) → Option (Terms π' × Phase) :=
  Option.map (Prod.map (Terms.rename g unit) id)

variable {f} {g} {unit}

theorem apply_rename (now : Option (Terms π × Phase)) (act : Act κ π) :
    Act.apply (renamed g unit now) (act.rename f g unit) = renamed g unit (act.apply now) := by
  cases act with
  | offer key terms => rfl
  | take key | settle key terms collector cost rate | withdraw key terms =>
      cases now with
      | none => rfl
      | some deal => rfl

theorem outcome_rename (acts : List (Act κ π)) :
    outcome (acts.map (Act.rename f g unit)) = renamed g unit (outcome acts) := by
  have hfrom : ∀ now, (acts.map (Act.rename f g unit)).foldl Act.apply (renamed g unit now) =
      renamed g unit (acts.foldl Act.apply now) := by
    induction acts with
    | nil => exact fun _ => rfl
    | cons act acts ih =>
        intro now
        rw [List.map_cons, List.foldl_cons, apply_rename, ih, List.foldl_cons]
  exact hfrom none

theorem key_rename (act : Act κ π) : (act.rename f g unit).key = f act.key := by
  cases act with
  | offer _ _ | take _ | settle _ _ _ _ _ | withdraw _ _ => rfl

/-- A history under other names leaves the deals under their names. -/
theorem History.now_eq [DecidableEq κ] [DecidableEq κ'] (hf : f.Injective) {acts : List (Act κ π)}
    {deals : State κ' π'} (hhistory : History (acts.map (Act.rename f g unit)) deals) (key : κ) :
    deals (f key) = renamed g unit (outcome (acts.filter fun act => act.key = key)) := by
  have hsame : ((acts.map (Act.rename f g unit)).filter fun act => act.key = f key) =
      (acts.filter fun act => act.key = key).map (Act.rename f g unit) := by
    rw [List.filter_map]
    congr 2
    funext act
    simp only [Function.comp_apply, key_rename, hf.eq_iff]
  rw [(hhistory.life (f key)).now_eq, hsame, outcome_rename]

end Rename

/-! ### What a party receives -/

/-- In smaller units the fee is more exact, by less than one large unit. -/
theorem fee_mul {unit : Nat} (hunit : 0 < unit) (cost rate : Nat) :
    unit * fee cost rate ≤ fee (unit * cost) rate ∧
      fee (unit * cost) rate ≤ unit * fee cost rate + (unit - 1) := by
  rw [fee, fee, Nat.mul_assoc]
  refine ⟨Nat.mul_div_le_mul_div_assoc unit (cost * rate) 10000, ?_⟩
  have hrest : cost * rate < (cost * rate / 10000 + 1) * 10000 := by omega
  have hless : unit * (cost * rate) / 10000 < unit * (cost * rate / 10000) + unit := by
    rw [Nat.div_lt_iff_lt_mul (by decide)]
    calc unit * (cost * rate) < unit * ((cost * rate / 10000 + 1) * 10000) :=
          Nat.mul_lt_mul_of_pos_left hrest hunit
      _ = (unit * (cost * rate / 10000) + unit) * 10000 := by ring
  omega

/-- What a step of the protocol asks of the amounts of its act. -/
def Act.Fair : Act κ π → Prop
  | .settle _ terms _ cost rate => cost ≤ terms.amount ∧ rate ≤ 10000
  | _ => True

theorem Act.fair_rename {κ' π' : Type} {f : κ → κ'} {g : π → π'} {unit : Nat} (hunit : 0 < unit)
    (act : Act κ π) : (act.rename f g unit).Fair ↔ act.Fair := by
  cases act with
  | offer _ _ | take _ | withdraw _ _ => exact Iff.rfl
  | settle key terms collector cost rate =>
      exact and_congr_left fun _ => Nat.mul_le_mul_left_iff hunit

theorem Step.fair [DecidableEq κ] {s t : State κ π} {act : Act κ π} (hstep : Step s act t) :
    act.Fair := by
  cases hstep with
  | offer _ _ | take _ | withdraw _ _ => trivial
  | settle _ _ hcost hrate => exact ⟨hcost, hrate⟩

theorem History.fair [DecidableEq κ] {acts : List (Act κ π)} {deals : State κ π}
    (hhistory : History acts deals) : ∀ act ∈ acts, act.Fair := by
  refine hhistory.steps.invariant (I := fun acts _ => ∀ act ∈ acts, act.Fair) ?_ ?_
  · intro act hmem
    cases hmem
  · intro acts act s t hall hstep
    rw [List.forall_mem_append, List.forall_mem_singleton]
    exact ⟨hall, hstep.fair⟩

def Act.isSettle : Act κ π → Bool
  | .settle .. => true
  | _ => false

def settlements (acts : List (Act κ π)) : Nat := acts.countP Act.isSettle

theorem settlements_cons (act : Act κ π) (acts : List (Act κ π)) :
    settlements (act :: acts) = settlements [act] + settlements acts := by
  rw [← List.singleton_append, settlements, List.countP_append, ← settlements, ← settlements]

section Received

variable [DecidableEq π]

def received (p : π) (payments : List (π × Nat)) : Nat :=
  (payments.map fun q => if q.1 = p then q.2 else 0).sum

variable {p : π}

theorem received_cons (q : π × Nat) (l : List (π × Nat)) :
    received p (q :: l) = (if q.1 = p then q.2 else 0) + received p l := rfl

theorem received_append (l l' : List (π × Nat)) :
    received p (l ++ l') = received p l + received p l' := by
  rw [received, List.map_append, List.sum_append, received, received]

/-- Empty payments bring nothing. -/
theorem received_sent (l : List (π × Nat)) : received p (sent l) = received p l := by
  induction l with
  | nil => rfl
  | cons q l ih =>
      rw [sent] at ih ⊢
      rw [List.filter_cons, received_cons, ← ih]
      split
      · rfl
      · rename_i hzero
        have hnone : q.2 = 0 := by simpa using hzero
        rw [hnone, ite_self, Nat.zero_add]

theorem CarriesOut.received_eq [DecidableEq κ] {acts : List (Act κ π)} {deals : State κ π}
    {payments : List (π × Nat)} (hcarries : CarriesOut acts deals payments) (p : π) :
    received p payments = received p (acts.flatMap Act.payments) := by
  rw [← received_sent payments, hcarries.payments, received_sent]

variable {κ' π' : Type} [DecidableEq π'] {f : κ → κ'} {g : π → π'} {unit : Nat}

/-- Under other names and in other units a settlement brings each party less than one unit more or
less, and anything else the same. -/
theorem received_payments (hg : g.Injective) (hunit : 0 < unit) {act : Act κ π} (hfair : act.Fair)
    (p : π) :
    unit * received p act.payments ≤
        received (g p) (act.rename f g unit).payments + (unit - 1) * settlements [act] ∧
      received (g p) (act.rename f g unit).payments ≤
        unit * received p act.payments + (unit - 1) * settlements [act] := by
  have hname : ∀ q, g q = g p ↔ q = p := fun q => hg.eq_iff
  cases act with
  | offer key terms => exact ⟨Nat.zero_le _, Nat.zero_le _⟩
  | take key => exact ⟨Nat.zero_le _, Nat.zero_le _⟩
  | withdraw key terms =>
      simp only [Act.payments, Act.rename, Terms.rename, received, List.map_cons, List.map_nil,
        List.sum_cons, List.sum_nil, hname]
      split
      · exact ⟨Nat.le_add_right _ _, Nat.le_add_right _ _⟩
      · exact ⟨Nat.zero_le _, Nat.zero_le _⟩
  | settle key terms collector cost rate =>
      obtain ⟨hcost, hrate⟩ := hfair
      obtain ⟨hdown, hup⟩ := fee_mul hunit cost rate
      have hfee := fee_le cost hrate
      have hfee' := fee_le (unit * cost) hrate
      have hcost' := Nat.mul_le_mul_left unit hcost
      have hone : (unit - 1) * settlements [Act.settle key terms collector cost rate] = unit - 1 :=
        Nat.mul_one _
      rw [hone]
      simp only [Act.payments, Act.rename, Terms.rename, received, List.map_cons, List.map_nil,
        List.sum_cons, List.sum_nil, hname, Nat.mul_add, mul_ite, Nat.mul_sub, Nat.mul_zero]
      split <;> split <;> split <;> omega

/-- Where the same happens, each party receives the same, but for less than one unit for each
settlement. -/
theorem received_rename (hg : g.Injective) (hunit : 0 < unit) {acts : List (Act κ π)}
    (hfair : ∀ act ∈ acts, act.Fair) (p : π) :
    unit * received p (acts.flatMap Act.payments) ≤
        received (g p) ((acts.map (Act.rename f g unit)).flatMap Act.payments) +
          (unit - 1) * settlements acts ∧
      received (g p) ((acts.map (Act.rename f g unit)).flatMap Act.payments) ≤
        unit * received p (acts.flatMap Act.payments) + (unit - 1) * settlements acts := by
  induction acts with
  | nil => exact ⟨Nat.zero_le _, Nat.zero_le _⟩
  | cons act acts ih =>
      rw [List.forall_mem_cons] at hfair
      obtain ⟨hleft, hright⟩ := ih hfair.2
      obtain ⟨hleft', hright'⟩ := received_payments (f := f) hg hunit hfair.1 p
      rw [settlements_cons]
      simp only [List.flatMap_cons, List.map_cons, received_append, Nat.mul_add]
      omega

end Received

end NeuralMesh.Deals
