import Mathlib.Data.Set.Function
import Mathlib.Data.List.Basic
import Mathlib.Logic.Function.Basic

/-!
# Events paired off with earlier ones

A history in which some events must each answer an earlier event of their own. The pairing maps the
position of an answer to the position of what it answers. A history grows at its end: an event that
answers nothing leaves the pairing as it is, and one that does takes a position nothing has taken.
-/

namespace NeuralMesh

variable {ε : Type}

/-- The positions of the events that answer another one. -/
def answers (Answer : ε → Prop) (history : List ε) : Set Nat :=
  {i | ∃ e, history[i]? = some e ∧ Answer e}

/-- Every answer is paired with an earlier event that it fits, and no two answers with the same. -/
structure Pairing (Answer : ε → Prop) (Fits : ε → ε → Prop) (history : List ε)
    (partner : Nat → Nat) : Prop where
  fits : ∀ i e, history[i]? = some e → Answer e →
    ∃ opening, partner i < i ∧ history[partner i]? = some opening ∧ Fits opening e
  injOn : Set.InjOn partner (answers Answer history)

/-- An event that no answer is paired with yet. -/
structure Unanswered (Answer : ε → Prop) (history : List ε) (partner : Nat → Nat) (j : Nat)
    (opening : ε) : Prop where
  getElem? : history[j]? = some opening
  free : ∀ i ∈ answers Answer history, partner i ≠ j

namespace Pairing

variable {Answer : ε → Prop} {Fits : ε → ε → Prop} {history : List ε} {partner : Nat → Nat}
  {last e opening : ε} {i j : Nat}

theorem lt_of_getElem? (h : history[i]? = some e) : i < history.length :=
  (List.getElem?_eq_some_iff.mp h).1

/-- A history that ends with this event holds it at the end, and an earlier one before it. -/
theorem getElem?_concat (h : (history ++ [last])[i]? = some e) :
    history[i]? = some e ∨ i = history.length ∧ e = last := by
  rw [List.getElem?_append] at h
  split at h
  · exact .inl h
  · rename_i hge
    obtain ⟨hlt, hlast⟩ := List.getElem?_eq_some_iff.mp h
    rw [List.length_singleton] at hlt
    have hi : i = history.length := by omega
    subst hi
    refine .inr ⟨rfl, ?_⟩
    simpa using hlast.symm

theorem getElem?_concat_of_some (h : history[i]? = some e) :
    (history ++ [last])[i]? = some e := by
  rwa [List.getElem?_append_left (lt_of_getElem? h)]

theorem nil : Pairing Answer Fits [] partner := by
  refine ⟨fun i e h => ?_, fun i hi => ?_⟩
  · cases h
  · obtain ⟨_, h, _⟩ := hi
    cases h

/-- An answer is paired with an event of the history. -/
theorem lt_length (hpairing : Pairing Answer Fits history partner)
    (hi : i ∈ answers Answer history) : partner i < history.length := by
  obtain ⟨e, he, hanswer⟩ := hi
  obtain ⟨_, _, hopening, _⟩ := hpairing.fits i e he hanswer
  exact lt_of_getElem? hopening

theorem answers_concat (hlast : ¬ Answer last) :
    answers Answer (history ++ [last]) = answers Answer history := by
  ext i
  refine ⟨fun ⟨e, he, hanswer⟩ => ?_, fun ⟨e, he, hanswer⟩ => ?_⟩
  · cases getElem?_concat he with
    | inl h => exact ⟨e, h, hanswer⟩
    | inr h => exact absurd (h.2 ▸ hanswer) hlast
  · exact ⟨e, getElem?_concat_of_some he, hanswer⟩

/-- Another event changes nothing. -/
theorem concat (hpairing : Pairing Answer Fits history partner) (hlast : ¬ Answer last) :
    Pairing Answer Fits (history ++ [last]) partner := by
  refine ⟨fun i e he hanswer => ?_, ?_⟩
  · cases getElem?_concat he with
    | inl h =>
        obtain ⟨opening, hlt, hopening, hfits⟩ := hpairing.fits i e h hanswer
        exact ⟨opening, hlt, getElem?_concat_of_some hopening, hfits⟩
    | inr h => exact absurd (h.2 ▸ hanswer) hlast
  · rw [answers_concat hlast]
    exact hpairing.injOn

theorem concat_unanswered (hunanswered : Unanswered Answer history partner j opening)
    (hlast : ¬ Answer last) : Unanswered Answer (history ++ [last]) partner j opening := by
  refine ⟨getElem?_concat_of_some hunanswered.getElem?, ?_⟩
  rw [answers_concat hlast]
  exact hunanswered.free

/-- The event that just happened is not answered yet. -/
theorem last_unanswered (hpairing : Pairing Answer Fits history partner) (hlast : ¬ Answer last) :
    Unanswered Answer (history ++ [last]) partner history.length last := by
  refine ⟨List.getElem?_concat_length, ?_⟩
  rw [answers_concat hlast]
  exact fun i hi => Nat.ne_of_lt (hpairing.lt_length hi)

/-- One more answer takes an event that no answer has taken. -/
theorem concat_answer (hpairing : Pairing Answer Fits history partner)
    (hunanswered : Unanswered Answer history partner j opening) (hfits : Fits opening last) :
    Pairing Answer Fits (history ++ [last]) (Function.update partner history.length j) := by
  obtain ⟨hopening, hfree⟩ := hunanswered
  have hbefore : ∀ i, i < history.length →
      Function.update partner history.length j i = partner i :=
    fun i hi => Function.update_of_ne (Nat.ne_of_lt hi) _ _
  have hsplit : ∀ i ∈ answers Answer (history ++ [last]),
      i ∈ answers Answer history ∧ i < history.length ∨ i = history.length := by
    intro i ⟨e, he, hanswer⟩
    cases getElem?_concat he with
    | inl h => exact .inl ⟨⟨e, h, hanswer⟩, lt_of_getElem? h⟩
    | inr h => exact .inr h.1
  refine ⟨fun i e he hanswer => ?_, fun i hi k hk heq => ?_⟩
  · cases getElem?_concat he with
    | inl h =>
        obtain ⟨opening, hlt, hopening, hfits⟩ := hpairing.fits i e h hanswer
        rw [hbefore i (lt_of_getElem? h)]
        exact ⟨opening, hlt, getElem?_concat_of_some hopening, hfits⟩
    | inr h =>
        obtain ⟨rfl, rfl⟩ := h
        rw [Function.update_self]
        exact ⟨opening, lt_of_getElem? hopening, getElem?_concat_of_some hopening, hfits⟩
  · rcases hsplit i hi with ⟨hi, hilt⟩ | rfl
    · rcases hsplit k hk with ⟨hk, hklt⟩ | rfl
      · rw [hbefore i hilt, hbefore k hklt] at heq
        exact hpairing.injOn hi hk heq
      · rw [hbefore i hilt, Function.update_self] at heq
        exact absurd heq (hfree i hi)
    · rcases hsplit k hk with ⟨hk, hklt⟩ | rfl
      · rw [hbefore k hklt, Function.update_self] at heq
        exact absurd heq.symm (hfree k hk)
      · rfl

end Pairing

end NeuralMesh
