import Mathlib.Data.Finset.Card
import Mathlib.Data.List.Nodup

/-!
# Counting votes

A vote is a voter with a ballot. Where every voter has voted once, counting votes is counting
voters; splitting the votes by any property then splits the count.
-/

namespace NeuralMesh.Tally

variable {ν β : Type} [DecidableEq ν]

/-- Who cast these votes. -/
def voters (votes : List (ν × β)) : Finset ν := (votes.map Prod.fst).toFinset

def OneVoteEach (votes : List (ν × β)) : Prop := (votes.map Prod.fst).Nodup

variable {votes : List (ν × β)} {vote : ν × β}

omit [DecidableEq ν] in
theorem OneVoteEach.nil : OneVoteEach ([] : List (ν × β)) := List.nodup_nil

omit [DecidableEq ν] in
theorem OneVoteEach.filter (hone : OneVoteEach votes) (p : ν × β → Bool) :
    OneVoteEach (votes.filter p) :=
  hone.sublist (List.filter_sublist.map Prod.fst)

theorem mem_voters {v : ν} : v ∈ voters votes ↔ ∃ ballot, (v, ballot) ∈ votes := by
  simp [voters]

theorem voters_append (votes votes' : List (ν × β)) :
    voters (votes ++ votes') = voters votes ∪ voters votes' := by
  rw [voters, List.map_append, List.toFinset_append]
  rfl

theorem card_voters (hone : OneVoteEach votes) : (voters votes).card = votes.length := by
  rw [voters, List.toFinset_card_of_nodup hone, List.length_map]

/-- A vote of somebody who has not voted yet. -/
theorem OneVoteEach.concat (hone : OneVoteEach votes) (hnew : vote.1 ∉ voters votes) :
    OneVoteEach (votes ++ [vote]) := by
  unfold OneVoteEach
  rw [List.map_append, List.map_singleton, List.nodup_append]
  refine ⟨hone, List.nodup_singleton _, ?_⟩
  intro a ha b hb heq
  rw [List.mem_singleton.mp hb] at heq
  subst heq
  exact hnew (List.mem_toFinset.mpr ha)

/-- The votes with a property and those without it. -/
theorem card_voters_split (hone : OneVoteEach votes) (p : ν × β → Bool) :
    (voters (votes.filter p)).card + (voters (votes.filter fun vote => !p vote)).card =
      votes.length := by
  rw [card_voters (hone.filter p), card_voters (hone.filter _)]
  exact (List.length_eq_length_filter_add p).symm

/-- With one more vote of the right kind there are enough of them exactly when the votes of the
other kind do not make up the difference. -/
theorem quorum_iff (hone : OneVoteEach votes) (hnew : vote.1 ∉ voters votes) {p : ν × β → Bool}
    (hvote : p vote = true) (quorum : Nat) :
    quorum ≤ (voters ((votes ++ [vote]).filter p)).card ↔
      quorum + (voters (votes.filter fun vote => !p vote)).card ≤ votes.length + 1 := by
  have hsplit := card_voters_split (hone.concat hnew) p
  have hothers : ((votes ++ [vote]).filter fun vote => !p vote) =
      votes.filter fun vote => !p vote := by
    rw [List.filter_append, List.filter_singleton, hvote]
    exact List.append_nil _
  rw [hothers, List.length_append, List.length_singleton] at hsplit
  omega

end NeuralMesh.Tally
