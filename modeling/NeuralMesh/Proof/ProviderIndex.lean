import NeuralMesh.Proof.RegistryStake

/-!
# The index of the staking registry

A registration appends its sender to `providerList`, and nothing takes an address out. The list is
therefore the registrations in their order: it has every provider that ever registered, and whoever
left and came back more than once.
-/

namespace NeuralMesh.Evm.Registry

/-- Whom a call registers. -/
def Call.registrant? (c : Call) : Option Address :=
  match c.method with
  | .registerAndStake _ _ => some c.msg.sender
  | _ => none

section Runs

variable {self : ContractAddress} {s t : Registry} {payouts : List Payout}
  {calls : List (Taken Call Registry (List Payout))}

/-- Who registered, in the order of the registrations. -/
def registrants (calls : List (Taken Call Registry (List Payout))) : List Address :=
  calls.filterMap fun taken => taken.call.registrant?

/-- A call appends whom it registers. -/
theorem exec_providerList {c : Call} (hexec : c.exec self s = .ok (payouts, t)) :
    t.providerList = s.providerList ++ c.registrant?.toList := by
  obtain ⟨msg, method⟩ := c
  have hsame : s.providerList = s.providerList ++ [] := (List.append_nil _).symm
  cases method with
  | registerAndStake amount providerIdPrefix =>
      obtain ⟨_, _, _, _, _, nmc, _, _, rfl⟩ := registerAndStake_eq_ok.mp hexec
      rfl
  | addStake amount =>
      obtain ⟨_, _, _, nmc, _, _, _, rfl⟩ := addStake_eq_ok.mp hexec
      exact hsame
  | queueUnstake amount =>
      obtain ⟨_, _, _, _, _, _, _, rfl⟩ := queueUnstake_eq_ok.mp hexec
      exact hsame
  | claimUnstake =>
      obtain ⟨_, _, nmc, _, _, rfl⟩ := claimUnstake_eq_ok.mp hexec
      exact hsame
  | slash provider amount =>
      obtain ⟨_, _, _, hexec⟩ := slash_eq_ok.mp hexec
      split at hexec
      · obtain ⟨nmc, _, _, rfl⟩ := hexec
        exact hsame
      · obtain ⟨_, rfl⟩ := hexec
        exact hsame
  | setTreasury treasury =>
      obtain ⟨_, _, rfl⟩ := setTreasury_eq_ok.mp hexec
      exact hsame
  | setPaused paused =>
      obtain ⟨_, _, rfl⟩ := setPaused_eq_ok.mp hexec
      exact hsame

theorem Elsewhere.providerList (helsewhere : Elsewhere self s t) :
    t.providerList = s.providerList := by
  cases helsewhere with
  | token _ _ => rfl
  | roles _ => rfl

/-- The list grows by the registrations of a run. -/
theorem run_providerList (hrun : Runs self s calls t) :
    t.providerList = s.providerList ++ registrants calls := by
  refine hrun.invariant
    (I := fun calls u => u.providerList = s.providerList ++ registrants calls)
    (List.append_nil _).symm ?_ ?_
  · intro calls c u o v hbefore hexec
    have hregistrants : registrants (calls ++ [⟨u, c, o, v⟩]) =
        registrants calls ++ c.registrant?.toList := by
      rw [registrants, List.filterMap_append, registrants]
      cases hwho : c.registrant? <;> simp [hwho]
    rw [exec_providerList hexec, hbefore, hregistrants, List.append_assoc]
  · intro calls u v hbefore helsewhere
    rw [helsewhere.providerList, hbefore]

end Runs

/-- What the index is for: it has everybody who registered, and nobody twice. -/
structure IndexIsSet (calls : List (Taken Call Registry (List Payout))) (s : Registry) : Prop where
  nodup : s.providerList.Nodup
  complete : ∀ provider ∈ registrants calls, provider ∈ s.providerList
  count : s.providerCount = (registrants calls).toFinset.card

/-- Nobody registers who registered before and left since. -/
def NoReturn (calls : List (Taken Call Registry (List Payout))) : Prop :=
  calls.Pairwise fun earlier later =>
    ∀ provider, earlier.call.registrant? = some provider → later.call.registrant? ≠ some provider

theorem nodup_registrants_iff {calls : List (Taken Call Registry (List Payout))} :
    (registrants calls).Nodup ↔ NoReturn calls := by
  rw [registrants, List.Nodup, List.pairwise_filterMap]
  refine List.Pairwise.iff fun earlier later => ?_
  constructor
  · intro hne provider hearlier hlater
    exact hne provider hearlier provider hlater rfl
  · rintro hnot provider hearlier _ hlater rfl
    exact hnot provider hearlier hlater

/-- In every run the index is a set, as long as and only as long as nobody returns. -/
theorem indexIsSet_iff {self : ContractAddress} {nmc : Erc20} {treasury admin slasher : Address}
    {calls : List (Taken Call Registry (List Payout))} {t : Registry}
    (hrun : Runs self (deploy nmc treasury admin slasher) calls t) :
    IndexIsSet calls t ↔ NoReturn calls := by
  have hlist : t.providerList = registrants calls := run_providerList hrun
  rw [← nodup_registrants_iff]
  constructor
  · intro hset
    rw [← hlist]
    exact hset.nodup
  · intro hnodup
    refine ⟨?_, fun provider hmem => ?_, ?_⟩
    · rwa [hlist]
    · rwa [hlist]
    · rw [providerCount, hlist, List.toFinset_card_of_nodup hnodup]

/-- A registration and a slash: one provider in the index. -/
theorem indexIsSet_slashed : ∃ calls t, Runs sampleRegistry sampleStart calls t ∧
    (IndexIsSet calls t ↔ NoReturn calls) := by
  obtain ⟨calls, t, hreplay⟩ := sampleSlashed_ok
  have hrun : Runs sampleRegistry sampleStart calls t := .of_replay hreplay
  exact ⟨calls, t, hrun, indexIsSet_iff hrun⟩

/-! ### A provider that comes back -/

/-- The provider takes out its whole stake. -/
def sampleExit : Call := ⟨⟨3, 1700000600⟩, .queueUnstake (100 * 10 ^ 18)⟩

def sampleExitClaim : Call := ⟨⟨3, 1700700000⟩, .claimUnstake⟩

def sampleReturn : Call := ⟨⟨3, 1700800000⟩, .registerAndStake (100 * 10 ^ 18) 0x3⟩

theorem sampleReturned_ok : ∃ calls t,
    replay (Call.exec sampleRegistry) [sampleStake, sampleExit, sampleExitClaim, sampleReturn]
      sampleStart = .ok (calls, t) :=
  ⟨_, _, rfl⟩

/-- It is in the index twice, and counted twice. -/
theorem indexed_twice : ∃ calls t, Runs sampleRegistry sampleStart calls t ∧
    registrants calls = [3, 3] ∧ t.providerList = [3, 3] ∧ t.providerCount = 2 ∧
    (registrants calls).toFinset.card = 1 ∧ ¬ IndexIsSet calls t := by
  obtain ⟨calls, t, hreplay⟩ := sampleReturned_ok
  have hrun : Runs sampleRegistry sampleStart calls t := .of_replay hreplay
  have hregistrants : registrants calls = [3, 3] := by
    cases hreplay
    rfl
  have hlist : t.providerList = [3, 3] := (run_providerList hrun).trans hregistrants
  refine ⟨calls, t, hrun, hregistrants, hlist, ?_, ?_, fun hset => ?_⟩
  · rw [providerCount, hlist]
    rfl
  · rw [hregistrants]
    rfl
  · have hnodup := hset.nodup
    rw [hlist] at hnodup
    exact absurd hnodup (by decide)

end NeuralMesh.Evm.Registry
