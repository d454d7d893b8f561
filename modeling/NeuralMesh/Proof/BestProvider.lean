import Mathlib.Tactic.NormNum
import NeuralMesh.System.Assignments

/-!
# The provider the auction picks

The query sorts by price alone and keeps twenty rows; the scores are compared among those. Its bound
is cast from `u32` to `i32` on the way, so from `2 ^ 31` on it is negative and no row is too small.
-/

namespace NeuralMesh

open Coordinator Program

variable {s : Db} {minRamGb : UInt32} {maxPrice : ℚ} {providerId : ProviderId} {row : Provider}

namespace Coordinator

/-- What `find_best_provider` finds when its query is answered. -/
def foundProvider (s : Db) (minRamGb : UInt32) (maxPrice : ℚ) : Option ProviderId :=
  (bestCandidate maxPrice (Read.eval s (.candidates (asI32 minRamGb.toNat) maxPrice))).map Prod.fst

theorem findBestProvider_run (fail : Cycle) (next : Option ProviderId → Cycle) :
    (findBestProvider (asI32 minRamGb.toNat) maxPrice fail next).run Action.exec s =
      (next (foundProvider s minRamGb maxPrice)).run Action.exec s := rfl

/-- The rows of the query, before its limit. -/
def offers (s : Db) (minRamGb : Int) (maxPrice : ℚ) : List (ProviderId × Provider) :=
  orderByAsc (fun row => row.2.caps.floorPriceNmcPerHour) <|
    s.providers.rows.filter fun row =>
      row.2.state = .available ∧ row.2.caps.maxJobRamGb.any (fun ram => minRamGb ≤ ram) ∧
        row.2.caps.floorPriceNmcPerHour.any fun price => price ≤ maxPrice

theorem foundProvider_eq : foundProvider s minRamGb maxPrice =
    (lastGreatest (scoreOf maxPrice) ((offers s (asI32 minRamGb.toNat) maxPrice).take 20)).map
      Prod.fst := by
  rw [foundProvider, bestCandidate_eq]
  rfl

end Coordinator

/-- The hard constraints of a job. -/
structure Provider.Eligible (row : Provider) (minRamGb : Int) (maxPrice : ℚ) : Prop where
  state : row.state = .available
  ram : ∃ ram ∈ row.caps.maxJobRamGb, minRamGb ≤ ram
  floor : ∃ floor ∈ row.caps.floorPriceNmcPerHour, floor ≤ maxPrice

/-- `max_job_ram_gb INTEGER` -/
def Db.IntegerRam (s : Db) : Prop :=
  ∀ row ∈ s.providers.rows, ∀ ram ∈ row.2.caps.maxJobRamGb, ram < 2 ^ 31

/-- Whoever is found is eligible and no eligible provider scores more; without anybody found nobody
is eligible. -/
structure PicksBest (s : Db) (minRamGb : UInt32) (maxPrice : ℚ) : Prop where
  found : ∀ providerId ∈ foundProvider s minRamGb maxPrice,
    ∃ row, s.providers.get? providerId = some row ∧ row.Eligible minRamGb.toNat maxPrice ∧
      ∀ otherId other, s.providers.get? otherId = some other →
        other.Eligible minRamGb.toNat maxPrice →
        providerScore maxPrice other ≤ providerScore maxPrice row
  missing : foundProvider s minRamGb maxPrice = none →
    ∀ otherId other, s.providers.get? otherId = some other →
      ¬ other.Eligible minRamGb.toNat maxPrice

theorem mem_offers_iff {ram : Int} : (providerId, row) ∈ offers s ram maxPrice ↔
    s.providers.get? providerId = some row ∧ row.Eligible ram maxPrice := by
  rw [offers, Read.mem_orderByAsc, List.mem_filter, Table.mem_rows_iff, decide_eq_true_eq,
    Option.any_eq_true, Option.any_eq_true]
  refine and_congr_right fun _ => ?_
  constructor
  · rintro ⟨hstate, ⟨ram', hram', hle⟩, price, hprice, hlimit⟩
    exact ⟨hstate, ⟨ram', hram', of_decide_eq_true hle⟩, price, hprice, of_decide_eq_true hlimit⟩
  · rintro ⟨hstate, ⟨ram', hram', hle⟩, price, hprice, hlimit⟩
    exact ⟨hstate, ⟨ram', hram', decide_eq_true hle⟩, price, hprice, decide_eq_true hlimit⟩

theorem Provider.Eligible.cast (heligible : row.Eligible minRamGb.toNat maxPrice) :
    row.Eligible (asI32 minRamGb.toNat) maxPrice := by
  obtain ⟨ram, hram, hle⟩ := heligible.ram
  exact ⟨heligible.state, ⟨ram, hram, (asI32_le _).trans hle⟩, heligible.floor⟩

/-- From `2 ^ 31` on no row has room. -/
theorem Provider.Eligible.lt (hinteger : s.IntegerRam) (hrow : s.providers.get? providerId = some row)
    (heligible : row.Eligible minRamGb.toNat maxPrice) : minRamGb.toNat < 2 ^ 31 := by
  obtain ⟨ram, hram, hle⟩ := heligible.ram
  have hlt := hinteger (providerId, row) (Table.mem_rows_iff.mpr hrow) ram hram
  omega

/-- Nobody is offered, or the bound fits and one of the twenty cheapest scores as much as any offer
does. -/
def BestAmongCheapest (s : Db) (minRamGb : UInt32) (maxPrice : ℚ) : Prop :=
  offers s (asI32 minRamGb.toNat) maxPrice = [] ∨
    minRamGb.toNat < 2 ^ 31 ∧
      ∃ row ∈ (offers s (asI32 minRamGb.toNat) maxPrice).take 20,
        ∀ other ∈ offers s (asI32 minRamGb.toNat) maxPrice,
          providerScore maxPrice other.2 ≤ providerScore maxPrice row.2

theorem PicksBest.bestAmongCheapest (hinteger : s.IntegerRam)
    (hpicks : PicksBest s minRamGb maxPrice) : BestAmongCheapest s minRamGb maxPrice := by
  cases hbest : lastGreatest (scoreOf maxPrice)
      ((offers s (asI32 minRamGb.toNat) maxPrice).take 20) with
  | none =>
      have hnil := lastGreatest_eq_none_iff.mp hbest
      exact .inl ((List.take_eq_nil_iff.mp hnil).resolve_left (by decide))
  | some best =>
      have hmem := lastGreatest_mem hbest
      have hfound : foundProvider s minRamGb maxPrice = some best.1 := by
        rw [foundProvider_eq, hbest, Option.map_some]
      obtain ⟨row, hrow, heligible, hall⟩ := hpicks.found best.1 hfound
      have hlt : minRamGb.toNat < 2 ^ 31 := heligible.lt hinteger hrow
      have hsame : best.2 = row := by
        have hgot := (mem_offers_iff.mp (List.mem_of_mem_take hmem)).1
        exact Option.some.inj (hgot.symm.trans hrow)
      refine .inr ⟨hlt, best, hmem, fun other hother => ?_⟩
      obtain ⟨hget, hoffered⟩ := mem_offers_iff.mp hother
      rw [asI32_of_lt hlt] at hoffered
      rw [hsame]
      exact hall other.1 other.2 hget hoffered

theorem BestAmongCheapest.picksBest (hbest : BestAmongCheapest s minRamGb maxPrice) :
    PicksBest s minRamGb maxPrice := by
  refine ⟨fun providerId hfound => ?_, fun hnone otherId other hother heligible => ?_⟩
  · rw [foundProvider_eq, Option.mem_map] at hfound
    obtain ⟨best, hgreatest, rfl⟩ := hfound
    have hmem := lastGreatest_mem hgreatest
    have hoffered := List.mem_of_mem_take hmem
    rcases hbest with hnil | ⟨hlt, row, hrow, hall⟩
    · rw [hnil] at hoffered
      cases hoffered
    · have hgreatestOfAll := lastGreatest_take_iff.mpr (.inr ⟨row, hrow, hall⟩) best hgreatest
      obtain ⟨hget, heligible⟩ := mem_offers_iff.mp hoffered
      rw [asI32_of_lt hlt] at heligible
      refine ⟨best.2, hget, heligible, fun otherId other hother heligible' => ?_⟩
      exact hgreatestOfAll (otherId, other) (mem_offers_iff.mpr ⟨hother, heligible'.cast⟩)
  · rw [foundProvider_eq, Option.map_eq_none_iff, lastGreatest_eq_none_iff] at hnone
    have hnil := (List.take_eq_nil_iff.mp hnone).resolve_left (by decide)
    have hoffered := mem_offers_iff.mpr ⟨hother, heligible.cast⟩
    rw [hnil] at hoffered
    cases hoffered

/-- The auction picks the best of all exactly when the best of all is among the twenty cheapest, or
nobody is offered. -/
theorem picksBest_iff (hinteger : s.IntegerRam) :
    PicksBest s minRamGb maxPrice ↔ BestAmongCheapest s minRamGb maxPrice :=
  ⟨fun hpicks => hpicks.bestAmongCheapest hinteger, fun hbest => hbest.picksBest⟩

/-! ### Twenty cheap providers and one that is trusted -/

def offering (price trust : ℚ) : Provider :=
  { caps := ⟨none, none, none, none, none, none, some 16, none, none, some price, none⟩
    state := .available
    gpuUtilPct := none
    ramUsedGb := none
    activeJobId := none
    trustScore := some trust
    jobsCompleted := none
    successRate := none
    totalGpuHoursContributed := none
    lastSeen := none }

def cheapRows : List (ProviderId × Provider) :=
  (List.range 20).map fun i => (String.ofList (List.replicate i 'p'), offering 1 0)

def crowdedRows : List (ProviderId × Provider) := cheapRows ++ [("trusted", offering 2 5)]

def crowded : Db := { Db.init with providers := ⟨crowdedRows, by decide +kernel⟩ }

theorem crowded_integerRam : crowded.IntegerRam := by
  intro row hrow ram hram
  rcases List.mem_append.mp hrow with hcheap | htrusted
  · obtain ⟨i, -, rfl⟩ := List.mem_map.mp hcheap
    cases hram
    decide
  · obtain rfl := List.mem_singleton.mp htrusted
    cases hram
    decide

theorem offers_crowded : offers crowded (asI32 (8 : UInt32).toNat) 10 = crowdedRows := by
  have hbound : asI32 (8 : UInt32).toNat = 8 := rfl
  have hall : ∀ row ∈ crowdedRows, ∃ price trust, row.2 = offering price trust ∧ price ≤ 10 := by
    intro row hrow
    rcases List.mem_append.mp hrow with hcheap | htrusted
    · obtain ⟨i, -, rfl⟩ := List.mem_map.mp hcheap
      exact ⟨1, 0, rfl, by norm_num⟩
    · obtain rfl := List.mem_singleton.mp htrusted
      exact ⟨2, 5, rfl, by norm_num⟩
  rw [offers, hbound, List.filter_eq_self.mpr]
  · refine List.mergeSort_of_pairwise (List.pairwise_append.mpr ⟨?_, List.pairwise_singleton _ _, ?_⟩)
    · refine List.pairwise_map.mpr (List.pairwise_of_forall fun i j => ?_)
      simp [offering]
    · intro row hrow other hother
      obtain ⟨i, -, rfl⟩ := List.mem_map.mp hrow
      obtain rfl := List.mem_singleton.mp hother
      simp [offering]
  · intro row hrow
    obtain ⟨price, trust, heq, hle⟩ := hall row hrow
    simp [heq, offering, hle]

/-- `picksBest_iff` of the crowded table. -/
theorem crowded_picksBest_iff :
    crowded.IntegerRam ∧ (PicksBest crowded 8 10 ↔ BestAmongCheapest crowded 8 10) :=
  ⟨crowded_integerRam, picksBest_iff crowded_integerRam⟩

/-- All twenty rows score less than the one that is cut off. -/
theorem crowded_not_picksBest : ¬ PicksBest crowded 8 10 := by
  intro hpicks
  have hstar : crowded.providers.get? "trusted" = some (offering 2 5) :=
    Table.mem_rows_iff.mp (List.mem_append_right _ (List.mem_singleton_self _))
  have hfit : (offering 2 5).Eligible ((8 : UInt32).toNat) 10 :=
    ⟨rfl, ⟨16, rfl, by decide⟩, 2, rfl, by norm_num⟩
  cases hfound : foundProvider crowded 8 10 with
  | none => exact hpicks.missing hfound "trusted" _ hstar hfit
  | some providerId =>
      obtain ⟨row, hrow, -, hall⟩ := hpicks.found providerId hfound
      have hless := hall "trusted" _ hstar hfit
      rw [foundProvider_eq, offers_crowded, Option.map_eq_some_iff] at hfound
      obtain ⟨best, hbest, rfl⟩ := hfound
      have hmem : best ∈ cheapRows := lastGreatest_mem hbest
      obtain ⟨i, -, rfl⟩ := List.mem_map.mp hmem
      have hcheap : crowded.providers.get? (String.ofList (List.replicate i 'p')) =
          some (offering 1 0) := Table.mem_rows_iff.mp (List.mem_append_left _ hmem)
      cases hcheap.symm.trans hrow
      norm_num [providerScore, simpleScore, offering] at hless

end NeuralMesh
