import Mathlib.Order.WithBot
import NeuralMesh.Base.Pages
import NeuralMesh.Coordinator.Listings
import NeuralMesh.Proof.BestProvider

/-!
# Paging through the providers

A page begins at its offset and has the requested size, but not fewer than twenty providers. The
query sorts by the price alone, so that providers with the same price may change places from one page
to the next.
-/

namespace NeuralMesh.Coordinator.Grpc

variable {req : ListProvidersRequest} {s t : Db} {sorted : List (ProviderId × Provider)}

/-! ### The order of the query -/

/-- Prices in the order of the query, `NULL` last. -/
def nullsLast : Option ℚ → WithTop ℚ
  | some price => price
  | none => ⊤

def priceKey (row : ProviderId × Provider) : WithTop ℚ := nullsLast row.2.caps.floorPriceNmcPerHour

/-- What the query sorts, and what its pages are cut from. -/
def orderedProviders (req : ListProvidersRequest) (s : Db) : List (ProviderId × Provider) :=
  orderByAsc (fun row => row.2.caps.floorPriceNmcPerHour) (matchingProviders req s)

theorem orderByAsc_price (rows : List (ProviderId × Provider)) :
    orderByAsc (fun row => row.2.caps.floorPriceNmcPerHour) rows =
      rows.mergeSort fun a b => decide (priceKey a ≤ priceKey b) := by
  rw [orderByAsc]
  congr
  funext a b
  rw [priceKey, priceKey]
  cases a.2.caps.floorPriceNmcPerHour with
  | none =>
      cases b.2.caps.floorPriceNmcPerHour with
      | none => simp [nullsLast]
      | some y => simp [nullsLast]
  | some x =>
      cases b.2.caps.floorPriceNmcPerHour with
      | none => simp [nullsLast]
      | some y => simp [nullsLast]

theorem arrangement_orderByAsc (rows : List (ProviderId × Provider)) :
    Arrangement priceKey rows (orderByAsc (fun row => row.2.caps.floorPriceNmcPerHour) rows) := by
  rw [orderByAsc_price]
  refine ⟨List.mergeSort_perm _ _, ?_⟩
  have htrans : ∀ a b c : ProviderId × Provider, decide (priceKey a ≤ priceKey b) = true →
      decide (priceKey b ≤ priceKey c) = true → decide (priceKey a ≤ priceKey c) = true := by
    intro a b c hab hbc
    exact decide_eq_true ((of_decide_eq_true hab).trans (of_decide_eq_true hbc))
  have htotal : ∀ a b : ProviderId × Provider,
      (decide (priceKey a ≤ priceKey b) || decide (priceKey b ≤ priceKey a)) = true := by
    intro a b
    simpa using le_total (priceKey a) (priceKey b)
  have hsorted := List.pairwise_mergeSort htrans htotal rows
  exact hsorted.imp fun hle => of_decide_eq_true hle

theorem perm_matchingProviders (hshuffled : s.Shuffled t) :
    (matchingProviders req t).Perm (matchingProviders req s) :=
  List.Perm.filter _ (List.Perm.symm hshuffled.providers)

/-- Whatever order the table is in, the query finds the same rows in an order by their prices. -/
theorem arrangement_ordered (hshuffled : s.Shuffled t) :
    Arrangement priceKey (matchingProviders req s) (orderedProviders req t) := by
  have harranged := arrangement_orderByAsc (matchingProviders req t)
  exact ⟨harranged.perm.trans (perm_matchingProviders hshuffled), harranged.sorted⟩

/-- And every such order may be the one that it finds. -/
theorem exists_shuffled (harranged : Arrangement priceKey (matchingProviders req s) sorted) :
    ∃ t, s.Shuffled t ∧ orderedProviders req t = sorted := by
  let others := s.providers.rows.filter fun row => !req.selects row.2
  have hperm : (sorted ++ others).Perm s.providers.rows :=
    (harranged.perm.append_right _).trans (List.filter_append_perm _ _)
  have hnodup : ((sorted ++ others).map Prod.fst).Nodup :=
    (hperm.map Prod.fst).nodup_iff.mpr s.providers.nodupKeys
  refine ⟨{ s with providers := ⟨sorted ++ others, hnodup⟩ }, ?_, ?_⟩
  · exact { Db.Shuffled.refl s with providers := hperm.symm }
  · have hselected : ∀ row ∈ sorted, req.selects row.2 := by
      intro row hrow
      exact (List.mem_filter.mp (harranged.perm.mem_iff.mp hrow)).2
    have hothers : ∀ row ∈ others, ¬ req.selects row.2 := by
      intro row hrow
      simpa using (List.mem_filter.mp hrow).2
    rw [orderedProviders, matchingProviders, List.filter_append, List.filter_eq_self.mpr hselected,
      List.filter_eq_nil_iff.mpr hothers, List.append_nil, orderByAsc_price]
    exact List.mergeSort_of_pairwise (harranged.sorted.imp fun hle => decide_eq_true hle)

/-! ### The pages -/

/-- The request for a page. -/
def ListProvidersRequest.atPage (req : ListProvidersRequest) (k : Nat) : ListProvidersRequest :=
  { req with offset := .ofNat (k * req.limit.toNat) }

/-- The pages whose offset a request can name. -/
def pageCount (limit : UInt32) : Nat := (2 ^ 32 - 1) / limit.toNat + 1

/-- Each query may meet the table in another order: no page has more providers than were asked for,
and together the pages are the matching providers, each of them once. -/
def PagesExactly (req : ListProvidersRequest) (s : Db) : Prop :=
  ∀ order : Nat → Db, (∀ k, s.Shuffled (order k)) → ∃ responses : Nat → ListProvidersResponse,
    (∀ k, listProviders false (req.atPage k) (order k) = .ok (responses k)) ∧
    (∀ k < pageCount req.limit, (responses k).providers.length ≤ req.limit.toNat) ∧
    ((List.range (pageCount req.limit)).flatMap fun k => (responses k).providers).Perm
      ((matchingProviders req s).map listing)

/-- The requested size is used, the offsets reach the last provider, and providers with the same
price are on the same page. -/
structure PagesFit (req : ListProvidersRequest) (s : Db) : Prop where
  size : (matchingProviders req s).length ≤ req.limit.toNat ∨ 20 ≤ req.limit.toNat
  reach : (matchingProviders req s).length ≤ pageCount req.limit * req.limit.toNat
  ties : OnOnePage priceKey req.limit.toNat (matchingProviders req s)

theorem lt_pageCount {k : Nat} (hlimit : 1 ≤ req.limit.toNat) :
    k < pageCount req.limit ↔ k * req.limit.toNat < 2 ^ 32 := by
  rw [pageCount, Nat.lt_succ_iff, Nat.le_div_iff_mul_le hlimit]
  omega

/-- The offsets reach that far at least. -/
theorem two_pow_le_reach (hlimit : 1 ≤ req.limit.toNat) :
    2 ^ 32 ≤ pageCount req.limit * req.limit.toNat := by
  have hlt := Nat.lt_mul_div_succ (2 ^ 32 - 1) hlimit
  rw [pageCount, Nat.mul_comm]
  omega

theorem listedRows_atPage {k : Nat} (hlimit : 1 ≤ req.limit.toNat) (hk : k < pageCount req.limit) :
    listedRows (req.atPage k) s =
      ((orderedProviders req s).drop (k * req.limit.toNat)).take (max req.limit.toNat 20) := by
  have hoffset : (req.atPage k).offset.toNat = k * req.limit.toNat :=
    UInt32.toNat_ofNat_of_lt' ((lt_pageCount hlimit).mp hk)
  rw [listedRows, hoffset]
  rfl

theorem length_ordered (hshuffled : s.Shuffled t) :
    (orderedProviders req t).length = (matchingProviders req s).length :=
  (arrangement_ordered hshuffled).length_eq

theorem length_firstPage (hlimit : 1 ≤ req.limit.toNat) :
    (listedRows (req.atPage 0) s).length =
      min (max req.limit.toNat 20) (matchingProviders req s).length := by
  rw [listedRows_atPage hlimit (Nat.succ_pos _), Nat.zero_mul, List.drop_zero, List.length_take,
    length_ordered (Db.Shuffled.refl s)]

/-- A page of the requested size. -/
theorem listedRows_eq_page {k : Nat} (hlimit : 1 ≤ req.limit.toNat) (hk : k < pageCount req.limit)
    (hshuffled : s.Shuffled t)
    (hsize : (matchingProviders req s).length ≤ req.limit.toNat ∨ 20 ≤ req.limit.toNat) :
    listedRows (req.atPage k) t = page req.limit.toNat k (orderedProviders req t) := by
  rw [listedRows_atPage hlimit hk, page]
  rcases hsize with hfew | hlarge
  · have hlength : ((orderedProviders req t).drop (k * req.limit.toNat)).length ≤ req.limit.toNat := by
      rw [List.length_drop, length_ordered hshuffled]
      omega
    rw [List.take_of_length_le hlength, List.take_of_length_le (hlength.trans (Nat.le_max_left _ _))]
  · rw [Nat.max_eq_left hlarge]

theorem listProviders_ok (req : ListProvidersRequest) (s : Db) :
    ∃ response, listProviders false req s = .ok response ∧
      response.providers = (listedRows req s).map listing := ⟨_, rfl, rfl⟩

/-- Pages that fit are exact. -/
theorem PagesFit.pagesExactly (hlimit : 1 ≤ req.limit.toNat) (hfit : PagesFit req s) :
    PagesExactly req s := by
  intro order hshuffled
  choose responses hanswered hproviders using fun k => listProviders_ok (req.atPage k) (order k)
  have hpage : ∀ k < pageCount req.limit, (responses k).providers =
      (page req.limit.toNat k (orderedProviders req (order k))).map listing := by
    intro k hk
    rw [hproviders, listedRows_eq_page hlimit hk (hshuffled k) hfit.size]
  refine ⟨responses, hanswered, fun k hk => ?_, ?_⟩
  · rw [hpage k hk, List.length_map]
    exact List.length_take_le _ _
  · have hall := pages_perm hfit.ties hlimit hfit.reach fun k => arrangement_ordered (hshuffled k)
    have hflat : ((List.range (pageCount req.limit)).flatMap fun k => (responses k).providers) =
        (pages req.limit.toNat (pageCount req.limit) fun k => orderedProviders req (order k)).map
          listing := by
      rw [pages, List.map_flatMap]
      exact List.flatMap_congr fun k hk => hpage k (List.mem_range.mp hk)
    rw [hflat]
    exact hall.map listing

/-- A page for all of them. -/
theorem pagesExactly_of_few (hlimit : 1 ≤ req.limit.toNat)
    (hfew : (matchingProviders req s).length ≤ req.limit.toNat) : PagesExactly req s := by
  have hpages : 1 * req.limit.toNat ≤ pageCount req.limit * req.limit.toNat :=
    Nat.mul_le_mul_right _ (Nat.succ_pos _)
  exact PagesFit.pagesExactly hlimit ⟨.inl hfew, by omega, onOnePage_of_length_le hfew⟩

/-- Pages of at least twenty, where no two providers ask the same price. -/
theorem pagesExactly_of_nodup_prices (hlimit : 20 ≤ req.limit.toNat)
    (hcount : (matchingProviders req s).length ≤ 2 ^ 32)
    (hprices : ((matchingProviders req s).map priceKey).Nodup) : PagesExactly req s := by
  have hpositive : 1 ≤ req.limit.toNat := by omega
  exact PagesFit.pagesExactly hpositive
    ⟨.inr hlimit, hcount.trans (two_pow_le_reach hpositive), onOnePage_of_nodup_keys hprices⟩

/-! ### Pages that are exact -/

namespace PagesExactly

variable (hexact : PagesExactly req s)

include hexact

/-- What the queries list. -/
theorem listedRows {order : Nat → Db} (hshuffled : ∀ k, s.Shuffled (order k)) :
    (∀ k < pageCount req.limit, (Grpc.listedRows (req.atPage k) (order k)).length ≤
      req.limit.toNat) ∧
    ((List.range (pageCount req.limit)).flatMap fun k =>
      (Grpc.listedRows (req.atPage k) (order k)).map listing).Perm
        ((matchingProviders req s).map listing) := by
  obtain ⟨responses, hanswered, hlength, hperm⟩ := hexact order hshuffled
  have hproviders : ∀ k, (responses k).providers =
      (Grpc.listedRows (req.atPage k) (order k)).map listing := fun k => by
    rw [← Except.ok.inj (hanswered k)]
  simp only [hproviders, List.length_map] at hlength hperm
  exact ⟨hlength, hperm⟩

theorem size (hlimit : 1 ≤ req.limit.toNat) :
    (matchingProviders req s).length ≤ req.limit.toNat ∨ 20 ≤ req.limit.toNat := by
  by_contra hnot
  have hfirst := (hexact.listedRows fun _ => Db.Shuffled.refl s).1 0 (Nat.succ_pos _)
  rw [length_firstPage hlimit] at hfirst
  omega

/-- The pages as they were arranged. -/
theorem pages (hlimit : 1 ≤ req.limit.toNat) {order : Nat → Db}
    (hshuffled : ∀ k, s.Shuffled (order k)) :
    ((NeuralMesh.pages req.limit.toNat (pageCount req.limit) fun k =>
      orderedProviders req (order k)).map listing).Perm ((matchingProviders req s).map listing) := by
  have hperm := (hexact.listedRows hshuffled).2
  rw [NeuralMesh.pages, List.map_flatMap]
  rwa [List.flatMap_congr fun k hk => congrArg (List.map listing)
    (listedRows_eq_page hlimit (List.mem_range.mp hk) (hshuffled k) (hexact.size hlimit))] at hperm

theorem reach (hlimit : 1 ≤ req.limit.toNat) :
    (matchingProviders req s).length ≤ pageCount req.limit * req.limit.toNat := by
  have hlength := (hexact.pages hlimit fun _ => Db.Shuffled.refl s).length_eq
  rw [pages_const, List.length_map, List.length_map] at hlength
  exact hlength ▸ List.length_take_le _ _

theorem ties (hlimit : 1 ≤ req.limit.toNat) :
    OnOnePage priceKey req.limit.toNat (matchingProviders req s) := by
  refine onOnePage_of_nodup hlimit (hexact.reach hlimit)
    (arrangement_ordered (Db.Shuffled.refl s)) fun arranged harranged => ?_
  choose order hshuffled hordered using fun k => exists_shuffled (harranged k)
  have hpages := hexact.pages hlimit hshuffled
  simp only [hordered] at hpages
  have hlistings : ((matchingProviders req s).map listing).Nodup := by
    refine List.Nodup.of_map ProviderListing.providerId ?_
    rw [List.map_map]
    exact s.providers.nodupKeys.sublist (List.filter_sublist.map _)
  exact (hpages.nodup_iff.mpr hlistings).of_map listing

end PagesExactly

/-- For every table, filter and page size, the pages are exact where they fit and nowhere else. -/
theorem pagesExactly_iff (req : ListProvidersRequest) (s : Db) (hlimit : 1 ≤ req.limit.toNat) :
    PagesExactly req s ↔ PagesFit req s :=
  ⟨fun hexact => ⟨hexact.size hlimit, hexact.reach hlimit, hexact.ties hlimit⟩,
    fun hfit => hfit.pagesExactly hlimit⟩

/-! ### Pages of one, and a price that twenty-one providers ask -/

/-- Any provider, so many at once. -/
def atOnce (limit : UInt32) : ListProvidersRequest where
  minRamGb := 0
  region := ""
  maxPrice := 0
  limit
  offset := 0

/-- So many providers at the same price. -/
def samePrice (count : Nat) : List (ProviderId × Provider) :=
  (List.range count).map fun i => (Nat.repr i, offering 1 3)

def twoProviders : Db := { Db.init with providers := ⟨samePrice 2, by decide +kernel⟩ }

def twentyOneProviders : Db := { Db.init with providers := ⟨samePrice 21, by decide +kernel⟩ }

theorem pagesExactly_twenty : 1 ≤ (atOnce 20).limit.toNat ∧
    (PagesExactly (atOnce 20) twoProviders ↔ PagesFit (atOnce 20) twoProviders) :=
  ⟨by decide, pagesExactly_iff (atOnce 20) twoProviders (by decide)⟩

/-- A page of one provider has two, and of twenty-one at the same price one may be on both pages of
twenty. -/
theorem pages_repeat :
    (∃ response, listProviders false ((atOnce 1).atPage 0) twoProviders = .ok response ∧
      response.providers.length = 2) ∧
    ¬ PagesExactly (atOnce 1) twoProviders ∧ ¬ PagesExactly (atOnce 20) twentyOneProviders := by
  refine ⟨⟨_, rfl, ?_⟩, fun hexact => ?_, fun hexact => ?_⟩
  · rw [List.length_map, length_firstPage (by decide)]
    decide +kernel
  · exact absurd (hexact.size (by decide)) (by decide +kernel)
  · exact absurd (hexact.ties (by decide)) (by decide +kernel)

end NeuralMesh.Coordinator.Grpc
