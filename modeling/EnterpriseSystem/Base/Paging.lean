import Mathlib

/-!
# Reading a sorted list page by page

Each page is a slice of a list of the rows, the latest first, and each query may
order the rows of one time in its own way.  The client goes on by `size` rows and a
page has `cap` rows at most.

* `Listing` — an order of the rows with the latest first; `getElem_newer_iff`,
  `getElem_notOlder_iff` — which places the rows of a time have in every one of them.
* `Splits` — rows of one time lie on both sides of a boundary between pages.
* `pageOf`, `collected` — one page, and what the pages give together.
* `collected_eq` — without such a boundary the pages give every row once.
* `exists_collected_ne` — at such a boundary some orders give a row twice.
* `card_collected_lt` — a page that is cut short leaves rows out.
-/

namespace Paging

variable {α τ : Type*} [LinearOrder τ] {key : α → τ}

/-! ## Orders -/

/-- A list of the rows with the latest first. -/
structure Listing (key : α → τ) (s : Multiset α) (l : List α) : Prop where
  perm : (l : Multiset α) = s
  sorted : l.Pairwise fun a b => key b ≤ key a

/-- The rows later than `t`. -/
def newer (key : α → τ) (s : Multiset α) (t : τ) : ℕ := s.countP fun a => t < key a

/-- The rows of the time `t`, and the later ones. -/
def notOlder (key : α → τ) (s : Multiset α) (t : τ) : ℕ := s.countP fun a => t ≤ key a

/-- A property that the rows in front have: it holds up to the number of rows that have
it. -/
theorem getElem_iff_lt_countP {P : α → Prop} [DecidablePred P] {l : List α}
    (h : l.Pairwise fun a b => P b → P a) {i : ℕ} (hi : i < l.length) :
    P l[i] ↔ i < l.countP fun a => decide (P a) := by
  have hpair := List.pairwise_iff_getElem.1 h
  have hsplit : l.countP (fun a => decide (P a)) =
      (l.take i).countP (fun a => decide (P a)) + (l.drop i).countP fun a => decide (P a) := by
    rw [← List.countP_append, List.take_append_drop]
  rw [hsplit]
  constructor
  · intro hP
    have hfront : (l.take i).countP (fun a => decide (P a)) = i := by
      rw [List.countP_eq_length.2 fun a ha => ?_, List.length_take, min_eq_left hi.le]
      obtain ⟨j, hj, rfl⟩ := List.mem_take_iff_getElem.1 ha
      exact decide_eq_true (hpair j i (by omega) hi (by omega) hP)
    have hback : 0 < (l.drop i).countP fun a => decide (P a) :=
      List.countP_pos_iff.2 ⟨l[i], by rw [List.drop_eq_getElem_cons hi]; exact List.mem_cons_self,
        decide_eq_true hP⟩
    omega
  · intro hlt
    by_contra hP
    have hback : (l.drop i).countP (fun a => decide (P a)) = 0 := by
      refine List.countP_eq_zero.2 fun a ha => ?_
      obtain ⟨j, hj, rfl⟩ := List.mem_drop_iff_getElem.1 ha
      rw [decide_eq_true_eq]
      rcases Nat.eq_zero_or_pos j with rfl | hpos
      · simpa using hP
      · exact fun hj' => hP (hpair i (i + j) hi (by omega) (by omega) hj')
    have hfront := List.countP_le_length (p := fun a => decide (P a)) (l := l.take i)
    rw [List.length_take] at hfront
    omega

section

variable {s : Multiset α} {l : List α}

theorem Listing.length (h : Listing key s l) : l.length = s.card := by
  rw [← h.perm, Multiset.coe_card]

theorem Listing.mem_iff (h : Listing key s l) {a : α} : a ∈ l ↔ a ∈ s := by
  rw [← h.perm, Multiset.mem_coe]

/-- The places of the rows later than `t`. -/
theorem Listing.getElem_newer_iff (h : Listing key s l) {t : τ} {i : ℕ} (hi : i < l.length) :
    t < key l[i] ↔ i < newer key s t := by
  rw [newer, ← h.perm, Multiset.coe_countP]
  exact getElem_iff_lt_countP (h.sorted.imp fun hab hb => lt_of_lt_of_le hb hab) hi

/-- The places of the rows not older than `t`. -/
theorem Listing.getElem_notOlder_iff (h : Listing key s l) {t : τ} {i : ℕ} (hi : i < l.length) :
    t ≤ key l[i] ↔ i < notOlder key s t := by
  rw [notOlder, ← h.perm, Multiset.coe_countP]
  exact getElem_iff_lt_countP (h.sorted.imp fun hab hb => le_trans hb hab) hi

end

/-! ## Pages -/

/-- The page behind `k` pages. -/
def pageOf (size cap k : ℕ) (l : List α) : List α := (l.drop (k * size)).take (min size cap)

/-- The number of pages of `size` rows that `n` rows fill, the last one perhaps in part. -/
def pageCount (size n : ℕ) : ℕ := (n + size - 1) / size

/-- What the first `m` pages give together; each is taken of its own list. -/
def collected (size cap m : ℕ) (lists : ℕ → List α) : Multiset α :=
  ∑ k ∈ Finset.range m, (pageOf size cap k (lists k) : Multiset α)

/-- Rows of one time lie on both sides of the boundary. -/
def Splits (key : α → τ) (s : Multiset α) (p : ℕ) : Prop :=
  ∃ a ∈ s, newer key s (key a) < p ∧ p < notOlder key s (key a)

instance (s : Multiset α) (p : ℕ) : Decidable (Splits key s p) :=
  Multiset.decidableExistsMultiset

theorem lt_pageCount_iff {size : ℕ} (hsize : 0 < size) {k n : ℕ} :
    k < pageCount size n ↔ k * size < n := by
  rw [pageCount, ← Nat.succ_le_iff, Nat.le_div_iff_mul_le hsize, Nat.succ_mul]
  omega

/-- The pages of one list, one behind the other. -/
theorem flatten_slices (size m : ℕ) (l : List α) :
    ((List.range m).map fun k => (l.drop (k * size)).take size).flatten = l.take (m * size) := by
  induction m with
  | zero => simp
  | succ m ih =>
    rw [List.range_succ, List.map_append, List.flatten_append, ih, Nat.succ_mul, List.take_add]
    simp

section

variable {s : Multiset α} {size cap m : ℕ} {lists : ℕ → List α}

theorem pageOf_eq_nil_iff {k : ℕ} {l : List α} (hsize : 0 < size) (hcap : 0 < cap) :
    pageOf size cap k l = [] ↔ ¬ k * size < l.length := by
  rw [← List.length_eq_zero_iff, pageOf, List.length_take, List.length_drop]
  omega

theorem mem_of_mem_pageOf {k : ℕ} {l : List α} {a : α} (h : a ∈ pageOf size cap k l) : a ∈ l :=
  List.mem_of_mem_drop (List.mem_of_mem_take h)

theorem collected_succ : collected size cap (m + 1) lists =
    collected size cap m lists + (pageOf size cap m (lists m) : Multiset α) :=
  Finset.sum_range_succ _ _

/-- The pages one behind the other. -/
theorem coe_flatten_pages {ρ : Type*} (f : α → ρ) :
    (((List.range m).map fun k => (pageOf size cap k (lists k)).map f).flatten : Multiset ρ) =
      (collected size cap m lists).map f := by
  induction m with
  | zero => rfl
  | succ m ih =>
    rw [List.range_succ, List.map_append, List.flatten_append, ← Multiset.coe_add, ih,
      collected_succ, Multiset.map_add, Multiset.map_coe]
    simp

theorem mem_of_mem_collected (hlists : ∀ k, (lists k : Multiset α) = s) {a : α}
    (h : a ∈ collected size cap m lists) : a ∈ s := by
  obtain ⟨k, -, hk⟩ := Multiset.mem_sum.1 h
  rw [← hlists k]
  exact mem_of_mem_pageOf (Multiset.mem_coe.1 hk)

/-- The rows in front of a boundary are those whose whole time is in front of it. -/
theorem Listing.take_eq {l : List α} (h : Listing key s l) {p : ℕ} (hp : ¬ Splits key s p) :
    (l.take p : Multiset α) = s.filter fun a => notOlder key s (key a) ≤ p := by
  have hplace : ∀ i (hi : i < l.length), notOlder key s (key l[i]) ≤ p ↔ i < p := by
    intro i hi
    have hself := (h.getElem_notOlder_iff hi).1 (le_refl (key l[i]))
    have hnewer : ¬ i < newer key s (key l[i]) := fun hlt =>
      lt_irrefl _ ((h.getElem_newer_iff hi).2 hlt)
    constructor
    · omega
    · intro hlt
      by_contra hsplit
      exact hp ⟨l[i], h.mem_iff.1 (List.getElem_mem hi), by omega, by omega⟩
  have hparts : s.filter (fun a => notOlder key s (key a) ≤ p) =
      ((l.take p : List α) : Multiset α).filter (fun a => notOlder key s (key a) ≤ p) +
        ((l.drop p : List α) : Multiset α).filter fun a => notOlder key s (key a) ≤ p := by
    rw [← Multiset.filter_add, Multiset.coe_add, List.take_append_drop, h.perm]
  have hfront : ((l.take p : List α) : Multiset α).filter
      (fun a => notOlder key s (key a) ≤ p) = (l.take p : Multiset α) := by
    refine Multiset.filter_eq_self.2 fun a ha => ?_
    obtain ⟨i, hi, rfl⟩ := List.mem_take_iff_getElem.1 (Multiset.mem_coe.1 ha)
    exact (hplace i (by omega)).2 (by omega)
  have hback : ((l.drop p : List α) : Multiset α).filter
      (fun a => notOlder key s (key a) ≤ p) = 0 := by
    refine Multiset.filter_eq_nil.2 fun a ha => ?_
    obtain ⟨i, hi, rfl⟩ := List.mem_drop_iff_getElem.1 (Multiset.mem_coe.1 ha)
    exact fun hle => absurd ((hplace (p + i) (by omega)).1 hle) (by omega)
  rw [hparts, hfront, hback, add_zero]

/-- One more page, when it is not cut short. -/
theorem take_add_pageOf (hcap : size ≤ cap) (k : ℕ) (l : List α) :
    (l.take (k * size) : Multiset α) + (pageOf size cap k l : Multiset α) =
      (l.take ((k + 1) * size) : Multiset α) := by
  rw [Multiset.coe_add, pageOf, min_eq_left hcap, ← List.take_add, Nat.succ_mul]

/-- **Without rows of one time across a boundary**, and with pages that are not cut short,
the first `m` pages give the rows whose time is in front of the last boundary, once
each. -/
theorem collected_eq_filter (hcap : size ≤ cap) (hlists : ∀ k, Listing key s (lists k))
    (hsplits : ∀ k, ¬ Splits key s (k * size)) :
    collected size cap m lists = s.filter fun a => notOlder key s (key a) ≤ m * size := by
  induction m with
  | zero =>
    have hnone := (hlists 0).take_eq (hsplits 0)
    rw [Nat.zero_mul, List.take_zero] at hnone
    rw [Nat.zero_mul, ← hnone]
    rfl
  | succ m ih =>
    rw [collected_succ, ih, ← (hlists m).take_eq (hsplits m), take_add_pageOf hcap,
      (hlists m).take_eq (hsplits (m + 1))]

theorem collected_eq (hcap : size ≤ cap) (hlists : ∀ k, Listing key s (lists k))
    (hsplits : ∀ k, ¬ Splits key s (k * size)) (hm : s.card ≤ m * size) :
    collected size cap m lists = s := by
  rw [collected_eq_filter hcap hlists hsplits]
  exact Multiset.filter_eq_self.2 fun a _ => (Multiset.countP_le_card _ _).trans hm

theorem length_pageOf_le (size cap k : ℕ) (l : List α) :
    (pageOf size cap k l).length ≤ min size (l.length - k * size) := by
  rw [pageOf, List.length_take, List.length_drop]
  omega

/-- **A page that is cut short** leaves rows out. -/
theorem card_collected_lt (hlists : ∀ k, Listing key s (lists k)) (hcap : cap < size)
    (hmany : cap < s.card) : (collected size cap (m + 1) lists).card < s.card := by
  have hbound : (collected size cap (m + 1) lists).card < min s.card ((m + 1) * size) := by
    induction m with
    | zero =>
      rw [collected_succ, collected, Finset.sum_range_zero, zero_add, Multiset.coe_card, pageOf,
        List.length_take, List.length_drop, (hlists 0).length]
      omega
    | succ m ih =>
      have hpage := length_pageOf_le size cap (m + 1) (lists (m + 1))
      rw [(hlists (m + 1)).length] at hpage
      rw [collected_succ, Multiset.card_add, Multiset.coe_card, Nat.succ_mul (m + 1)]
      omega
  exact lt_of_lt_of_le hbound (min_le_left _ _)

/-- Two neighbours of one time may change places. -/
theorem Listing.swap {front back : List α} {x y : α} (h : Listing key s (front ++ x :: y :: back))
    (hsame : key x = key y) : Listing key s (front ++ y :: x :: back) where
  perm := by
    rw [← h.perm]
    exact Multiset.coe_eq_coe.2 ((List.Perm.swap x y back).append_left front)
  sorted := by
    have hkeys : (front ++ y :: x :: back).map key = (front ++ x :: y :: back).map key := by
      simp [hsame]
    have hsorted : ((front ++ x :: y :: back).map key).Pairwise fun t u => u ≤ t :=
      List.pairwise_map.2 h.sorted
    rw [← hkeys] at hsorted
    exact List.pairwise_map.1 hsorted

/-- **At a boundary with rows of one time on both sides** there are orders in which a
row is on both pages. -/
theorem exists_collected_ne [DecidableEq α] (hcap : size ≤ cap) (hs : s.Nodup) {l : List α}
    (h : Listing key s l) {k : ℕ} (hsplit : Splits key s (k * size)) (hm : k < m) :
    ∃ lists, (∀ k, Listing key s (lists k)) ∧ collected size cap m lists ≠ s := by
  obtain ⟨a, -, hnewer, hnotOlder⟩ := hsplit
  obtain ⟨p, hp⟩ : ∃ p, k * size = p + 1 := Nat.exists_eq_succ_of_ne_zero (by omega)
  rw [hp] at hnewer hnotOlder
  have hlength : p + 1 < l.length := by
    rw [h.length]
    exact lt_of_lt_of_le hnotOlder (Multiset.countP_le_card _ _)
  have hkey : ∀ i (hi : i < l.length), i = p ∨ i = p + 1 → key l[i] = key a := by
    intro i hi hcase
    refine le_antisymm (not_lt.1 fun hlt => ?_) ((h.getElem_notOlder_iff hi).2 (by omega))
    exact absurd ((h.getElem_newer_iff hi).1 hlt) (by omega)
  have hsame : key l[p] = key l[p + 1] :=
    (hkey p (by omega) (Or.inl rfl)).trans (hkey (p + 1) hlength (Or.inr rfl)).symm
  have hparts : l = l.take p ++ l[p] :: l[p + 1] :: l.drop (p + 2) := by
    rw [← List.drop_eq_getElem_cons hlength, ← List.drop_eq_getElem_cons (by omega),
      List.take_append_drop]
  have hswapped : Listing key s (l.take p ++ l[p + 1] :: l[p] :: l.drop (p + 2)) :=
    Listing.swap (hparts ▸ h) hsame
  obtain ⟨j, rfl⟩ : ∃ j, k = j + 1 := Nat.exists_eq_succ_of_ne_zero fun hk => by simp [hk] at hp
  have hsize : 0 < size := Nat.pos_of_ne_zero fun hzero => by simp [hzero] at hp
  rw [Nat.succ_mul] at hp
  -- the row in front of the boundary is the last one of its page
  have hbefore : l[p] ∈ pageOf size cap j l := by
    rw [pageOf, min_eq_left hcap]
    refine List.mem_take_iff_getElem.2 ⟨size - 1, by rw [List.length_drop]; omega, ?_⟩
    rw [List.getElem_drop]
    congr 1
    omega
  -- and the first one of the next page, when its neighbour comes before it there
  have hafter : l[p] ∈ pageOf size cap (j + 1) (l.take p ++ l[p + 1] :: l[p] :: l.drop (p + 2)) := by
    have hfront : (l.take p).length = p := by rw [List.length_take]; omega
    rw [pageOf, min_eq_left hcap, Nat.succ_mul, hp, List.append_cons,
      List.drop_left' (by rw [List.length_append, hfront]; rfl)]
    obtain ⟨size', rfl⟩ := Nat.exists_eq_succ_of_ne_zero (Nat.ne_of_gt hsize)
    exact List.mem_cons_self
  refine ⟨fun i => if i = j + 1 then l.take p ++ l[p + 1] :: l[p] :: l.drop (p + 2) else l,
    fun i => ?_, fun hsum => ?_⟩
  · dsimp only
    split
    · exact hswapped
    · exact h
  · have honce : Multiset.count l[p] s ≤ 1 := Multiset.nodup_iff_count_le_one.1 hs _
    rw [← hsum, collected, Multiset.count_sum'] at honce
    have hpair : ({j, j + 1} : Finset ℕ) ⊆ Finset.range m := by
      intro i hi
      rw [Finset.mem_range]
      rcases Finset.mem_insert.1 hi with rfl | hi
      · omega
      · rw [Finset.mem_singleton.1 hi]
        exact hm
    have htwo := (Finset.sum_le_sum_of_subset (f := fun i => Multiset.count l[p]
      (pageOf size cap i (if i = j + 1 then l.take p ++ l[p + 1] :: l[p] :: l.drop (p + 2) else l) :
        Multiset α)) hpair).trans honce
    rw [Finset.sum_pair (by omega), if_neg (by omega), if_pos rfl] at htwo
    have hfirst := Multiset.count_pos.2 (Multiset.mem_coe.2 hbefore)
    have hsecond := Multiset.count_pos.2 (Multiset.mem_coe.2 hafter)
    omega

theorem exists_listing (key : α → τ) (s : Multiset α) : ∃ l, Listing key s l := by
  have : Std.Total fun a b : α => key b ≤ key a := ⟨fun a b => le_total (key b) (key a)⟩
  have : IsTrans α fun a b => key b ≤ key a := ⟨fun _ _ _ hab hbc => le_trans hbc hab⟩
  exact ⟨s.toList.insertionSort fun a b => key b ≤ key a,
    (Multiset.coe_eq_coe.2 (List.perm_insertionSort _ _)).trans s.coe_toList,
    List.pairwise_insertionSort _ _⟩

/-- A boundary with rows of one time on both sides lies among the rows. -/
theorem Splits.lt_card {p : ℕ} (h : Splits key s p) : 0 < p ∧ p < s.card := by
  obtain ⟨a, -, hnewer, hnotOlder⟩ := h
  exact ⟨by omega, lt_of_lt_of_le hnotOlder (Multiset.countP_le_card _ _)⟩

/-- **The pages up to the first empty one** give every row once, for all orders, exactly
when no page with more rows behind it is cut short and no boundary has rows of one
time on both sides. -/
theorem collected_eq_iff [DecidableEq α] (hs : s.Nodup) (hm : ∀ k, k < m ↔ k * size < s.card) :
    (∀ lists, (∀ k, Listing key s (lists k)) → collected size cap m lists = s) ↔
      (size ≤ cap ∨ s.card ≤ cap) ∧ ∀ k, ¬ Splits key s (k * size) := by
  obtain ⟨l, hl⟩ := exists_listing key s
  have hlast : s.card ≤ m * size := not_lt.1 fun hlt => lt_irrefl m ((hm m).2 hlt)
  rcases le_or_gt size cap with hcap | hcap
  · rw [and_iff_right (Or.inl hcap)]
    constructor
    · intro h k hsplit
      obtain ⟨lists, hlists, hne⟩ :=
        exists_collected_ne hcap hs hl hsplit ((hm k).2 hsplit.lt_card.2)
      exact hne (h lists hlists)
    · exact fun hsplits lists hlists => collected_eq hcap hlists hsplits hlast
  · rw [or_iff_right (not_le.2 hcap)]
    constructor
    · intro h
      have hfew : s.card ≤ cap := by
        by_contra hmany
        obtain ⟨m, rfl⟩ : ∃ m', m = m' + 1 :=
          Nat.exists_eq_succ_of_ne_zero (Nat.ne_of_gt ((hm 0).2 (by omega)))
        have hlt := card_collected_lt (m := m) (fun _ => hl) hcap (not_le.1 hmany)
        rw [h (fun _ => l) fun _ => hl] at hlt
        exact lt_irrefl _ hlt
      refine ⟨hfew, fun k hsplit => ?_⟩
      obtain ⟨hpos, hlt⟩ := hsplit.lt_card
      have hk : 0 < k := Nat.pos_of_mul_pos_right hpos
      exact absurd (Nat.le_mul_of_pos_left size hk) (by omega)
    · rintro ⟨hfew, -⟩ lists hlists
      have hone : m ≤ 1 := not_lt.1 fun hlt => absurd ((hm 1).1 hlt) (by omega)
      rcases Nat.le_one_iff_eq_zero_or_eq_one.1 hone with rfl | rfl
      · have hempty : s.card = 0 := by omega
        rw [Multiset.card_eq_zero.1 hempty]
        rfl
      · rw [collected_succ, collected, Finset.sum_range_zero, zero_add, pageOf, Nat.zero_mul,
          List.drop_zero, List.take_of_length_le (by rw [(hlists 0).length]; omega), (hlists 0).perm]

/-- A part of the rows with the same images as all rows is all of them. -/
theorem eq_of_map_eq {β : Type*} {f : α → β} {t : Multiset α} (hs : (s.map f).Nodup)
    (hsub : ∀ a ∈ t, a ∈ s) (h : t.map f = s.map f) : t = s := by
  have ht : t.Nodup := Multiset.Nodup.of_map f (by rwa [h])
  refine Multiset.eq_of_le_of_card_le ((Multiset.le_iff_subset ht).2 hsub) ?_
  rw [← Multiset.card_map f t, h, Multiset.card_map]

end

end Paging
