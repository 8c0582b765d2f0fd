import Mathlib

/-!
# Draws that are reduced

A uniform draw below `k`, reduced modulo `n`, and a word of such draws.

* `hits`, `hits_eq` — from how many draws a residue comes.
* `hits_const_iff` — every residue comes from as many exactly when `n` divides `k`.
* `card_draws` — from how many sequences of draws a word comes.
* `card_draws_const_iff` — so every word of one length comes from as many under the
  same condition.
-/

namespace Residues

open Finset

variable {k n m : ℕ}

/-! ## One draw -/

/-- The number of draws below `k` that are reduced to `j`. -/
def hits (k n j : ℕ) : ℕ := #{b : Fin k | b.val % n = j}

theorem hits_eq_count {j : ℕ} (hj : j < n) : hits k n j = k.count (· ≡ j [MOD n]) := by
  have hresidue : ∀ b : ℕ, b % n = j ↔ b ≡ j [MOD n] := by
    intro b
    rw [Nat.ModEq, Nat.mod_eq_of_lt hj]
  rw [Nat.count_eq_card_filter_range]
  refine card_bij (fun b _ => b.val) ?_ (fun b _ c _ h => Fin.ext h) ?_
  · intro b hb
    simpa [hresidue] using hb
  · intro b hb
    obtain ⟨hlt, hb⟩ := mem_filter.1 hb
    exact ⟨⟨b, mem_range.1 hlt⟩, by simpa [hresidue] using hb, rfl⟩

/-- **A residue** comes from the quotient, and from one draw more when it is below the
remainder. -/
theorem hits_eq {j : ℕ} (hj : j < n) : hits k n j = k / n + if j < k % n then 1 else 0 := by
  rw [hits_eq_count hj, Nat.count_modEq_card k (Nat.zero_lt_of_lt hj), Nat.mod_eq_of_lt hj]

/-- **Every residue** comes from as many draws exactly when there is no remainder. -/
theorem hits_const_iff (hn : 0 < n) :
    (∀ i j : Fin n, hits k n i = hits k n j) ↔ n ∣ k := by
  constructor
  · intro h
    have hends := h ⟨0, hn⟩ ⟨n - 1, by omega⟩
    simp only at hends
    rw [hits_eq hn, hits_eq (by omega)] at hends
    have hlast : ¬ n - 1 < k % n := by
      have := Nat.mod_lt k hn
      omega
    by_cases hzero : 0 < k % n
    · rw [if_pos hzero, if_neg hlast] at hends
      omega
    · exact Nat.dvd_of_mod_eq_zero (by omega)
  · intro h i j
    rw [hits_eq i.2, hits_eq j.2, Nat.mod_eq_zero_of_dvd h]
    simp

/-! ## A word of draws -/

/-- The sequences of draws that are reduced to a word. -/
def draws (k n : ℕ) (word : Fin m → ℕ) : Finset (Fin m → Fin k) :=
  {bytes | ∀ i, (bytes i).val % n = word i}

/-- **A word** comes from as many sequences as the product over its letters says. -/
theorem card_draws (word : Fin m → ℕ) : #(draws k n word) = ∏ i, hits k n (word i) := by
  have hbox : draws k n word = Fintype.piFinset fun i => {b : Fin k | b.val % n = word i} := by
    ext bytes
    simp [draws]
  rw [hbox, Fintype.card_piFinset]
  rfl

/-- **Every word** comes from as many sequences exactly when there is no remainder. -/
theorem card_draws_const_iff (hn : 0 < n) (hm : 0 < m) :
    (∀ v w : Fin m → Fin n,
      #(draws k n fun i => (v i : ℕ)) = #(draws k n fun i => (w i : ℕ))) ↔ n ∣ k := by
  rw [← hits_const_iff hn]
  constructor
  · intro h i j
    have hpowers := h (fun _ => i) (fun _ => j)
    simp only [card_draws, prod_const, card_univ, Fintype.card_fin] at hpowers
    exact Nat.pow_left_injective (by omega) hpowers
  · intro h v w
    rw [card_draws, card_draws]
    exact prod_congr rfl fun i _ => h (v i) (w i)

end Residues
