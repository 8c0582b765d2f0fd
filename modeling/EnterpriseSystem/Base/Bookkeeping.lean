import Mathlib

/-!
# Double-entry bookkeeping

A journal is a list of signed amounts, each posted to an account as part of a
transaction.  Two sums describe it: over the entries of an account, which is
what a materialised balance has to agree with, and over the entries of a
transaction, which is zero when the transaction is balanced.

* `balanceOf`, `netOf`, `total` — the sums.
* `total_eq_zero` — **the accounting equation**: a journal whose transactions
  are all balanced sums to zero.
-/

namespace Bookkeeping

/-- An amount posted to an account as part of a transaction. -/
structure Entry (A T M : Type*) where
  account : A
  transaction : T
  amount : M

variable {A T M : Type*} [AddCommMonoid M] [DecidableEq A] [DecidableEq T]

/-- The sum of the entries of an account. -/
def balanceOf (a : A) (j : List (Entry A T M)) : M :=
  ((j.filter fun e => decide (e.account = a)).map Entry.amount).sum

/-- The sum of the entries of a transaction. -/
def netOf (t : T) (j : List (Entry A T M)) : M :=
  ((j.filter fun e => decide (e.transaction = t)).map Entry.amount).sum

/-- The sum of all entries. -/
def total (j : List (Entry A T M)) : M := (j.map Entry.amount).sum

omit [DecidableEq T] in
/-- One more entry counts for its own account only. -/
theorem balanceOf_concat (a : A) (j : List (Entry A T M)) (e : Entry A T M) :
    balanceOf a (j ++ [e]) = if e.account = a then balanceOf a j + e.amount else balanceOf a j := by
  unfold balanceOf
  by_cases h : e.account = a <;> simp [h]

omit [DecidableEq T] in
theorem balanceOf_eq_zero {a : A} {j : List (Entry A T M)} (h : ∀ e ∈ j, e.account ≠ a) :
    balanceOf a j = 0 := by
  have hnil : j.filter (fun e => decide (e.account = a)) = [] :=
    List.filter_eq_nil_iff.2 fun e he => by simp [h e he]
  rw [balanceOf, hnil]
  rfl

omit [DecidableEq A] in
theorem netOf_cons (t : T) (e : Entry A T M) (j : List (Entry A T M)) :
    netOf t (e :: j) = (if e.transaction = t then e.amount else 0) + netOf t j := by
  unfold netOf
  by_cases h : e.transaction = t <;> simp [h]

omit [DecidableEq A] in
/-- The total is the sum over any set of transactions that has all of them. -/
theorem total_eq_sum_netOf (j : List (Entry A T M)) (S : Finset T)
    (hS : ∀ e ∈ j, e.transaction ∈ S) : total j = ∑ t ∈ S, netOf t j := by
  induction j with
  | nil => simp [total, netOf]
  | cons e j ih =>
    have hj : total j = ∑ t ∈ S, netOf t j := ih fun e' he' => hS e' (List.mem_cons_of_mem _ he')
    have he : e.transaction ∈ S := hS e (List.mem_cons_self ..)
    simp only [netOf_cons, Finset.sum_add_distrib, Finset.sum_ite_eq, he, if_true, ← hj]
    simp [total]

omit [DecidableEq A] in
/-- **The accounting equation.** -/
theorem total_eq_zero {j : List (Entry A T M)} (h : ∀ e ∈ j, netOf e.transaction j = 0) :
    total j = 0 := by
  have hS : ∀ e ∈ j, e.transaction ∈ (j.map Entry.transaction).toFinset :=
    fun e he => List.mem_toFinset.2 (List.mem_map_of_mem he)
  rw [total_eq_sum_netOf j _ hS]
  refine Finset.sum_eq_zero fun t ht => ?_
  obtain ⟨e, he, rfl⟩ := List.mem_map.1 (List.mem_toFinset.1 ht)
  exact h e he

end Bookkeeping
