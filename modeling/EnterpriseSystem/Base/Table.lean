import Mathlib

/-!
# Keyed tables

A table with a primary key is a list of rows in the order they were first
written, no two of which have the same key.  The uniqueness is a field of the
table, so a table that breaks its key constraint cannot be built and no later
proof has to argue about one.

* `Table.get?` looks a row up by its key.
* `Table.put` writes a row: in place of the row with that key when there is
  one, and at the end otherwise.  It is what both `INSERT` (after its
  uniqueness check) and `UPDATE` do to a table.
* `get?_put` says what a write does to every lookup, `mem_put_iff` what it does
  to the set of rows, and `rows_put_of_get?_none` that a row under a new key is
  the last one.
-/

namespace Relational

/-- Rows told apart by `key`, in the order in which their keys were first
written. -/
structure Table {α κ : Type} (key : α → κ) where
  rows : List α
  nodup : (rows.map key).Nodup

namespace Table

variable {α κ : Type} {key : α → κ}

/-- The table without rows. -/
def empty (key : α → κ) : Table key := ⟨[], by simp⟩

@[simp] theorem rows_empty : (empty key).rows = [] := rfl

instance : Membership α (Table key) := ⟨fun t a => a ∈ t.rows⟩

theorem mem_def {t : Table key} {a : α} : a ∈ t ↔ a ∈ t.rows := Iff.rfl

/-- Two rows of one table with one key are the same row. -/
theorem eq_of_key_eq {t : Table key} {a b : α} (ha : a ∈ t) (hb : b ∈ t)
    (h : key a = key b) : a = b :=
  List.inj_on_of_nodup_map t.nodup ha hb h

/-- The rows without their order. -/
def bag (t : Table key) : Multiset α := t.rows

/-- Tables with the same rows of some kind have the same bag of them. -/
theorem filter_bag_congr {t t' : Table key} {p : α → Prop} [DecidablePred p]
    (h : ∀ a, p a → (a ∈ t ↔ a ∈ t')) : t.bag.filter p = t'.bag.filter p := by
  have hnodup : ∀ t : Table key, (t.bag.filter p).Nodup := fun t =>
    Multiset.Nodup.filter p (Multiset.coe_nodup.2 (List.Nodup.of_map key t.nodup))
  rw [Multiset.Nodup.ext (hnodup t) (hnodup t')]
  intro a
  rw [Multiset.mem_filter, Multiset.mem_filter]
  exact and_congr_left fun hp => h a hp

/-- The rows after a `DELETE`: those that it does not select. -/
def remove (t : Table key) (p : α → Prop) [DecidablePred p] : Table key where
  rows := t.rows.filter fun a => ¬ p a
  nodup := t.nodup.sublist (List.filter_sublist.map key)

@[simp] theorem mem_remove_iff {t : Table key} {p : α → Prop} [DecidablePred p] {a : α} :
    a ∈ t.remove p ↔ a ∈ t ∧ ¬ p a := by
  simp [mem_def, remove]

/-- The rows after an `UPDATE` that leaves the keys alone: `f` of those that it
selects. -/
def update (t : Table key) (p : α → Bool) (f : α → α) (hkey : ∀ a, key (f a) = key a) :
    Table key where
  rows := t.rows.map fun a => if p a then f a else a
  nodup := by
    have hkeys : (t.rows.map fun a => if p a then f a else a).map key = t.rows.map key := by
      rw [List.map_map]
      refine List.map_congr_left fun a _ => ?_
      show key (if p a then f a else a) = key a
      split
      · exact hkey a
      · rfl
    rw [hkeys]
    exact t.nodup

@[simp] theorem rows_update (t : Table key) (p : α → Bool) (f : α → α)
    (hkey : ∀ a, key (f a) = key a) :
    (t.update p f hkey).rows = t.rows.map fun a => if p a then f a else a := rfl

variable [DecidableEq κ]

/-- The row with key `k`, if the table has one. -/
def get? (t : Table key) (k : κ) : Option α := t.rows.find? (fun a => decide (key a = k))

/-- Whether a row has key `k`. -/
def contains (t : Table key) (k : κ) : Bool := (t.get? k).isSome

theorem mem_of_get? {t : Table key} {k : κ} {a : α} (h : t.get? k = some a) : a ∈ t :=
  List.mem_of_find?_eq_some h

theorem key_of_get? {t : Table key} {k : κ} {a : α} (h : t.get? k = some a) : key a = k := by
  simpa using List.find?_some h

/-- A lookup finds exactly the row of the table that has the key. -/
theorem get?_eq_some_iff {t : Table key} {k : κ} {a : α} :
    t.get? k = some a ↔ a ∈ t ∧ key a = k := by
  constructor
  · exact fun h => ⟨mem_of_get? h, key_of_get? h⟩
  · rintro ⟨hmem, rfl⟩
    obtain ⟨b, hb⟩ : ∃ b, t.get? (key a) = some b := by
      refine Option.isSome_iff_exists.1 ?_
      rw [get?, List.find?_isSome]
      exact ⟨a, hmem, by simp⟩
    rw [hb, eq_of_key_eq (mem_of_get? hb) hmem (key_of_get? hb)]

theorem get?_of_mem {t : Table key} {a : α} (h : a ∈ t) : t.get? (key a) = some a :=
  get?_eq_some_iff.2 ⟨h, rfl⟩

/-- **After an update** a lookup finds what the update makes of the row. -/
theorem get?_update (t : Table key) (p : α → Bool) (f : α → α) (hkey : ∀ a, key (f a) = key a)
    (k : κ) : (t.update p f hkey).get? k = (t.get? k).map fun a => if p a then f a else a := by
  unfold get?
  rw [rows_update, List.find?_map]
  congr 1
  refine congrArg (fun q => t.rows.find? q) (funext fun a => ?_)
  show decide (key (if p a then f a else a) = k) = decide (key a = k)
  split
  · rw [hkey]
  · rfl

theorem get?_eq_none_iff {t : Table key} {k : κ} : t.get? k = none ↔ ∀ a ∈ t, key a ≠ k := by
  simp [get?, mem_def]

@[simp] theorem contains_eq_false_iff {t : Table key} {k : κ} :
    t.contains k = false ↔ t.get? k = none := by
  simp [contains]

@[simp] theorem contains_eq_true_iff {t : Table key} {k : κ} :
    t.contains k = true ↔ ∃ a, t.get? k = some a := by
  simp [contains, Option.isSome_iff_exists]

/-! ## Writing a row -/

/-- The rows after `a` has been written: in place, or at the end. -/
def putRows (key : α → κ) (a : α) (rows : List α) : List α :=
  if key a ∈ rows.map key then rows.map (fun b => if key b = key a then a else b)
  else rows ++ [a]

theorem map_key_putRows (a : α) (rows : List α) :
    (putRows key a rows).map key =
      if key a ∈ rows.map key then rows.map key else rows.map key ++ [key a] := by
  unfold putRows
  split
  · rw [List.map_map]
    refine List.map_congr_left fun b _ => ?_
    by_cases hb : key b = key a <;> simp [hb]
  · simp

/-- Write a row under its own key. -/
def put (t : Table key) (a : α) : Table key where
  rows := putRows key a t.rows
  nodup := by
    rw [map_key_putRows]
    split
    · exact t.nodup
    · rename_i hnew
      exact List.nodup_append.2 ⟨t.nodup, by simp, by
        intro k hk k' hk' heq
        rw [List.mem_singleton] at hk'
        exact hnew (hk' ▸ heq ▸ hk)⟩

theorem mem_keys_iff {t : Table key} {k : κ} : k ∈ t.rows.map key ↔ ∃ a, t.get? k = some a := by
  rw [List.mem_map]
  constructor
  · rintro ⟨a, hmem, rfl⟩
    exact ⟨a, get?_of_mem hmem⟩
  · rintro ⟨a, h⟩
    exact ⟨a, mem_of_get? h, key_of_get? h⟩

/-- A row under a new key goes to the end. -/
theorem rows_put_of_get?_none {t : Table key} {a : α} (h : t.get? (key a) = none) :
    (t.put a).rows = t.rows ++ [a] := by
  refine if_neg fun hc => ?_
  obtain ⟨b, hb⟩ := mem_keys_iff.1 hc
  rw [h] at hb
  cases hb

/-- A row under a key already there replaces the row it finds. -/
theorem rows_put_of_get?_some {t : Table key} {a b : α} (h : t.get? (key a) = some b) :
    (t.put a).rows = t.rows.map (fun c => if key c = key a then a else c) :=
  if_pos (mem_keys_iff.2 ⟨b, h⟩)

/-- The rows after a write are the written row and the rows under other keys. -/
theorem mem_put_iff {t : Table key} {a b : α} :
    b ∈ t.put a ↔ b = a ∨ (b ∈ t ∧ key b ≠ key a) := by
  cases h : t.get? (key a) with
  | none =>
    rw [mem_def, rows_put_of_get?_none h, List.mem_append, List.mem_singleton]
    have hne : ∀ c ∈ t, key c ≠ key a := get?_eq_none_iff.1 h
    constructor
    · rintro (hb | rfl)
      · exact Or.inr ⟨hb, hne b hb⟩
      · exact Or.inl rfl
    · rintro (rfl | ⟨hb, -⟩)
      · exact Or.inr rfl
      · exact Or.inl hb
  | some c =>
    rw [mem_def, rows_put_of_get?_some h, List.mem_map]
    constructor
    · rintro ⟨d, hd, rfl⟩
      by_cases hk : key d = key a
      · simp [hk]
      · rw [if_neg hk]
        exact Or.inr ⟨hd, hk⟩
    · rintro (rfl | ⟨hb, hk⟩)
      · exact ⟨c, mem_of_get? h, by simp [key_of_get? h]⟩
      · exact ⟨b, hb, by simp [hk]⟩

@[simp] theorem mem_put_self (t : Table key) (a : α) : a ∈ t.put a :=
  mem_put_iff.2 (Or.inl rfl)

/-- A write among the rows with one value of `f` leaves the others alone. -/
theorem mem_put_iff_of_ne {β : Type} {f : α → β} {t : Table key} {a b : α}
    (hold : ∀ c, t.get? (key a) = some c → f c = f a) (hb : f b ≠ f a) : b ∈ t.put a ↔ b ∈ t := by
  rw [mem_put_iff]
  constructor
  · rintro (rfl | ⟨hmem, -⟩)
    · exact absurd rfl hb
    · exact hmem
  · exact fun hmem => Or.inr ⟨hmem, fun hkey => hb (hold b (hkey ▸ get?_of_mem hmem))⟩

/-- **What a write does to every lookup.** -/
theorem get?_put (t : Table key) (a : α) (k : κ) :
    (t.put a).get? k = if key a = k then some a else t.get? k := by
  split
  · rename_i h
    exact get?_eq_some_iff.2 ⟨mem_put_self t a, h⟩
  · rename_i h
    refine Option.ext fun b => ?_
    rw [get?_eq_some_iff, get?_eq_some_iff, mem_put_iff]
    constructor
    · rintro ⟨rfl | ⟨hb, -⟩, rfl⟩
      · exact absurd rfl h
      · exact ⟨hb, rfl⟩
    · rintro ⟨hb, rfl⟩
      exact ⟨Or.inr ⟨hb, fun hc => h hc.symm⟩, rfl⟩

@[simp] theorem get?_put_self (t : Table key) (a : α) : (t.put a).get? (key a) = some a := by
  rw [get?_put, if_pos rfl]

theorem get?_put_of_ne (t : Table key) {a : α} {k : κ} (h : key a ≠ k) :
    (t.put a).get? k = t.get? k := by
  rw [get?_put, if_neg h]

/-! ## Writing several rows -/

/-- A key is unused after some writes when it was unused before and none of them
uses it. -/
theorem get?_foldl_put_eq_none_iff {t : Table key} {as : List α} {k : κ} :
    (as.foldl put t).get? k = none ↔ t.get? k = none ∧ ∀ a ∈ as, key a ≠ k := by
  induction as generalizing t with
  | nil => simp
  | cons a as ih =>
    rw [List.foldl_cons, ih, get?_put]
    by_cases h : key a = k <;> simp [h]

theorem get?_foldl_put_of_ne {t : Table key} {as : List α} {k : κ} (h : ∀ a ∈ as, key a ≠ k) :
    (as.foldl put t).get? k = t.get? k := by
  induction as generalizing t with
  | nil => rfl
  | cons a as ih =>
    rw [List.foldl_cons, ih fun b hb => h b (List.mem_cons_of_mem _ hb),
      get?_put_of_ne t (h a (List.mem_cons_self ..))]

/-- A row written under a key of its own is found under it. -/
theorem get?_foldl_put_of_mem {t : Table key} {as : List α} (hnodup : (as.map key).Nodup) {a : α}
    (ha : a ∈ as) : (as.foldl put t).get? (key a) = some a := by
  induction as generalizing t with
  | nil => cases ha
  | cons b as ih =>
    rw [List.map_cons, List.nodup_cons] at hnodup
    rcases List.mem_cons.1 ha with rfl | ha
    · have hothers : ∀ b ∈ as, key b ≠ key a := by
        intro b hb hkey
        exact hnodup.1 (hkey ▸ List.mem_map_of_mem hb)
      rw [List.foldl_cons, get?_foldl_put_of_ne hothers, get?_put_self]
    · exact ih hnodup.2 ha

/-- A row is there after some writes when it has been written or was there. -/
theorem mem_of_mem_foldl_put {t : Table key} {as : List α} {b : α} (h : b ∈ as.foldl put t) :
    b ∈ as ∨ b ∈ t := by
  induction as generalizing t with
  | nil => exact Or.inr h
  | cons a as ih =>
    rcases ih h with hb | hb
    · exact Or.inl (List.mem_cons_of_mem _ hb)
    · rcases mem_put_iff.1 hb with rfl | ⟨hb, -⟩
      · exact Or.inl (List.mem_cons_self ..)
      · exact Or.inr hb

end Table

end Relational
