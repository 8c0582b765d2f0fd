import Mathlib

/-!
# Patterns

Regular expressions with lookahead, and what they take off the front of a text.

* `Pattern`, `Takes` — the expressions, and what they leave of a text.
* `Accepts` — a pattern between `^` and `$`.
* `Reads` — a pattern takes these words and no others; `Reads.seq`, `Reads.alt`,
  `Reads.many` — so do its parts together.
* `reads_plus_one`, `reads_upTo_one` — runs of characters of a class.
* `Reads.separated` — words with a character between them are what splits at it into such
  words.
* `takes_ahead_seq` — a lookahead is one more condition on the text.
-/

namespace Patterns

variable {α : Type}

/-! ## Expressions -/

/-- A regular expression. -/
inductive Pattern (α : Type) where
  /-- A class of characters. -/
  | one (p : α → Bool)
  | nothing
  | seq (p q : Pattern α)
  | alt (p q : Pattern α)
  /-- `p*`. -/
  | many (p : Pattern α)
  /-- `(?=p)`. -/
  | ahead (p : Pattern α)

namespace Pattern

/-- `p+`. -/
def plus (p : Pattern α) : Pattern α := seq p (many p)

/-- `p?`. -/
def opt (p : Pattern α) : Pattern α := alt p nothing

/-- `p{0,n}`. -/
def upTo (p : Pattern α) : ℕ → Pattern α
  | 0 => nothing
  | n + 1 => opt (seq p (upTo p n))

end Pattern

/-- The pattern takes `s` to what is left of it. -/
def Takes : Pattern α → List α → List α → Prop
  | .one p, s, t => ∃ a, p a = true ∧ s = a :: t
  | .nothing, s, t => s = t
  | .seq p q, s, t => ∃ u, Takes p s u ∧ Takes q u t
  | .alt p q, s, t => Takes p s t ∨ Takes q s t
  | .many p, s, t => Relation.ReflTransGen (Takes p) s t
  | .ahead p, s, t => s = t ∧ ∃ u, Takes p s u

/-- `/^p$/.test(s)`. -/
def Accepts (p : Pattern α) (s : List α) : Prop := Takes p s []

/-! ## Words -/

/-- The pattern takes these words, whatever follows. -/
def Reads (p : Pattern α) (words : List α → Prop) : Prop :=
  ∀ s t, Takes p s t ↔ ∃ w, words w ∧ s = w ++ t

section

variable {p q : Pattern α} {L M : List α → Prop} {f : α → Bool}

/-- **A whole text** is accepted when it is one of the words. -/
theorem Reads.accepts_iff (h : Reads p L) (s : List α) : Accepts p s ↔ L s := by
  rw [Accepts, h]
  simp

theorem Reads.congr (h : Reads p L) (hiff : ∀ w, L w ↔ M w) : Reads p M := fun s t => by
  rw [h]
  simp only [hiff]

theorem reads_one (f : α → Bool) : Reads (.one f) fun w => ∃ a, f a = true ∧ w = [a] := by
  intro s t
  constructor
  · rintro ⟨a, ha, rfl⟩
    exact ⟨[a], ⟨a, ha, rfl⟩, rfl⟩
  · rintro ⟨_, ⟨a, ha, rfl⟩, rfl⟩
    exact ⟨a, ha, rfl⟩

theorem reads_nothing : Reads (.nothing : Pattern α) (· = []) := by
  intro s t
  simp [Takes]

theorem Reads.seq (hp : Reads p L) (hq : Reads q M) :
    Reads (.seq p q) fun w => ∃ u v, L u ∧ M v ∧ w = u ++ v := by
  intro s t
  constructor
  · rintro ⟨r, hr, ht⟩
    obtain ⟨u, hu, rfl⟩ := (hp _ _).1 hr
    obtain ⟨v, hv, rfl⟩ := (hq _ _).1 ht
    exact ⟨u ++ v, ⟨u, v, hu, hv, rfl⟩, (List.append_assoc ..).symm⟩
  · rintro ⟨_, ⟨u, v, hu, hv, rfl⟩, rfl⟩
    exact ⟨v ++ t, (hp _ _).2 ⟨u, hu, List.append_assoc ..⟩, (hq _ _).2 ⟨v, hv, rfl⟩⟩

theorem Reads.alt (hp : Reads p L) (hq : Reads q M) : Reads (.alt p q) fun w => L w ∨ M w := by
  intro s t
  rw [Takes, hp, hq, ← exists_or]
  simp only [or_and_right]

theorem Reads.opt (hp : Reads p L) : Reads p.opt fun w => L w ∨ w = [] := hp.alt reads_nothing

/-- **A repetition** takes some words, one behind the other. -/
theorem Reads.many (hp : Reads p L) :
    Reads p.many fun w => ∃ ws : List (List α), (∀ u ∈ ws, L u) ∧ w = ws.flatten := by
  intro s t
  constructor
  · intro h
    induction h using Relation.ReflTransGen.head_induction_on with
    | refl => exact ⟨[], ⟨[], by simp, rfl⟩, rfl⟩
    | head hstep _ ih =>
      obtain ⟨u, hu, rfl⟩ := (hp _ _).1 hstep
      obtain ⟨_, ⟨ws, hws, rfl⟩, rfl⟩ := ih
      exact ⟨_, ⟨u :: ws, by simpa [hu] using hws, rfl⟩, by simp⟩
  · rintro ⟨_, ⟨ws, hws, rfl⟩, rfl⟩
    induction ws with
    | nil => exact .refl
    | cons u ws ih =>
      have hstep : Takes p ((u :: ws).flatten ++ t) (ws.flatten ++ t) :=
        (hp _ _).2 ⟨u, hws u List.mem_cons_self, by simp⟩
      exact .head hstep (ih fun v hv => hws v (List.mem_cons_of_mem u hv))

/-! ## Runs of a class -/

theorem reads_many_one (f : α → Bool) : Reads (Pattern.one f).many fun w => ∀ a ∈ w, f a = true := by
  refine (reads_one f).many.congr fun w => ⟨?_, fun h => ⟨w.map fun a => [a], ?_, ?_⟩⟩
  · rintro ⟨ws, hws, rfl⟩ a ha
    obtain ⟨u, hu, hmem⟩ := List.mem_flatten.1 ha
    obtain ⟨b, hb, rfl⟩ := hws u hu
    rwa [List.mem_singleton.1 hmem]
  · intro u hu
    obtain ⟨a, ha, rfl⟩ := List.mem_map.1 hu
    exact ⟨a, h a ha, rfl⟩
  · rw [← List.flatMap_def, List.flatMap_singleton']

theorem reads_plus_one (f : α → Bool) :
    Reads (Pattern.one f).plus fun w => w ≠ [] ∧ ∀ a ∈ w, f a = true := by
  refine ((reads_one f).seq (reads_many_one f)).congr fun w => ⟨?_, ?_⟩
  · rintro ⟨_, v, ⟨a, ha, rfl⟩, hv, rfl⟩
    exact ⟨by simp, by simpa [ha] using hv⟩
  · rintro ⟨hne, hall⟩
    obtain ⟨a, v, rfl⟩ := List.exists_cons_of_ne_nil hne
    rw [List.forall_mem_cons] at hall
    exact ⟨[a], v, ⟨a, hall.1, rfl⟩, hall.2, rfl⟩

theorem reads_upTo_one (f : α → Bool) (n : ℕ) :
    Reads ((Pattern.one f).upTo n) fun w => w.length ≤ n ∧ ∀ a ∈ w, f a = true := by
  induction n with
  | zero =>
    refine reads_nothing.congr fun w => ⟨?_, fun h => List.eq_nil_of_length_eq_zero (by omega)⟩
    rintro rfl
    simp
  | succ n ih =>
    refine ((reads_one f).seq ih).opt.congr fun w => ⟨?_, ?_⟩
    · rintro (⟨_, v, ⟨a, ha, rfl⟩, ⟨hlength, hv⟩, rfl⟩ | rfl)
      · exact ⟨by simpa using hlength, by simpa [ha] using hv⟩
      · simp
    · rintro ⟨hlength, hall⟩
      cases w with
      | nil => exact .inr rfl
      | cons a v =>
        rw [List.forall_mem_cons] at hall
        exact .inl ⟨[a], v, ⟨a, hall.1, rfl⟩, ⟨by simpa using hlength, hall.2⟩, rfl⟩

/-! ## Words with a character between them -/

theorem intercalate_cons_eq (sep : α) (u : List α) (us : List (List α)) :
    [sep].intercalate (u :: us) = u ++ (us.map (List.cons sep)).flatten := by
  induction us generalizing u with
  | nil => simp [List.intercalate]
  | cons v us ih => simpa [List.intercalate] using ih v

/-- **Words with a character between them** are what splits at it into such words. -/
theorem Reads.separated [DecidableEq α] {sep : α} (hp : Reads p L) (hsep : ∀ w, L w → sep ∉ w) :
    Reads (p.seq ((Pattern.one (· == sep)).seq p).many)
      fun w => ∀ u ∈ w.splitOn sep, L u := by
  have hrest : Reads ((Pattern.one (· == sep)).seq p) fun w => ∃ u, L u ∧ w = sep :: u := by
    refine ((reads_one _).seq hp).congr fun w => ⟨?_, ?_⟩
    · rintro ⟨_, u, ⟨a, ha, rfl⟩, hu, rfl⟩
      obtain rfl := eq_of_beq ha
      exact ⟨u, hu, rfl⟩
    · rintro ⟨u, hu, rfl⟩
      exact ⟨[sep], u, ⟨sep, beq_self_eq_true sep, rfl⟩, hu, rfl⟩
  refine (hp.seq hrest.many).congr fun w => ⟨?_, fun h => ?_⟩
  · rintro ⟨u, _, hu, ⟨ws, hws, rfl⟩, rfl⟩
    -- the words behind the first one, without the character in front
    obtain ⟨us, hus, rfl⟩ : ∃ us : List (List α), (∀ v ∈ us, L v) ∧ ws = us.map (List.cons sep) := by
      induction ws with
      | nil => exact ⟨[], by simp, rfl⟩
      | cons x ws ih =>
        obtain ⟨v, hv, rfl⟩ := hws x List.mem_cons_self
        obtain ⟨us, hus, rfl⟩ := ih fun y hy => hws y (List.mem_cons_of_mem _ hy)
        exact ⟨v :: us, by simpa [hv] using hus, rfl⟩
    have hall : ∀ v ∈ u :: us, L v := by simpa [hu] using hus
    rw [← intercalate_cons_eq, List.splitOn_intercalate sep (fun v hv => hsep v (hall v hv)) (by simp)]
    exact hall
  · have hjoined : [sep].intercalate (w.splitOn sep) = w := List.intercalate_splitOn sep
    obtain ⟨u, us, hsplit⟩ := List.exists_cons_of_ne_nil (List.splitOn_ne_nil sep w)
    rw [hsplit] at h hjoined
    rw [List.forall_mem_cons] at h
    refine ⟨u, _, h.1, ⟨us.map (List.cons sep), ?_, rfl⟩, ?_⟩
    · intro x hx
      obtain ⟨v, hv, rfl⟩ := List.mem_map.1 hx
      exact ⟨v, h.2 v hv, rfl⟩
    · rw [← intercalate_cons_eq, hjoined]

/-! ## Lookahead -/

/-- **A lookahead** in front is one more condition on the text. -/
theorem takes_ahead_seq (p q : Pattern α) (s t : List α) :
    Takes (p.ahead.seq q) s t ↔ (∃ u, Takes p s u) ∧ Takes q s t := by
  constructor
  · rintro ⟨_, ⟨rfl, hp⟩, hq⟩
    exact ⟨hp, hq⟩
  · rintro ⟨hp, hq⟩
    exact ⟨s, ⟨rfl, hp⟩, hq⟩

/-- A character of the class `f` behind characters of the class `g`. -/
theorem exists_takes_many_one_seq_one (f g : α → Bool) (s : List α) :
    (∃ t, Takes ((Pattern.one g).many.seq (.one f)) s t) ↔
      ∃ u a v, s = u ++ a :: v ∧ (∀ b ∈ u, g b = true) ∧ f a = true := by
  constructor
  · rintro ⟨t, r, hr, a, ha, rfl⟩
    obtain ⟨u, hu, rfl⟩ := (reads_many_one g _ _).1 hr
    exact ⟨u, a, t, rfl, hu, ha⟩
  · rintro ⟨u, a, v, rfl, hu, ha⟩
    exact ⟨v, a :: v, (reads_many_one g _ _).2 ⟨u, hu, rfl⟩, a, ha, rfl⟩

end

end Patterns
