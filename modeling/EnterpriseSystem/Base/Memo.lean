import Mathlib

/-!
# Memoization

A function whose results are kept in a table, under a key computed from the
argument.  Entries may get lost at any time.

* `Memo` — the function, its key, and how results are written and read; reading
  may find that an entry does not count, and keys and entries may be in error.
* `Memo.call` — a call that looks for an entry first; `Memo.answers` — a sequence
  of calls, with losses in between.
* `Memo.Transparent` — whatever is lost, each call answers like the function.
* `Memo.transparent_iff_separates` — so it is exactly when every argument has a key, and
  arguments that share one have results alike.
-/

namespace Memoization

/-- A memoized function: results `β` are kept as `τ` under keys `κ`. -/
structure Memo (α κ τ β ε : Type*) where
  compute : α → β
  key : α → Except ε κ
  write : β → τ
  /-- What an entry is good for, if it counts. -/
  read : τ → Except ε (Option β)

/-- What happens to a table. -/
inductive Event (α κ : Type*) where
  | call (a : α)
  /-- The entries under these keys are lost. -/
  | lose (gone : κ → Bool)

/-- The argument of a call. -/
def Event.arg? {α κ : Type*} : Event α κ → Option α
  | call a => some a
  | lose _ => none

namespace Memo

variable {α κ τ β ε : Type*} [DecidableEq κ] (m : Memo α κ τ β ε)

/-- What a table has under a key. -/
def find (table : κ → Option τ) (k : κ) : Except ε (Option β) :=
  match table k with
  | none => .ok none
  | some t => m.read t

/-- A call looks for an entry, and computes the result if there is none. -/
def call (table : κ → Option τ) (a : α) : Except ε β × (κ → Option τ) :=
  match m.key a with
  | .error e => (.error e, table)
  | .ok k =>
    match m.find table k with
    | .error e => (.error e, table)
    | .ok (some b) => (.ok b, table)
    | .ok none => (.ok (m.compute a), Function.update table k (some (m.write (m.compute a))))

/-- The table after an event. -/
def step (table : κ → Option τ) : Event α κ → (κ → Option τ)
  | .call a => (m.call table a).2
  | .lose gone => fun k => if gone k then none else table k

/-- The answers to the calls of a sequence. -/
def answers : (κ → Option τ) → List (Event α κ) → List (α × Except ε β)
  | _, [] => []
  | table, .call a :: events => (a, (m.call table a).1) :: answers (m.call table a).2 events
  | table, .lose gone :: events => answers (m.step table (.lose gone)) events

/-- Each call answers like the function, whatever is lost in between. -/
def Transparent (R : β → β → Prop) (calls : List α) : Prop :=
  ∀ events : List (Event α κ), events.filterMap Event.arg? = calls →
    ∀ p ∈ m.answers (fun _ => none) events, ∃ b, p.2 = .ok b ∧ R b (m.compute p.1)

/-- Calls that share a key have results alike. -/
def Separates (R : β → β → Prop) (calls : List α) : Prop :=
  (∀ a ∈ calls, ∃ k, m.key a = .ok k) ∧
    calls.Pairwise fun a a' => ∀ k, m.key a = .ok k → m.key a' = .ok k →
      R (m.compute a) (m.compute a')

/-- What is read back is like what was written, and counts. -/
def Faithful (R : β → β → Prop) : Prop :=
  ∀ a, ∃ b, m.read (m.write (m.compute a)) = .ok (some b) ∧ R b (m.compute a)

variable {m} {R : β → β → Prop} {table : κ → Option τ}

theorem answers_append (events events' : List (Event α κ)) :
    m.answers table (events ++ events') =
      m.answers table events ++ m.answers (events.foldl m.step table) events' := by
  induction events generalizing table with
  | nil => rfl
  | cons event events ih =>
    cases event with
    | call a => exact congrArg _ ih
    | lose gone => exact ih

/-- Every entry holds the result of an earlier call with that key. -/
def Sound (m : Memo α κ τ β ε) (seen : List α) (table : κ → Option τ) : Prop :=
  ∀ k t, table k = some t → ∃ a ∈ seen, m.key a = .ok k ∧ t = m.write (m.compute a)

omit [DecidableEq κ] in
theorem find_of_none {k : κ} (h : table k = none) : m.find table k = .ok none := by
  unfold find
  rw [h]

omit [DecidableEq κ] in
theorem find_of_some {k : κ} {t : τ} (h : table k = some t) : m.find table k = m.read t := by
  unfold find
  rw [h]

theorem call_of_error {a : α} {e : ε} (hkey : m.key a = .error e) :
    m.call table a = (.error e, table) := by
  unfold call
  rw [hkey]

theorem call_of_ok {a : α} {k : κ} (hkey : m.key a = .ok k) :
    m.call table a = match m.find table k with
      | .error e => (.error e, table)
      | .ok (some b) => (.ok b, table)
      | .ok none => (.ok (m.compute a), Function.update table k (some (m.write (m.compute a)))) := by
  unfold call
  rw [hkey]

/-- A call that finds nothing writes its result. -/
theorem call_of_none {a : α} {k : κ} (hkey : m.key a = .ok k) (h : table k = none) :
    m.call table a =
      (.ok (m.compute a), Function.update table k (some (m.write (m.compute a)))) := by
  rw [call_of_ok hkey, find_of_none h]

/-- A call that finds an entry answers what it is good for. -/
theorem call_of_some {a : α} {k : κ} {t : τ} {b : β} (hkey : m.key a = .ok k)
    (h : table k = some t) (hread : m.read t = .ok (some b)) : m.call table a = (.ok b, table) := by
  rw [call_of_ok hkey, find_of_some h, hread]

namespace Sound

variable {seen : List α} {a : α} {k : κ}

omit [DecidableEq κ] in
theorem mono (h : Sound m seen table) (a : α) : Sound m (seen ++ [a]) table := fun k t ht => by
  obtain ⟨a', ha', hk⟩ := h k t ht
  exact ⟨a', List.mem_append_left _ ha', hk⟩

/-- **A call** leaves a sound table. -/
theorem call (h : Sound m seen table) (hread : m.Faithful R) (hkey : m.key a = .ok k) :
    Sound m (seen ++ [a]) (m.call table a).2 := by
  cases hentry : table k with
  | none =>
    rw [call_of_none hkey hentry]
    intro k' t ht
    by_cases hk : k' = k
    · subst hk
      have hself : some (m.write (m.compute a)) = some t :=
        (Function.update_self (f := table) ..).symm.trans ht
      exact ⟨a, List.mem_append_right _ (List.mem_singleton_self _), hkey,
        (Option.some.inj hself).symm⟩
    · exact h.mono a k' t ((Function.update_of_ne hk ..).symm.trans ht)
  | some t =>
    obtain ⟨a', -, -, rfl⟩ := h k t hentry
    obtain ⟨b, hb, -⟩ := hread a'
    rw [call_of_some hkey hentry hb]
    exact h.mono a

/-- It answers like the function when the results seen under its key do. -/
theorem answer (h : Sound m seen table) (hR : Equivalence R) (hread : m.Faithful R)
    (hkey : m.key a = .ok k)
    (hagree : ∀ a' ∈ seen, m.key a' = .ok k → R (m.compute a') (m.compute a)) :
    ∃ b, (m.call table a).1 = .ok b ∧ R b (m.compute a) := by
  cases hentry : table k with
  | none =>
    rw [call_of_none hkey hentry]
    exact ⟨_, rfl, hR.refl _⟩
  | some t =>
    obtain ⟨a', ha', hkey', rfl⟩ := h k t hentry
    obtain ⟨b, hb, hlike⟩ := hread a'
    rw [call_of_some hkey hentry hb]
    exact ⟨b, rfl, hR.trans hlike (hagree a' ha' hkey')⟩

end Sound

/-- **All calls**, whatever is lost. -/
theorem Sound.answers {seen calls : List α} {events : List (Event α κ)} (h : Sound m seen table)
    (hR : Equivalence R) (hread : m.Faithful R) (hcalls : events.filterMap Event.arg? = calls)
    (hseparates : m.Separates R (seen ++ calls)) :
    ∀ p ∈ m.answers table events, ∃ b, p.2 = .ok b ∧ R b (m.compute p.1) := by
  induction events generalizing table seen calls with
  | nil => exact nofun
  | cons event events ih =>
    subst hcalls
    cases event with
    | lose gone =>
      refine ih (fun k t ht => ?_) rfl hseparates
      have hkept : (if gone k then none else table k) = some t := ht
      split_ifs at hkept
      exact h k t hkept
    | call a =>
      obtain ⟨hkeys, hpairs⟩ := hseparates
      obtain ⟨k, hkey⟩ := hkeys a (List.mem_append_right _ (List.mem_cons_self ..))
      have hagree : ∀ a' ∈ seen, m.key a' = .ok k → R (m.compute a') (m.compute a) :=
        fun a' ha' hk => (List.pairwise_append.1 hpairs).2.2 a' ha' a (List.mem_cons_self ..) k hk hkey
      intro p hp
      rcases List.mem_cons.1 hp with rfl | hp
      · exact h.answer hR hread hkey hagree
      · refine ih (h.call hread hkey) rfl ?_ p hp
        rw [List.append_assoc]
        exact ⟨hkeys, hpairs⟩

/-- Under the key of each call stands a result like its own. -/
def Filled (m : Memo α κ τ β ε) (R : β → β → Prop) (seen : List α) (table : κ → Option τ) : Prop :=
  ∀ a ∈ seen, ∀ k, m.key a = .ok k → ∃ a', table k = some (m.write (m.compute a')) ∧
    R (m.compute a') (m.compute a)

/-- **A call** leaves its own result, or one like it. -/
theorem Filled.call {seen : List α} {a : α} {k : κ} (h : Filled m R seen table)
    (hsound : Sound m seen table) (hR : Equivalence R) (hread : m.Faithful R)
    (hkey : m.key a = .ok k)
    (hagree : ∀ a' ∈ seen, m.key a' = .ok k → R (m.compute a') (m.compute a)) :
    Filled m R (seen ++ [a]) (m.call table a).2 := by
  intro a' ha' k' hk'
  cases hentry : table k with
  | none =>
    rw [call_of_none hkey hentry]
    by_cases hk : k' = k
    · subst hk
      rcases List.mem_append.1 ha' with ha' | ha'
      · obtain ⟨a₀, hfull, -⟩ := h a' ha' k' hk'
        exact nomatch hentry.symm.trans hfull
      · rw [List.mem_singleton.1 ha']
        exact ⟨a, Function.update_self .., hR.refl _⟩
    · rcases List.mem_append.1 ha' with ha' | ha'
      · obtain ⟨a₀, hfull, hlike⟩ := h a' ha' k' hk'
        exact ⟨a₀, (Function.update_of_ne hk ..).trans hfull, hlike⟩
      · rw [List.mem_singleton.1 ha'] at hk'
        exact absurd (Except.ok.inj (hk'.symm.trans hkey)) hk
  | some t =>
    obtain ⟨a₀, ha₀, hkey₀, rfl⟩ := hsound k t hentry
    obtain ⟨b, hb, -⟩ := hread a₀
    rw [call_of_some hkey hentry hb]
    rcases List.mem_append.1 ha' with ha' | ha'
    · exact h a' ha' k' hk'
    · rw [List.mem_singleton.1 ha'] at hk' ⊢
      obtain rfl : k = k' := Except.ok.inj (hkey.symm.trans hk')
      exact ⟨a₀, hentry, hagree a₀ ha₀ hkey₀⟩

/-- **When nothing is lost**, calls that answer like the function have results alike. -/
theorem separates_of_transparent (hR : Equivalence R) (hread : m.Faithful R) {calls : List α}
    (h : ∀ p ∈ m.answers (fun _ => none) (calls.map .call),
      ∃ b, p.2 = .ok b ∧ R b (m.compute p.1)) :
    m.Separates R calls ∧
      Sound m calls ((calls.map .call).foldl m.step fun _ => none) ∧
      Filled m R calls ((calls.map .call).foldl m.step fun _ => none) := by
  induction calls using List.reverseRecOn with
  | nil => exact ⟨⟨nofun, .nil⟩, (fun _ _ hnone => nomatch hnone), nofun⟩
  | append_singleton calls a ih =>
    rw [List.map_append, answers_append] at h
    obtain ⟨⟨hkeys, hpairs⟩, hsound, hfilled⟩ := ih fun p hp => h p (List.mem_append_left _ hp)
    rw [List.map_append, List.foldl_append]
    set table := (calls.map Event.call).foldl m.step fun _ => none
    obtain ⟨b, hb, hlike⟩ := h (a, (m.call table a).1)
      (List.mem_append_right _ (List.mem_singleton_self _))
    show m.Separates R (calls ++ [a]) ∧ Sound m (calls ++ [a]) (m.call table a).2 ∧
      Filled m R (calls ++ [a]) (m.call table a).2
    cases hkey : m.key a with
    | error e =>
      rw [call_of_error hkey] at hb
      exact nomatch hb
    | ok k =>
      -- an earlier call with that key has left a result like its own, which answers this one
      have hagree : ∀ a' ∈ calls, m.key a' = .ok k → R (m.compute a') (m.compute a) := by
        intro a' ha' hkey'
        obtain ⟨a₀, hentry, hlike₀⟩ := hfilled a' ha' k hkey'
        obtain ⟨b₀, hb₀, hread₀⟩ := hread a₀
        rw [call_of_some hkey hentry hb₀] at hb
        obtain rfl := Except.ok.inj hb
        exact hR.trans (hR.symm hlike₀) (hR.trans (hR.symm hread₀) hlike)
      refine ⟨⟨fun a' ha' => ?_, ?_⟩, hsound.call hread hkey, ?_⟩
      · rcases List.mem_append.1 ha' with ha' | ha'
        · exact hkeys a' ha'
        · rw [List.mem_singleton.1 ha']
          exact ⟨k, hkey⟩
      · refine List.pairwise_append.2 ⟨hpairs, List.pairwise_singleton _ _, ?_⟩
        intro a' ha' a'' ha'' k' hk' hk''
        obtain rfl := List.mem_singleton.1 ha''
        obtain rfl : k = k' := Except.ok.inj (hkey.symm.trans hk'')
        exact hagree a' ha' hk'
      · exact hfilled.call hsound hR hread hkey hagree

/-- **Exact transparency.** -/
theorem transparent_iff_separates (hR : Equivalence R) (hread : m.Faithful R) (calls : List α) :
    m.Transparent R calls ↔ m.Separates R calls := by
  constructor
  · intro h
    refine (separates_of_transparent hR hread (h (calls.map .call) ?_)).1
    rw [List.filterMap_map]
    exact List.filterMap_some
  · intro h events hcalls
    have hnone : Sound m [] (fun _ => none) := fun _ _ hnone => nomatch hnone
    exact hnone.answers hR hread hcalls h

end Memo

end Memoization
