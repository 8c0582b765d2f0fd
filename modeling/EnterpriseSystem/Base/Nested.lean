import Mathlib

/-!
# Nested values

Values in arrays and objects, nested to any depth, as `JSON.parse` gives them, and what
it means to hide the values of some keys.

* `Nested`, `Head` — a value, and what one sees of it without going down.
* `Nested.follow` — the value at the end of a path that passes none of these keys.
* `Nested.redact` — the values of the keys are replaced, and the rest is gone through.
* `IsRedaction` — what a redaction is: every head as it was outside of the values of the
  keys, and the mask in place of each of them; `isRedaction_iff`.
* `AgreeOutside` — two values differ below the keys only; `redact_eq_redact_iff` — so they
  do exactly when their redactions are the same.
* `Misses` — a key of a larger kind is passed over; `isRedaction_redact_iff`.
* `Everywhere` — what is so of everything below, at any depth.
-/

namespace Nesting

/-- Leaves in arrays and objects. -/
inductive Nested (K L : Type) where
  | leaf (a : L)
  | array (items : List (Nested K L))
  | object (members : List (K × Nested K L))

/-- A value without what is below its root. -/
inductive Head (K L : Type) where
  | leaf (a : L)
  | array (length : ℕ)
  | object (keys : List K)
  deriving DecidableEq

namespace Nested

variable {K L : Type}

/-- What one sees of a value. -/
def head : Nested K L → Head K L
  | .leaf a => .leaf a
  | .array items => .array items.length
  | .object members => .object (members.map Prod.fst)

/-- The values below, with their keys in an object. -/
def children : Nested K L → List (Option K × Nested K L)
  | .leaf _ => []
  | .array items => items.map fun t => (none, t)
  | .object members => members.map fun m => (some m.1, m.2)

section

variable (sensitive : K → Bool)

/-- The value at the end of a path, unless the path passes one of the keys. -/
def follow : Nested K L → List ℕ → Option (Nested K L)
  | t, [] => some t
  | t, i :: path =>
    match t.children[i]? with
    | some (key, u) => if key.any sensitive then none else u.follow path
    | none => none

variable (mask : L)

mutual

/-- The value with the mask in place of the values of the keys. -/
def redact : Nested K L → Nested K L
  | .leaf a => .leaf a
  | .array items => .array (redactItems items)
  | .object members => .object (redactMembers members)

def redactItems : List (Nested K L) → List (Nested K L)
  | [] => []
  | t :: items => redact t :: redactItems items

def redactMembers : List (K × Nested K L) → List (K × Nested K L)
  | [] => []
  | (k, t) :: members => (k, if sensitive k then .leaf mask else redact t) :: redactMembers members

end

/-- A value with its key after the redaction. -/
def redactChild (c : Option K × Nested K L) : Option K × Nested K L :=
  (c.1, if c.1.any sensitive then .leaf mask else redact sensitive mask c.2)

end

/-! ## Heads and what is below -/

theorem sizeOf_child_lt {t : Nested K L} {c : Option K × Nested K L} (h : c ∈ t.children) :
    sizeOf c.2 < sizeOf t := by
  cases t with
  | leaf a => exact nomatch h
  | array items =>
    obtain ⟨u, hu, rfl⟩ := List.mem_map.1 h
    have hlt := List.sizeOf_lt_of_mem hu
    show sizeOf u < sizeOf (array items)
    rw [array.sizeOf_spec]
    omega
  | object members =>
    obtain ⟨⟨k, u⟩, hm, rfl⟩ := List.mem_map.1 h
    have hlt := List.sizeOf_lt_of_mem hm
    show sizeOf u < sizeOf (object members)
    rw [Prod.mk.sizeOf_spec] at hlt
    rw [object.sizeOf_spec]
    omega

/-- Induction over the depth. -/
theorem childInduction {motive : Nested K L → Prop}
    (h : ∀ t, (∀ c ∈ t.children, motive c.2) → motive t) (t : Nested K L) : motive t :=
  h t fun c hc =>
    have := sizeOf_child_lt hc
    childInduction h c.2
termination_by sizeOf t

/-- Values with the same head have the same keys below. -/
theorem keys_eq_of_head_eq {t t' : Nested K L} (h : t.head = t'.head) :
    t.children.map Prod.fst = t'.children.map Prod.fst := by
  cases t with
  | leaf a =>
    cases t' with
    | leaf a' => rfl
    | array items' => exact nomatch h
    | object members' => exact nomatch h
  | array items =>
    cases t' with
    | leaf a' => exact nomatch h
    | array items' =>
      have hlength : items.length = items'.length := Head.array.inj h
      simp [children, Function.comp_def, hlength]
    | object members' => exact nomatch h
  | object members =>
    cases t' with
    | leaf a' => exact nomatch h
    | array items' => exact nomatch h
    | object members' =>
      have hkeys : members.map Prod.fst = members'.map Prod.fst := Head.object.inj h
      simpa [children, Function.comp_def] using congrArg (List.map some) hkeys

/-- **A value is its head and what is below it.** -/
theorem eq_iff {t t' : Nested K L} :
    t = t' ↔ t.head = t'.head ∧ t.children.map Prod.snd = t'.children.map Prod.snd := by
  constructor
  · rintro rfl
    exact ⟨rfl, rfl⟩
  · rintro ⟨hhead, hbelow⟩
    cases t with
    | leaf a =>
      cases t' with
      | leaf a' => rw [Head.leaf.inj hhead]
      | array items' => exact nomatch hhead
      | object members' => exact nomatch hhead
    | array items =>
      cases t' with
      | leaf a' => exact nomatch hhead
      | array items' =>
        have hitems : items = items' := by simpa [children, Function.comp_def] using hbelow
        rw [hitems]
      | object members' => exact nomatch hhead
    | object members =>
      cases t' with
      | leaf a' => exact nomatch hhead
      | array items' => exact nomatch hhead
      | object members' =>
        have hkeys : members.map Prod.fst = members'.map Prod.fst := Head.object.inj hhead
        have hvalues : members.map Prod.snd = members'.map Prod.snd := by
          simpa [children, Function.comp_def] using hbelow
        rw [← List.zip_unzip members, ← List.zip_unzip members', List.unzip_eq_map,
          List.unzip_eq_map, hkeys, hvalues]

end Nested

open Nested

section

variable {K L : Type} {sensitive wider : K → Bool} {mask : L} {t t' : Nested K L}

/-! ## The redaction -/

theorem redactItems_eq_map (items : List (Nested K L)) :
    redactItems sensitive mask items = items.map (redact sensitive mask) := by
  induction items with
  | nil => rfl
  | cons t items ih => rw [redactItems, ih, List.map_cons]

theorem redactMembers_eq_map (members : List (K × Nested K L)) :
    redactMembers sensitive mask members = members.map fun m =>
      (m.1, if sensitive m.1 then .leaf mask else redact sensitive mask m.2) := by
  induction members with
  | nil => rfl
  | cons m members ih => rw [redactMembers, ih, List.map_cons]

@[simp] theorem redact_leaf (a : L) :
    redact sensitive mask (.leaf a : Nested K L) = .leaf a := by
  rw [redact]

@[simp] theorem redact_array (items : List (Nested K L)) :
    redact sensitive mask (.array items) = .array (items.map (redact sensitive mask)) := by
  rw [redact, redactItems_eq_map]

@[simp] theorem redact_object (members : List (K × Nested K L)) :
    redact sensitive mask (.object members) = .object (members.map fun m =>
      (m.1, if sensitive m.1 then .leaf mask else redact sensitive mask m.2)) := by
  rw [redact, redactMembers_eq_map]

@[simp] theorem head_redact (t : Nested K L) : (redact sensitive mask t).head = t.head := by
  cases t with
  | leaf a => simp
  | array items => simp [head]
  | object members => simp [head, Function.comp_def]

theorem children_redact (t : Nested K L) :
    (redact sensitive mask t).children = t.children.map (redactChild sensitive mask) := by
  cases t with
  | leaf a => simp [children]
  | array items => simp [children, redactChild, Function.comp_def]
  | object members => simp [children, redactChild, Function.comp_def]

theorem redact_eq_leaf_iff {a : L} : redact sensitive mask t = .leaf a ↔ t = .leaf a := by
  cases t with
  | leaf b => simp
  | array items => simp
  | object members => simp

/-- A redaction is gone through like the value. -/
theorem follow_redact (t : Nested K L) (path : List ℕ) :
    (redact sensitive mask t).follow sensitive path =
      (t.follow sensitive path).map (redact sensitive mask) := by
  induction path generalizing t with
  | nil => rfl
  | cons i path ih =>
    rw [follow, follow, children_redact, List.getElem?_map]
    cases t.children[i]? with
    | none => rfl
    | some c =>
      obtain ⟨key, u⟩ := c
      cases hkey : key.any sensitive with
      | true => simp [redactChild, hkey]
      | false => simpa [redactChild, hkey] using ih u

/-! ## What a redaction is -/

/-- Outside of the values of the keys every head is as it was, and every such value is
the mask. -/
structure IsRedaction (sensitive : K → Bool) (mask : L) (t t' : Nested K L) : Prop where
  head_follow : ∀ path,
    (t'.follow sensitive path).map head = (t.follow sensitive path).map head
  masked : ∀ (path : List ℕ) (u u' : Nested K L) (i : ℕ) (k : K) (v : Nested K L),
    t.follow sensitive path = some u → t'.follow sensitive path = some u' →
    u.children[i]? = some (some k, v) → sensitive k = true →
    u'.children[i]? = some (some k, .leaf mask)

/-- The values differ below the keys only. -/
def AgreeOutside (sensitive : K → Bool) (t t' : Nested K L) : Prop :=
  ∀ path, (t.follow sensitive path).map head = (t'.follow sensitive path).map head

/-- Redactions of values that agree outside. -/
theorem AgreeOutside.isRedaction (h : AgreeOutside sensitive t t') :
    IsRedaction sensitive mask t (redact sensitive mask t') where
  head_follow path := by
    rw [h path, follow_redact, Option.map_map]
    congr 1
    exact funext head_redact
  masked path u w i k v hu hw hchild hkey := by
    rw [follow_redact] at hw
    obtain ⟨u', hu', rfl⟩ := Option.map_eq_some_iff.1 hw
    have hhead : u.head = u'.head := by simpa [hu, hu'] using h path
    have hkeys := congrArg (fun keys => keys[i]?) (keys_eq_of_head_eq hhead)
    simp only [List.getElem?_map, hchild, Option.map_some] at hkeys
    obtain ⟨⟨key, v'⟩, hchild', rfl⟩ := Option.map_eq_some_iff.1 hkeys.symm
    rw [children_redact, List.getElem?_map, hchild']
    simp [redactChild, hkey]

theorem isRedaction_redact (t : Nested K L) :
    IsRedaction sensitive mask t (redact sensitive mask t) :=
  AgreeOutside.isRedaction fun _ => rfl

/-- What is below a redaction is a redaction. -/
theorem IsRedaction.child (h : IsRedaction sensitive mask t t') {i : ℕ} {key : Option K}
    {u u' : Nested K L} (hu : t.children[i]? = some (key, u))
    (hu' : t'.children[i]? = some (key, u')) (hkey : key.any sensitive = false) :
    IsRedaction sensitive mask u u' := by
  have hstep : ∀ path, t.follow sensitive (i :: path) = u.follow sensitive path := by
    intro path
    simp [follow, hu, hkey]
  have hstep' : ∀ path, t'.follow sensitive (i :: path) = u'.follow sensitive path := by
    intro path
    simp [follow, hu', hkey]
  constructor
  · intro path
    rw [← hstep, ← hstep']
    exact h.head_follow (i :: path)
  · intro path w w' j k v hw hw'
    rw [← hstep] at hw
    rw [← hstep'] at hw'
    exact h.masked (i :: path) w w' j k v hw hw'

/-- **There is one redaction** of a value. -/
theorem isRedaction_iff : IsRedaction sensitive mask t t' ↔ t' = redact sensitive mask t := by
  constructor
  · intro h
    induction t using childInduction generalizing t' with
    | h t ih =>
      have hhead : t'.head = t.head := by simpa [follow] using h.head_follow []
      refine eq_iff.2 ⟨hhead.trans (head_redact t).symm, List.ext_getElem? fun i => ?_⟩
      have hkeys := congrArg (fun keys => keys[i]?) (keys_eq_of_head_eq hhead)
      rw [children_redact, List.getElem?_map, List.getElem?_map, List.getElem?_map]
      simp only [List.getElem?_map] at hkeys
      cases hchild : t.children[i]? with
      | none =>
        rw [hchild, Option.map_none, Option.map_eq_none_iff] at hkeys
        rw [hkeys]
        rfl
      | some c =>
        obtain ⟨key, u⟩ := c
        rw [hchild, Option.map_some] at hkeys
        obtain ⟨⟨key', u'⟩, hchild', hkey'⟩ := Option.map_eq_some_iff.1 hkeys
        obtain rfl : key' = key := hkey'
        rw [hchild']
        cases hkey : key'.any sensitive with
        | false =>
          have hbelow := ih (key', u) (List.mem_of_getElem? hchild) (h.child hchild hchild' hkey)
          simpa [redactChild, hkey] using hbelow
        | true =>
          obtain ⟨k, rfl, hk⟩ := (Option.any_eq_true _ _).1 hkey
          have hmasked := h.masked [] t t' i k u rfl rfl hchild hk
          rw [hchild'] at hmasked
          simpa [redactChild, hk] using hmasked
  · rintro rfl
    exact isRedaction_redact t

/-- **Values that differ below the keys only** have the same redaction, and no others. -/
theorem redact_eq_redact_iff :
    redact sensitive mask t = redact sensitive mask t' ↔ AgreeOutside sensitive t t' := by
  constructor
  · intro h path
    rw [← (isRedaction_redact t).head_follow path, h, (isRedaction_redact t').head_follow path]
  · exact fun h => (isRedaction_iff.1 h.isRedaction).symm

/-- A second redaction changes nothing. -/
@[simp] theorem redact_redact (t : Nested K L) :
    redact sensitive mask (redact sensitive mask t) = redact sensitive mask t :=
  redact_eq_redact_iff.2 (isRedaction_redact t).head_follow

/-! ## Too few keys -/

/-- Outside of the values of the keys of `wider` there is a key of it that is not one of
`sensitive`, and its value is not the mask. -/
def Misses (sensitive wider : K → Bool) (mask : L) (t : Nested K L) : Prop :=
  ∃ path u k v, t.follow wider path = some u ∧ (some k, v) ∈ u.children ∧ wider k = true ∧
    sensitive k = false ∧ v ≠ .leaf mask

/-- A key that is missed is below the root, or further down. -/
theorem misses_iff : Misses sensitive wider mask t ↔
    ∃ c ∈ t.children,
      (c.1.any wider = true ∧ c.1.any sensitive = false ∧ c.2 ≠ .leaf mask) ∨
        (c.1.any wider = false ∧ Misses sensitive wider mask c.2) := by
  constructor
  · rintro ⟨path, u, k, v, hfollow, hmem, hmissed⟩
    cases path with
    | nil =>
      obtain rfl := Option.some.inj hfollow
      exact ⟨(some k, v), hmem, Or.inl hmissed⟩
    | cons i path =>
      rw [follow] at hfollow
      cases hchild : t.children[i]? with
      | none => rw [hchild] at hfollow; exact nomatch hfollow
      | some c =>
        obtain ⟨key, w⟩ := c
        rw [hchild] at hfollow
        cases hkey : key.any wider with
        | true => simp [hkey] at hfollow
        | false =>
          have hbelow : w.follow wider path = some u := by simpa [hkey] using hfollow
          exact ⟨(key, w), List.mem_of_getElem? hchild,
            Or.inr ⟨hkey, path, u, k, v, hbelow, hmem, hmissed⟩⟩
  · rintro ⟨⟨key, w⟩, hmem, hmissed | ⟨hkey, path, u, k, v, hfollow, hbelow, hmissed⟩⟩
    · obtain ⟨k, rfl, -⟩ := (Option.any_eq_true _ _).1 hmissed.1
      exact ⟨[], t, k, w, rfl, hmem, hmissed⟩
    · obtain ⟨i, hchild⟩ := List.getElem?_of_mem hmem
      refine ⟨i :: path, u, k, v, ?_, hbelow, hmissed⟩
      simpa [follow, hchild, hkey] using hfollow

/-- Redactions of a value for two kinds of keys. -/
theorem redact_congr_iff : redact sensitive mask t = redact wider mask t ↔
    ∀ c ∈ t.children, redactChild sensitive mask c = redactChild wider mask c := by
  rw [eq_iff, head_redact, head_redact, children_redact, children_redact, and_iff_right rfl,
    List.map_map, List.map_map, List.map_inj_left]
  refine forall₂_congr fun c _ => ⟨fun h => Prod.ext rfl h, congrArg Prod.snd⟩

/-- **Redacting for too few keys** is redacting unless a key is missed. -/
theorem isRedaction_redact_iff (hle : ∀ k, sensitive k = true → wider k = true) :
    IsRedaction wider mask t (redact sensitive mask t) ↔ ¬ Misses sensitive wider mask t := by
  rw [isRedaction_iff]
  induction t using childInduction with
  | h t ih =>
    rw [redact_congr_iff, misses_iff, not_exists]
    refine forall_congr' fun c => ?_
    rw [not_and]
    refine forall_congr' fun hc => ?_
    obtain ⟨key, u⟩ := c
    have hbelow : redact sensitive mask u = redact wider mask u ↔ ¬ Misses sensitive wider mask u :=
      ih (key, u) hc
    have hany : key.any sensitive = true → key.any wider = true := by
      cases key with
      | none => exact fun h => h
      | some k => exact hle k
    simp only [redactChild, Prod.mk.injEq, true_and]
    cases hwider : key.any wider with
    | false =>
      have hsensitive : key.any sensitive = false := by
        cases h : key.any sensitive with
        | false => rfl
        | true => exact absurd (hany h) (by rw [hwider]; decide)
      simp [hsensitive, hbelow]
    | true =>
      cases hsensitive : key.any sensitive with
      | false => simp [redact_eq_leaf_iff]
      | true => simp

/-! ## At any depth -/

/-- Everything below the root, with its key in an object, has the property. -/
def Everywhere (P : Option K × Nested K L → Prop) (t : Nested K L) : Prop :=
  ∀ path u, t.follow (fun _ => false) path = some u → ∀ c ∈ u.children, P c

variable {P : Option K × Nested K L → Prop}

/-- Everything below the root: what is right below it, and what is further down. -/
theorem everywhere_iff : Everywhere P t ↔ ∀ c ∈ t.children, P c ∧ Everywhere P c.2 := by
  constructor
  · intro h c hc
    obtain ⟨i, hchild⟩ := List.getElem?_of_mem hc
    refine ⟨h [] t rfl c hc, fun path u hfollow => h (i :: path) u ?_⟩
    simpa [follow, hchild] using hfollow
  · intro h path u hfollow
    cases path with
    | nil =>
      obtain rfl := Option.some.inj hfollow
      exact fun c hc => (h c hc).1
    | cons i path =>
      rw [follow] at hfollow
      cases hchild : t.children[i]? with
      | none => rw [hchild] at hfollow; exact nomatch hfollow
      | some c =>
        rw [hchild] at hfollow
        refine (h c (List.mem_of_getElem? hchild)).2 path u ?_
        simpa using hfollow

@[simp] theorem everywhere_leaf (a : L) : Everywhere P (.leaf a) :=
  everywhere_iff.2 nofun

@[simp] theorem everywhere_array {items : List (Nested K L)} :
    Everywhere P (.array items) ↔ ∀ t ∈ items, P (none, t) ∧ Everywhere P t := by
  rw [everywhere_iff, children, List.forall_mem_map]

@[simp] theorem everywhere_object {members : List (K × Nested K L)} :
    Everywhere P (.object members) ↔ ∀ m ∈ members, P (some m.1, m.2) ∧ Everywhere P m.2 := by
  rw [everywhere_iff, children, List.forall_mem_map]

end

end Nesting
