import EnterpriseSystem.Base.Delimited
import EnterpriseSystem.Base.Reactive
import EnterpriseSystem.Caching.InvalidatePattern

/-!
# The namespaces of the cache

`set`, `delete` and `get` of `src/infrastructure/cache/cache.service.ts`, called with keys in
namespaces, on a Redis that loses nothing.

* `NsKey`, `CacheCall`, `cacheMachine` — a key in a namespace, the calls, and the service as
  a machine.
* `stored` — what `set` has put under a name, and for which key; `redis_after` — that is what
  the service has there.
* `Isolated` — no call gets or deletes what was set for another key.
* `spelled`, `rawName_eq_iff` — when two keys have one name.
* `isolated_iff` — keys are isolated in every sequence of calls exactly when no two of them
  are spelled alike.
-/

namespace EnterpriseSystem.Caching

open Unicode Delimited Reactive

/-! ## Calls -/

/-- A key in a namespace, or in none. -/
structure NsKey where
  ns : Option JsString
  key : JsString
  deriving DecidableEq

/-- A call of the service; `delete` takes one key or several. -/
inductive CacheCall (V : Type) where
  | set (key : JsString) (value : V) (ns : Option JsString)
  | delete (keys : List JsString) (ns : Option JsString)
  | get (key : JsString) (ns : Option JsString)

/-- The keys of a call. -/
def CacheCall.keys {V : Type} : CacheCall V → List NsKey
  | set key _ ns => [⟨ns, key⟩]
  | delete keys ns => keys.map (NsKey.mk ns)
  | get key ns => [⟨ns, key⟩]

namespace CacheService

/-- `delete`. -/
def delete (s : CacheService) (keys : List JsString) (ns : Option JsString) : CacheService :=
  (keys.map fun key => buildKey key ns).foldl del s

/-- A service whose Redis is empty. -/
def empty (keyPrefix : JsString) : CacheService := ⟨keyPrefix, fun _ => none⟩

end CacheService

open CacheService

section

variable {V : Type} (codec : JsonCodec V) (keyPrefix : JsString)

/-- The service as a machine: `get` has an answer. -/
def cacheMachine : Machine CacheService (CacheCall V) (Option (Except CacheError (Option V))) :=
  fun s call => match call with
    | .set key value ns => (none, s.set codec key value ns)
    | .delete keys ns => (none, s.delete keys ns)
    | .get key ns => (some (s.get codec key ns), s)

/-- The service after some calls. -/
def after (calls : List (CacheCall V)) : CacheService :=
  (cacheMachine codec).after (empty keyPrefix) calls

/-- The name of a key. -/
def nameOf (p : NsKey) : Bytes := (empty keyPrefix).rawName (buildKey p.key p.ns)

/-- What a call does to what is stored, with the key it is stored for. -/
def store (stored : Bytes → Option (NsKey × V)) : CacheCall V → Bytes → Option (NsKey × V)
  | .set key value ns =>
    Function.update stored (nameOf keyPrefix ⟨ns, key⟩) (some (⟨ns, key⟩, value))
  | .delete keys ns => fun name =>
    if name ∈ keys.map (fun key => nameOf keyPrefix ⟨ns, key⟩) then none else stored name
  | .get _ _ => stored

/-- What `set` has put under a name, and for which key. -/
def stored (calls : List (CacheCall V)) : Bytes → Option (NsKey × V) :=
  calls.foldl (store keyPrefix) fun _ => none

/-- **Keys are isolated** in a sequence of calls: what is got for a key was set for it, and
what a call deletes was set for one of its keys. -/
structure Isolated (calls : List (CacheCall V)) : Prop where
  get : ∀ pre key ns post, calls = pre ++ .get key ns :: post → ∀ value,
    (after codec keyPrefix pre).get codec key ns = .ok (some value) →
      ∃ value', stored keyPrefix pre (nameOf keyPrefix ⟨ns, key⟩) = some (⟨ns, key⟩, value') ∧
        codec.parse (codec.stringify value') = .ok value
  delete : ∀ pre keys ns post, calls = pre ++ .delete keys ns :: post → ∀ name p value,
    stored keyPrefix pre name = some (p, value) →
      stored keyPrefix (pre ++ [.delete keys ns]) name = none → p ∈ keys.map (NsKey.mk ns)

variable {codec keyPrefix} {calls : List (CacheCall V)} {p q : NsKey} {name : Bytes}

/-! ## What is stored -/

theorem after_concat (calls : List (CacheCall V)) (call : CacheCall V) :
    after codec keyPrefix (calls ++ [call]) =
      (cacheMachine codec (after codec keyPrefix calls) call).2 := by
  simp [after, Machine.after]

theorem stored_concat (calls : List (CacheCall V)) (call : CacheCall V) :
    stored keyPrefix (calls ++ [call]) = store keyPrefix (stored keyPrefix calls) call := by
  simp [stored]

theorem store_set (before : Bytes → Option (NsKey × V)) (key : JsString) (value : V)
    (ns : Option JsString) (name : Bytes) :
    store keyPrefix before (.set key value ns) name =
      if name = nameOf keyPrefix ⟨ns, key⟩ then some (⟨ns, key⟩, value) else before name :=
  Function.update_apply ..

theorem store_delete (before : Bytes → Option (NsKey × V)) (keys : List JsString)
    (ns : Option JsString) (name : Bytes) :
    store keyPrefix before (.delete keys ns) name =
      if name ∈ keys.map (fun key => nameOf keyPrefix ⟨ns, key⟩) then none else before name := rfl

theorem keyPrefix_foldl_del (s : CacheService) (keys : List JsString) :
    (keys.foldl del s).keyPrefix = s.keyPrefix := by
  induction keys generalizing s with
  | nil => rfl
  | cons first keys ih => exact ih _

theorem keyPrefix_after (calls : List (CacheCall V)) :
    (after codec keyPrefix calls).keyPrefix = keyPrefix := by
  induction calls using List.reverseRecOn with
  | nil => rfl
  | append_singleton calls call ih =>
    rw [after_concat]
    cases call with
    | set key value ns => exact ih
    | delete keys ns => exact (keyPrefix_foldl_del _ _).trans ih
    | get key ns => exact ih

theorem rawName_after (calls : List (CacheCall V)) (p : NsKey) :
    (after codec keyPrefix calls).rawName (buildKey p.key p.ns) = nameOf keyPrefix p := by
  unfold rawName
  rw [keyPrefix_after]
  rfl

/-- **The service** has what is stored. -/
theorem redis_after (calls : List (CacheCall V)) (name : Bytes) :
    (after codec keyPrefix calls).redis name =
      (stored keyPrefix calls name).map fun entry => codec.stringify entry.2 := by
  induction calls using List.reverseRecOn generalizing name with
  | nil => rfl
  | append_singleton calls call ih =>
    rw [after_concat, stored_concat]
    cases call with
    | set key value ns =>
      have hname : (after codec keyPrefix calls).rawName (buildKey key ns) = _ :=
        rawName_after calls ⟨ns, key⟩
      show Function.update (after codec keyPrefix calls).redis _ _ name = _
      rw [hname, store_set, Function.update_apply, ih]
      split_ifs <;> rfl
    | delete keys ns =>
      have hnames : (keys.map fun key => buildKey key ns).map
          (after codec keyPrefix calls).rawName =
            keys.map fun key => nameOf keyPrefix ⟨ns, key⟩ := by
        rw [List.map_map]
        exact List.map_congr_left fun key _ => rawName_after calls ⟨ns, key⟩
      show (List.foldl del _ _).redis name = _
      rw [redis_foldl_del, hnames, store_delete, ih]
      split_ifs <;> rfl
    | get key ns => exact ih name

/-! ## Names -/

/-- How a key is spelled in UTF-8: its namespace in front, unless that is empty. -/
def spelled (keyPrefix : JsString) (p : NsKey) : Option (List Char) × List Char :=
  match p.ns with
  | some (u :: ns) => (some (scalars (keyPrefix ++ u :: ns)), scalars p.key)
  | _ => (none, scalars (keyPrefix ++ p.key))

/-- The one key is spelled like the other, or misread for it. -/
def Alike (keyPrefix : JsString) (p q : NsKey) : Prop :=
  spelled keyPrefix p = spelled keyPrefix q ∨
    Misread ':' (spelled keyPrefix p) (spelled keyPrefix q)

theorem nameOf_eq (keyPrefix : JsString) (p : NsKey) :
    nameOf keyPrefix p = utf8 (labelled ':' (spelled keyPrefix p)) := by
  obtain ⟨ns, key⟩ := p
  show toBytes (keyPrefix ++ buildKey key ns) = _
  unfold toBytes
  congr 1
  match ns with
  | none => rfl
  | some [] => rfl
  | some (u :: ns) =>
    have hcolon : js ":" = units ':' := rfl
    have hkey : buildKey key (some (u :: ns)) = (u :: ns) ++ (units ':' ++ key) := by
      simp [buildKey, hcolon]
    rw [hkey, ← List.append_assoc, scalars_append_units]
    rfl

/-- **Two keys have one name** when they are spelled alike. -/
theorem nameOf_eq_iff : nameOf keyPrefix p = nameOf keyPrefix q ↔
    Alike keyPrefix p q ∨ Alike keyPrefix q p := by
  have hutf8 : ∀ cs ds : List Char, utf8 cs = utf8 ds ↔ cs = ds := by
    intro cs ds
    constructor
    · intro h
      rw [← fromUtf8_utf8 cs, h, fromUtf8_utf8]
    · rintro rfl
      rfl
  rw [nameOf_eq, nameOf_eq, hutf8, labelled_eq_iff]
  unfold Alike
  constructor
  · rintro (h | h | h)
    · exact .inl (.inl h)
    · exact .inl (.inr h)
    · exact .inr (.inr h)
  · rintro ((h | h) | (h | h))
    · exact .inl h
    · exact .inr (.inl h)
    · exact .inl h.symm
    · exact .inr (.inr h)

/-! ## Isolation -/

variable {P : NsKey → Prop}

/-- What is stored is stored under its own name. -/
theorem name_of_stored (hcalls : ∀ call ∈ calls, ∀ p ∈ call.keys, P p) {value : V}
    (h : stored keyPrefix calls name = some (p, value)) : name = nameOf keyPrefix p ∧ P p := by
  induction calls using List.reverseRecOn with
  | nil => exact nomatch h
  | append_singleton calls call ih =>
    have hbefore := ih fun c hc => hcalls c (List.mem_append_left _ hc)
    have hcall : ∀ p ∈ call.keys, P p := hcalls call (by simp)
    rw [stored_concat] at h
    cases call with
    | set key value' ns =>
      rw [store_set] at h
      split_ifs at h with hname
      · obtain ⟨rfl, -⟩ := Prod.mk.inj (Option.some.inj h)
        exact ⟨hname, hcall _ (List.mem_singleton_self _)⟩
      · exact hbefore h
    | delete keys ns =>
      rw [store_delete] at h
      split_ifs at h
      exact hbefore h
    | get key ns => exact hbefore h

/-- Keys of different names are isolated. -/
theorem isolated_of_names (hP : ∀ p q, P p → P q → nameOf keyPrefix p = nameOf keyPrefix q → p = q)
    (hcalls : ∀ call ∈ calls, ∀ p ∈ call.keys, P p) : Isolated codec keyPrefix calls := by
  refine ⟨?_, ?_⟩
  · rintro pre key ns post rfl value hget
    have hpre : ∀ call ∈ pre, ∀ p ∈ call.keys, P p := fun call hcall =>
      hcalls call (List.mem_append_left _ hcall)
    have hown : P ⟨ns, key⟩ := hcalls (.get key ns) (by simp) _ (List.mem_singleton_self _)
    have hname : (after codec keyPrefix pre).rawName (buildKey key ns) = _ :=
      rawName_after pre ⟨ns, key⟩
    unfold CacheService.get at hget
    rw [hname, redis_after] at hget
    cases hstored : stored keyPrefix pre (nameOf keyPrefix ⟨ns, key⟩) with
    | none =>
      rw [hstored] at hget
      exact nomatch Except.ok.inj hget
    | some entry =>
      obtain ⟨p, value'⟩ := entry
      obtain ⟨hsame, hp⟩ := name_of_stored hpre hstored
      obtain rfl := hP _ _ hown hp hsame
      rw [hstored] at hget
      dsimp only [Option.map_some] at hget
      refine ⟨value', rfl, ?_⟩
      cases hparse : codec.parse (codec.stringify value') with
      | error message =>
        rw [hparse] at hget
        exact nomatch hget
      | ok read =>
        rw [hparse] at hget
        dsimp only at hget
        split_ifs at hget
        · exact nomatch Except.ok.inj hget
        · rw [Option.some.inj (Except.ok.inj hget)]
  · rintro pre keys ns post rfl name p value hstored hgone
    have hpre : ∀ call ∈ pre, ∀ p ∈ call.keys, P p := fun call hcall =>
      hcalls call (List.mem_append_left _ hcall)
    obtain ⟨rfl, hp⟩ := name_of_stored hpre hstored
    rw [stored_concat, store_delete] at hgone
    split_ifs at hgone with hmem
    · obtain ⟨key, hkey, hname⟩ := List.mem_map.1 hmem
      have hown : (⟨ns, key⟩ : NsKey) ∈ keys.map (NsKey.mk ns) := List.mem_map_of_mem hkey
      obtain rfl := hP _ _ (hcalls (.delete keys ns) (by simp) _ hown) hp hname
      exact hown
    · rw [hstored] at hgone
      exact nomatch hgone

/-- What is set for one key is deleted for another one of the same name. -/
theorem eq_of_isolated {value : V}
    (h : Isolated codec keyPrefix [.set q.key value q.ns, .delete [p.key] p.ns])
    (hname : nameOf keyPrefix p = nameOf keyPrefix q) : p = q := by
  have hstored : stored keyPrefix [.set q.key value q.ns] (nameOf keyPrefix q) =
      some (q, value) := by
    show store keyPrefix (fun _ => none) (.set q.key value q.ns)
      (nameOf keyPrefix ⟨q.ns, q.key⟩) = _
    rw [store_set, if_pos rfl]
  have hgone : stored keyPrefix ([.set q.key value q.ns] ++ [.delete [p.key] p.ns])
      (nameOf keyPrefix q) = none := by
    rw [stored_concat, store_delete]
    exact if_pos (by simp [hname])
  have hmem := h.delete [.set q.key value q.ns] [p.key] p.ns [] rfl _ q value hstored hgone
  exact (List.mem_singleton.1 hmem).symm

end

/-- **Keys are isolated** in every sequence of calls exactly when no two of them are spelled
alike. -/
theorem isolated_iff {V : Type} [Inhabited V] (codec : JsonCodec V) (keyPrefix : JsString)
    (P : NsKey → Prop) :
    (∀ calls : List (CacheCall V), (∀ call ∈ calls, ∀ p ∈ call.keys, P p) →
        Isolated codec keyPrefix calls) ↔
      ∀ p q, P p → P q → Alike keyPrefix p q → p = q := by
  constructor
  · intro h p q hp hq halike
    refine eq_of_isolated (h [.set q.key default q.ns, .delete [p.key] p.ns] ?_)
      (nameOf_eq_iff.2 (.inl halike))
    intro call hcall p' hp'
    rcases List.mem_pair.1 hcall with rfl | rfl
    · rwa [List.mem_singleton.1 hp']
    · rwa [List.mem_singleton.1 hp']
  · intro h calls hcalls
    refine isolated_of_names (fun p q hp hq hname => ?_) hcalls
    rcases nameOf_eq_iff.1 hname with halike | halike
    · exact h p q hp hq halike
    · exact (h q p hq hp halike).symm

/-- What is set for `b:c` in the namespace `a` is got for `c` in the namespace `a:b`. -/
theorem not_isolated :
    ¬ ∀ calls : List (CacheCall Bool), Isolated Booleans.codec defaultPrefix calls := by
  intro h
  have hgot : (after Booleans.codec defaultPrefix [.set (js "b:c") true (some (js "a"))]).get
      Booleans.codec (js "c") (some (js "a:b")) = .ok (some true) := by
    rfl
  obtain ⟨value, hstored, -⟩ := (h [.set (js "b:c") true (some (js "a")),
    .get (js "c") (some (js "a:b"))]).get [.set (js "b:c") true (some (js "a"))] _ _ [] rfl _ hgot
  have hset : stored defaultPrefix [.set (js "b:c") true (some (js "a"))]
      (nameOf defaultPrefix ⟨some (js "a:b"), js "c"⟩) =
        some (⟨some (js "a"), js "b:c"⟩, true) := by
    rfl
  have hkeys : (⟨some (js "a"), js "b:c"⟩ : NsKey) = ⟨some (js "a:b"), js "c"⟩ :=
    congrArg Prod.fst (Option.some.inj (hset.symm.trans hstored))
  exact absurd hkeys (by decide +kernel)

end EnterpriseSystem.Caching
