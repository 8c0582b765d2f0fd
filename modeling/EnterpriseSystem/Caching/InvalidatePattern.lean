import EnterpriseSystem.Caching.Cached

/-!
# Invalidation by pattern

`invalidatePattern` of `src/infrastructure/cache/cache.service.ts`: the names that
`SCAN` reports for a pattern are deleted.  The client puts its prefix before the
names it deletes, but not before the pattern, and it leaves the prefix on the names
that come back.

* `Scanned` — what `SCAN` reports.
* `invalidatePattern` — what is deleted then, and what is returned.
* `Invalidated` — exactly the entries under names that match are gone.
* `invalidated_iff` — so it is exactly when no name is reported twice, and the names
  that match, with the prefix put before them once more, are those of the keys that do.
* `coincide_of_noPrefix` — as they are in a cache without a prefix.
-/

namespace EnterpriseSystem.Caching

open Unicode

/-- The names that `SCAN` reports for a pattern: those that match it, where `glob` is the
matching of Redis. -/
def Scanned (glob : Bytes → Bytes → Bool) (s : CacheService) (pattern : JsString)
    (names : List Bytes) : Prop :=
  ∀ name, name ∈ names ↔
    s.redis name ≠ none ∧ glob (toBytes (CacheService.buildKey pattern none)) name = true

namespace CacheService

/-- `DEL`, by the client. -/
def del (s : CacheService) (key : JsString) : CacheService :=
  { s with redis := Function.update s.redis (s.rawName key) none }

/-- `invalidatePattern`, on the names that `SCAN` reports: how many it has deleted, and
the cache. -/
def invalidatePattern (s : CacheService) (names : List Bytes) : ℕ × CacheService :=
  (names.length, names.foldl (fun s name => s.del (ofBytes name)) s)

/-- The entry is one of a key that matches, in the default namespace. -/
def Matching (glob : Bytes → Bytes → Bool) (s : CacheService) (pattern : JsString)
    (name : Bytes) : Prop :=
  ∃ key, name = s.rawName (buildKey key none) ∧ glob (toBytes pattern) (toBytes key) = true

/-- Every entry stands under a name that `set` writes to. -/
def Written (s : CacheService) : Prop :=
  ∀ name, s.redis name ≠ none → ∃ key ns, name = s.rawName (buildKey key ns)

end CacheService

open CacheService

/-- The entries under names that match are gone, so many as were returned, and no others. -/
structure Invalidated (glob : Bytes → Bytes → Bool) (s : CacheService) (pattern : JsString)
    (result : ℕ × CacheService) : Prop where
  gone : ∀ key, glob (toBytes pattern) (toBytes key) = true →
    result.2.redis (s.rawName (buildKey key none)) = none
  counted : ∃ removed : List Bytes, removed.Nodup ∧ removed.length = result.1 ∧
    ∀ name, name ∈ removed ↔ s.redis name ≠ none ∧ result.2.redis name = none
  untouched : ∀ name, ¬ s.Matching glob pattern name → result.2.redis name = s.redis name

/-- The names that match the pattern, with the prefix put before them once more, are those
of the entries that match. -/
def Coincide (glob : Bytes → Bytes → Bool) (s : CacheService) (pattern : JsString) : Prop :=
  ∀ name, (∃ raw, s.redis raw ≠ none ∧ glob (toBytes (buildKey pattern none)) raw = true ∧
      name = toBytes s.keyPrefix ++ raw) ↔
    s.redis name ≠ none ∧ s.Matching glob pattern name

section

variable {glob : Bytes → Bytes → Bool} {s : CacheService} {pattern : JsString}
  {names : List Bytes}

theorem CacheService.written_empty (keyPrefix : JsString) :
    Written { keyPrefix := keyPrefix, redis := fun _ => none } :=
  fun _ h => absurd rfl h

/-- `set` writes under such names. -/
theorem CacheService.Written.set {V : Type} {codec : JsonCodec V} (h : s.Written) (key : JsString) (value : V)
    (ns : Option JsString) : (s.set codec key value ns).Written := by
  intro name hthere
  by_cases hname : name = s.rawName (buildKey key ns)
  · exact ⟨key, ns, hname⟩
  · have hother : (s.set codec key value ns).redis name = s.redis name :=
      Function.update_of_ne hname ..
    exact h name (hother ▸ hthere)

/-- The name that is deleted for a name reported. -/
theorem CacheService.Written.rawName_ofBytes (h : s.Written) {name : Bytes} (hthere : s.redis name ≠ none) :
    s.rawName (ofBytes name) = toBytes s.keyPrefix ++ name := by
  obtain ⟨key, ns, rfl⟩ := h name hthere
  exact toBytes_append_ofBytes _ _

/-- **What is left** after some deletions. -/
theorem redis_foldl_del (s : CacheService) (keys : List JsString) (name : Bytes) :
    (keys.foldl del s).redis name = if name ∈ keys.map s.rawName then none else s.redis name := by
  induction keys generalizing s with
  | nil => simp
  | cons first keys ih =>
    have hrest : (keys.foldl del (s.del first)).redis name =
        if name ∈ keys.map s.rawName then none else (s.del first).redis name := ih _
    rw [List.foldl_cons, hrest, List.map_cons]
    by_cases hmem : name ∈ keys.map s.rawName
    · rw [if_pos hmem, if_pos (List.mem_cons_of_mem _ hmem)]
    · rw [if_neg hmem]
      by_cases hfirst : name = s.rawName first
      · subst hfirst
        rw [if_pos (List.mem_cons_self ..)]
        exact Function.update_self ..
      · rw [if_neg (List.not_mem_cons_of_ne_of_not_mem hfirst hmem)]
        exact Function.update_of_ne hfirst ..

theorem redis_invalidatePattern (s : CacheService) (names : List Bytes) (name : Bytes) :
    (s.invalidatePattern names).2.redis name =
      if name ∈ names.map (fun raw => s.rawName (ofBytes raw)) then none else s.redis name := by
  have hdel := redis_foldl_del s (names.map ofBytes) name
  rw [List.foldl_map, List.map_map] at hdel
  exact hdel

/-- The names deleted are those reported, with the prefix before them. -/
theorem Scanned.map_eq (hscanned : Scanned glob s pattern names) (hwritten : s.Written) :
    names.map (fun raw => s.rawName (ofBytes raw)) =
      names.map (fun raw => toBytes s.keyPrefix ++ raw) :=
  List.map_congr_left fun raw hraw => hwritten.rawName_ofBytes ((hscanned raw).1 hraw).1

theorem Scanned.mem_map_iff (hscanned : Scanned glob s pattern names) (name : Bytes) :
    name ∈ names.map (fun raw => toBytes s.keyPrefix ++ raw) ↔
      ∃ raw, s.redis raw ≠ none ∧ glob (toBytes (buildKey pattern none)) raw = true ∧
        name = toBytes s.keyPrefix ++ raw := by
  rw [List.mem_map]
  constructor
  · rintro ⟨raw, hraw, rfl⟩
    obtain ⟨hthere, hglob⟩ := (hscanned raw).1 hraw
    exact ⟨raw, hthere, hglob, rfl⟩
  · rintro ⟨raw, hthere, hglob, rfl⟩
    exact ⟨raw, (hscanned raw).2 ⟨hthere, hglob⟩, rfl⟩

/-- **Exact invalidation**: the entries of the keys that match are gone, and no others,
exactly when no name is reported twice, and the names that match the pattern are those of
the keys that do. -/
theorem invalidated_iff (hwritten : s.Written) (hscanned : Scanned glob s pattern names) :
    Invalidated glob s pattern (s.invalidatePattern names) ↔
      names.Nodup ∧ Coincide glob s pattern := by
  have hredis := redis_invalidatePattern s names
  rw [hscanned.map_eq hwritten] at hredis
  have hinjective : Function.Injective fun raw => toBytes s.keyPrefix ++ raw :=
    fun _ _ h => List.append_cancel_left h
  constructor
  · rintro ⟨hgone, ⟨removed, hnodup, hlength, hremoved⟩, huntouched⟩
    have hmatching : ∀ name, name ∈ removed ↔ s.redis name ≠ none ∧ s.Matching glob pattern name := by
      intro name
      rw [hremoved]
      constructor
      · rintro ⟨hthere, hnone⟩
        refine ⟨hthere, ?_⟩
        by_contra hnot
        exact hthere ((huntouched name hnot).symm.trans hnone)
      · rintro ⟨hthere, key, rfl, hglob⟩
        exact ⟨hthere, hgone key hglob⟩
    -- as many names are removed as are reported, so they are the same
    have hsubset : removed ⊆ names.map (fun raw => toBytes s.keyPrefix ++ raw) := by
      intro name hname
      obtain ⟨hthere, hnone⟩ := (hremoved name).1 hname
      rw [hredis] at hnone
      by_contra hnot
      rw [if_neg hnot] at hnone
      exact hthere hnone
    have hperm : removed.Perm (names.map (fun raw => toBytes s.keyPrefix ++ raw)) := by
      refine (hnodup.subperm hsubset).perm_of_length_le ?_
      rw [List.length_map, hlength]
      exact le_rfl
    refine ⟨(hperm.nodup_iff.1 hnodup).of_map _, fun name => ?_⟩
    rw [← hscanned.mem_map_iff, ← hperm.mem_iff]
    exact hmatching name
  · rintro ⟨hnodup, hcoincide⟩
    have hnames : ∀ name, name ∈ names.map (fun raw => toBytes s.keyPrefix ++ raw) ↔
        s.redis name ≠ none ∧ s.Matching glob pattern name := fun name =>
      (hscanned.mem_map_iff name).trans (hcoincide name)
    refine ⟨fun key hglob => ?_, ⟨_, hnodup.map hinjective, List.length_map .., fun name => ?_⟩,
      fun name hnot => ?_⟩
    · rw [hredis]
      split_ifs with hmem
      · rfl
      · by_contra hthere
        exact hmem ((hnames _).2 ⟨hthere, key, rfl, hglob⟩)
    · rw [hredis]
      constructor
      · intro hmem
        exact ⟨((hnames name).1 hmem).1, if_pos hmem⟩
      · rintro ⟨hthere, hnone⟩
        by_contra hnot
        rw [if_neg hnot] at hnone
        exact hthere hnone
    · rw [hredis]
      exact if_neg fun hmem => hnot ((hnames name).1 hmem).2

/-- **Without a prefix** the names that match are those of the keys that do. -/
theorem coincide_of_noPrefix (hwritten : s.Written) (hempty : s.keyPrefix = []) :
    Coincide glob s pattern := by
  have hraw : ∀ key, s.rawName key = toBytes key := fun key => by
    unfold rawName
    rw [hempty]
    rfl
  intro name
  rw [hempty]
  constructor
  · rintro ⟨raw, hthere, hglob, hname⟩
    obtain rfl : name = raw := hname
    obtain ⟨key, ns, rfl⟩ := hwritten name hthere
    rw [hraw] at hthere hglob ⊢
    exact ⟨hthere, buildKey key ns, (hraw _).symm, hglob⟩
  · rintro ⟨hthere, key, rfl, hglob⟩
    rw [hraw] at hthere ⊢
    exact ⟨_, hthere, hglob, rfl⟩

end

/-! ## One entry -/

namespace OneEntry

/-- The matching of Redis, for patterns without classes and escapes. -/
def glob : Bytes → Bytes → Bool
  | [], name => name.isEmpty
  | p :: pattern, name =>
    if p = 42 then name.tails.any (glob pattern)
    else match name with
      | [] => false
      | c :: name => (p = 63 || p = c) && glob pattern name

example : glob (toBytes (js "user:*")) (toBytes (js "user:1")) = true := by decide +kernel

/-- Nothing but a user, in a cache with this prefix. -/
def cache (keyPrefix : JsString) : CacheService :=
  CacheService.set Booleans.codec { keyPrefix := keyPrefix, redis := fun _ => none }
    (js "user:1") true none

/-- All users. -/
def users : JsString := js "user:*"

theorem written (keyPrefix : JsString) : (cache keyPrefix).Written :=
  (written_empty keyPrefix).set _ _ _

/-- What there is. -/
theorem redis_ne_none {keyPrefix : JsString} {name : Bytes} (h : (cache keyPrefix).redis name ≠ none) :
    name = toBytes (keyPrefix ++ js "user:1") := by
  by_contra hne
  exact h (Function.update_of_ne hne ..)

theorem redis_ne_none_self (keyPrefix : JsString) :
    (cache keyPrefix).redis (toBytes (keyPrefix ++ js "user:1")) ≠ none := by
  have hself : (cache keyPrefix).redis (toBytes (keyPrefix ++ js "user:1")) = some "true" :=
    Function.update_self ..
  rw [hself]
  exact nofun

/-- `SCAN` reports it by its name with the prefix, if that matches. -/
theorem scanned (keyPrefix : JsString) :
    Scanned glob (cache keyPrefix) users
      ([toBytes (keyPrefix ++ js "user:1")].filter (glob (toBytes users))) := by
  intro name
  rw [List.mem_filter, List.mem_singleton]
  exact and_congr_left fun _ =>
    ⟨fun h => h ▸ redis_ne_none_self keyPrefix, redis_ne_none⟩

end OneEntry

/-- Without a prefix the entry is found, and deleted. -/
theorem invalidated_users :
    Invalidated OneEntry.glob (OneEntry.cache []) OneEntry.users
      ((OneEntry.cache []).invalidatePattern [toBytes (js "user:1")]) := by
  have hscanned : Scanned OneEntry.glob (OneEntry.cache []) OneEntry.users
      [toBytes (js "user:1")] := by
    have hmatches : [toBytes ([] ++ js "user:1")].filter (OneEntry.glob (toBytes OneEntry.users)) =
        [toBytes (js "user:1")] := by decide +kernel
    exact hmatches ▸ OneEntry.scanned []
  exact (invalidated_iff (OneEntry.written []) hscanned).2
    ⟨List.nodup_singleton _, coincide_of_noPrefix (OneEntry.written []) rfl⟩

/-- With the default prefix its name does not match. -/
theorem not_invalidated :
    ¬ ∀ (glob : Bytes → Bytes → Bool) (s : CacheService) (pattern : JsString) (names : List Bytes),
        s.Written → Scanned glob s pattern names →
          Invalidated glob s pattern (s.invalidatePattern names) := by
  intro h
  have hnames : [toBytes (defaultPrefix ++ js "user:1")].filter
      (OneEntry.glob (toBytes OneEntry.users)) = [] := by decide +kernel
  have hall := h OneEntry.glob (OneEntry.cache defaultPrefix) OneEntry.users []
    (OneEntry.written _) (hnames ▸ OneEntry.scanned defaultPrefix)
  exact OneEntry.redis_ne_none_self defaultPrefix (hall.gone (js "user:1") (by decide +kernel))

end EnterpriseSystem.Caching
