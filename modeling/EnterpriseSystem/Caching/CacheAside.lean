import EnterpriseSystem.Base.Observed
import EnterpriseSystem.Caching.CacheService

/-!
# Reading through the cache

`getOrSet` of `src/infrastructure/cache/cache.service.ts` beside the other methods, interleaved at
their awaits.  The entries expire, Redis loses some of them and fails at times, and what the
factories compute changes.

* `Redis`, `CacheClient` — the commands, and the methods with their counters; `forget_get`,
  `forget_set` take them to the cache without expiry.
* `CacheAccess.task` — the calls; `CacheAccess.getOrSet` reads, computes and writes.
* `Traced` — where a value comes from that the cache has answered with.
* `returned_fresh` — what `getOrSet` returns has just been computed, or it is no older in the cache
  than its time to live.
* `served_since_deleted` — what is read after a deletion has been written after it.
-/

namespace EnterpriseSystem.Caching

open Unicode Relational Concurrency

/-! ## Redis -/

/-- What is stored under a name. -/
structure Entry where
  raw : String
  /-- The last millisecond in which it is there. -/
  expiresAt : ℕ
  deriving DecidableEq

/-- A failure of a command; one that times out may have been carried out. -/
structure Fault where
  message : String
  carriedOut : Bool

structure Redis where
  entries : Bytes → Option Entry
  /-- Its clock, in milliseconds. -/
  now : ℕ
  /-- What commands fail with, while they do. -/
  fault : Option Fault

namespace Redis

/-- What is stored under a name and has not expired. -/
def read (r : Redis) (name : Bytes) : Option String :=
  ((r.entries name).filter fun e => decide (r.now ≤ e.expiresAt)).map Entry.raw

/-- The answer to a command. -/
def answer {α : Type} (r : Redis) (a : α) : Except String α :=
  match r.fault with
  | none => .ok a
  | some fault => .error fault.message

/-- A command that leaves these entries. -/
def put (r : Redis) (entries : Bytes → Option Entry) : Except String Unit × Redis :=
  (r.answer (), if r.fault.all Fault.carriedOut then { r with entries := entries } else r)

/-- `SETEX`. -/
def setex (r : Redis) (name : Bytes) (ttl : ℤ) (raw : String) : Except String Unit × Redis :=
  if ttl ≤ 0 then (do r.answer (); throw "ERR invalid expire time in 'setex' command", r)
  else r.put (Function.update r.entries name (some ⟨raw, r.now + 1000 * ttl.toNat⟩))

/-- `DEL`. -/
def del (r : Redis) (names : List Bytes) : Except String Unit × Redis :=
  r.put fun name => if names.contains name then none else r.entries name

end Redis

/-! ## The methods -/

/-- `CacheStats`. -/
structure CacheStats where
  hits : ℕ
  misses : ℕ
  sets : ℕ
  deletes : ℕ
  errors : ℕ

/-- The service on a Redis with expiry. -/
structure CacheClient where
  keyPrefix : JsString
  redis : Redis
  stats : CacheStats

namespace CacheClient

variable {V : Type} (codec : JsonCodec V) (c : CacheClient)

/-- `defaultTtl`, in seconds. -/
def defaultTtl : ℤ := 300

/-- The cache as it is found, without its expiry. -/
def forget : CacheService := ⟨c.keyPrefix, c.redis.read⟩

/-- The name of the entry of a key. -/
def name (key : JsString) (ns : Option JsString) : Bytes :=
  c.forget.rawName (CacheService.buildKey key ns)

/-- Some of the counters have moved. -/
def count (f : CacheStats → CacheStats) : CacheClient := { c with stats := f c.stats }

/-- An error has been counted. -/
def failed : CacheClient := c.count fun s => { s with errors := s.errors + 1 }

@[simp] theorem redis_count (f : CacheStats → CacheStats) : (c.count f).redis = c.redis := rfl

@[simp] theorem keyPrefix_count (f : CacheStats → CacheStats) :
    (c.count f).keyPrefix = c.keyPrefix := rfl

@[simp] theorem redis_failed : c.failed.redis = c.redis := rfl

@[simp] theorem keyPrefix_failed : c.failed.keyPrefix = c.keyPrefix := rfl

/-- `get`: `none` stands for `null`. -/
def get (key : JsString) (ns : Option JsString) : Except CacheError (Option V) × CacheClient :=
  match c.redis.answer (c.redis.read (c.name key ns)) with
  | .error message => (.error ⟨s!"Cache get failed: {message}"⟩, c.failed)
  | .ok none => (.ok none, c.count fun s => { s with misses := s.misses + 1 })
  | .ok (some raw) =>
    let c := c.count fun s => { s with hits := s.hits + 1 }
    match codec.parse raw with
    | .ok value => (.ok (if codec.isNull value then none else some value), c)
    | .error message => (.error ⟨s!"Cache get failed: {message}"⟩, c.failed)

/-- `set`. -/
def set (key : JsString) (value : V) (ns : Option JsString) (ttl : Option ℤ) :
    Except CacheError Unit × CacheClient :=
  let sent := c.redis.setex (c.name key ns) (ttl.getD defaultTtl) (codec.stringify value)
  let c := { c with redis := sent.2 }
  match sent.1 with
  | .ok _ => (.ok (), c.count fun s => { s with sets := s.sets + 1 })
  | .error message => (.error ⟨s!"Cache set failed: {message}"⟩, c.failed)

/-- `delete`, of one key or of several. -/
def delete (keys : List JsString) (ns : Option JsString) : Except CacheError Unit × CacheClient :=
  if 0 < keys.length then
    let sent := c.redis.del (keys.map fun key => c.name key ns)
    let c := { c with redis := sent.2 }
    match sent.1 with
    | .ok _ => (.ok (), c.count fun s => { s with deletes := s.deletes + keys.length })
    | .error message => (.error ⟨s!"Cache delete failed: {message}"⟩, c.failed)
  else (.ok (), c)

/-- `has`. -/
def has (key : JsString) (ns : Option JsString) : Bool × CacheClient :=
  match c.redis.answer (c.redis.read (c.name key ns)).isSome with
  | .ok there => (there, c)
  | .error _ => (false, c.failed)

/-! ### Without expiry -/

section

variable {codec c}

/-- **While Redis answers**, `get` reads the cache as it is found. -/
theorem forget_get (hup : c.redis.fault = none) (key : JsString) (ns : Option JsString) :
    (c.get codec key ns).1 = c.forget.get codec key ns := by
  have hread : c.forget.redis (c.forget.rawName (CacheService.buildKey key ns)) =
      c.redis.read (c.name key ns) := rfl
  rw [get, CacheService.get, hread, Redis.answer, hup]
  cases c.redis.read (c.name key ns) with
  | none => rfl
  | some raw =>
    dsimp only
    cases codec.parse raw <;> rfl

/-- **While Redis answers**, `set` writes to the cache as it is found. -/
theorem forget_set (hup : c.redis.fault = none) (key : JsString) (value : V) (ns : Option JsString)
    {ttl : Option ℤ} (httl : 0 < ttl.getD defaultTtl) :
    (c.set codec key value ns ttl).2.forget = c.forget.set codec key value ns := by
  rw [set, Redis.setex, if_neg (not_le.2 httl), Redis.put, Redis.answer, hup, CacheService.set]
  show CacheService.mk c.keyPrefix _ = CacheService.mk c.keyPrefix _
  congr 1
  funext name
  by_cases hname : name = c.name key ns
  · subst hname
    simp [Redis.read, name]
  · have hname' : name ≠ c.forget.rawName (CacheService.buildKey key ns) := hname
    rw [Function.update_of_ne hname']
    simp [Redis.read, Function.update_of_ne hname, forget]

end

/-! ### Spec lemmas -/

section

variable {codec c} {key : JsString} {ns : Option JsString}

@[simp] theorem redis_get : (c.get codec key ns).2.redis = c.redis := by
  rw [get]
  split
  · rfl
  · rfl
  · dsimp only
    split <;> rfl

@[simp] theorem keyPrefix_get : (c.get codec key ns).2.keyPrefix = c.keyPrefix := by
  rw [get]
  split
  · rfl
  · rfl
  · dsimp only
    split <;> rfl

@[simp] theorem redis_has : (c.has key ns).2.redis = c.redis := by
  rw [has]
  split <;> rfl

@[simp] theorem keyPrefix_has : (c.has key ns).2.keyPrefix = c.keyPrefix := by
  rw [has]
  split <;> rfl

@[simp] theorem keyPrefix_set {value : V} {ttl : Option ℤ} :
    (c.set codec key value ns ttl).2.keyPrefix = c.keyPrefix := by
  rw [set]
  split <;> rfl

@[simp] theorem redis_set {value : V} {ttl : Option ℤ} : (c.set codec key value ns ttl).2.redis =
    (c.redis.setex (c.name key ns) (ttl.getD defaultTtl) (codec.stringify value)).2 := by
  rw [set]
  split <;> rfl

@[simp] theorem keyPrefix_delete {keys : List JsString} :
    (c.delete keys ns).2.keyPrefix = c.keyPrefix := by
  rw [delete]
  split_ifs
  · dsimp only
    split <;> rfl
  · rfl

/-- **A hit** is an entry that has not expired. -/
theorem entry_of_get {value : V} (h : (c.get codec key ns).1 = .ok (some value)) :
    ∃ e, c.redis.entries (c.name key ns) = some e ∧ c.redis.now ≤ e.expiresAt ∧
      codec.parse e.raw = .ok value := by
  rw [get] at h
  split at h
  · cases h
  · cases h
  · rename_i raw hraw
    rw [Redis.answer] at hraw
    split at hraw
    · obtain ⟨e, hfound, rfl⟩ := Option.map_eq_some_iff.1 (Except.ok.inj hraw)
      obtain ⟨hentry, hlive⟩ := Option.filter_eq_some_iff.1 hfound
      refine ⟨e, hentry, of_decide_eq_true hlive, ?_⟩
      dsimp only at h
      cases hparse : codec.parse e.raw with
      | error message =>
        rw [hparse] at h
        cases h
      | ok v =>
        rw [hparse] at h
        by_cases hnull : codec.isNull v = true
        · simp [hnull] at h
        · simpa [hnull] using h
    · cases hraw

/-- **An entry after `set`** was there before, or it is the new one. -/
theorem entry_of_set {value : V} {ttl : Option ℤ} {name : Bytes} {e : Entry}
    (h : (c.set codec key value ns ttl).2.redis.entries name = some e) :
    c.redis.entries name = some e ∨ name = c.name key ns ∧ 0 < ttl.getD defaultTtl ∧
      e = ⟨codec.stringify value, c.redis.now + 1000 * (ttl.getD defaultTtl).toNat⟩ := by
  rw [redis_set, Redis.setex] at h
  split_ifs at h with httl
  · exact Or.inl h
  rw [Redis.put] at h
  by_cases hcarried : c.redis.fault.all Fault.carriedOut = true
  · simp only [hcarried, if_true] at h
    by_cases hname : name = c.name key ns
    · subst hname
      rw [Function.update_self] at h
      exact Or.inr ⟨rfl, not_le.1 httl, (Option.some.inj h).symm⟩
    · rw [Function.update_of_ne hname] at h
      exact Or.inl h
  · simp only [hcarried] at h
    exact Or.inl h

/-- **An entry after `delete`** was there before. -/
theorem entry_of_delete {keys : List JsString} {name : Bytes} {e : Entry}
    (h : (c.delete keys ns).2.redis.entries name = some e) : c.redis.entries name = some e := by
  rw [delete] at h
  split_ifs at h
  · have hredis : (c.redis.del (keys.map fun key => c.name key ns)).2.entries name = some e := by
      dsimp only at h
      split at h <;> exact h
    rw [Redis.del, Redis.put] at hredis
    by_cases hcarried : c.redis.fault.all Fault.carriedOut = true
    · simp only [hcarried, if_true] at hredis
      split_ifs at hredis
      exact hredis
    · simp only [hcarried] at hredis
      exact hredis
  · exact h

/-- A deletion that has been answered has removed its entries. -/
theorem entry_of_deleted {keys : List JsString} (h : (c.delete keys ns).1 = .ok ())
    (hkey : key ∈ keys) : (c.delete keys ns).2.redis.entries (c.name key ns) = none := by
  have hlength : 0 < keys.length := List.length_pos_of_mem hkey
  rw [delete, if_pos hlength] at h ⊢
  rw [Redis.del, Redis.put, Redis.answer] at h ⊢
  cases hfault : c.redis.fault with
  | none => exact if_pos (List.contains_iff_mem.2 (List.mem_map_of_mem hkey))
  | some fault =>
    rw [hfault] at h
    cases h

end

end CacheClient

/-! ## Calls -/

/-- What is thrown. -/
inductive AccessError where
  | cache (e : CacheError)
  /-- By a factory. -/
  | factory (message : String)
  deriving DecidableEq

section

variable (Φ V : Type)

/-- What a call awaits: a method that awaits Redis, or a factory. -/
inductive CacheOp where
  | get (key : JsString) (ns : Option JsString)
  | set (key : JsString) (value : V) (ns : Option JsString) (ttl : Option ℤ)
  | delete (keys : List JsString) (ns : Option JsString)
  | has (key : JsString) (ns : Option JsString)
  | factory (φ : Φ)

/-- A call. -/
inductive CacheAccess where
  | getOrSet (key : JsString) (factory : Φ) (ns : Option JsString) (ttl : Option ℤ)
  | get (key : JsString) (ns : Option JsString)
  | set (key : JsString) (value : V) (ns : Option JsString) (ttl : Option ℤ)
  | delete (keys : List JsString) (ns : Option JsString)
  | has (key : JsString) (ns : Option JsString)

/-- What a call returns. -/
inductive AccessAnswer where
  | value (v : V)
  | found (v : Option V)
  | done
  | there (b : Bool)
  deriving DecidableEq

/-- The service, and what the factories come to at the moment. -/
structure CacheWorld where
  client : CacheClient
  origin : Φ → Except String V

end

section

variable {Φ V : Type}

/-- What an operation answers. -/
def CacheOp.Ans : CacheOp Φ V → Type
  | get .. => Option V
  | set .. => Unit
  | delete .. => Unit
  | has .. => Bool
  | factory _ => V

/-- One operation. -/
def CacheOp.exec (codec : JsonCodec V) :
    (o : CacheOp Φ V) → CacheWorld Φ V → Except AccessError o.Ans × CacheWorld Φ V
  | get key ns, w =>
    ((w.client.get codec key ns).1.mapError .cache,
      { w with client := (w.client.get codec key ns).2 })
  | set key value ns ttl, w =>
    ((w.client.set codec key value ns ttl).1.mapError .cache,
      { w with client := (w.client.set codec key value ns ttl).2 })
  | delete keys ns, w =>
    ((w.client.delete keys ns).1.mapError .cache, { w with client := (w.client.delete keys ns).2 })
  | has key ns, w => (.ok (w.client.has key ns).1, { w with client := (w.client.has key ns).2 })
  | factory φ, w => ((w.origin φ).mapError .factory, w)

/-- An asynchronous function over them. -/
abbrev CacheTask (Φ V α : Type) : Type := Task (CacheOp Φ V) CacheOp.Ans AccessError α

/-- `getOrSet`. -/
def getOrSet (key : JsString) (factory : Φ) (ns : Option JsString) (ttl : Option ℤ) :
    CacheTask Φ V V := do
  match ← Task.await (CacheOp.get key ns) with
  | some cached => return cached
  | none =>
    let value ← Task.await (CacheOp.factory factory)
    let _ ← Task.await (CacheOp.set key value ns ttl)
    return value

/-- A call as a function. -/
def CacheAccess.task : CacheAccess Φ V → CacheTask Φ V (AccessAnswer V)
  | getOrSet key factory ns ttl => do
    let value ← Caching.getOrSet key factory ns ttl
    return .value value
  | get key ns => do
    let found ← Task.await (CacheOp.get key ns)
    return .found found
  | set key value ns ttl => do
    let _ ← Task.await (CacheOp.set key value ns ttl)
    return .done
  | delete keys ns => do
    let _ ← Task.await (CacheOp.delete keys ns)
    return .done
  | has key ns => do
    let there ← Task.await (CacheOp.has key ns)
    return .there there

/-- What the surroundings do: entries are lost, time passes, Redis fails and comes back, and what
the factories come to changes. -/
structure Ages (w w' : CacheWorld Φ V) : Prop where
  keyPrefix : w'.client.keyPrefix = w.client.keyPrefix
  entries : ∀ name e, w'.client.redis.entries name = some e → w.client.redis.entries name = some e

end

/-! ## Where values come from -/

section

variable {ι Φ V : Type}

/-- Calls in progress. -/
abbrev CacheSystem (ι Φ V : Type) : Type :=
  System ι (CacheWorld Φ V) (CacheOp Φ V) CacheOp.Ans AccessError (AccessAnswer V)

/-- A step of a run of them. -/
abbrev CacheStep (ι Φ V : Type) : Type := CacheSystem ι Φ V × System.Label ι × CacheSystem ι Φ V

/-- Calls before their first operation. -/
def accessAll (calls : ι → CacheAccess Φ V) (w : CacheWorld Φ V) : CacheSystem ι Φ V :=
  System.start w fun i => (calls i).task

/-- What is stored under a name. -/
def entryOf (σ : CacheSystem ι Φ V) (name : Bytes) : Option Entry :=
  σ.shared.client.redis.entries name

/-- In this step a call writes a value, for so many seconds. -/
def Writes (i : ι) (p : CacheStep ι Φ V) (name : Bytes) (value : V) (ttl : ℤ) : Prop :=
  ∃ key ns asked, p.2.1 = some i ∧ p.1.Performs i (.set key value ns asked) ∧
    p.1.shared.client.name key ns = name ∧ asked.getD CacheClient.defaultTtl = ttl ∧ 0 < ttl

/-- In this step the factory of a call comes to a value. -/
def Computes (i : ι) (p : CacheStep ι Φ V) (factory : Φ) (value : V) : Prop :=
  p.2.1 = some i ∧ p.1.Performs i (.factory factory) ∧ p.1.shared.origin factory = .ok value

/-- In this step the cache answers a call with a value. -/
def Serves (codec : JsonCodec V) (i : ι) (p : CacheStep ι Φ V) (name : Bytes) (v : V) : Prop :=
  ∃ key ns, p.2.1 = some i ∧ p.1.Performs i (.get key ns) ∧
    p.1.shared.client.name key ns = name ∧ (p.1.shared.client.get codec key ns).1 = .ok (some v)

/-- In this step a call deletes an entry. -/
def Deletes (i : ι) (p : CacheStep ι Φ V) (name : Bytes) : Prop :=
  ∃ keys ns, p.2.1 = some i ∧ p.1.Performs i (.delete keys ns) ∧
    (∃ key ∈ keys, p.1.shared.client.name key ns = name) ∧
      (p.1.shared.client.delete keys ns).1 = .ok ()

/-- What a call writes it has been given, or its factory has come to it before. -/
def Has (calls : ι → CacheAccess Φ V) (i : ι) (earlier : List (CacheStep ι Φ V)) (value : V) :
    Prop :=
  (∃ key ns ttl, calls i = .set key value ns ttl) ∨
    ∃ key factory ns ttl, calls i = .getOrSet key factory ns ttl ∧
      ∃ p ∈ earlier, Computes i p factory value

/-- **Where a value comes from** that the cache answers with in the world `w`: one of the steps
`since` has written it, no longer ago than its time to live. -/
def Traced (codec : JsonCodec V) (calls : ι → CacheAccess Φ V)
    (earlier since : List (CacheStep ι Φ V)) (name : Bytes) (w : CacheWorld Φ V) (v : V) : Prop :=
  ∃ before p after i value ttl, since = before ++ p :: after ∧ Writes i p name value ttl ∧
    Has calls i (earlier ++ before) value ∧ codec.parse (codec.stringify value) = .ok v ∧
      w.client.redis.now ≤ p.1.shared.client.redis.now + 1000 * ttl.toNat

variable [DecidableEq ι] {codec : JsonCodec V} {calls : ι → CacheAccess Φ V} {w : CacheWorld Φ V}
  {σ₁ σ σ' : CacheSystem ι Φ V} {l : System.Label ι}
  {earlier since pre post steps : List (CacheStep ι Φ V)} {p q : CacheStep ι Φ V} {i j : ι}
  {name : Bytes} {v : V}

/-! ### One step -/

/-- The prefix stays what it is. -/
theorem keyPrefix_step (h : System.Step (CacheOp.exec codec) Ages σ l σ') :
    σ'.shared.client.keyPrefix = σ.shared.client.keyPrefix := by
  cases l with
  | none => exact h.of_none.1.keyPrefix
  | some i =>
    obtain ⟨o, k, -, hshared, -, -⟩ := h.of_some
    rw [hshared]
    cases o <;> simp [CacheOp.exec]

/-- **An entry** was there before, or the step has written it. -/
theorem entry_step (h : System.Step (CacheOp.exec codec) Ages σ l σ') {e : Entry}
    (he : entryOf σ' name = some e) : entryOf σ name = some e ∨
      ∃ i value ttl, Writes i (σ, l, σ') name value ttl ∧
        e = ⟨codec.stringify value, σ.shared.client.redis.now + 1000 * ttl.toNat⟩ := by
  cases l with
  | none => exact Or.inl (h.of_none.1.entries name e he)
  | some i =>
    obtain ⟨o, k, hop, hshared, -, -⟩ := h.of_some
    rw [entryOf, hshared] at he
    cases o with
    | set key value ns ttl =>
      rcases CacheClient.entry_of_set he with hold | ⟨hname, httl, rfl⟩
      · exact Or.inl hold
      · exact Or.inr ⟨i, value, _, ⟨key, ns, ttl, rfl, ⟨k, hop⟩, hname.symm, rfl, httl⟩, rfl⟩
    | delete keys ns => exact Or.inl (CacheClient.entry_of_delete he)
    | factory φ => exact Or.inl he
    | get key ns =>
      simp only [CacheOp.exec, CacheClient.redis_get] at he
      exact Or.inl he
    | has key ns =>
      simp only [CacheOp.exec, CacheClient.redis_has] at he
      exact Or.inl he

/-- A deletion leaves nothing under the name. -/
theorem entryOf_of_deletes (h : System.Step (CacheOp.exec codec) Ages p.1 p.2.1 p.2.2)
    (hdeletes : Deletes i p name) : entryOf p.2.2 name = none := by
  obtain ⟨keys, ns, hi, ⟨k, hop⟩, ⟨key, hkey, rfl⟩, hdone⟩ := hdeletes
  rw [hi] at h
  obtain ⟨o, k', hop', hshared, -, -⟩ := h.of_some
  rw [hop] at hop'
  cases hop'
  rw [entryOf, hshared]
  exact CacheClient.entry_of_deleted hdone hkey

/-! ### Runs -/

/-- **Along a run** that begins without an entry, an entry has been written. -/
theorem entry_of_run (h : Run (System.Step (CacheOp.exec codec) Ages) Always σ₁ since σ)
    (hnone : entryOf σ₁ name = none) {e : Entry} (he : entryOf σ name = some e) :
    ∃ before p after i value ttl, since = before ++ p :: after ∧ Writes i p name value ttl ∧
      e = ⟨codec.stringify value, p.1.shared.client.redis.now + 1000 * ttl.toNat⟩ := by
  induction h with
  | start =>
    rw [hnone] at he
    cases he
  | @next steps σ σ' l _ _ hstep ih =>
    rcases entry_step hstep he with hold | ⟨i, value, ttl, hwrites, hentry⟩
    · obtain ⟨before, p, after, i, value, ttl, rfl, hwrites, hentry⟩ := ih hold
      exact ⟨before, p, after ++ [(σ, l, σ')], i, value, ttl, by simp, hwrites, hentry⟩
    · exact ⟨steps, (σ, l, σ'), [], i, value, ttl, rfl, hwrites, hentry⟩

theorem origin_of_answer {w : CacheWorld Φ V} {factory : Φ}
    (h : (CacheOp.exec codec (.factory factory) w).1 = .ok v) : w.origin factory = .ok v := by
  cases horigin : w.origin factory with
  | error message => simp [CacheOp.exec, horigin, Except.mapError] at h
  | ok a =>
    simp only [CacheOp.exec, horigin, Except.mapError] at h
    cases h
    rfl

/-- What `getOrSet` writes its factory has just come to. -/
theorem awaits_getOrSet {key key' : JsString} {factory : Φ} {ns ns' : Option JsString}
    {ttl ttl' : Option ℤ} {ss : List (CacheWorld Φ V)}
    (h : (ExceptT.run (getOrSet key factory ns ttl)).Awaits (CacheOp.exec codec) ss
      (.set key' v ns' ttl')) : ∃ w₁ w₂, ss = [w₁, w₂] ∧ w₂.origin factory = .ok v ∧
        (ExceptT.run (getOrSet key factory ns ttl)).Awaits (CacheOp.exec codec) [w₁]
          (.factory factory) := by
  rw [getOrSet] at h
  rcases Prog.awaits_exceptBind.1 h with hfirst | ⟨_, post, cached, rfl, hget, hrest⟩
  · cases ss with
    | nil => cases Prog.awaits_op_nil.1 hfirst
    | cons w ss => exact (Prog.awaits_op_cons.1 hfirst).elim
  obtain ⟨w₁, rfl, -⟩ := Prog.saw_await.1 hget
  cases cached with
  | some cached => exact hrest.elim
  | none =>
    have hfactory : (ExceptT.run (getOrSet key factory ns ttl)).Awaits (CacheOp.exec codec) [w₁]
        (.factory factory) := by
      rw [getOrSet]
      refine Prog.awaits_exceptBind.2 (Or.inr ⟨[w₁], [], none, rfl, hget, ?_⟩)
      exact Prog.awaits_exceptBind.2 (Or.inl (Prog.awaits_op_nil.2 rfl))
    rcases Prog.awaits_exceptBind.1 hrest with hsecond | ⟨_, post, value, rfl, hcompute, hlast⟩
    · cases post with
      | nil => cases Prog.awaits_op_nil.1 hsecond
      | cons w post => exact (Prog.awaits_op_cons.1 hsecond).elim
    obtain ⟨w₂, rfl, hvalue⟩ := Prog.saw_await.1 hcompute
    rcases Prog.awaits_exceptBind.1 hlast with hset | ⟨_, _, _, -, -, hreturn⟩
    swap
    · exact hreturn.elim
    cases post with
    | cons w post => exact (Prog.awaits_op_cons.1 hset).elim
    | nil =>
      cases Prog.awaits_op_nil.1 hset
      exact ⟨w₁, w₂, rfl, origin_of_answer hvalue, hfactory⟩

/-- **What a call writes** it has been given or has computed. -/
theorem has_of_writes (h : Run (System.Step (CacheOp.exec codec) Ages) Always (accessAll calls w)
    earlier σ) {value : V} {ttl : ℤ} (hp : p.1 = σ) (hwrites : Writes i p name value ttl) :
    Has calls i earlier value := by
  obtain ⟨key, ns, asked, -, hperforms, -⟩ := hwrites
  rw [hp] at hperforms
  have hawaits := (System.performs_iff_awaits h).1 hperforms
  replace hawaits : (ExceptT.run (calls i).task).Awaits (CacheOp.exec codec)
    (System.seen i earlier) (.set key value ns asked) := hawaits
  have honce : ∀ {o : CacheOp Φ V} {f : o.Ans → AccessAnswer V},
      (ExceptT.run (do let a ← Task.await o; return f a : CacheTask Φ V (AccessAnswer V))).Awaits
        (CacheOp.exec codec) (System.seen i earlier) (.set key value ns asked) →
          o = .set key value ns asked := by
    intro o f hone
    rcases Prog.awaits_exceptBind.1 hone with hfirst | ⟨_, _, _, -, -, hreturn⟩
    · cases hseen : System.seen i earlier with
      | nil =>
        rw [hseen] at hfirst
        exact Prog.awaits_op_nil.1 hfirst
      | cons w ss =>
        rw [hseen] at hfirst
        exact (Prog.awaits_op_cons.1 hfirst).elim
    · exact hreturn.elim
  cases hcall : calls i with
  | getOrSet key' factory ns' ttl' =>
    rw [hcall] at hawaits
    rcases Prog.awaits_exceptBind.1 hawaits with hget | ⟨_, _, _, -, -, hreturn⟩
    swap
    · exact hreturn.elim
    obtain ⟨w₁, w₂, hseen, horigin, hfactory⟩ := awaits_getOrSet hget
    have hstart : ((accessAll calls w).tasks i).Awaits (CacheOp.exec codec) [w₁]
        (.factory factory) := by
      show (ExceptT.run (calls i).task).Awaits _ _ _
      rw [hcall]
      exact Prog.awaits_exceptBind.2 (Or.inl hfactory)
    obtain ⟨before, c, after, rfl, hc, rfl, hcomputes⟩ :=
      System.performs_of_seen h hseen hstart
    exact Or.inr ⟨key', factory, ns', ttl', hcall, c, by simp, hc, hcomputes, horigin⟩
  | set key' value' ns' ttl' =>
    rw [hcall] at hawaits
    cases honce hawaits
    exact Or.inl ⟨key, ns, asked, hcall⟩
  | get key' ns' =>
    rw [hcall] at hawaits
    cases honce hawaits
  | delete keys ns' =>
    rw [hcall] at hawaits
    cases honce hawaits
  | has key' ns' =>
    rw [hcall] at hawaits
    cases honce hawaits

/-- **What the cache answers with** since it had nothing under the name. -/
theorem traced_of_serves
    (hbefore : Run (System.Step (CacheOp.exec codec) Ages) Always (accessAll calls w) earlier σ₁)
    (hnone : entryOf σ₁ name = none)
    (h : Run (System.Step (CacheOp.exec codec) Ages) Always σ₁ since σ) (hp : p.1 = σ)
    (hserves : Serves codec i p name v) : Traced codec calls earlier since name σ.shared v := by
  obtain ⟨key, ns, -, -, rfl, hhit⟩ := hserves
  obtain ⟨e, hentry, hlive, hparse⟩ := CacheClient.entry_of_get hhit
  rw [hp] at hentry hlive hnone ⊢
  obtain ⟨before, q, after, j, value, ttl, rfl, hwrites, rfl⟩ := entry_of_run h hnone hentry
  refine ⟨before, q, after, j, value, ttl, rfl, hwrites, ?_, hparse, hlive⟩
  obtain ⟨σ₂, hfirst, hrest⟩ := h.of_append
  exact has_of_writes (hbefore.append hfirst) hrest.of_cons.1.symm hwrites

/-- The prefix stays what it is along a run. -/
theorem name_of_run (h : Run (System.Step (CacheOp.exec codec) Ages) Always σ₁ since σ)
    (key : JsString) (ns : Option JsString) :
    σ.shared.client.name key ns = σ₁.shared.client.name key ns := by
  have hkept : σ.shared.client.keyPrefix = σ₁.shared.client.keyPrefix := by
    induction h with
    | start => rfl
    | next _ _ hstep ih => exact (keyPrefix_step hstep).trans ih
  rw [CacheClient.name, CacheClient.name, CacheService.rawName, CacheService.rawName]
  show toBytes (σ.shared.client.keyPrefix ++ _) = toBytes (σ₁.shared.client.keyPrefix ++ _)
  rw [hkept]

/-- What `getOrSet` returns is what it has computed, or what the cache has answered. -/
theorem saw_getOrSet {key : JsString} {factory : Φ} {ns : Option JsString} {ttl : Option ℤ}
    {ss : List (CacheWorld Φ V)}
    (h : (ExceptT.run (getOrSet key factory ns ttl)).Saw (CacheOp.exec codec) ss (.ok v)) :
    (∃ w₁, ss = [w₁] ∧ (w₁.client.get codec key ns).1 = .ok (some v)) ∨
      ∃ w₁ w₂ w₃, ss = [w₁, w₂, w₃] ∧ w₂.origin factory = .ok v ∧
        (ExceptT.run (getOrSet key factory ns ttl)).Awaits (CacheOp.exec codec) [w₁]
          (.factory factory) := by
  rw [getOrSet] at h
  rcases Prog.saw_exceptBind.1 h with ⟨_, post, cached, rfl, hget, hrest⟩ | ⟨_, _, he⟩
  swap
  · cases he
  obtain ⟨w₁, rfl, hanswer⟩ := Prog.saw_await.1 hget
  cases cached with
  | some cached =>
    obtain ⟨rfl, hv⟩ := hrest
    cases hv
    refine Or.inl ⟨w₁, rfl, ?_⟩
    cases hfound : (w₁.client.get codec key ns).1 with
    | error e => simp [CacheOp.exec, hfound, Except.mapError] at hanswer
    | ok found =>
      simp only [CacheOp.exec, hfound, Except.mapError] at hanswer
      cases hanswer
      rfl
  | none =>
    have hfactory : (ExceptT.run (getOrSet key factory ns ttl)).Awaits (CacheOp.exec codec) [w₁]
        (.factory factory) := by
      rw [getOrSet]
      refine Prog.awaits_exceptBind.2 (Or.inr ⟨[w₁], [], none, rfl, hget, ?_⟩)
      exact Prog.awaits_exceptBind.2 (Or.inl (Prog.awaits_op_nil.2 rfl))
    rcases Prog.saw_exceptBind.1 hrest with ⟨_, post, value, rfl, hcompute, hlast⟩ | ⟨_, _, he⟩
    swap
    · cases he
    obtain ⟨w₂, rfl, hvalue⟩ := Prog.saw_await.1 hcompute
    rcases Prog.saw_exceptBind.1 hlast with ⟨_, _, _, rfl, hset, hreturn⟩ | ⟨_, _, he⟩
    swap
    · cases he
    obtain ⟨w₃, rfl, -⟩ := Prog.saw_await.1 hset
    obtain ⟨rfl, hv⟩ := hreturn
    cases hv
    exact Or.inr ⟨w₁, w₂, w₃, rfl, origin_of_answer hvalue, hfactory⟩

/-- **What `getOrSet` returns**, in any interleaving with other calls, on a cache that is empty at
the beginning: its factory has come to it in this very call, or the cache has answered with it, and
then a call has written it within its time to live. -/
theorem returned_fresh
    (h : Run (System.Step (CacheOp.exec codec) Ages) Always (accessAll calls w) steps σ)
    (hempty : ∀ name, w.client.redis.entries name = none) {key : JsString} {factory : Φ}
    {ns : Option JsString} {ttl : Option ℤ} (hcall : calls i = .getOrSet key factory ns ttl)
    (hi : σ.result? i = some (.ok (.value v))) :
    (∃ p ∈ steps, Computes i p factory v) ∨ ∃ pre p post, steps = pre ++ p :: post ∧
      Serves codec i p (w.client.name key ns) v ∧
        Traced codec calls [] pre (w.client.name key ns) p.1.shared v := by
  have hsaw : (ExceptT.run (getOrSet key factory ns ttl)).Saw (CacheOp.exec codec)
      (System.seen i steps) (.ok v) := by
    have htask := (System.result?_iff_saw h).1 hi
    replace htask : (ExceptT.run (calls i).task).Saw (CacheOp.exec codec) (System.seen i steps)
      (.ok (.value v)) := htask
    rw [hcall] at htask
    rcases Prog.saw_exceptBind.1 htask with ⟨_, _, value, hseen, hget, hreturn⟩ | ⟨_, _, he⟩
    · obtain ⟨rfl, hv⟩ := hreturn
      cases hv
      rw [hseen, List.append_nil]
      exact hget
    · cases he
  have hstart : ∀ {ss : List (CacheWorld Φ V)} {o : CacheOp Φ V},
      (ExceptT.run (getOrSet key factory ns ttl)).Awaits (CacheOp.exec codec) ss o →
        ((accessAll calls w).tasks i).Awaits (CacheOp.exec codec) ss o := by
    intro ss o hawaits
    show (ExceptT.run (calls i).task).Awaits _ _ _
    rw [hcall]
    exact Prog.awaits_exceptBind.2 (Or.inl hawaits)
  rcases saw_getOrSet hsaw with ⟨w₁, hseen, hhit⟩ | ⟨w₁, w₂, w₃, hseen, horigin, hfactory⟩
  · right
    have hget : (ExceptT.run (getOrSet key factory ns ttl)).Awaits (CacheOp.exec codec) []
        (.get key ns) := by
      rw [getOrSet]
      exact Prog.awaits_exceptBind.2 (Or.inl (Prog.awaits_op_nil.2 rfl))
    obtain ⟨pre, p, post, rfl, hp, rfl, hperforms⟩ :=
      System.performs_of_seen h hseen (hstart hget)
    obtain ⟨σ₁, hbefore, hrest⟩ := h.of_append
    have hσ₁ : p.1 = σ₁ := hrest.of_cons.1.symm
    have hserves : Serves codec i p (w.client.name key ns) v :=
      ⟨key, ns, hp, hperforms, hσ₁ ▸ name_of_run hbefore key ns, hhit⟩
    refine ⟨pre, p, post, rfl, hserves, ?_⟩
    rw [hσ₁]
    exact traced_of_serves .start (hempty _) hbefore hσ₁ hserves
  · left
    obtain ⟨before, c, after, rfl, hc, rfl, hcomputes⟩ :=
      System.performs_of_seen h hseen (hstart hfactory)
    exact ⟨c, by simp, hc, hcomputes, horigin⟩

/-- **What is read after a deletion** has been written after it. -/
theorem served_since_deleted (h : Run (System.Step (CacheOp.exec codec) Ages) Always
      (accessAll calls w) (pre ++ q :: (since ++ p :: post)) σ) (hdeletes : Deletes j q name)
    (hserves : Serves codec i p name v) :
    Traced codec calls (pre ++ [q]) since name p.1.shared v := by
  obtain ⟨σ₁, hbefore, hrest⟩ := h.of_append
  obtain ⟨rfl, hok, hstep, hafter⟩ := hrest.of_cons
  obtain ⟨σ₂, hsince, hlater⟩ := hafter.of_append
  obtain ⟨rfl, -⟩ := hlater.of_cons
  exact traced_of_serves (.next hbefore hok hstep) (entryOf_of_deletes hstep hdeletes) hsince rfl
    hserves

end

/-! ## Twice the same key -/

/-- Values given by their JSON. -/
def plainJson : JsonCodec String where
  stringify := id
  parse := .ok
  isNull raw := raw == "null"
  parse_stringify v := ⟨v, rfl, rfl, rfl⟩

/-- A cache without entries, and a factory. -/
def emptyCache : CacheWorld Unit String where
  client := ⟨CacheService.defaultPrefix, ⟨fun _ => none, 0, none⟩, ⟨0, 0, 0, 0, 0⟩⟩
  origin := fun _ => .ok "42"

/-- Two calls that read through the cache. -/
def readsThrough (_ : Bool) : CacheAccess Unit String :=
  .getOrSet (js "user:7") () (some (js "iam")) (some 60)

/-- The theorem at work: the second call gets what the first one has written. -/
theorem returned_fresh_readsThrough :
    let exec := CacheOp.exec plainJson
    let σ := [true, true, true, false].foldl (System.next exec) (accessAll readsThrough emptyCache)
    let steps := (accessAll readsThrough emptyCache).schedule exec [true, true, true, false]
    let name := emptyCache.client.name (js "user:7") (some (js "iam"))
    σ.result? false = some (.ok (.value "42")) ∧
      ((∃ p ∈ steps, Computes false p () "42") ∨ ∃ pre p post, steps = pre ++ p :: post ∧
        Serves plainJson false p name "42" ∧
          Traced plainJson readsThrough [] pre name p.1.shared "42") := by
  intro exec σ steps name
  have hrun : Run (System.Step exec Ages) Always (accessAll readsThrough emptyCache) steps σ :=
    System.run_schedule (by decide +kernel)
  have hresult : σ.result? false = some (.ok (.value "42")) := by decide +kernel
  exact ⟨hresult, returned_fresh hrun (fun _ => rfl) rfl hresult⟩

/-- One call deletes the entry, one writes it, and one reads it. -/
def replaces : Fin 3 → CacheAccess Unit String
  | 0 => .delete [js "user:7"] (some (js "iam"))
  | 1 => .set (js "user:7") "43" (some (js "iam")) none
  | 2 => .get (js "user:7") (some (js "iam"))

/-- Before the first one, before the second one, and before the third one. -/
def replacing : CacheSystem (Fin 3) Unit String := accessAll replaces emptyCache

def deleted : CacheSystem (Fin 3) Unit String := replacing.next (CacheOp.exec plainJson) 0

def rewritten : CacheSystem (Fin 3) Unit String := deleted.next (CacheOp.exec plainJson) 1

/-- The theorem at work: what is read has been written after the deletion. -/
theorem served_since_deleted_replaces :
    Traced plainJson replaces [(replacing, some 0, deleted)] [(deleted, some 1, rewritten)]
      (emptyCache.client.name (js "user:7") (some (js "iam"))) rewritten.shared "43" := by
  have hrun : Run (System.Step (CacheOp.exec plainJson) Ages) Always replacing
      ([] ++ (replacing, some 0, deleted) :: ([(deleted, some 1, rewritten)] ++
        (rewritten, some 2, rewritten.next (CacheOp.exec plainJson) 2) :: []))
      (rewritten.next (CacheOp.exec plainJson) 2) :=
    System.run_schedule (by decide +kernel :
      replacing.awaits (CacheOp.exec plainJson) [0, 1, 2] = true)
  have hdeletes : Deletes 0 (replacing, some 0, deleted)
      (emptyCache.client.name (js "user:7") (some (js "iam"))) :=
    ⟨_, _, rfl, ⟨_, rfl⟩, ⟨_, List.mem_singleton_self _, rfl⟩, rfl⟩
  have hhit : (rewritten.shared.client.get plainJson (js "user:7") (some (js "iam"))).1 =
      .ok (some "43") := by decide +kernel
  exact served_since_deleted hrun hdeletes ⟨_, _, rfl, ⟨_, rfl⟩, rfl, hhit⟩

end EnterpriseSystem.Caching
