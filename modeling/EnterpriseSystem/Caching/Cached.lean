import EnterpriseSystem.Base.Memo
import EnterpriseSystem.Caching.CacheService

/-!
# The cache decorator

`@Cached` of `src/infrastructure/cache/cache.service.ts`: a method whose results
are kept in the cache of its instance.

* `JsValue`, `JsValue.join` — the arguments of a call, and the text `args.join(':')`
  makes of them.
* `CachedMethod` — a method with the options of its decorator; `call` — what the
  decorated method does, `answers` — a sequence of calls, with losses in between.
* `Transparent` — each call returns what the plain method would.
* `transparent_iff` — so it is exactly when every list of arguments has a text, and
  lists under the same name in the cache have results alike.
-/

namespace EnterpriseSystem.Caching

open Unicode Memoization

/-! ## Arguments -/

/-- A value of the language, with numbers `ν` and objects `ο` other than plain arrays. -/
inductive JsValue (ν ο : Type) where
  | undefined
  | null
  | boolean (b : Bool)
  | number (x : ν)
  | bigint (n : ℤ)
  | string (s : JsString)
  | symbol
  | array (elements : List (JsValue ν ο))
  | object (o : ο)

/-- What a number and an object are as a text; an object may throw. -/
structure JsHost (ν ο : Type) where
  numberText : ν → JsString
  objectText : ο → Option JsString

section

variable {ν ο : Type} (host : JsHost ν ο)

mutual

/-- `String(value)`, as `join` makes it: symbols throw. -/
def JsValue.toText : JsValue ν ο → Option JsString
  | undefined => some (js "undefined")
  | null => some (js "null")
  | boolean b => some (js (if b then "true" else "false"))
  | number x => some (host.numberText x)
  | bigint n => some (js (toString n))
  | string s => some s
  | symbol => none
  | array elements => (JsValue.pieces elements).map (js ",").intercalate
  | object o => host.objectText o

/-- What `join` puts between the separators: nothing for `undefined` and `null`. -/
def JsValue.pieces : List (JsValue ν ο) → Option (List JsString)
  | [] => some []
  | undefined :: values => (pieces values).map ([] :: ·)
  | null :: values => (pieces values).map ([] :: ·)
  | value :: values => value.toText.bind fun text => (pieces values).map (text :: ·)

end

/-- `values.join(separator)`. -/
def JsValue.join (values : List (JsValue ν ο)) (separator : JsString) : Option JsString :=
  (JsValue.pieces host values).map separator.intercalate

end

/-! ## The decorator -/

/-- What a call of a decorated method rejects with. -/
inductive CallError where
  /-- `args.join` has thrown. -/
  | joinFailed
  | cacheError (error : CacheError)
  deriving DecidableEq

/-- A method with the options of `@Cached`.  Its result depends on nothing but its
arguments. -/
structure CachedMethod (ν ο V : Type) where
  host : JsHost ν ο
  codec : JsonCodec V
  key : JsString
  ns : Option JsString
  method : List (JsValue ν ο) → V

namespace CachedMethod

variable {ν ο V : Type} (c : CachedMethod ν ο V)

/-- `cacheKey`. -/
def cacheKey (args : List (JsValue ν ο)) : Option JsString :=
  (JsValue.join c.host args (js ":")).map (c.key ++ js ":" ++ ·)

/-- The decorated method, on an instance with a cache service or without one. -/
def call (service : Option CacheService) (args : List (JsValue ν ο)) :
    Except CallError V × Option CacheService :=
  match service with
  | none => (.ok (c.method args), none)
  | some s =>
    match c.cacheKey args with
    | none => (.error .joinFailed, some s)
    | some cacheKey =>
      match s.get c.codec cacheKey c.ns with
      | .error error => (.error (.cacheError error), some s)
      | .ok (some cached) => (.ok cached, some s)
      | .ok none =>
        let result := c.method args
        (.ok result, some (s.set c.codec cacheKey result c.ns))

/-- Entries get lost. -/
def lose (service : Option CacheService) (gone : Bytes → Bool) : Option CacheService :=
  service.map fun s => { s with redis := fun name => if gone name then none else s.redis name }

/-- The answers to the calls of a sequence. -/
def answers : Option CacheService → List (Event (List (JsValue ν ο)) Bytes) →
    List (List (JsValue ν ο) × Except CallError V)
  | _, [] => []
  | service, .call args :: events =>
    (args, (c.call service args).1) :: answers (c.call service args).2 events
  | service, .lose gone :: events => answers (lose service gone) events

/-- The same JSON. -/
def Alike (v w : V) : Prop := c.codec.stringify v = c.codec.stringify w

/-- Each call returns what the plain method would, up to its JSON, whatever is lost in
between. -/
def Transparent (service : Option CacheService) (calls : List (List (JsValue ν ο))) : Prop :=
  ∀ events, events.filterMap Event.arg? = calls → ∀ p ∈ c.answers service events,
    ∃ w, p.2 = .ok w ∧ c.Alike w (c.method p.1)

/-- The name of the entry of a call. -/
def entryName (s : CacheService) (args : List (JsValue ν ο)) : Option Bytes :=
  (c.cacheKey args).map fun cacheKey => s.rawName (CacheService.buildKey cacheKey c.ns)

/-- Every list of arguments has a text, and those under one name have results alike. -/
def Separates (s : CacheService) (calls : List (List (JsValue ν ο))) : Prop :=
  (∀ args ∈ calls, (JsValue.join c.host args (js ":")).isSome) ∧
    calls.Pairwise fun args args' => c.entryName s args = c.entryName s args' →
      c.Alike (c.method args) (c.method args')

/-! ## As a memoized function -/

/-- The name of an entry, or what the call rejects with. -/
def keyOf (s : CacheService) (args : List (JsValue ν ο)) : Except CallError Bytes :=
  match c.entryName s args with
  | none => .error .joinFailed
  | some name => .ok name

/-- What an entry is good for. -/
def readEntry (raw : String) : Except CallError (Option V) :=
  match c.codec.parse raw with
  | .ok value => .ok (if c.codec.isNull value then none else some value)
  | .error message => .error (.cacheError ⟨s!"Cache get failed: {message}"⟩)

/-- The decorated method with the names of one service. -/
def memo (s : CacheService) : Memo (List (JsValue ν ο)) Bytes String V CallError :=
  { compute := c.method, key := c.keyOf s, write := c.codec.stringify, read := c.readEntry }

variable {c}

theorem memo_key_of_none {s : CacheService} {args : List (JsValue ν ο)}
    (h : c.cacheKey args = none) : (c.memo s).key args = .error .joinFailed := by
  show c.keyOf s args = _
  unfold keyOf entryName
  rw [h]
  rfl

theorem memo_key_of_some {s : CacheService} {args : List (JsValue ν ο)} {cacheKey : JsString}
    (h : c.cacheKey args = some cacheKey) :
    (c.memo s).key args = .ok (s.rawName (CacheService.buildKey cacheKey c.ns)) := by
  show c.keyOf s args = _
  unfold keyOf entryName
  rw [h]
  rfl

/-- The entry found is what `get` returns. -/
theorem memo_find (s : CacheService) (cacheKey : JsString) :
    (c.memo s).find s.redis (s.rawName (CacheService.buildKey cacheKey c.ns)) =
      (s.get c.codec cacheKey c.ns).mapError .cacheError := by
  unfold Memo.find CacheService.get
  cases s.redis (s.rawName (CacheService.buildKey cacheKey c.ns)) with
  | none => rfl
  | some raw =>
    show c.readEntry raw = _
    unfold readEntry
    dsimp only
    cases c.codec.parse raw <;> rfl

/-- **The decorated method is the memoized one.** -/
theorem call_eq (s : CacheService) (args : List (JsValue ν ο)) :
    c.call (some s) args =
      (((c.memo s).call s.redis args).1, some { s with redis := ((c.memo s).call s.redis args).2 }) := by
  unfold call
  dsimp only
  cases hkey : c.cacheKey args with
  | none => rw [Memo.call_of_error (memo_key_of_none hkey)]
  | some cacheKey =>
    rw [Memo.call_of_ok (memo_key_of_some hkey), memo_find]
    dsimp only
    cases s.get c.codec cacheKey c.ns with
    | error error => rfl
    | ok cached => cases cached <;> rfl

theorem answers_eq (s : CacheService) (redis : Bytes → Option String)
    (events : List (Event (List (JsValue ν ο)) Bytes)) :
    c.answers (some { s with redis := redis }) events = (c.memo s).answers redis events := by
  induction events generalizing redis with
  | nil => rfl
  | cons event events ih =>
    cases event with
    | call args =>
      have hcall := call_eq (c := c) { s with redis := redis } args
      unfold answers Memo.answers
      rw [hcall]
      exact congrArg _ (ih _)
    | lose gone => exact ih _

theorem keyOf_eq_ok {s : CacheService} {args : List (JsValue ν ο)} {name : Bytes} :
    c.keyOf s args = .ok name ↔ c.entryName s args = some name := by
  unfold keyOf
  cases c.entryName s args with
  | none => exact iff_of_false nofun nofun
  | some name' => exact ⟨fun h => congrArg some (Except.ok.inj h), fun h => by rw [Option.some.inj h]⟩

theorem exists_entryName {s : CacheService} {args : List (JsValue ν ο)} :
    (∃ name, c.entryName s args = some name) ↔ (JsValue.join c.host args (js ":")).isSome := by
  unfold entryName cacheKey
  rw [← Option.isSome_iff_exists, Option.isSome_map, Option.isSome_map]

/-- The names separate calls as the keys of the memoized function do. -/
theorem separates_memo_iff (s : CacheService) (calls : List (List (JsValue ν ο))) :
    (c.memo s).Separates c.Alike calls ↔ c.Separates s calls := by
  constructor
  · rintro ⟨hkeys, hpairs⟩
    have hnames : ∀ args ∈ calls, ∃ name, c.entryName s args = some name := fun args hargs => by
      obtain ⟨name, hname⟩ := hkeys args hargs
      exact ⟨name, keyOf_eq_ok.1 hname⟩
    refine ⟨fun args hargs => exists_entryName.1 (hnames args hargs), ?_⟩
    refine hpairs.imp_of_mem fun {args args'} hargs _ halike hsame => ?_
    obtain ⟨name, hname⟩ := hnames args hargs
    exact halike name (keyOf_eq_ok.2 hname) (keyOf_eq_ok.2 (hsame.symm.trans hname))
  · rintro ⟨htexts, hpairs⟩
    refine ⟨fun args hargs => ?_, hpairs.imp fun {args args'} halike name hname hname' => ?_⟩
    · obtain ⟨name, hname⟩ := exists_entryName.2 (htexts args hargs)
      exact ⟨name, keyOf_eq_ok.2 hname⟩
    · exact halike ((keyOf_eq_ok.1 hname).trans (keyOf_eq_ok.1 hname').symm)

/-- Without a cache service the plain method is called. -/
theorem transparent_none (calls : List (List (JsValue ν ο))) : c.Transparent none calls := by
  intro events _
  induction events generalizing calls with
  | nil => exact nofun
  | cons event events ih =>
    cases event with
    | call args =>
      intro p hp
      rcases List.mem_cons.1 hp with rfl | hp
      · exact ⟨_, rfl, rfl⟩
      · exact ih _ rfl p hp
    | lose gone => exact ih _ rfl

/-- **Exact transparency**: the decorated method is the plain one, whatever the cache
loses, exactly when the names in the cache separate its calls. -/
theorem transparent_iff (hresult : ∀ args, c.codec.isNull (c.method args) = false)
    {service : Option CacheService} (hempty : ∀ s ∈ service, ∀ name, s.redis name = none)
    (calls : List (List (JsValue ν ο))) :
    c.Transparent service calls ↔ ∀ s ∈ service, c.Separates s calls := by
  cases service with
  | none => exact iff_of_true (transparent_none calls) nofun
  | some s =>
    have halike : Equivalence c.Alike :=
      ⟨fun _ => rfl, fun h => Eq.symm h, fun h h' => Eq.trans h h'⟩
    have hread : (c.memo s).Faithful c.Alike := by
      intro args
      obtain ⟨w, hparse, hjson, hnull⟩ := c.codec.parse_stringify (c.method args)
      refine ⟨w, ?_, hjson⟩
      show c.readEntry (c.codec.stringify (c.method args)) = _
      unfold readEntry
      rw [hparse]
      dsimp only
      rw [hnull, hresult args]
      rfl
    have hnone : s.redis = fun _ => none := funext (hempty s rfl)
    have hsome : (∀ s' ∈ some s, c.Separates s' calls) ↔ c.Separates s calls := by simp
    rw [hsome, ← separates_memo_iff, ← Memo.transparent_iff_separates halike hread]
    refine forall₂_congr fun events _ => ?_
    rw [← hnone, ← answers_eq]
    rfl

end CachedMethod

/-! ## One argument, and two -/

namespace Booleans

/-- The JSON of a boolean. -/
def codec : JsonCodec Bool where
  stringify b := if b then "true" else "false"
  parse raw := if raw = "true" then .ok true else if raw = "false" then .ok false
    else .error "Unexpected token"
  isNull _ := false
  parse_stringify b := ⟨b, by cases b <;> decide +kernel, rfl, rfl⟩

/-- Whether a method is called with one text. -/
def method : List (JsValue ℕ Unit) → Bool
  | [.string _] => true
  | _ => false

/-- That method, with `@Cached({ key: 'check' })`. -/
def check : CachedMethod ℕ Unit Bool where
  host := { numberText := fun n => js (toString n), objectText := fun _ => some (js "[object Object]") }
  codec := codec
  key := js "check"
  ns := none
  method := method

/-- A cache with nothing in it. -/
def service : CacheService := { keyPrefix := CacheService.defaultPrefix, redis := fun _ => none }

/-- One text with the separator in it. -/
def one : List (JsValue ℕ Unit) := [.string (js "a:b")]

/-- Two texts. -/
def two : List (JsValue ℕ Unit) := [.string (js "a"), .string (js "b")]

end Booleans

namespace CachedMethod

/-- Calls of one text each. -/
theorem transparent_check :
    Booleans.check.Transparent (some Booleans.service)
      [[.string (js "a")], [.string (js "b")], [.string (js "a")]] := by
  refine (transparent_iff (fun _ => rfl) (fun s hs name => ?_) _).2 fun s hs => ?_
  · obtain rfl := Option.some.inj hs
    rfl
  · obtain rfl := Option.some.inj hs
    exact ⟨by simp; decide +kernel, by simp [CachedMethod.Alike, Booleans.check, Booleans.method]⟩

/-- The call with two texts is answered from the entry of the one with one. -/
theorem not_transparent :
    ¬ ∀ (c : CachedMethod ℕ Unit Bool) (service : CacheService)
        (calls : List (List (JsValue ℕ Unit))),
        (∀ args, c.codec.isNull (c.method args) = false) → (∀ name, service.redis name = none) →
          c.Transparent (some service) calls := by
  intro h
  have hall := h Booleans.check Booleans.service [Booleans.one, Booleans.two] (fun _ => rfl)
    (fun _ => rfl) [.call Booleans.one, .call Booleans.two] rfl
  obtain ⟨w, hanswer, hjson⟩ := hall (Booleans.two, _)
    (List.mem_cons_of_mem _ (List.mem_singleton_self _))
  have hfirst : (Booleans.check.call (Booleans.check.call (some Booleans.service) Booleans.one).2
      Booleans.two).1 = .ok true := by decide +kernel
  obtain rfl := Except.ok.inj (hfirst.symm.trans hanswer)
  exact absurd hjson (by unfold Alike; decide +kernel)

end CachedMethod

end EnterpriseSystem.Caching
