import EnterpriseSystem.Base.Unicode

/-!
# The cache

`src/infrastructure/cache/cache.service.ts`, on a Redis that keeps what is written
until it loses it.

* `JsonCodec` — `JSON.stringify` and `JSON.parse`.
* `CacheService` — the prefix that the client puts before every name it sends, and
  what Redis has; `buildKey`, `get`, `set` — its methods.
-/

namespace EnterpriseSystem.Caching

open Unicode

/-- A text of the source. -/
def js (s : String) : JsString := ofScalars s.toList

/-- `JSON.stringify` and `JSON.parse` of JSON values.  What is read back has the JSON of
what was written. -/
structure JsonCodec (V : Type) where
  stringify : V → String
  /-- The value, or the message of the `SyntaxError`. -/
  parse : String → Except String V
  isNull : V → Bool
  parse_stringify : ∀ v, ∃ w, parse (stringify v) = .ok w ∧ stringify w = stringify v ∧
    isNull w = isNull v

/-- `CacheError`. -/
structure CacheError where
  message : String
  deriving DecidableEq

/-- `CacheService`: `keyPrefix` is its `defaultNamespace`, which the client prepends. -/
structure CacheService where
  keyPrefix : JsString
  redis : Bytes → Option String

namespace CacheService

/-- `redis.REDIS_KEY_PREFIX`, unless it is configured. -/
def defaultPrefix : JsString := js "es:"

/-- `buildKey`. -/
def buildKey (key : JsString) (ns : Option JsString) : JsString :=
  let ns := ns.getD []
  if ns ≠ [] then ns ++ js ":" ++ key else key

/-- The name of an entry, as the client sends it. -/
def rawName (s : CacheService) (fullKey : JsString) : Bytes := toBytes (s.keyPrefix ++ fullKey)

variable {V : Type} (codec : JsonCodec V)

/-- `get`: `none` stands for `null`. -/
def get (s : CacheService) (key : JsString) (ns : Option JsString) : Except CacheError (Option V) :=
  match s.redis (s.rawName (buildKey key ns)) with
  | none => .ok none
  | some raw =>
    match codec.parse raw with
    | .ok value => .ok (if codec.isNull value then none else some value)
    | .error message => .error ⟨s!"Cache get failed: {message}"⟩

/-- `set`. -/
def set (s : CacheService) (key : JsString) (value : V) (ns : Option JsString) : CacheService :=
  { s with
    redis := Function.update s.redis (s.rawName (buildKey key ns)) (some (codec.stringify value)) }

end CacheService

end EnterpriseSystem.Caching
