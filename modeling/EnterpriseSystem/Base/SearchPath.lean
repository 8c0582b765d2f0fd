import Mathlib

/-!
# Names and search paths

A name that is written without its schema stands for the one in the first schema
of the search path that defines it.  The system schema is searched before the
path when the path does not mention it.

* `Catalog` — which schema defines which names.
* `Catalog.resolve` — the schema a name is found in.
* `isSome_resolve_nil` — with nothing on the path, the system schema is all that
  is searched.
-/

namespace Relational

/-- The names the schemas of a database define. -/
structure Catalog (σ ν : Type*) where
  defines : σ → ν → Bool
  /-- the schema that is searched even when the path does not mention it -/
  system : σ

namespace Catalog

variable {σ ν : Type*} [DecidableEq σ] (c : Catalog σ ν)

/-- The schemas searched, in order. -/
def searched (path : List σ) : List σ := if c.system ∈ path then path else c.system :: path

/-- The schema a name without a schema is found in. -/
def resolve (path : List σ) (name : ν) : Option σ :=
  (c.searched path).find? fun s => c.defines s name

variable {c}

theorem mem_searched {path : List σ} {s : σ} : s ∈ c.searched path ↔ s = c.system ∨ s ∈ path := by
  unfold searched
  split
  · rename_i hmem
    constructor
    · exact .inr
    · rintro (rfl | hs)
      · exact hmem
      · exact hs
  · exact List.mem_cons

theorem isSome_resolve {path : List σ} {name : ν} :
    (c.resolve path name).isSome = true ↔
      ∃ s, (s = c.system ∨ s ∈ path) ∧ c.defines s name = true := by
  simp only [resolve, List.find?_isSome, mem_searched]

/-- **Under an empty path** a name is found exactly when the system schema
defines it. -/
theorem isSome_resolve_nil {name : ν} :
    (c.resolve [] name).isSome = true ↔ c.defines c.system name = true := by
  simp [isSome_resolve]

end Catalog

end Relational
