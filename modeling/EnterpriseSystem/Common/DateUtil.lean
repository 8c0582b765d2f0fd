import EnterpriseSystem.Base.Calendar

/-!
# Dates

`toUtcString`, `parseDate` and `formatDate` of `src/common/utils/date.util.ts`, over the
functions of `date-fns` that they call.

* `DateFns` — `parseISO` and `format`, which the process's time zone is in.
* `toUtcString`, `parseDate`, `formatDate` — the functions.
-/

namespace EnterpriseSystem.Common

/-- A `Date`, with `none` for the invalid one, or a string. -/
inductive DateArg where
  | date (d : Option ℤ)
  | text (s : String)

namespace DateArg

/-- `typeof date === 'string' ? parseISO(date) : date`. -/
def toDate (parseISO : String → Option ℤ) : DateArg → Option ℤ
  | .date d => d
  | .text s => parseISO s

/-- The message about an argument that is no valid date. -/
def invalid : DateArg → String
  | .date _ => "Invalid date: Invalid Date"
  | .text s => s!"Invalid date: {s}"

end DateArg

/-- What the functions use of `date-fns`; `format` throws for a pattern that it does not
know. -/
structure DateFns where
  parseISO : String → Option ℤ
  format : ℤ → (pattern : String) → Except String String

/-- `FORMAT_MAP`. -/
def FORMAT_MAP : List (String × String) :=
  [("iso", "yyyy-MM-dd'T'HH:mm:ss'Z'"),
    ("short", "yyyy-MM-dd"),
    ("long", "MMMM d, yyyy"),
    ("datetime", "yyyy-MM-dd HH:mm:ss"),
    ("time", "HH:mm:ss")]

section

variable (lib : DateFns)

/-- `toUtcString`. -/
def toUtcString (date : DateArg) : Except String String :=
  match date.toDate lib.parseISO with
  | none => .error date.invalid
  | some d =>
    match Calendar.toISOString d with
    | some text => .ok text
    | none => .error "Invalid time value"

/-- `parseDate`. -/
def parseDate (value : String) : Option ℤ := lib.parseISO value

/-- `formatDate`. -/
def formatDate (date : DateArg) (format : String) : Except String String :=
  match date.toDate lib.parseISO with
  | none => .error date.invalid
  | some d =>
    let pattern := (FORMAT_MAP.lookup format).getD format
    lib.format d pattern

end

end EnterpriseSystem.Common
