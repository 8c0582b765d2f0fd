import Mathlib

/-!
# Values of the domain

The value objects the user domain is built from (`src/domain/value-objects`), the
exceptions it throws (`src/domain/exceptions`) and the domain events it raises
(`src/domain/domain-events`).

* `trim`, `utf16Length` — what the code reads of a text.
* `UniqueId` — a UUID of version 4, `UniqueId.fromString`.
* `DbUuid` — a value of a `@db.Uuid` column.
* `Email`, `Password` — as far as the entity and its mapping use them.
* `Thrown` — what the methods throw.
* `DomainEvent` — `UserCreatedEvent` and `UserStatusChangedEvent`.
* `Moment` — what a method reads besides its object and its arguments: the clock
  and the generator of event identifiers.
-/

namespace EnterpriseSystem.Identity

/-- A `Date`, in milliseconds. -/
abbrev Date : Type := ℤ

/-! ## Text -/

/-- The characters `String.prototype.trim` removes. -/
def isWhiteSpace (c : Char) : Bool :=
  [0x09, 0x0A, 0x0B, 0x0C, 0x0D, 0x20, 0xA0, 0x1680, 0x2028, 0x2029, 0x202F, 0x205F, 0x3000,
    0xFEFF].contains c.toNat || (0x2000 ≤ c.toNat && c.toNat ≤ 0x200A)

/-- `s.trim()`. -/
def trim (s : String) : String :=
  String.ofList ((s.toList.dropWhile isWhiteSpace).rdropWhile isWhiteSpace)

/-- `s.length`: UTF-16 code units. -/
def utf16Length (s : String) : Nat :=
  (s.toList.map fun c => if c.toNat < 0x10000 then 1 else 2).sum

/-- The lower-case form of the ASCII letters, which is how a UUID is printed. -/
def lowerAscii (s : String) : String := String.ofList (s.toList.map Char.toLower)

/-- A text without white space is trimmed. -/
theorem trim_eq_self {s : String} (h : ∀ c ∈ s.toList, isWhiteSpace c = false) : trim s = s := by
  have hfront : s.toList.dropWhile isWhiteSpace = s.toList := by
    rw [List.dropWhile_eq_self_iff]
    intro hl
    rw [h _ (List.getElem_mem hl)]
    exact Bool.false_ne_true
  have hback : s.toList.rdropWhile isWhiteSpace = s.toList := by
    rw [List.rdropWhile_eq_self_iff]
    intro hl
    rw [h _ (List.getLast_mem hl)]
    exact Bool.false_ne_true
  rw [trim, hfront, hback, String.ofList_toList]

/-! ### Trimming and lower-casing -/

theorem trim_trim (s : String) : trim (trim s) = trim s := by
  have hfront : ((s.toList.dropWhile isWhiteSpace).rdropWhile isWhiteSpace).dropWhile
      isWhiteSpace = (s.toList.dropWhile isWhiteSpace).rdropWhile isWhiteSpace := by
    rw [List.dropWhile_eq_self_iff]
    intro hl
    rw [(List.rdropWhile_prefix isWhiteSpace (s.toList.dropWhile isWhiteSpace)).getElem hl]
    exact List.dropWhile_get_zero_not isWhiteSpace s.toList _
  unfold trim
  rw [String.toList_ofList, hfront, List.rdropWhile_idempotent]

theorem toNat_toLower (c : Char) :
    c.toLower.toNat = if 65 ≤ c.toNat ∧ c.toNat ≤ 90 then c.toNat + 32 else c.toNat := by
  have hiff : (c.val ≥ 'A'.val ∧ c.val ≤ 'Z'.val) ↔ 65 ≤ c.toNat ∧ c.toNat ≤ 90 := by
    rw [ge_iff_le, UInt32.le_iff_toNat_le, UInt32.le_iff_toNat_le]
    exact Iff.rfl
  unfold Char.toLower
  by_cases h : c.val ≥ 'A'.val ∧ c.val ≤ 'Z'.val
  · rw [dif_pos h, if_pos (hiff.1 h)]
    show (c.val + ('a'.val - 'A'.val)).toNat = c.val.toNat + 32
    have hle : c.val.toNat ≤ 90 := (hiff.1 h).2
    rw [UInt32.toNat_add, show ('a'.val - 'A'.val).toNat = 32 from rfl]
    omega
  · rw [dif_neg h, if_neg fun h' => h (hiff.2 h')]

theorem toLower_toLower (c : Char) : c.toLower.toLower = c.toLower := by
  have hnat := toNat_toLower c.toLower
  rw [if_neg (by rw [toNat_toLower]; split_ifs <;> omega)] at hnat
  exact Char.ext (UInt32.toNat_inj.1 hnat)

/-- Letters are not white space, in either case. -/
theorem isWhiteSpace_toLower (c : Char) : isWhiteSpace c.toLower = isWhiteSpace c := by
  have hletters : ∀ n, n < 123 → 65 ≤ n →
      ([0x09, 0x0A, 0x0B, 0x0C, 0x0D, 0x20, 0xA0, 0x1680, 0x2028, 0x2029, 0x202F, 0x205F, 0x3000,
        0xFEFF].contains n || (0x2000 ≤ n && n ≤ 0x200A)) = false := by
    decide
  unfold isWhiteSpace
  rw [toNat_toLower]
  split_ifs with h
  · rw [hletters _ (by omega) (by omega), hletters _ (by omega) (by omega)]
  · rfl

theorem trim_lowerAscii (s : String) : trim (lowerAscii s) = lowerAscii (trim s) := by
  have hsame : isWhiteSpace ∘ Char.toLower = isWhiteSpace := funext isWhiteSpace_toLower
  unfold trim lowerAscii List.rdropWhile
  rw [String.toList_ofList, String.toList_ofList, List.dropWhile_map, ← List.map_reverse,
    List.dropWhile_map, ← List.map_reverse, hsame]

theorem lowerAscii_lowerAscii (s : String) : lowerAscii (lowerAscii s) = lowerAscii s := by
  have hsame : Char.toLower ∘ Char.toLower = Char.toLower := funext toLower_toLower
  unfold lowerAscii
  rw [String.toList_ofList, List.map_map, hsame]

/-! ## Exceptions -/

/-- What the code throws: an `Error`, one of the domain exceptions, the
`ConcurrencyConflictError` of the persistence layer, a `TypeError`, or the
`PrismaClientKnownRequestError` of a refused statement. -/
inductive Thrown where
  | error (message : String)
  | userNotFound (identifier identifierType : String)
  | emailAlreadyExists (email : String)
  | concurrencyConflict (entity id : String)
  | typeError (message : String)
  | knownRequest (code : String) (target : List String)
  deriving DecidableEq

/-- The message of an exception. -/
def Thrown.message : Thrown → String
  | error message => message
  | userNotFound identifier identifierType =>
    s!"User not found with {identifierType}: {identifier}"
  | emailAlreadyExists email => s!"A user with email \"{email}\" already exists."
  | concurrencyConflict entity id =>
    s!"Concurrent modification detected on {entity} ({id}). Please retry."
  | typeError message => message
  | knownRequest code _ => code

/-! ## Identifiers -/

/-- The characters a hexadecimal digit may be written with. -/
def hexDigits : List Char :=
  ['0', '1', '2', '3', '4', '5', '6', '7', '8', '9', 'a', 'b', 'c', 'd', 'e', 'f',
    'A', 'B', 'C', 'D', 'E', 'F']

/-- Eight, four, four, four and twelve hexadecimal digits, with hyphens between. -/
def isUuid (s : String) : Bool :=
  s.toList.length == 36 && s.toList.zipIdx.all fun (c, i) =>
    if i = 8 ∨ i = 13 ∨ i = 18 ∨ i = 23 then c == '-' else hexDigits.contains c

/-- `UniqueId.UUID_V4_REGEX`. -/
def isUuidV4 (s : String) : Bool :=
  isUuid s && s.toList[14]? == some '4' &&
    ['8', '9', 'a', 'b', 'A', 'B'].any fun c => s.toList[19]? == some c

/-- `UniqueId`: a UUID of version 4, in the letters it was given in. -/
structure UniqueId where
  value : String
  /-- The constructor is private; both factories go through the pattern. -/
  wellFormed : isUuidV4 value = true
  deriving DecidableEq

namespace UniqueId

/-- `UniqueId.fromString`. -/
def fromString (value : String) : Except Thrown UniqueId :=
  if value = "" then
    .error (.error "UniqueId value must be a non-empty string")
  else if h : isUuidV4 (trim value) = true then
    .ok ⟨trim value, h⟩
  else
    let trimmed := trim value
    .error (.error s!"Invalid UUID v4 format: \"{trimmed}\"")

/-- `a.equals(b)`. -/
def equals (a b : UniqueId) : Bool := a.value == b.value

@[simp] theorem equals_iff {a b : UniqueId} : a.equals b = true ↔ a = b := by
  constructor
  · intro h
    cases a
    cases b
    simpa [equals] using h
  · rintro rfl
    simp [equals]

end UniqueId

theorem isUuid_of_isUuidV4 {s : String} (h : isUuidV4 s = true) : isUuid s = true := by
  simp only [isUuidV4, Bool.and_eq_true] at h
  exact h.1.1

/-- The characters of a UUID. -/
theorem mem_of_isUuid {s : String} (h : isUuid s = true) {c : Char} (hc : c ∈ s.toList) :
    c = '-' ∨ c ∈ hexDigits := by
  simp only [isUuid, Bool.and_eq_true, List.all_eq_true] at h
  obtain ⟨i, hi, rfl⟩ := List.getElem_of_mem hc
  have hat := h.2 (s.toList[i], i) (by simp [List.mem_zipIdx_iff_getElem?])
  simp only at hat
  split at hat
  · exact Or.inl (by simpa using hat)
  · exact Or.inr (by simpa using hat)

theorem trim_of_isUuid {s : String} (h : isUuid s = true) : trim s = s := by
  refine trim_eq_self fun c hc => ?_
  have hall : ∀ c ∈ '-' :: hexDigits, isWhiteSpace c = false := by
    simp [hexDigits, isWhiteSpace]
  exact hall c (List.mem_cons.2 (mem_of_isUuid h hc))

theorem toList_lowerAscii (s : String) : (lowerAscii s).toList = s.toList.map Char.toLower := by
  rw [lowerAscii, String.toList_ofList]

/-- A UUID stays one in lower case. -/
theorem isUuid_lowerAscii {s : String} (h : isUuid s = true) : isUuid (lowerAscii s) = true := by
  have hdigit : ∀ c ∈ hexDigits, c.toLower ∈ hexDigits := by simp [hexDigits]
  simp only [isUuid, Bool.and_eq_true, beq_iff_eq, List.all_eq_true, toList_lowerAscii,
    List.length_map] at h ⊢
  refine ⟨h.1, fun p hp => ?_⟩
  obtain ⟨q, hq, rfl⟩ : ∃ q ∈ s.toList.zipIdx, (q.1.toLower, q.2) = p := by
    simpa [List.zipIdx_map] using hp
  have hat := h.2 q hq
  simp only at hat ⊢
  split at hat
  · rename_i hhyphen
    rw [if_pos hhyphen, (beq_iff_eq.1 hat : q.1 = '-')]
    rfl
  · rename_i hhyphen
    rw [if_neg hhyphen]
    exact List.contains_iff_mem.2 (hdigit _ (List.contains_iff_mem.1 hat))

theorem isUuidV4_lowerAscii {s : String} (h : isUuidV4 s = true) :
    isUuidV4 (lowerAscii s) = true := by
  simp only [isUuidV4, Bool.and_eq_true, beq_iff_eq, List.any_eq_true, toList_lowerAscii,
    List.getElem?_map] at h ⊢
  obtain ⟨⟨huuid, hversion⟩, c, hc, hvariant⟩ := h
  refine ⟨⟨isUuid_lowerAscii huuid, by rw [hversion]; rfl⟩, c.toLower, ?_, by rw [hvariant]; rfl⟩
  have hlower : ∀ c ∈ ['8', '9', 'a', 'b', 'A', 'B'],
      c.toLower ∈ ['8', '9', 'a', 'b', 'A', 'B'] := by simp
  exact hlower c hc

/-- A value of a `@db.Uuid` column, as the text the database prints for it. -/
structure DbUuid where
  text : String
  isUuid : isUuid text = true
  lower : lowerAscii text = text
  deriving DecidableEq

/-- The column value a hyphenated UUID denotes. -/
def DbUuid.ofText (s : String) (h : Identity.isUuid s = true) : DbUuid :=
  ⟨lowerAscii s, isUuid_lowerAscii h, lowerAscii_lowerAscii s⟩

/-- The column value of an identifier. -/
def UniqueId.dbUuid (id : UniqueId) : DbUuid := .ofText id.value (isUuid_of_isUuidV4 id.wellFormed)

/-- The identifier of a column value, where it is of version 4. -/
theorem UniqueId.fromString_text (d : DbUuid) :
    fromString d.text = if h : isUuidV4 d.text = true then .ok ⟨d.text, h⟩
      else .error (.error s!"Invalid UUID v4 format: \"{d.text}\"") := by
  have htrim : trim d.text = d.text := trim_of_isUuid d.isUuid
  have hne : d.text ≠ "" := by
    intro hempty
    have huuid := d.isUuid
    rw [hempty] at huuid
    exact absurd huuid (by decide)
  unfold fromString
  rw [if_neg hne]
  simp only [htrim]

theorem UniqueId.dbUuid_of_value {id : UniqueId} {d : DbUuid} (h : id.value = d.text) :
    id.dbUuid = d := by
  cases d with
  | mk text huuid hlower =>
    subst h
    simp only [dbUuid, DbUuid.ofText, hlower]

@[simp] theorem UniqueId.dbUuid_text (id : UniqueId) : id.dbUuid.text = lowerAscii id.value := rfl

/-! ## Email addresses and passwords -/

/-- `Email`. -/
structure Email where
  value : String
  deriving DecidableEq

/-- `Email.fromPersistence`, for the runtime's `toLowerCase`. -/
def Email.fromPersistence (toLowerCase : String → String) (value : String) : Email :=
  ⟨toLowerCase (trim value)⟩

/-- `a.equals(b)`. -/
def Email.equals (a b : Email) : Bool := a.value == b.value

@[simp] theorem Email.equals_iff {a b : Email} : a.equals b = true ↔ a = b := by
  cases a
  cases b
  simp [Email.equals]

/-- `Password`: the raw value is held until the hash is there. -/
structure Password where
  rawValue : String
  hashedValue : Option String
  deriving DecidableEq

/-- `Password.fromHash`. -/
def Password.fromHash (hash : String) : Except Thrown Password :=
  if hash = "" then .error (.error "Password hash must be a non-empty string")
  else .ok ⟨"", some hash⟩

theorem Password.fromHash_eq_ok {hash : String} {p : Password} (h : fromHash hash = .ok p) :
    hash ≠ "" ∧ p = ⟨"", some hash⟩ := by
  unfold fromHash at h
  split at h
  · exact nomatch h
  · exact ⟨‹_›, (Except.ok.inj h).symm⟩

/-! ## Events -/

/-- `UserStatus`. -/
inductive UserStatus where
  | active
  | inactive
  | suspended
  | pendingVerification
  deriving DecidableEq

/-- The label of a status. -/
def UserStatus.label : UserStatus → String
  | active => "ACTIVE"
  | inactive => "INACTIVE"
  | suspended => "SUSPENDED"
  | pendingVerification => "PENDING_VERIFICATION"

/-- What a domain event tells: `UserCreatedEvent` or `UserStatusChangedEvent`. -/
inductive Happening where
  | userCreated (email : String)
  | userStatusChanged (oldStatus newStatus : UserStatus)
  deriving DecidableEq

/-- `DomainEvent`. -/
structure DomainEvent where
  eventId : UniqueId
  aggregateId : UniqueId
  occurredAt : Date
  happening : Happening
  deriving DecidableEq

/-- `eventName`. -/
def DomainEvent.eventName (e : DomainEvent) : String :=
  match e.happening with
  | .userCreated _ => "UserCreated"
  | .userStatusChanged _ _ => "UserStatusChanged"

/-- What a method reads besides the object and its arguments: `new Date()` and
the identifier `UniqueId.create()` generates for the event it raises. -/
structure Moment where
  now : Date
  eventId : UniqueId
  deriving DecidableEq

end EnterpriseSystem.Identity
