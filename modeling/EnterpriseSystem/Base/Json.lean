import Mathlib

/-!
# JSON texts

Values, the texts that are written of them, and the parser.

* `Json`, `write` — a value and its text, with `gap` blanks behind every comma and
  every colon.
* `read` — the parser of one value, which leaves what follows it; `parse` reads a
  whole text.
* `read_write` — the parser takes what was written off the text, and leaves the
  rest.
* `parse_write`, `write_injective` — so a text has one value.
-/

namespace JsonText

/-! ## Values -/

/-- The characters of numbers. -/
def isNumberChar (c : Char) : Bool := c.isDigit || ['-', '+', '.', 'e', 'E'].contains c

/-- A number, as it is written. -/
structure Numeral where
  chars : List Char
  nonempty : chars ≠ []
  wellFormed : chars.all isNumberChar = true
  deriving DecidableEq

inductive Json where
  | null
  | bool (b : Bool)
  | number (n : Numeral)
  | string (s : String)
  | array (items : List Json)
  | object (members : List (String × Json))

/-- A member of an object; of several of one name the last one counts. -/
def Json.member (key : String) : Json → Option Json
  | .object members => members.reverse.lookup key
  | _ => none

/-- A value that is a string. -/
def Json.text : Json → Option String
  | .string s => some s
  | _ => none

/-! ## Writing -/

/-- The characters that have an escape of one letter. -/
def shortEscapes : List (Char × Char) :=
  [('"', '"'), ('\\', '\\'), ('\x08', 'b'), ('\x0c', 'f'), ('\n', 'n'), ('\r', 'r'), ('\t', 't')]

/-- A character inside a string. -/
def escape (c : Char) : List Char :=
  match shortEscapes.lookup c with
  | some letter => ['\\', letter]
  | none =>
    if c.toNat < 32 then
      ['\\', 'u', '0', '0', Nat.digitChar (c.toNat / 16), Nat.digitChar (c.toNat % 16)]
    else [c]

/-- A string in quotes. -/
def quote (s : String) : List Char := '"' :: (s.toList.flatMap escape ++ ['"'])

mutual

/-- The text of a value. -/
def write (gap : ℕ) : Json → List Char
  | .null => ['n', 'u', 'l', 'l']
  | .bool true => ['t', 'r', 'u', 'e']
  | .bool false => ['f', 'a', 'l', 's', 'e']
  | .number n => n.chars
  | .string s => quote s
  | .array items => '[' :: (writeItems gap items ++ [']'])
  | .object members => '{' :: (writeMembers gap members ++ ['}'])

def writeItems (gap : ℕ) : List Json → List Char
  | [] => []
  | [v] => write gap v
  | v :: w :: items =>
    write gap v ++ ',' :: (List.replicate gap ' ' ++ writeItems gap (w :: items))

def writeMembers (gap : ℕ) : List (String × Json) → List Char
  | [] => []
  | [(key, v)] => quote key ++ ':' :: (List.replicate gap ' ' ++ write gap v)
  | (key, v) :: m :: members =>
    quote key ++ ':' :: (List.replicate gap ' ' ++ (write gap v ++
      ',' :: (List.replicate gap ' ' ++ writeMembers gap (m :: members))))

end

/-! ## Reading -/

/-- The blanks of JSON. -/
def isBlank (c : Char) : Bool := [' ', '\n', '\r', '\t'].contains c

/-- What follows the blanks. -/
def skip (cs : List Char) : List Char := cs.dropWhile isBlank

/-- The value of a hexadecimal digit. -/
def hexValue (c : Char) : Option ℕ := (List.range 16).find? fun n => n.digitChar == c.toLower

/-- The character of a code, unless it is one of a pair. -/
def ofCode (n : ℕ) : Option Char := if n.isValidChar then some (Char.ofNat n) else none

/-- The characters up to the closing quote, and what follows it. -/
def readString : List Char → Option (List Char × List Char)
  | [] => none
  | c :: cs =>
    if c = '"' then some ([], cs)
    else if c = '\\' then
      match cs with
      | [] => none
      | letter :: cs =>
        if letter = 'u' then
          match cs with
          | a :: b :: c :: d :: cs => do
            let a ← hexValue a
            let b ← hexValue b
            let c ← hexValue c
            let d ← hexValue d
            let char ← ofCode (((a * 16 + b) * 16 + c) * 16 + d)
            let (s, rest) ← readString cs
            return (char :: s, rest)
          | _ => none
        else do
          let char ← ((shortEscapes.map Prod.swap).concat ('/', '/')).lookup letter
          let (s, rest) ← readString cs
          return (char :: s, rest)
    else if c.toNat < 32 then none
    else do
      let (s, rest) ← readString cs
      return (c :: s, rest)

/-- The longest number in front. -/
def readNumber (cs : List Char) : Option (Json × List Char) :=
  if h : cs.takeWhile isNumberChar = [] then none
  else some (.number ⟨cs.takeWhile isNumberChar, h, List.all_takeWhile⟩, cs.dropWhile isNumberChar)

/-- A value that is no array and no object. -/
def readAtom : List Char → Option (Json × List Char)
  | 'n' :: 'u' :: 'l' :: 'l' :: cs => some (.null, cs)
  | 't' :: 'r' :: 'u' :: 'e' :: cs => some (.bool true, cs)
  | 'f' :: 'a' :: 'l' :: 's' :: 'e' :: cs => some (.bool false, cs)
  | '"' :: cs => (readString cs).map fun p => (.string (String.ofList p.1), p.2)
  | cs => readNumber cs

mutual

/-- The value in front, and what follows it. -/
def read : ℕ → List Char → Option (Json × List Char)
  | 0, _ => none
  | fuel + 1, cs =>
    match skip cs with
    | '[' :: cs =>
      match skip cs with
      | ']' :: cs => some (.array [], cs)
      | _ => (readItems fuel cs).map fun p => (.array p.1, p.2)
    | '{' :: cs =>
      match skip cs with
      | '}' :: cs => some (.object [], cs)
      | _ => (readMembers fuel cs).map fun p => (.object p.1, p.2)
    | cs => readAtom cs

def readItems : ℕ → List Char → Option (List Json × List Char)
  | 0, _ => none
  | fuel + 1, cs => do
    let (v, cs) ← read fuel cs
    match skip cs with
    | ',' :: cs =>
      let (items, cs) ← readItems fuel cs
      return (v :: items, cs)
    | ']' :: cs => return ([v], cs)
    | _ => none

def readMembers : ℕ → List Char → Option (List (String × Json) × List Char)
  | 0, _ => none
  | fuel + 1, cs =>
    match skip cs with
    | '"' :: cs => do
      let (key, cs) ← readString cs
      match skip cs with
      | ':' :: cs =>
        let (v, cs) ← read fuel cs
        match skip cs with
        | ',' :: cs =>
          let (members, cs) ← readMembers fuel cs
          return ((String.ofList key, v) :: members, cs)
        | '}' :: cs => return ([(String.ofList key, v)], cs)
        | _ => none
      | _ => none
    | _ => none

end

/-- The value of a whole text. -/
def parse (text : String) : Option Json := do
  let (v, rest) ← read text.length text.toList
  if skip rest = [] then return v else none

/-! ## Strings -/

section

variable {gap : ℕ} {rest : List Char}

/-- A letter that is an escape is the escape of its character, and is not `u`. -/
theorem shortEscapes_lookup {c letter : Char} (h : shortEscapes.lookup c = some letter) :
    ((shortEscapes.map Prod.swap).concat ('/', '/')).lookup letter = some c ∧ letter ≠ 'u' := by
  have hmem : (c, letter) ∈ shortEscapes := by
    obtain ⟨before, after, heq, -⟩ := List.lookup_eq_some_iff.1 h
    rw [heq]
    exact List.mem_append_right _ (List.mem_cons_self)
  have hall : ∀ p ∈ shortEscapes,
      ((shortEscapes.map Prod.swap).concat ('/', '/')).lookup p.2 = some p.1 ∧ p.2 ≠ 'u' := by
    decide
  exact hall _ hmem

theorem hexValue_digitChar : ∀ n < 16, hexValue (Nat.digitChar n) = some n := by decide

/-- The quote and the backslash are escaped. -/
theorem ne_of_lookup_none {c : Char} (h : shortEscapes.lookup c = none) : c ≠ '"' ∧ c ≠ '\\' := by
  constructor
  · rintro rfl
    exact absurd h (by decide)
  · rintro rfl
    exact absurd h (by decide)

/-- One character of a string is read back. -/
theorem readString_escape (c : Char) (cs : List Char) :
    readString (escape c ++ cs) = (readString cs).map fun p => (c :: p.1, p.2) := by
  unfold escape
  cases hshort : shortEscapes.lookup c with
  | some letter =>
    obtain ⟨hback, hu⟩ := shortEscapes_lookup hshort
    simp only [List.cons_append, List.nil_append]
    rw [readString.eq_def]
    simp only [if_neg hu, hback]
    cases readString cs <;> rfl
  | none =>
    obtain ⟨hquote, hslash⟩ := ne_of_lookup_none hshort
    by_cases hcontrol : c.toNat < 32
    · have hhigh := hexValue_digitChar (c.toNat / 16) (by omega)
      have hlow := hexValue_digitChar (c.toNat % 16) (by omega)
      have hcode : ((0 * 16 + 0) * 16 + c.toNat / 16) * 16 + c.toNat % 16 = c.toNat := by omega
      have hvalid : ofCode c.toNat = some c := by
        rw [ofCode, if_pos (show c.toNat.isValidChar from c.valid), Char.ofNat_toNat]
      have hzero : hexValue '0' = some 0 := by decide
      simp only [if_pos hcontrol, List.cons_append, List.nil_append]
      rw [readString.eq_def]
      simp only [if_neg (show ¬ '\\' = '"' by decide), if_true, hzero, hhigh, hlow]
      simp only [Option.bind_eq_bind, Option.bind_some, hcode, hvalid]
      cases readString cs <;> rfl
    · simp only [if_neg hcontrol, List.cons_append, List.nil_append]
      rw [readString.eq_def]
      simp only [if_neg hquote, if_neg hslash, if_neg hcontrol]
      cases readString cs <;> rfl

theorem readString_quote : readString ('"' :: rest) = some ([], rest) := by
  rw [readString.eq_def]
  rfl

/-- A string is read up to its closing quote. -/
theorem readString_flatMap (s : List Char) :
    readString (s.flatMap escape ++ '"' :: rest) = some (s, rest) := by
  induction s with
  | nil => exact readString_quote
  | cons c s ih =>
    rw [List.flatMap_cons, List.append_assoc, readString_escape, ih]
    rfl

theorem quote_append (s : String) :
    quote s ++ rest = '"' :: (s.toList.flatMap escape ++ '"' :: rest) := by
  simp [quote]

/-! ## Blanks -/

theorem skip_cons {c : Char} (h : isBlank c = false) : skip (c :: rest) = c :: rest := by
  simp [skip, h]

theorem skip_blanks : skip (List.replicate gap ' ' ++ rest) = skip rest := by
  induction gap with
  | zero => rfl
  | succ n ih => exact ih

theorem isBlank_eq_false {c : Char} (h : isNumberChar c = true) : isBlank c = false := by
  rw [isBlank, List.contains_eq_mem, decide_eq_false_iff_not]
  simp only [List.mem_cons, List.not_mem_nil, or_false]
  rintro (rfl | rfl | rfl | rfl) <;> simp [isNumberChar] at h

/-- A value begins with a character that is no blank, and closes no array. -/
theorem write_head (gap : ℕ) (v : Json) :
    ∃ c cs, write gap v = c :: cs ∧ isBlank c = false ∧ c ≠ ']' := by
  cases v with
  | null => exact ⟨_, _, rfl, by decide, by decide⟩
  | bool b => cases b <;> exact ⟨_, _, rfl, by decide, by decide⟩
  | number n =>
    obtain ⟨c, cs, hn⟩ := List.exists_cons_of_ne_nil n.nonempty
    have hc : isNumberChar c = true := List.all_eq_true.1 n.wellFormed c (by simp [hn])
    refine ⟨c, cs, hn, isBlank_eq_false hc, ?_⟩
    rintro rfl
    simp [isNumberChar] at hc
  | string s => exact ⟨_, _, rfl, by decide, by decide⟩
  | array items => exact ⟨_, _, rfl, by decide, by decide⟩
  | object members => exact ⟨_, _, rfl, by decide, by decide⟩

/-! ## Values -/

/-- The text goes on with a character that no number has. -/
def Ends (rest : List Char) : Prop := ∀ c ∈ rest.head?, isNumberChar c = false

theorem readNumber_numeral (n : Numeral) (hrest : Ends rest) :
    readNumber (n.chars ++ rest) = some (.number n, rest) := by
  have hall : ∀ c ∈ n.chars, isNumberChar c = true := List.all_eq_true.1 n.wellFormed
  have htake : rest.takeWhile isNumberChar = [] ∧ rest.dropWhile isNumberChar = rest := by
    cases rest with
    | nil => exact ⟨rfl, rfl⟩
    | cons c cs =>
      have hc : isNumberChar c = false := hrest c rfl
      simp [hc]
  have hfront : (n.chars ++ rest).takeWhile isNumberChar = n.chars := by
    rw [List.takeWhile_append_of_pos hall, htake.1, List.append_nil]
  have hback : (n.chars ++ rest).dropWhile isNumberChar = rest := by
    rw [List.dropWhile_append_of_pos hall, htake.2]
  unfold readNumber
  rw [dif_neg (by rw [hfront]; exact n.nonempty)]
  simp only [hfront, hback]

/-- A number begins with none of the characters the other values begin with. -/
theorem readAtom_numeral (n : Numeral) (hrest : Ends rest) :
    readAtom (n.chars ++ rest) = some (.number n, rest) := by
  rw [← readNumber_numeral n hrest]
  obtain ⟨c, cs, hn⟩ := List.exists_cons_of_ne_nil n.nonempty
  have hc : isNumberChar c = true := List.all_eq_true.1 n.wellFormed c (by simp [hn])
  rw [hn, List.cons_append]
  unfold readAtom
  split <;> first | rfl | (rename_i heq; obtain ⟨rfl, -⟩ := List.cons.inj heq; simp [isNumberChar] at hc)

theorem readAtom_quote (s : String) : readAtom (quote s ++ rest) = some (.string s, rest) := by
  rw [quote_append, readAtom, readString_flatMap, Option.map_some, String.ofList_toList]

/-- The parser skips blanks in front. -/
theorem read_blanks (fuel : ℕ) :
    read fuel (List.replicate gap ' ' ++ rest) = read fuel rest := by
  cases fuel with
  | zero => rfl
  | succ n => rw [read, read, skip_blanks]

theorem readItems_blanks (fuel : ℕ) :
    readItems fuel (List.replicate gap ' ' ++ rest) = readItems fuel rest := by
  cases fuel with
  | zero => rfl
  | succ n => rw [readItems, readItems, read_blanks]

theorem readMembers_blanks (fuel : ℕ) :
    readMembers fuel (List.replicate gap ' ' ++ rest) = readMembers fuel rest := by
  cases fuel with
  | zero => rfl
  | succ n => rw [readMembers, readMembers, skip_blanks]

/-- What `readItems` finds where a list of items was written. -/
def ItemsReadBack (gap : ℕ) (items : List Json) : Prop :=
  items ≠ [] → ∀ fuel rest, (writeItems gap items).length < fuel →
    readItems fuel (writeItems gap items ++ ']' :: rest) = some (items, rest)

/-- What `readMembers` finds where a list of members was written. -/
def MembersReadBack (gap : ℕ) (members : List (String × Json)) : Prop :=
  members ≠ [] → ∀ fuel rest, (writeMembers gap members).length < fuel →
    readMembers fuel (writeMembers gap members ++ '}' :: rest) = some (members, rest)

/-- What `read` finds where a value was written. -/
def ReadBack (gap : ℕ) (v : Json) : Prop :=
  ∀ fuel rest, (write gap v).length ≤ fuel → Ends rest →
    read fuel (write gap v ++ rest) = some (v, rest)

theorem ends_cons {c : Char} (h : isNumberChar c = false) : Ends (c :: rest) := by
  intro d hd
  obtain rfl : c = d := by simpa using hd
  exact h

/-- An atom is read when `readAtom` reads it. -/
theorem readBack_of_atom {v : Json}
    (hopen : ∀ cs, write gap v ≠ '[' :: cs ∧ write gap v ≠ '{' :: cs)
    (hatom : ∀ rest, Ends rest → readAtom (write gap v ++ rest) = some (v, rest)) :
    ReadBack gap v := by
  intro fuel rest hfuel hrest
  obtain ⟨c, cs, hw, hblank, -⟩ := write_head gap v
  cases fuel with
  | zero => simp [hw] at hfuel
  | succ n =>
    rw [← hatom rest hrest, hw, List.cons_append, read, skip_cons hblank]
    split
    · rename_i heq
      obtain ⟨rfl, -⟩ := List.cons.inj heq
      exact absurd hw (hopen cs).1
    · rename_i heq
      obtain ⟨rfl, -⟩ := List.cons.inj heq
      exact absurd hw (hopen cs).2
    · rfl

theorem ReadBack.cons {v : Json} {items : List Json} (hv : ReadBack gap v)
    (hitems : ItemsReadBack gap items) : ItemsReadBack gap (v :: items) := by
  intro _ fuel rest hfuel
  obtain ⟨n, rfl⟩ := Nat.exists_eq_succ_of_ne_zero (Nat.ne_zero_of_lt hfuel)
  cases items with
  | nil =>
    rw [writeItems] at hfuel ⊢
    have hread := hv n (']' :: rest) (by omega) (ends_cons (by decide +kernel))
    simp [readItems, hread, skip, isBlank]
  | cons w items =>
    rw [writeItems] at hfuel ⊢
    simp only [List.length_append, List.length_cons, List.length_replicate] at hfuel
    have hread := hv n (',' :: (List.replicate gap ' ' ++ (writeItems gap (w :: items) ++ ']' :: rest)))
      (by omega) (ends_cons (by decide +kernel))
    have hrest := hitems (List.cons_ne_nil w items) n rest (by omega)
    simp only [List.append_assoc, List.cons_append]
    simp [readItems, hread, skip_cons (show isBlank ',' = false by decide), readItems_blanks, hrest]

theorem ReadBack.consMember {key : String} {v : Json} {members : List (String × Json)}
    (hv : ReadBack gap v) (hmembers : MembersReadBack gap members) :
    MembersReadBack gap ((key, v) :: members) := by
  intro _ fuel rest hfuel
  obtain ⟨n, rfl⟩ := Nat.exists_eq_succ_of_ne_zero (Nat.ne_zero_of_lt hfuel)
  cases members with
  | nil =>
    rw [writeMembers] at hfuel ⊢
    simp only [List.length_append, List.length_cons, List.length_replicate] at hfuel
    have hread := hv n ('}' :: rest) (by omega) (ends_cons (by decide +kernel))
    simp only [List.append_assoc, List.cons_append, quote_append]
    simp [readMembers, readString_flatMap, skip_cons (show isBlank '"' = false by decide),
      skip_cons (show isBlank ':' = false by decide), read_blanks, hread,
      skip_cons (show isBlank '}' = false by decide)]
  | cons m members =>
    rw [writeMembers] at hfuel ⊢
    simp only [List.length_append, List.length_cons, List.length_replicate] at hfuel
    have hread := hv n
      (',' :: (List.replicate gap ' ' ++ (writeMembers gap (m :: members) ++ '}' :: rest)))
      (by omega) (ends_cons (by decide +kernel))
    have hrest := hmembers (List.cons_ne_nil m members) n rest (by omega)
    simp only [List.append_assoc, List.cons_append, quote_append]
    simp [readMembers, readString_flatMap, skip_cons (show isBlank '"' = false by decide),
      skip_cons (show isBlank ':' = false by decide), read_blanks, hread,
      skip_cons (show isBlank ',' = false by decide), readMembers_blanks, hrest]

/-- **A value is read back** where it was written, whatever follows it. -/
theorem read_write (gap : ℕ) (v : Json) : ReadBack gap v := by
  refine @Json.rec (ReadBack gap) (ItemsReadBack gap) (MembersReadBack gap)
    (fun p => ReadBack gap p.2)
    ?null ?bool ?number ?string ?array ?object ?nil ?cons ?nilMember ?consMember ?pair v
  case null => exact readBack_of_atom (fun cs => ⟨nofun, nofun⟩) fun _ _ => rfl
  case bool =>
    intro b
    cases b <;> exact readBack_of_atom (fun cs => ⟨nofun, nofun⟩) fun _ _ => rfl
  case number =>
    intro n
    refine readBack_of_atom (fun cs => ?_) fun rest hrest => readAtom_numeral n hrest
    have hfirst : ∀ c cs, n.chars = c :: cs → isNumberChar c = true := fun c cs hn =>
      List.all_eq_true.1 n.wellFormed c (by simp [hn])
    constructor <;> intro hn <;> simpa [isNumberChar] using hfirst _ cs hn
  case string =>
    intro s
    exact readBack_of_atom (fun cs => ⟨nofun, nofun⟩) fun rest _ => readAtom_quote s
  case array =>
    intro items hitems fuel rest hfuel _
    cases fuel with
    | zero => simp [write] at hfuel
    | succ n =>
      rw [write] at hfuel ⊢
      simp only [List.length_append, List.length_cons, List.length_nil] at hfuel
      cases items with
      | nil => simp [read, writeItems, skip, isBlank]
      | cons w items =>
        have hread := hitems (List.cons_ne_nil w items) n rest (by omega)
        obtain ⟨c, cs, hw, hblank, hclose⟩ : ∃ c cs, writeItems gap (w :: items) = c :: cs ∧
            isBlank c = false ∧ c ≠ ']' := by
          obtain ⟨c, cs, hw, hc⟩ := write_head gap w
          cases items with
          | nil => exact ⟨c, cs, hw, hc⟩
          | cons w' items => exact ⟨c, _, by rw [writeItems, hw, List.cons_append], hc⟩
        rw [hw, List.cons_append] at hread
        simp only [List.cons_append, List.append_assoc, List.nil_append]
        rw [hw, List.cons_append, read, skip_cons (show isBlank '[' = false by decide)]
        simp only [skip_cons hblank]
        split
        · rename_i heq
          exact absurd (List.cons.inj heq).1 hclose
        · rw [hread]
          rfl
  case object =>
    intro members hmembers fuel rest hfuel _
    cases fuel with
    | zero => simp [write] at hfuel
    | succ n =>
      rw [write] at hfuel ⊢
      simp only [List.length_append, List.length_cons, List.length_nil] at hfuel
      cases members with
      | nil => simp [read, writeMembers, skip, isBlank]
      | cons m members =>
        have hread := hmembers (List.cons_ne_nil m members) n rest (by omega)
        obtain ⟨cs, hw⟩ : ∃ cs, writeMembers gap (m :: members) = '"' :: cs := by
          cases members <;> exact ⟨_, rfl⟩
        rw [hw, List.cons_append] at hread
        simp only [List.cons_append, List.append_assoc, List.nil_append]
        rw [hw, List.cons_append, read, skip_cons (show isBlank '{' = false by decide)]
        simp only [skip_cons (show isBlank '"' = false by decide)]
        rw [hread]
        rfl
  case nil => exact fun h => absurd rfl h
  case cons => exact fun v items hv hitems => hv.cons hitems
  case nilMember => exact fun h => absurd rfl h
  case consMember => exact fun p members hp hmembers => hp.consMember hmembers
  case pair => exact fun key v hv => hv

/-- **The text of a value**, parsed, is the value. -/
theorem parse_write (gap : ℕ) (v : Json) : parse (String.ofList (write gap v)) = some v := by
  have hends : Ends [] := fun c hc => absurd hc (by simp)
  have hread := read_write gap v (write gap v).length [] le_rfl hends
  rw [List.append_nil] at hread
  rw [parse, String.length_ofList, String.toList_ofList, hread]
  rfl

/-- **A text has one value.** -/
theorem write_injective (gap : ℕ) : Function.Injective (write gap) := by
  intro v w h
  exact Option.some.inj ((parse_write gap v).symm.trans ((congrArg (parse ∘ String.ofList) h).trans
    (parse_write gap w)))

end

end JsonText
