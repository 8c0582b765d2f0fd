import EnterpriseSystem.Base.Json

/-!
# Texts behind a separator

When two texts are the same, where were they joined?

* `eq_of_first`, `eq_of_last` — at the first, or the last separator, when the field
  in front, or behind, has none.
* `labelled_eq_iff` — the ways in which two texts with labels in front are the same.
* `Place`, `scan` — where a reader of a text is: inside a string or not.
* `Guarded`, `Closed` — the separators of a text lie inside of strings; a closed
  text ends outside of them.
* `eq_of_closed` — a closed field behind a separator is known from the right.
* `closed_write` — the text of a JSON value is closed.
-/

namespace Delimited

open JsonText

variable {sep : Char}

/-! ## Fields without the separator -/

/-- The field in front of the first separator. -/
theorem eq_of_first {a b rest rest' : List Char} (ha : sep ∉ a) (hb : sep ∉ b)
    (h : a ++ sep :: rest = b ++ sep :: rest') : a = b ∧ rest = rest' := by
  induction a generalizing b with
  | nil =>
    cases b with
    | nil => exact ⟨rfl, (List.cons.inj h).2⟩
    | cons c b =>
      obtain ⟨rfl, -⟩ := List.cons.inj h
      exact absurd List.mem_cons_self hb
  | cons c a ih =>
    cases b with
    | nil =>
      obtain ⟨rfl, -⟩ := List.cons.inj h
      exact absurd List.mem_cons_self ha
    | cons d b =>
      obtain ⟨rfl, htail⟩ := List.cons.inj h
      obtain ⟨rfl, hrest⟩ := ih (fun hc => ha (List.mem_cons_of_mem c hc))
        (fun hc => hb (List.mem_cons_of_mem c hc)) htail
      exact ⟨rfl, hrest⟩

/-- The field behind the last separator. -/
theorem eq_of_last {a b front front' : List Char} (ha : sep ∉ a) (hb : sep ∉ b)
    (h : front ++ sep :: a = front' ++ sep :: b) : front = front' ∧ a = b := by
  have hreverse : a.reverse ++ sep :: front.reverse = b.reverse ++ sep :: front'.reverse := by
    simpa using congrArg List.reverse h
  obtain ⟨hlast, hfront⟩ := eq_of_first (fun hc => ha (List.mem_reverse.1 hc))
    (fun hc => hb (List.mem_reverse.1 hc)) hreverse
  exact ⟨List.reverse_inj.1 hfront, List.reverse_inj.1 hlast⟩

/-! ## A label in front -/

/-- A text with a label in front of it, if it has one. -/
def labelled (sep : Char) : Option (List Char) × List Char → List Char
  | (none, text) => text
  | (some label, text) => label ++ sep :: text

/-- Two ways to read the same text: the label is taken for a part of the text, or the text
for a part of the label. -/
inductive Misread (sep : Char) :
    Option (List Char) × List Char → Option (List Char) × List Char → Prop where
  | unlabelled (label text : List Char) : Misread sep (none, label ++ sep :: text) (some label, text)
  | longer (label more text : List Char) :
      Misread sep (some label, more ++ sep :: text) (some (label ++ sep :: more), text)

theorem Misread.labelled_eq {p q : Option (List Char) × List Char} (h : Misread sep p q) :
    labelled sep p = labelled sep q := by
  cases h with
  | unlabelled label text => rfl
  | longer label more text => simp [labelled]

/-- **Labelled texts** are the same only when one is misread for the other. -/
theorem labelled_eq_iff {p q : Option (List Char) × List Char} :
    labelled sep p = labelled sep q ↔ p = q ∨ Misread sep p q ∨ Misread sep q p := by
  constructor
  · obtain ⟨_ | label, text⟩ := p
    · obtain ⟨_ | label', text'⟩ := q
      · exact fun h => .inl (congrArg (Prod.mk none) h)
      · rintro rfl
        exact .inr (.inl (.unlabelled label' text'))
    · obtain ⟨_ | label', text'⟩ := q
      · rintro rfl
        exact .inr (.inr (.unlabelled label text))
      · intro h
        rcases List.append_eq_append_iff.1 h with ⟨more, rfl, hrest⟩ | ⟨more, rfl, hrest⟩
        · rcases more with _ | ⟨c, more⟩
          · obtain ⟨-, rfl⟩ := List.cons.inj hrest
            exact .inl (by rw [List.append_nil])
          · obtain ⟨rfl, rfl⟩ := List.cons.inj hrest
            exact .inr (.inl (.longer label more text'))
        · rcases more with _ | ⟨c, more⟩
          · obtain ⟨-, rfl⟩ := List.cons.inj hrest
            exact .inl (by rw [List.append_nil])
          · obtain ⟨rfl, rfl⟩ := List.cons.inj hrest
            exact .inr (.inr (.longer label' more text))
  · rintro (rfl | h | h)
    · rfl
    · exact h.labelled_eq
    · exact h.labelled_eq.symm

/-! ## Strings in quotes -/

/-- Where a reader is: inside a string, behind a backslash. -/
structure Place where
  inside : Bool
  escaped : Bool
  deriving DecidableEq

def outside : Place := ⟨false, false⟩

def within : Place := ⟨true, false⟩

/-- Behind one more character. -/
def Place.step (p : Place) (c : Char) : Place :=
  if p.escaped then ⟨p.inside, false⟩
  else if c = '\\' then ⟨p.inside, true⟩
  else if c = '"' then ⟨!p.inside, false⟩
  else p

/-- Inside for outside. -/
def Place.flip (p : Place) : Place := ⟨!p.inside, p.escaped⟩

/-- Behind a text. -/
def scan (p : Place) (cs : List Char) : Place := cs.foldl Place.step p

@[simp] theorem scan_nil (p : Place) : scan p [] = p := rfl

@[simp] theorem scan_cons (p : Place) (c : Char) (cs : List Char) :
    scan p (c :: cs) = scan (p.step c) cs := rfl

@[simp] theorem scan_append (p : Place) (cs ds : List Char) :
    scan p (cs ++ ds) = scan (scan p cs) ds := by
  simp [scan]

/-- A character that is no quote and no backslash. -/
theorem Place.step_plain {inside : Bool} {c : Char} (hquote : c ≠ '"') (hslash : c ≠ '\\') :
    Place.step ⟨inside, false⟩ c = ⟨inside, false⟩ := by
  rw [Place.step, if_neg Bool.false_ne_true, if_neg hslash, if_neg hquote]

theorem Place.step_flip (p : Place) (c : Char) : p.flip.step c = (p.step c).flip := by
  obtain ⟨inside, escaped⟩ := p
  unfold Place.step Place.flip
  split_ifs <;> rfl

/-- **A reader that starts on the other side** ends on the other side. -/
theorem scan_flip (p : Place) (cs : List Char) : scan p.flip cs = (scan p cs).flip := by
  induction cs generalizing p with
  | nil => rfl
  | cons c cs ih => rw [scan_cons, scan_cons, Place.step_flip, ih]

/-- Every separator lies inside a string, and not behind a backslash. -/
def Guarded (sep : Char) : Place → List Char → Prop
  | _, [] => True
  | p, c :: cs => (c = sep → p = within) ∧ Guarded sep (p.step c) cs

@[simp] theorem guarded_append {p : Place} {cs ds : List Char} :
    Guarded sep p (cs ++ ds) ↔ Guarded sep p cs ∧ Guarded sep (scan p cs) ds := by
  induction cs generalizing p with
  | nil => simp [Guarded]
  | cons c cs ih => rw [List.cons_append, Guarded, Guarded, ih, scan_cons, and_assoc]

/-- A text that takes a reader from `p` to `p`, its separators guarded. -/
structure Closed (sep : Char) (p : Place) (cs : List Char) : Prop where
  guarded : Guarded sep p cs
  ends : scan p cs = p

theorem Closed.nil (p : Place) : Closed sep p [] := ⟨trivial, rfl⟩

theorem Closed.append {p : Place} {cs ds : List Char} (hc : Closed sep p cs)
    (hd : Closed sep p ds) : Closed sep p (cs ++ ds) where
  guarded := guarded_append.2 ⟨hc.guarded, by rw [hc.ends]; exact hd.guarded⟩
  ends := by rw [scan_append, hc.ends, hd.ends]

/-- Of two closed fields that end a text neither begins earlier: the separator of the
shorter one would lie inside a string of the longer one, which a reader would then
leave on the wrong side. -/
theorem eq_nil_of_closed {a b middle : List Char} (hsep : sep ≠ '"' ∧ sep ≠ '\\')
    (ha : Closed sep outside a) (hb : Closed sep outside b)
    (h : sep :: b = middle ++ sep :: a) : middle = [] := by
  cases middle with
  | nil => rfl
  | cons c middle =>
    obtain rfl : b = middle ++ sep :: a := (List.cons.inj h).2
    obtain ⟨-, hsplit, -⟩ := guarded_append.1 hb.guarded
    have hplace : scan outside middle = within := hsplit rfl
    have hstep : within.step sep = within := Place.step_plain hsep.1 hsep.2
    have hends := hb.ends
    rw [scan_append, hplace, scan_cons, hstep, show within = outside.flip from rfl, scan_flip,
      ha.ends] at hends
    exact absurd hends (by decide)

/-- **A closed field behind a separator** is known from the right. -/
theorem eq_of_closed {a b front front' : List Char} (hsep : sep ≠ '"' ∧ sep ≠ '\\')
    (ha : Closed sep outside a) (hb : Closed sep outside b)
    (h : front ++ sep :: a = front' ++ sep :: b) : front = front' ∧ a = b := by
  rcases List.append_eq_append_iff.1 h with ⟨middle, rfl, heq⟩ | ⟨middle, rfl, heq⟩
  · obtain rfl := eq_nil_of_closed hsep hb ha heq
    exact ⟨(List.append_nil front).symm, (List.cons.inj heq).2⟩
  · obtain rfl := eq_nil_of_closed hsep ha hb heq
    exact ⟨List.append_nil front', (List.cons.inj heq).2.symm⟩

/-! ## JSON texts -/

/-- The characters that JSON writes outside of strings, and in escapes. -/
def reserved (c : Char) : Bool :=
  isNumberChar c || ['n', 'u', 'l', 't', 'r', 'e', 'f', 'a', 's', 'b', '[', ']', '{', '}', ',', ':',
    ' ', '"', '\\'].contains c

section

variable (hsep : reserved sep = false)

include hsep

theorem ne_of_reserved {c : Char} (h : reserved c = true) : c ≠ sep := by
  rintro rfl
  exact nomatch h.symm.trans hsep

/-- Reserved characters other than the quote and the backslash. -/
theorem closed_of_reserved {inside : Bool} {cs : List Char}
    (h : ∀ c ∈ cs, reserved c = true ∧ c ≠ '"' ∧ c ≠ '\\') : Closed sep ⟨inside, false⟩ cs := by
  induction cs with
  | nil => exact .nil _
  | cons c cs ih =>
    obtain ⟨hc, hquote, hslash⟩ := h c List.mem_cons_self
    have hrest := ih fun d hd => h d (List.mem_cons_of_mem c hd)
    have hstep : Place.step ⟨inside, false⟩ c = ⟨inside, false⟩ := Place.step_plain hquote hslash
    refine ⟨⟨fun heq => absurd heq (ne_of_reserved hsep hc), ?_⟩, ?_⟩
    · rw [hstep]
      exact hrest.guarded
    · rw [scan_cons, hstep]
      exact hrest.ends

/-- A character of a string, as it is written there. -/
theorem closed_escape (c : Char) : Closed sep within (escape c) := by
  have hsame : ∀ d : Char, d ≠ '"' → d ≠ '\\' → within.step d = within := fun d =>
    Place.step_plain
  have hescaped : ∀ d : Char, Place.step ⟨true, true⟩ d = within := fun d => if_pos rfl
  have hslash : '\\' ≠ sep := ne_of_reserved hsep (by decide)
  unfold escape
  cases hshort : shortEscapes.lookup c with
  | some letter =>
    have hletter : reserved letter = true := by
      have hmem : (c, letter) ∈ shortEscapes := by
        obtain ⟨before, after, heq, -⟩ := List.lookup_eq_some_iff.1 hshort
        rw [heq]
        exact List.mem_append_right _ List.mem_cons_self
      have hall : ∀ p ∈ shortEscapes, reserved p.2 = true := by decide
      exact hall _ hmem
    refine ⟨⟨fun h => absurd h hslash, fun h => absurd h (ne_of_reserved hsep hletter), trivial⟩, ?_⟩
    exact hescaped letter
  | none =>
    obtain ⟨hquote, hslash'⟩ := ne_of_lookup_none hshort
    by_cases hcontrol : c.toNat < 32
    · have hdigit : ∀ n < 16, Nat.digitChar n ≠ '"' ∧ Nat.digitChar n ≠ '\\' := by decide
      obtain ⟨hhigh, hhigh'⟩ := hdigit (c.toNat / 16) (by omega)
      obtain ⟨hlow, hlow'⟩ := hdigit (c.toNat % 16) (by omega)
      have hu : 'u' ≠ sep := ne_of_reserved hsep (by decide)
      simp only [if_pos hcontrol]
      have hcode : (within.step '\\').step 'u' = within := by decide
      have hdigits : Closed sep within
          ['0', '0', Nat.digitChar (c.toNat / 16), Nat.digitChar (c.toNat % 16)] := by
        have hzero : within.step '0' = within := by decide
        refine ⟨?_, ?_⟩
        · simp only [Guarded, hzero, hsame _ hhigh hhigh', implies_true, and_true]
        · rw [scan_cons, hzero, scan_cons, hzero, scan_cons, hsame _ hhigh hhigh', scan_cons,
            hsame _ hlow hlow', scan_nil]
      refine ⟨⟨fun h => absurd h hslash, fun h => absurd h hu, ?_⟩, ?_⟩
      · rw [hcode]
        exact hdigits.guarded
      · rw [scan_cons, scan_cons, hcode]
        exact hdigits.ends
    · simp only [if_neg hcontrol]
      exact ⟨⟨fun _ => rfl, trivial⟩, hsame c hquote hslash'⟩

/-- A string in quotes. -/
theorem closed_quote (s : String) : Closed sep outside (quote s) := by
  have hchars : Closed sep within (s.toList.flatMap escape) := by
    induction s.toList with
    | nil => exact .nil _
    | cons c cs ih =>
      rw [List.flatMap_cons]
      exact (closed_escape hsep c).append ih
  have hquote : '"' ≠ sep := ne_of_reserved hsep (by decide)
  have hopen : outside.step '"' = within := by decide
  have hclose : within.step '"' = outside := by decide
  refine ⟨⟨fun h => absurd h hquote, ?_⟩, ?_⟩
  · rw [hopen, guarded_append]
    exact ⟨hchars.guarded, fun h => absurd h hquote, trivial⟩
  · rw [quote, scan_cons, hopen, scan_append, hchars.ends]
    exact hclose

theorem closed_blanks (gap : ℕ) : Closed sep outside (List.replicate gap ' ') := by
  refine closed_of_reserved hsep fun c hc => ?_
  rw [List.eq_of_mem_replicate hc]
  decide

/-- A comma or a colon, with the blanks behind it. -/
theorem closed_separator {c : Char} (hc : c = ',' ∨ c = ':') (gap : ℕ) {cs : List Char}
    (h : Closed sep outside cs) :
    Closed sep outside (c :: (List.replicate gap ' ' ++ cs)) := by
  have hfirst : Closed sep outside [c] := by
    refine closed_of_reserved hsep fun d hd => ?_
    rw [List.mem_singleton.1 hd]
    rcases hc with rfl | rfl <;> decide
  exact hfirst.append ((closed_blanks hsep gap).append h)

/-- A text in brackets. -/
theorem closed_brackets {c d : Char} (hc : c = '[' ∧ d = ']' ∨ c = '{' ∧ d = '}') {cs : List Char}
    (h : Closed sep outside cs) : Closed sep outside (c :: (cs ++ [d])) := by
  have hone : ∀ e : Char, e = c ∨ e = d → Closed sep outside [e] := by
    intro e he
    refine closed_of_reserved hsep fun d hd => ?_
    rw [List.mem_singleton.1 hd]
    rcases hc with ⟨rfl, rfl⟩ | ⟨rfl, rfl⟩ <;> rcases he with rfl | rfl <;> decide
  exact (hone c (Or.inl rfl)).append (h.append (hone d (Or.inr rfl)))

/-- **The text of a JSON value** is closed. -/
theorem closed_write (gap : ℕ) (v : Json) : Closed sep outside (write gap v) := by
  refine @Json.rec (fun v => Closed sep outside (write gap v))
    (fun items => Closed sep outside (writeItems gap items))
    (fun members => Closed sep outside (writeMembers gap members))
    (fun p => Closed sep outside (write gap p.2))
    ?null ?bool ?number ?string ?array ?object ?nil ?cons ?nilMember ?consMember ?pair v
  case null =>
    have hnull : ∀ c ∈ ['n', 'u', 'l', 'l'], reserved c = true ∧ c ≠ '"' ∧ c ≠ '\\' := by
      simp [reserved]
    exact closed_of_reserved hsep hnull
  case bool =>
    have htrue : ∀ c ∈ ['t', 'r', 'u', 'e'], reserved c = true ∧ c ≠ '"' ∧ c ≠ '\\' := by
      simp [reserved]
    have hfalse : ∀ c ∈ ['f', 'a', 'l', 's', 'e'], reserved c = true ∧ c ≠ '"' ∧ c ≠ '\\' := by
      simp [reserved]
    intro b
    cases b with
    | true => exact closed_of_reserved hsep htrue
    | false => exact closed_of_reserved hsep hfalse
  case number =>
    intro n
    refine closed_of_reserved hsep fun c hc => ?_
    have hnumber : isNumberChar c = true := List.all_eq_true.1 n.wellFormed c hc
    refine ⟨by rw [reserved, hnumber, Bool.true_or], ?_, ?_⟩ <;> rintro rfl <;>
      simp [isNumberChar] at hnumber
  case string => exact fun s => closed_quote hsep s
  case array =>
    intro items hitems
    rw [write]
    exact closed_brackets hsep (Or.inl ⟨rfl, rfl⟩) hitems
  case object =>
    intro members hmembers
    rw [write]
    exact closed_brackets hsep (Or.inr ⟨rfl, rfl⟩) hmembers
  case nil => exact .nil _
  case cons =>
    intro w items hw hitems
    cases items with
    | nil => exact hw
    | cons w' items =>
      rw [writeItems]
      exact hw.append (closed_separator hsep (Or.inl rfl) gap hitems)
  case nilMember => exact .nil _
  case consMember =>
    rintro ⟨key, w⟩ members hw hmembers
    cases members with
    | nil => exact (closed_quote hsep key).append (closed_separator hsep (Or.inr rfl) gap hw)
    | cons m members =>
      rw [writeMembers]
      exact (closed_quote hsep key).append (closed_separator hsep (Or.inr rfl) gap
        (hw.append (closed_separator hsep (Or.inl rfl) gap hmembers)))
  case pair => exact fun key w hw => hw

end

end Delimited
