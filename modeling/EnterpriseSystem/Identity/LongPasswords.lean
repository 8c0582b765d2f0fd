import EnterpriseSystem.Base.Unicode
import EnterpriseSystem.Identity.Credentials
import EnterpriseSystem.Identity.UserDomainService

/-!
# Long passwords

`Password` takes up to 128 UTF-16 units; `bcryptjs`, which `PasswordHasherImpl` calls,
reads 72 bytes.

* `Bcryptjs` — what the hasher relies on.
* `Distinguishes` — one password does not pass for the other.
* `distinguishes_iff` — which is so exactly when the first 72 bytes differ.
* `distinguishes_of_short`, `not_distinguishes_append` — so passwords of at most 72 bytes
  are distinguished, and nothing behind 72 bytes is noticed.
-/

namespace EnterpriseSystem.Identity

open Objects Relational Concurrency UserDomainService Unicode

/-- The bytes that `bcryptjs` reads of a text. -/
def bcryptInput (plainText : String) : Bytes := (utf8 plainText.toList).take 72

/-- **What is relied on of `bcryptjs`**: a hash is an injective function of the salt and the
bytes that are read, and `compare` hashes again under the salt of the hash. -/
structure Bcryptjs (host : Host) (crypt : String → Bytes → String) : Prop where
  hash : ∀ plain salt, host.bcryptHash plain salt = crypt salt (bcryptInput plain)
  compare : ∀ plain salt bs,
    host.bcryptCompare plain (crypt salt bs) = decide (host.bcryptHash plain salt = crypt salt bs)
  injective : ∀ salt salt' bs bs', crypt salt bs = crypt salt' bs' → salt = salt' ∧ bs = bs'
  nonempty : ∀ salt bs, crypt salt bs ≠ ""

/-- **`compare(q, hash(p))` is false**, under every salt. -/
def Distinguishes (host : Host) (p q : String) : Prop :=
  ∀ (w w' : UserWorld) (hashed : String),
    (Task.run (UserOp.exec host) (PasswordHasherImpl.hash p) w).1 = .ok hashed →
    (Task.run (UserOp.exec host) (PasswordHasherImpl.compare q hashed) w').1 = .ok false

section

variable {host : Host} {crypt : String → Bytes → String} {p q : String} {password password' : Password}

/-- The hasher takes every text that is not empty. -/
theorem distinguishes_iff_of_ne (h : Bcryptjs host crypt) (hp : p ≠ "") (hq : q ≠ "") :
    Distinguishes host p q ↔ bcryptInput p ≠ bcryptInput q := by
  -- a comparison with a hash of the one is a comparison of the bytes
  have hcompare : ∀ salt, host.bcryptCompare q (host.bcryptHash p salt) =
      decide (bcryptInput p = bcryptInput q) := by
    intro salt
    rw [h.hash, h.compare, h.hash, decide_eq_decide]
    exact ⟨fun heq => (h.injective _ _ _ _ heq).2.symm, fun heq => by rw [heq]⟩
  have hne : ∀ salt, host.bcryptHash p salt ≠ "" := fun salt => by
    rw [h.hash]
    exact h.nonempty _ _
  constructor
  · intro hdist hsame
    have hfalse := hdist (calmWorld emptyDb) (calmWorld emptyDb) (host.bcryptHash p "$2a$12$") (by
      rw [run_hash, if_neg hp]
      rfl)
    rw [run_compare, if_neg hq, if_neg (hne _), hcompare, hsame] at hfalse
    exact absurd hfalse (by simp [calmWorld, UserWorld.down])
  · intro hdiffer w w' hashed hhashed
    rw [run_hash, if_neg hp] at hhashed
    split_ifs at hhashed
    obtain rfl := Except.ok.inj hhashed
    rw [run_compare, if_neg hq, if_neg (hne _), hcompare, decide_eq_false hdiffer, Bool.and_false]

/-- The bytes of a text tell it. -/
theorem utf8_toList_injective {s s' : String} (h : utf8 s.toList = utf8 s'.toList) : s = s' := by
  have hback := congrArg fromUtf8 h
  rw [fromUtf8_utf8, fromUtf8_utf8] at hback
  exact String.toList_inj.1 hback

/-- **Short passwords** are distinguished. -/
theorem distinguishes_of_short (h : Bcryptjs host crypt) (hp : Password.create p = .ok password)
    (hq : Password.create q = .ok password') (hne : p ≠ q) (hshort : (utf8 p.toList).length ≤ 72)
    (hshort' : (utf8 q.toList).length ≤ 72) : Distinguishes host p q := by
  rw [distinguishes_iff_of_ne h (Password.create_eq_ok hp).1 (Password.create_eq_ok hq).1]
  intro hsame
  rw [bcryptInput, bcryptInput, List.take_of_length_le hshort, List.take_of_length_le hshort']
    at hsame
  exact hne (utf8_toList_injective hsame)

/-- **What follows 72 bytes** is not noticed. -/
theorem not_distinguishes_append (h : Bcryptjs host crypt) (hp : Password.create p = .ok password)
    (more : String) (hq : Password.create (p ++ more) = .ok password')
    (hlong : 72 ≤ (utf8 p.toList).length) : ¬ Distinguishes host p (p ++ more) := by
  have hbytes : utf8 (p ++ more).toList = utf8 p.toList ++ utf8 more.toList := by
    rw [String.toList_append, utf8, List.flatMap_append]
    rfl
  rw [distinguishes_iff_of_ne h (Password.create_eq_ok hp).1 (Password.create_eq_ok hq).1, not_not,
    bcryptInput, bcryptInput, hbytes, List.take_append_of_le_length hlong]

/-- **Two accepted passwords** are distinguished exactly when their first 72 bytes differ. -/
theorem distinguishes_iff (h : Bcryptjs host crypt) (hp : Password.create p = .ok password)
    (hq : Password.create q = .ok password') :
    Distinguishes host p q ↔ bcryptInput p ≠ bcryptInput q :=
  distinguishes_iff_of_ne h (Password.create_eq_ok hp).1 (Password.create_eq_ok hq).1

end

/-! ## Two pairs of passwords -/

/-- A salt, and the hashes of two passwords under it. -/
def sampleSalt : String := "$2a$12$R9h/cIPz0gi.URNNX3kh2O"

def passHash : String := "$2a$12$R9h/cIPz0gi.URNNX3kh2ONDJzO5GA3joGAkdFEGEcQ2ikHCX0.Ja"

def pastHash : String := "$2a$12$R9h/cIPz0gi.URNNX3kh2OR7o0wS/bTvd92w1Hd4yVuXa2KuTNxe6"

/-- The salt and the bytes, behind each other. -/
def spelledHash (salt : String) (bs : Bytes) : String :=
  String.ofList (salt.toList ++ '$' :: (bs.map fun b => Char.ofNat (256 + b.toNat)) ++ ['$'])

/-- Hashes as they are for these two passwords. -/
def sampleCrypt (salt : String) (bs : Bytes) : String :=
  if salt = sampleSalt ∧ bs = bcryptInput "Str0ng!Pass" then passHash
  else if salt = sampleSalt ∧ bs = bcryptInput "Str0ng!Past" then pastHash
  else spelledHash salt bs

/-- The salt of a hash. -/
def saltOfHash (hashed : String) : String :=
  if hashed = passHash ∨ hashed = pastHash then sampleSalt
  else String.ofList (hashed.toList.dropLast.rdropWhile (· != '$')).dropLast

/-- A host that hashes these two passwords as they are hashed. -/
def sampleHost : Host where
  toLowerCase := lowerAscii
  bcryptHash plain salt := sampleCrypt salt (bcryptInput plain)
  bcryptCompare plain hashed := sampleCrypt (saltOfHash hashed) (bcryptInput plain) == hashed

theorem toNat_ofNat_byte (b : UInt8) : (Char.ofNat (256 + b.toNat)).toNat = 256 + b.toNat :=
  toNat_ofNat_of_scalar (by have := b.toNat_lt; omega)

/-- A spelled hash ends in a sign that the others do not end in. -/
theorem spelledHash_ne {salt : String} {bs : Bytes} :
    spelledHash salt bs ≠ passHash ∧ spelledHash salt bs ≠ pastHash := by
  have hlast : (spelledHash salt bs).toList.getLast? = some '$' := by
    rw [spelledHash, String.toList_ofList, List.getLast?_append]
    rfl
  constructor <;> intro h <;> rw [h] at hlast <;> exact absurd hlast (by decide +kernel)

theorem saltOfHash_spelledHash (salt : String) (bs : Bytes) :
    saltOfHash (spelledHash salt bs) = salt := by
  have hbytes : ∀ c ∈ (bs.map fun b => Char.ofNat (256 + b.toNat)).reverse, (c != '$') = true := by
    intro c hc
    obtain ⟨b, -, rfl⟩ := List.mem_map.1 (List.mem_reverse.1 hc)
    have hne : Char.ofNat (256 + b.toNat) ≠ '$' := fun h => by
      have hnat := congrArg Char.toNat h
      rw [toNat_ofNat_byte] at hnat
      exact absurd hnat (by simp; omega)
    simpa using hne
  have hdrop : (salt.toList ++ '$' :: (bs.map fun b => Char.ofNat (256 + b.toNat))).rdropWhile
      (· != '$') = salt.toList ++ ['$'] := by
    rw [List.rdropWhile, List.reverse_append, List.reverse_cons, List.append_assoc,
      List.dropWhile_append_of_pos hbytes]
    simp
  rw [saltOfHash, if_neg (not_or.2 spelledHash_ne), spelledHash, String.toList_ofList,
    List.dropLast_concat, hdrop, List.dropLast_concat, String.ofList_toList]

theorem spelledHash_injective {salt : String} {bs bs' : Bytes}
    (h : spelledHash salt bs = spelledHash salt bs') : bs = bs' := by
  have hlists := String.ofList_inj.1 h
  rw [List.append_cancel_right_eq, List.append_cancel_left_eq, List.cons.injEq] at hlists
  refine List.map_injective_iff.2 (fun b b' hb => ?_) hlists.2
  have hnat := congrArg Char.toNat hb
  rw [toNat_ofNat_byte, toNat_ofNat_byte] at hnat
  exact UInt8.toNat_inj.1 (by omega)

/-- What `sampleCrypt` gives. -/
theorem sampleCrypt_cases (salt : String) (bs : Bytes) :
    salt = sampleSalt ∧ bs = bcryptInput "Str0ng!Pass" ∧ sampleCrypt salt bs = passHash ∨
      salt = sampleSalt ∧ bs = bcryptInput "Str0ng!Past" ∧ sampleCrypt salt bs = pastHash ∨
      sampleCrypt salt bs = spelledHash salt bs := by
  unfold sampleCrypt
  by_cases hpass : salt = sampleSalt ∧ bs = bcryptInput "Str0ng!Pass"
  · exact .inl ⟨hpass.1, hpass.2, if_pos hpass⟩
  · by_cases hpast : salt = sampleSalt ∧ bs = bcryptInput "Str0ng!Past"
    · exact .inr (.inl ⟨hpast.1, hpast.2, by rw [if_neg hpass, if_pos hpast]⟩)
    · exact .inr (.inr (by rw [if_neg hpass, if_neg hpast]))

theorem saltOfHash_sampleCrypt (salt : String) (bs : Bytes) :
    saltOfHash (sampleCrypt salt bs) = salt := by
  rcases sampleCrypt_cases salt bs with ⟨rfl, -, h⟩ | ⟨rfl, -, h⟩ | h
  · rw [h]
    exact if_pos (.inl rfl)
  · rw [h]
    exact if_pos (.inr rfl)
  · rw [h, saltOfHash_spelledHash]

theorem bcryptjs_sampleHost : Bcryptjs sampleHost sampleCrypt where
  hash _ _ := rfl
  compare plain salt bs := by
    show (sampleCrypt (saltOfHash (sampleCrypt salt bs)) (bcryptInput plain) == _) = _
    rw [saltOfHash_sampleCrypt]
    rfl
  injective salt salt' bs bs' h := by
    have hsalt : salt = salt' := by
      rw [← saltOfHash_sampleCrypt salt bs, h, saltOfHash_sampleCrypt]
    subst hsalt
    have hdiffer : passHash ≠ pastHash := by decide
    refine ⟨rfl, ?_⟩
    rcases sampleCrypt_cases salt bs with ⟨-, hbs, hc⟩ | ⟨-, hbs, hc⟩ | hc <;>
      rcases sampleCrypt_cases salt bs' with ⟨-, hbs', hc'⟩ | ⟨-, hbs', hc'⟩ | hc' <;>
      rw [hc, hc'] at h
    · rw [hbs, hbs']
    · exact absurd h hdiffer
    · exact absurd h.symm spelledHash_ne.1
    · exact absurd h.symm hdiffer
    · rw [hbs, hbs']
    · exact absurd h.symm spelledHash_ne.2
    · exact absurd h spelledHash_ne.1
    · exact absurd h spelledHash_ne.2
    · exact spelledHash_injective h
  nonempty salt bs := by
    rcases sampleCrypt_cases salt bs with ⟨-, -, h⟩ | ⟨-, -, h⟩ | h
    · rw [h]
      decide
    · rw [h]
      decide
    · rw [h]
      intro hempty
      have hlist := congrArg String.toList hempty
      simp [spelledHash] at hlist

/-- Two short passwords are distinguished. -/
theorem distinguishes_sample : Distinguishes sampleHost "Str0ng!Pass" "Str0ng!Past" :=
  (distinguishes_iff bcryptjs_sampleHost (p := "Str0ng!Pass") (q := "Str0ng!Past") (by rfl)
    (by rfl)).2 (by decide +kernel)

/-- A password of 73 characters. -/
def longPassword (last : Char) : String :=
  String.ofList ("Aa1!".toList ++ List.replicate 68 'a' ++ [last])

/-- **Two accepted passwords** of 73 characters that differ in the last one pass for each
other. -/
theorem not_distinguishes :
    ¬ ∀ (host : Host) (crypt : String → Bytes → String) (p q : String) (password password' : Password),
      Bcryptjs host crypt → Password.create p = .ok password → Password.create q = .ok password' →
      p ≠ q → Distinguishes host p q := by
  intro h
  have hdist := h sampleHost sampleCrypt (longPassword 'x') (longPassword 'y') _ _
    bcryptjs_sampleHost (by rfl) (by rfl) (by decide +kernel)
  rw [distinguishes_iff_of_ne bcryptjs_sampleHost (by decide +kernel) (by decide +kernel)] at hdist
  exact hdist (by decide +kernel)

end EnterpriseSystem.Identity
