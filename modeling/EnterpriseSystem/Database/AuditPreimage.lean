import EnterpriseSystem.Base.Delimited
import EnterpriseSystem.Database.Security

/-!
# The text that the audit hash is taken of

`write_audit_log` joins the columns of a row by `'|'`, which the name of the table and
the strings of the data may contain.

* `AuditTuple`, `AuditTuple.preimage` — what is hashed, and its text.
* `auditPreimage_eq` — it is the text that `write_audit_log` takes the hash of.
* `preimage_injective` — the text tells the tuple: the actor and the action are read
  from the left, the time, the previous hash, the data and the record from the right,
  and the name of the table is what is left.
-/

namespace EnterpriseSystem

open JsonText Delimited

/-! ## Tuples -/

/-- A SHA-256 hash in hexadecimal. -/
structure HexDigest where
  text : String
  length : text.length = 64
  digits : ∀ c ∈ text.toList, c ∈ ['0', '1', '2', '3', '4', '5', '6', '7', '8', '9', 'a', 'b', 'c',
    'd', 'e', 'f']

/-- The text of a `TIMESTAMPTZ`. -/
structure TimestampText where
  text : String
  noSeparator : '|' ∉ text.toList

/-- What the hash of a row covers. -/
@[ext] structure AuditTuple where
  actor : Option Uuid
  action : AuditAction
  tableName : String
  recordId : Option Uuid
  oldData : Option Json
  newData : Option Json
  prevHash : Option HexDigest
  timestamp : TimestampText

/-- `value::text` of a `JSONB`: PostgreSQL writes a blank behind every comma and colon. -/
def jsonbText (value : Json) : String := String.ofList (write 1 value)

/-- `COALESCE(value::text, '')`. -/
def orEmpty {α : Type} (text : α → String) (value : Option α) : String := (value.map text).getD ""

/-- The concatenation in `write_audit_log`. -/
def AuditTuple.preimage (t : AuditTuple) : String :=
  orEmpty Uuid.text t.actor ++ "|" ++ t.action.label ++ "|" ++ t.tableName ++ "|" ++
    orEmpty Uuid.text t.recordId ++ "|" ++ orEmpty jsonbText t.oldData ++ "|" ++
      orEmpty jsonbText t.newData ++ "|" ++ orEmpty HexDigest.text t.prevHash ++ "|" ++
        t.timestamp.text

/-- The text of `write_audit_log` is the one of the tuple, where the texts of the data
and of the time are. -/
theorem auditPreimage_eq {ctx : Context} {uid : Uuid} {oldData newData : Option JsonObject}
    {t : AuditTuple} (hactor : t.actor = some uid)
    (hold : orEmpty ctx.server.jsonbText oldData = orEmpty jsonbText t.oldData)
    (hnew : orEmpty ctx.server.jsonbText newData = orEmpty jsonbText t.newData)
    (htime : ctx.server.timestampText ctx.now = t.timestamp.text) :
    auditPreimage ctx uid t.action t.tableName t.recordId oldData newData
      (t.prevHash.map HexDigest.text) = t.preimage := by
  have hrecord : formatUuid t.recordId = orEmpty Uuid.text t.recordId := by
    cases t.recordId <;> rfl
  have huid : orEmpty Uuid.text t.actor = uid.text := by rw [hactor]; rfl
  unfold AuditTuple.preimage
  rw [← hold, ← hnew, ← htime, ← hrecord, huid]
  rfl

/-! ## Texts of the fields -/

/-- A number is known from its hexadecimal digits. -/
theorem eq_of_digits {n a b : ℕ} (ha : a < 16 ^ n) (hb : b < 16 ^ n)
    (h : ∀ i < n, a / 16 ^ i % 16 = b / 16 ^ i % 16) : a = b := by
  induction n generalizing a b with
  | zero => omega
  | succ n ih =>
    have hlow := h 0 (Nat.succ_pos n)
    have hhigh : a / 16 = b / 16 := by
      refine ih (by omega) (by omega) fun i hi => ?_
      have hdigit := h (i + 1) (Nat.succ_lt_succ hi)
      rwa [Nat.pow_succ, Nat.mul_comm, ← Nat.div_div_eq_div_mul, ← Nat.div_div_eq_div_mul] at hdigit
    rw [Nat.pow_zero, Nat.div_one, Nat.div_one] at hlow
    omega

theorem digitChar_ne_hyphen : ∀ n < 16, Nat.digitChar n ≠ '-' ∧ Nat.digitChar n ≠ '|' := by decide

theorem digitChar_injective : ∀ n < 16, ∀ m < 16, Nat.digitChar n = Nat.digitChar m → n = m := by
  decide

/-- The digits of a UUID are no hyphens and no separators. -/
theorem ne_of_mem_hexDigits {u : Uuid} {c : Char} (h : c ∈ u.hexDigits) : c ≠ '-' ∧ c ≠ '|' := by
  obtain ⟨i, -, rfl⟩ := List.mem_map.1 h
  exact digitChar_ne_hyphen _ (Nat.mod_lt _ (by omega))

/-- The text of a UUID without its hyphens. -/
theorem filter_text (u : Uuid) : u.text.toList.filter (· ≠ '-') = u.hexDigits := by
  have hall : ∀ l : List Char, l ⊆ u.hexDigits → l.filter (· ≠ '-') = l := fun l hl =>
    List.filter_eq_self.2 fun c hc => decide_eq_true (ne_of_mem_hexDigits (hl hc)).1
  have hgroup : ∀ i, ((u.hexDigits.drop i).take 4).filter (· ≠ '-') = (u.hexDigits.drop i).take 4 :=
    fun i => hall _ fun c hc => List.mem_of_mem_drop (List.mem_of_mem_take hc)
  have hnext : ∀ i, (u.hexDigits.drop i).take 4 ++ u.hexDigits.drop (i + 4) = u.hexDigits.drop i :=
    fun i => by rw [← List.drop_drop, List.take_append_drop]
  rw [Uuid.text, String.toList_ofList]
  simp only [List.filter_append, List.filter_cons, ne_eq, not_true_eq_false, decide_false,
    Bool.false_eq_true, if_false]
  rw [hgroup 8, hgroup 12, hgroup 16, hall _ fun c hc => List.mem_of_mem_take hc,
    hall _ fun c hc => List.mem_of_mem_drop hc]
  rw [List.append_assoc, List.append_assoc, List.append_assoc, hnext 16, hnext 12, hnext 8,
    List.take_append_drop]

/-- **A UUID** is known from its text. -/
theorem Uuid.text_injective : Function.Injective Uuid.text := by
  intro u v h
  have hdigits : u.hexDigits = v.hexDigits := by rw [← filter_text, ← filter_text, h]
  refine BitVec.eq_of_toNat_eq (eq_of_digits (n := 32) u.isLt v.isLt fun i hi => ?_)
  have hplace : Nat.digitChar (u.toNat / 16 ^ i % 16) = Nat.digitChar (v.toNat / 16 ^ i % 16) := by
    have hget := congrArg (fun l => l[31 - i]?) hdigits
    simpa [Uuid.hexDigits, show 31 - i < 32 by omega, show 31 - (31 - i) = i by omega] using hget
  exact digitChar_injective _ (Nat.mod_lt _ (by omega)) _ (Nat.mod_lt _ (by omega)) hplace

/-- A UUID has no separator, and is not empty. -/
theorem Uuid.separator_not_mem_text (u : Uuid) : '|' ∉ u.text.toList ∧ u.text ≠ "" := by
  have hhyphen : '-' ∈ u.text.toList := by simp [Uuid.text]
  refine ⟨fun h => ?_, fun h => by simp [h] at hhyphen⟩
  have hdigit : '|' ∈ u.hexDigits := by
    rw [← filter_text]
    exact List.mem_filter.2 ⟨h, by decide⟩
  exact (ne_of_mem_hexDigits hdigit).2 rfl

theorem AuditAction.label_injective : Function.Injective AuditAction.label := by
  intro a b h
  cases a <;> cases b <;> first | rfl | exact absurd h (by decide +kernel)

theorem AuditAction.separator_not_mem_label (a : AuditAction) : '|' ∉ a.label.toList := by
  cases a <;> decide +kernel

theorem HexDigest.text_injective : Function.Injective HexDigest.text := by
  rintro ⟨text, _, _⟩ ⟨_, _, _⟩ rfl
  rfl

theorem HexDigest.separator_not_mem_text (d : HexDigest) : '|' ∉ d.text.toList ∧ d.text ≠ "" := by
  refine ⟨fun h => absurd (d.digits _ h) (by decide), fun h => ?_⟩
  have hlength := d.length
  rw [h] at hlength
  exact nomatch hlength

theorem TimestampText.text_injective : Function.Injective TimestampText.text := by
  rintro ⟨text, _⟩ ⟨_, _⟩ rfl
  rfl

theorem jsonbText_injective : Function.Injective jsonbText := by
  intro v w h
  exact write_injective 1 (String.ofList_injective h)

theorem jsonbText_ne_empty (v : Json) : jsonbText v ≠ "" := by
  obtain ⟨c, cs, hw, -⟩ := write_head 1 v
  intro h
  have hlist := congrArg String.toList h
  rw [jsonbText, String.toList_ofList, hw] at hlist
  exact nomatch hlist

section

variable {α : Type} {text : α → String}

/-- `NULL` is told from every value whose text is not empty. -/
theorem orEmpty_injective (htext : Function.Injective text) (hne : ∀ a, text a ≠ "") :
    Function.Injective (orEmpty text) := by
  intro x y h
  cases x with
  | none =>
    cases y with
    | none => rfl
    | some b => exact absurd h.symm (hne b)
  | some a =>
    cases y with
    | none => exact absurd h (hne a)
    | some b => exact congrArg some (htext h)

theorem separator_not_mem_orEmpty (htext : ∀ a, '|' ∉ (text a).toList) (x : Option α) :
    '|' ∉ (orEmpty text x).toList := by
  cases x with
  | none => simp [orEmpty]
  | some a => exact htext a

end

/-- The text of some data, or of none, ends outside of strings. -/
theorem closed_orEmpty (x : Option Json) : Closed '|' outside (orEmpty jsonbText x).toList := by
  cases x with
  | none => exact .nil _
  | some v =>
    show Closed '|' outside (jsonbText v).toList
    rw [jsonbText, String.toList_ofList]
    exact closed_write (by decide) 1 v

/-! ## The tuple of a text -/

/-- What follows the actor and the action. -/
def AuditTuple.behindAction (t : AuditTuple) : List Char :=
  ((((t.tableName.toList ++ '|' :: (orEmpty Uuid.text t.recordId).toList) ++
    '|' :: (orEmpty jsonbText t.oldData).toList) ++ '|' :: (orEmpty jsonbText t.newData).toList) ++
      '|' :: (orEmpty HexDigest.text t.prevHash).toList) ++ '|' :: t.timestamp.text.toList

theorem toList_preimage (t : AuditTuple) : t.preimage.toList =
    (orEmpty Uuid.text t.actor).toList ++ '|' :: (t.action.label.toList ++ '|' :: t.behindAction) := by
  have hbar : "|".toList = ['|'] := rfl
  simp [AuditTuple.preimage, AuditTuple.behindAction, hbar]

/-- **The text tells the tuple.** -/
theorem preimage_injective : Function.Injective AuditTuple.preimage := by
  intro t t' h
  have hchars := congrArg String.toList h
  rw [toList_preimage, toList_preimage] at hchars
  -- from the left: the actor and the action
  obtain ⟨hactor, hchars⟩ := eq_of_first
    (separator_not_mem_orEmpty (fun u => u.separator_not_mem_text.1) t.actor)
    (separator_not_mem_orEmpty (fun u => u.separator_not_mem_text.1) t'.actor) hchars
  obtain ⟨haction, hchars⟩ := eq_of_first t.action.separator_not_mem_label
    t'.action.separator_not_mem_label hchars
  -- from the right: the time, the previous hash, the data and the record
  obtain ⟨hchars, htime⟩ := eq_of_last t.timestamp.noSeparator t'.timestamp.noSeparator hchars
  obtain ⟨hchars, hprev⟩ := eq_of_last
    (separator_not_mem_orEmpty (fun d => d.separator_not_mem_text.1) t.prevHash)
    (separator_not_mem_orEmpty (fun d => d.separator_not_mem_text.1) t'.prevHash) hchars
  have hsep : '|' ≠ '"' ∧ '|' ≠ '\\' := by decide
  obtain ⟨hchars, hnew⟩ := eq_of_closed hsep (closed_orEmpty t.newData) (closed_orEmpty t'.newData)
    hchars
  obtain ⟨hchars, hold⟩ := eq_of_closed hsep (closed_orEmpty t.oldData) (closed_orEmpty t'.oldData)
    hchars
  obtain ⟨htable, hrecord⟩ := eq_of_last
    (separator_not_mem_orEmpty (fun u => u.separator_not_mem_text.1) t.recordId)
    (separator_not_mem_orEmpty (fun u => u.separator_not_mem_text.1) t'.recordId) hchars
  have huuid : Function.Injective (orEmpty Uuid.text) :=
    orEmpty_injective Uuid.text_injective fun u => u.separator_not_mem_text.2
  have hdata : Function.Injective (orEmpty jsonbText) :=
    orEmpty_injective jsonbText_injective jsonbText_ne_empty
  have hdigest : Function.Injective (orEmpty HexDigest.text) :=
    orEmpty_injective HexDigest.text_injective fun d => d.separator_not_mem_text.2
  exact AuditTuple.ext (huuid (String.toList_inj.1 hactor))
    (AuditAction.label_injective (String.toList_inj.1 haction)) (String.toList_inj.1 htable)
    (huuid (String.toList_inj.1 hrecord)) (hdata (String.toList_inj.1 hold))
    (hdata (String.toList_inj.1 hnew)) (hdigest (String.toList_inj.1 hprev))
    (TimestampText.text_injective (String.toList_inj.1 htime))

end EnterpriseSystem
