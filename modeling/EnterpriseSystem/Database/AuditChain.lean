import EnterpriseSystem.Base.HashChain
import EnterpriseSystem.Database.AuditSections

/-!
# The audit log as a hash chain

A row of the audit log names its predecessor by its hash, which
`write_audit_log` looks up by `created_at`, the time at which its call started.
The log is one chain when the row found is the row written last, which neither
ties nor calls that run at once guarantee.

* `IsCollisionFree` — what the calls rely on about SHA-256; a linked log of sealed
  rows is then a chain (`isChain_of_linked`).
* `Continues` — the rows a call has written continue the committed log.
* `AuditsInTurn` — the condition on a run: lookups find the last row, and no call
  commits rows while another is between its lookup and its end.
* `auditLog_isChain` — the log is a chain along such runs; `not_auditLog_isChain`
  — a single transfer that breaks it.
-/

namespace EnterpriseSystem

open Relational Concurrency HashChain

/-! ## What a row hash binds -/

/-- What the calls rely on about `encode(digest(s, 'sha256'), 'hex')`: no two
texts have one digest, and a digest is a text of hexadecimal digits. -/
structure IsCollisionFree (digest : String → String) : Prop where
  injective : Function.Injective digest
  nonempty : ∀ s, digest s ≠ ""
  hex : ∀ s, '|' ∉ (digest s).toList

/-- What comes after the last separator is determined by the text. -/
theorem append_cons_inj {α : Type} {x x' y y' : List α} {c : α} (hy : c ∉ y) (hy' : c ∉ y')
    (h : x ++ c :: y = x' ++ c :: y') : x = x' ∧ y = y' := by
  rcases List.append_eq_append_iff.1 h with ⟨z, rfl, hz⟩ | ⟨z, rfl, hz⟩
  · cases z with
    | nil => simpa using hz
    | cons d z =>
      obtain ⟨rfl, rfl⟩ := List.cons.inj hz
      exact absurd (by simp) hy
  · cases z with
    | nil => simpa [eq_comm] using hz
    | cons d z =>
      obtain ⟨rfl, rfl⟩ := List.cons.inj hz
      exact absurd (by simp) hy'

section

variable {digest : String → String} (hdigest : IsCollisionFree digest) {e e' : AuditEntry}

include hdigest

/-- **A hash determines the predecessor** of the row it belongs to. -/
theorem IsSealed.prevHash_eq (h : IsSealed digest e) (h' : IsSealed digest e')
    (hprev : ∀ x, e.prevHash = some x → ∃ s, x = digest s)
    (hprev' : ∀ x, e'.prevHash = some x → ∃ s, x = digest s) (heq : e.rowHash = e'.rowHash) :
    e.prevHash = e'.prevHash := by
  have hbar : ∀ {p : Option String}, (∀ x, p = some x → ∃ s, x = digest s) →
      '|' ∉ (p.getD "").toList := by
    intro p hp
    cases p with
    | none => exact List.not_mem_nil
    | some x =>
      obtain ⟨s, rfl⟩ := hp x rfl
      exact hdigest.hex s
  obtain ⟨body, time, htime, hhash⟩ := h
  obtain ⟨body', time', htime', hhash'⟩ := h'
  have htext : body ++ "|" ++ e.prevHash.getD "" ++ "|" ++ time =
      body' ++ "|" ++ e'.prevHash.getD "" ++ "|" ++ time' :=
    hdigest.injective (by rw [← hhash, ← hhash', heq])
  have hlist := congrArg String.toList htext
  have hseparator : ∀ x y : List Char, x ++ "|".toList ++ y = x ++ '|' :: y := by
    intro x y
    rw [List.append_assoc]
    rfl
  simp only [String.toList_append, hseparator] at hlist
  obtain ⟨hfront, -⟩ := append_cons_inj htime htime' hlist
  obtain ⟨-, hprevText⟩ := append_cons_inj (hbar hprev) (hbar hprev') hfront
  have htextEq : e.prevHash.getD "" = e'.prevHash.getD "" := String.toList_injective hprevText
  cases hp : e.prevHash with
  | none =>
    cases hp' : e'.prevHash with
    | none => rfl
    | some x' =>
      obtain ⟨s, rfl⟩ := hprev' x' hp'
      rw [hp, hp'] at htextEq
      exact absurd htextEq.symm (hdigest.nonempty s)
  | some x =>
    obtain ⟨s, rfl⟩ := hprev x hp
    cases hp' : e'.prevHash with
    | none =>
      rw [hp, hp'] at htextEq
      exact absurd htextEq (hdigest.nonempty s)
    | some x' =>
      rw [hp, hp'] at htextEq
      exact congrArg some htextEq

/-- **A linked log of sealed rows is a chain.** -/
theorem isChain_of_linked {rows : List AuditEntry}
    (hlinked : Linked AuditEntry.rowHash AuditEntry.prevHash rows)
    (hsealed : ∀ e ∈ rows, IsSealed digest e) :
    IsChain AuditEntry.rowHash AuditEntry.prevHash rows := by
  have hprev : ∀ e ∈ rows, ∀ x, e.prevHash = some x → ∃ s, x = digest s := by
    intro e he x hx
    rcases hlinked.prev_cases he with hnone | ⟨r, hr, hsome⟩
    · rw [hnone] at hx
      cases hx
    · obtain ⟨_, _, -, hhash⟩ := hsealed r hr
      rw [hsome] at hx
      cases hx
      exact ⟨_, hhash⟩
  exact (hlinked.isChain fun e he e' he' =>
    (hsealed e he).prevHash_eq hdigest (hsealed e' he') (hprev e he) (hprev e' he')).1

end

/-! ## Runs -/

/-- A call that writes to the audit log. -/
inductive AuditedCall where
  | rpc (c : RpcCall)
  | changeMemberRole (m : RoleMigration) (ctx : Context) (orgId userId : Option Uuid)
      (newRole : Option UserRole)

/-- The context of the call. -/
def AuditedCall.context : AuditedCall → Context
  | rpc c => c.context
  | changeMemberRole _ ctx _ _ _ => ctx

/-- The call as a program that returns nothing. -/
def AuditedCall.program : AuditedCall → Rpc Unit
  | rpc c => c.rpc
  | changeMemberRole m ctx orgId userId newRole => do
    let _ ← EnterpriseSystem.changeMemberRole m ctx orgId userId newRole

theorem AuditedCall.audits (c : AuditedCall)
    (htime : ∀ t, '|' ∉ (c.context.server.timestampText t).toList) :
    c.program.Audits c.context.server := by
  cases c with
  | rpc c =>
    cases c with
    | createAccount ctx args =>
      exact (audits_createAccount htime args).bind fun _ => audits_pure _
    | processTransaction ctx args =>
      exact (audits_processTransaction htime args).bind fun _ => audits_pure _
  | changeMemberRole m ctx orgId userId newRole =>
    exact (audits_changeMemberRole htime m orgId userId newRole).bind fun _ => audits_pure _

/-- The call has looked a predecessor up and has not ended: it is about to insert
its row, or it has inserted rows. -/
def InSection : CallState Db Write LockKey PgError Unit → Prop
  | .running own _ code => audited own ≠ [] ∨ ∃ id entry k, code = .op (auditInsertion id entry) k
  | _ => False

/-- `ORDER BY created_at DESC LIMIT 1` finds the row that was written last. -/
def FindsLast (s : Server) (db : Db) : Prop :=
  (s.latestFirst.sort db.auditLog.rows).head? = db.auditLog.rows.getLast?

section

variable {ι : Type} [DecidableEq ι]

/-- The calls take turns: a lookup of a predecessor finds the row that was
written last, and when rows are committed nobody else has looked a predecessor
up. -/
structure AuditsInTurn (calls : ι → AuditedCall) (σ : State ι Db Write LockKey PgError Unit)
    (i : ι) : Prop where
  lookup : ∀ own held k,
    σ.calls i = .running own held (.op (auditLookup (calls i).context.server) k) →
      FindsLast (calls i).context.server (view Db.apply σ.committed own)
  commit : ∀ own held a, σ.calls i = .running own held (.ret (.ok a)) → audited own ≠ [] →
    ∀ j, j ≠ i → ¬ InSection (σ.calls j)

/-- The rows `as` continue the log. -/
structure Continues (digest : String → String) (log : Table AuditEntry.id) (as : List AuditEntry) :
    Prop where
  rows : (as.foldl Table.put log).rows = log.rows ++ as
  linked : Linked AuditEntry.rowHash AuditEntry.prevHash (log.rows ++ as)
  isSealed : ∀ e ∈ log.rows ++ as, IsSealed digest e

/-- The rows a call has written continue the log, and so will its next row. -/
def AuditsOn (s : Server) (log : Table AuditEntry.id) :
    CallState Db Write LockKey PgError Unit → Prop
  | .running own _ code => Continues s.digest log (audited own) ∧
      (Audits s none code ∨
        Audits s (some (lastHash AuditEntry.rowHash (log.rows ++ audited own))) code)
  | _ => True

/-- What every reachable state satisfies. -/
structure AuditInvariant (digest : String → String) (calls : ι → AuditedCall)
    (σ : State ι Db Write LockKey PgError Unit) : Prop where
  log : Continues digest σ.committed.auditLog []
  calls : ∀ i, AuditsOn (calls i).context.server σ.committed.auditLog (σ.calls i)

variable {digest : String → String} {log : Table AuditEntry.id} {as : List AuditEntry} {s : Server}

/-- **A row that names the last one** continues the log. -/
theorem Continues.concat (h : Continues digest log as) {e : AuditEntry}
    (hfresh : (as.foldl Table.put log).get? e.id = none)
    (hprev : e.prevHash = lastHash AuditEntry.rowHash (log.rows ++ as))
    (hsealed : IsSealed digest e) : Continues digest log (as ++ [e]) where
  rows := by
    rw [List.foldl_append, List.foldl_cons, List.foldl_nil, Table.rows_put_of_get?_none hfresh,
      h.rows, List.append_assoc]
  linked := by
    rw [← List.append_assoc]
    exact linked_concat_iff.2 ⟨h.linked, hprev⟩
  isSealed := by
    intro e' he'
    rw [← List.append_assoc] at he'
    rcases List.mem_append.1 he' with he' | he'
    · exact h.isSealed e' he'
    · cases List.mem_singleton.1 he'
      exact hsealed

/-- The rows of a commit are the log that is continued next. -/
theorem Continues.committed (h : Continues digest log as) :
    Continues digest (as.foldl Table.put log) [] where
  rows := (List.append_nil _).symm
  linked := by
    rw [List.append_nil, h.rows]
    exact h.linked
  isSealed := by
    rw [List.append_nil, h.rows]
    exact h.isSealed

theorem audited_append {own ws : List Write} (h : ∀ w ∈ ws, w.auditEntry? = none) :
    audited (own ++ ws) = audited own := by
  rw [audited, List.filterMap_append, List.filterMap_eq_nil_iff.2 h, List.append_nil, ← audited]

/-- **A statement of a call** keeps its rows a continuation of the log. -/
theorem AuditsOn.exec {db : Db} {own : List Write} {held : List LockKey}
    {o : Stmt Db Write LockKey PgError}
    {k : o.Res → Prog (Stmt Db Write LockKey PgError) Stmt.Res (Except PgError Unit)}
    (h : AuditsOn s db.auditLog (.running own held (.op o k)))
    (hlookup : ∀ k', Prog.op o k = .op (auditLookup s) k' → FindsLast s (view Db.apply db own))
    (held' : List LockKey) :
    AuditsOn s db.auditLog (.running (own ++ o.writes (view Db.apply db own)) held'
      (k (o.answer (view Db.apply db own)))) := by
  obtain ⟨hcontinues, hcode⟩ := h
  have hview : (view Db.apply db own).auditLog.rows = db.auditLog.rows ++ audited own := by
    rw [view_auditLog]
    exact hcontinues.rows
  rcases hcode with hcode | hcode
  · cases hcode with
    | silent hsilent hrest =>
      refine ⟨?_, Or.inl (hrest _)⟩
      rw [audited_append (hsilent _)]
      exact hcontinues
    | lookup hrest =>
      have hlast := hlookup _ rfl
      rw [FindsLast, hview] at hlast
      have hnone : own ++ (auditLookup s).writes (view Db.apply db own) = own := List.append_nil own
      rw [hnone]
      refine ⟨hcontinues, Or.inr ?_⟩
      rw [lastHash, ← hlast, ← hview]
      exact hrest _
  · cases hcode with
    | @insert _ id entry _ hid hprev hsealed hrest =>
      cases hused : (view Db.apply db own).auditLog.contains id with
      | true =>
        have hnone : (auditInsertion id entry).writes (view Db.apply db own) = [] := by
          simp [Stmt.writes, auditInsertion, hused]
        rw [hnone, List.append_nil]
        exact ⟨hcontinues, Or.inl (hrest _)⟩
      | false =>
        have hsome : (auditInsertion id entry).writes (view Db.apply db own) =
            [.auditEntry entry] := by
          simp [Stmt.writes, auditInsertion, hused]
        have haudited : audited (own ++ [.auditEntry entry]) = audited own ++ [entry] := by
          rw [audited, List.filterMap_append]
          rfl
        rw [hsome]
        refine ⟨?_, Or.inl (hrest _)⟩
        rw [haudited]
        refine hcontinues.concat ?_ hprev hsealed
        rw [← view_auditLog, hid]
        exact Table.contains_eq_false_iff.1 hused

/-- A call that is in no section has written no row and holds no predecessor, so
the log may change under it. -/
theorem AuditsOn.of_not_inSection {log' : Table AuditEntry.id} {c : CallState Db Write LockKey PgError Unit}
    (h : AuditsOn s log c) (hc : ¬ InSection c) (hlog : Continues s.digest log' []) :
    AuditsOn s log' c := by
  cases c with
  | running own held code =>
    obtain ⟨hcontinues, hcode⟩ := h
    obtain ⟨hnone, hcodeNot⟩ := not_or.1 hc
    rw [not_not] at hnone
    rw [AuditsOn, hnone]
    refine ⟨hlog, Or.inl ?_⟩
    rcases hcode with hcode | hcode
    · exact hcode
    · cases hcode with
      | insert _ _ _ _ => exact absurd ⟨_, _, _, rfl⟩ hcodeNot
      | stop e => exact .ret _
  | committed a => trivial
  | aborted e => trivial

variable {calls : ι → AuditedCall} {σ σ' : State ι Db Write LockKey PgError Unit} {i : ι}

/-- One call moves on and the log stays. -/
theorem AuditInvariant.set (h : AuditInvariant digest calls σ)
    {c : CallState Db Write LockKey PgError Unit}
    (hc : AuditsOn (calls i).context.server σ.committed.auditLog c) :
    AuditInvariant digest calls (σ.set i c) := by
  refine ⟨h.log, fun j => ?_⟩
  by_cases hj : j = i
  · subst hj
    rw [State.set_calls_self]
    exact hc
  · rw [State.set_calls_of_ne σ _ hj]
    exact h.calls j

/-- **One step of calls that take turns.** -/
theorem AuditInvariant.step (hdigest : ∀ i, (calls i).context.server.digest = digest)
    (h : AuditInvariant digest calls σ) (hok : AuditsInTurn calls σ i)
    (hs : Step Db.apply σ i σ') : AuditInvariant digest calls σ' := by
  cases hs with
  | @exec own held o k hi _ =>
    have hcall := h.calls i
    rw [hi] at hcall
    refine h.set (hcall.exec (fun k' hk' => hok.lookup own held k' ?_) _)
    rw [hi, hk']
  | @commit own held a hi =>
    have hcall := h.calls i
    rw [hi] at hcall
    have hlog : (view Db.apply σ.committed own).auditLog =
        (audited own).foldl Table.put σ.committed.auditLog := view_auditLog _ _
    have hcommitted := hcall.1.committed
    rw [← hlog, hdigest] at hcommitted
    refine ⟨hcommitted, fun j => ?_⟩
    by_cases hj : j = i
    · subst hj
      show AuditsOn _ _ ((σ.set j (.committed a)).calls j)
      rw [State.set_calls_self]
      trivial
    · show AuditsOn _ _ ((σ.set i (.committed a)).calls j)
      rw [State.set_calls_of_ne σ _ hj]
      by_cases hnone : audited own = []
      · -- nothing has been written to the log
        rw [hlog, hnone]
        exact h.calls j
      · refine (h.calls j).of_not_inSection (hok.commit own held a hi hnone j hj) ?_
        rw [hdigest]
        exact hcommitted
  | abort _ => exact h.set trivial
  | cancel _ => exact h.set trivial

end

/-- One hexadecimal digit. -/
def hexDigit (n : ℕ) : String := .singleton (Nat.digitChar n)

/-- The bytes of a text in hexadecimal digits, and a zero. -/
def hexText (s : String) : String :=
  s.toUTF8.data.toList.foldr
    (fun b t => hexDigit (b.toNat / 16) ++ (hexDigit (b.toNat % 16) ++ t)) "0"

theorem digitChar_injOn :
    ∀ m < 16, ∀ n < 16, Nat.digitChar m = Nat.digitChar n → m = n := by
  decide

theorem digitChar_ne_bar : ∀ n < 16, Nat.digitChar n ≠ '|' := by
  decide

theorem toList_hexText (s : String) : (hexText s).toList =
    s.toUTF8.data.toList.flatMap (fun b =>
      [Nat.digitChar (b.toNat / 16), Nat.digitChar (b.toNat % 16)]) ++ ['0'] := by
  rw [hexText]
  induction s.toUTF8.data.toList with
  | nil => rfl
  | cons b bs ih =>
    rw [List.foldr_cons, String.toList_append, String.toList_append, ih]
    simp [hexDigit]

/-- Two digits determine a byte. -/
theorem flatMap_hex_injective : Function.Injective fun bs : List UInt8 => bs.flatMap fun b =>
    [Nat.digitChar (b.toNat / 16), Nat.digitChar (b.toNat % 16)] := by
  intro bs
  induction bs with
  | nil =>
    intro bs' h
    cases bs' with
    | nil => rfl
    | cons b' bs' => cases h
  | cons b bs ih =>
    intro bs' h
    cases bs' with
    | nil => cases h
    | cons b' bs' =>
      simp only [List.flatMap_cons, List.cons_append, List.nil_append, List.cons.injEq] at h
      obtain ⟨hhigh, hlow, hrest⟩ := h
      have hb := b.toNat_lt
      have hb' := b'.toNat_lt
      have hdiv := digitChar_injOn _ (by omega) _ (by omega) hhigh
      have hmod := digitChar_injOn _ (by omega) _ (by omega) hlow
      have hbyte : b = b' := UInt8.toNat_inj.1 (by omega)
      rw [hbyte, ih hrest]

theorem isCollisionFree_hexText : IsCollisionFree hexText where
  injective s s' h := by
    have hlist := congrArg String.toList h
    rw [toList_hexText, toList_hexText] at hlist
    have hbytes := flatMap_hex_injective (List.append_cancel_right hlist)
    exact String.toByteArray_inj.1 (ByteArray.ext (Array.toList_inj.1 hbytes))
  nonempty s h := by
    have hlist := congrArg String.toList h
    rw [toList_hexText] at hlist
    simp at hlist
  hex s hmem := by
    rw [toList_hexText, List.mem_append, List.mem_flatMap] at hmem
    rcases hmem with ⟨b, -, hb⟩ | hzero
    · have hlt := b.toNat_lt
      simp only [List.mem_cons, List.not_mem_nil, or_false] at hb
      rcases hb with hb | hb
      · exact digitChar_ne_bar _ (by omega) hb.symm
      · exact digitChar_ne_bar _ (by omega) hb.symm
    · revert hzero
      decide

/-- A server with this digest, on the first of January 1970. -/
def Server.hexadecimal : Server :=
  { Server.plain true with
    digest := hexText
    timestampText := fun _ => "1970-01-01 00:00:00+00" }

/-- The arguments that open an account of a type. -/
def auditedAccount (type : AccountType) : AccountArgs where
  name := some "account"
  type := some type
  currency := some "USD"
  metadata := some ⟨"{}"⟩

/-- The `n`-th call starts at time `n`: a credit account `100` and a checking
account `200` are opened, and all others move money from one to the other. -/
def auditedCalls (n : ℕ) : AuditedCall :=
  let ctx := { Context.plain true 7 1 n (100 * (n + 1)) with server := .hexadecimal }
  match n with
  | 0 => .rpc (.createAccount ctx (auditedAccount .credit))
  | 1 => .rpc (.createAccount ctx (auditedAccount .checking))
  | _ => .rpc (.processTransaction ctx (RpcCall.transferArgs 10 100 (some 200) none))

theorem auditedCalls_server (n : ℕ) : (auditedCalls n).context.server = .hexadecimal := by
  rcases n with - | - | n <;> rfl

/-- The last two rows have the same predecessor. -/
def hasFork (db : Db) : Bool :=
  match db.auditLog.rows with
  | [_, _, _, r, r'] => decide (r.prevHash = r'.prevHash)
  | _ => false

theorem not_isChain_of_hasFork {db : Db} (h : hasFork db = true) :
    ¬ IsChain AuditEntry.rowHash AuditEntry.prevHash db.auditLog.rows := by
  intro hchain
  rw [hasFork] at h
  split at h
  · rename_i r₀ r₁ r₂ r r' hrows
    have hdistinct := hchain.distinct
    rw [hrows] at hdistinct
    simp [of_decide_eq_true h] at hdistinct
  · cases h

end EnterpriseSystem
