import EnterpriseSystem.Database.OwnWrites
import EnterpriseSystem.Database.RoleChange
import EnterpriseSystem.Database.Transfer

/-!
# How the functions write to the audit log

Every function writes to the log by `write_audit_log`, which looks the
predecessor of its row up in one statement and inserts the row in the next.

* `IsSealed` — the hash of a row covers the hash of its predecessor.
* `Audits` — a program that writes to the log only by a lookup followed by the
  insertion of a sealed row with the hash found.
* `audits_createAccount`, `audits_processTransaction`, `audits_changeMemberRole` —
  the functions are such programs.
-/

namespace EnterpriseSystem

open Relational Concurrency

/-! ## Sealed rows -/

/-- The hash of the row has been taken of a text that ends with the hash of its
predecessor and a time. -/
def IsSealed (digest : String → String) (e : AuditEntry) : Prop :=
  ∃ body time, '|' ∉ time.toList ∧
    e.rowHash = digest (body ++ "|" ++ e.prevHash.getD "" ++ "|" ++ time)

/-- The row `write_audit_log` inserts is sealed. -/
theorem isSealed_newAuditEntry {ctx : Context} (htime : '|' ∉ (ctx.server.timestampText ctx.now).toList)
    (uid id : Uuid) (action : AuditAction) (tableName : String) (recordId : Option Uuid)
    (oldData newData : Option JsonObject) (prevHash : Option String) :
    IsSealed ctx.server.digest
      (newAuditEntry ctx uid id action tableName recordId oldData newData prevHash) := by
  refine ⟨String.intercalate "|" [uid.text, action.label, tableName, formatUuid recordId,
    (oldData.map ctx.server.jsonbText).getD "", (newData.map ctx.server.jsonbText).getD ""], _,
    htime, ?_⟩
  show ctx.server.digest _ = _
  congr 1

/-! ## The statements of `write_audit_log` -/

/-- The lookup of the predecessor. -/
def auditLookup (s : Server) : Stmt Db Write LockKey PgError where
  β := Option String
  locks _ := []
  exec db := .ok ([], (s.latestFirst.sort db.auditLog.rows).head?.map (·.rowHash))

/-- The insertion of the row. -/
def auditInsertion (id : Uuid) (entry : AuditEntry) : Stmt Db Write LockKey PgError where
  β := Uuid
  locks _ := [.row .auditLog id]
  exec db :=
    if db.auditLog.contains id then .error (.uniqueViolation "audit_log_pkey")
    else .ok ([.auditEntry entry], id)

/-- A program that writes to the log only by `write_audit_log`: outside of it, or
after the lookup that has found `x`. -/
inductive Audits (s : Server) {α : Type} : Option (Option String) →
    Prog (Stmt Db Write LockKey PgError) Stmt.Res (Except PgError α) → Prop where
  | ret (r : Except PgError α) : Audits s none (.ret r)
  | silent {o : Stmt Db Write LockKey PgError}
      {k : o.Res → Prog (Stmt Db Write LockKey PgError) Stmt.Res (Except PgError α)}
      (hsilent : ∀ db, ∀ w ∈ o.writes db, w.auditEntry? = none)
      (h : ∀ db, Audits s none (k (o.answer db))) : Audits s none (.op o k)
  | lookup {k : (auditLookup s).Res →
        Prog (Stmt Db Write LockKey PgError) Stmt.Res (Except PgError α)}
      (h : ∀ x, Audits s (some x) (k (.ok x))) : Audits s none (.op (auditLookup s) k)
  | insert {x : Option String} {id : Uuid} {entry : AuditEntry}
      {k : (auditInsertion id entry).Res →
        Prog (Stmt Db Write LockKey PgError) Stmt.Res (Except PgError α)}
      (hid : entry.id = id) (hprev : entry.prevHash = x) (hsealed : IsSealed s.digest entry)
      (h : ∀ r, Audits s none (k r)) : Audits s (some x) (.op (auditInsertion id entry) k)
  | stop {x : Option String} (e : PgError) : Audits s (some x) (.ret (.error e))

/-- A function that writes to the log only by `write_audit_log`. -/
abbrev Rpc.Audits (s : Server) {α : Type} (p : Rpc α) : Prop :=
  EnterpriseSystem.Audits s none (ExceptT.run p)

section

variable {s : Server} {α β : Type}

theorem Audits.prog_bind {pending : Option (Option String)}
    {q : Prog (Stmt Db Write LockKey PgError) Stmt.Res (Except PgError α)} (hq : Audits s pending q)
    {f : α → Rpc β} (hf : ∀ a, (f a).Audits s) :
    Audits s pending (q.bind (ExceptT.bindCont f)) := by
  induction hq with
  | ret r =>
    cases r with
    | ok a => exact hf a
    | error e => exact .ret _
  | silent hsilent _ ih => exact .silent hsilent ih
  | lookup _ ih => exact .lookup ih
  | insert hid hprev hsealed _ ih => exact .insert hid hprev hsealed ih
  | stop e => exact .stop e

theorem Rpc.Audits.bind {p : Rpc α} {f : α → Rpc β} (hp : p.Audits s) (hf : ∀ a, (f a).Audits s) :
    Rpc.Audits s (p >>= f) :=
  Audits.prog_bind hp hf

theorem audits_pure (a : α) : Rpc.Audits s (pure a) := .ret _

theorem audits_throw (e : PgError) : Rpc.Audits s (throw e : Rpc α) := .ret _

theorem audits_evaluate (r : Except PgError α) : Rpc.Audits s (evaluate r) := .ret _

theorem Rpc.Audits.onlyIf {c : Prop} [Decidable c] {p : Rpc Unit} (hp : p.Audits s) :
    Rpc.Audits s (onlyIf c p) := by
  unfold Concurrency.onlyIf
  split
  · exact hp
  · exact audits_pure _

/-- What writes nothing to the log audits. -/
theorem audits_of_within {B : PgError → Prop} {p : Rpc α}
    (hp : Call.Within (fun w => w.auditEntry? = none) B p) : p.Audits s := by
  have key : ∀ q : Prog (Stmt Db Write LockKey PgError) Stmt.Res (Except PgError α),
      q.Within (fun w => w.auditEntry? = none) B → Audits s none q := by
    intro q
    induction q with
    | ret r => exact fun _ => .ret r
    | op o k ih => exact fun hq => .silent (fun db => (hq db).1) fun db => ih _ (hq db).2
  exact key _ hp

/-- **`write_audit_log` audits.** -/
theorem audits_writeAuditLog {ctx : Context} (htime : ∀ t, '|' ∉ (ctx.server.timestampText t).toList)
    (id : Uuid) (action : AuditAction) (tableName : String) (recordId : Option Uuid)
    (oldData newData : Option JsonObject) :
    Rpc.Audits ctx.server (writeAuditLog ctx id action tableName recordId oldData newData) := by
  refine Audits.lookup fun x => ?_
  show Audits ctx.server (some x) (ExceptT.run (do
    let uid ← evaluate (resolveAuthUid ctx)
    let entry := newAuditEntry ctx uid id action tableName recordId oldData newData x
    statement (fun _ => [.row .auditLog id]) fun db =>
      if db.auditLog.contains id then .error (.uniqueViolation "audit_log_pkey")
      else .ok ([.auditEntry entry], id)))
  cases resolveAuthUid ctx with
  | error e => exact .stop e
  | ok uid =>
    exact .insert rfl rfl (isSealed_newAuditEntry (htime ctx.now) ..) fun r => .ret r

end

/-! ## The functions -/

section

variable {ctx : Context} (htime : ∀ t, '|' ∉ (ctx.server.timestampText t).toList)

theorem audits_checkRateLimit {s : Server} (ctx : Context) (key : Option String)
    (maxTokens refillRate : Option Int4) :
    Rpc.Audits s (checkRateLimit ctx key maxTokens refillRate) :=
  audits_of_within (within_checkRateLimit (fun _ => rfl) _ _ _ _)

theorem audits_logSecurityEvent {s : Server} (ctx : Context) (id : Uuid)
    (eventType : SecurityEventType) (severity : Severity) (description : String)
    (metadata : JsonObject) (actionTaken : String) :
    Rpc.Audits s (logSecurityEvent ctx id eventType severity description metadata actionTaken) :=
  audits_of_within (within_logSecurityEvent (fun _ => rfl) _ _ _ _ _ _ _)

theorem audits_detectBulkOperation {s : Server} (ctx : Context) (id : Uuid) (tableName op : String) :
    Rpc.Audits s (detectBulkOperation ctx id tableName op) :=
  audits_of_within (within_detectBulkOperation (fun _ => rfl) _ _ _ _)

include htime

theorem audits_validateBalance (id : Uuid) (old : Account) (balance : Money) :
    Rpc.Audits ctx.server (validateBalance ctx id old balance) :=
  (audits_throw _).onlyIf.bind fun _ =>
    ((audits_writeAuditLog htime _ _ _ _ _ _).bind fun _ => audits_pure _).onlyIf

theorem audits_updateBalance (site : ℕ) (id : Option Uuid) (f : Numeric → Numeric) :
    Rpc.Audits ctx.server (updateBalance ctx site id f) := by
  refine Rpc.Audits.bind (audits_of_within (B := fun _ => True) (Call.within_statement ?_
    fun _ _ _ => trivial)) fun row => ?_
  · intro db ws row h w hw
    split at h
    · cases h
      cases hw
    · obtain ⟨_, -, h⟩ := bind_eq_ok.1 h
      obtain ⟨_, -, h⟩ := bind_eq_ok.1 h
      cases h
      cases hw
  · cases row with
    | none => exact (audits_detectBulkOperation _ _ _ _).bind fun _ => audits_pure _
    | some row =>
      refine (audits_validateBalance htime _ _ _).bind fun _ =>
        (audits_evaluate _).bind fun _ =>
        Rpc.Audits.bind (audits_of_within (B := fun _ => True) (Call.within_statement ?_
          fun _ _ _ => trivial)) fun _ =>
        (audits_detectBulkOperation _ _ _ _).bind fun _ => audits_pure _
      intro db ws _ h w hw
      cases h
      cases List.mem_singleton.1 hw
      rfl

theorem audits_postEntry (site : ℕ) (args : TransactionArgs) (transactionId : Uuid)
    (accountId : Option Uuid) (entryType : EntryType) (amount : Numeric) :
    Rpc.Audits ctx.server (postEntry ctx site args transactionId accountId entryType amount) :=
  (audits_updateBalance htime _ _ _).bind fun _ =>
    audits_of_within (within_insertLedgerEntry fun _ _ => rfl)

/-- **`process_transaction` audits.** -/
theorem audits_processTransaction (args : TransactionArgs) :
    Rpc.Audits ctx.server (processTransaction ctx args) := by
  refine (audits_checkRateLimit _ _ _ _).bind fun _ => (audits_throw _).onlyIf.bind fun _ =>
    (audits_of_within (Call.within_select (B := fun _ => True) _)).bind fun existing => ?_
  split
  · exact audits_pure _
  · refine (audits_of_within (within_checkTransfer args)).bind fun _ =>
      (audits_of_within (within_insertTransaction (fun _ => rfl) fun _ _ => rfl)).bind fun t =>
      (audits_evaluate _).bind fun amount => (audits_postEntry htime _ _ _ _ _ _).bind fun _ =>
      (audits_postEntry htime _ _ _ _ _ _).onlyIf.bind fun _ =>
      (audits_writeAuditLog htime _ _ _ _ _ _).bind fun _ => audits_pure _

/-- **`create_account` audits.** -/
theorem audits_createAccount (args : AccountArgs) :
    Rpc.Audits ctx.server (createAccount ctx args) :=
  (audits_checkRateLimit _ _ _ _).bind fun _ => (audits_throw _).onlyIf.bind fun _ =>
    (audits_of_within (Call.within_select (B := fun _ => True) _)).bind fun _ =>
    (audits_of_within (Call.within_select (B := fun _ => True) _)).bind fun _ =>
    (audits_throw _).onlyIf.bind fun _ =>
    (audits_of_within (within_insertAccount (fun _ => rfl) fun _ _ => rfl)).bind fun _ =>
    (audits_writeAuditLog htime _ _ _ _ _ _).bind fun _ => audits_pure _

theorem audits_validateRoleChange (m : RoleMigration) (old : Option OrganizationMember)
    (new : OrganizationMember) :
    Rpc.Audits ctx.server (validateRoleChange m ctx old new) := by
  refine (audits_throw _).onlyIf.bind fun _ => (audits_throw _).onlyIf.bind fun _ =>
    (audits_evaluate _).bind fun uid =>
    (audits_of_within (Call.within_select (B := fun _ => True) _)).bind fun actorRole =>
    ((audits_logSecurityEvent _ _ _ _ _ _ _).bind fun _ => audits_throw _).onlyIf.bind fun _ => ?_
  cases old with
  | none => exact audits_pure _
  | some o =>
    exact ((audits_logSecurityEvent _ _ _ _ _ _ _).bind fun _ => audits_throw _).onlyIf.bind fun _ =>
      ((audits_writeAuditLog htime _ _ _ _ _ _).bind fun _ => audits_pure _).onlyIf

theorem audits_updateMemberRole (m : RoleMigration) (orgId userId : Option Uuid)
    (newRole : Option UserRole) :
    Rpc.Audits ctx.server (updateMemberRole m ctx orgId userId newRole) := by
  refine Rpc.Audits.bind (audits_of_within (B := fun _ => True) (Call.within_statement ?_
    fun _ _ _ => trivial)) fun row => ?_
  · intro db ws row h w hw
    cases h
    cases hw
  · cases row with
    | none => exact audits_pure _
    | some old =>
      refine (audits_evaluate _).bind fun role => (audits_validateRoleChange htime _ _ _).bind fun _ =>
        Rpc.Audits.bind (audits_of_within (B := fun _ => True) (Call.within_statement ?_
          fun _ _ _ => trivial)) fun _ => Rpc.Audits.bind ?_ fun _ => audits_pure _
      · intro db ws _ h w hw
        cases h
        cases List.mem_singleton.1 hw
        rfl
      · exact ((audits_evaluate _).bind fun _ => (audits_logSecurityEvent _ _ _ _ _ _ _).bind
          fun _ => audits_pure _).onlyIf

/-- **`change_member_role` audits.** -/
theorem audits_changeMemberRole (m : RoleMigration) (orgId userId : Option Uuid)
    (newRole : Option UserRole) :
    Rpc.Audits ctx.server (changeMemberRole m ctx orgId userId newRole) := by
  refine (audits_evaluate _).bind fun uid => (audits_checkRateLimit _ _ _ _).bind fun _ =>
    (((audits_logSecurityEvent _ _ _ _ _ _ _).bind fun _ => audits_pure _).onlyIf.bind fun _ =>
      audits_throw _).onlyIf.bind fun _ =>
    (audits_of_within (Call.within_select (B := fun _ => True) _)).bind fun actorRole =>
    (audits_throw _).onlyIf.bind fun _ => (audits_throw _).onlyIf.bind fun _ =>
    (audits_updateMemberRole htime _ _ _ _).bind fun result => ?_
  cases result with
  | none => exact audits_throw _
  | some result => exact audits_pure _

end

end EnterpriseSystem
