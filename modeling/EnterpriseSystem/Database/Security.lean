import EnterpriseSystem.Base.ThreeValued
import EnterpriseSystem.Database.Schema

/-!
# The security infrastructure

The functions of migration 003 that every other function calls, and the bulk
detection trigger of migration 009.

* `authUid`, `authOrgId`, `authRole` — the claims of the caller.
* `checkRateLimit` — the token bucket.
* `writeAuditLog`, `logSecurityEvent` — the two append-only logs.
* `detectBulkOperation` — the statement trigger on the financial tables.

None of them touches a table of the business: `Write.Quiet` names the rows they
write, `PgError.IsSystem` the errors they raise, and the `within` lemmas say
that they keep to these.  `execute_quiet` is how a caller uses that.
-/

namespace EnterpriseSystem

open Relational Concurrency

/-! ## The integers that the functions of the schema pass -/

theorem Int4.fits_one : -2 ^ 31 ≤ (1 : ℤ) ∧ (1 : ℤ) < 2 ^ 31 := by decide

theorem Int4.fits_five : -2 ^ 31 ≤ (5 : ℤ) ∧ (5 : ℤ) < 2 ^ 31 := by decide

theorem Int4.fits_ten : -2 ^ 31 ≤ (10 : ℤ) ∧ (10 : ℤ) < 2 ^ 31 := by decide

theorem Int4.fits_fifty : -2 ^ 31 ≤ (50 : ℤ) ∧ (50 : ℤ) < 2 ^ 31 := by decide

/-- `a - 1` on a nullable `INTEGER`. -/
def decrement : Option Int4 → Except PgError (Option Int4)
  | none => .ok none
  | some a =>
    match a.sub ⟨1, Int4.fits_one⟩ with
    | some b => .ok (some b)
    | none => .error .numericValueOutOfRange

/-! ## The caller -/

/-- `public.auth_uid()`.  Without a `sub` claim it falls back to casting the
name of the database role to a `UUID`, and none of these names is one. -/
def authUid (ctx : Context) : Except PgError Uuid :=
  match ctx.session.sub with
  | some u => .ok u
  | none => .error (.invalidTextRepresentation "uuid" ctx.session.role.name)

/-- `public.auth_org_id()`. -/
def authOrgId (ctx : Context) : Option Uuid := ctx.session.orgId

/-- `public.auth_role()`. -/
def authRole (ctx : Context) : String := ctx.session.claimRole.getD "authenticated"

/-! ## Rate limiting -/

/-- `last_refill < now() - refill_interval`. -/
def RateLimit.isStale (r : RateLimit) (now : Timestamp) : Bool :=
  decide (r.lastRefill < now - r.refillInterval)

/-- The row the `UPDATE` of `check_rate_limit` matches: `key = p_key AND tokens > 0`. -/
def spendable (key : Option String) (db : Db) : Option RateLimit :=
  (key.bind db.rateLimits.get?).filter fun r => decide (0 < r.tokens.1)

/-- The row after a token has been consumed, refilled first when its interval
is over. -/
def RateLimit.consume (r : RateLimit) (now : Timestamp) (maxTokens : Option Int4) :
    Except PgError RateLimit := do
  let tokens ← decrement (if r.isStale now then maxTokens else some r.tokens)
  let tokens ← notNull "rate_limits" "tokens" tokens
  return { r with
    tokens
    lastRefill := if r.isStale now then now else r.lastRefill
    updatedAt := now }

/-- The row after the `ON CONFLICT` branch: refilled when its interval is over,
and left as it is otherwise. -/
def RateLimit.refill (r : RateLimit) (now : Timestamp) : Except PgError RateLimit := do
  let tokens ← (if r.isStale now then decrement (some r.maxTokens) else .ok (some r.tokens))
  let tokens ← notNull "rate_limits" "tokens" tokens
  return { r with
    tokens
    lastRefill := if r.isStale now then now else r.lastRefill }

/-- The row `check_rate_limit` inserts, checked against the `NOT NULL` columns. -/
def newRateLimit (now : Timestamp) (key : Option String) (maxTokens refillRate : Option Int4) :
    Except PgError RateLimit := do
  let tokens ← decrement maxTokens
  return {
    key := ← notNull "rate_limits" "key" key
    tokens := ← notNull "rate_limits" "tokens" tokens
    maxTokens := ← notNull "rate_limits" "max_tokens" maxTokens
    refillRate := ← notNull "rate_limits" "refill_rate" refillRate
    refillInterval := oneMinute
    lastRefill := now
    createdAt := now
    updatedAt := now }

/-- `UPDATE public.rate_limits … RETURNING tokens INTO v_tokens`. -/
def consumeToken (now : Timestamp) (key : Option String) (maxTokens : Option Int4) :
    Rpc (Option Int4) :=
  statement (fun db => ((spendable key db).map fun r => .rateLimit r.key).toList) fun db =>
    match spendable key db with
    | none => .ok ([], none)
    | some r => do
      let r' ← r.consume now maxTokens
      return ([.rateLimit r'], some r'.tokens)

/-- `INSERT INTO public.rate_limits … ON CONFLICT (key) DO UPDATE`. -/
def createOrRefill (now : Timestamp) (key : Option String) (maxTokens refillRate : Option Int4) :
    Rpc Unit :=
  statement (fun _ => (key.map .rateLimit).toList) fun db => do
    let new ← newRateLimit now key maxTokens refillRate
    match db.rateLimits.get? new.key with
    | none => return ([.rateLimit new], ())
    | some r =>
      let r' ← r.refill now
      return ([.rateLimit r'], ())

/-- `public.check_rate_limit`. -/
def checkRateLimit (ctx : Context) (key : Option String) (maxTokens refillRate : Option Int4) :
    Rpc Cond := do
  match ← consumeToken ctx.now key maxTokens with
  | some _ => return some true
  | none =>
    createOrRefill ctx.now key maxTokens refillRate
    let tokens ← select fun db => (key.bind db.rateLimits.get?).map (·.tokens)
    return tokens.map fun t => decide (0 ≤ t.1)

/-! ## The logs -/

/-- The keys of `newData` whose value differs from the one in `oldData`, `NULL`
when there are none or one of the two is absent. -/
def changedFields (oldData newData : Option JsonObject) : Option (List String) :=
  match oldData, newData with
  | some old, some new =>
    let keys := (new.filter fun kv => decide (old.lookup kv.1 ≠ some kv.2)).map Prod.fst
    if keys = [] then none else some keys
  | _, _ => none

/-- The text the audit hash is taken of. -/
def auditPreimage (ctx : Context) (uid : Uuid) (action : AuditAction) (tableName : String)
    (recordId : Option Uuid) (oldData newData : Option JsonObject) (prevHash : Option String) :
    String :=
  String.intercalate "|" [uid.text, action.label, tableName, formatUuid recordId,
    (oldData.map ctx.server.jsonbText).getD "", (newData.map ctx.server.jsonbText).getD "",
    prevHash.getD "", ctx.server.timestampText ctx.now]

/-- The row `write_audit_log` inserts. -/
def newAuditEntry (ctx : Context) (uid id : Uuid) (action : AuditAction) (tableName : String)
    (recordId : Option Uuid) (oldData newData : Option JsonObject) (prevHash : Option String) :
    AuditEntry where
  id := id
  actorId := some uid
  actorEmail := ctx.session.email
  actorIp := ctx.session.clientAddr
  actorRole := some (authRole ctx)
  action := action
  tableName := tableName
  recordId := recordId
  oldData := oldData
  newData := newData
  changedFields := changedFields oldData newData
  requestId := ctx.session.requestId
  correlationId := ctx.session.correlationId
  rowHash := ctx.server.digest
    (auditPreimage ctx uid action tableName recordId oldData newData prevHash)
  prevHash := prevHash
  createdAt := ctx.now

/-- Looking up an unqualified `auth_uid()` under `SET search_path = ''`. -/
def resolveAuthUid (ctx : Context) : Except PgError Uuid :=
  if ctx.server.resolvesUnqualified then authUid ctx else .error (.undefinedFunction "auth_uid()")

/-- `public.write_audit_log`; `id` is the identifier generated for the row. -/
def writeAuditLog (ctx : Context) (id : Uuid) (action : AuditAction) (tableName : String)
    (recordId : Option Uuid) (oldData newData : Option JsonObject) : Rpc Uuid := do
  let prevHash ← select fun db =>
    (ctx.server.latestFirst.sort db.auditLog.rows).head?.map (·.rowHash)
  let uid ← evaluate (resolveAuthUid ctx)
  let entry := newAuditEntry ctx uid id action tableName recordId oldData newData prevHash
  statement (fun _ => [.row .auditLog id]) fun db =>
    if db.auditLog.contains id then .error (.uniqueViolation "audit_log_pkey")
    else .ok ([.auditEntry entry], id)

/-- The row `log_security_event` inserts. -/
def newSecurityEvent (ctx : Context) (uid id : Uuid) (eventType : SecurityEventType)
    (severity : Severity) (description : String) (metadata : JsonObject) (actionTaken : String) :
    SecurityEvent where
  id := id
  eventType := eventType
  severity := severity
  actorId := some uid
  actorIp := ctx.session.clientAddr
  actorEmail := ctx.session.email
  description := description
  metadata := metadata
  actionTaken := actionTaken
  createdAt := ctx.now

/-- `public.log_security_event`; `id` is the identifier generated for the row.
The notification it sends about a critical event changes no table. -/
def logSecurityEvent (ctx : Context) (id : Uuid) (eventType : SecurityEventType)
    (severity : Severity) (description : String) (metadata : JsonObject) (actionTaken : String) :
    Rpc Uuid := do
  let uid ← evaluate (resolveAuthUid ctx)
  let event := newSecurityEvent ctx uid id eventType severity description metadata actionTaken
  statement (fun _ => [.row .securityEvents id]) fun db =>
    if db.securityEvents.contains id then .error (.uniqueViolation "security_events_pkey")
    else .ok ([.securityEvent event], id)

/-! ## The bulk detection trigger -/

/-- The audit rows of one user about one table in the last minute. -/
def recentOperations (ctx : Context) (uid : Uuid) (tableName : String) (db : Db) : ℕ :=
  db.auditLog.rows.countP fun e =>
    decide (e.actorId = some uid ∧ e.tableName = tableName ∧ ctx.now - oneMinute < e.createdAt)

/-- `public.detect_bulk_operation`, fired after a statement `op` on a table. -/
def detectBulkOperation (ctx : Context) (id : Uuid) (tableName op : String) : Rpc Unit := do
  let uid ← evaluate (authUid ctx)
  let count ← select (recentOperations ctx uid tableName)
  onlyIf (100 < count) do
    let _ ← logSecurityEvent ctx id .bulkOperation .high
      ("Bulk operation detected: " ++ toString count ++ " operations on " ++ tableName ++
        " in 1 minute")
      [("table", .text tableName), ("operation", .text op), ("count", .ofNat count),
        ("user", .ofUuid (some uid))]
      "alerted"

/-! ## What these functions touch -/

/-- A row of the security infrastructure. -/
def Write.Quiet : Write → Prop
  | .auditEntry _ => True
  | .securityEvent _ => True
  | .rateLimit _ => True
  | _ => False

/-- An error that is not a `RAISE` of a business function. -/
def PgError.IsSystem : PgError → Prop
  | .raised _ _ _ _ => False
  | _ => True

/-- A function that keeps to the security infrastructure. -/
abbrev Rpc.Quiet {α : Type} (p : Rpc α) : Prop := Call.Within Write.Quiet PgError.IsSystem p

theorem isSystem_of_notNull {α : Type} {table column : String} {a : Option α} {e : PgError}
    (h : notNull table column a = .error e) : e.IsSystem := by
  cases a with
  | none =>
    cases h
    trivial
  | some a => cases h

theorem isSystem_of_check {α : Type} {c : String} {P : α → Prop} [DecidablePred P] {a : α}
    {e : PgError} (h : check c P a = .error e) : e.IsSystem := by
  unfold check at h
  split at h
  · cases h
  · cases h
    trivial

theorem isSystem_of_storeMoney {x : Option Numeric} {e : PgError} (h : storeMoney x = .error e) :
    e.IsSystem := by
  unfold storeMoney at h
  split at h
  · cases h
  · split at h
    · cases h
    · cases h
      trivial

theorem isSystem_of_decrement {a : Option Int4} {e : PgError} (h : decrement a = .error e) :
    e.IsSystem := by
  unfold decrement at h
  split at h
  · cases h
  · split at h
    · cases h
    · cases h
      trivial

theorem isSystem_of_authUid {ctx : Context} {e : PgError} (h : authUid ctx = .error e) :
    e.IsSystem := by
  unfold authUid at h
  split at h
  · cases h
  · cases h
    trivial

theorem isSystem_of_resolveAuthUid {ctx : Context} {e : PgError}
    (h : resolveAuthUid ctx = .error e) : e.IsSystem := by
  unfold resolveAuthUid at h
  split at h
  · exact isSystem_of_authUid h
  · cases h
    trivial

/-- The errors of a sequence are the errors of its parts. -/
theorem error_of_bind {α β : Type} {B : PgError → Prop} {x : Except PgError α}
    {f : α → Except PgError β} {e : PgError} (h : x >>= f = .error e) (hx : ∀ e, x = .error e → B e)
    (hf : ∀ a e, f a = .error e → B e) : B e := by
  cases x with
  | error e' =>
    cases h
    exact hx _ rfl
  | ok a => exact hf a e h

theorem isSystem_of_bind {α β : Type} {x : Except PgError α} {f : α → Except PgError β}
    {e : PgError} (h : x >>= f = .error e) (hx : ∀ e, x = .error e → e.IsSystem)
    (hf : ∀ a e, f a = .error e → e.IsSystem) : e.IsSystem :=
  error_of_bind h hx hf

theorem isSystem_of_consume {r : RateLimit} {now : Timestamp} {maxTokens : Option Int4}
    {e : PgError} (h : r.consume now maxTokens = .error e) : e.IsSystem := by
  refine isSystem_of_bind h (fun _ => isSystem_of_decrement) fun _ _ h => ?_
  refine isSystem_of_bind h (fun _ => isSystem_of_notNull) fun _ _ h => ?_
  cases h

theorem isSystem_of_refill {r : RateLimit} {now : Timestamp} {e : PgError}
    (h : r.refill now = .error e) : e.IsSystem := by
  refine isSystem_of_bind h (fun e h => ?_) fun _ _ h => ?_
  · split at h
    · exact isSystem_of_decrement h
    · cases h
  · refine isSystem_of_bind h (fun _ => isSystem_of_notNull) fun _ _ h => ?_
    cases h

theorem isSystem_of_newRateLimit {now : Timestamp} {key : Option String}
    {maxTokens refillRate : Option Int4} {e : PgError}
    (h : newRateLimit now key maxTokens refillRate = .error e) : e.IsSystem := by
  refine isSystem_of_bind h (fun _ => isSystem_of_decrement) fun _ _ h => ?_
  refine isSystem_of_bind h (fun _ => isSystem_of_notNull) fun _ _ h => ?_
  refine isSystem_of_bind h (fun _ => isSystem_of_notNull) fun _ _ h => ?_
  refine isSystem_of_bind h (fun _ => isSystem_of_notNull) fun _ _ h => ?_
  refine isSystem_of_bind h (fun _ => isSystem_of_notNull) fun _ _ h => ?_
  cases h

section

variable {P : Write → Prop}

theorem within_consumeToken (hrow : ∀ r, P (.rateLimit r)) (now : Timestamp) (key : Option String)
    (maxTokens : Option Int4) :
    Call.Within P PgError.IsSystem (consumeToken now key maxTokens) := by
  refine Call.within_statement ?_ ?_
  · intro db ws b h w hw
    split at h
    · cases h
      cases hw
    · obtain ⟨r', -, h⟩ := bind_eq_ok.1 h
      cases h
      rw [List.mem_singleton.1 hw]
      exact hrow r'
  · intro db e h
    split at h
    · cases h
    · exact isSystem_of_bind h (fun _ => isSystem_of_consume) fun _ _ h => nomatch h

theorem within_createOrRefill (hrow : ∀ r, P (.rateLimit r)) (now : Timestamp)
    (key : Option String) (maxTokens refillRate : Option Int4) :
    Call.Within P PgError.IsSystem (createOrRefill now key maxTokens refillRate) := by
  refine Call.within_statement ?_ ?_
  · intro db ws b h w hw
    obtain ⟨new, -, h⟩ := bind_eq_ok.1 h
    split at h
    · cases h
      rw [List.mem_singleton.1 hw]
      exact hrow new
    · obtain ⟨r', -, h⟩ := bind_eq_ok.1 h
      cases h
      rw [List.mem_singleton.1 hw]
      exact hrow r'
  · intro db e h
    refine isSystem_of_bind h (fun _ => isSystem_of_newRateLimit) fun new e h => ?_
    split at h
    · cases h
    · exact isSystem_of_bind h (fun _ => isSystem_of_refill) fun _ _ h => nomatch h

/-- The rate limit writes rows of its own table. -/
theorem within_checkRateLimit (hrow : ∀ r, P (.rateLimit r)) (ctx : Context) (key : Option String)
    (maxTokens refillRate : Option Int4) :
    Call.Within P PgError.IsSystem (checkRateLimit ctx key maxTokens refillRate) := by
  refine Call.Within.bind (within_consumeToken hrow _ _ _) fun v => ?_
  cases v with
  | some t => exact Call.within_pure _
  | none =>
    exact Call.Within.bind (within_createOrRefill hrow _ _ _ _) fun _ =>
      Call.Within.bind (Call.within_select _) fun _ => Call.within_pure _

theorem within_writeAuditLog (hrow : ∀ e, P (.auditEntry e)) (ctx : Context) (id : Uuid)
    (action : AuditAction) (tableName : String) (recordId : Option Uuid)
    (oldData newData : Option JsonObject) :
    Call.Within P PgError.IsSystem
      (writeAuditLog ctx id action tableName recordId oldData newData) := by
  refine Call.Within.bind (Call.within_select _) fun prevHash =>
    Call.Within.bind (Call.within_evaluate fun e => isSystem_of_resolveAuthUid) fun uid => ?_
  refine Call.within_statement ?_ ?_
  · intro db ws b h w hw
    split at h
    · cases h
    · cases h
      rw [List.mem_singleton.1 hw]
      exact hrow _
  · intro db e h
    split at h
    · cases h
      trivial
    · cases h

theorem within_logSecurityEvent (hrow : ∀ e, P (.securityEvent e)) (ctx : Context) (id : Uuid)
    (eventType : SecurityEventType) (severity : Severity) (description : String)
    (metadata : JsonObject) (actionTaken : String) :
    Call.Within P PgError.IsSystem
      (logSecurityEvent ctx id eventType severity description metadata actionTaken) := by
  refine Call.Within.bind (Call.within_evaluate fun e => isSystem_of_resolveAuthUid) fun uid => ?_
  refine Call.within_statement ?_ ?_
  · intro db ws b h w hw
    split at h
    · cases h
    · cases h
      rw [List.mem_singleton.1 hw]
      exact hrow _
  · intro db e h
    split at h
    · cases h
      trivial
    · cases h

/-- The trigger writes at most an event. -/
theorem within_detectBulkOperation (hrow : ∀ e, P (.securityEvent e)) (ctx : Context) (id : Uuid)
    (tableName op : String) :
    Call.Within P PgError.IsSystem (detectBulkOperation ctx id tableName op) := by
  refine Call.Within.bind (Call.within_evaluate fun e => isSystem_of_authUid) fun uid =>
    Call.Within.bind (Call.within_select _) fun count => Call.Within.onlyIf fun _ => ?_
  exact Call.Within.bind (within_logSecurityEvent hrow _ _ _ _ _ _ _) fun _ => Call.within_pure _

end

theorem quiet_checkRateLimit (ctx : Context) (key : Option String)
    (maxTokens refillRate : Option Int4) : (checkRateLimit ctx key maxTokens refillRate).Quiet :=
  within_checkRateLimit (fun _ => trivial) _ _ _ _

theorem quiet_writeAuditLog (ctx : Context) (id : Uuid) (action : AuditAction) (tableName : String)
    (recordId : Option Uuid) (oldData newData : Option JsonObject) :
    (writeAuditLog ctx id action tableName recordId oldData newData).Quiet :=
  within_writeAuditLog (fun _ => trivial) _ _ _ _ _ _ _

theorem quiet_logSecurityEvent (ctx : Context) (id : Uuid) (eventType : SecurityEventType)
    (severity : Severity) (description : String) (metadata : JsonObject) (actionTaken : String) :
    (logSecurityEvent ctx id eventType severity description metadata actionTaken).Quiet :=
  within_logSecurityEvent (fun _ => trivial) _ _ _ _ _ _ _

theorem quiet_detectBulkOperation (ctx : Context) (id : Uuid) (tableName op : String) :
    (detectBulkOperation ctx id tableName op).Quiet :=
  within_detectBulkOperation (fun _ => trivial) _ _ _ _

/-- Quiet writes leave the tables of the business alone. -/
theorem view_quiet (db : Db) {ws : List Write} (h : ∀ w ∈ ws, w.Quiet) :
    ∃ auditLog securityEvents rateLimits,
      view Db.apply db ws = { db with auditLog, securityEvents, rateLimits } := by
  induction ws generalizing db with
  | nil => exact ⟨_, _, _, rfl⟩
  | cons w ws ih =>
    have hw : w.Quiet := h w (List.mem_cons_self ..)
    obtain ⟨auditLog, securityEvents, rateLimits, heq⟩ :=
      ih (db.apply w) (fun w' hw' => h w' (List.mem_cons_of_mem _ hw'))
    rw [view_cons, heq]
    cases w with
    | auditEntry e => exact ⟨_, _, _, rfl⟩
    | securityEvent e => exact ⟨_, _, _, rfl⟩
    | rateLimit r => exact ⟨_, _, _, rfl⟩
    | _ => exact hw.elim

/-- **A quiet call that goes through** changes only the logs and the rate
limits. -/
theorem execute_quiet {α : Type} {p : Rpc α} (hp : p.Quiet) {db db' : Db} {a : α}
    (h : p.exec db = .ok (a, db')) :
    ∃ auditLog securityEvents rateLimits,
      db' = { db with auditLog, securityEvents, rateLimits } := by
  obtain ⟨ws, hws, rfl⟩ := Call.Within.execute Db.apply hp h
  exact view_quiet db hws

/-! ## When the logs are written -/

theorem authUid_of_sub {ctx : Context} {u : Uuid} (h : ctx.session.sub = some u) :
    authUid ctx = .ok u := by
  rw [authUid, h]

/-- The unqualified name is found, and the caller is known. -/
theorem resolveAuthUid_ok {ctx : Context} {u : Uuid} (h : ctx.session.sub = some u) {uid : Uuid} :
    resolveAuthUid ctx = .ok uid ↔ ctx.server.resolvesUnqualified = true ∧ uid = u := by
  rw [resolveAuthUid, authUid_of_sub h]
  cases ctx.server.resolvesUnqualified <;> simp [eq_comm]

/-- **An audit row is written** exactly when the unqualified names are found and
its identifier is not in use. -/
theorem writeAuditLog_eq_ok {ctx : Context} {u : Uuid} (hsub : ctx.session.sub = some u) {id : Uuid}
    {action : AuditAction} {tableName : String} {recordId : Option Uuid}
    {oldData newData : Option JsonObject} {db db' : Db} {id' : Uuid} :
    (writeAuditLog ctx id action tableName recordId oldData newData).exec db = .ok (id', db') ↔
      ctx.server.resolvesUnqualified = true ∧ db.auditLog.get? id = none ∧ id' = id ∧
        db' = db.apply (.auditEntry (newAuditEntry ctx u id action tableName recordId oldData newData
          ((ctx.server.latestFirst.sort db.auditLog.rows).head?.map (·.rowHash)))) := by
  rw [writeAuditLog, execute_bind_eq_ok]
  constructor
  · rintro ⟨prevHash, db₁, hprev, h⟩
    rw [execute_select] at hprev
    cases hprev
    rw [execute_bind_eq_ok] at h
    obtain ⟨uid, db₁, huid, h⟩ := h
    rw [execute_evaluate_eq_ok, resolveAuthUid_ok hsub] at huid
    obtain ⟨⟨hresolves, rfl⟩, rfl⟩ := huid
    rw [execute_statement_eq_ok] at h
    obtain ⟨ws, hinsert, rfl⟩ := h
    split at hinsert
    · cases hinsert
    · rename_i hid
      cases hinsert
      exact ⟨hresolves, Table.contains_eq_false_iff.1 (Bool.eq_false_of_not_eq_true hid), rfl, rfl⟩
  · rintro ⟨hresolves, hid, rfl, rfl⟩
    refine ⟨_, db, execute_select _ _ _, ?_⟩
    rw [execute_bind_eq_ok]
    refine ⟨u, db, ?_, ?_⟩
    · rw [execute_evaluate_eq_ok, resolveAuthUid_ok hsub]
      exact ⟨⟨hresolves, rfl⟩, rfl⟩
    · rw [execute_statement_eq_ok]
      exact ⟨_, if_neg (by rw [Table.contains_eq_false_iff.2 hid]; decide), rfl⟩

/-- An audit row that has been written has found its names. -/
theorem resolves_of_writeAuditLog {ctx : Context} {id : Uuid} {action : AuditAction}
    {tableName : String} {recordId : Option Uuid} {oldData newData : Option JsonObject}
    {db : Db} {r : Uuid × Db}
    (h : (writeAuditLog ctx id action tableName recordId oldData newData).exec db = .ok r) :
    ctx.server.resolvesUnqualified = true := by
  obtain ⟨id', db'⟩ := r
  rw [writeAuditLog, execute_bind_eq_ok] at h
  obtain ⟨prevHash, db₁, -, h⟩ := h
  rw [execute_bind_eq_ok] at h
  obtain ⟨uid, db₂, huid, -⟩ := h
  rw [execute_evaluate_eq_ok, resolveAuthUid] at huid
  by_contra hc
  rw [if_neg hc] at huid
  exact nomatch huid.1

/-- **A security event is logged** under the same conditions. -/
theorem logSecurityEvent_eq_ok {ctx : Context} {u : Uuid} (hsub : ctx.session.sub = some u)
    {id : Uuid} {eventType : SecurityEventType} {severity : Severity} {description : String}
    {metadata : JsonObject} {actionTaken : String} {db db' : Db} {id' : Uuid} :
    (logSecurityEvent ctx id eventType severity description metadata actionTaken).exec db =
        .ok (id', db') ↔
      ctx.server.resolvesUnqualified = true ∧ db.securityEvents.get? id = none ∧ id' = id ∧
        db' = db.apply (.securityEvent
          (newSecurityEvent ctx u id eventType severity description metadata actionTaken)) := by
  rw [logSecurityEvent, execute_bind_eq_ok]
  constructor
  · rintro ⟨uid, db₁, huid, h⟩
    rw [execute_evaluate_eq_ok, resolveAuthUid_ok hsub] at huid
    obtain ⟨⟨hresolves, rfl⟩, rfl⟩ := huid
    rw [execute_statement_eq_ok] at h
    obtain ⟨ws, hinsert, rfl⟩ := h
    split at hinsert
    · cases hinsert
    · rename_i hid
      cases hinsert
      exact ⟨hresolves, Table.contains_eq_false_iff.1 (Bool.eq_false_of_not_eq_true hid), rfl, rfl⟩
  · rintro ⟨hresolves, hid, rfl, rfl⟩
    refine ⟨u, db, ?_, ?_⟩
    · rw [execute_evaluate_eq_ok, resolveAuthUid_ok hsub]
      exact ⟨⟨hresolves, rfl⟩, rfl⟩
    · rw [execute_statement_eq_ok]
      exact ⟨_, if_neg (by rw [Table.contains_eq_false_iff.2 hid]; decide), rfl⟩

end EnterpriseSystem
