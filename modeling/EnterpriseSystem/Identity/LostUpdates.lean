import EnterpriseSystem.Identity.Mutators
import EnterpriseSystem.Identity.UserDomainService

/-!
# Lost updates

Any number of clients that each load a user, call methods of the entity and save
it, interleaved at the statements of the repository.

* `Editing`, `client` — one client: whom it loads, what it calls on the entity
  it got, and when it saves.
* `SaveAt` — the places within a `save`; `run_save_step` says where each of its
  operations leads.
* `Loads`, `Saves` — the steps of a run that load a row and that write one.
* `version_le_of_run` — the version of a row never falls, and rises with every
  save of it.
* `lostUpdate_iff` — a save overwrites nobody else's exactly when the methods of
  its client have raised the version at most once.
-/

namespace EnterpriseSystem.Identity

open Objects Relational Concurrency UserRepositoryImpl

/-! ## Clients -/

/-- One client: it loads `id`, makes `calls` on the entity it got, each one
caught when it throws, and saves the entity.  No `Password` holds an empty hash. -/
structure Editing where
  id : UniqueId
  calls : User → List (UserCall × Moment)
  now : Date
  hashes : ∀ user, ∀ p ∈ calls user, ∀ newPassword, p.1 = .changePassword newPassword →
    newPassword.hashedValue ≠ some ""

/-- The entity of a client once its calls have been made. -/
def Editing.edited (c : Editing) (user : User) : User := user.afterCalls (c.calls user)

theorem Editing.id_edited (c : Editing) (user : User) : (c.edited user).id = user.id :=
  user.id_afterCalls (c.calls user)

theorem Editing.hash_edited (c : Editing) {user : User} (h : user.password.hashedValue ≠ some "") :
    (c.edited user).password.hashedValue ≠ some "" := by
  rcases user.password_afterCalls (c.calls user) with hsame | ⟨p, hp, newPassword, hcall, hnew⟩
  · show (user.afterCalls (c.calls user)).password.hashedValue ≠ some ""
    rw [hsame]
    exact h
  · show (user.afterCalls (c.calls user)).password.hashedValue ≠ some ""
    rw [hnew]
    exact c.hashes user p hp newPassword hcall

/-- What a client does. -/
def Editing.client (host : Host) (c : Editing) : UserTask User := do
  let user ← findById host c.id
  save host (c.edited user) c.now

/-- The clients on one table, each before its first statement. -/
abbrev Clients (ι : Type) : Type := System ι UserWorld UserOp UserOp.Ans Thrown User

/-- A function of the user domain at one of its awaits. -/
abbrev Progress : Type := Prog UserOp (fun o => Except Thrown o.Ans) (Except Thrown User)

/-- The function has returned the entity. -/
def Returns (p : Progress) : Prop := ∃ u, p = .ret (.ok u)

@[simp] theorem not_returns_error (e : Thrown) : ¬ Returns (.ret (.error e)) := nofun

@[simp] theorem not_returns_op (o : UserOp) (k : Except Thrown o.Ans → Progress) :
    ¬ Returns (.op o k) := nofun

/-- Time passes between the statements. -/
def ClockMoves (w w' : UserWorld) : Prop := ∃ now, w' = { w with clock := now }

/-! ## The places within `save` -/

/-- `save` before its `update`. -/
def updating (host : Host) (user : User) (now : Date) : Progress :=
  .op (.update user.id user.getExpectedVersion (columns user) user.password.hashedValue now)
    fun r => .ret (match r with
      | .ok row => (toDomain host row).mapError (saveFailed user)
      | .error e => .error (saveFailed user e))

/-- `save` before its `create`. -/
def creating (host : Host) (user : User) : Progress :=
  .op (.create user.id (columns user) (user.password.hashedValue.getD ""))
    fun r => .ret (match r with
      | .ok row => (toDomain host row).mapError (saveFailed user)
      | .error e => .error (saveFailed user e))

/-- `save` before its lookup. -/
def finding (host : Host) (user : User) (now : Date) : Progress :=
  .op (.findUniqueById user.id) fun r => match r with
    | .ok (some _) => updating host user now
    | .ok none => creating host user
    | .error e => .ret (.error (saveFailed user e))

theorem run_save_eq (host : Host) (user : User) (now : Date) :
    ExceptT.run (save host user now) = finding host user now := by
  -- both branches end with the mapping of the row that was written
  have hmap : ∀ row, ExceptT.run (tryCatch (Task.ofExcept (toDomain host row) : UserTask User)
      fun error => throw (saveFailed user error)) =
        .ret ((toDomain host row).mapError (saveFailed user)) :=
    fun row => Task.exceptRun_rethrow (saveFailed user) (toDomain host row)
  refine congrArg (Prog.op (UserOp.findUniqueById user.id)) (funext fun r => ?_)
  rcases r with e | found
  · rfl
  · cases found with
    | none =>
      refine congrArg (Prog.op _) (funext fun r => ?_)
      rcases r with e | row
      · rfl
      · exact hmap row
    | some old =>
      refine congrArg (Prog.op _) (funext fun r => ?_)
      rcases r with e | row
      · rfl
      · exact hmap row

/-- A client before its first statement. -/
def loading (host : Host) (c : Editing) : Progress :=
  .op (.findUniqueById c.id) fun r => match r with
    | .ok (some row) => match toDomain host row with
      | .ok user => finding host (c.edited user) c.now
      | .error e => .ret (.error (lookupFailed e))
    | .ok none => .ret (.error (.userNotFound c.id.value "id"))
    | .error e => .ret (.error (lookupFailed e))

theorem run_client_eq (host : Host) (c : Editing) :
    ExceptT.run (c.client host) = loading host c := by
  refine congrArg (Prog.op (UserOp.findUniqueById c.id)) (funext fun r => ?_)
  rcases r with e | found
  · rfl
  · cases found with
    | none => rfl
    | some row =>
      have hmap : ExceptT.run (tryCatch (Task.ofExcept (toDomain host row) : UserTask User)
          fun error => throw (lookupFailed error)) =
            .ret ((toDomain host row).mapError lookupFailed) :=
        Task.exceptRun_rethrow lookupFailed (toDomain host row)
      show (ExceptT.run (tryCatch (Task.ofExcept (toDomain host row) : UserTask User)
        fun error => throw (lookupFailed error))).bind
          (ExceptT.bindCont fun user => save host (c.edited user) c.now) = _
      rw [hmap]
      dsimp only
      cases toDomain host row with
      | error e => rfl
      | ok user => exact run_save_eq host (c.edited user) c.now

/-- `p` is within the `save` of the entity. -/
inductive SaveAt (host : Host) (user : User) (now : Date) : Progress → Prop where
  | finding : SaveAt host user now (finding host user now)
  | updating : SaveAt host user now (updating host user now)
  | creating : SaveAt host user now (creating host user)
  | done (r : Except Thrown User) : SaveAt host user now (.ret r)

/-- `p` is within the client. -/
inductive ClientAt (host : Host) (c : Editing) : Progress → Prop where
  | loading : ClientAt host c (loading host c)
  | saving {row : UserRow} {user : User} {p : Progress} : toDomain host row = .ok user →
      SaveAt host (c.edited user) c.now p → ClientAt host c p
  | failed (e : Thrown) : ClientAt host c (.ret (.error e))

/-! ## What one operation does -/

/-- The row that `save` writes over `db`. -/
structure Writes (user : User) (db : UserDb) (row : UserRow) : Prop where
  id : row.id = user.id.dbUuid
  email : row.email = user.email.value
  version : row.version = user.version
  next : ∀ old, db.findById? user.id.dbUuid = some old →
    user.version = old.version + 1 ∧
      row.passwordHash = varChar 255 (user.password.hashedValue.getD old.passwordHash)

section

variable {host : Host} {user : User} {now : Date} {w : UserWorld}

/-- An `update` that answers has found the row it expects. -/
theorem update_cases (user : User) (db : UserDb) (now : Date) :
    let stmt := db.update user.id.dbUuid user.getExpectedVersion (columns user)
      user.password.hashedValue now
    (stmt.2 = db ∧ ∃ e, stmt.1 = .error e) ∨
      ∃ row h, stmt = (.ok row, db.put row h) ∧ Writes user db row := by
  unfold UserDb.update
  split_ifs with hint
  · exact Or.inl ⟨rfl, _, rfl⟩
  · cases hrow : db.findById? user.id.dbUuid with
    | none => exact Or.inl ⟨rfl, _, rfl⟩
    | some old =>
      dsimp only
      split_ifs with hversion hfits hfree
      · exact Or.inl ⟨rfl, _, rfl⟩
      · exact Or.inl ⟨rfl, _, rfl⟩
      · have hid : old.id = user.id.dbUuid := UserDb.id_of_findById? hrow
        refine Or.inr ⟨_, hfree, rfl, hid, rfl, rfl, ?_⟩
        intro old' hold
        obtain rfl : old = old' := Option.some.inj (hrow.symm.trans hold)
        have hexpected : old.version = user.version - 1 := not_not.1 hversion
        exact ⟨by omega, rfl⟩
      · exact Or.inl ⟨rfl, _, rfl⟩

/-- A `create` that answers has found no row. -/
theorem create_cases (user : User) (db : UserDb) (hash : String) (now : Date) :
    let stmt := db.create user.id.dbUuid (columns user) hash now
    (stmt.2 = db ∧ ∃ e, stmt.1 = .error e) ∨
      ∃ row h, stmt = (.ok row, db.put row h) ∧ Writes user db row := by
  unfold UserDb.create
  dsimp only
  split_ifs with hfits hthere hfree
  · exact Or.inl ⟨rfl, _, rfl⟩
  · exact Or.inl ⟨rfl, _, rfl⟩
  · refine Or.inr ⟨_, hfree, rfl, rfl, rfl, rfl, ?_⟩
    intro old hold
    exact absurd (hold ▸ Option.some_ne_none old) (fun h => hthere h)
  · exact Or.inl ⟨rfl, _, rfl⟩

/-- **One operation of a `save`** leaves the table alone and does not return the
entity, or it writes the row and returns what the row maps to. -/
theorem SaveAt.step {o : UserOp} {k : Except Thrown o.Ans → Progress}
    (h : SaveAt host user now (.op o k)) (w : UserWorld) :
    ((o.exec host w).2.db = w.db ∧ ¬ Returns (k (o.exec host w).1) ∧
        SaveAt host user now (k (o.exec host w).1)) ∨
      ∃ row hfree, (o.exec host w).2.db = w.db.put row hfree ∧ Writes user w.db row ∧
        k (o.exec host w).1 = .ret ((toDomain host row).mapError (saveFailed user)) := by
  generalize hp : (Prog.op o k : Progress) = p at h
  cases h with
  | finding =>
    cases hp
    left
    unfold UserOp.exec
    split_ifs
    · exact ⟨rfl, not_returns_error _, .done _⟩
    · refine ⟨rfl, ?_⟩
      dsimp only [UserOp.answer]
      cases w.db.findById? user.id.dbUuid with
      | none => exact ⟨not_returns_op _ _, .creating⟩
      | some row => exact ⟨not_returns_op _ _, .updating⟩
  | updating =>
    cases hp
    unfold UserOp.exec
    split_ifs
    · exact Or.inl ⟨rfl, not_returns_error _, .done _⟩
    · dsimp only [UserOp.answer]
      rcases update_cases user w.db now with
        ⟨hdb, e, herror⟩ | ⟨row, hfree, hstmt, hwrites⟩
      · refine Or.inl ⟨hdb, ?_, .done _⟩
        rw [herror]
        exact not_returns_error _
      · refine Or.inr ⟨row, hfree, ?_, hwrites, ?_⟩
        · rw [hstmt]
          rfl
        · rw [hstmt]
  | creating =>
    cases hp
    unfold UserOp.exec
    split_ifs
    · exact Or.inl ⟨rfl, not_returns_error _, .done _⟩
    · dsimp only [UserOp.answer]
      rcases create_cases user w.db (user.password.hashedValue.getD "") w.clock with
        ⟨hdb, e, herror⟩ | ⟨row, hfree, hstmt, hwrites⟩
      · refine Or.inl ⟨hdb, ?_, .done _⟩
        rw [herror]
        exact not_returns_error _
      · refine Or.inr ⟨row, hfree, ?_, hwrites, ?_⟩
        · rw [hstmt]
          rfl
        · rw [hstmt]
  | done r => cases hp

theorem dbUuid_of_toDomain {row : UserRow} (h : toDomain host row = .ok user) :
    user.id.dbUuid = row.id := by
  obtain ⟨hv4, -, rfl⟩ := toDomain_eq_ok.1 h
  exact UniqueId.dbUuid_of_value rfl

/-- The row a client writes maps to an entity again. -/
theorem Writes.toDomain_ok {c : Editing} {row₀ old row : UserRow} {db : UserDb}
    (h : Writes (c.edited user) db row) (hload : toDomain host row₀ = .ok user)
    (hold : db.findById? user.id.dbUuid = some old) (hhash : old.passwordHash ≠ "") :
    row.passwordHash ≠ "" ∧ ∃ u, toDomain host row = .ok u := by
  have hid : row.id = row₀.id := by
    rw [h.id, c.id_edited, dbUuid_of_toDomain hload]
  have hne : row.passwordHash ≠ "" := by
    rw [(h.next old (by rw [c.id_edited, hold])).2, Ne, varChar_eq_empty (Nat.succ_pos 254)]
    cases hnew : (c.edited user).password.hashedValue with
    | none => exact hhash
    | some hash =>
      rintro (rfl : hash = "")
      refine c.hash_edited ?_ hnew
      obtain ⟨hv4, hne₀, rfl⟩ := toDomain_eq_ok.1 hload
      exact fun hempty => hne₀ (Option.some.inj hempty)
  obtain ⟨hv4, -, -⟩ := toDomain_eq_ok.1 hload
  exact ⟨hne, _, toDomain_eq_ok.2 ⟨by rw [hid]; exact hv4, hne, rfl⟩⟩

/-- **One operation of a client** leaves the table alone and does not return the
entity, or it writes the row of the entity loaded before. -/
theorem ClientAt.step {c : Editing} {o : UserOp} {k : Except Thrown o.Ans → Progress}
    (h : ClientAt host c (.op o k)) (w : UserWorld) :
    ((o.exec host w).2.db = w.db ∧ ¬ Returns (k (o.exec host w).1) ∧
        ClientAt host c (k (o.exec host w).1)) ∨
      ∃ row₀ user row hfree, toDomain host row₀ = .ok user ∧
        (o.exec host w).2.db = w.db.put row hfree ∧ Writes (c.edited user) w.db row ∧
        k (o.exec host w).1 = .ret ((toDomain host row).mapError (saveFailed (c.edited user))) := by
  generalize hp : (Prog.op o k : Progress) = p at h
  cases h with
  | loading =>
    cases hp
    left
    unfold UserOp.exec
    split_ifs
    · exact ⟨rfl, not_returns_error _, .failed _⟩
    · refine ⟨rfl, ?_⟩
      dsimp only [UserOp.answer]
      cases w.db.findById? c.id.dbUuid with
      | none => exact ⟨not_returns_error _, .failed _⟩
      | some row =>
        dsimp only
        cases hload : toDomain host row with
        | error e => exact ⟨not_returns_error _, .failed _⟩
        | ok user => exact ⟨not_returns_op _ _, .saving hload .finding⟩
  | saving hload hsave =>
    subst hp
    rcases hsave.step w with ⟨hdb, hnot, hnext⟩ | ⟨row, hfree, hdb, hwrites, hreturns⟩
    · exact Or.inl ⟨hdb, hnot, .saving hload hnext⟩
    · exact Or.inr ⟨_, _, row, hfree, hload, hdb, hwrites, hreturns⟩
  | failed e => exact nomatch hp

end

/-! ## Runs -/

section

variable {ι : Type} [DecidableEq ι] {host : Host} {cs : ι → Editing}

/-- The clients before their first statement. -/
def Clients.start (host : Host) (cs : ι → Editing) (w : UserWorld) : Clients ι :=
  System.start w fun i => (cs i).client host

/-- One statement of a client, or time passing. -/
abbrev Clients.Step (host : Host) : Clients ι → Option ι → Clients ι → Prop :=
  System.Step (UserOp.exec host) ClockMoves

/-- In this step `i` loads the entity. -/
def Loads (host : Host) (cs : ι → Editing) (i : ι) (p : Clients ι × Option ι × Clients ι)
    (user : User) : Prop :=
  p.2.1 = some i ∧ p.1.tasks i = ExceptT.run ((cs i).client host) ∧ p.1.shared.down = false ∧
    ∃ row, p.1.shared.db.findById? (cs i).id.dbUuid = some row ∧ toDomain host row = .ok user

/-- In this step the `save` of `i` succeeds, with the entity it returns. -/
def Saves (i : ι) (p : Clients ι × Option ι × Clients ι) (user : User) : Prop :=
  p.2.1 = some i ∧ p.2.2.result? i = some (.ok user)

/-- Every client is somewhere in its code. -/
def Within (host : Host) (cs : ι → Editing) (σ : Clients ι) : Prop :=
  ∀ i, ClientAt host (cs i) (σ.tasks i)

/-- The table has a row of the identifier, of this version and with a hash. -/
structure Stored (d : DbUuid) (version : ℤ) (σ : Clients ι) : Prop where
  row : ∃ row, σ.shared.db.findById? d = some row ∧ row.version = version ∧ row.passwordHash ≠ ""

variable {σ σ' : Clients ι} {l : Option ι} {d : DbUuid} {version : ℤ}

omit [DecidableEq ι] in
theorem Within.start (w : UserWorld) : Within host cs (Clients.start host cs w) := by
  intro i
  show ClientAt host (cs i) (ExceptT.run ((cs i).client host))
  rw [run_client_eq]
  exact .loading

theorem Within.step (h : Within host cs σ) (hs : Clients.Step host σ l σ') :
    Within host cs σ' := by
  intro j
  cases l with
  | none =>
    rw [hs.of_none.2]
    exact h j
  | some i =>
    obtain ⟨o, k, hop, -, hself, hothers⟩ := hs.of_some
    by_cases hj : j = i
    · subst hj
      have hat : ClientAt host (cs j) (.op o k) := hop ▸ h j
      rw [hself]
      rcases hat.step σ.shared with ⟨-, -, hnext⟩ | ⟨_, _, row, -, hload, -, -, hreturns⟩
      · exact hnext
      · rw [hreturns]
        exact .saving hload (.done _)
    · rw [hothers j hj]
      exact h j

omit [DecidableEq ι] in
/-- A client returns in the step in which the task becomes its result. -/
theorem saves_iff {i j : ι} {p : Progress} {u : User} (h : σ'.tasks i = p) :
    Saves j (σ, some i, σ') u ↔ j = i ∧ p = .ret (.ok u) := by
  subst h
  constructor
  · rintro ⟨hlabel, hresult⟩
    obtain rfl : i = j := Option.some.inj hlabel
    refine ⟨rfl, ?_⟩
    have hresult : (σ'.tasks i).result? = some (.ok u) := hresult
    generalize σ'.tasks i = p at hresult
    cases p with
    | ret r => rw [Option.some.inj hresult]
    | op o k => exact nomatch hresult
  · rintro ⟨rfl, hret⟩
    refine ⟨rfl, ?_⟩
    show (σ'.tasks j).result? = some (.ok u)
    rw [hret]
    rfl

/-- **One step** keeps the row of an identifier, unless a `save` of it succeeds:
then its version is the next one. -/
theorem Stored.step (h : Stored d version σ) (hwithin : Within host cs σ)
    (hs : Clients.Step host σ l σ') :
    (Stored d version σ' ∧ ∀ j u, Saves j (σ, l, σ') u → u.id.dbUuid ≠ d) ∨
      (Stored d (version + 1) σ' ∧ ∃ j u, Saves j (σ, l, σ') u ∧ u.id.dbUuid = d) := by
  obtain ⟨old, hold, rfl, hhash⟩ := h.row
  cases l with
  | none =>
    obtain ⟨now, hshared⟩ := hs.of_none.1
    refine Or.inl ⟨⟨old, by rw [hshared]; exact hold, rfl, hhash⟩, ?_⟩
    exact fun j u hsaves => nomatch hsaves.1
  | some i =>
    obtain ⟨o, k, hop, hshared, hself, -⟩ := hs.of_some
    have hat : ClientAt host (cs i) (.op o k) := hop ▸ hwithin i
    rcases hat.step σ.shared with
      ⟨hdb, hnot, -⟩ | ⟨row₀, user, row, hfree, hload, hdb, hwrites, hreturns⟩
    · refine Or.inl ⟨⟨old, by rw [hshared, hdb]; exact hold, rfl, hhash⟩, fun j u hsaves => ?_⟩
      exact absurd ((saves_iff hself).1 hsaves).2 (fun hret => hnot ⟨u, hret⟩)
    · have hafter : σ'.shared.db.findById? d =
          if row.id = d then some row else σ.shared.db.findById? d := by
        rw [hshared, hdb, UserDb.findById?_put]
      rw [hreturns] at hself
      by_cases hid : row.id = d
      · right
        rw [if_pos hid] at hafter
        have huser : user.id.dbUuid = d := by rw [← hid, hwrites.id, Editing.id_edited]
        have hfound : σ.shared.db.findById? user.id.dbUuid = some old := by rw [huser, hold]
        obtain ⟨hne, u, hu⟩ := hwrites.toDomain_ok hload hfound hhash
        have hversion := (hwrites.next old (by rw [Editing.id_edited, hfound])).1
        refine ⟨⟨row, hafter, by rw [hwrites.version, hversion], hne⟩, i, u, ?_, ?_⟩
        · rw [saves_iff hself, hu]
          exact ⟨rfl, rfl⟩
        · rw [dbUuid_of_toDomain hu, hid]
      · left
        rw [if_neg hid, hold] at hafter
        refine ⟨⟨old, hafter, rfl, hhash⟩, fun j u hsaves => ?_⟩
        have hret := ((saves_iff hself).1 hsaves).2
        cases hmap : toDomain host row with
        | error e =>
          rw [hmap] at hret
          exact nomatch hret
        | ok u' =>
          rw [hmap] at hret
          obtain rfl : u' = u := by simpa [Except.mapError] using hret
          rw [dbUuid_of_toDomain hmap]
          exact hid

/-- **The version of a row never falls**, and rises with every save of it. -/
theorem version_le_of_run {steps : List (Clients ι × Option ι × Clients ι)}
    (hrun : Run (Clients.Step host) Always σ steps σ') (hwithin : Within host cs σ)
    (h : Stored d version σ) :
    ∃ version', Stored d version' σ' ∧ version ≤ version' ∧
      (version' = version ↔ ∀ q ∈ steps, ∀ j u, Saves j q u → u.id.dbUuid ≠ d) := by
  suffices hall : Within host cs σ' ∧ ∃ version', Stored d version' σ' ∧ version ≤ version' ∧
      (version' = version ↔ ∀ q ∈ steps, ∀ j u, Saves j q u → u.id.dbUuid ≠ d) from hall.2
  induction hrun with
  | start => exact ⟨hwithin, version, h, le_refl _, by simp⟩
  | next _ _ hs ih =>
    obtain ⟨hat, version', hstored, hle, hiff⟩ := ih
    refine ⟨hat.step hs, ?_⟩
    simp only [List.mem_append, List.mem_singleton, or_imp, forall_and, forall_eq]
    rcases hstored.step hat hs with ⟨hnext, hquiet⟩ | ⟨hnext, j, u, hsaves, hid⟩
    · exact ⟨version', hnext, hle, fun heq => ⟨hiff.1 heq, hquiet⟩, fun hall => hiff.2 hall.1⟩
    · refine ⟨version' + 1, hnext, by omega, fun heq => by omega, ?_⟩
      exact fun hall => absurd hid (hall.2 j u hsaves)

theorem Within.run {steps : List (Clients ι × Option ι × Clients ι)}
    (h : Within host cs σ) (hrun : Run (Clients.Step host) Always σ steps σ') :
    Within host cs σ' :=
  hrun.reach.invariant h fun hat _ hs => hat.step hs

/-- A client that has loaded stays within the `save` of that entity. -/
theorem SaveAt.run {steps : List (Clients ι × Option ι × Clients ι)} {i : ι} {user : User}
    {now : Date} (h : SaveAt host user now (σ.tasks i))
    (hrun : Run (Clients.Step host) Always σ steps σ') : SaveAt host user now (σ'.tasks i) := by
  induction hrun with
  | start => exact h
  | @next _ σ₁ σ₂ l _ _ hs ih =>
    cases l with
    | none =>
      rw [hs.of_none.2]
      exact ih
    | some j =>
      obtain ⟨o, k, hop, -, hself, hothers⟩ := hs.of_some
      by_cases hij : i = j
      · subst hij
        have hat : SaveAt host user now (.op o k) := hop ▸ ih
        rw [hself]
        rcases hat.step σ₁.shared with ⟨-, -, hnext⟩ | ⟨row, -, -, -, hreturns⟩
        · exact hnext
        · rw [hreturns]
          exact .done _
      · rw [hothers i hij]
        exact ih

/-- After a load, the client is about to save and the table has what it loaded. -/
theorem Loads.after {i : ι} {user : User} (h : Loads host cs i (σ, l, σ') user)
    (hs : Clients.Step host σ l σ') :
    SaveAt host ((cs i).edited user) (cs i).now (σ'.tasks i) ∧
      Stored user.id.dbUuid user.version σ' := by
  obtain ⟨rfl, hbefore, hup, row, hrow, hload⟩ := h
  obtain ⟨o, k, hop, hshared, hself, -⟩ := hs.of_some
  rw [hbefore, run_client_eq] at hop
  cases hop
  have hexec : UserOp.exec host (.findUniqueById (cs i).id) σ.shared =
      (.ok (some row), σ.shared.next) := by
    rw [← hrow, UserOp.exec, hup, Bool.and_false, if_neg Bool.false_ne_true]
    rfl
  rw [hexec] at hshared hself
  dsimp only at hself
  rw [hload] at hself
  have hid : user.id.dbUuid = (cs i).id.dbUuid := by
    rw [dbUuid_of_toDomain hload, UserDb.id_of_findById? hrow]
  obtain ⟨hv4, hne, rfl⟩ := toDomain_eq_ok.1 hload
  refine ⟨?_, ⟨row, by rw [hshared, hid]; exact hrow, rfl, hne⟩⟩
  rw [hself]
  exact .finding

/-- A save that succeeds has replaced the version before the one of its entity. -/
theorem Saves.replaces {i : ι} {user u : User} {now : Date} (h : Saves i (σ, l, σ') u)
    (hat : SaveAt host user now (σ.tasks i)) (hs : Clients.Step host σ l σ')
    (hstored : Stored user.id.dbUuid version σ) :
    user.version = version + 1 ∧ u.id.dbUuid = user.id.dbUuid := by
  obtain rfl : l = some i := h.1
  obtain ⟨o, k, hop, hshared, hself, -⟩ := hs.of_some
  rw [hop] at hat
  have hret := ((saves_iff hself).1 h).2
  rcases hat.step σ.shared with ⟨-, hnot, -⟩ | ⟨row, hfree, hdb, hwrites, hreturns⟩
  · exact absurd ⟨u, hret⟩ hnot
  · obtain ⟨old, hold, rfl, -⟩ := hstored.row
    rw [hreturns] at hret
    cases hmap : toDomain host row with
    | error e =>
      rw [hmap] at hret
      exact nomatch hret
    | ok u' =>
      rw [hmap] at hret
      obtain rfl : u' = u := by simpa [Except.mapError] using hret
      exact ⟨(hwrites.next old hold).1, by rw [dbUuid_of_toDomain hmap, hwrites.id]⟩

/-- **A save overwrites nobody else's** exactly when the methods of its client
have raised the version at most once. -/
theorem lostUpdate_iff {w : UserWorld} {pre mid post : List (Clients ι × Option ι × Clients ι)}
    {q s : Clients ι × Option ι × Clients ι} {i : ι} {user u : User}
    (hrun : Run (Clients.Step host) Always (Clients.start host cs w)
      (pre ++ q :: (mid ++ s :: post)) σ)
    (hload : Loads host cs i q user) (hsave : Saves i s u) :
    (∀ p ∈ mid, ∀ j u', Saves j p u' → u'.id.dbUuid ≠ u.id.dbUuid) ↔
      ((cs i).edited user).version ≤ user.version + 1 := by
  obtain ⟨σ₁, hpre, hrest⟩ := hrun.of_append
  obtain ⟨rfl, -, hq, hrest⟩ := hrest.of_cons
  obtain ⟨σ₂, hmid, hrest⟩ := hrest.of_append
  obtain ⟨rfl, -, hs, -⟩ := hrest.of_cons
  obtain ⟨hat, hstored⟩ := hload.after hq
  have hwithin : Within host cs q.2.2 := ((Within.start w).run hpre).step hq
  obtain ⟨version, hthen, hle, hquiet⟩ := version_le_of_run hmid hwithin hstored
  have hid : ((cs i).edited user).id.dbUuid = user.id.dbUuid := by rw [Editing.id_edited]
  obtain ⟨hversion, hsame⟩ := hsave.replaces (hat.run hmid) hs (by rw [hid]; exact hthen)
  rw [hsame, hid, ← hquiet, hversion]
  constructor
  · intro heq
    rw [heq]
  · intro hmost
    omega

/-- No save succeeds after another one of the same user since its client's load. -/
def NoLostUpdates (host : Host) (cs : ι → Editing)
    (steps : List (Clients ι × Option ι × Clients ι)) : Prop :=
  ∀ pre q mid s post i user u, steps = pre ++ q :: (mid ++ s :: post) → Loads host cs i q user →
    Saves i s u → ∀ p ∈ mid, ∀ j u', Saves j p u' → u'.id.dbUuid ≠ u.id.dbUuid

/-- **No lost updates** in a run, exactly when every client that saves in it has
raised the version it loaded at most once. -/
theorem noLostUpdates_iff {w : UserWorld} {steps : List (Clients ι × Option ι × Clients ι)}
    (hrun : Run (Clients.Step host) Always (Clients.start host cs w) steps σ) :
    NoLostUpdates host cs steps ↔
      ∀ pre q mid s post i user u, steps = pre ++ q :: (mid ++ s :: post) →
        Loads host cs i q user → Saves i s u →
          ((cs i).edited user).version ≤ user.version + 1 := by
  constructor
  · rintro h pre q mid s post i user u rfl hload hsave
    exact (lostUpdate_iff hrun hload hsave).1 (h pre q mid s post i user u rfl hload hsave)
  · rintro h pre q mid s post i user u rfl hload hsave
    exact (lostUpdate_iff hrun hload hsave).2 (h pre q mid s post i user u rfl hload hsave)

end

/-! ## Two methods in one go -/

/-- A client that renames the user, one call after another. -/
def renamer (names : List (String × String)) : Editing where
  id := grace
  calls _ := names.map fun name => (.updateProfile name.1 name.2, ⟨1, grace⟩)
  now := 1
  hashes := by
    rintro user p hp newPassword hcall
    obtain ⟨name, -, rfl⟩ := List.mem_map.1 hp
    exact nomatch hcall

/-- Two clients rename the user once each. -/
def singleRenamers : Bool → Editing
  | false => renamer [("Admiral", "Hopper")]
  | true => renamer [("Grace", "Brewster")]

/-- One client renames the user once, the other one twice. -/
def renamers : Bool → Editing
  | false => renamer [("Admiral", "Hopper")]
  | true => renamer [("Grace", "Brewster"), ("Grace", "Murray")]

/-- Both clients load the user, then the one saves and then the other. -/
def bothLoad (cs : Bool → Editing) : List (Clients Bool × Option Bool × Clients Bool) :=
  (Clients.start plainHost cs (calmWorld gracesDb)).schedule (UserOp.exec plainHost)
    [true, false, false, false, true, true]

theorem noLostUpdates_singleRenamers :
    NoLostUpdates plainHost singleRenamers (bothLoad singleRenamers) := by
  refine (noLostUpdates_iff (System.run_schedule (by decide +kernel))).2 ?_
  intro pre q mid s post i user u _ _ _
  cases i with
  | false => exact user.version_afterCalls_le _
  | true => exact user.version_afterCalls_le _

/-- Reading off that a save succeeds, and of whom. -/
theorem exists_saves {ι : Type} {i : ι} {p : Clients ι × Option ι × Clients ι} {d : DbUuid}
    (hlabel : p.2.1 = some i)
    (h : (p.2.2.result? i).map (fun r => r.toOption.map fun u => u.id.dbUuid) = some (some d)) :
    ∃ u, Saves i p u ∧ u.id.dbUuid = d := by
  obtain ⟨r, hresult, hr⟩ := Option.map_eq_some_iff.1 h
  obtain ⟨u, hu, hid⟩ := Option.map_eq_some_iff.1 hr
  cases r with
  | error e => exact nomatch hu
  | ok u' =>
    obtain rfl : u' = u := Option.some.inj hu
    exact ⟨u', ⟨hlabel, hresult⟩, hid⟩

/-- The second client saves over the first one's change. -/
theorem not_noLostUpdates :
    ¬ ∀ (host : Host) (cs : Bool → Editing) (w : UserWorld)
        (steps : List (Clients Bool × Option Bool × Clients Bool)) (σ : Clients Bool),
        Run (Clients.Step host) Always (Clients.start host cs w) steps σ →
          NoLostUpdates host cs steps := by
  intro h
  have hloads : Loads plainHost renamers true ((bothLoad renamers).get ⟨0, by decide⟩)
      (entity plainHost gracesRow (by decide +kernel)) :=
    ⟨rfl, rfl, rfl, gracesRow, by decide +kernel, toDomain_eq_ok.2 ⟨_, by decide, rfl⟩⟩
  obtain ⟨u, hsaves, hid⟩ : ∃ u, Saves true ((bothLoad renamers).get ⟨5, by decide⟩) u ∧
      u.id.dbUuid = grace.dbUuid := exists_saves rfl (by decide +kernel)
  obtain ⟨u', hsaves', hid'⟩ : ∃ u, Saves false ((bothLoad renamers).get ⟨3, by decide⟩) u ∧
      u.id.dbUuid = grace.dbUuid := exists_saves rfl (by decide +kernel)
  refine h plainHost renamers (calmWorld gracesDb) (bothLoad renamers) _
    (System.run_schedule (by decide +kernel)) [] _
    [(bothLoad renamers).get ⟨1, by decide⟩, (bothLoad renamers).get ⟨2, by decide⟩,
      (bothLoad renamers).get ⟨3, by decide⟩, (bothLoad renamers).get ⟨4, by decide⟩]
    _ [] true _ u rfl hloads hsaves _ ?_ false u' hsaves' (hid'.trans hid.symm)
  simp

end EnterpriseSystem.Identity
