import EnterpriseSystem.Identity.LostUpdates

/-!
# One user for an address

Any number of `registerUser` calls and of clients that change users and save
them, interleaved at their awaits.

* `Registration`, `Actor` — the calls; `checking`, `hashing` and the places
  within `save` are where a registration can be.
* `Actor.step` — one operation of either leaves the table alone, or writes the
  row of an entity whose address is in normal form.
* `rows_unique` — no two rows have the same address up to case and white space.
* `OnTrack` — a registration whose steps succeed returns its user, or finds that
  the address is taken.
* `addresses_unique` — of the registrations of one address at most one returns,
  unless a save has given the address up in between.
-/

namespace EnterpriseSystem.Identity

open Objects Relational Concurrency UserRepositoryImpl UserDomainService

/-! ## Registrations -/

/-- The arguments of `registerUser`, with what it draws. -/
structure Registration where
  email : Email
  rawPassword : Password
  firstName : String
  lastName : String
  id : UniqueId
  m : Moment

/-- The call. -/
def Registration.register (host : Host) (r : Registration) : UserTask User :=
  registerUser host r.email r.rawPassword r.firstName r.lastName r.id r.m

/-- The entity it saves, for a hash. -/
def Registration.entity (r : Registration) (hash : String) : Except Thrown User :=
  (Password.fromHash hash).bind fun hashedPassword =>
    User.create r.email hashedPassword r.firstName r.lastName r.id r.m

/-- A registration after the check. -/
def hashing (host : Host) (r : Registration) : Progress :=
  if r.rawPassword.rawValue = "" then
    .ret (.error (.error "Password to hash must be a non-empty string"))
  else .op (.bcryptHash r.rawPassword.rawValue) fun answer => match answer with
    | .ok hash => match r.entity hash with
      | .ok user => finding host user r.m.now
      | .error e => .ret (.error e)
    | .error _ => .ret (.error (.error "Password hashing failed"))

/-- A registration before its first operation. -/
def checking (host : Host) (r : Registration) : Progress :=
  .op (.countByEmail r.email.value) fun answer => match answer with
    | .ok count =>
      if (show ℕ from count) > 0 then .ret (.error (.emailAlreadyExists r.email.value))
      else hashing host r
    | .error _ => .ret (.error transformError)

/-- What follows a `save`: the entity that it returns has raised no events. -/
theorem run_persistAndDispatch_eq (host : Host) (user : User) (now : Date) :
    ExceptT.run (persistAndDispatch host user now) = finding host user now := by
  have hleaf : ∀ row, (Prog.ret ((toDomain host row).mapError (saveFailed user)) : Progress).bind
      (ExceptT.bindCont fun savedUser => (do
        let pulled ← onEntity User.pullDomainEvents savedUser
        if pulled.1.length > 0 then
          UserTask.publish pulled.1
        return pulled.2 : UserTask User)) =
      .ret ((toDomain host row).mapError (saveFailed user)) := by
    intro row
    cases hmap : toDomain host row with
    | error e => rfl
    | ok u =>
      obtain ⟨hv4, -, rfl⟩ := toDomain_eq_ok.1 hmap
      rfl
  show (ExceptT.run (save host user now)).bind _ = _
  rw [run_save_eq]
  refine congrArg (Prog.op (UserOp.findUniqueById user.id)) (funext fun r => ?_)
  rcases r with e | found
  · rfl
  · cases found with
    | none =>
      refine congrArg (Prog.op _) (funext fun r => ?_)
      rcases r with e | row
      · rfl
      · exact hleaf row
    | some old =>
      refine congrArg (Prog.op _) (funext fun r => ?_)
      rcases r with e | row
      · rfl
      · exact hleaf row

theorem run_register_eq (host : Host) (r : Registration) :
    ExceptT.run (r.register host) = checking host r := by
  -- from the hash on
  have hmake : ∀ hash, ExceptT.run (do
      let hashedPassword ← Task.ofExcept (Password.fromHash hash)
      let user ← Task.ofExcept (User.create r.email hashedPassword r.firstName r.lastName r.id r.m)
      persistAndDispatch host user r.m.now : UserTask User) =
      match r.entity hash with
      | .ok user => finding host user r.m.now
      | .error e => .ret (.error e) := by
    intro hash
    unfold Registration.entity
    cases Password.fromHash hash with
    | error e => rfl
    | ok hashedPassword =>
      show ExceptT.run (do
        let user ← Task.ofExcept
          (User.create r.email hashedPassword r.firstName r.lastName r.id r.m)
        persistAndDispatch host user r.m.now : UserTask User) = _
      dsimp only [Except.bind]
      cases User.create r.email hashedPassword r.firstName r.lastName r.id r.m with
      | error e => rfl
      | ok user => exact run_persistAndDispatch_eq host user r.m.now
  -- from the check on
  have hhash : ExceptT.run (do
      let hash ← PasswordHasherImpl.hash r.rawPassword.rawValue
      let hashedPassword ← Task.ofExcept (Password.fromHash hash)
      let user ← Task.ofExcept (User.create r.email hashedPassword r.firstName r.lastName r.id r.m)
      persistAndDispatch host user r.m.now : UserTask User) = hashing host r := by
    unfold PasswordHasherImpl.hash hashing
    split_ifs
    · rfl
    · refine congrArg (Prog.op (UserOp.bcryptHash r.rawPassword.rawValue)) (funext fun answer => ?_)
      cases answer with
      | error e => rfl
      | ok hash => exact hmake hash
  have hassoc : r.register host = (do
      let emailExists ← existsByEmail r.email
      if emailExists then throw (.emailAlreadyExists r.email.value)
      else do
        let hash ← PasswordHasherImpl.hash r.rawPassword.rawValue
        let hashedPassword ← Task.ofExcept (Password.fromHash hash)
        let user ← Task.ofExcept
          (User.create r.email hashedPassword r.firstName r.lastName r.id r.m)
        persistAndDispatch host user r.m.now) := by
    unfold Registration.register registerUser newUser
    simp only [bind_assoc]
    refine congrArg _ (funext fun emailExists => ?_)
    cases emailExists with
    | true => rfl
    | false => simp only [Bool.false_eq_true, if_false, bind_assoc]
  rw [hassoc]
  refine congrArg (Prog.op (UserOp.countByEmail r.email.value)) (funext fun answer => ?_)
  cases answer with
  | error e => rfl
  | ok count =>
    -- the branch of the code is taken on the `Bool` of the comparison
    by_cases hcount : (show ℕ from count) > 0
    · refine Eq.trans ?_ (if_pos hcount).symm
      have htrue : decide ((show ℕ from count) > 0) = true := decide_eq_true hcount
      show ExceptT.run (if decide ((show ℕ from count) > 0) = true then _ else _) = _
      rw [htrue]
      rfl
    · refine Eq.trans ?_ (hhash.trans (if_neg hcount).symm)
      have hfalse : decide ((show ℕ from count) > 0) = false := decide_eq_false hcount
      show ExceptT.run (if decide ((show ℕ from count) > 0) = true then _ else _) = _
      rw [hfalse]
      rfl

/-- What `User.create` makes of a registration. -/
theorem Registration.entity_eq_ok {r : Registration} {hash : String} {user : User}
    (h : r.entity hash = .ok user) :
    hash ≠ "" ∧ user.id = r.id ∧ user.email = r.email ∧ user.version = 1 ∧
      user.password.hashedValue = some hash := by
  obtain ⟨hashedPassword, hpassword, hcreate⟩ := bind_eq_ok.1 h
  obtain ⟨hne, rfl⟩ := Password.fromHash_eq_ok hpassword
  obtain ⟨-, -, hcreate⟩ := bind_eq_ok.1 hcreate
  obtain ⟨-, -, hcreate⟩ := bind_eq_ok.1 hcreate
  cases hcreate
  exact ⟨hne, rfl, rfl, rfl, rfl⟩

/-! ## Actors -/

/-- Whoever works on the table: a registration, or a client that loads a user,
calls methods of the entity, `changeEmail` among them, and saves it. -/
inductive Actor where
  | registers (r : Registration)
  | edits (c : Editing)

/-- What it does. -/
def Actor.task (host : Host) : Actor → UserTask User
  | registers r => r.register host
  | edits c => c.client host

/-- The entities it may hand to `save`. -/
def Actor.Hands (host : Host) (user : User) : Actor → Prop
  | registers r => ∃ hash, r.entity hash = .ok user
  | edits c => ∃ row loaded, toDomain host row = .ok loaded ∧ user = c.edited loaded

/-- An address comes from one of the two factories, which both trim and
lower-case what they are given. -/
def Email.Made (host : Host) (email : Email) : Prop :=
  ∃ raw, email = .fromPersistence host.toLowerCase raw

/-- The addresses that an actor brings are `Email`s. -/
def Actor.Typed (host : Host) : Actor → Prop
  | registers r => r.email.Made host
  | edits c => ∀ user, ∀ p ∈ c.calls user, ∀ newEmail, p.1 = .changeEmail newEmail →
      newEmail.Made host

theorem Actor.made_of_hands {host : Host} {a : Actor} (ha : a.Typed host) {user : User}
    (h : a.Hands host user) : user.email.Made host := by
  cases a with
  | registers r =>
    obtain ⟨hash, hentity⟩ := h
    rw [(Registration.entity_eq_ok hentity).2.2.1]
    exact ha
  | edits c =>
    obtain ⟨row, loaded, hload, rfl⟩ := h
    rcases loaded.email_afterCalls (c.calls loaded) with hsame | ⟨p, hp, hcall⟩
    · obtain ⟨hv4, -, rfl⟩ := toDomain_eq_ok.1 hload
      exact ⟨row.email, hsame⟩
    · exact ha loaded p hp _ hcall

/-- `p` is within the registration. -/
inductive RegisterAt (host : Host) (r : Registration) : Progress → Prop where
  | checking : RegisterAt host r (checking host r)
  | hashing : RegisterAt host r (hashing host r)
  | saving {hash : String} {user : User} {p : Progress} : r.entity hash = .ok user →
      SaveAt host user r.m.now p → RegisterAt host r p
  | failed (e : Thrown) : RegisterAt host r (.ret (.error e))

/-- `p` is within the code of the actor. -/
def ActorAt (host : Host) : Actor → Progress → Prop
  | .registers r, p => RegisterAt host r p
  | .edits c, p => ClientAt host c p

section

variable {host : Host}

theorem ActorAt.start (a : Actor) : ActorAt host a (ExceptT.run (a.task host)) := by
  cases a with
  | registers r =>
    show RegisterAt host r (ExceptT.run (r.register host))
    rw [run_register_eq]
    exact .checking
  | edits c =>
    show ClientAt host c (ExceptT.run (c.client host))
    rw [run_client_eq]
    exact .loading

/-- One operation of a registration before it saves. -/
theorem hashing_step {r : Registration} {o : UserOp} {k : Except Thrown o.Ans → Progress}
    (h : Prog.op o k = hashing host r) (w : UserWorld) :
    (o.exec host w).2.db = w.db ∧ ¬ Returns (k (o.exec host w).1) ∧
      RegisterAt host r (k (o.exec host w).1) := by
  unfold hashing at h
  split_ifs at h
  cases h
  unfold UserOp.exec
  split_ifs
  · exact ⟨rfl, not_returns_error _, .failed _⟩
  · refine ⟨rfl, ?_⟩
    dsimp only [UserOp.answer]
    cases hentity : r.entity
        (host.bcryptHash r.rawPassword.rawValue (w.salts w.performed)) with
    | error e => exact ⟨not_returns_error _, .failed _⟩
    | ok user => exact ⟨not_returns_op _ _, .saving hentity .finding⟩

theorem not_returns_hashing (r : Registration) : ¬ Returns (hashing host r) := by
  unfold hashing
  split_ifs
  · exact not_returns_error _
  · exact not_returns_op _ _

/-- **One operation of an actor** leaves the table alone and does not return the
entity, or it writes the row of an entity that it may hand over. -/
theorem ActorAt.step {a : Actor} {o : UserOp} {k : Except Thrown o.Ans → Progress}
    (h : ActorAt host a (.op o k)) (w : UserWorld) :
    ActorAt host a (k (o.exec host w).1) ∧
      (((o.exec host w).2.db = w.db ∧ ¬ Returns (k (o.exec host w).1)) ∨
        ∃ user row hfree, a.Hands host user ∧ (o.exec host w).2.db = w.db.put row hfree ∧
          Writes user w.db row) := by
  cases a with
  | edits c =>
    rcases ClientAt.step h w with
      ⟨hdb, hnot, hnext⟩ | ⟨row₀, user, row, hfree, hload, hdb, hwrites, hreturns⟩
    · exact ⟨hnext, .inl ⟨hdb, hnot⟩⟩
    · refine ⟨?_, .inr ⟨_, row, hfree, ⟨row₀, user, hload, rfl⟩, hdb, hwrites⟩⟩
      rw [hreturns]
      exact ClientAt.saving hload (.done _)
  | registers r =>
    have h : RegisterAt host r (.op o k) := h
    generalize hp : (Prog.op o k : Progress) = p at h
    cases h with
    | checking =>
      cases hp
      unfold UserOp.exec
      split_ifs
      · exact ⟨RegisterAt.failed _, .inl ⟨rfl, not_returns_error _⟩⟩
      · dsimp only [UserOp.answer]
        split_ifs
        · exact ⟨RegisterAt.failed _, .inl ⟨rfl, not_returns_error _⟩⟩
        · exact ⟨RegisterAt.hashing, .inl ⟨rfl, not_returns_hashing r⟩⟩
    | hashing =>
      obtain ⟨hdb, hnot, hnext⟩ := hashing_step hp w
      exact ⟨hnext, .inl ⟨hdb, hnot⟩⟩
    | saving hentity hsave =>
      subst hp
      rcases hsave.step w with ⟨hdb, hnot, hnext⟩ | ⟨row, hfree, hdb, hwrites, hreturns⟩
      · exact ⟨RegisterAt.saving hentity hnext, .inl ⟨hdb, hnot⟩⟩
      · refine ⟨?_, .inr ⟨_, row, hfree, ⟨_, hentity⟩, hdb, hwrites⟩⟩
        rw [hreturns]
        exact RegisterAt.saving hentity (.done _)
    | failed e => cases hp

end

/-! ## Runs -/

section

variable {ι : Type} [DecidableEq ι] {host : Host} {actors : ι → Actor}
variable {σ σ' : Clients ι} {l : Option ι}

/-- The actors before their first operation. -/
def Actors.start (host : Host) (actors : ι → Actor) (w : UserWorld) : Clients ι :=
  System.start w fun i => (actors i).task host

/-- Every actor is somewhere in its code. -/
def Placed (host : Host) (actors : ι → Actor) (σ : Clients ι) : Prop :=
  ∀ i, ActorAt host (actors i) (σ.tasks i)

/-- In a step, `i` writes the row of an entity that it may hand over. -/
structure WritesRow (host : Host) (actors : ι → Actor) (σ σ' : Clients ι) (i : ι) (user : User)
    (row : UserRow) : Prop where
  free : σ.shared.db.EmailFree row
  hands : (actors i).Hands host user
  table : σ'.shared.db = σ.shared.db.put row free
  writes : Writes user σ.shared.db row
  before : ¬ Returns (σ.tasks i)
  others : ∀ j, j ≠ i → σ'.tasks j = σ.tasks j

omit [DecidableEq ι] in
theorem Placed.start (w : UserWorld) : Placed host actors (Actors.start host actors w) :=
  fun i => ActorAt.start (actors i)

/-- **One step** leaves the table alone, and nobody returns in it, or one actor
writes a row. -/
theorem Placed.step (h : Placed host actors σ) (hs : Clients.Step host σ l σ') :
    Placed host actors σ' ∧
      ((σ'.shared.db = σ.shared.db ∧ ∀ i, Returns (σ'.tasks i) → Returns (σ.tasks i)) ∨
        ∃ i user row, WritesRow host actors σ σ' i user row) := by
  cases l with
  | none =>
    obtain ⟨⟨now, hshared⟩, htasks⟩ := hs.of_none
    refine ⟨fun i => htasks ▸ h i, .inl ⟨by rw [hshared], fun i hi => htasks ▸ hi⟩⟩
  | some i =>
    obtain ⟨o, k, hop, hshared, hself, hothers⟩ := hs.of_some
    have hat : ActorAt host (actors i) (.op o k) := hop ▸ h i
    obtain ⟨hnext, hcases⟩ := hat.step σ.shared
    refine ⟨fun j => ?_, ?_⟩
    · by_cases hji : j = i
      · subst hji
        rw [hself]
        exact hnext
      · rw [hothers j hji]
        exact h j
    · rcases hcases with ⟨hdb, hnot⟩ | ⟨user, row, hfree, hhands, hdb, hwrites⟩
      · refine .inl ⟨hshared ▸ hdb, fun j hj => ?_⟩
        by_cases hji : j = i
        · subst hji
          rw [hself] at hj
          exact absurd hj hnot
        · rw [hothers j hji] at hj
          exact hj
      · refine .inr ⟨i, user, row, hfree, hhands, hshared ▸ hdb, hwrites, ?_, hothers⟩
        rw [hop]
        exact not_returns_op o k

/-! ### No two rows -/

/-- The addresses of the table are in normal form. -/
def InForm (host : Host) (db : UserDb) : Prop :=
  ∀ row ∈ db.users.rows, host.toLowerCase (trim row.email) = row.email

/-- Addresses that differ in case and white space only belong to one row. -/
theorem InForm.unique {db : UserDb} (h : InForm host db) {row row' : UserRow}
    (hrow : row ∈ db.users.rows) (hrow' : row' ∈ db.users.rows)
    (halike : host.toLowerCase (trim row.email) = host.toLowerCase (trim row'.email)) :
    row = row' := by
  rw [h row hrow, h row' hrow'] at halike
  exact List.inj_on_of_nodup_map db.emails hrow hrow' halike

theorem InForm.step (hlower : LowerCases host) (htyped : ∀ i, (actors i).Typed host)
    (h : InForm host σ.shared.db) (hplaced : Placed host actors σ)
    (hs : Clients.Step host σ l σ') : InForm host σ'.shared.db := by
  rcases (hplaced.step hs).2 with ⟨hdb, -⟩ | ⟨i, user, row, hwrites⟩
  · rw [hdb]
    exact h
  · rw [hwrites.table]
    intro row' hrow'
    rcases Table.mem_put_iff.1 hrow' with rfl | ⟨hold, -⟩
    · obtain ⟨raw, hraw⟩ := (actors i).made_of_hands (htyped i) hwrites.hands
      rw [hwrites.writes.email, hraw]
      exact hlower raw
    · exact h row' hold

/-! ### At most one user -/

/-- A step keeps an address with the row that has it. -/
def KeepsAddress (email : String) (p : Clients ι × Option ι × Clients ι) : Prop :=
  ∀ id row, p.1.shared.db.findById? id = some row → row.email = email →
    ∃ row', p.2.2.shared.db.findById? id = some row' ∧ row'.email = email

/-- Whoever has registered an address has its row, and is the only one. -/
structure Held (actors : ι → Actor) (email : Email) (σ : Clients ι) : Prop where
  row : ∀ i r, actors i = .registers r → r.email = email → Returns (σ.tasks i) →
    ∃ row, σ.shared.db.findById? r.id.dbUuid = some row ∧ row.email = email.value ∧
      1 ≤ row.version
  one : ∀ i j r r', actors i = .registers r → actors j = .registers r' → r.email = email →
    r'.email = email → Returns (σ.tasks i) → Returns (σ.tasks j) → i = j

omit [DecidableEq ι] in
theorem Held.start {email : Email} (w : UserWorld) :
    Held actors email (Actors.start host actors w) := by
  have hnone : ∀ i r, actors i = .registers r →
      ¬ Returns ((Actors.start host actors w).tasks i) := by
    intro i r hi
    show ¬ Returns (ExceptT.run ((actors i).task host))
    rw [hi]
    show ¬ Returns (ExceptT.run (r.register host))
    rw [run_register_eq]
    exact not_returns_op _ _
  exact ⟨fun i r hi _ hreturns => absurd hreturns (hnone i r hi),
    fun i _ r _ hi _ _ _ hreturns _ => absurd hreturns (hnone i r hi)⟩

omit [DecidableEq ι] in
/-- A registration writes no row while another one has the address. -/
theorem Held.not_writes {email : Email} (h : Held actors email σ) {i j : ι} {r r' : Registration}
    {user : User} {row : UserRow} (hwrites : WritesRow host actors σ σ' i user row)
    (hi : actors i = .registers r) (hemail : r.email = email) (hj : actors j = .registers r')
    (hemail' : r'.email = email) : ¬ Returns (σ.tasks j) := by
  intro hreturns
  obtain ⟨old, hold, heq, hversion⟩ := h.row j r' hj hemail' hreturns
  have hhands := hwrites.hands
  rw [hi] at hhands
  obtain ⟨hash, hentity⟩ := hhands
  obtain ⟨-, -, huser, hone, -⟩ := Registration.entity_eq_ok hentity
  have hsame : old.email = row.email := by
    rw [heq, hwrites.writes.email, huser, hemail]
  have hid : old.id = user.id.dbUuid :=
    (hwrites.free old (Table.mem_of_get? hold) hsame).trans hwrites.writes.id
  have hfound : σ.shared.db.findById? user.id.dbUuid = some old := by
    rw [← hid, UserDb.id_of_findById? hold]
    exact hold
  have hnext := (hwrites.writes.next old hfound).1
  omega

/-- **Every step** that keeps the address with its row keeps this. -/
theorem Held.step {email : Email} (h : Held actors email σ) (hplaced : Placed host actors σ)
    (hs : Clients.Step host σ l σ') (hkeeps : KeepsAddress email.value (σ, l, σ')) :
    Held actors email σ' := by
  rcases (hplaced.step hs).2 with ⟨hdb, hreturns⟩ | ⟨i, user, row, hwrites⟩
  · refine ⟨fun j r hj hemail hret => ?_, fun j j' r r' hj hj' he he' hret hret' =>
      h.one j j' r r' hj hj' he he' (hreturns j hret) (hreturns j' hret')⟩
    rw [hdb]
    exact h.row j r hj hemail (hreturns j hret)
  · have hafter : ∀ d, σ'.shared.db.findById? d =
        if row.id = d then some row else σ.shared.db.findById? d := by
      intro d
      rw [hwrites.table, UserDb.findById?_put]
    refine ⟨fun j r hj hemail hret => ?_, fun j j' r r' hj hj' he he' hret hret' => ?_⟩
    · by_cases hji : j = i
      · subst hji
        have hhands := hwrites.hands
        rw [hj] at hhands
        obtain ⟨hash, hentity⟩ := hhands
        obtain ⟨-, hid, huser, hone, -⟩ := Registration.entity_eq_ok hentity
        refine ⟨row, ?_, ?_, ?_⟩
        · rw [hafter, if_pos (by rw [hwrites.writes.id, hid])]
        · rw [hwrites.writes.email, huser, hemail]
        · rw [hwrites.writes.version, hone]
      · rw [hwrites.others j hji] at hret
        obtain ⟨old, hold, heq, hversion⟩ := h.row j r hj hemail hret
        obtain ⟨row', hrow', heq'⟩ := hkeeps _ old hold heq
        refine ⟨row', hrow', heq', ?_⟩
        have hrow'' : σ'.shared.db.findById? r.id.dbUuid = some row' := hrow'
        rw [hafter] at hrow''
        split_ifs at hrow'' with hid
        · obtain rfl := Option.some.inj hrow''
          have hfound : σ.shared.db.findById? user.id.dbUuid = some old := by
            rw [← hwrites.writes.id, hid]
            exact hold
          rw [hwrites.writes.version, (hwrites.writes.next old hfound).1]
          omega
        · rw [hold] at hrow''
          obtain rfl := Option.some.inj hrow''
          exact hversion
    · by_cases hji : j = i
      · by_cases hji' : j' = i
        · rw [hji, hji']
        · subst hji
          rw [hwrites.others j' hji'] at hret'
          exact absurd hret' (h.not_writes hwrites hj he hj' he')
      · by_cases hji' : j' = i
        · subst hji'
          rw [hwrites.others j hji] at hret
          exact absurd hret (h.not_writes hwrites hj' he' hj he)
        · rw [hwrites.others j hji] at hret
          rw [hwrites.others j' hji'] at hret'
          exact h.one j j' r r' hj hj' he he' hret hret'

end

/-! ### The others -/

/-- Apart from the address, nothing is wrong with what the registration is given. -/
structure Registration.Sound (host : Host) (r : Registration) : Prop where
  password : r.rawPassword.rawValue ≠ ""
  entity : ∀ salt, ∃ user, r.entity (host.bcryptHash r.rawPassword.rawValue salt) = .ok user ∧
    ∀ clock, ((columns user).newRow r.id.dbUuid
      (host.bcryptHash r.rawPassword.rawValue salt) clock).fits = true

/-- `p` is within a registration none of whose steps has failed. -/
inductive OnTrack (host : Host) (r : Registration) : Progress → Prop where
  | checking : OnTrack host r (checking host r)
  | hashing : OnTrack host r (hashing host r)
  | finding {salt : String} {user : User} :
      r.entity (host.bcryptHash r.rawPassword.rawValue salt) = .ok user →
      OnTrack host r (finding host user r.m.now)
  | creating {salt : String} {user : User} :
      r.entity (host.bcryptHash r.rawPassword.rawValue salt) = .ok user →
      OnTrack host r (creating host user)
  | returned (user : User) : OnTrack host r (.ret (.ok user))
  | taken : OnTrack host r (.ret (.error (.emailAlreadyExists r.email.value)))

section

variable {host : Host} {r : Registration} {w : UserWorld}

/-- The insertion writes the row, or finds that the address is taken. -/
theorem create_or_taken (hsound : r.Sound host) {salt : String} {user : User}
    (hentity : r.entity (host.bcryptHash r.rawPassword.rawValue salt) = .ok user)
    (hfresh : w.db.findById? r.id.dbUuid = none) :
    (∃ row u, (w.db.create user.id.dbUuid (columns user)
        (user.password.hashedValue.getD "") w.clock).1 = .ok row ∧ toDomain host row = .ok u) ∨
      (w.db.create user.id.dbUuid (columns user)
        (user.password.hashedValue.getD "") w.clock).1 =
          .error (.knownRequest "P2002" ["email"]) := by
  obtain ⟨hne, hid, -, -, hpassword⟩ := Registration.entity_eq_ok hentity
  obtain ⟨user', huser', hfits⟩ := hsound.entity salt
  obtain rfl : user = user' := Except.ok.inj (hentity.symm.trans huser')
  unfold UserDb.create
  rw [hpassword, hid, Option.getD_some]
  dsimp only
  rw [if_neg (by rw [hfits]; exact nofun), if_neg (not_not.2 hfresh)]
  split_ifs with hfree
  · have hkept : varChar 255 (host.bcryptHash r.rawPassword.rawValue salt) ≠ "" := by
      rw [Ne, varChar_eq_empty (Nat.succ_pos 254)]
      exact hne
    exact .inl ⟨_, _, rfl, toDomain_eq_ok.2 ⟨isUuidV4_lowerAscii r.id.wellFormed, hkept, rfl⟩⟩
  · exact .inr rfl

/-- The address is taken. -/
theorem saveFailed_taken {hash : String} {user : User} (hentity : r.entity hash = .ok user) :
    saveFailed user (.knownRequest "P2002" ["email"]) = .emailAlreadyExists r.email.value := by
  rw [← (Registration.entity_eq_ok hentity).2.2.1]
  have hcond : "P2002" = "P2002" ∧ "email" ∈ ["email"] := ⟨rfl, List.mem_singleton_self _⟩
  unfold saveFailed
  dsimp only
  rw [if_pos hcond]

/-- **One operation** that does not fail, while no row has the identifier. -/
theorem OnTrack.step {o : UserOp} {k : Except Thrown o.Ans → Progress}
    (h : OnTrack host r (.op o k)) (hsound : r.Sound host) (hup : w.down = false)
    (hfresh : w.db.findById? r.id.dbUuid = none) : OnTrack host r (k (o.exec host w).1) := by
  have hexec : o.exec host w = ((o.answer host w).1, (o.answer host w).2.next) := by
    unfold UserOp.exec
    rw [hup, Bool.and_false, if_neg Bool.false_ne_true]
  rw [hexec]
  generalize hp : (Prog.op o k : Progress) = p at h
  cases h with
  | checking =>
    cases hp
    dsimp only [UserOp.answer]
    split_ifs
    · exact .taken
    · exact .hashing
  | hashing =>
    unfold Identity.hashing at hp
    rw [if_neg hsound.password] at hp
    cases hp
    dsimp only [UserOp.answer]
    obtain ⟨user, huser, -⟩ := hsound.entity (w.salts w.performed)
    rw [huser]
    exact .finding huser
  | finding hentity =>
    cases hp
    dsimp only [UserOp.answer]
    rw [(Registration.entity_eq_ok hentity).2.1, hfresh]
    exact .creating hentity
  | creating hentity =>
    cases hp
    dsimp only [UserOp.answer]
    rcases create_or_taken hsound hentity hfresh with ⟨row, u, hrow, hu⟩ | htaken
    · rw [hrow]
      dsimp only
      rw [hu]
      exact .returned u
    · rw [htaken]
      dsimp only
      rw [saveFailed_taken hentity]
      exact .taken
  | returned user => exact nomatch hp
  | taken => exact nomatch hp

end

/-! ## The promise -/

section

variable {ι : Type} [DecidableEq ι] {host : Host} {actors : ι → Actor}
variable {σ : Clients ι} {steps : List (Clients ι × Option ι × Clients ι)}

/-- In a run, the other steps of a registration succeed: what it is given is
sound, none of its operations fails, and the identifier it has drawn is new. -/
structure OthersSucceed (host : Host) (steps : List (Clients ι × Option ι × Clients ι)) (i : ι)
    (r : Registration) : Prop where
  sound : r.Sound host
  smooth : ∀ p ∈ steps, p.2.1 = some i →
    p.1.shared.down = false ∧ p.1.shared.db.findById? r.id.dbUuid = none

/-- **One user for an address**, after a run, as far as the addresses go that
`covered` holds of. -/
structure OneForAddress (host : Host) (actors : ι → Actor)
    (steps : List (Clients ι × Option ι × Clients ι)) (σ : Clients ι) (covered : Email → Prop) :
    Prop where
  /-- No two rows have addresses that differ in case and white space only. -/
  rows : ∀ row ∈ σ.shared.db.users.rows, ∀ row' ∈ σ.shared.db.users.rows,
    host.toLowerCase (trim row.email) = host.toLowerCase (trim row'.email) → row = row'
  /-- At most one registration of an address returns a user. -/
  one : ∀ i j r r', actors i = .registers r → actors j = .registers r' → r.email = r'.email →
    covered r.email → Returns (σ.tasks i) → Returns (σ.tasks j) → i = j
  /-- Each of the others, once it is over, has thrown `EmailAlreadyExistsException`. -/
  others : ∀ i j r r', actors i = .registers r → actors j = .registers r' → r.email = r'.email →
    covered r.email → i ≠ j → Returns (σ.tasks i) → OthersSucceed host steps j r' →
    ∀ result, σ.result? j = some result → result = .error (.emailAlreadyExists r'.email.value)

theorem placed_and_inForm_of_run (hlower : LowerCases host)
    (htyped : ∀ i, (actors i).Typed host) {w : UserWorld} (hform : InForm host w.db)
    (hrun : Run (Clients.Step host) Always (Actors.start host actors w) steps σ) :
    Placed host actors σ ∧ InForm host σ.shared.db := by
  induction hrun with
  | start => exact ⟨.start w, hform⟩
  | next _ _ hs ih => exact ⟨(ih.1.step hs).1, ih.2.step hlower htyped ih.1 hs⟩

theorem held_of_run {w : UserWorld}
    (hrun : Run (Clients.Step host) Always (Actors.start host actors w) steps σ) {email : Email}
    (hkeeps : ∀ p ∈ steps, KeepsAddress email.value p) : Held actors email σ := by
  suffices hboth : Placed host actors σ ∧ Held actors email σ from hboth.2
  induction hrun with
  | start => exact ⟨.start w, .start w⟩
  | next _ _ hs ih =>
    obtain ⟨hplaced, hheld⟩ := ih fun p hp => hkeeps p (List.mem_append_left _ hp)
    have hlast := hkeeps _ (List.mem_append_right _ (List.mem_singleton_self _))
    exact ⟨(hplaced.step hs).1, hheld.step hplaced hs hlast⟩

theorem onTrack_of_run {w : UserWorld}
    (hrun : Run (Clients.Step host) Always (Actors.start host actors w) steps σ) {i : ι}
    {r : Registration} (hi : actors i = .registers r) (h : OthersSucceed host steps i r) :
    OnTrack host r (σ.tasks i) := by
  obtain ⟨hsound, hsmooth⟩ := h
  induction hrun with
  | start =>
    show OnTrack host r (ExceptT.run ((actors i).task host))
    rw [hi]
    show OnTrack host r (ExceptT.run (r.register host))
    rw [run_register_eq]
    exact .checking
  | @next steps σ σ' l _ _ hs ih =>
    have hbefore := ih fun p hp => hsmooth p (List.mem_append_left _ hp)
    cases l with
    | none =>
      rw [hs.of_none.2]
      exact hbefore
    | some j =>
      obtain ⟨o, k, hop, -, hself, hothers⟩ := hs.of_some
      by_cases hij : i = j
      · subst hij
        obtain ⟨hup, hfresh⟩ := hsmooth (σ, some i, σ')
          (List.mem_append_right _ (List.mem_singleton_self _)) rfl
        rw [hself]
        exact (hop ▸ hbefore).step hsound hup hfresh
      · rw [hothers i hij]
        exact hbefore

/-- **One user for an address** after every run of registrations and of clients
that change users, as long as no step takes the address from the row that has it. -/
theorem addresses_unique (hlower : LowerCases host) (htyped : ∀ i, (actors i).Typed host)
    {w : UserWorld} (hform : InForm host w.db)
    (hrun : Run (Clients.Step host) Always (Actors.start host actors w) steps σ) :
    OneForAddress host actors steps σ
      fun email => ∀ p ∈ steps, KeepsAddress email.value p := by
  have hrows := (placed_and_inForm_of_run hlower htyped hform hrun).2
  have hone : ∀ i j r r', actors i = .registers r → actors j = .registers r' →
      r.email = r'.email → (∀ p ∈ steps, KeepsAddress r.email.value p) →
      Returns (σ.tasks i) → Returns (σ.tasks j) → i = j := by
    intro i j r r' hi hj hemail hkeeps
    exact (held_of_run hrun hkeeps).one i j r r' hi hj rfl hemail.symm
  refine ⟨fun row hrow row' hrow' => hrows.unique hrow hrow', hone, ?_⟩
  intro i j r r' hi hj hemail hkeeps hij hreturns hsucceed result hresult
  have htrack := onTrack_of_run hrun hj hsucceed
  have hresult : (σ.tasks j).result? = some result := hresult
  generalize htask : σ.tasks j = p at htrack hresult
  cases htrack with
  | returned user =>
    exact absurd (hone i j r r' hi hj hemail hkeeps hreturns ⟨user, htask⟩) hij
  | taken => exact (Option.some.inj hresult).symm
  | hashing =>
    unfold hashing at hresult
    rw [if_neg hsucceed.sound.password] at hresult
    exact nomatch hresult
  | checking => exact nomatch hresult
  | finding _ => exact nomatch hresult
  | creating _ => exact nomatch hresult

end

/-! ## Two registrations and a mover -/

/-- Two registrations of one address, and a client that moves the user of the
first one to another address. -/
inductive Party where
  | first
  | second
  | mover
  deriving DecidableEq

/-- The identifier that the second registration draws. -/
def brewster : UniqueId := ⟨"00000000-0000-4000-8000-00000000000c", by decide +kernel⟩

/-- What they do. -/
def parties : Party → Actor
  | .first => .registers ⟨⟨"grace@example.com"⟩, ⟨"Str0ng!Pass", none⟩, "Grace", "Hopper", grace,
      ⟨0, grace⟩⟩
  | .second => .registers ⟨⟨"grace@example.com"⟩, ⟨"Str0ng!Pass", none⟩, "Grace", "Brewster",
      brewster, ⟨0, brewster⟩⟩
  | .mover => .edits
    { id := grace
      calls := fun _ => [(.changeEmail ⟨"hopper@example.com"⟩, ⟨1, grace⟩)]
      now := 1
      hashes := by
        intro user p hp newPassword hcall
        obtain rfl := List.mem_singleton.1 hp
        exact nomatch hcall }

theorem typed_parties : ∀ i, (parties i).Typed plainHost := by
  have hgrace : Email.Made plainHost ⟨"grace@example.com"⟩ :=
    ⟨" Grace@example.com", by decide +kernel⟩
  intro i
  cases i with
  | first => exact hgrace
  | second => exact hgrace
  | mover =>
    intro user p hp newEmail hcall
    obtain rfl := List.mem_singleton.1 hp
    obtain rfl := UserCall.changeEmail.inj hcall
    exact ⟨"Hopper@example.com ", by decide +kernel⟩

/-- The parties on an empty table, woken in this order. -/
def partiesRun (order : List Party) : List (Clients Party × Option Party × Clients Party) :=
  (Actors.start plainHost parties (calmWorld emptyDb)).schedule (UserOp.exec plainHost) order

/-- Where they are then. -/
def partiesAfter (order : List Party) : Clients Party :=
  order.foldl (System.next (UserOp.exec plainHost))
    (Actors.start plainHost parties (calmWorld emptyDb))

/-- Both registrations find the address free, and then both go on. -/
def bothRegister : List Party :=
  [.first, .second, .first, .second, .first, .second, .first, .second]

/-- A step keeps every address when it keeps every row. -/
theorem keepsAddress_of_rows {p : Clients Party × Option Party × Clients Party}
    (h : ∀ row ∈ p.1.shared.db.users.rows, p.2.2.shared.db.findById? row.id = some row)
    (email : String) : KeepsAddress email p := by
  intro id row hrow hemail
  have hkept := h row (Table.mem_of_get? hrow)
  rw [UserDb.id_of_findById? hrow] at hkept
  exact ⟨row, hkept, hemail⟩

theorem addresses_unique_bothRegister :
    OneForAddress plainHost parties (partiesRun bothRegister) (partiesAfter bothRegister)
      fun _ => True := by
  have hempty : InForm plainHost (calmWorld emptyDb).db := nofun
  have hschedule : Run (Clients.Step plainHost) Always
      (Actors.start plainHost parties (calmWorld emptyDb)) (partiesRun bothRegister)
      (partiesAfter bothRegister) := System.run_schedule (by decide +kernel)
  have hrun := addresses_unique lowerCases_plainHost typed_parties hempty hschedule
  have hkeeps : ∀ email, ∀ p ∈ partiesRun bothRegister, KeepsAddress email p := by
    intro email p hp
    refine keepsAddress_of_rows ?_ email
    revert p
    decide +kernel
  exact ⟨hrun.rows,
    fun i j r r' hi hj hemail _ => hrun.one i j r r' hi hj hemail (hkeeps r.email.value),
    fun i j r r' hi hj hemail _ => hrun.others i j r r' hi hj hemail (hkeeps r.email.value)⟩

/-- The first registration returns, its user moves to another address, and the
second one, which has found the address free, returns as well. -/
def movedBetween : List Party :=
  [.first, .second, .first, .first, .first, .mover, .mover, .mover, .second, .second, .second]

/-- Reading off that a task returns. -/
theorem returns_of_isOk {p : Progress} (h : p.result?.map Except.isOk = some true) : Returns p := by
  obtain ⟨r, hresult, hok⟩ := Option.map_eq_some_iff.1 h
  cases p with
  | op o k => exact nomatch hresult
  | ret r' =>
    obtain rfl : r' = r := Option.some.inj hresult
    cases r' with
    | error e => exact nomatch hok
    | ok u => exact ⟨u, rfl⟩

theorem not_addresses_unique :
    ¬ ∀ (host : Host) (actors : Party → Actor) (w : UserWorld)
        (steps : List (Clients Party × Option Party × Clients Party)) (σ : Clients Party),
        LowerCases host → (∀ i, (actors i).Typed host) → InForm host w.db →
        Run (Clients.Step host) Always (Actors.start host actors w) steps σ →
          OneForAddress host actors steps σ fun _ => True := by
  intro h
  have hmoved := h plainHost parties (calmWorld emptyDb) (partiesRun movedBetween)
    (partiesAfter movedBetween) lowerCases_plainHost typed_parties nofun
    (System.run_schedule (by decide +kernel))
  have hsame := hmoved.one .first .second _ _ rfl rfl rfl trivial
    (returns_of_isOk (by decide +kernel)) (returns_of_isOk (by decide +kernel))
  exact nomatch hsame

end EnterpriseSystem.Identity
