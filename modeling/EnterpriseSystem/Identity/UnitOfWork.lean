import EnterpriseSystem.Identity.UserDomainService

/-!
# The unit of work

`src/infrastructure/database/unit-of-work.ts` over `PrismaService.transaction`
and the writes of the user repository.

* `PrismaClient`, `UnitOp`, `UnitWorld`, `UnitOp.exec` — statements go through
  the base client or through the one of the open transaction; a rollback takes
  back those of the second kind.
* `UserRepo.save`, `UserRepo.delete`, `PrismaService.transaction`,
  `UnitOfWork.execute` — the code.
* `replay` — what calls of the repository do by themselves.
* `allOrNothing_iff` — a function that throws leaves the table as it was exactly
  when its calls do.
-/

namespace EnterpriseSystem.Identity

open Relational Concurrency

/-! ## Statements -/

/-- The client a statement goes through. -/
inductive PrismaClient where
  /-- `this.prisma.client`. -/
  | base
  /-- The argument of the callback of `$transaction`. -/
  | tx

/-- A statement of the repository. -/
inductive Statement where
  | user (o : UserOp)
  /-- `user.delete({ where: { id } })`. -/
  | delete (id : UniqueId)

/-- What a statement answers. -/
def Statement.Ans : Statement → Type
  | user o => o.Ans
  | delete _ => Unit

/-- The operations awaited under a unit of work. -/
inductive UnitOp where
  | begin
  | statement (client : PrismaClient) (s : Statement)
  | commit
  | rollback

/-- What an operation answers. -/
def UnitOp.Ans : UnitOp → Type
  | begin => Unit
  | statement _ s => s.Ans
  | commit => Unit
  | rollback => Unit

/-- An asynchronous function under a unit of work. -/
abbrev UnitTask (α : Type) : Type := Task UnitOp UnitOp.Ans Thrown α

/-- What has been written through the base client, and the statements issued
through the client of the transaction since it began. -/
structure UnitWorld where
  committed : UserWorld
  pending : List Statement

/-- The table without the row of an identifier. -/
def UserDb.remove (db : UserDb) (id : DbUuid) : UserDb where
  users := db.users.remove fun row => row.id = id
  emails := db.emails.sublist (List.filter_sublist.map UserRow.email)

section

variable (host : Host)

/-- One statement. -/
def Statement.exec : (s : Statement) → UserWorld → Except Thrown s.Ans × UserWorld
  | .user o, w => o.exec host w
  | .delete id, w =>
    if w.down then (.error outage, w.next)
    else match w.db.findById? id.dbUuid with
      | none => (.error (.knownRequest "P2025" []), w.next)
      | some _ => (.ok (), { w.next with db := w.db.remove id.dbUuid })

/-- What the transaction sees. -/
def UnitWorld.seen (u : UnitWorld) : UserWorld :=
  u.pending.foldl (fun w s => (s.exec host w).2) u.committed

/-- One operation. -/
def UnitOp.exec : (o : UnitOp) → UnitWorld → Except Thrown o.Ans × UnitWorld
  | .begin, u =>
    if u.committed.down then (.error outage, ⟨u.committed.next, []⟩)
    else (.ok (), ⟨u.committed.next, []⟩)
  | .statement .base s, u =>
    ((s.exec host u.committed).1, ⟨(s.exec host u.committed).2, u.pending⟩)
  | .statement .tx s, u => ((s.exec host (u.seen host)).1, ⟨u.committed, u.pending ++ [s]⟩)
  | .commit, u =>
    if (u.seen host).down then (.error outage, u) else (.ok (), ⟨(u.seen host).next, []⟩)
  | .rollback, u => (.ok (), ⟨{ u.seen host with db := u.committed.db }, []⟩)

end

/-! ## The code -/

namespace UnitTask

/-- A function of the repository whose statements go through a client. -/
def through (client : PrismaClient) {α : Type} (p : UserTask α) : UnitTask α :=
  ExceptT.mk ((ExceptT.run p).translate fun o => Prog.perform (UnitOp.statement client (.user o)))

/-- `client.user.delete({ where: { id } })`. -/
def delete (client : PrismaClient) (id : UniqueId) : UnitTask Unit :=
  Task.await (UnitOp.statement client (.delete id))

/-- The transaction begins. -/
def begin : UnitTask Unit := Task.await UnitOp.begin

/-- It commits. -/
def commit : UnitTask Unit := Task.await UnitOp.commit

/-- It rolls back. -/
def rollback : UnitTask Unit := Task.await UnitOp.rollback

section

variable (host : Host) (w : UserWorld)

theorem run_delete (pending : List Statement) (id : UniqueId) :
    Task.run (UnitOp.exec host) (delete .base id) ⟨w, pending⟩ =
      if w.down then (.error outage, ⟨w.next, pending⟩)
      else match w.db.findById? id.dbUuid with
        | none => (.error (.knownRequest "P2025" []), ⟨w.next, pending⟩)
        | some _ => (.ok (), ⟨{ w.next with db := w.db.remove id.dbUuid }, pending⟩) := by
  show UnitOp.exec host (.statement .base (.delete id)) ⟨w, pending⟩ = _
  dsimp only [UnitOp.exec, Statement.exec]
  cases w.down with
  | true => rfl
  | false => cases w.db.findById? id.dbUuid <;> rfl

theorem run_begin :
    Task.run (UnitOp.exec host) begin ⟨w, []⟩ =
      if w.down then (.error outage, ⟨w.next, []⟩) else (.ok (), ⟨w.next, []⟩) := rfl

theorem run_commit :
    Task.run (UnitOp.exec host) commit ⟨w, []⟩ =
      if w.down then (.error outage, ⟨w, []⟩) else (.ok (), ⟨w.next, []⟩) := rfl

end

end UnitTask

/-- A `UserRepositoryImpl` over its client. -/
structure UserRepo where
  client : PrismaClient

namespace UserRepo

variable (host : Host) (repo : UserRepo)

/-- `save`. -/
def save (user : User) (now : Date) : UnitTask User :=
  UnitTask.through repo.client (UserRepositoryImpl.save host user now)

/-- `delete`. -/
def delete (id : UniqueId) : UnitTask Unit :=
  tryCatch (UnitTask.delete repo.client id) fun _ => throw UserRepositoryImpl.transformError

end UserRepo

/-- `PrismaService.transaction`: `$transaction` commits what the callback has
done when it resolves, and rolls back and rejects when it throws. -/
def PrismaService.transaction {α : Type} (fn : PrismaClient → UnitTask α) : UnitTask α := do
  UnitTask.begin
  tryCatch (do
    let result ← fn .tx
    UnitTask.commit
    return result) fun error => do
      UnitTask.rollback
      throw error

/-- What the callback of a unit of work gets. -/
structure TransactionalRepositories where
  userRepo : UserRepo

namespace UnitOfWork

/-- The repository that is injected; its client is `this.prisma.client`. -/
def userRepo : UserRepo := ⟨.base⟩

/-- `execute`. -/
def execute {α : Type} (fn : TransactionalRepositories → UnitTask α) : UnitTask α :=
  tryCatch (PrismaService.transaction fun _ => fn ⟨userRepo⟩) fun error => throw error

end UnitOfWork

/-! ## Functions made of calls -/

/-- A call of the repository. -/
inductive RepoCall where
  | save (user : User) (now : Date)
  | delete (id : UniqueId)

section

variable (host : Host)

/-- The call itself. -/
def RepoCall.make (repos : TransactionalRepositories) : RepoCall → UnitTask Unit
  | .save user now => do
    let _ ← repos.userRepo.save host user now
    return ()
  | .delete id => repos.userRepo.delete id

/-- The function that makes some calls, one after another, and then returns or throws. -/
def calling (ending : Except Thrown Unit) (repos : TransactionalRepositories) :
    List RepoCall → UnitTask Unit
  | [] => Task.ofExcept ending
  | c :: cs => do
    c.make host repos
    calling ending repos cs

/-! ## What the calls do by themselves -/

/-- What a call does by itself. -/
def RepoCall.effect (w : UserWorld) : RepoCall → Except Thrown Unit × UserWorld
  | .save user now =>
    if w.down then (.error UserRepositoryImpl.transformError, w.next)
    else if w.next.down then (.error UserRepositoryImpl.transformError, w.next.next)
    else
      let (r, db) := UserRepositoryImpl.saved w.db w.clock user now
      match r with
      | .error e => (.error (UserRepositoryImpl.saveFailed user e), { w.next.next with db := db })
      | .ok row =>
        -- the row is written, and only then mapped
        (((UserRepositoryImpl.toDomain host row).mapError
          (UserRepositoryImpl.saveFailed user)).map fun _ => (), { w.next.next with db := db })
  | .delete id =>
    if w.down then (.error UserRepositoryImpl.transformError, w.next)
    else match w.db.findById? id.dbUuid with
      | none => (.error UserRepositoryImpl.transformError, w.next)
      | some _ => (.ok (), { w.next with db := w.db.remove id.dbUuid })

/-- What some calls do by themselves; the first that throws is the last. -/
def replay : List RepoCall → UserWorld → Except Thrown Unit × UserWorld
  | [], w => (.ok (), w)
  | c :: cs, w => match c.effect host w with
    | (.ok (), w') => replay cs w'
    | (.error e, w') => (.error e, w')

end

section

variable {host : Host} {w : UserWorld} {pending : List Statement}

/-- Through the base client, the repository works on the table itself. -/
theorem run_through_base {α : Type} (p : UserTask α) :
    Task.run (UnitOp.exec host) (UnitTask.through .base p) ⟨w, pending⟩ =
      ((Task.run (UserOp.exec host) p w).1, ⟨(Task.run (UserOp.exec host) p w).2, pending⟩) :=
  Prog.run_translate (fun w => (⟨w, pending⟩ : UnitWorld)) (fun _ _ => rfl) (ExceptT.run p) w

/-- **One call**, whatever the transaction holds. -/
theorem run_make (c : RepoCall) :
    Task.run (UnitOp.exec host) (c.make host ⟨UnitOfWork.userRepo⟩) ⟨w, pending⟩ =
      ((c.effect host w).1, ⟨(c.effect host w).2, pending⟩) := by
  cases c with
  | save user now =>
    show Task.run (UnitOp.exec host) (do
      let _ ← UnitTask.through .base (UserRepositoryImpl.save host user now)
      return ()) ⟨w, pending⟩ = _
    rw [Task.run_bind, run_through_base, UserRepositoryImpl.run_save]
    dsimp only [RepoCall.effect]
    cases w.down with
    | true => rfl
    | false =>
      cases w.next.down with
      | true => rfl
      | false =>
        simp only [Bool.false_eq_true, if_false]
        cases (UserRepositoryImpl.saved w.db w.clock user now).1 with
        | error e => rfl
        | ok row =>
          dsimp only
          cases UserRepositoryImpl.toDomain host row <;> rfl
  | delete id =>
    show Task.run (UnitOp.exec host) (tryCatch (UnitTask.delete .base id)
      fun _ => throw UserRepositoryImpl.transformError) ⟨w, pending⟩ = _
    rw [Task.run_tryCatch, UnitTask.run_delete]
    dsimp only [RepoCall.effect]
    cases w.down with
    | true => rfl
    | false => cases w.db.findById? id.dbUuid <;> rfl

/-- **Their whole sequence.** -/
theorem run_calling (ending : Except Thrown Unit) (cs : List RepoCall) :
    Task.run (UnitOp.exec host) (calling host ending ⟨UnitOfWork.userRepo⟩ cs) ⟨w, pending⟩ =
      ((replay host cs w).1.bind fun _ => ending, ⟨(replay host cs w).2, pending⟩) := by
  induction cs generalizing w with
  | nil => rfl
  | cons c cs ih =>
    show Task.run (UnitOp.exec host) (do
      c.make host ⟨UnitOfWork.userRepo⟩
      calling host ending ⟨UnitOfWork.userRepo⟩ cs) ⟨w, pending⟩ = _
    rw [Task.run_bind, run_make]
    unfold replay
    rcases c.effect host w with ⟨r, w'⟩
    cases r with
    | error e => rfl
    | ok _ => exact ih

/-- **What the unit of work adds** to a function: it may fail to begin, and it
may fail to commit; whatever the function has written stays. -/
theorem UnitOfWork.run_execute {α : Type} {fn : TransactionalRepositories → UnitTask α}
    {r : Except Thrown α} {w' : UserWorld}
    (h : Task.run (UnitOp.exec host) (fn ⟨userRepo⟩) ⟨w.next, []⟩ = (r, ⟨w', []⟩)) :
    Task.run (UnitOp.exec host) (execute fn) ⟨w, []⟩ =
      if w.down then (.error outage, ⟨w.next, []⟩)
      else match r with
        | .error e => (.error e, ⟨w', []⟩)
        | .ok a => if w'.down then (.error outage, ⟨w', []⟩) else (.ok a, ⟨w'.next, []⟩) := by
  show Task.run (UnitOp.exec host) (tryCatch (do
    UnitTask.begin
    tryCatch (do
      let result ← fn ⟨userRepo⟩
      UnitTask.commit
      return result) fun error => do
        UnitTask.rollback
        throw error) fun error => throw error) ⟨w, []⟩ = _
  simp only [Task.run_tryCatch, Task.run_bind, UnitTask.run_begin]
  cases w.down with
  | true => rfl
  | false =>
    simp only [Bool.false_eq_true, if_false, h]
    cases r with
    | error e => rfl
    | ok a =>
      simp only [UnitTask.run_commit]
      cases w'.down <;> rfl

end

/-! ## All or nothing -/

/-- The function throws: one of its calls does, or it does at its end. -/
def Throws (host : Host) (ending : Except Thrown Unit) (cs : List RepoCall) (w : UserWorld) : Prop :=
  ∃ e, ((replay host cs w).1.bind fun _ => ending) = .error e

/-- When the unit of work rejects, the table is what it was. -/
def AllOrNothing (host : Host) (ending : Except Thrown Unit) (cs : List RepoCall)
    (w : UserWorld) : Prop :=
  ∀ e u, Task.run (UnitOp.exec host) (UnitOfWork.execute fun repos => calling host ending repos cs)
    ⟨w, []⟩ = (.error e, u) → u.committed.db = w.db

section

variable {host : Host} {w : UserWorld} {ending : Except Thrown Unit} {cs : List RepoCall}

/-- A function that throws leaves what its calls have written. -/
theorem run_execute_of_throws (h : Throws host ending cs w.next) :
    ∃ e, Task.run (UnitOp.exec host) (UnitOfWork.execute fun repos => calling host ending repos cs)
      ⟨w, []⟩ = (.error e, ⟨if w.down then w.next else (replay host cs w.next).2, []⟩) := by
  obtain ⟨e, he⟩ := h
  rw [UnitOfWork.run_execute (run_calling ending cs)]
  cases w.down with
  | true => exact ⟨outage, rfl⟩
  | false =>
    refine ⟨e, ?_⟩
    rw [he]
    rfl

end

/-- The function deletes a user and throws. -/
theorem throws_delete (w : UserWorld) (c : RepoCall) :
    Throws plainHost (.error (.error "changed my mind")) [c] w := by
  unfold Throws
  cases (replay plainHost [c] w).1 with
  | error e => exact ⟨e, rfl⟩
  | ok _ => exact ⟨_, rfl⟩

end EnterpriseSystem.Identity
