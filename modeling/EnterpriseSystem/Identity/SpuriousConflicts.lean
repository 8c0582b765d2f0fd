import EnterpriseSystem.Identity.Mutators
import EnterpriseSystem.Identity.StoredValues
import EnterpriseSystem.Identity.UserDomainService

/-!
# Spurious conflicts

One client alone, which loads a user, calls methods of it and saves it, round
after round.  `save` expects the version before the entity's, as if exactly one
of the calls had taken effect.

* `User.effectiveCalls` — the calls that take effect, one after another;
  `User.version_afterCalls` counts them.
* `SaveRound`, `SaveRound.Alone` — a round, and what the others do meanwhile.
* `SaveRound.Stores` — the save succeeds, and the row has the entity's values.
* `savesAll_iff` — every round does, exactly when in every round exactly one call
  takes effect and what it gives can be stored.
-/

namespace EnterpriseSystem.Identity

open Objects Relational Concurrency UserRepositoryImpl

/-! ## Calls that take effect -/

/-- The calls that take effect, each on the entity the calls before it have left. -/
def User.effectiveCalls : User → List (UserCall × Moment) → List (UserCall × Moment)
  | _, [] => []
  | u, p :: calls =>
    if p.1.IsEffective u then p :: effectiveCalls ((p.1.perform p.2).after u) calls
    else effectiveCalls ((p.1.perform p.2).after u) calls

/-- The entity with other collected events, which are not stored. -/
def User.withEvents (u : User) (events : List DomainEvent) : User :=
  { u with domainEvents := events }

section

variable {u : User} {c : UserCall} {m : Moment} {calls : List (UserCall × Moment)}
  {events : List DomainEvent}

theorem User.effectiveCalls_of_effective {p : UserCall × Moment} (h : p.1.IsEffective u) :
    u.effectiveCalls (p :: calls) = p :: ((p.1.perform p.2).after u).effectiveCalls calls := if_pos h

theorem User.effectiveCalls_of_idle {p : UserCall × Moment} (h : ¬ p.1.IsEffective u) :
    u.effectiveCalls (p :: calls) = ((p.1.perform p.2).after u).effectiveCalls calls := if_neg h

theorem UserCall.isEffective_withEvents : c.IsEffective (u.withEvents events) ↔ c.IsEffective u := by
  cases c <;> exact Iff.rfl

/-- **The version counts** the calls that take effect. -/
theorem User.version_afterCalls (u : User) (calls : List (UserCall × Moment)) :
    (u.afterCalls calls).version = u.version + (u.effectiveCalls calls).length := by
  induction calls generalizing u with
  | nil => simp [User.afterCalls, User.effectiveCalls]
  | cons p calls ih =>
    have hrest := ih ((p.1.perform p.2).after u)
    show (((p.1.perform p.2).after u).afterCalls calls).version = _
    rw [hrest]
    by_cases heffective : p.1.IsEffective u
    · rw [User.effectiveCalls_of_effective heffective, UserCall.version_of_isEffective heffective,
        List.length_cons]
      push_cast
      omega
    · have hversion : ((p.1.perform p.2).after u).version = u.version := by
        rw [UserCall.after_of_not_isEffective heffective]
      rw [User.effectiveCalls_of_idle heffective, hversion]

/-- Calls that do not take effect leave nothing to store. -/
theorem User.afterCalls_of_none (h : u.effectiveCalls calls = []) :
    ∃ events, u.afterCalls calls = u.withEvents events := by
  induction calls generalizing u with
  | nil => exact ⟨u.domainEvents, rfl⟩
  | cons p calls ih =>
    have hidle : ¬ p.1.IsEffective u := by
      intro heffective
      rw [User.effectiveCalls_of_effective heffective] at h
      exact nomatch h
    rw [User.effectiveCalls_of_idle hidle] at h
    have hafter : (p.1.perform p.2).after u = u.withEvents _ := UserCall.after_of_not_isEffective hidle
    obtain ⟨events, hrest⟩ := ih h
    rw [hafter] at hrest
    refine ⟨events, ?_⟩
    show ((p.1.perform p.2).after u).afterCalls calls = _
    rw [hafter]
    exact hrest

/-- Where one call takes effect, only that one is stored. -/
theorem User.afterCalls_of_one (h : u.effectiveCalls calls = [(c, m)]) :
    c.IsEffective u ∧ ∃ events events',
      u.afterCalls calls = ((c.perform m).after (u.withEvents events)).withEvents events' := by
  induction calls generalizing u with
  | nil => exact nomatch h
  | cons p calls ih =>
    by_cases heffective : p.1.IsEffective u
    · rw [User.effectiveCalls_of_effective heffective] at h
      obtain ⟨rfl, hnone⟩ := List.cons.inj h
      obtain ⟨events', hrest⟩ := User.afterCalls_of_none hnone
      exact ⟨heffective, u.domainEvents, events', hrest⟩
    · have hafter : (p.1.perform p.2).after u = u.withEvents _ :=
        UserCall.after_of_not_isEffective heffective
      rw [User.effectiveCalls_of_idle heffective] at h
      obtain ⟨hone, events, events', hrest⟩ := ih h
      rw [hafter] at hone hrest
      refine ⟨UserCall.isEffective_withEvents.1 hone, events, events', ?_⟩
      show ((p.1.perform p.2).after u).afterCalls calls = _
      rw [hafter]
      exact hrest

end

/-! ## What a call gives -/

/-- The largest value of an `Int` column. -/
def maxInt : ℤ := 2147483647

/-- What the call gives to an entity can be stored: a new address fits its column,
a new password is hashed and fits its column, and so do new names. -/
def UserCall.Gives (u : User) : UserCall → Prop
  | .changeEmail newEmail => HeldText 320 newEmail.value
  | .changePassword newPassword => HeldText 320 u.email.value ∧ newPassword.Held
  | .updateProfile firstName lastName =>
    HeldText 320 u.email.value ∧ HeldText 100 (trim firstName) ∧ HeldText 100 (trim lastName)
  | _ => HeldText 320 u.email.value

section

variable {u u' : User} {c : UserCall} {m : Moment}

theorem fitsInt_succ {n : ℤ} (h : fitsInt n = true) : fitsInt (n + 1) = true ↔ n < maxInt := by
  simp only [fitsInt, Bool.and_eq_true, decide_eq_true_eq, maxInt] at h ⊢
  omega

theorem User.storable_iff_of_succ (h : fitsInt u.version = true) (hnext : u'.version = u.version + 1) :
    u'.Storable ↔ (HeldText 320 u'.email.value ∧ u'.password.Held ∧ HeldText 100 u'.firstName ∧
      HeldText 100 u'.lastName) ∧ u.version < maxInt := by
  constructor
  · intro hstorable
    refine ⟨⟨hstorable.email, hstorable.password, hstorable.firstName, hstorable.lastName⟩, ?_⟩
    rw [← fitsInt_succ h, ← hnext]
    exact hstorable.version
  · rintro ⟨⟨hemail, hpassword, hfirst, hlast⟩, hlt⟩
    refine ⟨⟨hpassword, hfirst, hlast, ?_⟩, hemail⟩
    rw [hnext]
    exact (fitsInt_succ h).2 hlt

/-- **One call** leaves values that can be stored exactly when it gives such values. -/
theorem UserCall.storable_after_iff (hheld : u.Held) (h : c.IsEffective u) :
    ((c.perform m).after u).Storable ↔ c.Gives u ∧ u.version < maxInt := by
  rw [User.storable_iff_of_succ hheld.version (UserCall.version_of_isEffective h)]
  refine and_congr_left fun _ => ?_
  -- a call that gives nothing new leaves all four values
  have hsame : ((c.perform m).after u).email = u.email → ((c.perform m).after u).password = u.password →
      ((c.perform m).after u).firstName = u.firstName → ((c.perform m).after u).lastName = u.lastName →
      ((HeldText 320 ((c.perform m).after u).email.value ∧ ((c.perform m).after u).password.Held ∧
        HeldText 100 ((c.perform m).after u).firstName ∧
        HeldText 100 ((c.perform m).after u).lastName) ↔ HeldText 320 u.email.value) := by
    intro hemail hpassword hfirst hlast
    rw [hemail, hpassword, hfirst, hlast]
    exact and_iff_left ⟨hheld.password, hheld.firstName, hheld.lastName⟩
  have hframe := c.frame m u
  cases c with
  | changeEmail newEmail =>
    have hafter : ((UserCall.changeEmail newEmail).perform m).after u = { u with
        email := newEmail, emailVerified := false, status := .pendingVerification,
        version := u.version + 1, updatedAt := m.now } := by
      show ((User.changeEmail newEmail m).call u).2 = _
      rw [User.call_changeEmail, if_neg h]
    rw [hafter]
    exact and_iff_left ⟨hheld.password, hheld.firstName, hheld.lastName⟩
  | changePassword newPassword =>
    have hafter : ((UserCall.changePassword newPassword).perform m).after u =
        u.withPassword newPassword m := rfl
    rw [hafter]
    exact and_congr_right fun _ => and_iff_left ⟨hheld.firstName, hheld.lastName⟩
  | updateProfile firstName lastName =>
    have hafter : ((UserCall.updateProfile firstName lastName).perform m).after u = { u with
        firstName := trim firstName, lastName := trim lastName, version := u.version + 1,
        updatedAt := m.now } := by
      show ((User.updateProfile firstName lastName m).call u).2 = _
      rw [User.call_updateProfile, h.1, h.2]
    rw [hafter]
    exact and_congr_right fun _ => and_iff_right hheld.password
  | pullDomainEvents => exact h.elim
  | _ =>
    obtain ⟨hfirst, hlast⟩ := hframe.names.resolve_right nofun
    exact hsame (hframe.email.resolve_right nofun) (hframe.password.resolve_right nofun) hfirst hlast

/-- **Many calls**, one of which takes effect. -/
theorem User.storable_afterCalls_iff {calls : List (UserCall × Moment)} (hheld : u.Held)
    (h : u.effectiveCalls calls = [(c, m)]) :
    (u.afterCalls calls).Storable ↔ c.Gives u ∧ u.version < maxInt := by
  obtain ⟨heffective, events, events', hafter⟩ := User.afterCalls_of_one h
  have hwith : ((c.perform m).after (u.withEvents events)).Storable ↔ _ :=
    UserCall.storable_after_iff (u := u.withEvents events)
      ⟨hheld.password, hheld.firstName, hheld.lastName, hheld.version⟩
      (UserCall.isEffective_withEvents.2 heffective)
  have hgives : c.Gives (u.withEvents events) ↔ c.Gives u := by
    cases c <;> exact Iff.rfl
  rw [hafter, ← hgives]
  refine Iff.trans ?_ hwith
  exact ⟨fun h => ⟨⟨h.password, h.firstName, h.lastName, h.version⟩, h.email⟩,
    fun h => ⟨⟨h.password, h.firstName, h.lastName, h.version⟩, h.email⟩⟩

end

/-! ## Rounds -/

/-- A round: the calls on the loaded entity, the table when the save starts, and
the time of the save. -/
structure SaveRound where
  calls : List (UserCall × Moment)
  others : UserDb
  now : Date

namespace SaveRound

variable (host : Host) (id : UniqueId)

/-- Load the user, call the methods, and save it once the others have written. -/
def run (r : SaveRound) (w : UserWorld) : Except Thrown User × UserWorld :=
  match Task.run (UserOp.exec host) (findById host id) w with
  | (.ok user, w) =>
    Task.run (UserOp.exec host) (save host (user.afterCalls r.calls) r.now) { w with db := r.others }
  | (.error e, w) => (.error e, w)

/-- A round as a step. -/
def Step (w : UserWorld) (r : SaveRound) (w' : UserWorld) : Prop := w' = (r.run host id w).2

/-- The client is alone with its user: no operation fails, the others leave the row
alone, and no other user has the address of the entity. -/
structure Alone (w : UserWorld) (r : SaveRound) : Prop where
  up : ∀ n, w.faults n = false
  row : r.others.findById? id.dbUuid = w.db.findById? id.dbUuid
  email : ∀ row user, w.db.findById? id.dbUuid = some row → toDomain host row = .ok user →
    ∀ other ∈ r.others.users.rows, other.email = (user.afterCalls r.calls).email.value →
      other.id = id.dbUuid

/-- **The round goes through**: the user is loaded, the save succeeds, and the row
has the values of the entity. -/
def Stores (w : UserWorld) (r : SaveRound) (w' : UserWorld) : Prop :=
  ∃ user saved row, (Task.run (UserOp.exec host) (findById host id) w).1 = .ok user ∧
    (r.run host id w).1 = .ok saved ∧ w'.db.findById? id.dbUuid = some row ∧
    row.Holds (user.afterCalls r.calls) ∧ row.createdAt = user.createdAt

/-- Exactly one of the calls takes effect on the loaded entity, what it gives can be
stored, and the version can be raised. -/
def Clean (w : UserWorld) (r : SaveRound) : Prop :=
  ∃ row user c m, w.db.findById? id.dbUuid = some row ∧ toDomain host row = .ok user ∧
    user.effectiveCalls r.calls = [(c, m)] ∧ c.Gives user ∧ row.version < maxInt

section

variable {host : Host} {id : UniqueId} {w : UserWorld} {r : SaveRound} {row : UserRow}

/-- A stored user is loaded. -/
theorem exists_load (host : Host) (hrow : w.db.findById? id.dbUuid = some row) (hstored : row.Stored) :
    ∃ user, toDomain host row = .ok user ∧ user.id.dbUuid = id.dbUuid ∧
      user.version = row.version ∧ user.createdAt = row.createdAt := by
  have hid : row.id = id.dbUuid := UserDb.id_of_findById? hrow
  have hv4 : isUuidV4 row.id.text = true := by
    rw [hid]
    exact isUuidV4_lowerAscii id.wellFormed
  refine ⟨entity host row hv4, toDomain_eq_ok.2 ⟨hv4, hstored.hashed, rfl⟩, ?_, rfl, rfl⟩
  rw [← hid]
  exact UniqueId.dbUuid_of_value rfl

/-- A round that loads its user goes through when its statement does. -/
theorem stores_iff_saved {user : User} (hrow : w.db.findById? id.dbUuid = some row)
    (hload : toDomain host row = .ok user) (hid : user.id.dbUuid = id.dbUuid)
    (hcreated : user.createdAt = row.createdAt) (halone : r.Alone host id w) :
    let edited := user.afterCalls r.calls
    r.Stores host id w (r.run host id w).2 ↔
      ∃ row', (saved r.others w.clock edited r.now).1 = .ok row' ∧ row'.passwordHash ≠ "" ∧
        row'.Holds edited := by
  intro edited
  have hedited : edited.id.dbUuid = id.dbUuid := by rw [user.id_afterCalls r.calls, hid]
  have hfind : Task.run (UserOp.exec host) (findById host id) w = (.ok user, w.next) :=
    run_findById_eq_ok.2 ⟨halone.up _, rfl, row, hrow, hload⟩
  have hrun : r.run host id w =
      Task.run (UserOp.exec host) (save host edited r.now) { w.next with db := r.others } := by
    unfold run
    rw [hfind]
  have hafter : ∀ row', (saved r.others w.clock edited r.now).1 = .ok row' →
      (saved r.others w.clock edited r.now).2.findById? id.dbUuid = some row' := by
    intro row' hsaved
    rw [findById?_saved hsaved, if_pos hedited]
  rcases hout : r.run host id w with ⟨answer, w'⟩
  constructor
  · rintro ⟨user', saved', row', hfound, hanswer, hafter', hholds, -⟩
    obtain rfl : user = user' := Except.ok.inj ((congrArg Prod.fst hfind).symm.trans hfound)
    obtain rfl : answer = .ok saved' := (congrArg Prod.fst hout).symm.trans hanswer
    obtain ⟨-, -, haccepts, hmap, rfl⟩ := run_save_eq_ok.1 (hrun.symm.trans hout)
    have hsaved := saved_eq_ok.2 ⟨haccepts, rfl⟩
    obtain rfl := Option.some.inj ((hafter _ hsaved).symm.trans hafter')
    obtain ⟨-, hne, -⟩ := toDomain_eq_ok.1 hmap
    exact ⟨_, hsaved, hne, hholds⟩
  · rintro ⟨row', hsaved, hne, hholds⟩
    obtain ⟨haccepts, hrow'⟩ := saved_eq_ok.1 hsaved
    have hv4 : isUuidV4 row'.id.text = true := by
      rw [hrow', savedRow_id]
      exact isUuidV4_lowerAscii edited.id.wellFormed
    obtain ⟨stored, hmap⟩ : ∃ stored, toDomain host row' = .ok stored :=
      ⟨entity host row' hv4, toDomain_eq_ok.2 ⟨hv4, hne, rfl⟩⟩
    rw [hrow'] at hmap
    have hsave := (run_save_eq_ok (w := { w.next with db := r.others })).2
      ⟨halone.up _, halone.up _, haccepts, hmap, rfl⟩
    obtain ⟨rfl, rfl⟩ := Prod.mk.inj ((hout.symm.trans hrun).trans hsave)
    refine ⟨user, _, row', congrArg Prod.fst hfind, congrArg Prod.fst hout, hafter row' hsaved,
      hholds, ?_⟩
    rw [hrow', hcreated]
    unfold savedRow givenRow
    rw [hedited, halone.row, hrow]
    rfl

/-- **One round**, from a stored user: it goes through exactly when it is clean, and
then the user is stored again. -/
theorem stores_iff_clean (hrow : w.db.findById? id.dbUuid = some row) (hstored : row.Stored)
    (halone : r.Alone host id w) :
    (r.Stores host id w (r.run host id w).2 ↔ r.Clean host id w) ∧
      (r.Clean host id w → ∃ row', (r.run host id w).2.db.findById? id.dbUuid = some row' ∧
        row'.Stored) := by
  obtain ⟨user, hload, hid, hversion, hcreated⟩ := exists_load host hrow hstored
  have hedited : (user.afterCalls r.calls).id.dbUuid = id.dbUuid := by
    rw [user.id_afterCalls r.calls, hid]
  have hfree : ∀ other ∈ r.others.users.rows,
      other.email = (user.afterCalls r.calls).email.value →
        other.id = (user.afterCalls r.calls).id.dbUuid := by
    intro other hother hsame
    rw [hedited]
    exact halone.email row user hrow hload other hother hsame
  -- the save expects the version before the entity's
  have hexpected : (∀ row', r.others.findById? (user.afterCalls r.calls).id.dbUuid = some row' →
      row'.version = (user.afterCalls r.calls).getExpectedVersion ∧
        fitsInt (user.afterCalls r.calls).getExpectedVersion = true) ↔
      ∃ c m, user.effectiveCalls r.calls = [(c, m)] := by
    rw [hedited, halone.row, hrow]
    have hcount : (user.afterCalls r.calls).getExpectedVersion =
        row.version + (user.effectiveCalls r.calls).length - 1 := by
      rw [User.getExpectedVersion, user.version_afterCalls, hversion]
    rw [hcount]
    constructor
    · intro h
      have hone := (h row rfl).1
      obtain ⟨p, hp⟩ := List.length_eq_one_iff.1
        (show (user.effectiveCalls r.calls).length = 1 by omega)
      exact ⟨p.1, p.2, hp⟩
    · rintro ⟨c, m, hone⟩ _ ⟨⟩
      rw [hone]
      simp [hstored.version]
  have hstores := (stores_iff_saved hrow hload hid hcreated halone).trans
    ((saved_holds_iff hfree).trans (and_congr_left fun _ => hexpected))
  have hclean : r.Clean host id w ↔
      (∃ c m, user.effectiveCalls r.calls = [(c, m)]) ∧ (user.afterCalls r.calls).Storable := by
    constructor
    · rintro ⟨row', user', c, m, hrow', hload', hone, hgives, hlt⟩
      obtain rfl := Option.some.inj (hrow.symm.trans hrow')
      obtain rfl := Except.ok.inj (hload.symm.trans hload')
      rw [← hversion] at hlt
      exact ⟨⟨c, m, hone⟩,
        (User.storable_afterCalls_iff (hstored.held hload) hone).2 ⟨hgives, hlt⟩⟩
    · rintro ⟨⟨c, m, hone⟩, hstorable⟩
      obtain ⟨hgives, hlt⟩ := (User.storable_afterCalls_iff (hstored.held hload) hone).1 hstorable
      rw [hversion] at hlt
      exact ⟨row, user, c, m, hrow, hload, hone, hgives, hlt⟩
  refine ⟨hstores.trans hclean.symm, fun h => ?_⟩
  obtain ⟨user', _, row', hfound, -, hafter, hholds, -⟩ := hstores.2 (hclean.1 h)
  have hsame : user = user' := by
    rw [run_findById_eq_ok.2 ⟨halone.up _, rfl, row, hrow, hload⟩] at hfound
    exact Except.ok.inj hfound
  subst hsame
  exact ⟨row', hafter, hholds.stored (hclean.1 h).2⟩

end

end SaveRound

/-- **No spurious conflicts**: over every sequence of rounds of one client alone, from
a user that is stored, all rounds go through exactly when in every round exactly
one call takes effect, what it gives can be stored, and the version can be raised. -/
theorem savesAll_iff (host : Host) (id : UniqueId) {w₀ w : UserWorld} {row : UserRow}
    {steps : List (UserWorld × SaveRound × UserWorld)}
    (hrow : w₀.db.findById? id.dbUuid = some row) (hstored : row.Stored)
    (hrun : Run (SaveRound.Step host id) (fun w r => r.Alone host id w) w₀ steps w) :
    (∀ p ∈ steps, p.2.1.Stores host id p.1 p.2.2) ↔ ∀ p ∈ steps, p.2.1.Clean host id p.1 := by
  have hround : ∀ {w : UserWorld} {r : SaveRound} {w' : UserWorld},
      (∃ row, w.db.findById? id.dbUuid = some row ∧ row.Stored) → r.Alone host id w →
      r.Step host id w w' → (r.Stores host id w w' ↔ r.Clean host id w) ∧
        (r.Clean host id w → ∃ row, w'.db.findById? id.dbUuid = some row ∧ row.Stored) := by
    rintro w r _ ⟨row, hrow, hstored⟩ halone rfl
    exact SaveRound.stores_iff_clean hrow hstored halone
  exact hrun.steps_iff ⟨row, hrow, hstored⟩ (fun hinv halone hs => (hround hinv halone hs).1)
    fun hinv halone hs => (hround hinv halone hs).2

/-! ### Rounds on a fixed user -/

/-- A round in which Grace is alone with the table. -/
def graceAlone (calls : List (UserCall × Moment)) : SaveRound := ⟨calls, gracesDb, 9⟩

theorem findById?_gracesDb : (calmWorld gracesDb).db.findById? grace.dbUuid = some gracesRow := rfl

theorem stored_gracesRow : gracesRow.Stored := by
  refine ⟨⟨?_, ?_⟩, ?_, ⟨?_, ?_⟩, ⟨?_, ?_⟩, ?_⟩ <;> decide +kernel

theorem alone_grace (calls : List (UserCall × Moment)) :
    (graceAlone calls).Alone plainHost grace (calmWorld gracesDb) where
  up _ := rfl
  row := rfl
  email _ _ _ _ other hother _ := by
    have hrows : gracesDb.users.rows = [gracesRow] := rfl
    rw [show (graceAlone calls).others.users.rows = [gracesRow] from hrows] at hother
    rw [List.mem_singleton.1 hother]
    rfl

theorem run_graceAlone (calls : List (UserCall × Moment)) :
    Run (SaveRound.Step plainHost grace) (fun w r => r.Alone plainHost grace w)
      (calmWorld gracesDb) ([] ++ [(calmWorld gracesDb, graceAlone calls,
        ((graceAlone calls).run plainHost grace (calmWorld gracesDb)).2)])
      ((graceAlone calls).run plainHost grace (calmWorld gracesDb)).2 :=
  .next .start (alone_grace calls) rfl

/-- Grace is active already, and logs in. -/
theorem savesAll_iff_grace :
    (graceAlone [(.activate, ⟨3, grace⟩), (.recordLogin, ⟨4, grace⟩)]).Stores plainHost grace
      (calmWorld gracesDb) ((graceAlone [(.activate, ⟨3, grace⟩), (.recordLogin, ⟨4, grace⟩)]).run
        plainHost grace (calmWorld gracesDb)).2 := by
  refine (savesAll_iff plainHost grace findById?_gracesDb stored_gracesRow (run_graceAlone _)).2
    (fun p hp => ?_) _ (List.mem_singleton_self _)
  obtain rfl := List.mem_singleton.1 hp
  obtain ⟨user, hload, -, -, -⟩ := SaveRound.exists_load plainHost findById?_gracesDb stored_gracesRow
  obtain ⟨hv4, -, rfl⟩ := toDomain_eq_ok.1 hload
  refine ⟨gracesRow, _, .recordLogin, ⟨4, grace⟩, findById?_gracesDb, hload, ?_, ?_, by decide⟩
  · show User.effectiveCalls _ [(.activate, ⟨3, grace⟩), (.recordLogin, ⟨4, grace⟩)] = _
    have hlogs : UserCall.recordLogin.IsEffective ((UserCall.activate.perform ⟨3, grace⟩).after
        (entity plainHost gracesRow hv4)) := rfl
    rw [User.effectiveCalls_of_idle (by rintro (h | h) <;> exact nomatch h),
      User.effectiveCalls_of_effective hlogs]
    rfl
  · have hemail : HeldText 320 (lowerAscii (trim "grace@example.com")) :=
      ⟨by decide +kernel, by decide +kernel⟩
    exact hemail

/-- **A save without a change is a conflict**: the version before the entity's is
not the one stored. -/
theorem not_savesAll :
    ¬ ∀ (host : Host) (id : UniqueId) (w₀ w : UserWorld) (row : UserRow)
        (steps : List (UserWorld × SaveRound × UserWorld)),
        w₀.db.findById? id.dbUuid = some row → row.Stored →
        Run (SaveRound.Step host id) (fun w r => r.Alone host id w) w₀ steps w →
        ∀ p ∈ steps, p.2.1.Stores host id p.1 p.2.2 := by
  intro h
  have hstores := h _ _ _ _ _ _ findById?_gracesDb stored_gracesRow (run_graceAlone []) _
    (List.mem_singleton_self _)
  obtain ⟨_, _, _, _, -, -, hone, -⟩ := (SaveRound.stores_iff_clean findById?_gracesDb
    stored_gracesRow (alone_grace [])).1.1 hstores
  exact nomatch hone

end EnterpriseSystem.Identity
