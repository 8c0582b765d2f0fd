import EnterpriseSystem.Identity.Credentials
import EnterpriseSystem.Identity.StoredValues
import EnterpriseSystem.Identity.UserDomainService

/-!
# A user is stored and loaded again

`save` writes a new user and maps the row back; `findById` maps it again.  The value
objects it is built from are checked on the way in, and trusted on the way out.

* `User.Obtained` — the users that the factories and the methods make of checked
  values.
* `RoundTrips` — `save` rejects and leaves the table alone, or `findById` then gives
  the user back.
* `TableRejects` — a value does not fit its column, or the address is taken.
* `userRoundTrips_iff` — a new user makes the round trip exactly when the table rejects
  it, or its identifier is in small letters and its values can be stored, a hash
  among them.
-/

namespace EnterpriseSystem.Identity

open Objects Relational Concurrency UserRepositoryImpl

/-! ## Users of checked values -/

/-- An address as `Email.create` makes it. -/
def Email.Created (host : Host) (email : Email) : Prop :=
  ∃ raw, Email.create host.toLowerCase raw = .ok email

/-- A password as its factories make it, hashed or not. -/
inductive Password.Obtained : Password → Prop where
  | created {raw : String} {password : Password} :
      Password.create raw = .ok password → Obtained password
  | fromHash {hash : String} {password : Password} :
      Password.fromHash hash = .ok password → Obtained password
  | hashed {password password' : Password} {hash : String} :
      Obtained password → password.setHash hash = .ok password' → Obtained password'

/-- The values that a call is given are checked ones. -/
def UserCall.Supplied (host : Host) : UserCall → Prop
  | .changeEmail newEmail => newEmail.Created host
  | .changePassword newPassword => newPassword.Obtained
  | _ => True

/-- A user made by one of the factories, after any calls of its methods. -/
inductive User.Obtained (host : Host) : User → Prop where
  | created {email : Email} {password : Password} {firstName lastName : String} {id : UniqueId}
      {m : Moment} {u : User} :
      email.Created host → password.Obtained →
      User.create email password firstName lastName id m = .ok u → Obtained host u
  | reconstituted (id : UniqueId) {email : Email} {password : Password}
      (firstName lastName : String) (status : UserStatus) (emailVerified : Bool)
      (lastLoginAt : Option Date) (version : ℤ) (createdAt updatedAt : Date) :
      email.Created host → password.Obtained →
      Obtained host (.reconstitute id email password firstName lastName status emailVerified
        lastLoginAt version createdAt updatedAt)
  | called {u : User} (c : UserCall) (m : Moment) :
      Obtained host u → c.Supplied host → Obtained host ((c.perform m).after u)

section

variable {host : Host} {u : User}

/-- An address that was checked is mapped back to itself. -/
theorem Email.Created.fromPersistence (hlower : LowerCases host) {email : Email}
    (h : email.Created host) : Email.fromPersistence host.toLowerCase email.value = email := by
  obtain ⟨raw, hcreate⟩ := h
  have hvalue := Email.create_eq_ok hcreate
  cases email with
  | mk value =>
    rw [show value = host.toLowerCase (trim raw) from hvalue]
    exact congrArg Email.mk (hlower raw)

/-- **The address of a user** is always one that was checked. -/
theorem User.Obtained.email (h : u.Obtained host) : u.email.Created host := by
  induction h with
  | created hemail _ hcreate =>
    obtain ⟨_, -, hrest⟩ := bind_eq_ok.1 hcreate
    obtain ⟨_, -, hcreated⟩ := bind_eq_ok.1 hrest
    cases hcreated
    exact hemail
  | reconstituted _ _ _ _ _ _ _ _ _ hemail _ => exact hemail
  | @called u c m _ hsupplied ih =>
    rcases (c.frame m u).email with hsame | hnew
    · rw [hsame]
      exact ih
    · rw [hnew] at hsupplied
      exact hsupplied

end

/-! ## The round trip -/

/-- The user that was loaded has the values of the one that was saved. -/
structure User.SameAs (found u : User) : Prop where
  id : found.id.equals u.id = true
  email : found.email = u.email
  firstName : found.firstName = u.firstName
  lastName : found.lastName = u.lastName
  status : found.status = u.status
  emailVerified : found.emailVerified = u.emailVerified
  lastLoginAt : found.lastLoginAt = u.lastLoginAt
  version : found.version = u.version
  passwordHash : found.password.hashedValue = u.password.hashedValue

/-- `save` rejects and leaves the table alone, or `findById` then finds the user. -/
def RoundTrips (host : Host) (u : User) (now : Date) (w : UserWorld) : Prop :=
  let saved := Task.run (UserOp.exec host) (save host u now) w
  ((∃ e, saved.1 = .error e) ∧ saved.2.db = w.db) ∨
    ∃ found, (Task.run (UserOp.exec host) (findById host u.id) saved.2).1 = .ok found ∧ found.SameAs u

/-- The table rejects a new user: a value does not fit its column, or another user has
the address. -/
def TableRejects (u : User) (db : UserDb) : Prop :=
  ((columns u).newRow u.id.dbUuid (u.password.hashedValue.getD "") 0).fits = false ∨
    ∃ row ∈ db.users.rows, row.email = u.email.value

section

variable {host : Host} {u : User} {now : Date} {w : UserWorld} {row : UserRow}

/-- The entity of a row is the user that was saved when the row has its values, and
its identifier is printed as it was spelled. -/
theorem sameAs_entity_iff (hid : row.id = u.id.dbUuid) (hemail : row.email = u.email.value)
    (hnormal : Email.fromPersistence host.toLowerCase u.email.value = u.email)
    (h : isUuidV4 row.id.text = true) :
    (entity host row h).SameAs u ↔ lowerAscii u.id.value = u.id.value ∧ row.Holds u := by
  have htext : row.id.text = lowerAscii u.id.value := by
    rw [hid, UniqueId.dbUuid_text]
  constructor
  · intro hsame
    have hfound : (entity host row h).id = u.id := UniqueId.equals_iff.1 hsame.id
    refine ⟨htext.symm.trans (congrArg UniqueId.value hfound), ?_⟩
    exact
      { id := hid
        email := hemail
        passwordHash := hsame.passwordHash.symm
        firstName := hsame.firstName
        lastName := hsame.lastName
        status := hsame.status
        emailVerified := hsame.emailVerified
        lastLoginAt := hsame.lastLoginAt
        version := hsame.version }
  · rintro ⟨hlower, hholds⟩
    have hvalue : row.id.text = u.id.value := htext.trans hlower
    exact
      { id := by
          show (row.id.text == u.id.value) = true
          rw [hvalue, beq_self_eq_true]
        email := by
          show Email.fromPersistence host.toLowerCase row.email = u.email
          rw [hemail]
          exact hnormal
        firstName := hholds.firstName
        lastName := hholds.lastName
        status := hholds.status
        emailVerified := hholds.emailVerified
        lastLoginAt := hholds.lastLoginAt
        version := hholds.version
        passwordHash := hholds.passwordHash.symm }

/-- A new user is rejected exactly when the table does not take its row. -/
theorem tableRejects_iff (hnew : w.db.findById? u.id.dbUuid = none) :
    TableRejects u w.db ↔ ¬ Accepts w.db w.clock u now := by
  have hgiven : givenRow w.db w.clock u now =
      (columns u).newRow u.id.dbUuid (u.password.hashedValue.getD "") w.clock := by
    unfold givenRow
    rw [hnew]
  constructor
  · rintro (hfits | ⟨r, hr, hsame⟩) haccepts
    · have htakes := haccepts.fits
      rw [hgiven] at htakes
      exact nomatch hfits.symm.trans htakes
    · -- the row with the address would be the user's own
      have hid := haccepts.email r hr (hsame.trans (asks_givenRow w.db w.clock u now).email.symm)
      rw [savedRow_id] at hid
      exact Table.get?_eq_none_iff.1 hnew r hr hid
  · intro hnot
    by_contra hrejects
    rw [TableRejects, not_or, Bool.not_eq_false] at hrejects
    refine hnot ⟨fun row hrow => (nomatch hnew.symm.trans hrow), ?_, fun r hr hsame => ?_⟩
    · rw [hgiven]
      exact hrejects.1
    · exact absurd ⟨r, hr, hsame.trans (asks_givenRow w.db w.clock u now).email⟩ hrejects.2

/-- A new user that the table rejects. -/
theorem roundTrips_of_rejected (hup : ∀ n, w.faults n = false) {e : Thrown}
    (hsaved : (saved w.db w.clock u now).1 = .error e) : RoundTrips host u now w := by
  have hrun : Task.run (UserOp.exec host) (save host u now) w =
      (.error (saveFailed u e), { w.next.next with db := (saved w.db w.clock u now).2 }) := by
    rw [run_save, show w.down = false from hup _, show w.next.down = false from hup _]
    simp only [Bool.false_eq_true, if_false, hsaved]
  unfold RoundTrips
  rw [hrun]
  exact Or.inl ⟨⟨_, rfl⟩, saved_of_error hsaved⟩

/-- A new user that the table takes makes the round trip when its row maps back to it. -/
theorem roundTrips_iff_sameAs (hup : ∀ n, w.faults n = false)
    (hnew : w.db.findById? u.id.dbUuid = none)
    (hsaved : (saved w.db w.clock u now).1 = .ok row) :
    RoundTrips host u now w ↔ ∃ found, toDomain host row = .ok found ∧ found.SameAs u := by
  have hafter : (saved w.db w.clock u now).2.findById? u.id.dbUuid = some row := by
    rw [findById?_saved hsaved, if_pos rfl]
  have hrun : (Task.run (UserOp.exec host) (save host u now) w).2 =
      { w.next.next with db := (saved w.db w.clock u now).2 } := by
    rw [run_save, show w.down = false from hup _, show w.next.down = false from hup _]
    simp only [Bool.false_eq_true, if_false, hsaved]
  unfold RoundTrips
  dsimp only
  rw [hrun]
  constructor
  · rintro (⟨-, hsame⟩ | ⟨found, hfound, hsameAs⟩)
    · -- the table has a row more
      have hdb : (saved w.db w.clock u now).2 = w.db := hsame
      rw [hdb, hnew] at hafter
      exact nomatch hafter
    · obtain ⟨-, -, row', hrow', hmap⟩ := run_findById_eq_ok.1 (Prod.ext hfound rfl)
      obtain rfl := Option.some.inj (hafter.symm.trans hrow')
      exact ⟨found, hmap, hsameAs⟩
  · rintro ⟨found, hmap, hsameAs⟩
    refine Or.inr ⟨found, ?_, hsameAs⟩
    exact congrArg Prod.fst ((run_findById_eq_ok (w :=
      { w.next.next with db := (saved w.db w.clock u now).2 })).2 ⟨hup _, rfl, row, hafter, hmap⟩)

end

/-- **The round trip of a new user**: `save` rejects it and leaves the table alone, or
`findById` gives it back, exactly when the table rejects it, or its identifier is
in small letters and all its values can be stored, a hash among them. -/
theorem userRoundTrips_iff {host : Host} (hlower : LowerCases host) {u : User} (hu : u.Obtained host)
    {now : Date} {w : UserWorld} (hup : ∀ n, w.faults n = false)
    (hnew : w.db.findById? u.id.dbUuid = none) :
    RoundTrips host u now w ↔
      TableRejects u w.db ∨ (lowerAscii u.id.value = u.id.value ∧ u.Storable) := by
  rw [show TableRejects u w.db ↔ ¬ Accepts w.db w.clock u now from tableRejects_iff hnew]
  cases hsaved : (saved w.db w.clock u now).1 with
  | error e =>
    have hnot : ¬ Accepts w.db w.clock u now := fun haccepts =>
      nomatch hsaved.symm.trans (saved_eq_ok.2 ⟨haccepts, rfl⟩)
    exact iff_of_true (roundTrips_of_rejected hup hsaved) (Or.inl hnot)
  | ok row =>
    obtain ⟨haccepts, rfl⟩ := saved_eq_ok.1 hsaved
    rw [roundTrips_iff_sameAs hup hnew hsaved, or_iff_right (not_not.2 haccepts)]
    have hasks := asks_givenRow w.db w.clock u now
    have hsame (h : isUuidV4 (savedRow w.db w.clock u now).id.text = true) :
        (entity host (savedRow w.db w.clock u now) h).SameAs u ↔
          lowerAscii u.id.value = u.id.value ∧ (savedRow w.db w.clock u now).Holds u :=
      sameAs_entity_iff (savedRow_id w.db w.clock u now) hasks.email
        (hu.email.fromPersistence hlower) h
    rw [← hasks.kept_holds_iff]
    constructor
    · rintro ⟨found, hmap, hfound⟩
      obtain ⟨h, hne, rfl⟩ := toDomain_eq_ok.1 hmap
      obtain ⟨hid, hholds⟩ := (hsame h).1 hfound
      exact ⟨hid, haccepts.fits, hne, hholds⟩
    · rintro ⟨hid, -, hne, hholds⟩
      have h : isUuidV4 (savedRow w.db w.clock u now).id.text = true := by
        rw [savedRow_id]
        exact isUuidV4_lowerAscii u.id.wellFormed
      exact ⟨_, toDomain_eq_ok.2 ⟨h, hne, rfl⟩, (hsame h).2 ⟨hid, hholds⟩⟩

/-- The password of the user is hashed, as it must be before it is stored. -/
theorem obtained_gracesUser : gracesUser.Obtained plainHost := by
  have hcreate : User.create gracesUser.email gracesUser.password "Grace" "Hopper" grace
      ⟨0, grace⟩ = .ok gracesUser := rfl
  have hhash : Password.fromHash "$2a$12$Str0ng!Pass" = .ok gracesUser.password := rfl
  exact .created ⟨"Grace@example.com", by decide +kernel⟩ (.fromHash hhash) hcreate

theorem userRoundTrips_iff_gracesUser : RoundTrips plainHost gracesUser 1 (calmWorld emptyDb) := by
  refine (userRoundTrips_iff lowerCases_plainHost obtained_gracesUser (fun _ => rfl) rfl).2
    (Or.inr ⟨by decide +kernel, ⟨⟨⟨_, rfl, by decide, ?_⟩, ?_, ?_, by decide⟩, ?_⟩⟩) <;>
    exact ⟨by decide +kernel, by decide +kernel⟩

/-- **A password that is not hashed**: the row is written, and cannot be loaded. -/
theorem not_userRoundTrips :
    ¬ ∀ (host : Host), LowerCases host → ∀ (u : User), u.Obtained host → ∀ now w,
        (∀ n, w.faults n = false) → w.db.findById? u.id.dbUuid = none → RoundTrips host u now w := by
  intro h
  have hraw : Password.create "Str0ng!Pass" = .ok ⟨"Str0ng!Pass", none⟩ := by decide +kernel
  have hobtained : ({ gracesUser with password := ⟨"Str0ng!Pass", none⟩ } : User).Obtained plainHost := by
    have hcreate : User.create gracesUser.email ⟨"Str0ng!Pass", none⟩ "Grace" "Hopper" grace
        ⟨0, grace⟩ = .ok { gracesUser with password := ⟨"Str0ng!Pass", none⟩ } := rfl
    exact .created ⟨"Grace@example.com", by decide +kernel⟩ (.created hraw) hcreate
  have htrip := h plainHost lowerCases_plainHost _ hobtained 1 (calmWorld emptyDb) (fun _ => rfl) rfl
  have hsaved := saved_eq_ok.2 ⟨(⟨nofun, by decide +kernel, nofun⟩ :
    Accepts emptyDb 0 { gracesUser with password := ⟨"Str0ng!Pass", none⟩ } 1), rfl⟩
  obtain ⟨found, hmap, -⟩ := (roundTrips_iff_sameAs (fun _ => rfl) rfl hsaved).1 htrip
  obtain ⟨-, hne, -⟩ := toDomain_eq_ok.1 hmap
  exact hne rfl

end EnterpriseSystem.Identity
