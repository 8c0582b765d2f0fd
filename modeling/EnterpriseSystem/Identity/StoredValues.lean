import EnterpriseSystem.Identity.UserRepository

/-!
# What is stored of an entity

The values of an entity, and those of the row that `save` writes for it.

* `User.Storable` — the columns have the values of the entity as they are.
* `UserRow.Asks`, `UserRow.Holds` — the row as `save` asks for it, and the row that
  has the values of the entity.
* `UserRow.Asks.kept_holds_iff` — what the columns keep of the one is the other
  exactly when the entity is storable.
* `saved_holds_iff` — the same for the statement of a save.
-/

namespace EnterpriseSystem.Identity

open UserRepositoryImpl

/-! ## Entities -/

/-- The password is hashed, and its column has the hash as it is. -/
def Password.Held (password : Password) : Prop :=
  ∃ hash, password.hashedValue = some hash ∧ hash ≠ "" ∧ HeldText 255 hash

/-- The values of an entity that are stored as they are, whatever its address is. -/
structure User.Held (u : User) : Prop where
  password : u.password.Held
  firstName : HeldText 100 u.firstName
  lastName : HeldText 100 u.lastName
  version : fitsInt u.version = true

/-- All values of the entity are stored as they are. -/
structure User.Storable (u : User) : Prop extends u.Held where
  email : HeldText 320 u.email.value

/-! ## Rows -/

/-- The row has the values of the entity.  Its `updatedAt` is the time of the save. -/
structure UserRow.Holds (row : UserRow) (u : User) : Prop where
  id : row.id = u.id.dbUuid
  email : row.email = u.email.value
  passwordHash : u.password.hashedValue = some row.passwordHash
  firstName : row.firstName = u.firstName
  lastName : row.lastName = u.lastName
  status : row.status = u.status
  emailVerified : row.emailVerified = u.emailVerified
  lastLoginAt : row.lastLoginAt = u.lastLoginAt
  version : row.version = u.version

/-- The row as `save` asks for it, with the hash of before where the entity has none. -/
structure UserRow.Asks (row : UserRow) (u : User) (old : String) : Prop where
  id : row.id = u.id.dbUuid
  email : row.email = u.email.value
  passwordHash : row.passwordHash = u.password.hashedValue.getD old
  firstName : row.firstName = u.firstName
  lastName : row.lastName = u.lastName
  status : row.status = u.status
  emailVerified : row.emailVerified = u.emailVerified
  lastLoginAt : row.lastLoginAt = u.lastLoginAt
  version : row.version = u.version

section

variable {row : UserRow} {u : User} {old : String}

theorem UserRow.fits_iff : row.fits = true ↔
    HeldText 320 row.email ∧ fitsVarChar 255 row.passwordHash = true ∧
      fitsVarChar 100 row.firstName = true ∧ fitsVarChar 100 row.lastName = true ∧
        fitsInt row.version = true := by
  have hemail : (row.email.toList.length ≤ 320 && fitsVarChar 320 row.email) = true ↔
      HeldText 320 row.email := by
    rw [Bool.and_eq_true, decide_eq_true_eq, heldText_iff, and_comm]
    exact and_congr_right fun _ => ⟨varChar_eq_self, fun h => by
      rw [← h, varChar, String.toList_ofList, List.length_take]
      exact min_le_left _ _⟩
  rw [← hemail]
  simp only [UserRow.fits, Bool.and_eq_true, and_assoc]

/-- **What the columns keep** is what the entity has, exactly when all its values
can be stored. -/
theorem UserRow.Asks.kept_holds_iff (h : row.Asks u old) :
    (row.fits = true ∧ row.kept.passwordHash ≠ "" ∧ row.kept.Holds u) ↔ u.Storable := by
  rw [UserRow.fits_iff]
  constructor
  · rintro ⟨⟨hemail, hhash, hfirst, hlast, hversion⟩, hne, hholds⟩
    have hpassword : u.password.hashedValue = some (varChar 255 row.passwordHash) :=
      hholds.passwordHash
    have hkept : varChar 255 row.passwordHash = row.passwordHash := by
      conv_rhs => rw [h.passwordHash, hpassword, Option.getD_some]
    refine ⟨⟨⟨row.passwordHash, ?_, ?_, heldText_iff.2 ⟨hhash, hkept⟩⟩, ?_, ?_, ?_⟩, ?_⟩
    · rw [hpassword, hkept]
    · rw [← hkept]
      exact hne
    · rw [← h.firstName]
      exact heldText_iff.2 ⟨hfirst, hholds.firstName.trans h.firstName.symm⟩
    · rw [← h.lastName]
      exact heldText_iff.2 ⟨hlast, hholds.lastName.trans h.lastName.symm⟩
    · rw [← h.version]
      exact hversion
    · rw [← h.email]
      exact hemail
  · intro hstorable
    obtain ⟨hash, hhashed, hne, hheld⟩ := hstorable.password
    have hhash : row.passwordHash = hash := by
      rw [h.passwordHash, hhashed, Option.getD_some]
    have hkept : row.kept.passwordHash = hash := by
      show varChar 255 row.passwordHash = hash
      rw [hhash]
      exact (heldText_iff.1 hheld).2
    have hfirst := heldText_iff.1 hstorable.firstName
    have hlast := heldText_iff.1 hstorable.lastName
    refine ⟨⟨?_, ?_, ?_, ?_, ?_⟩, ?_, ?_⟩
    · rw [h.email]
      exact hstorable.email
    · rw [hhash]
      exact hheld.fits
    · rw [h.firstName]
      exact hfirst.1
    · rw [h.lastName]
      exact hlast.1
    · rw [h.version]
      exact hstorable.version
    · rw [hkept]
      exact hne
    · exact
        { id := h.id
          email := h.email
          passwordHash := by rw [hkept, hhashed]
          firstName := by
            show varChar 100 row.firstName = u.firstName
            rw [h.firstName]
            exact hfirst.2
          lastName := by
            show varChar 100 row.lastName = u.lastName
            rw [h.lastName]
            exact hlast.2
          status := h.status
          emailVerified := h.emailVerified
          lastLoginAt := h.lastLoginAt
          version := h.version }

theorem asks_givenRow (db : UserDb) (clock : Date) (u : User) (now : Date) :
    (givenRow db clock u now).Asks u
      (((db.findById? u.id.dbUuid).map UserRow.passwordHash).getD "") := by
  unfold givenRow
  cases hrow : db.findById? u.id.dbUuid with
  | none => exact ⟨rfl, rfl, rfl, rfl, rfl, rfl, rfl, rfl, rfl⟩
  | some row =>
    have hid : row.id = u.id.dbUuid := UserDb.id_of_findById? hrow
    exact ⟨hid, rfl, rfl, rfl, rfl, rfl, rfl, rfl, rfl⟩

/-- **The statement of a save** stores the entity exactly when it finds the version
it expects and all values can be stored. -/
theorem saved_holds_iff {db : UserDb} {clock now : Date}
    (hfree : ∀ r ∈ db.users.rows, r.email = u.email.value → r.id = u.id.dbUuid) :
    (∃ row, (saved db clock u now).1 = .ok row ∧ row.passwordHash ≠ "" ∧ row.Holds u) ↔
      (∀ row, db.findById? u.id.dbUuid = some row →
        row.version = u.getExpectedVersion ∧ fitsInt u.getExpectedVersion = true) ∧
      u.Storable := by
  have hasks := asks_givenRow db clock u now
  rw [← hasks.kept_holds_iff]
  constructor
  · rintro ⟨row, hsaved, hne, hholds⟩
    obtain ⟨haccepts, rfl⟩ := saved_eq_ok.1 hsaved
    exact ⟨haccepts.version, haccepts.fits, hne, hholds⟩
  · rintro ⟨hversion, hfits, hne, hholds⟩
    have hemail : db.EmailFree (savedRow db clock u now) := by
      intro r hr hsame
      rw [savedRow_id]
      exact hfree r hr (hsame.trans hasks.email)
    exact ⟨_, saved_eq_ok.2 ⟨⟨hversion, hfits, hemail⟩, rfl⟩, hne, hholds⟩

end

/-! ## Rows that are stored -/

/-- A row as it is stored: it has what its columns can have, and a hash. -/
structure UserRow.Stored (row : UserRow) : Prop where
  passwordHash : HeldText 255 row.passwordHash
  hashed : row.passwordHash ≠ ""
  firstName : HeldText 100 row.firstName
  lastName : HeldText 100 row.lastName
  version : fitsInt row.version = true

theorem UserRow.Stored.held {host : Host} {row : UserRow} {u : User} (h : row.Stored)
    (hload : toDomain host row = .ok u) : u.Held := by
  obtain ⟨hv4, -, rfl⟩ := toDomain_eq_ok.1 hload
  exact ⟨⟨row.passwordHash, rfl, h.hashed, h.passwordHash⟩, h.firstName, h.lastName, h.version⟩

/-- What holds a storable entity is stored. -/
theorem UserRow.Holds.stored {row : UserRow} {u : User} (h : row.Holds u) (hu : u.Storable) :
    row.Stored := by
  obtain ⟨hash, hhashed, hne, hheld⟩ := hu.password
  have hhash : row.passwordHash = hash := Option.some.inj (h.passwordHash.symm.trans hhashed)
  refine ⟨?_, ?_, ?_, ?_, ?_⟩
  · rw [hhash]
    exact hheld
  · rw [hhash]
    exact hne
  · rw [h.firstName]
    exact hu.firstName
  · rw [h.lastName]
    exact hu.lastName
  · rw [h.version]
    exact hu.version

end EnterpriseSystem.Identity
