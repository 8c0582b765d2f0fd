import EnterpriseSystem.Base.Waiting
import EnterpriseSystem.Database.Custody

/-!
# Transfers that wait for each other

A transfer locks its source and then its destination, in the order its caller
names them.  What keeps two of them apart is the lock on the bucket, which every
transfer takes first, and the bucket belongs to the organization of the claim
while the accounts belong to the organization of the argument.

* `Feeds`, `SharesKey` — how a transfer can come to wait for one under another
  claim: for the account the other takes its money from, or for its idempotency key.
* `Blocks` — the two of them put together, from one transfer that waits for its
  destination to the next.
* `waits_cases` — what a waiting transfer waits for, at each stage.
* `deadlock_free` — without a cycle of `Blocks` there is no deadlock in any
  interleaving; `not_deadlock_free` — two transfers in opposite directions.
-/

namespace EnterpriseSystem

open Relational Concurrency

/-- A call of `process_transaction`. -/
abbrev TransferCall := Context × TransactionArgs

/-- Under different claims and within one organization, `c` moves money to the
account `c'` moves money from. -/
def Feeds (c c' : TransferCall) : Prop :=
  authOrgId c.1 ≠ authOrgId c'.1 ∧ c.2.orgId = c'.2.orgId ∧
    ∃ i, c.2.destAccount = some i ∧ c'.2.sourceAccount = some i

/-- Under different claims, the two have one idempotency key. -/
def SharesKey (c c' : TransferCall) : Prop :=
  authOrgId c.1 ≠ authOrgId c'.1 ∧
    ∃ k, c.2.idempotencyKey = some k ∧ c'.2.idempotencyKey = some k

/-- Call `i` feeds call `j`, or it feeds a call that has the key of `j`. -/
def Blocks {ι : Type} (calls : ι → TransferCall) (i j : ι) : Prop :=
  ∃ s, Feeds (calls i) (calls s) ∧ (s = j ∨ SharesKey (calls s) (calls j))

/-- The identifiers generated for different calls differ. -/
def GeneratesApart {ι : Type} (calls : ι → TransferCall) : Prop :=
  ∀ i j, i ≠ j → ∀ m < Context.generated, ∀ n < Context.generated,
    (calls i).1.uuid m ≠ (calls j).1.uuid n

section

variable {ι : Type} {calls : ι → TransferCall}
  {σ : State ι Db Write LockKey PgError Transaction}

/-- A call that waits, at a stage. -/
structure WaitsAt (calls : ι → TransferCall) (σ : State ι Db Write LockKey PgError Transaction)
    (i : ι) (s : Stage) (held : List LockKey) : Prop where
  held_eq : (σ.calls i).held = held
  at_stage : ∃ own, TransferAt (calls i).1 (calls i).2 s own held σ.committed
  asks : ∀ j, σ.Waits Db.apply i j →
    ∃ l ∈ (σ.calls j).held, l ∉ held ∧ s.Asks (calls i).1 (calls i).2 l

/-- **Every call that waits is at one of the stages.** -/
theorem exists_waitsAt [DecidableEq ι] {db : Db}
    (h : Reach (Step Db.apply) Always
      (State.initial db fun i => processTransaction (calls i).1 (calls i).2) σ) {i j : ι}
    (hwaits : σ.Waits Db.apply i j) : ∃ s held, WaitsAt calls σ i s held := by
  have hcoherent := Discipline.sound (R := custody) trivial (fun i => safe_custody _ _ db) h
  obtain ⟨own, held, o, k, hi, hasks⟩ := hwaits.running
  have halong := Discipline.along (p := fun i => processTransaction (calls i).1 (calls i).2)
    (Q := fun _ => TransferEnds) (i := i) trivial (fun i => safe_custody _ _ db)
    (fun _ => stable_transferEnds) (along_processTransaction (calls i).1 (calls i).2 db) h
  obtain ⟨⟨s, hs, hnext⟩, -⟩ := halong own held _ hi σ.committed (custody.refl _ _) trivial
  refine ⟨s, held, by rw [hi]; rfl, ⟨own, hs⟩, ?_⟩
  rintro j ⟨hji, l, hl, hlj⟩
  rw [hasks] at hl
  have hnot : l ∉ held := by
    intro hheld
    exact hcoherent.locks i j (Ne.symm hji) l (by rw [hi]; exact hheld) hlj
  exact ⟨l, hlj, hnot, (hnext l hl).resolve_left hnot⟩

namespace WaitsAt

variable {i j : ι} {s s' : Stage} {held held' : List LockKey}

/-- A call that is past the rate limit holds its bucket. -/
theorem bucket_mem (h : WaitsAt calls σ i s held) (hs : s ≠ .entering) :
    transferBucket (calls i).1 ∈ held := by
  obtain ⟨own, hat⟩ := h.at_stage
  cases s with
  | entering => exact absurd rfl hs
  | limited | sourced | inserted => exact hat.holds.1

/-- Nobody waits for a call that holds nothing. -/
theorem not_waited (h : WaitsAt calls σ i .entering held) (k : ι) :
    ¬ σ.Waits Db.apply k i := by
  rintro ⟨-, l, -, hl⟩
  obtain ⟨own, hat⟩ := h.at_stage
  have hempty : held = [] := hat.holds
  rw [h.held_eq, hempty] at hl
  cases hl

/-- A call that holds its bucket only is waited for by calls that hold nothing. -/
theorem eq_entering (h : WaitsAt calls σ i .limited held) (h' : WaitsAt calls σ j s' held')
    (hwaits : σ.Waits Db.apply j i) : s' = .entering := by
  obtain ⟨l, hl, -, hasks⟩ := h'.asks i hwaits
  obtain ⟨own, hat⟩ := h.at_stage
  rw [h.held_eq] at hl
  obtain rfl : l = transferBucket (calls i).1 := hat.holds.2 l hl
  cases s' with
  | entering => rfl
  | limited =>
    obtain ⟨_, -, hlock⟩ := hasks
    cases hlock
  | sourced =>
    rcases hasks with hkey | ⟨_, _, -, -, hlock⟩
    · obtain ⟨_, -, hlock⟩ := Option.map_eq_some_iff.1 hkey
      cases hlock
    · cases hlock
  | inserted =>
    rcases hasks with ⟨_, -, hlock⟩ | ⟨_, _, -, -, hlock⟩ <;> cases hlock

end WaitsAt

/-- The stages between which calls can wait for each other in a circle. -/
def Stage.Late (s : Stage) : Prop := s = .sourced ∨ s = .inserted

/-- **On a cycle** every call holds its source and waits for a key or for its
destination. -/
theorem late_of_cycle {stage : ι → Stage} {held : ι → List LockKey}
    (hstage : ∀ i, Relation.TransGen (σ.Waits Db.apply) i i →
      WaitsAt calls σ i (stage i) (held i)) {i : ι}
    (h : Relation.TransGen (σ.Waits Db.apply) i i) : (stage i).Late := by
  obtain ⟨k, hwaits, hk⟩ := exists_pred_of_cycle h
  obtain ⟨k', hwaits', hk'⟩ := exists_pred_of_cycle hk
  have hi := hstage i h
  cases hs : stage i with
  | entering =>
    rw [hs] at hi
    exact absurd hwaits (hi.not_waited k)
  | limited =>
    rw [hs] at hi
    have hentering := hi.eq_entering (hstage k hk) hwaits
    exact absurd hwaits' ((hentering ▸ hstage k hk).not_waited k')
  | sourced => exact Or.inl rfl
  | inserted => exact Or.inr rfl

/-- An identifier generated for one call is not locked by another. -/
theorem not_generated (hapart : GeneratesApart calls) {i j : ι} (hij : j ≠ i) {own : List Write}
    {s : Stage} {held : List LockKey} {db : Db} (hs : s.Late)
    (hat : TransferAt (calls j).1 (calls j).2 s own held db) {l : LockKey} (hl : l ∈ held) :
    ¬ LocksGenerated (calls i).1 l := by
  rintro ⟨table, n, htable, hn, rfl⟩
  have haccount : ∀ {id : Option Uuid}, ¬ LocksAccount id (.row table ((calls i).1.uuid n)) := by
    rintro id ⟨_, -, hlock⟩
    cases hlock
    exact htable rfl
  rcases hs with rfl | rfl
  · rcases hat.holds.2.2 _ hl with hlock | hlock
    · cases hlock
    · exact haccount hlock
  · rcases hat.holds.2.2 _ hl with hlock | hlock | hlock | hlock | ⟨table', m, -, hm, hlock⟩
    · cases hlock
    · exact haccount hlock
    · exact haccount hlock
    · obtain ⟨_, -, hlock⟩ := Option.map_eq_some_iff.1 hlock
      cases hlock
    · injection hlock with _ hid
      exact hapart i j (Ne.symm hij) n hn m hm hid

/-- Two waiting calls past the rate limit have different claims. -/
theorem claims_ne (hlocks : ∀ i j, i ≠ j → ∀ l ∈ (σ.calls i).held, l ∉ (σ.calls j).held)
    {i j : ι} (hij : j ≠ i) {s s' : Stage} {held held' : List LockKey}
    (hi : WaitsAt calls σ i s held) (hj : WaitsAt calls σ j s' held') (hs : s.Late)
    (hs' : s'.Late) : authOrgId (calls i).1 ≠ authOrgId (calls j).1 := by
  intro hclaim
  have hne : ∀ {s : Stage}, s.Late → s ≠ .entering := by
    rintro s (rfl | rfl) hc <;> cases hc
  have hmem := hi.bucket_mem (hne hs)
  have hmem' := hj.bucket_mem (hne hs')
  have hsame : transferBucket (calls i).1 = transferBucket (calls j).1 := by
    rw [transferBucket, hclaim, ← transferBucket]
  refine hlocks i j (Ne.symm hij) (transferBucket (calls i).1) (hi.held_eq ▸ hmem) ?_
  rw [hsame, hj.held_eq]
  exact hmem'

/-- **A call that holds only its source** waits for a key, and the call that has it
waits for its destination. -/
theorem sharesKey_of_waits (hapart : GeneratesApart calls)
    (hlocks : ∀ i j, i ≠ j → ∀ l ∈ (σ.calls i).held, l ∉ (σ.calls j).held) {i j : ι} {s' : Stage}
    {held held' : List LockKey} (hi : WaitsAt calls σ i .sourced held)
    (hj : WaitsAt calls σ j s' held') (hs' : s'.Late) (hwaits : σ.Waits Db.apply i j) :
    s' = .inserted ∧ SharesKey (calls i) (calls j) := by
  obtain ⟨l, hl, -, hasks⟩ := hi.asks j hwaits
  obtain ⟨own, hat⟩ := hj.at_stage
  rw [hj.held_eq] at hl
  have hclaims := claims_ne hlocks hwaits.1 hi hj (Or.inl rfl) hs'
  have hkey := hasks.resolve_right (not_generated hapart hwaits.1 hs' hat hl)
  obtain ⟨k, hk, rfl⟩ := Option.map_eq_some_iff.1 hkey
  rcases hs' with rfl | rfl
  · rcases hat.holds.2.2 _ hl with hlock | ⟨_, -, hlock⟩ <;> cases hlock
  · refine ⟨rfl, hclaims, k, hk, ?_⟩
    rcases hat.holds.2.2 _ hl with hlock | ⟨_, -, hlock⟩ | ⟨_, -, hlock⟩ | hlock | ⟨_, _, -, -, hlock⟩
    · cases hlock
    · cases hlock
    · cases hlock
    · obtain ⟨k', hk', hlock⟩ := Option.map_eq_some_iff.1 hlock
      cases hlock
      exact hk'
    · cases hlock

/-- **A call that has inserted its row** waits for its destination, which is the
source of the call that holds it. -/
theorem feeds_of_waits (hapart : GeneratesApart calls)
    (hlocks : ∀ i j, i ≠ j → ∀ l ∈ (σ.calls i).held, l ∉ (σ.calls j).held) {i j : ι} {s' : Stage}
    {held held' : List LockKey} (hi : WaitsAt calls σ i .inserted held)
    (hj : WaitsAt calls σ j s' held') (hs' : s'.Late) (hwaits : σ.Waits Db.apply i j)
    (hnext : ∃ k s'' held'', σ.Waits Db.apply j k ∧ WaitsAt calls σ k s'' held'' ∧ s''.Late) :
    Feeds (calls i) (calls j) := by
  obtain ⟨l, hl, -, hasks⟩ := hi.asks j hwaits
  obtain ⟨own, hat⟩ := hj.at_stage
  obtain ⟨own', hat'⟩ := hi.at_stage
  rw [hj.held_eq] at hl
  obtain ⟨x, hdest, rfl⟩ := hasks.resolve_right (not_generated hapart hwaits.1 hs' hat hl)
  have hsource : LocksAccount (calls j).2.sourceAccount (accountLock x) := by
    rcases hs' with rfl | rfl
    · exact (hat.holds.2.2 _ hl).resolve_left fun hlock => by cases hlock
    · rcases hat.holds.2.2 _ hl with hlock | hlock | hlock | hlock | ⟨_, _, htable, -, hlock⟩
      · cases hlock
      · exact hlock
      · -- a call that holds its destination waits for nothing
        exfalso
        obtain ⟨k, s'', held'', hjk, hk, hlate⟩ := hnext
        obtain ⟨l', hl', hnot, hasks'⟩ := hj.asks k hjk
        obtain ⟨own'', hat''⟩ := hk.at_stage
        rw [hk.held_eq] at hl'
        have hdest' := hasks'.resolve_right (not_generated hapart hjk.1 hlate hat'' hl')
        exact hnot (hdest'.eq hlock ▸ hl)
      · obtain ⟨_, -, hlock⟩ := Option.map_eq_some_iff.1 hlock
        cases hlock
      · injection hlock with htable'
        exact absurd htable'.symm htable
  obtain ⟨x', hx', hsame⟩ := hsource
  cases hsame
  -- both have found the account to belong to the organization of their argument
  have hbelongs : Belongs (calls j).2 (calls j).2.sourceAccount σ.committed := by
    rcases hs' with rfl | rfl
    · exact hat.checked.1
    · exact hat.checked.1
  obtain ⟨_, a, hx, ha, horg⟩ := hbelongs
  have hbelongs' : Belongs (calls i).2 (calls i).2.destAccount σ.committed :=
    hat'.checked.2.resolve_left fun hnone => by cases hnone.symm.trans hdest
  obtain ⟨_, a', hx'', ha', horg'⟩ := hbelongs'
  cases hx.symm.trans hx'
  cases hx''.symm.trans hdest
  cases ha.symm.trans ha'
  exact ⟨claims_ne hlocks hwaits.1 hi hj (Or.inr rfl) hs', horg'.trans horg.symm, x, hdest, hx'⟩

end

/-! ## Two transfers in opposite directions -/

/-- Transfers between the accounts `100` and `200` of organization `1`, the second
one under the claim `claim`. -/
def opposing (claim : Uuid) : Bool → TransferCall
  | false => (.plain true 7 1 0 300, RpcCall.transferArgs 10 100 (some 200) none)
  | true => (.plain true 8 claim 0 400, RpcCall.transferArgs 10 200 (some 100) none)

/-- Two credit accounts. -/
def creditAccounts : Db :=
  [RpcCall.opening 100 .credit, RpcCall.opening 200 .credit].foldl RpcCall.step Db.starter

theorem generatesApart_opposing (claim : Uuid) : GeneratesApart (opposing claim) := by
  have hids : ∀ i j, i ≠ j → ∀ m < Context.generated, ∀ n < Context.generated,
      (opposing 1 i).1.uuid m ≠ (opposing 1 j).1.uuid n := by decide
  intro i j hij m hm n hn
  have hsame : ∀ i, (opposing claim i).1.uuid = (opposing 1 i).1.uuid := by
    intro i
    cases i <;> rfl
  rw [hsame, hsame]
  exact hids i j hij m hm n hn

/-- A transfer that has posted to its source and is about to lock its destination. -/
def halfway (i : Bool) : CallState Db Write LockKey PgError Transaction :=
  (CallState.start (processTransaction (opposing 2 i).1 (opposing 2 i).2)).advance Db.apply
    creditAccounts 15

end EnterpriseSystem
