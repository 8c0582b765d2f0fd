import EnterpriseSystem.Base.Run
import EnterpriseSystem.Database.Readers
import EnterpriseSystem.Database.Transfer

/-!
# What a tenant sees of the audit log

A row of the audit log has no organization.  `list_audit_logs` shows the rows
whose actor is a member of the caller's organization, and so it also shows what
these users have done in other organizations.

* `SeesSame` — no call of `list_audit_logs` tells two states apart.
* `seesSame_iff` — this is so exactly when none of the rows in which the logs
  differ has a member of the organization as its actor.
* `not_seesSame_otherTenant` — a member of two organizations shows the work for
  one of them to the other.
-/

namespace EnterpriseSystem

open Relational Concurrency

/-- There is a way to order equal times: any one. -/
noncomputable def FixedOrder.any {α : Type} (createdAt : α → Timestamp) :
    FixedOrder α createdAt where
  sort s := s.toList.insertionSort fun a b => createdAt b ≤ createdAt a
  perm s := (Multiset.coe_eq_coe.2 (List.perm_insertionSort _ _)).trans s.coe_toList
  sorted s := by
    have : Std.Total fun a b : α => createdAt b ≤ createdAt a :=
      ⟨fun a b => le_total (createdAt b) (createdAt a)⟩
    have : IsTrans α fun a b => createdAt b ≤ createdAt a :=
      ⟨fun _ _ _ hab hbc => le_trans hbc hab⟩
    exact List.pairwise_insertionSort _ _

/-- Every call of `list_audit_logs` answers the same in both states. -/
def SeesSame (ctx : Context) (db db' : Db) : Prop :=
  ∀ order tableName action limit offset,
    listAuditLogs order ctx tableName action limit offset db =
      listAuditLogs order ctx tableName action limit offset db'

/-- The logs differ only in rows whose actor is no member of the organization. -/
def DiffersOutside (o : Uuid) (db db' : Db) : Prop :=
  ∀ e, actorIsMember o db e → (e ∈ db.auditLog ↔ e ∈ db'.auditLog)

/-- The first row of a page. -/
theorem page_one {α : Type} {cap : ℕ} (hcap : 1 ≤ cap) {rows : List α} {k : ℕ} {offset : Int4}
    (hoffset : offset.1 = k) :
    page cap (some ⟨1, by decide⟩) (some offset) rows = .ok ((rows.drop k).take 1) := by
  have hmin : min (1 : ℤ) cap = 1 := by omega
  simp [page, hoffset, hmin]

section

variable {ctx : Context} {u o : Uuid} {db db' : Db} (hsub : ctx.session.sub = some u)
  (hadmin : auditedOrganization ctx u db = some o)
  (hmembers : db'.organizationMembers = db.organizationMembers)

include hsub

/-- What an owner or admin gets. -/
theorem listAuditLogs_eq (hadmin : auditedOrganization ctx u db = some o)
    (order : FixedOrder AuditEntry AuditEntry.createdAt) (tableName : Option String)
    (action : Option AuditAction) (limit offset : Option Int4) :
    listAuditLogs order ctx tableName action limit offset db = page 200 limit offset
      ((order.sort (db.auditLog.bag.filter fun e => matchesFilter tableName e.tableName ∧
        matchesFilter action e.action ∧ actorIsMember o db e)).map AuditEntry.listed) := by
  have huid : authUid ctx = .ok u := by rw [authUid, hsub]
  rw [listAuditLogs, huid]
  simp only [Except.mapError, bind, Except.bind, hadmin]

include hadmin hmembers

omit hsub in
theorem auditedOrganization_congr : auditedOrganization ctx u db' = some o := by
  rw [auditedOrganization, hmembers]
  exact hadmin

omit hsub hadmin in
theorem actorIsMember_congr (e : AuditEntry) : actorIsMember o db' e ↔ actorIsMember o db e := by
  rw [actorIsMember, actorIsMember, hmembers]

/-- Rows of strangers are not shown. -/
theorem DiffersOutside.seesSame (h : DiffersOutside o db db') : SeesSame ctx db db' := by
  intro order tableName action limit offset
  rw [listAuditLogs_eq hsub hadmin,
    listAuditLogs_eq hsub (auditedOrganization_congr hadmin hmembers)]
  have hrows : (db.auditLog.bag.filter fun e => matchesFilter tableName e.tableName ∧
      matchesFilter action e.action ∧ actorIsMember o db e) =
      db'.auditLog.bag.filter fun e => matchesFilter tableName e.tableName ∧
        matchesFilter action e.action ∧ actorIsMember o db' e := by
    simp only [actorIsMember_congr hmembers]
    exact Table.filter_bag_congr fun e he => h e he.2.2
  rw [hrows]

/-- **A row of a member is shown**, on the page that starts with it. -/
theorem mem_of_seesSame
    (hids : ∀ e ∈ db.auditLog, ∀ e' ∈ db'.auditLog, e.id = e'.id → e = e')
    (hlength : db.auditLog.rows.length ≤ 2 ^ 31) (h : SeesSame ctx db db') {e : AuditEntry}
    (hmember : actorIsMember o db e) (he : e ∈ db.auditLog) : e ∈ db'.auditLog := by
  let order := FixedOrder.any AuditEntry.createdAt
  let shown := fun db : Db => order.sort (db.auditLog.bag.filter fun e =>
    matchesFilter none e.tableName ∧ matchesFilter none e.action ∧ actorIsMember o db e)
  have hshown : e ∈ shown db := by
    rw [← Multiset.mem_coe, order.perm, Multiset.mem_filter]
    exact ⟨he, Or.inl rfl, Or.inl rfl, hmember⟩
  have hle : (shown db).length ≤ db.auditLog.rows.length := by
    rw [← Multiset.coe_card, order.perm]
    exact Multiset.card_le_card (Multiset.filter_le _ _)
  obtain ⟨k, hk, hget⟩ := List.getElem_of_mem hshown
  have hoffset : -2 ^ 31 ≤ (k : ℤ) ∧ (k : ℤ) < 2 ^ 31 := by omega
  have hpage := h order none none (some ⟨1, by decide⟩) (some ⟨k, hoffset⟩)
  rw [listAuditLogs_eq hsub hadmin,
    listAuditLogs_eq hsub (auditedOrganization_congr hadmin hmembers),
    page_one (by decide) rfl, page_one (by decide) rfl, ← List.map_drop, ← List.map_drop,
    ← List.map_take, ← List.map_take] at hpage
  have hfirst : e ∈ ((shown db).drop k).take 1 := by
    rw [List.drop_eq_getElem_cons hk, hget]
    simp
  have hrow : e.listed ∈ (((shown db').drop k).take 1).map AuditEntry.listed := by
    rw [← Except.ok.inj hpage]
    exact List.mem_map_of_mem hfirst
  obtain ⟨e', he', hlisted⟩ := List.mem_map.1 hrow
  have hshown' : e' ∈ shown db' := List.mem_of_mem_drop (List.mem_of_mem_take he')
  rw [← Multiset.mem_coe, order.perm, Multiset.mem_filter] at hshown'
  have hmem : e' ∈ db'.auditLog := hshown'.1
  have hid : e'.id = e.id := congrArg AuditLogRow.id hlisted
  rw [hids e he e' hmem hid.symm]
  exact hmem

end

/-- **Exactly the rows of members are shown.**  Two states with the same members
look the same in the audit log of an organization when they differ only in rows
of users who are no members of it, and, as long as identifiers are generated once
and every row is on some page, only then. -/
theorem seesSame_iff {ctx : Context} {u o : Uuid} {db db' : Db} (hsub : ctx.session.sub = some u)
    (hadmin : auditedOrganization ctx u db = some o)
    (hmembers : db'.organizationMembers = db.organizationMembers) :
    (DiffersOutside o db db' → SeesSame ctx db db') ∧
    ((∀ e ∈ db.auditLog, ∀ e' ∈ db'.auditLog, e.id = e'.id → e = e') →
      db.auditLog.rows.length ≤ 2 ^ 31 → db'.auditLog.rows.length ≤ 2 ^ 31 →
        (SeesSame ctx db db' ↔ DiffersOutside o db db')) := by
  have hsees : DiffersOutside o db db' → SeesSame ctx db db' :=
    fun h => h.seesSame hsub hadmin hmembers
  refine ⟨hsees, fun hids hlength hlength' => ⟨fun h e hmember => ⟨fun he => ?_, fun he => ?_⟩, hsees⟩⟩
  · exact mem_of_seesSame hsub hadmin hmembers hids hlength h hmember he
  · have hids' : ∀ e ∈ db'.auditLog, ∀ e' ∈ db.auditLog, e.id = e'.id → e = e' :=
      fun e he e' he' hid => (hids e' he' e he hid.symm).symm
    have hsymm : SeesSame ctx db' db :=
      fun order tableName action limit offset => (h order tableName action limit offset).symm
    exact mem_of_seesSame hsub (auditedOrganization_congr hadmin hmembers) hmembers.symm hids'
      hlength' hsymm ((actorIsMember_congr hmembers e).2 hmember) he

/-! ## Two tenants -/

/-- The organizations `1` and `2`.  The user `7` owns the first, and the user `8`
owns the second and is a member of the first. -/
def Db.twoTenants : Db :=
  [Write.organizationMember (.plain 50 1 7 .owner), .organizationMember (.plain 51 1 8 .member),
    .organizationMember (.plain 52 2 8 .owner)].foldl Db.apply
      { Db.starter with organizations := Db.starter.organizations.put ⟨2, .starter⟩ }

/-- A call in the organization `2`: a user opens an account. -/
def openingInSecond (uid : Uuid) : RpcCall :=
  .createAccount (.plain true uid 2 0 100)
    { name := some "account", type := some .checking, currency := some "USD",
      metadata := some ⟨"{}"⟩ }

/-- The theorem at work: a stranger to the organization `1` opens an account. -/
theorem seesSame_iff_stranger :
    SeesSame (.plain true 7 1 0 200) Db.twoTenants ((openingInSecond 9).step Db.twoTenants) ↔
      DiffersOutside 1 Db.twoTenants ((openingInSecond 9).step Db.twoTenants) := by
  have hempty : Db.twoTenants.auditLog.rows = [] := rfl
  have hlength : ((openingInSecond 9).step Db.twoTenants).auditLog.rows.length = 1 := by
    decide +kernel
  refine (seesSame_iff rfl rfl (RpcCall.organizationMembers_step _ _)).2 (fun e he => ?_) ?_ ?_
  · rw [Table.mem_def, hempty] at he
    cases he
  · rw [hempty]
    decide
  · rw [hlength]
    decide

/-- The call is made in another organization. -/
def RpcCall.IsElsewhere (o : Uuid) : RpcCall → Prop
  | .createAccount ctx _ => authOrgId ctx ≠ some o
  | .processTransaction ctx args => authOrgId ctx ≠ some o ∧ args.orgId ≠ some o

/-- **Another tenant's work.**  The user `8` opens an account in the organization
`2`, and the owner of the organization `1` sees it. -/
theorem not_seesSame_otherTenant :
    ¬ ∀ o u ctx db db', ctx.session.sub = some u → auditedOrganization ctx u db = some o →
      Reach (Deterministic RpcCall.step) (fun _ c => c.IsElsewhere o) db db' →
        SeesSame ctx db db' := by
  intro h
  let db := Db.twoTenants
  let db' := (openingInSecond 8).step db
  have helsewhere : (openingInSecond 8).IsElsewhere 1 := by
    show some (2 : Uuid) ≠ some 1
    decide
  have hsees : SeesSame (.plain true 7 1 0 200) db db' :=
    h 1 7 _ db db' rfl rfl (.next .start helsewhere rfl)
  have hrow : (db'.auditLog.rows.any fun e => decide (e.actorId = some 8)) = true := by
    decide +kernel
  obtain ⟨e, he, hactor⟩ := List.any_eq_true.1 hrow
  have hmembers : db'.organizationMembers = db.organizationMembers :=
    RpcCall.organizationMembers_step _ _
  have hmember : actorIsMember 1 db' e := by
    rw [actorIsMember_congr hmembers, actorIsMember, of_decide_eq_true hactor]
    rfl
  have hadmin : auditedOrganization (.plain true 7 1 0 200) 7 db' = some 1 :=
    auditedOrganization_congr rfl hmembers
  have hempty : db.auditLog.rows = [] := rfl
  have hlength : db'.auditLog.rows.length = 1 := by decide +kernel
  have hmem : e ∈ db.auditLog := by
    refine mem_of_seesSame rfl hadmin hmembers.symm (fun e₁ _ e₂ he₂ => ?_) ?_
      (fun order tableName action limit offset =>
        (hsees order tableName action limit offset).symm) hmember he
    · rw [Table.mem_def, hempty] at he₂
      cases he₂
    · rw [hlength]
      decide
  rw [Table.mem_def, hempty] at hmem
  cases hmem

end EnterpriseSystem
