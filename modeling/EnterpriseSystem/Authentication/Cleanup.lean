import EnterpriseSystem.Authentication.History
import EnterpriseSystem.Base.TwoStores

/-!
# Cleaning up sessions

`AuthService.cleanupExpiredSessions` deletes sessions that are revoked and have expired.  Every
other operation asks for unrevoked sessions, so it does not see whether they are there.

* `unrevoked`, `Twins` — the part of a store that the calls see; stores with the same.
* `Avoids`, `FreshDraws` — what is generated outside is new: a key is used once, and so is a
  salted hash.
* `agree_task` — on twin stores every call comes to the same.
* `cleanup_unobservable` — the calls of a history answer as they do without the cleanups.
-/

namespace EnterpriseSystem.Authentication

open Identity Relational Concurrency Reactive AuthService

/-! ## The sessions that are seen -/

/-- The unrevoked sessions. -/
def unrevoked (sessions : Table Session.id) : List Session :=
  sessions.rows.filter (·.revokedAt.isNone)

theorem mem_unrevoked {sessions : Table Session.id} {s : Session} :
    s ∈ unrevoked sessions ↔ s ∈ sessions ∧ s.revokedAt = none := by
  simp [unrevoked, Table.mem_def]

section

variable {host : SessionHost} {query : SessionWhere}

/-- A query for unrevoked sessions selects among them. -/
theorem filter_selects (hquery : query.revoked = some false) (sessions : Table Session.id) :
    sessions.rows.filter (query.selects host) = (unrevoked sessions).filter (query.selects host) := by
  rw [unrevoked, List.filter_filter]
  refine List.filter_congr fun s _ => ?_
  cases hrevoked : s.revokedAt <;> simp [SessionWhere.selects, hquery, hrevoked]

theorem find?_selects (hquery : query.revoked = some false) (sessions : Table Session.id) :
    sessions.rows.find? (query.selects host) =
      ((unrevoked sessions).filter (query.selects host)).head? := by
  rw [← filter_selects hquery, List.head?_filter]

theorem countP_selects (hquery : query.revoked = some false) (sessions : Table Session.id) :
    sessions.rows.countP (query.selects host) =
      ((unrevoked sessions).filter (query.selects host)).length := by
  rw [← filter_selects hquery, List.countP_eq_length_filter]

end

/-- Revoking some of the rows takes them out of the unrevoked ones. -/
theorem filter_revoke (rows : List Session) (p : Session → Bool) (revokedAt : Date) :
    (rows.map fun s => if p s then s.revoke revokedAt else s).filter (·.revokedAt.isNone) =
      (rows.filter (·.revokedAt.isNone)).filter (! p ·) := by
  induction rows with
  | nil => rfl
  | cons s rows ih =>
    cases hp : p s <;> cases hs : s.revokedAt <;> simp_all [Session.revoke]

theorem unrevoked_update (sessions : Table Session.id) (p : Session → Bool) (revokedAt : Date) :
    unrevoked (sessions.update p (Session.revoke revokedAt) (Session.id_revoke revokedAt)) =
      (unrevoked sessions).filter (! p ·) :=
  filter_revoke sessions.rows p revokedAt

theorem unrevoked_put_revoke {sessions : Table Session.id} {s : Session} (hs : s ∈ sessions)
    (revokedAt : Date) :
    unrevoked (sessions.put (s.revoke revokedAt)) =
      (unrevoked sessions).filter fun t => ! decide (t.id = s.id) := by
  have hfilter := filter_revoke sessions.rows (fun t => decide (t.id = s.id)) revokedAt
  simp only [decide_eq_true_eq] at hfilter
  rw [unrevoked, rows_put_revoke hs, hfilter, unrevoked]

/-- A new session is seen. -/
theorem unrevoked_put_new {sessions : Table Session.id} {s : Session}
    (hnew : sessions.get? s.id = none) (hs : s.revokedAt = none) :
    unrevoked (sessions.put s) = unrevoked sessions ++ [s] := by
  rw [unrevoked, Table.rows_put_of_get?_none hnew, List.filter_append]
  simp [unrevoked, hs]

/-- Deleting revoked sessions is not. -/
theorem unrevoked_remove (sessions : Table Session.id) (p : Session → Prop) [DecidablePred p]
    (hp : ∀ s ∈ sessions, p s → s.revokedAt ≠ none) :
    unrevoked (sessions.remove p) = unrevoked sessions := by
  rw [unrevoked, Table.remove, List.filter_filter]
  refine List.filter_congr fun s hs => ?_
  cases hrevoked : s.revokedAt with
  | none =>
    have hkept : ¬ p s := fun h => hp s hs h hrevoked
    simp [hkept]
  | some t => simp

/-! ## Twins -/

/-- The same but for the revoked sessions. -/
structure Twins (w w' : SessionWorld) : Prop where
  around : w' = { w with sessions := w'.sessions }
  seen : unrevoked w.sessions = unrevoked w'.sessions

/-- No session has one of these keys, or one of these hashes. -/
def Avoids (ids : Set DbUuid) (hashes : Set String) (sessions : Table Session.id) : Prop :=
  ∀ s ∈ sessions, s.id ∉ ids ∧ s.refreshToken ∉ hashes

/-- The keys that are generated in these surroundings. -/
def Surroundings.newIds (e : Surroundings) : Set DbUuid := Set.range e.ids

/-- The hashes that are made there. -/
def Surroundings.newHashes (host : SessionHost) (e : Surroundings) : Set String :=
  { h | ∃ value k, host.bcryptHash value (e.salts k) = h }

/-- Twins in these surroundings that avoid these keys and hashes. -/
structure Paired (e : Surroundings) (ids : Set DbUuid) (hashes : Set String)
    (w w' : SessionWorld) : Prop where
  twins : Twins w w'
  drawn : w.ids = e.ids ∧ w.salts = e.salts
  left : Avoids ids hashes w.sessions
  right : Avoids ids hashes w'.sessions

section

variable {host : SessionHost} {e : Surroundings} {ids : Set DbUuid} {hashes : Set String}
  {w w' : SessionWorld}

theorem Twins.down_eq (h : Twins w w') : w'.down = w.down := by
  rw [h.around]
  rfl

theorem Twins.next (h : Twins w w') : Twins w.next w'.next where
  around := by
    conv_lhs => rw [h.around]
    rfl
  seen := h.seen

theorem Twins.put (h : Twins w w') {sessions sessions' : Table Session.id}
    (hseen : unrevoked sessions = unrevoked sessions') : Twins (w.put sessions) (w'.put sessions') where
  around := by
    conv_lhs => rw [h.around]
    rfl
  seen := hseen

theorem Paired.next (h : Paired e ids hashes w w') : Paired e ids hashes w.next w'.next where
  twins := h.twins.next
  drawn := h.drawn
  left := h.left
  right := h.right

theorem Avoids.mono {ids' : Set DbUuid} {hashes' : Set String} {sessions : Table Session.id}
    (h : Avoids ids' hashes' sessions) (hids : ids ⊆ ids') (hhashes : hashes ⊆ hashes') :
    Avoids ids hashes sessions :=
  fun s hs => ⟨fun hid => (h s hs).1 (hids hid), fun hhash => (h s hs).2 (hhashes hhash)⟩

/-- **Sessions in the place of others** with the same keys and hashes avoid the same. -/
theorem Avoids.of_labels {sessions sessions' : Table Session.id} (h : Avoids ids hashes sessions)
    (hlabels : ∀ s ∈ sessions', ∃ t ∈ sessions, t.id = s.id ∧ t.refreshToken = s.refreshToken) :
    Avoids ids hashes sessions' := by
  intro s hs
  obtain ⟨t, ht, hid, htoken⟩ := hlabels s hs
  rw [← hid, ← htoken]
  exact h t ht

/-! ### Operations -/

variable {query : SessionWhere}

/-- An operation on twins, which fails on both or on none on its own account. -/
theorem Paired.same_exec (h : Paired e ids hashes w w') (o : SessionOp)
    {Q : o.Ans → SessionWorld → SessionWorld → Prop}
    (hup : Task.Same Q (Paired e ids hashes) (o.perform host w) (o.perform host w')) :
    Task.Same Q (Paired e ids hashes) (o.exec host w) (o.exec host w') := by
  cases hdown : w.down with
  | true =>
    rw [exec_of_down hdown, exec_of_down (h.twins.down_eq.trans hdown)]
    exact .error h.next
  | false =>
    rw [exec_of_up hdown, exec_of_up (h.twins.down_eq.trans hdown)]
    exact hup

theorem agree_findMany (hquery : query.revoked = some false) :
    Task.Agree (SessionOp.exec host) (Paired e ids hashes) (SessionTask.findMany query)
      (fun found w w' => Paired e ids hashes w w' ∧ ∀ s ∈ found, s ∈ unrevoked w.sessions)
      (Paired e ids hashes) := by
  refine Task.Agree.await fun w w' h => h.same_exec (.findMany query) ?_
  have hfound : w'.sessions.rows.filter (query.selects host) =
      w.sessions.rows.filter (query.selects host) := by
    rw [filter_selects hquery, filter_selects hquery, h.twins.seen]
  simp only [SessionOp.perform, hfound]
  split_ifs
  · refine .ok ⟨h.next, fun s hs => ?_⟩
    rw [filter_selects hquery] at hs
    exact List.mem_of_mem_filter hs
  · exact .error h.next

theorem agree_findFirst (hquery : query.revoked = some false) :
    Task.Agree (SessionOp.exec host) (Paired e ids hashes) (SessionTask.findFirst query)
      (fun _ => Paired e ids hashes) (Paired e ids hashes) := by
  refine Task.Agree.await fun w w' h => h.same_exec (.findFirst query) ?_
  have hfound : w'.sessions.rows.find? (query.selects host) =
      w.sessions.rows.find? (query.selects host) := by
    rw [find?_selects hquery, find?_selects hquery, h.twins.seen]
  simp only [SessionOp.perform, hfound]
  split_ifs
  · exact .ok h.next
  · exact .error h.next

theorem agree_findUser (id : String) :
    Task.Agree (SessionOp.exec host) (Paired e ids hashes) (SessionTask.findUser id)
      (fun _ => Paired e ids hashes) (Paired e ids hashes) := by
  refine Task.Agree.await fun w w' h => h.same_exec (.findUser id) ?_
  have husers : w'.users = w.users := by rw [h.twins.around]
  simp only [SessionOp.perform, husers]
  cases host.uuid? id with
  | none => exact .error h.next
  | some userId => exact .ok h.next

theorem agree_bcryptHash (value : String) :
    Task.Agree (SessionOp.exec host) (Paired e ids hashes) (SessionTask.bcryptHash value)
      (fun hash w w' => Paired e ids hashes w w' ∧ hash ∈ e.newHashes host)
      (Paired e ids hashes) := by
  refine Task.Agree.await fun w w' h => h.same_exec (.bcryptHash value) ?_
  have hsalt : w'.salts w'.performed = w.salts w.performed := by rw [h.twins.around]
  simp only [SessionOp.perform, hsalt]
  exact .ok ⟨h.next, value, w.performed, by rw [h.drawn.2]⟩

theorem agree_bcryptCompare (value hash : String) {R : SessionWorld → SessionWorld → Prop}
    (hR : ∀ w w', R w w' → Paired e ids hashes w w')
    (hnext : ∀ w w', R w w' → R w.next w'.next) :
    Task.Agree (SessionOp.exec host) R (SessionTask.bcryptCompare value hash) (fun _ => R)
      (Paired e ids hashes) := by
  refine Task.Agree.await fun w w' h => (hR w w' h).same_exec (.bcryptCompare value hash) ?_
  simp only [SessionOp.perform]
  exact .ok (hnext w w' h)

/-- Updates change neither keys nor hashes. -/
theorem Avoids.update {sessions : Table Session.id} (h : Avoids ids hashes sessions)
    (p : Session → Bool) (revokedAt : Date) :
    Avoids ids hashes
      (sessions.update p (Session.revoke revokedAt) (Session.id_revoke revokedAt)) := by
  refine h.of_labels fun s hs => ?_
  rw [Table.mem_def, Table.rows_update, List.mem_map] at hs
  obtain ⟨t, ht, rfl⟩ := hs
  refine ⟨t, ht, ?_, ?_⟩ <;> split_ifs <;> rfl

theorem Avoids.put_revoke {sessions : Table Session.id} (h : Avoids ids hashes sessions)
    {s : Session} (hs : s ∈ sessions) (revokedAt : Date) :
    Avoids ids hashes (sessions.put (s.revoke revokedAt)) := by
  refine h.of_labels fun t ht => ?_
  rcases Table.mem_put_iff.1 ht with rfl | ⟨ht, -⟩
  · exact ⟨s, hs, rfl, rfl⟩
  · exact ⟨t, ht, rfl, rfl⟩

theorem agree_updateMany (hquery : query.revoked = some false) (revokedAt : Date) :
    Task.Agree (SessionOp.exec host) (Paired e ids hashes) (SessionTask.updateMany query revokedAt)
      (fun _ => Paired e ids hashes) (Paired e ids hashes) := by
  refine Task.Agree.await fun w w' h => h.same_exec (.updateMany query revokedAt) ?_
  have hcount : w'.sessions.rows.countP (query.selects host) =
      w.sessions.rows.countP (query.selects host) := by
    rw [countP_selects hquery, countP_selects hquery, h.twins.seen]
  simp only [SessionOp.perform, hcount]
  split_ifs
  · refine .ok ⟨h.twins.put ?_, h.drawn, h.left.update _ _, h.right.update _ _⟩
    rw [unrevoked_update, unrevoked_update, h.twins.seen]
  · exact .error h.next

/-- **The update of an unrevoked session**: both stores have it. -/
theorem agree_update {s : Session} (revokedAt : Date) :
    Task.Agree (SessionOp.exec host)
      (fun w w' => Paired e ids hashes w w' ∧ s ∈ unrevoked w.sessions)
      (SessionTask.update s.id revokedAt) (fun _ => Paired e ids hashes) (Paired e ids hashes) := by
  refine Task.Agree.await fun w w' ⟨h, hs⟩ => h.same_exec (.update s.id revokedAt) ?_
  have hmem := (mem_unrevoked.1 hs).1
  have hmem' := (mem_unrevoked.1 (h.twins.seen ▸ hs)).1
  simp only [SessionOp.perform, Table.get?_of_mem hmem, Table.get?_of_mem hmem']
  refine .ok ⟨h.twins.put ?_, h.drawn, h.left.put_revoke hmem _, h.right.put_revoke hmem' _⟩
  rw [unrevoked_put_revoke hmem, unrevoked_put_revoke hmem', h.twins.seen]

/-- **A new session** collides with none that is there. -/
theorem not_collides {sessions : Table Session.id} {token : String} (k : ℕ)
    (h : Avoids (e.newIds ∪ ids) (e.newHashes host ∪ hashes) sessions)
    (htoken : token ∈ e.newHashes host) :
    (sessions.contains (e.ids k) || sessions.rows.any (·.refreshToken == token)) = false := by
  rw [Bool.or_eq_false_iff]
  constructor
  · rw [Table.contains_eq_false_iff, Table.get?_eq_none_iff]
    exact fun s hs hid => (h s hs).1 (.inl ⟨k, hid.symm⟩)
  · rw [List.any_eq_false]
    intro s hs heq
    exact (h s hs).2 (.inl (eq_of_beq heq ▸ htoken))

theorem Avoids.put_new {sessions : Table Session.id} (h : Avoids ids hashes sessions) {s : Session}
    (hid : s.id ∉ ids) (htoken : s.refreshToken ∉ hashes) : Avoids ids hashes (sessions.put s) := by
  intro t ht
  rcases Table.mem_put_iff.1 ht with rfl | ⟨ht, -⟩
  · exact ⟨hid, htoken⟩
  · exact h t ht

/-- Stores that a call can start in: what it generates is new there. -/
def Ready (host : SessionHost) (e : Surroundings) (ids : Set DbUuid) (hashes : Set String) :
    SessionWorld → SessionWorld → Prop :=
  Paired e (e.newIds ∪ ids) (e.newHashes host ∪ hashes)

theorem Ready.paired (h : Ready host e ids hashes w w') : Paired e ids hashes w w' where
  twins := h.twins
  drawn := h.drawn
  left := h.left.mono Set.subset_union_right Set.subset_union_right
  right := h.right.mono Set.subset_union_right Set.subset_union_right

/-- **Both stores get the new session**, or none. -/
theorem agree_create (data : SessionData) (hids : Disjoint e.newIds ids)
    (hhashes : Disjoint (e.newHashes host) hashes) :
    Task.Agree (SessionOp.exec host)
      (fun w w' => Ready host e ids hashes w w' ∧ data.refreshToken ∈ e.newHashes host)
      (SessionTask.create data) (fun _ => Paired e ids hashes) (Paired e ids hashes) := by
  refine Task.Agree.await fun w w' ⟨hready, htoken⟩ => ?_
  have h := hready.paired
  refine h.same_exec (.create data) ?_
  have hkey : w.ids w.performed = e.ids w.performed := by rw [h.drawn.1]
  have hkey' : w'.ids w'.performed = e.ids w.performed := by rw [h.twins.around, ← hkey]
  have husers : w'.users = w.users := by rw [h.twins.around]
  have hclock : w'.clock = w.clock := by rw [h.twins.around]
  have hleft := not_collides w.performed hready.left htoken
  have hright := not_collides w.performed hready.right htoken
  simp only [SessionOp.perform, hkey, hkey', husers, hclock, hleft, hright]
  cases host.uuid? data.userId with
  | none => exact .error h.next
  | some userId =>
    simp only [Bool.false_eq_true, if_false]
    split_ifs
    · exact .error h.next
    · have hid : e.ids w.performed ∉ ids := Set.disjoint_left.1 hids ⟨_, rfl⟩
      have hhash : data.refreshToken ∉ hashes := Set.disjoint_left.1 hhashes htoken
      refine .ok ⟨h.twins.put ?_, h.drawn, h.left.put_new hid hhash, h.right.put_new hid hhash⟩
      have hnew {sessions : Table Session.id} (hcalm : (sessions.contains (e.ids w.performed) ||
          sessions.rows.any (·.refreshToken == data.refreshToken)) = false) :
          sessions.get? (e.ids w.performed) = none :=
        Table.contains_eq_false_iff.1 (Bool.or_eq_false_iff.1 hcalm).1
      rw [unrevoked_put_new (hnew hleft) rfl, unrevoked_put_new (hnew hright) rfl, h.twins.seen]

/-! ### Calls -/

theorem agree_generateTokenPair (config : AuthConfig) (userId email : String) (roles : List String)
    (userAgent ipAddress : Option String) (d : Draw) (hids : Disjoint e.newIds ids)
    (hhashes : Disjoint (e.newHashes host) hashes) :
    Task.Agree (SessionOp.exec host) (Ready host e ids hashes)
      (generateTokenPair config userId email roles userAgent ipAddress d)
      (fun _ => Paired e ids hashes) (Paired e ids hashes) := by
  refine .bind ((agree_bcryptHash d.refreshTokenValue).mono (fun _ _ h => h) (fun _ _ _ h => h)
    fun _ _ h => Ready.paired h) fun hash => ?_
  refine .bind (Q := fun _ => Paired e ids hashes) ?_ fun _ => .pure fun _ _ h => h
  exact agree_create ⟨userId, hash, _, _, _⟩ hids hhashes

/-- The loop over the hashes: what it finds is one of the sessions. -/
theorem agree_firstMatch (value : String) (sessions : List Session)
    {R : SessionWorld → SessionWorld → Prop} (hR : ∀ w w', R w w' → Paired e ids hashes w w')
    (hnext : ∀ w w', R w w' → R w.next w'.next) :
    Task.Agree (SessionOp.exec host) R (firstMatch value sessions)
      (fun found w w' => R w w' ∧ ∀ s, found = some s → s ∈ sessions) (Paired e ids hashes) := by
  induction sessions with
  | nil => exact .pure fun _ _ h => ⟨h, nofun⟩
  | cons s sessions ih =>
    refine .bind (agree_bcryptCompare value s.refreshToken hR hnext) fun isMatch => ?_
    refine .ite (fun _ => .pure fun _ _ h => ⟨h, ?_⟩) fun _ => ih.mono (fun _ _ h => h)
      (fun _ _ _ h => ⟨h.1, fun t ht => List.mem_cons_of_mem s (h.2 t ht)⟩) fun _ _ h => h
    rintro t ⟨⟩
    exact List.mem_cons_self

theorem agree_refreshTokens (config : AuthConfig) (refreshToken : String)
    (userAgent ipAddress : Option String) (m : AuthService.Rotation)
    (hids : Disjoint e.newIds ids) (hhashes : Disjoint (e.newHashes host) hashes) :
    Task.Agree (SessionOp.exec host) (Ready host e ids hashes)
      (refreshTokens config refreshToken userAgent ipAddress m)
      (fun _ => Paired e ids hashes) (Paired e ids hashes) := by
  unfold refreshTokens
  split
  · rename_i userId tokenValue _ _
    refine .bind ((agree_findMany rfl).mono (fun _ _ h => h) (fun _ _ _ h => h)
      fun _ _ h => Ready.paired h) fun sessions => ?_
    refine .bind ((agree_firstMatch tokenValue sessions (fun _ _ h => h.1)
      fun _ _ h => ⟨h.1.next, h.2⟩).mono (fun _ _ h => h) (fun _ _ _ h => h)
        fun _ _ h => Ready.paired h) fun found => ?_
    cases found with
    | none =>
      refine .bind ((agree_updateMany rfl m.revoked).mono (fun _ _ h => h.1.1) (fun _ _ _ h => h)
        fun _ _ h => Ready.paired h) fun _ => .throw fun _ _ h => Ready.paired h
    | some session =>
      refine .bind ((agree_update m.revoked).mono
        (fun _ _ h => ⟨h.1.1, h.1.2 session (h.2 session rfl)⟩) (fun _ _ _ h => h)
          fun _ _ h => Ready.paired h) fun _ => ?_
      refine .bind ((agree_findUser userId).mono (fun _ _ h => h) (fun _ _ _ h => h)
        fun _ _ h => Ready.paired h) fun user => ?_
      cases user with
      | none => exact .throw fun _ _ h => Ready.paired h
      | some user =>
        refine .ite (fun _ => ?_) fun _ => .throw fun _ _ h => Ready.paired h
        exact agree_generateTokenPair _ _ _ _ _ _ _ hids hhashes
  · exact .throw fun _ _ h => Ready.paired h

/-- What `revokeToken` does after the query. -/
theorem agree_revokeFound (userId : String) (found : Option Session) (now : Date) :
    Task.Agree (SessionOp.exec host)
      (fun w w' => Paired e ids hashes w w' ∧ ∀ s, found = some s → s ∈ unrevoked w.sessions)
      (revokeFound userId found now) (fun _ => Paired e ids hashes) (Paired e ids hashes) := by
  cases found with
  | none =>
    exact .bind ((agree_updateMany rfl now).mono (fun _ _ h => h.1) (fun _ _ _ h => h)
      fun _ _ h => h) fun _ => .pure fun _ _ h => h
  | some session =>
    exact .bind ((agree_update now).mono (fun _ _ h => ⟨h.1, h.2 session rfl⟩) (fun _ _ _ h => h)
      fun _ _ h => h) fun _ => .pure fun _ _ h => h

theorem agree_revokeToken (userId : String) (refreshToken : Option String) (now : Date) :
    Task.Agree (SessionOp.exec host) (Paired e ids hashes) (revokeToken userId refreshToken now)
      (fun _ => Paired e ids hashes) (Paired e ids hashes) := by
  unfold revokeToken
  cases refreshToken.bind valuePart with
  | none =>
    exact (agree_revokeFound userId none now).mono (fun _ _ h => ⟨h, nofun⟩) (fun _ _ _ h => h)
      fun _ _ h => h
  | some tokenValue =>
    refine .bind (agree_findMany rfl) fun sessions => ?_
    refine .bind (agree_firstMatch tokenValue sessions (fun _ _ h => h.1)
      fun _ _ h => ⟨h.1.next, h.2⟩) fun found => ?_
    exact (agree_revokeFound userId found now).mono
      (fun _ _ h => ⟨h.1.1, fun s hs => h.1.2 s (h.2 s hs)⟩) (fun _ _ _ h => h) fun _ _ h => h

theorem agree_validate (payload : JwtPayload) :
    Task.Agree (SessionOp.exec host) (Paired e ids hashes) (JwtStrategy.validate payload)
      (fun _ => Paired e ids hashes) (Paired e ids hashes) := by
  refine .bind (agree_findFirst rfl) fun session => ?_
  cases session with
  | none => exact .throw fun _ _ h => h
  | some _ =>
    refine .bind (agree_findUser payload.sub) fun user => ?_
    cases user with
    | none => exact .throw fun _ _ h => h
    | some user => exact .ite (fun _ => .pure fun _ _ h => h) fun _ => .throw fun _ _ h => h

/-- A call of `cleanupExpiredSessions`. -/
def AuthCall.isCleanup : AuthCall → Bool
  | cleanupExpiredSessions _ => true
  | _ => false

/-- A wrapped answer. -/
theorem agree_wrap {α β : Type} {R : SessionWorld → SessionWorld → Prop} {p : SessionTask α}
    (f : α → β) (hp : Task.Agree (SessionOp.exec host) R p (fun _ => Paired e ids hashes)
      (Paired e ids hashes)) :
    Task.Agree (SessionOp.exec host) R (p >>= fun a => pure (f a)) (fun _ => Paired e ids hashes)
      (Paired e ids hashes) :=
  .bind hp fun _ => .pure fun _ _ h => h

/-- A call that generates nothing starts as well where its values would be new. -/
theorem agree_of_paired {α : Type} {p : SessionTask α}
    (hp : Task.Agree (SessionOp.exec host) (Paired e ids hashes) p (fun _ => Paired e ids hashes)
      (Paired e ids hashes)) :
    Task.Agree (SessionOp.exec host) (Ready host e ids hashes) p (fun _ => Paired e ids hashes)
      (Paired e ids hashes) :=
  hp.mono (fun _ _ h => Ready.paired h) (fun _ _ _ h => h) fun _ _ h => h

/-- **On twin stores every call comes to the same**, the cleanup apart. -/
theorem agree_task (config : AuthConfig) {call : AuthCall} (hcall : call.isCleanup = false)
    (hids : Disjoint e.newIds ids) (hhashes : Disjoint (e.newHashes host) hashes) :
    Task.Agree (SessionOp.exec host) (Ready host e ids hashes) (call.task config)
      (fun _ => Paired e ids hashes) (Paired e ids hashes) := by
  cases call with
  | generateTokenPair userId email roles userAgent ipAddress draw =>
    exact agree_wrap _ (agree_generateTokenPair _ _ _ _ _ _ _ hids hhashes)
  | refreshTokens refreshToken userAgent ipAddress rotation =>
    exact agree_wrap _ (agree_refreshTokens _ _ _ _ _ hids hhashes)
  | revokeToken userId refreshToken now =>
    exact agree_of_paired (agree_wrap (fun _ => AuthAnswer.done) (agree_revokeToken _ _ _))
  | revokeAllTokens userId now =>
    exact agree_of_paired (agree_wrap _ (agree_updateMany rfl now))
  | cleanupExpiredSessions now => exact nomatch hcall
  | validate payload => exact agree_of_paired (agree_wrap _ (agree_validate payload))

end

/-! ## Histories -/

section

variable {host : SessionHost} {config : AuthConfig} {sessions sessions' : Table Session.id}
  {history : List (AuthCall × Surroundings)}

/-- The keys generated along a history. -/
def newIds (history : List (AuthCall × Surroundings)) : Set DbUuid :=
  { id | ∃ entry ∈ history, id ∈ entry.2.newIds }

/-- The hashes made along it. -/
def newHashes (host : SessionHost) (history : List (AuthCall × Surroundings)) : Set String :=
  { h | ∃ entry ∈ history, h ∈ entry.2.newHashes host }

/-- **What is generated is new**: a key that the database generates, or a hash with a fresh
salt, belongs to no session yet, and no two calls get the same one. -/
structure FreshDraws (host : SessionHost) (sessions : Table Session.id)
    (history : List (AuthCall × Surroundings)) : Prop where
  unused : Avoids (newIds history) (newHashes host history) sessions
  once : history.Pairwise fun entry entry' => Disjoint entry.2.newIds entry'.2.newIds ∧
    Disjoint (entry.2.newHashes host) (entry'.2.newHashes host)

theorem newIds_cons (entry : AuthCall × Surroundings) :
    newIds (entry :: history) = entry.2.newIds ∪ newIds history := by
  ext id
  simp [newIds]

theorem newHashes_cons (entry : AuthCall × Surroundings) :
    newHashes host (entry :: history) = entry.2.newHashes host ∪ newHashes host history := by
  ext h
  simp [newHashes]

/-- What the sessions come to under a cleanup. -/
theorem after_cleanup (host : SessionHost) (config : AuthConfig) (sessions : Table Session.id)
    (now : Date) (e : Surroundings) :
    (authMachine host config sessions (.cleanupExpiredSessions now, e)).2 = sessions ∨
      (authMachine host config sessions (.cleanupExpiredSessions now, e)).2 = sessions.remove fun s =>
        SessionWhere.selects host { expiresBefore := now, revoked := true } s = true := by
  have hrun : (authMachine host config sessions (.cleanupExpiredSessions now, e)).2 =
      ((SessionOp.deleteMany { expiresBefore := now, revoked := true }).exec host
        (e.world sessions)).2.sessions :=
    congrArg (fun r => r.2.sessions) (run_wrap (cleanupExpiredSessions now) AuthAnswer.count _)
  rw [hrun]
  cases hdown : (e.world sessions).down with
  | true =>
    rw [exec_of_down hdown]
    exact .inl rfl
  | false =>
    rw [exec_of_up hdown]
    exact .inr rfl

/-- **A cleanup is not seen**, and what is new stays new. -/
theorem cleanup_not_seen (config : AuthConfig) (now : Date) (e : Surroundings)
    (hfresh : FreshDraws host sessions history) :
    unrevoked (authMachine host config sessions (.cleanupExpiredSessions now, e)).2 =
        unrevoked sessions ∧
      FreshDraws host (authMachine host config sessions (.cleanupExpiredSessions now, e)).2
        history := by
  rcases after_cleanup host config sessions now e with h | h
  · rw [h]
    exact ⟨rfl, hfresh⟩
  · rw [h]
    refine ⟨unrevoked_remove sessions _ fun s _ hselected hopen => ?_, ⟨fun s hs => ?_, hfresh.once⟩⟩
    · simp [SessionWhere.selects, hopen] at hselected
    · exact hfresh.unused s (Table.mem_remove_iff.1 hs).1

/-- What the next call generates is new, and what comes after it. -/
theorem FreshDraws.of_cons {entry : AuthCall × Surroundings}
    (h : FreshDraws host sessions (entry :: history)) :
    FreshDraws host sessions history ∧ Disjoint entry.2.newIds (newIds history) ∧
      Disjoint (entry.2.newHashes host) (newHashes host history) := by
  obtain ⟨hhead, htail⟩ := List.pairwise_cons.1 h.once
  refine ⟨⟨?_, htail⟩, ?_, ?_⟩
  · refine h.unused.mono ?_ ?_
    · exact newIds_cons entry ▸ Set.subset_union_right
    · exact newHashes_cons entry ▸ Set.subset_union_right
  · exact Set.disjoint_left.2 fun id hid ⟨later, hlater, hid'⟩ =>
      Set.disjoint_left.1 (hhead later hlater).1 hid hid'
  · exact Set.disjoint_left.2 fun hash hhash ⟨later, hlater, hhash'⟩ =>
      Set.disjoint_left.1 (hhead later hlater).2 hhash hhash'

/-- **One call on twin stores**: the same answer, and twin stores again. -/
theorem call_on_twins {entry : AuthCall × Surroundings} (hcall : entry.1.isCleanup = false)
    (hseen : unrevoked sessions = unrevoked sessions')
    (hfresh : FreshDraws host sessions (entry :: history))
    (hfresh' : FreshDraws host sessions' (entry :: history)) :
    (authMachine host config sessions entry).1 = (authMachine host config sessions' entry).1 ∧
      unrevoked (authMachine host config sessions entry).2 =
        unrevoked (authMachine host config sessions' entry).2 ∧
      FreshDraws host (authMachine host config sessions entry).2 history ∧
      FreshDraws host (authMachine host config sessions' entry).2 history := by
  obtain ⟨hrest, hids, hhashes⟩ := hfresh.of_cons
  have hready : Ready host entry.2 (newIds history) (newHashes host history)
      (entry.2.world sessions) (entry.2.world sessions') :=
    ⟨⟨rfl, hseen⟩, ⟨rfl, rfl⟩, by
      rw [← newIds_cons, ← newHashes_cons]
      exact hfresh.unused, by
      rw [← newIds_cons, ← newHashes_cons]
      exact hfresh'.unused⟩
  obtain ⟨hanswer, hafter⟩ := (agree_task config hcall hids hhashes).answers hready
  exact ⟨hanswer, hafter.twins.seen, ⟨hafter.left, hrest.once⟩, hafter.right, hrest.once⟩

/-- **Cleaning up is not observed**: the other calls of a history answer as they do without
the cleanups. -/
theorem cleanup_unobservable (host : SessionHost) (config : AuthConfig)
    (sessions : Table Session.id) (history : List (AuthCall × Surroundings))
    (hfresh : FreshDraws host sessions history) :
    (authMachine host config).shown (fun entry => ! entry.1.isCleanup) sessions history =
      (authMachine host config).observe sessions
        (history.filter fun entry => ! entry.1.isCleanup) := by
  refine Machine.shown_eq_observe_filter
    (R := fun history sessions sessions' => unrevoked sessions = unrevoked sessions' ∧
      FreshDraws host sessions history ∧ FreshDraws host sessions' history)
    (fun sessions sessions' entry history hcleanup h => ?_)
    (fun sessions sessions' entry history hcall h => ?_) ⟨rfl, hfresh, hfresh⟩
  · obtain ⟨hseen, hfresh, hfresh'⟩ := h
    obtain ⟨call, e⟩ := entry
    cases call with
    | cleanupExpiredSessions now =>
      obtain ⟨hsame, hnew⟩ := cleanup_not_seen config now e hfresh.of_cons.1
      exact ⟨hsame.trans hseen, hnew, hfresh'.of_cons.1⟩
    | _ => exact nomatch hcleanup
  · obtain ⟨hseen, hfresh, hfresh'⟩ := h
    exact call_on_twins (by simpa using hcall) hseen hfresh hfresh'

end

/-! ## A sign-in behind a cleanup -/

/-- A host whose hashes begin with their salt, which is one character. -/
def saltedSessionHost : SessionHost where
  uuid? := plainSessionHost.uuid?
  bcryptHash value salt := salt ++ value
  bcryptCompare value hash := hash.toList.drop 1 == value.toList

/-- Calm surroundings with a salt. -/
def salted (id : DbUuid) (c : Char) : Surroundings :=
  { calm id with salts := fun _ => String.ofList [c] }

/-- The key of a third session. -/
def phone : DbUuid :=
  ⟨"00000000-0000-4000-8000-000000000013", by decide +kernel, by decide +kernel⟩

/-- A store with a session that is revoked and has expired. -/
def withOldSession : Table Session.id :=
  (Table.empty Session.id).put
    { hoppersSession with refreshToken := "0old", expiresAt := 0, revokedAt := some 0 }

theorem head_of_salted {id : DbUuid} {c : Char} {h : String}
    (hh : h ∈ (salted id c).newHashes saltedSessionHost) : h.toList.head? = some c := by
  obtain ⟨value, -, rfl⟩ := hh
  show (String.ofList [c] ++ value).toList.head? = some c
  simp

theorem cleanup_unobservable_signIn :
    (authMachine saltedSessionHost weekly).shown (fun entry => ! entry.1.isCleanup) withOldSession
        [(.cleanupExpiredSessions 1, salted tablet '1'), (signIn "j1" "a", salted phone '2')] =
      [.ok (.pair ⟨⟨hopper.text, "hopper@example.com", [], "j1"⟩, hopper.text ++ ".a", 900⟩)] := by
  refine (cleanup_unobservable saltedSessionHost weekly withOldSession _ ⟨?_, ?_⟩).trans ?_
  · intro s hs
    obtain rfl := List.mem_singleton.1 hs
    constructor
    · rintro ⟨entry, hentry, k, hid⟩
      simp only [List.mem_cons, List.not_mem_nil, or_false] at hentry
      rcases hentry with rfl | rfl
      · exact absurd hid (by decide +kernel : tablet ≠ hopper)
      · exact absurd hid (by decide +kernel : phone ≠ hopper)
    · rintro ⟨entry, hentry, hhash⟩
      simp only [List.mem_cons, List.not_mem_nil, or_false] at hentry
      rcases hentry with rfl | rfl
      · exact absurd (head_of_salted hhash) (by simp)
      · exact absurd (head_of_salted hhash) (by simp)
  · refine List.pairwise_pair.2 ⟨Set.disjoint_left.2 ?_, Set.disjoint_left.2 fun h hone htwo => ?_⟩
    · rintro _ ⟨k, rfl⟩ ⟨k', hid⟩
      exact absurd hid (by decide +kernel : phone ≠ tablet)
    · exact absurd ((head_of_salted hone).symm.trans (head_of_salted htwo)) (by simp)
  · decide +kernel

end EnterpriseSystem.Authentication
