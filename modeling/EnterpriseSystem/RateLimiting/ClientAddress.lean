import EnterpriseSystem.RateLimiting.ThrottlerGuard

/-!
# The address a limit is counted under

Requests without a user are counted under the address that `getClientIp` finds,
which is whatever the client has written into `x-forwarded-for`.

* `FromPeer` — the requests of one network peer for one handler.
* `HoldsPeer` — in a window of the handler, the peer gets no more than the limit.
* `holdsPeer_of_address` — it does not, as long as it names one address only.
* `passage_of_new_addresses` — a client that names another address every time is
  never refused.
-/

namespace EnterpriseSystem.RateLimiting

open Reactive FixedWindow

/-- Every request comes from one peer, without a user, for a handler with these limits. -/
def FromPeer (g : ThrottlerGuard) (ip : Option String) (l : Limits) (events : List Event) : Prop :=
  ∀ c now, Event.request c now ∈ events →
    c.request.ip = ip ∧ c.request.userId = none ∧ g.limits c = l

/-- Every request names this address. -/
def NamesOnly (address : String) (events : List Event) : Prop :=
  ∀ c now, Event.request c now ∈ events → getClientIp c.request = some address

namespace ThrottlerGuard

/-- The guard admits a request, under whatever key. -/
def passes (g : ThrottlerGuard) : Event → Bool
  | .request c now => (g.canActivate c now).1.isAdmitted
  | .cleanup _ => false

/-- For each event of a timeline its time, and whether a request is admitted. -/
def passage : ThrottlerGuard → List Event → List (Millis × Bool)
  | _, [] => []
  | g, e :: events => (e.time, g.passes e) :: passage (g.step e).2 events

end ThrottlerGuard

/-- From the opening of a window to its reset time, no more than the limit is admitted. -/
def HoldsPeer (g : ThrottlerGuard) (l : Limits) (events : List Event) : Prop :=
  ∀ pre e post key, events = pre ++ e :: post → (g.after pre).Opens key e →
    admittedUntil ((g.after pre).passage (e :: post)) (e.time + l.windowMs) ≤ l.limit

/-! ## One address -/

section

variable {g : ThrottlerGuard} {ip : Option String} {l : Limits} {address : String}
  {events pre post : List Event}

/-- The key of the peer. -/
theorem FromPeer.key_eq (h : FromPeer g ip l events) (hnames : NamesOnly address events)
    {c : Context} {now : Millis} (hmem : Event.request c now ∈ events) :
    g.key c = some s!"{l.keyPrefix}:ip:{address}" := by
  obtain ⟨-, huser, hlimits⟩ := h c now hmem
  unfold ThrottlerGuard.key
  rw [hnames c now hmem, huser, hlimits]
  rfl

theorem FromPeer.heldTo (h : FromPeer g ip l events) (key : String) :
    g.HeldTo key l.limit l.windowMs events := by
  intro c now hmem _
  rw [(h c now hmem).2.2]
  exact ⟨rfl, rfl⟩

theorem limits_after (g : ThrottlerGuard) (pre : List Event) (c : Context) :
    (g.after pre).limits c = g.limits c := by
  induction pre generalizing g with
  | nil => rfl
  | cons e pre ih => exact (ih (g.step e).2).trans (g.limits_step e c)

theorem FromPeer.after (h : FromPeer g ip l (pre ++ post)) :
    FromPeer (g.after pre) ip l post := by
  intro c now hmem
  rw [limits_after]
  exact h c now (List.mem_append_right _ hmem)

/-- Under one address, every admission is one under the peer's key. -/
theorem passage_eq_course (h : FromPeer g ip l events) (hnames : NamesOnly address events) :
    g.passage events = g.course s!"{l.keyPrefix}:ip:{address}" events := by
  induction events generalizing g with
  | nil => rfl
  | cons e events ih =>
    have hhead : g.passes e = g.admits s!"{l.keyPrefix}:ip:{address}" e := by
      cases e with
      | cleanup now => rfl
      | request c now =>
        show _ = (decide _ && _)
        rw [h.key_eq hnames (List.mem_cons_self ..), decide_eq_true rfl, Bool.true_and]
        rfl
    have hsplit : FromPeer g ip l ([e] ++ events) := h
    have htail : FromPeer (g.step e).2 ip l events := hsplit.after
    show (e.time, g.passes e) :: _ = (e.time, g.admits _ e) :: _
    rw [hhead, ih htail fun c now hmem => hnames c now (List.mem_cons_of_mem _ hmem)]

/-- **The peer gets no more than the limit** as long as it names one address only. -/
theorem holdsPeer_of_address (hlimit : 1 ≤ l.limit) (htimes : Timeline events)
    (h : FromPeer g ip l events) (hnames : NamesOnly address events) : HoldsPeer g l events := by
  intro pre e post key hevents hopens
  subst hevents
  have hsuffix : Timeline (e :: post) := (List.pairwise_append.1 htimes).2.1
  have hnames' : NamesOnly address (e :: post) := fun c now hmem =>
    hnames c now (List.mem_append_right _ hmem)
  -- the window that opens is the one of the peer's key
  obtain rfl : key = s!"{l.keyPrefix}:ip:{address}" := by
    cases e with
    | cleanup now => exact hopens.elim
    | request c now =>
      have hkey := h.after.key_eq hnames' (List.mem_cons_self ..)
      exact Option.some.inj (hopens.1.symm.trans hkey)
  rw [passage_eq_course h.after hnames']
  exact ThrottlerGuard.admittedUntil_of_opens hsuffix hlimit (h.after.heldTo _) hopens

/-- A key that has not been counted opens a window. -/
theorem passes_of_new {c : Context} {now : Millis} {key : String} (hkey : g.key c = some key)
    (hnew : g.store key = none) : g.passes (.request c now) = true := by
  show (g.canActivate c now).1.isAdmitted = true
  unfold ThrottlerGuard.canActivate
  rw [hkey]
  show (g.count (g.limits c) key now).1.isAdmitted = true
  unfold ThrottlerGuard.count
  rw [hnew]
  rfl

/-- **Nothing is refused** to a client that names another address every time,
whatever the limit. -/
theorem passage_of_new_addresses {requests : List (Context × Millis)}
    (hnew : ∀ p ∈ requests, ∃ key, g.key p.1 = some key ∧ g.store key = none)
    (hother : requests.Pairwise fun p q => g.key p.1 ≠ g.key q.1) :
    ∀ p ∈ g.passage (requests.map fun p => .request p.1 p.2), p.2 = true := by
  induction requests generalizing g with
  | nil => exact nofun
  | cons p requests ih =>
    obtain ⟨key, hkey, hnone⟩ := hnew p (List.mem_cons_self ..)
    obtain ⟨hhead, htail⟩ := List.pairwise_cons.1 hother
    intro q hq
    rcases List.mem_cons.1 hq with rfl | hq
    · exact passes_of_new hkey hnone
    · refine ih ?_ ?_ q hq
      · intro p' hp'
        obtain ⟨key', hkey', hnone'⟩ := hnew p' (List.mem_cons_of_mem _ hp')
        have hne : key' ≠ key := by
          rintro rfl
          exact hhead p' hp' (hkey.trans hkey'.symm)
        refine ⟨key', (g.key_step _ p'.1).trans hkey', ?_⟩
        show (g.canActivate p.1 p.2).2.store key' = none
        unfold ThrottlerGuard.canActivate
        rw [hkey]
        exact (ThrottlerGuard.store_count_of_ne hne _).trans hnone'
      · refine htail.imp fun {p q} hne => ?_
        rw [g.key_step, g.key_step]
        exact hne

end

/-! ## Two addresses -/

/-- A request from one peer, which claims to forward it, for a handler with a limit of
one request a minute. -/
def claiming (forwarded : Forwarded) : Context :=
  ⟨some ⟨1, 60, none⟩, ⟨forwarded, some "203.0.113.7", none⟩⟩

/-- What they are held to. -/
def oneAMinute : Limits := ⟨1, 60, "rl"⟩

/-- Two requests, one of which has come through a proxy. -/
def proxied : List Event :=
  [.request (claiming .absent) 0, .request (claiming (.text "203.0.113.7, 10.0.0.1")) 0]

/-- Two requests that claim to be forwarded for two clients. -/
def spoofed : List Event :=
  [.request (claiming (.text "198.51.100.1")) 0, .request (claiming (.text "198.51.100.2")) 0]

theorem fromPeer_claiming {events : List Event}
    (h : ∀ c now, Event.request c now ∈ events → ∃ forwarded, c = claiming forwarded) :
    FromPeer (.new 100 60) (some "203.0.113.7") oneAMinute events := by
  intro c now hmem
  obtain ⟨forwarded, rfl⟩ := h c now hmem
  exact ⟨rfl, rfl, rfl⟩

theorem holdsPeer_proxied : HoldsPeer (.new 100 60) oneAMinute proxied := by
  have htimes : Timeline proxied := by
    show List.Pairwise _ _
    decide +kernel
  have hpeer : FromPeer (.new 100 60) (some "203.0.113.7") oneAMinute proxied := by
    refine fromPeer_claiming fun c now hmem => ?_
    simp only [proxied, List.mem_cons, Event.request.injEq, List.not_mem_nil, or_false] at hmem
    rcases hmem with ⟨rfl, -⟩ | ⟨rfl, -⟩ <;> exact ⟨_, rfl⟩
  have hnames : NamesOnly "203.0.113.7" proxied := by
    intro c now hmem
    simp only [proxied, List.mem_cons, Event.request.injEq, List.not_mem_nil, or_false] at hmem
    rcases hmem with ⟨rfl, -⟩ | ⟨rfl, -⟩
    · rfl
    · decide +kernel
  exact holdsPeer_of_address (by decide) htimes hpeer hnames

/-- The peer names another address, and is admitted again. -/
theorem not_holdsPeer :
    ¬ ∀ (defaultLimit : ℕ) (defaultWindow : ℚ) (ip : Option String) (l : Limits)
        (events : List Event), 1 ≤ l.limit → Timeline events →
        FromPeer (.new defaultLimit defaultWindow) ip l events →
          HoldsPeer (.new defaultLimit defaultWindow) l events := by
  intro h
  have htimes : Timeline spoofed := by
    show List.Pairwise _ _
    decide +kernel
  have hpeer : FromPeer (.new 100 60) (some "203.0.113.7") oneAMinute spoofed := by
    refine fromPeer_claiming fun c now hmem => ?_
    simp only [spoofed, List.mem_cons, Event.request.injEq, List.not_mem_nil, or_false] at hmem
    rcases hmem with ⟨rfl, -⟩ | ⟨rfl, -⟩ <;> exact ⟨_, rfl⟩
  have hheld := h 100 60 _ oneAMinute spoofed (by decide) htimes hpeer [] _ _
    "rl:ip:198.51.100.1" rfl ⟨by decide +kernel, nofun⟩
  exact absurd hheld (by decide +kernel)

end EnterpriseSystem.RateLimiting
