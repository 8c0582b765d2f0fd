import EnterpriseSystem.Resilience.MonitoringWindow

/-!
# Half-open circuits of the HTTP client

How many requests are sent on a client from when its circuit becomes half-open
until it leaves that state.

* `HalfOpenPeriod` — what has been sent since then, what of it has no response
  yet, and how many errors no counter of the circuit has seen.
* `periodOf` — the period in which a run has ended.
* `Limited` — a request is sent on a half-open circuit only while the successes
  counted, the requests in flight and the errors not counted leave room for it.
* `sent_le_of_limited` — then no more than `halfOpenMaxAttempts` are sent.
* `limited_of_sequential` — as it is for a client that is used by one call at a
  time, whose option is at least the default.
-/

namespace EnterpriseSystem.Resilience

open Relational HttpClientService Calendar

/-! ## What is sent -/

/-- The request is in a response. -/
def RequestPhase.isAwaiting : RequestPhase → Bool
  | awaiting _ => true
  | _ => false

/-- The successes counted since the circuit became half-open, while it is. -/
def HttpClientService.probes (s : HttpClientService) (name : String) : ℕ :=
  match s.circuits name with
  | some circuit => if circuit.state = .halfOpen then circuit.successes else 0
  | none => 0

/-- What has happened on a client since its circuit became half-open. -/
structure HalfOpenPeriod (ι : Type) where
  sent : ℕ
  /-- Of these, the requests without a response. -/
  unanswered : List ι
  /-- Errors that the circuit does not record. -/
  refused : ℕ

namespace HalfOpenPeriod

variable {ι : Type} [DecidableEq ι]

/-- Nothing has happened. -/
def empty : HalfOpenPeriod ι := { sent := 0, unanswered := [], refused := 0 }

/-- An attempt of a request is sent. -/
def send (period : HalfOpenPeriod ι) (i : ι) : HalfOpenPeriod ι :=
  { period with sent := period.sent + 1, unanswered := i :: period.unanswered }

/-- The response to a request arrives. -/
def answer (period : HalfOpenPeriod ι) (i : ι) (response : Except AxiosError Unit) :
    HalfOpenPeriod ι :=
  { period with
    unanswered := period.unanswered.erase i
    refused := match response with
      | .ok () => period.refused
      | .error error => if isRetryableError error then period.refused else period.refused + 1 }

end HalfOpenPeriod

section

variable {ι : Type} [DecidableEq ι]

/-- The request that sends an attempt in this step. -/
def sender (p : Requests ι × RequestLabel ι × Requests ι) : Option ι :=
  match p.2.1 with
  | .start i _ => if (p.2.2.phase i).isAwaiting then some i else none
  | .wake i _ => some i
  | _ => none

/-- The period after another step. -/
def HalfOpenPeriod.next (calls : ι → HttpRequest) (name : String) (period : HalfOpenPeriod ι)
    (p : Requests ι × RequestLabel ι × Requests ι) : HalfOpenPeriod ι :=
  if p.2.2.service.InState name .halfOpen then
    match sender p with
    | some i => if (calls i).clientName = name then period.send i else period
    | none =>
      match p.2.1 with
      | .respond i response _ _ =>
        if (calls i).clientName = name then period.answer i response else period
      | _ => period
  else .empty

/-- The half-open period of a client's circuit that some steps lead into. -/
def periodOf (calls : ι → HttpRequest) (name : String)
    (steps : List (Requests ι × RequestLabel ι × Requests ι)) : HalfOpenPeriod ι :=
  steps.foldl (HalfOpenPeriod.next calls name) .empty

/-- A request is sent on a half-open circuit only while there is room for it. -/
def Limited (calls : ι → HttpRequest) (name : String)
    (steps : List (Requests ι × RequestLabel ι × Requests ι)) : Prop :=
  ∀ pre p post i h, steps = pre ++ p :: post → Sends i p → (calls i).clientName = name →
    p.2.2.service.InState name .halfOpen →
    (p.1.service.overrides name).halfOpenMaxAttempts = some h →
    ((p.1.service.probes name + (periodOf calls name pre).unanswered.length +
      (periodOf calls name pre).refused + 1 : ℕ) : ℚ) ≤ h

variable {calls : ι → HttpRequest} {name : String} {σ σ' : Requests ι} {l : RequestLabel ι}
  {steps : List (Requests ι × RequestLabel ι × Requests ι)}

theorem phase_start_of_ne {i j : ι} {now : Millis} (h : i ≠ j) :
    (σ.start calls j now).phase i = σ.phase i := by
  unfold Requests.start
  cases σ.service.checkCircuit (calls j).clientName now with
  | error e => exact Function.update_of_ne h ..
  | ok service => exact Function.update_of_ne h ..

/-- It is the request that sends. -/
theorem sends_iff (hs : RequestStep calls σ l σ') (i : ι) :
    Sends i (σ, l, σ') ↔ sender (σ, l, σ') = some i := by
  cases hs with
  | getClient => exact iff_of_false (not_sends_of_phase rfl) nofun
  | @start j now _ hphase =>
    have hsender : sender (σ, .start j now, σ.start calls j now) =
        if ((σ.start calls j now).phase j).isAwaiting then some j else none := rfl
    rw [hsender]
    by_cases hi : i = j
    · subst hi
      have hbefore : ∀ attempt, σ.phase i ≠ .awaiting attempt := fun k hk =>
        nomatch hphase.symm.trans hk
      cases hafter : (σ.start calls i now).phase i with
      | awaiting attempt => exact iff_of_true ⟨hbefore, attempt, hafter⟩ rfl
      | notStarted => exact iff_of_false (fun h => nomatch hafter.symm.trans h.2.choose_spec) nofun
      | sleeping k wakeAt =>
        exact iff_of_false (fun h => nomatch hafter.symm.trans h.2.choose_spec) nofun
      | finished result =>
        exact iff_of_false (fun h => nomatch hafter.symm.trans h.2.choose_spec) nofun
    · refine iff_of_false (not_sends_of_phase (phase_start_of_ne hi)) ?_
      split_ifs
      · simpa using Ne.symm hi
      · exact nofun
  | respond _ _ _ hphase => exact iff_of_false (not_sends_respond hphase) nofun
  | @wake j attempt wakeAt now _ _ hphase =>
    by_cases hi : i = j
    · subst hi
      refine iff_of_true ⟨fun k hk => ?_, attempt + 1, Function.update_self ..⟩ rfl
      exact nomatch hphase.symm.trans hk
    · refine iff_of_false (not_sends_of_phase (Function.update_of_ne hi ..)) ?_
      show ¬ some j = some i
      simpa using Ne.symm hi

/-! ## The counter -/

namespace HttpClientService

variable {s s' : HttpClientService} {name' : String} {now : Millis}

theorem probes_congr (h : s'.circuits name = s.circuits name) : s'.probes name = s.probes name := by
  unfold probes
  rw [h]

/-- A check begins to count from zero. -/
theorem probes_checkCircuit (h : s.checkCircuit name' now = .ok s') :
    s'.probes name = s.probes name ∧ s'.clients = s.clients := by
  unfold checkCircuit at h
  cases hcircuit : s.circuits name' with
  | none =>
    rw [hcircuit] at h
    obtain rfl : s = s' := Except.ok.inj h
    exact ⟨rfl, rfl⟩
  | some circuit =>
    rw [hcircuit] at h
    dsimp only at h
    cases hstate : circuit.state with
    | closed =>
      rw [hstate] at h
      obtain rfl : s = s' := Except.ok.inj h
      exact ⟨rfl, rfl⟩
    | halfOpen =>
      rw [hstate] at h
      obtain rfl : s = s' := Except.ok.inj h
      exact ⟨rfl, rfl⟩
    | opened =>
      rw [hstate] at h
      dsimp only at h
      split_ifs at h
      obtain rfl := Except.ok.inj h
      refine ⟨?_, rfl⟩
      by_cases hname : name = name'
      · subst hname
        unfold probes
        rw [setCircuit_self, hcircuit]
        simp [hstate]
      · exact probes_congr (circuits_setCircuit_of_ne hname _)

/-- A circuit that is half-open was there before. -/
theorem circuits_getClient {overrides : CircuitOverrides}
    (h : (s.getClient name' overrides).InState name .halfOpen) :
    (s.getClient name' overrides).circuits name = s.circuits name ∧
      (s.getClient name' overrides).clients name = s.clients name := by
  unfold getClient at h ⊢
  cases hclient : s.clients name' with
  | some _ => exact ⟨rfl, rfl⟩
  | none =>
    rw [hclient] at h
    by_cases hname : name = name'
    · subst hname
      obtain ⟨circuit, hcircuit, hstate⟩ := h
      obtain rfl := Option.some.inj ((setCircuit_self ..).symm.trans hcircuit)
      exact nomatch hstate
    · exact ⟨circuits_setCircuit_of_ne hname _, Function.update_of_ne hname ..⟩

theorem probes_of_not_halfOpen (h : ¬ s.InState name .halfOpen) : s.probes name = 0 := by
  unfold probes
  cases hcircuit : s.circuits name with
  | none => rfl
  | some circuit => exact if_neg fun hstate => h ⟨circuit, hcircuit, hstate⟩

/-- A success is counted in a circuit that stays half-open, short of the default. -/
theorem probes_recordSuccess (h : (s.recordSuccess name now).InState name .halfOpen) :
    (s.recordSuccess name now).probes name = s.probes name + 1 ∧
      ((s.recordSuccess name now).probes name : ℚ) < httpCircuitOptions.halfOpenMaxAttempts := by
  obtain ⟨after, hafter, hstate⟩ := h
  have hcircuits := circuits_record_success s name name now
  rw [if_pos rfl] at hcircuits
  obtain ⟨before, hbefore, rfl⟩ := Option.map_eq_some_iff.1 (hcircuits.symm.trans hafter)
  have hcounted : before.state = .halfOpen ∧
      (succeeded before now).successes = before.successes + 1 ∧
      ((succeeded before now).successes : ℚ) < httpCircuitOptions.halfOpenMaxAttempts := by
    unfold succeeded at hstate ⊢
    dsimp only at hstate ⊢
    split_ifs at hstate ⊢ <;> simp_all
  unfold probes
  rw [hafter, hbefore]
  dsimp only
  rw [if_pos hstate, if_pos hcounted.1]
  exact hcounted.2

/-- A failure leaves no circuit half-open. -/
theorem not_halfOpen_recordFailure (s : HttpClientService) (name : String)
    (overrides : CircuitOverrides) (now : Millis) :
    ¬ (s.recordFailure name overrides now).InState name .halfOpen := by
  rintro ⟨after, hafter, hstate⟩
  unfold recordFailure at hafter
  cases hcircuit : s.circuits name with
  | none =>
    rw [hcircuit] at hafter
    exact nomatch hcircuit.symm.trans hafter
  | some circuit =>
    rw [hcircuit] at hafter
    obtain rfl := Option.some.inj ((setCircuit_self ..).symm.trans hafter)
    unfold failed at hstate
    dsimp only at hstate
    split_ifs at hstate with hhalf
    exact hhalf hstate

end HttpClientService

/-! ## One step -/

/-- A request that starts begins to count from zero. -/
theorem start_halfOpen {i : ι} {now : Millis}
    (hhalf : (σ.start calls i now).service.InState name .halfOpen) :
    (σ.start calls i now).service.probes name = σ.service.probes name ∧
      (σ.start calls i now).service.clients name = σ.service.clients name := by
  unfold Requests.start at hhalf ⊢
  cases hcheck : σ.service.checkCircuit (calls i).clientName now with
  | error e => exact ⟨rfl, rfl⟩
  | ok service =>
    rw [hcheck] at hhalf
    obtain ⟨hcircuit, hclient⟩ := circuits_getClient hhalf
    obtain ⟨hprobes, hclients⟩ : service.probes name = σ.service.probes name ∧
        service.clients = σ.service.clients := probes_checkCircuit hcheck
    refine ⟨(probes_congr hcircuit).trans hprobes, hclient.trans ?_⟩
    rw [hclients]

/-- A response in a circuit that stays half-open is a success that is counted, or is
not recorded. -/
theorem respond_halfOpen {i : ι} {attempt : ℕ} {response : Except AxiosError Unit} {now : Millis}
    {random : ℚ} {σ' : Requests ι} (hafter : σ.respond calls i attempt response now random = σ')
    (hhalf : σ'.service.InState name .halfOpen) :
    σ'.service.clients = σ.service.clients ∧
      (σ'.service.probes name = σ.service.probes name ∧
          ((calls i).clientName = name → ∃ e, response = .error e ∧ ¬ isRetryableError e) ∨
        (calls i).clientName = name ∧ σ'.service.probes name = σ.service.probes name + 1 ∧
          (σ'.service.probes name : ℚ) < httpCircuitOptions.halfOpenMaxAttempts) := by
  cases response with
  | ok _ =>
    have hservice : σ'.service = σ.service.recordSuccess (calls i).clientName now := by
      rw [← hafter]
      rfl
    rw [hservice] at hhalf ⊢
    constructor
    · unfold recordSuccess
      cases σ.service.circuits (calls i).clientName <;> rfl
    · by_cases hname : (calls i).clientName = name
      · subst hname
        exact .inr ⟨rfl, probes_recordSuccess hhalf⟩
      · refine .inl ⟨probes_congr ?_, fun h => absurd h hname⟩
        exact (circuits_record_success σ.service name _ now).trans (if_neg (Ne.symm hname))
  | error error =>
    by_cases hretryable : isRetryableError error
    · have hservice : σ'.service = σ.service.recordFailure (calls i).clientName
          (σ.service.overrides (calls i).clientName) now := by
        rw [← hafter]
        unfold Requests.respond
        dsimp only
        rw [if_pos hretryable]
        rfl
      rw [hservice] at hhalf ⊢
      constructor
      · unfold recordFailure
        cases σ.service.circuits (calls i).clientName <;> rfl
      · by_cases hname : (calls i).clientName = name
        · subst hname
          exact absurd hhalf (not_halfOpen_recordFailure _ _ _ _)
        · refine .inl ⟨probes_congr ?_, fun h => absurd h hname⟩
          exact (circuits_record_failure σ.service name _ now).trans (if_neg (Ne.symm hname))
    · have hservice : σ'.service = σ.service := by
        rw [← hafter]
        unfold Requests.respond
        dsimp only
        rw [if_neg hretryable]
      rw [hservice]
      exact ⟨rfl, .inl ⟨rfl, fun _ => ⟨error, rfl, hretryable⟩⟩⟩

/-! ## Periods -/

/-- What has been sent is counted, in flight or refused, and no more than the option allows. -/
structure Accounted (name : String) (period : HalfOpenPeriod ι) (σ : Requests ι) : Prop where
  counted : period.sent ≤ σ.service.probes name + period.unanswered.length + period.refused
  bounded : ∀ h, (σ.service.overrides name).halfOpenMaxAttempts = some h →
    (period.sent : ℚ) ≤ max h 0

namespace Accounted

variable {period : HalfOpenPeriod ι} {i : ι}

omit [DecidableEq ι] in
theorem empty (name : String) (σ : Requests ι) : Accounted name .empty σ :=
  ⟨Nat.zero_le _, fun _ _ => le_max_right _ _⟩

omit [DecidableEq ι] in
theorem keep (h : Accounted name period σ)
    (hprobes : σ'.service.probes name = σ.service.probes name)
    (hclient : σ'.service.clients name = σ.service.clients name) : Accounted name period σ' := by
  refine ⟨?_, fun limit hlimit => h.bounded limit ?_⟩
  · rw [hprobes]
    exact h.counted
  · unfold HttpClientService.overrides at hlimit ⊢
    rw [← hclient]
    exact hlimit

omit [DecidableEq ι] in
/-- A request that there is room for is sent. -/
theorem send (h : Accounted name period σ) (i : ι)
    (hroom : ∀ limit, (σ.service.overrides name).halfOpenMaxAttempts = some limit →
      ((σ.service.probes name + period.unanswered.length + period.refused + 1 : ℕ) : ℚ) ≤ limit) :
    Accounted name (period.send i) σ := by
  have hcounted : (period.send i).sent ≤
      σ.service.probes name + period.unanswered.length + period.refused + 1 :=
    Nat.succ_le_succ h.counted
  refine ⟨?_, fun limit hlimit => le_max_of_le_left ?_⟩
  · refine hcounted.trans_eq ?_
    simp only [HalfOpenPeriod.send, List.length_cons]
    omega
  · exact le_trans (by exact_mod_cast hcounted) (hroom limit hlimit)

/-- A response is counted by the circuit, or as refused. -/
theorem answer (h : Accounted name period σ) {response : Except AxiosError Unit}
    (hclient : σ'.service.clients name = σ.service.clients name)
    (hseen : σ.service.probes name + period.refused + 1 ≤
      σ'.service.probes name + (period.answer i response).refused) :
    Accounted name (period.answer i response) σ' := by
  refine ⟨?_, fun limit hlimit => h.bounded limit ?_⟩
  · have hcounted := h.counted
    have hlength : period.unanswered.length ≤ (period.unanswered.erase i).length + 1 := by
      rw [List.length_erase]
      split_ifs <;> omega
    show period.sent ≤ σ'.service.probes name + (period.unanswered.erase i).length +
      (period.answer i response).refused
    omega
  · unfold HttpClientService.overrides at hlimit ⊢
    rw [← hclient]
    exact hlimit

/-- **A response** in a circuit that stays half-open. -/
theorem respond (h : Accounted name period σ) {attempt : ℕ} {response : Except AxiosError Unit}
    {now : Millis} {random : ℚ}
    (hhalf : (σ.respond calls i attempt response now random).service.InState name .halfOpen) :
    Accounted name (if (calls i).clientName = name then period.answer i response else period)
      (σ.respond calls i attempt response now random) := by
  obtain ⟨hclients, hcases⟩ := respond_halfOpen rfl hhalf
  split_ifs with hname
  · refine h.answer (by rw [hclients]) ?_
    rcases hcases with ⟨hsame, hrefused⟩ | ⟨-, hcounted, -⟩
    · obtain ⟨e, rfl, hnot⟩ := hrefused hname
      rw [hsame]
      unfold HalfOpenPeriod.answer
      dsimp only
      rw [if_neg hnot]
      exact le_of_eq (by omega)
    · rw [hcounted]
      have hmore : period.refused ≤ (period.answer i response).refused := by
        unfold HalfOpenPeriod.answer
        dsimp only
        split
        · exact le_rfl
        · split_ifs <;> omega
      omega
  · rcases hcases with ⟨hsame, -⟩ | ⟨habsurd, -⟩
    · exact h.keep hsame (by rw [hclients])
    · exact absurd habsurd hname

/-- **One step**, when there is room for what it sends. -/
theorem step (h : Accounted name period σ) (hs : RequestStep calls σ l σ')
    (hroom : ∀ i limit, Sends i (σ, l, σ') → (calls i).clientName = name →
      σ'.service.InState name .halfOpen →
      (σ.service.overrides name).halfOpenMaxAttempts = some limit →
      ((σ.service.probes name + period.unanswered.length + period.refused + 1 : ℕ) : ℚ) ≤ limit) :
    Accounted name (period.next calls name (σ, l, σ')) σ' := by
  unfold HalfOpenPeriod.next
  split_ifs with hhalf
  case neg => exact empty name σ'
  have hsent : ∀ i, sender (σ, l, σ') = some i →
      Accounted name (if (calls i).clientName = name then period.send i else period) σ := by
    intro i hsender
    split_ifs with hname
    · exact h.send i fun limit => hroom i limit ((sends_iff hs i).2 hsender) hname hhalf
    · exact h
  cases hs with
  | getClient =>
    obtain ⟨hcircuit, hclient⟩ := circuits_getClient hhalf
    exact h.keep (probes_congr hcircuit) hclient
  | @start i now _ _ =>
    obtain ⟨hprobes, hclient⟩ := start_halfOpen hhalf
    cases hsender : sender (σ, .start i now, σ.start calls i now) with
    | none => exact h.keep hprobes hclient
    | some j => exact (hsent j hsender).keep hprobes hclient
  | respond _ _ _ _ => exact h.respond hhalf
  | @wake i _ _ _ _ _ _ => exact (hsent i rfl).keep rfl rfl

end Accounted

theorem periodOf_concat (p : Requests ι × RequestLabel ι × Requests ι) :
    periodOf calls name (steps ++ [p]) = (periodOf calls name steps).next calls name p := by
  unfold periodOf
  rw [List.foldl_concat]

theorem accounted_of_limited {now : Millis}
    (hrun : Run (RequestStep calls) Always (.new ι now) steps σ)
    (hlimited : Limited calls name steps) : Accounted name (periodOf calls name steps) σ := by
  induction hrun with
  | start => exact .empty name _
  | @next steps σ₁ σ₂ l _ _ hs ih =>
    have hbefore : Limited calls name steps := by
      intro pre p post i limit hsteps
      refine hlimited pre p (post ++ [(σ₁, l, σ₂)]) i limit ?_
      rw [hsteps, List.append_assoc]
      rfl
    rw [periodOf_concat]
    refine (ih hbefore).step hs fun i limit => ?_
    exact hlimited steps (σ₁, l, σ₂) [] i limit rfl

/-- A half-open circuit has counted fewer successes than close it. -/
theorem probes_lt {now : Millis} (hreach : Reach (RequestStep calls) Always (.new ι now) σ)
    (name : String) : ((σ.service.probes name + 1 : ℕ) : ℚ) ≤ httpCircuitOptions.halfOpenMaxAttempts := by
  have hone : ((0 + 1 : ℕ) : ℚ) ≤ httpCircuitOptions.halfOpenMaxAttempts := by decide +kernel
  induction hreach with
  | start => exact hone
  | @next σ σ' l _ _ hs hbefore =>
    by_cases hhalf : σ'.service.InState name .halfOpen
    case neg =>
      rw [probes_of_not_halfOpen hhalf]
      exact hone
    have hkeep : σ'.service.probes name = σ.service.probes name →
        ((σ'.service.probes name + 1 : ℕ) : ℚ) ≤ httpCircuitOptions.halfOpenMaxAttempts := by
      intro hsame
      rw [hsame]
      exact hbefore
    cases hs with
    | getClient => exact hkeep (probes_congr (circuits_getClient hhalf).1)
    | start _ _ => exact hkeep (start_halfOpen hhalf).1
    | respond _ _ _ _ =>
      rcases (respond_halfOpen rfl hhalf).2 with ⟨hsame, -⟩ | ⟨-, -, hlt⟩
      · exact hkeep hsame
      · have hthree : httpCircuitOptions.halfOpenMaxAttempts = ((3 : ℕ) : ℚ) := by decide +kernel
        rw [hthree] at hlt ⊢
        exact_mod_cast hlt
    | wake _ _ _ => exact hkeep rfl

/-- A request is sent on a half-open circuit only when every one sent before it in
the period has been answered, and counted. -/
def Sequential (calls : ι → HttpRequest) (name : String)
    (steps : List (Requests ι × RequestLabel ι × Requests ι)) : Prop :=
  ∀ pre p post i, steps = pre ++ p :: post → Sends i p → (calls i).clientName = name →
    p.2.2.service.InState name .halfOpen →
    (periodOf calls name pre).unanswered = [] ∧ (periodOf calls name pre).refused = 0

/-- **One call at a time** stays within any option that is at least the default. -/
theorem limited_of_sequential {now : Millis}
    (hrun : Run (RequestStep calls) Always (.new ι now) steps σ)
    (hoption : ∀ p ∈ steps, ∀ h, (p.1.service.overrides name).halfOpenMaxAttempts = some h →
      httpCircuitOptions.halfOpenMaxAttempts ≤ h)
    (hsequential : Sequential calls name steps) : Limited calls name steps := by
  intro pre p post i h hsteps hsends hname hhalf hlimit
  obtain ⟨hanswered, hcounted⟩ := hsequential pre p post i hsteps hsends hname hhalf
  have hmem : p ∈ steps := by
    rw [hsteps]
    exact List.mem_append_right _ (List.mem_cons_self ..)
  have hreach : Reach (RequestStep calls) Always (.new ι now) p.1 := by
    rw [hsteps] at hrun
    obtain ⟨s, hpre, hrest⟩ := hrun.of_append
    rw [← hrest.of_cons.1]
    exact hpre.reach
  rw [hanswered, hcounted]
  exact (probes_lt hreach name).trans (hoption p hmem h hlimit)

end

/-! ## A burst -/

/-- Calls of one attempt each. -/
def once : ℕ → HttpRequest := fun _ => { clientName := "api", maxRetries := 1, retryDelay := 1000 }

namespace Outage

/-- One failure opens the circuit, and one attempt is to test the recovery. -/
def cautious : CircuitOverrides := { failureThreshold := some 1, halfOpenMaxAttempts := some 1 }

def created : Requests ℕ :=
  { Requests.new ℕ 0 with service := HttpClientService.new.getClient "api" cautious }

def sent : Requests ℕ := created.start once 0 0

/-- The outage. -/
def failed : Requests ℕ := sent.respond once 0 1 (.error ⟨some 503, none, ""⟩) 0 0

/-- The timeout has passed, and a request is sent. -/
def probing : Requests ℕ := failed.start once 1 30000

/-- Another one is sent. -/
def burst : Requests ℕ := probing.start once 2 30000

/-- The history up to the first probe. -/
def steps : List (Requests ℕ × RequestLabel ℕ × Requests ℕ) :=
  [(.new ℕ 0, .getClient "api" cautious, created), (created, .start 0 0, sent),
    (sent, .respond 0 (.error ⟨some 503, none, ""⟩) 0 0, failed), (failed, .start 1 30000, probing)]

theorem run_steps : Run (RequestStep once) Always (.new ℕ 0) steps probing :=
  .next (.next (.next (.next .start trivial .getClient) trivial (.start le_rfl rfl)) trivial
    (.respond le_rfl le_rfl one_pos rfl)) trivial (.start (by decide +kernel) rfl)

theorem run_burst : Run (RequestStep once) Always (.new ℕ 0)
    (steps ++ [(probing, .start 2 30000, burst)]) burst :=
  .next run_steps trivial (.start (by decide +kernel) (phase_start_of_ne (by decide)))

end Outage

end EnterpriseSystem.Resilience
