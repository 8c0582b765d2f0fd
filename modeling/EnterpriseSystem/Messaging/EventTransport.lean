import EnterpriseSystem.Base.Calendar
import EnterpriseSystem.Base.Json
import EnterpriseSystem.Identity.Values

/-!
# Events on the queue

The events of `src/domain/domain-events`, and `publish` of
`src/infrastructure/messaging/event-publisher.impl.ts`.

* `toPrimitives`, `UserCreatedEvent.fromPrimitives`,
  `UserStatusChangedEvent.fromPrimitives` — the encoder and the decoders; the
  constructor that the decoders call generates an identifier.
* `publish` — the jobs of a batch of events; a job has its data as a text.
* `decode_job` — what is decoded is the event under the identifier just generated.
* `eventsSurvive_iff` — so an event survives its transport when that identifier
  happens to be its own.
-/

namespace EnterpriseSystem.Messaging

open JsonText Calendar Identity

/-! ## Events -/

/-- An object of `UserCreatedEvent` or of `UserStatusChangedEvent`. -/
structure EventObject where
  eventId : UniqueId
  aggregateId : String
  occurredAt : Date
  happening : Happening
  deriving DecidableEq

/-- The constructors; `generated` is `UniqueId.create()`. -/
def EventObject.construct (generated : UniqueId) (aggregateId : String) (happening : Happening)
    (occurredAt : Date) : EventObject where
  eventId := generated
  aggregateId := aggregateId
  occurredAt := occurredAt
  happening := happening

namespace EventObject

/-- `eventName`, which the constructors set. -/
def eventName (e : EventObject) : String :=
  match e.happening with
  | .userCreated _ => "UserCreated"
  | .userStatusChanged _ _ => "UserStatusChanged"

/-- `super.toPrimitives()`; `toISOString` throws when the date is invalid. -/
def basePrimitives (e : EventObject) : Option (List (String × Json)) := do
  let occurredAt ← toISOString e.occurredAt
  return [("eventId", .string e.eventId.value), ("aggregateId", .string e.aggregateId),
    ("occurredAt", .string occurredAt), ("eventName", .string e.eventName)]

/-- `toPrimitives`. -/
def toPrimitives (e : EventObject) : Option (List (String × Json)) := do
  let base ← e.basePrimitives
  match e.happening with
  | .userCreated email => return base ++ [("email", .string email)]
  | .userStatusChanged oldStatus newStatus =>
    return base ++ [("oldStatus", .string oldStatus.label), ("newStatus", .string newStatus.label)]

end EventObject

/-- The status that has a label. -/
def statusOfLabel (label : String) : Option UserStatus :=
  [UserStatus.active, .inactive, .suspended, .pendingVerification].find? (·.label == label)

/-- `data.key as string`. -/
def stringMember (key : String) (data : Json) : Option String := (data.member key).bind Json.text

/-- `UserCreatedEvent.fromPrimitives`, of data whose members have the types that the
code takes them to have. -/
def UserCreatedEvent.fromPrimitives (generated : UniqueId) (data : Json) : Option EventObject := do
  let aggregateId ← stringMember "aggregateId" data
  let email ← stringMember "email" data
  let occurredAt ← stringMember "occurredAt" data >>= parseISOString
  return .construct generated aggregateId (.userCreated email) occurredAt

/-- `UserStatusChangedEvent.fromPrimitives`, likewise. -/
def UserStatusChangedEvent.fromPrimitives (generated : UniqueId) (data : Json) :
    Option EventObject := do
  let aggregateId ← stringMember "aggregateId" data
  let oldStatus ← stringMember "oldStatus" data >>= statusOfLabel
  let newStatus ← stringMember "newStatus" data >>= statusOfLabel
  let occurredAt ← stringMember "occurredAt" data >>= parseISOString
  return .construct generated aggregateId (.userStatusChanged oldStatus newStatus) occurredAt

/-! ## The queue -/

/-- A time that `new Date()` gives. -/
structure Instant where
  time : ℤ
  valid : |(time : Millis)| ≤ maxDate

/-- A job on the queue, with the JSON text of its data. -/
structure Job where
  name : String
  data : String
  jobId : String
  deriving DecidableEq

namespace EventPublisherImpl

/-- `serialize`. -/
def serialize (e : EventObject) (now : Instant) : Option Json := do
  let primitives ← e.toPrimitives
  let publishedAt ← toISOString now.time
  return .object (primitives ++ [("_publishedAt", .string publishedAt)])

/-- The job of an event. -/
def job (now : Instant) (e : EventObject) : Option Job := do
  let data ← serialize e now
  return { name := e.eventName, data := String.ofList (write 0 data), jobId := e.eventId.value }

/-- The jobs that `publish` gives to `queue.addBulk`.  What is thrown before that is
logged. -/
def publish (now : Instant) (events : List EventObject) : List Job :=
  (events.mapM (job now)).getD []

end EventPublisherImpl

open EventPublisherImpl

/-- A job is added unless there is one of its identifier. -/
def addJob (queue : List Job) (j : Job) : List Job :=
  if queue.any (·.jobId == j.jobId) then queue else queue ++ [j]

/-- `queue.addBulk(jobs)`. -/
def addBulk (queue : List Job) (jobs : List Job) : List Job := jobs.foldl addJob queue

/-- `fromPrimitives(JSON.parse(data))` of the class that the job is named after. -/
def Job.decode (j : Job) (generated : UniqueId) : Option EventObject := do
  let data ← parse j.data
  match j.name with
  | "UserCreated" => UserCreatedEvent.fromPrimitives generated data
  | "UserStatusChanged" => UserStatusChangedEvent.fromPrimitives generated data
  | _ => none

/-! ## Surviving the transport -/

/-- The job is decoded to the event, and publishing what was decoded gives a job of
the same identifier, so that a queue which has the one does not take the other. -/
def Survives (e : EventObject) (j : Job) (generated : UniqueId) (later : Instant) : Prop :=
  ∃ e', j.decode generated = some e' ∧ e' = e ∧
    (publish later [e']).map Job.jobId = [j.jobId] ∧
    ∀ queue, j ∈ queue → addBulk queue (publish later [e']) = queue

/-- The events of a batch survive: whatever is put on the queue for one of them. -/
def EventsSurvive (now : Instant) (events : List EventObject) (generated : ℕ → UniqueId)
    (later : Instant) : Prop :=
  ∀ i e j, events[i]? = some e → (publish now events)[i]? = some j →
    Survives e j (generated i) later

/-- The date of an event that has no text. -/
def EventObject.Undated (e : EventObject) : Prop := maxDate < |(e.occurredAt : Millis)|

section

variable {e : EventObject} {now later : Instant} {generated : UniqueId} {j : Job}

theorem statusOfLabel_label (status : UserStatus) : statusOfLabel status.label = some status := by
  cases status <;> decide +kernel

/-- The time of publishing has a text. -/
theorem Instant.exists_text (now : Instant) : ∃ text, toISOString now.time = some text := by
  refine Option.ne_none_iff_exists'.1 fun hnone => ?_
  exact absurd (toISOString_eq_none.1 hnone) (not_lt.2 now.valid)

/-- An event has a job unless its date has no text. -/
theorem job_eq_none : job now e = none ↔ e.Undated := by
  obtain ⟨published, hpublished⟩ := now.exists_text
  rw [EventObject.Undated, ← toISOString_eq_none]
  cases htext : toISOString e.occurredAt with
  | none => simp [job, serialize, EventObject.toPrimitives, EventObject.basePrimitives, htext]
  | some text =>
    cases hhappening : e.happening <;>
      simp [job, serialize, EventObject.toPrimitives, EventObject.basePrimitives, htext,
        hpublished, hhappening]

/-- The identifier of a job is the one of its event. -/
theorem jobId_job (h : job now e = some j) : j.jobId = e.eventId.value := by
  obtain ⟨data, -, hj⟩ := Option.bind_eq_some_iff.1 h
  obtain rfl := Option.some.inj hj
  rfl

/-- **What is decoded** is the event under the identifier that is generated. -/
theorem decode_job (h : job now e = some j) :
    j.decode generated = some { e with eventId := generated } := by
  obtain ⟨data, hdata, hj⟩ := Option.bind_eq_some_iff.1 h
  obtain rfl := Option.some.inj hj
  obtain ⟨primitives, hprimitives, hdata⟩ := Option.bind_eq_some_iff.1 hdata
  obtain ⟨published, -, hdata⟩ := Option.bind_eq_some_iff.1 hdata
  obtain rfl := Option.some.inj hdata
  obtain ⟨base, hbase, hprimitives⟩ := Option.bind_eq_some_iff.1 hprimitives
  obtain ⟨text, htext, hbase⟩ := Option.bind_eq_some_iff.1 hbase
  obtain rfl := Option.some.inj hbase
  have hdate := parseISOString_toISOString htext
  obtain ⟨eventId, aggregateId, occurredAt, happening⟩ := e
  cases happening with
  | userCreated email =>
    obtain rfl := Option.some.inj hprimitives
    simp [Job.decode, parse_write, EventObject.eventName, UserCreatedEvent.fromPrimitives,
      stringMember, Json.member, Json.text, List.lookup, hdate, EventObject.construct]
  | userStatusChanged oldStatus newStatus =>
    obtain rfl := Option.some.inj hprimitives
    simp [Job.decode, parse_write, EventObject.eventName, UserStatusChangedEvent.fromPrimitives,
      stringMember, Json.member, Json.text, List.lookup, hdate, statusOfLabel_label,
      EventObject.construct]

/-- A list is gone through when every element has a value. -/
theorem mapM_eq_some_iff {α β : Type} {f : α → Option β} {l : List α} {values : List β} :
    l.mapM f = some values ↔ l.map f = values.map some := by
  induction l generalizing values with
  | nil => cases values <;> simp
  | cons a l ih =>
    rw [List.mapM_cons, List.map_cons]
    constructor
    · intro h
      obtain ⟨value, ha, h⟩ := Option.bind_eq_some_iff.1 h
      obtain ⟨rest, hl, h⟩ := Option.bind_eq_some_iff.1 h
      obtain rfl := Option.some.inj h
      rw [ha, ih.1 hl, List.map_cons]
    · intro h
      cases values with
      | nil => exact nomatch h
      | cons value rest =>
        obtain ⟨ha, hl⟩ := List.cons.inj h
        rw [ha, ih.2 hl]
        rfl

theorem exists_of_mapM_eq_none {α β : Type} {f : α → Option β} {l : List α}
    (h : l.mapM f = none) : ∃ a ∈ l, f a = none := by
  by_contra hall
  push Not at hall
  have hvalues : ∃ values : List β, l.map f = values.map some := by
    clear h
    induction l with
    | nil => exact ⟨[], rfl⟩
    | cons a l ih =>
      obtain ⟨value, ha⟩ := Option.ne_none_iff_exists'.1 (hall a List.mem_cons_self)
      obtain ⟨rest, hrest⟩ := ih fun b hb => hall b (List.mem_cons_of_mem a hb)
      exact ⟨value :: rest, by rw [List.map_cons, ha, hrest, List.map_cons]⟩
  obtain ⟨values, hmap⟩ := hvalues
  exact nomatch h.symm.trans (mapM_eq_some_iff.2 hmap)

/-- The job in a place of the batch is the one of the event in that place, and no
event of the batch lacks a job. -/
theorem getElem?_publish {events : List EventObject} {i : ℕ} :
    (publish now events)[i]? = some j ↔
      (∀ e ∈ events, job now e ≠ none) ∧ ∃ e, events[i]? = some e ∧ job now e = some j := by
  unfold publish
  cases hjobs : events.mapM (job now) with
  | none =>
    obtain ⟨e, he, hnone⟩ := exists_of_mapM_eq_none hjobs
    have hlacks : ¬ ∀ e ∈ events, job now e ≠ none := fun hall => hall e he hnone
    simp [hlacks]
  | some jobs =>
    have hmap := mapM_eq_some_iff.1 hjobs
    have hplace : events[i]?.map (job now) = jobs[i]?.map some := by
      rw [← List.getElem?_map, hmap, List.getElem?_map]
    have hall : ∀ e ∈ events, job now e ≠ none := by
      intro e he
      have hmem : job now e ∈ jobs.map some := hmap ▸ List.mem_map_of_mem he
      obtain ⟨j', -, hj'⟩ := List.mem_map.1 hmem
      rw [← hj']
      exact nofun
    rw [and_iff_right hall, Option.getD_some]
    constructor
    · intro hj
      rw [hj, Option.map_some] at hplace
      exact Option.map_eq_some_iff.1 hplace
    · rintro ⟨e, he, hj⟩
      rw [he, Option.map_some, hj] at hplace
      obtain ⟨j', hj', heq⟩ := Option.map_eq_some_iff.1 hplace.symm
      rw [hj', Option.some.inj heq]

/-- **An event survives** exactly when the identifier that is generated is its own. -/
theorem survives_iff (h : job now e = some j) : Survives e j generated later ↔ generated = e.eventId := by
  have hdecode : j.decode generated = some { e with eventId := generated } := decode_job h
  constructor
  · rintro ⟨e', he', rfl, -⟩
    exact congrArg EventObject.eventId (Option.some.inj (hdecode.symm.trans he'))
  · rintro rfl
    obtain ⟨j', hj'⟩ : ∃ j', job later e = some j' := by
      refine Option.ne_none_iff_exists'.1 fun hnone => ?_
      exact nomatch h.symm.trans (job_eq_none.2 (job_eq_none.1 hnone))
    have hpublish : publish later [e] = [j'] := by
      rw [publish, List.mapM_cons, hj']
      rfl
    have hid : j'.jobId = j.jobId := (jobId_job hj').trans (jobId_job h).symm
    refine ⟨e, hdecode, rfl, ?_, fun queue hqueue => ?_⟩
    · rw [hpublish, List.map_singleton, hid]
    · rw [hpublish, addBulk, List.foldl_cons, List.foldl_nil, addJob, if_pos]
      exact List.any_eq_true.2 ⟨j, hqueue, by rw [hid, beq_self_eq_true]⟩

end

/-- **The events of a batch survive** their transport exactly when the date of one of
them has no text, so that nothing is put on the queue, or each of them is decoded
under an identifier that happens to be its own. -/
theorem eventsSurvive_iff (now : Instant) (events : List EventObject) (generated : ℕ → UniqueId)
    (later : Instant) :
    EventsSurvive now events generated later ↔
      (∃ e ∈ events, e.Undated) ∨ ∀ i e, events[i]? = some e → generated i = e.eventId := by
  constructor
  · intro h
    rw [or_iff_not_imp_left]
    intro hdated i e he
    have hall : ∀ e ∈ events, job now e ≠ none := fun e he hnone =>
      hdated ⟨e, he, job_eq_none.1 hnone⟩
    obtain ⟨j, hj⟩ := Option.ne_none_iff_exists'.1 (hall e (List.mem_of_getElem? he))
    exact (survives_iff hj).1 (h i e j he (getElem?_publish.2 ⟨hall, e, he, hj⟩))
  · rintro h i e j he hj
    obtain ⟨hall, e', he', hj⟩ := getElem?_publish.1 hj
    obtain rfl := Option.some.inj (he.symm.trans he')
    rcases h with ⟨e', he', hundated⟩ | hown
    · exact absurd (job_eq_none.2 hundated) (hall e' he')
    · exact (survives_iff hj).2 (hown i e he)

/-- An event that `UserStatusChangedEvent` makes. -/
def activation : EventObject :=
  .construct ⟨"00000000-0000-4000-8000-000000000001", by decide +kernel⟩
    "00000000-0000-4000-8000-000000000002" (.userStatusChanged .inactive .active) 1709210096789

/-- **An event that is decoded** is sent on under another identifier. -/
theorem not_eventsSurvive : ¬ ∀ (now : Instant) (events : List EventObject)
    (generated : ℕ → UniqueId) (later : Instant), EventsSurvive now events generated later := by
  intro h
  have hzero : |((0 : ℤ) : Millis)| ≤ maxDate := by norm_num [maxDate]
  let now : Instant := ⟨0, hzero⟩
  have hdated : job now activation ≠ none := by
    rw [ne_eq, job_eq_none, EventObject.Undated]
    norm_num [activation, EventObject.construct, maxDate]
  obtain ⟨j, hj⟩ := Option.ne_none_iff_exists'.1 hdated
  have hsurvives := h now [activation]
    (fun _ => ⟨"00000000-0000-4000-8000-000000000003", by decide +kernel⟩) now 0 activation j rfl
    (getElem?_publish.2 ⟨by simpa using hdated, activation, rfl, hj⟩)
  have hsame := congrArg UniqueId.value ((survives_iff hj).1 hsurvives)
  exact absurd hsame (by decide +kernel)

end EnterpriseSystem.Messaging
