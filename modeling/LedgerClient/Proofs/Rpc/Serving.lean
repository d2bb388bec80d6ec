import LedgerClient.Proofs.Rpc.Handling

/-!
# `LedgerClient.Proofs.Rpc.Serving`: bodies one after the other

A service that starts without sessions and is posted one body after the
other answers each of them, and the answers with their bodies are its
history. What the service holds by then is a function of that history
alone: how often a counter was raised, and which sessions have a client.

* `Sound` is an answer in which nothing is missing, and `Answered.series`
  the counter that a body with its answer belongs to.
* `SetUp` says of a session that it was set up and has not been reset
  since.
* `history_decides` is the law of such a run. Nothing is assumed about the
  outside: each body finds its own nodes, its own time and its own start
  for a transaction (`Arrival`).
* `posted_served` carries it over to bodies as they are posted. One beyond
  the limit never gets to the service, and the others differ in nothing but
  that their times are noted, which the service never looks at
  (`after_withLatencies`).
-/

set_option autoImplicit false

namespace LedgerClient.Rpc

/-- A body that arrives, and what it finds outside: how calls are answered, the time, and the start
of a fresh transaction. -/
structure Arrival where
  World : Type
  transport : Transport World
  scene : Scene World
  start : Timestamp
  body : Bytes

/-- A body with its answer. -/
structure Answered where
  body : Bytes
  answer : Json

/-! ### What an answer says -/

/-- The id that a body gives, which has none if it is no object or has no such field. -/
def bodyId (body : Bytes) : Json :=
  match (Bytes.text? body).bind Json.read? with
  | some (.record fields) => (Json.field? "id" fields).getD .null
  | _ => .null

/-- Whether an answer has a result. -/
def hasResult : Json → Bool
  | .record fields => (Json.field? "result" fields).isSome
  | _ => false

/-- An answer as it must be: an object with the version, the id that is repeated, and either a
result or an error. -/
structure Sound (answer id : Json) : Prop where
  record : ∃ fields, answer = .record fields ∧
    Json.field? "jsonrpc" fields = some (.text "2.0") ∧ Json.field? "id" fields = some id ∧
    ((Json.field? "result" fields).isSome ↔ Json.field? "error" fields = none)

/-- The answer to a method is sound, whatever the method came to. -/
theorem sound_answerTo (id : Json) (result : Except ErrorObject Json) :
    Sound (answerTo id result) id := by
  cases result with
  | ok value => exact ⟨_, rfl, rfl, rfl, ⟨fun _ => rfl, fun _ => rfl⟩⟩
  | error e => exact ⟨_, rfl, rfl, rfl, ⟨nofun, nofun⟩⟩

/-- An answer has a result if the method came to one. -/
theorem hasResult_answerTo (id : Json) (result : Except ErrorObject Json) :
    hasResult (answerTo id result) = result.isOk := by
  cases result <;> rfl

/-- What is read from a request keeps its id. -/
theorem Reading.id_ofRequest (request : Request) : (ofRequest request).id = request.id := by
  unfold ofRequest
  cases Method.parse request.method <;> rfl

/-- A request repeats the id of the object that it is, and a rejection does too. -/
theorem Request.id_parse (text : String) :
    (match parse text with
      | .error rejection => rejection.id
      | .ok request => request.id) =
    match Json.read? text with
    | some (.record fields) => (Json.field? "id" fields).getD .null
    | _ => .null := by
  -- The id is looked up in the same object by both, and only its value is repeated.
  unfold parse
  cases Json.read? text with
  | none => rfl
  | some json =>
    cases json with
    | record fields =>
      simp only
      cases Json.field? "id" fields with
      | none => rfl
      | some id => cases ofFields? fields <;> rfl
    | _ => rfl

/-- The id that is repeated is that of the body. -/
theorem Reading.id_of (body : Bytes) : (of body).id = bodyId body := by
  unfold of bodyId
  cases Bytes.text? body with
  -- What is no text has no id, and the id of a text is that of its request.
  | none => rfl
  | some text =>
    simp only [Option.bind_some]
    rw [← Request.id_parse]
    cases Request.parse text with
    | error rejection => rfl
    | ok request => exact id_ofRequest request

/-! ### What a body with its answer means -/

namespace Answered

/-- The counter that a body with its answer belongs to. -/
def series (x : Answered) : String × Outcome :=
  match Reading.of x.body with
  | .rejected _ => ("unknown", .invalid)
  | .unknown _ => ("unknown", .error)
  | .call method _ _ _ => (method.name, if hasResult x.answer then .ok else .error)

/-- A session was set up. -/
def SetsUp (x : Answered) (session : String) : Prop :=
  (Reading.of x.body).Calls .setup session ∧ hasResult x.answer = true

/-- A session was reset. -/
def Resets (x : Answered) (session : String) : Prop :=
  (Reading.of x.body).Calls .reset session

end Answered

/-- A session was set up, and has not been reset since. -/
def SetUp (session : String) (history : List Answered) : Prop :=
  ∃ before x after, history = before ++ x :: after ∧ x.SetsUp session ∧
    ∀ y ∈ after, ¬y.Resets session

/-- At first no session is set up. -/
theorem not_setUp_nil (session : String) : ¬SetUp session [] := by
  rintro ⟨before, x, after, heq, -⟩
  cases before <;> cases heq

/-- One more body sets a session up, or leaves it as it was if it does not reset it. -/
theorem setUp_concat {session : String} {history : List Answered} {x : Answered} :
    SetUp session (history ++ [x]) ↔
      x.SetsUp session ∨ (SetUp session history ∧ ¬x.Resets session) := by
  constructor
  · rintro ⟨before, y, after, heq, hy, hafter⟩
    -- The setup is the last body, or it is among the ones before and the last body is no reset.
    induction after using List.reverseRecOn with
    | nil =>
      obtain ⟨-, hlast⟩ := List.append_inj' heq rfl
      cases hlast
      exact .inl hy
    | append_singleton after z _ =>
      have hsplit : history ++ [x] = (before ++ y :: after) ++ [z] := by
        rw [heq, List.append_assoc, List.cons_append]
      obtain ⟨rfl, hlast⟩ := List.append_inj' hsplit rfl
      cases hlast
      refine .inr ⟨⟨before, y, after, rfl, hy, fun w hw => ?_⟩, ?_⟩
      · exact hafter w (List.mem_append_left _ hw)
      · exact hafter x (List.mem_append_right _ (List.mem_singleton_self x))
  · rintro (hx | ⟨⟨before, y, after, rfl, hy, hafter⟩, hx⟩)
    · exact ⟨history, x, [], rfl, hx, nofun⟩
    · refine ⟨before, y, after ++ [x], List.append_assoc _ _ _, hy, fun w hw => ?_⟩
      rcases List.mem_append.1 hw with hold | hnew
      · exact hafter w hold
      · rw [List.mem_singleton.1 hnew]
        exact hx

/-! ### Runs -/

namespace Service

/-- The answer to a body. -/
def answer (s : Service) (a : Arrival) : Json :=
  (s.handle a.transport a.body a.start a.scene).1

/-- A body with its answer. -/
def answered (s : Service) (a : Arrival) : Answered :=
  ⟨a.body, s.answer a⟩

/-- The service after a body. -/
def after (s : Service) (a : Arrival) : Service :=
  (s.handle a.transport a.body a.start a.scene).2.1

/-- The service after some bodies. -/
def served (s : Service) (arrivals : List Arrival) : Service :=
  arrivals.foldl after s

/-- The bodies with their answers. -/
def history (s : Service) : List Arrival → List Answered
  | [] => []
  | a :: rest => s.answered a :: (s.after a).history rest

section
variable (s : Service) (arrivals : List Arrival) (a : Arrival)

/-- The last body finds the service that the others have left. -/
theorem served_concat : s.served (arrivals ++ [a]) = (s.served arrivals).after a := by
  rw [served, List.foldl_append]
  rfl

/-- Its answer is the last one. -/
theorem history_concat :
    s.history (arrivals ++ [a]) = s.history arrivals ++ [(s.served arrivals).answered a] := by
  induction arrivals generalizing s with
  | nil => rfl
  | cons first rest ih => exact congrArg (s.answered first :: ·) (ih (s.after first))

/-- Each body has one answer. -/
theorem map_body_history : (s.history arrivals).map Answered.body = arrivals.map Arrival.body := by
  induction arrivals generalizing s with
  | nil => rfl
  | cons first rest ih => exact congrArg (first.body :: ·) (ih (s.after first))

/-- An answer is sound, and repeats the id of the body. -/
theorem sound_answer : Sound (s.answer a) (bodyId a.body) := by
  rw [← Reading.id_of, answer, handle_eq]
  cases Reading.of a.body with
  | rejected rejection => exact sound_answerTo rejection.id (.error rejection.error)
  | unknown id => exact sound_answerTo id (.error .methodNotFound)
  | call method params session id => exact sound_answerTo id _

/-- No method counts anything. -/
theorem Dispatched.requests {s : Service} {σ : Type} {transport : Transport σ} {params : Json}
    {session : String} {start : Timestamp} {scene : Scene σ} {method : Method} {h : Handled σ}
    (hd : Dispatched s transport params session start scene method h) :
    h.service.metrics.requests = s.metrics.requests := by
  cases hd <;> rfl

/-- A body is counted once, by the counter that it belongs to with its answer. -/
theorem requests_after :
    (s.after a).metrics.requests =
      (s.metrics.record (s.answered a).series.1 (s.answered a).series.2).requests := by
  unfold answered after answer Answered.series
  rw [handle_eq]
  cases Reading.of a.body with
  | rejected rejection => rfl
  | unknown id => rfl
  | call method params session id =>
    -- A method leaves the counters alone, and what is counted for it follows its result.
    have hrequests := (s.dispatched a.transport method params session a.start a.scene).requests
    simp only [hasResult_answerTo]
    generalize s.dispatch a.transport method params session a.start a.scene = handled at hrequests
    have houtcome : Outcome.of handled.result = if handled.result.isOk then .ok else .error := by
      cases handled.result <;> rfl
    show (handled.service.metrics.record method.name (.of handled.result)).requests = _
    simp only [Metrics.record, Metrics.count, hrequests, houtcome]

/-- One counter is raised by one, and the others stay. -/
theorem count_after (method : String) (outcome : Outcome) :
    (s.after a).metrics.count method outcome = s.metrics.count method outcome +
      if (s.answered a).series = (method, outcome) then 1 else 0 := by
  have hcount :=
    s.metrics.count_record (s.answered a).series.1 method (s.answered a).series.2 outcome
  rw [Metrics.count, requests_after]
  exact hcount

/-- The sum of the counters is raised by one. -/
theorem total_after : (s.after a).metrics.total = s.metrics.total + 1 := by
  rw [Metrics.total, requests_after]
  exact s.metrics.total_record (s.answered a).series.1 (s.answered a).series.2

end

/-! ### What a body depends on -/

section
variable {s t : Service} {a : Arrival}

/-- A body is answered by the client of the session that it addresses. -/
theorem answer_congr (h : ∀ session, (Reading.of a.body).session? = some session →
      Table.get? session s.sessions = Table.get? session t.sessions) :
    s.answer a = t.answer a := by
  unfold answer
  rw [handle_eq, handle_eq]
  cases hreading : Reading.of a.body with
  | rejected rejection => rfl
  | unknown id => rfl
  | call method params session id =>
    rw [hreading] at h
    exact congrArg (answerTo id)
      (dispatch_congr a.transport method params a.start a.scene (h session rfl)).1

/-- What a body makes of the sessions depends on the sessions alone. -/
theorem sessions_after_congr (h : s.sessions = t.sessions) (a : Arrival) :
    (s.after a).sessions = (t.after a).sessions := by
  unfold after
  rw [handle_eq, handle_eq]
  cases Reading.of a.body with
  | rejected rejection => exact h
  | unknown id => exact h
  | call method params session id =>
    exact sessions_dispatch_congr a.transport method params a.start a.scene h

/-- Services with the same sessions answer the same. -/
theorem history_congr (h : s.sessions = t.sessions) (arrivals : List Arrival) :
    s.history arrivals = t.history arrivals := by
  induction arrivals generalizing s t with
  | nil => rfl
  | cons first rest ih =>
    have hanswer : s.answer first = t.answer first := answer_congr fun session _ => by rw [h]
    show Answered.mk first.body (s.answer first) :: (s.after first).history rest = _
    rw [hanswer, ih (sessions_after_congr h first)]
    rfl

/-- Services with the same sessions keep the same sessions. -/
theorem sessions_served_congr (h : s.sessions = t.sessions) (arrivals : List Arrival) :
    (s.served arrivals).sessions = (t.served arrivals).sessions := by
  induction arrivals generalizing s t with
  | nil => exact h
  | cons first rest ih => exact ih (sessions_after_congr h first)

end

/-! ### Sessions -/

/-- A session has a client after a body if the body set it up, or if it had one and was not
reset. -/
theorem contains_after (s : Service) (a : Arrival) (session : String) :
    Table.contains session (s.after a).sessions = true ↔
      (s.answered a).SetsUp session ∨
        (Table.contains session s.sessions = true ∧ ¬(s.answered a).Resets session) := by
  unfold answered after answer Answered.SetsUp Answered.Resets
  rw [handle_eq]
  cases Reading.of a.body with
  | rejected rejection => simp [counted]
  | unknown id => simp [counted]
  | call method params addressed id =>
    have hdispatched := s.dispatched a.transport method params addressed a.start a.scene
    simp only [hasResult_answerTo, Reading.call_calls]
    generalize s.dispatch a.transport method params addressed a.start a.scene = handled
      at hdispatched
    cases hdispatched with
    | installed described =>
      show Table.contains session (Table.insert addressed _ s.sessions) = true ↔ _
      rw [Table.contains_insert]
      by_cases hsession : addressed = session
      · simp [hsession, Except.isOk, Except.toBool]
      · simp [hsession, Ne.symm hsession]
    | undescribed wrong => simp [counted, Except.isOk, Except.toBool]
    | forgotten =>
      show Table.contains session (Table.erase addressed s.sessions) = true ↔ _
      rw [Table.contains_erase]
      by_cases hsession : addressed = session
      · simp [hsession]
      · simp [hsession, Ne.symm hsession]
    | missing none => simp [counted]
    | undrafted found wrong => simp [counted]
    | @transferred client draft found drafted =>
      -- The session is stored again, but it was there before.
      show Table.contains session (Table.insert addressed _ s.sessions) = true ↔ _
      rw [Table.contains_insert]
      by_cases hsession : addressed = session
      · rw [hsession] at found
        simp [hsession, Table.contains, found]
      · simp [hsession, Ne.symm hsession]

/-- The gauge shows how many sessions there are, and no session is there twice. -/
structure Tallied (s : Service) : Prop where
  gauge : s.metrics.activeSessions = s.sessions.length
  distinct : (Table.keys s.sessions).Nodup

/-- A method keeps the gauge at the number of sessions. -/
theorem Dispatched.tallied {σ : Type} {s : Service} {transport : Transport σ} {params : Json}
    {session : String} {start : Timestamp} {scene : Scene σ} {method : Method} {h : Handled σ}
    (hd : Dispatched s transport params session start scene method h) (hs : s.Tallied) :
    h.service.Tallied := by
  cases hd with
  | installed described => exact ⟨rfl, Table.nodup_keys_insert hs.distinct session _⟩
  | undescribed wrong => exact hs
  | forgotten => exact ⟨rfl, Table.nodup_keys_erase hs.distinct session⟩
  | missing none => exact hs
  | undrafted found wrong => exact hs
  | @transferred client draft found drafted =>
    have hthere : Table.contains session s.sessions = true := by
      rw [Table.contains, found]
      rfl
    refine ⟨?_, Table.nodup_keys_insert hs.distinct session _⟩
    -- The gauge is left alone, and the session takes no new place.
    have hkeys := congrArg List.length (Table.keys_insert_of_contains hthere
      (transfer transport client draft start scene).2.1)
    rw [Table.keys, List.length_map, Table.keys, List.length_map] at hkeys
    exact hs.gauge.trans hkeys.symm

/-- A body keeps the gauge at the number of sessions. -/
theorem Tallied.after {s : Service} (hs : s.Tallied) (a : Arrival) : (s.after a).Tallied := by
  unfold Service.after
  rw [handle_eq]
  cases Reading.of a.body with
  | rejected rejection => exact ⟨hs.gauge, hs.distinct⟩
  | unknown id => exact ⟨hs.gauge, hs.distinct⟩
  | call method params session id =>
    have h := (s.dispatched a.transport method params session a.start a.scene).tallied hs
    exact ⟨h.gauge, h.distinct⟩

/-! ### A whole run -/

section
variable (s : Service) (arrivals : List Arrival)

/-- A counter is raised by how many bodies belong to it. -/
theorem count_served (method : String) (outcome : Outcome) :
    (s.served arrivals).metrics.count method outcome = s.metrics.count method outcome +
      ((s.history arrivals).filter fun x => x.series = (method, outcome)).length := by
  induction arrivals using List.reverseRecOn with
  | nil => rfl
  | append_singleton arrivals a ih =>
    rw [served_concat, count_after, ih, history_concat, List.filter_append, List.length_append,
      Nat.add_assoc]
    by_cases h : ((s.served arrivals).answered a).series = (method, outcome) <;> simp [h]

/-- The sum of the counters is raised by the number of bodies. -/
theorem total_served :
    (s.served arrivals).metrics.total = s.metrics.total + arrivals.length := by
  induction arrivals using List.reverseRecOn with
  | nil => rfl
  | append_singleton arrivals a ih =>
    rw [served_concat, total_after, ih, List.length_append]
    rfl

/-- So the gauge is at the number of sessions after any bodies. -/
theorem Tallied.served {s : Service} (hs : s.Tallied) (arrivals : List Arrival) :
    (s.served arrivals).Tallied := by
  induction arrivals using List.reverseRecOn with
  | nil => exact hs
  | append_singleton arrivals a ih =>
    rw [served_concat]
    exact ih.after a

/-- The sessions of a service that started without any are those that were set up and have not been
reset since. -/
theorem contains_served (session : String) :
    Table.contains session (served {} arrivals).sessions = true ↔
      SetUp session (history {} arrivals) := by
  induction arrivals using List.reverseRecOn with
  | nil => exact ⟨nofun, fun h => absurd h (not_setUp_nil session)⟩
  | append_singleton arrivals a ih =>
    rw [served_concat, history_concat, setUp_concat, ← ih]
    exact contains_after _ a session

/-- Every answer in a history is sound. -/
theorem sound_of_mem_history {s : Service} {arrivals : List Arrival} {x : Answered}
    (hx : x ∈ s.history arrivals) : Sound x.answer (bodyId x.body) := by
  induction arrivals generalizing s with
  | nil => cases hx
  | cons first rest ih =>
    rcases List.mem_cons.1 hx with rfl | hrest
    · exact s.sound_answer first
    · exact ih hrest

end

end Service

open Service

/-- The law of a service that starts without sessions and is posted some bodies. Each of them has
one answer, with the version, the id of the body, and either a result or an error. Each raises one
counter by one, chosen by how it is read and whether the answer has a result, so a counter is the
number of its bodies and the sum of all is the number of bodies. And the gauge is the number of
sessions, which are those that were set up and have not been reset since, each once. -/
theorem history_decides (arrivals : List Arrival) :
    let s := served {} arrivals
    let history := history {} arrivals
    history.map Answered.body = arrivals.map Arrival.body ∧
      (∀ x ∈ history, Sound x.answer (bodyId x.body)) ∧
      (∀ (s : Service) (a : Arrival) (method : String) (outcome : Outcome),
        (s.after a).metrics.count method outcome = s.metrics.count method outcome +
          if (s.answered a).series = (method, outcome) then 1 else 0) ∧
      (∀ method outcome, s.metrics.count method outcome =
        (history.filter fun x => x.series = (method, outcome)).length) ∧
      s.metrics.total = arrivals.length ∧
      s.metrics.activeSessions = (Table.keys s.sessions).length ∧ (Table.keys s.sessions).Nodup ∧
      ∀ session, session ∈ Table.keys s.sessions ↔ SetUp session history := by
  intro s history
  -- The law of the gauge is an invariant, which holds before the first body.
  have hnew : Tallied {} := ⟨rfl, List.nodup_nil⟩
  have htallied : s.Tallied := hnew.served arrivals
  refine ⟨map_body_history _ arrivals, fun x hx => sound_of_mem_history hx, count_after, ?_, ?_, ?_,
    htallied.distinct, fun session => ?_⟩
  · -- A counter starts at zero, so it is what the bodies of its series make of it.
    intro method outcome
    have hcount := count_served {} arrivals method outcome
    rwa [show Metrics.count ({} : Service).metrics method outcome = 0 from rfl,
      Nat.zero_add] at hcount
  · have htotal := total_served {} arrivals
    rwa [show Metrics.total ({} : Service).metrics = 0 from rfl, Nat.zero_add] at htotal
  · rw [Table.keys, List.length_map]
    exact htallied.gauge
  · rw [Table.mem_keys_iff]
    exact contains_served arrivals session

/-! ### Bodies that are posted -/

/-- A body that is posted to the service, by whichever target names it. -/
structure Post extends Arrival where
  target : String
  path : Http.pathOf target = "/"

/-- Whether a body that is posted is within the limit. -/
def Post.within (p : Post) : Bool :=
  p.body.length ≤ Http.bodyLimit

namespace Service

/-- The service with other times noted. -/
def withLatencies (s : Service) (latencies : List Duration) : Service :=
  { s with metrics := { s.metrics with latencies := latencies } }

section
variable (s : Service) (latencies : List Duration)

/-- No method looks at the times that were noted, or changes them. -/
theorem dispatch_withLatencies {σ : Type} (transport : Transport σ) (method : Method)
    (params : Json) (session : String) (start : Timestamp) (scene : Scene σ) :
    (s.withLatencies latencies).dispatch transport method params session start scene =
      let handled := s.dispatch transport method params session start scene
      { handled with service := handled.service.withLatencies latencies } := by
  cases method with
  | setup =>
    unfold dispatch
    simp only [setup_eq]
    cases clientOf params <;> rfl
  | reset => rfl
  | transferCrypto =>
    have hsessions : (s.withLatencies latencies).sessions = s.sessions := rfl
    simp only [dispatch, transferCrypto, hsessions]
    -- Whatever branch is taken, the times are carried along and nothing is asked of them.
    cases Table.get? session s.sessions with
    | none => rfl
    | some client =>
      simp only
      cases (TransferParams.parse params).bind TransferParams.draft <;> rfl

/-- No body does either, whatever it asks for. -/
theorem after_withLatencies (a : Arrival) :
    (s.withLatencies latencies).after a = (s.after a).withLatencies latencies := by
  unfold after
  rw [handle_eq, handle_eq]
  cases Reading.of a.body with
  | rejected rejection => rfl
  | unknown id => rfl
  | call method params session id =>
    simp only [dispatch_withLatencies]
    rfl

/-- Nor do bodies that come one after the other. -/
theorem served_withLatencies (arrivals : List Arrival) :
    (s.withLatencies latencies).served arrivals = (s.served arrivals).withLatencies latencies := by
  induction arrivals generalizing s with
  | nil => rfl
  | cons first rest ih =>
    show ((s.withLatencies latencies).after first).served rest = _
    rw [after_withLatencies, ih]
    rfl

/-- A body leaves the times as they are. -/
theorem latencies_after (a : Arrival) : (s.after a).metrics.latencies = s.metrics.latencies :=
  congrArg (fun s => s.metrics.latencies) (s.after_withLatencies s.metrics.latencies a)

end

/-- The response to a body that is posted, and the service after it. -/
def respondTo (s : Service) (p : Post) : Http.Response × Service :=
  let (response, s, _) := Http.respond s p.transport "POST" p.target p.body p.start p.scene
  (response, s)

/-- The service after some bodies that are posted. -/
def posted (s : Service) (posts : List Post) : Service :=
  posts.foldl (fun s p => (s.respondTo p).2) s

/-- The bodies that are posted with their responses. -/
def responses (s : Service) : List Post → List (Post × Http.Response)
  | [] => []
  | p :: rest => (p, (s.respondTo p).1) :: (s.respondTo p).2.responses rest

section
variable (s : Service) {p : Post}

/-- A body within the limit gets the answer of the service, and its time is noted. -/
theorem respondTo_of_within (h : p.within = true) :
    ∃ latency, s.respondTo p = (⟨200, (s.answer p.toArrival).render⟩,
      (s.after p.toArrival).withLatencies (latency :: s.metrics.latencies)) := by
  have hwithin : p.body.length ≤ Http.bodyLimit := of_decide_eq_true h
  have hresponse := Http.respond_of_within s p.transport p.start p.scene p.path hwithin
  refine ⟨(s.handle p.transport p.body p.start p.scene).2.2.now - p.scene.now, ?_⟩
  rw [← s.latencies_after p.toArrival, respondTo, hresponse]
  rfl

/-- A body beyond the limit is refused, and changes nothing. -/
theorem respondTo_of_beyond (h : p.within = false) : s.respondTo p = (Http.tooLarge, s) := by
  have hbeyond := Nat.not_le.1 (of_decide_eq_false h)
  rw [respondTo, Http.respond_of_beyond s p.transport p.start p.scene p.path hbeyond]

end

/-- Bodies that are posted are served if they are within the limit. These leave the service as they
do without a limit, with the same sessions, counters and gauge, and the time of each is noted
besides. Each gets the answer of the service, and each of the others is refused. -/
theorem posted_served (s : Service) (posts : List Post) :
    let arrivals := (posts.filter Post.within).map Post.toArrival
    let responses := s.responses posts
    (∃ latencies, s.posted posts = (s.served arrivals).withLatencies latencies ∧
      latencies.length = s.metrics.latencies.length + arrivals.length) ∧
    responses.map Prod.fst = posts ∧
    (responses.filter fun x => x.1.within).map Prod.snd =
      (s.history arrivals).map (fun x => ⟨200, x.answer.render⟩) ∧
    ∀ x ∈ responses, x.1.within = false → x.2 = Http.tooLarge := by
  -- The times that are noted differ from body to body, so the service is any in the induction.
  induction posts generalizing s with
  | nil => exact ⟨⟨s.metrics.latencies, rfl, rfl⟩, rfl, rfl, nofun⟩
  | cons p posts ih =>
    have hposted : s.posted (p :: posts) = (s.respondTo p).2.posted posts := rfl
    have hresponses : s.responses (p :: posts) =
      (p, (s.respondTo p).1) :: (s.respondTo p).2.responses posts := rfl
    rw [hposted, hresponses]
    cases hp : p.within with
    | true =>
      obtain ⟨latency, hresponse⟩ := s.respondTo_of_within hp
      obtain ⟨⟨latencies, hrest, hlength⟩, hposts, hanswers, hrefused⟩ :=
        ih ((s.after p.toArrival).withLatencies (latency :: s.metrics.latencies))
      simp only [hresponse, List.filter_cons, hp, if_true, List.map_cons]
      refine ⟨⟨latencies, ?_, ?_⟩, congrArg _ hposts, ?_, ?_⟩
      · rw [hrest, served_withLatencies]
        rfl
      · rw [hlength, List.length_cons]
        show s.metrics.latencies.length + 1 + _ = _
        omega
      · -- What is answered depends on the sessions, which no time is part of.
        rw [hanswers]
        refine congrArg (_ :: List.map _ ·) (history_congr ?_ _)
        rfl
      · exact List.forall_mem_cons.2 ⟨fun h => by simp [hp] at h, hrefused⟩
    | false =>
      -- The service is the same afterwards, and so is what is left to prove.
      obtain ⟨hrest, hposts, hanswers, hrefused⟩ := ih s
      simp only [s.respondTo_of_beyond hp, List.filter_cons, hp, Bool.false_eq_true, if_false,
        List.map_cons]
      exact ⟨hrest, congrArg _ hposts, hanswers, List.forall_mem_cons.2 ⟨fun _ => rfl, hrefused⟩⟩

end Service

end LedgerClient.Rpc
