import LedgerClient.Proofs.Rpc.Overlap

/-!
# `LedgerClient.Proofs.Rpc.Isolation`: sessions do not meet

A service holds the clients of all sessions in one table, and every body
goes through all of it. Still a session might as well have a service of
its own: what is posted to other sessions can be left out, and neither
its client nor any of its answers changes (`served_own`, `history_own`).

That comes from two facts about one body. It leaves the clients of all
sessions but the one that it addresses (`get?_after_of_not_addresses`),
and what it does there depends on the client of that session alone
(`get?_after_congr`, `answer_congr_of_addresses`).

A service handles one body after the other and keeps clients as values.
`sessions_isolated` also says what holds where transfers are in progress
meanwhile and clients are handles (`Overlap.Isolated`), and that the two
views agree where nothing overlaps (`exists_alone`): each method is the
step of posting it, and for a transfer one more step at its end.
-/

set_option autoImplicit false

namespace LedgerClient

namespace Rpc

/-! ### The session of a body -/

/-- The session that parameters name. Where none is named, or `null` is, it is the usual one. -/
def sessionIn : Json → String
  | .record fields =>
    match Json.field? "sessionId" fields with
    | some (.text name) => name
    | _ => "default"
  | _ => "default"

/-- The session that a body names in its parameters. -/
def sessionNamed (body : Bytes) : String :=
  match (Bytes.text? body).bind Json.read? with
  | some (.record fields) => sessionIn ((Json.field? "params" fields).getD .null)
  | _ => "default"

/-- A request is for the session that is named. -/
theorem session_of_splitSession {params rest : Json} {session : Option String}
    (h : Request.splitSession params = some (rest, session)) :
    session.getD defaultSession = sessionIn params := by
  cases params with
  -- Only an object can name a session. Both sides look up the same field, and no session and a null
  -- one mean the default.
  | record fields =>
    unfold Request.splitSession at h
    unfold sessionIn
    simp only at h ⊢
    split at h
    next hnone =>
      cases h
      rw [hnone]
      rfl
    next hnull =>
      cases h
      rw [hnull]
      rfl
    next htext =>
      cases h
      rw [htext]
      rfl
    · cases h
  | list items =>
    cases h
    rfl
  | null =>
    cases h
    rfl
  | _ => cases h

/-- A request is an object, and its session is taken out of the parameters. -/
theorem Request.exists_of_parse {text : String} {request : Request} (h : parse text = .ok request) :
    ∃ fields, Json.read? text = some (.record fields) ∧
      splitSession ((Json.field? "params" fields).getD .null) =
        some (request.params, request.sessionId) := by
  unfold parse at h
  split at h
  · cases h
  next fields hread =>
    refine ⟨fields, hread, ?_⟩
    -- A request comes out of the one branch with an id and fields that make sense, and the session
    -- was taken out on the way.
    split at h
    · cases h
    · cases h
    next id method params session hid hfields =>
      cases h
      unfold ofFields? at hfields
      obtain ⟨version, -, hfields⟩ := Option.bind_eq_some_iff.1 hfields
      obtain ⟨method', -, hfields⟩ := Option.bind_eq_some_iff.1 hfields
      obtain ⟨⟨params', session'⟩, hsplit, hfields⟩ := Option.bind_eq_some_iff.1 hfields
      simp only at hfields
      split at hfields
      · cases hfields
        exact hsplit
      · cases hfields
  · cases h

/-- A body that calls a method is a request for its session. -/
theorem Reading.exists_of_calls {body : Bytes} {method : Method} {session : String}
    (h : (of body).Calls method session) :
    ∃ text request, Bytes.text? body = some text ∧ Request.parse text = .ok request ∧
      session = request.sessionId.getD defaultSession := by
  obtain ⟨params, id, hreading⟩ := h
  -- Every reading is followed back to the text and the request that it is of.
  unfold of at hreading
  split at hreading
  · cases hreading
  next text htext =>
    split at hreading
    · cases hreading
    next request hparse =>
      unfold ofRequest at hreading
      split at hreading
      · cases hreading
      · cases hreading
        exact ⟨text, request, htext, hparse, rfl⟩

/-- A body that calls a method calls it in the session that it names. -/
theorem session_eq_sessionNamed {body : Bytes} {method : Method} {session : String}
    (h : (Reading.of body).Calls method session) : session = sessionNamed body := by
  obtain ⟨text, request, htext, hparse, rfl⟩ := Reading.exists_of_calls h
  obtain ⟨fields, hread, hsplit⟩ := Request.exists_of_parse hparse
  rw [session_of_splitSession hsplit, sessionNamed, htext, Option.bind_some, hread]

/-! ### One body -/

/-- A body addresses a session. -/
def Addresses (body : Bytes) (session : String) : Prop :=
  (Reading.of body).session? = some session

instance (body : Bytes) (session : String) : Decidable (Addresses body session) :=
  inferInstanceAs (Decidable (_ = _))

/-- A body that addresses a session calls a method in it. -/
theorem exists_call_of_addresses {body : Bytes} {session : String} (h : Addresses body session) :
    ∃ method params id, Reading.of body = .call method params session id := by
  unfold Addresses at h
  cases hreading : Reading.of body with
  | call method params addressed id =>
    rw [hreading] at h
    cases h
    exact ⟨method, params, id, rfl⟩
  | _ =>
    rw [hreading] at h
    cases h

namespace Service

section
variable {s t : Service} {a : Arrival} {session : String}

/-- A body leaves the clients of all sessions that it does not address. -/
theorem get?_after_of_not_addresses (h : ¬Addresses a.body session) :
    Table.get? session (s.after a).sessions = Table.get? session s.sessions := by
  unfold Addresses at h
  unfold after
  rw [handle_eq]
  cases hreading : Reading.of a.body with
  | rejected rejection => rfl
  | unknown id => rfl
  | call method params addressed id =>
    -- Of the six ways a method is dispatched, three write to the table, and they write to the
    -- addressed session.
    rw [hreading] at h
    have hne : session ≠ addressed := fun heq => h (congrArg some heq.symm)
    have hdispatched := s.dispatched a.transport method params addressed a.start a.scene
    simp only
    generalize s.dispatch a.transport method params addressed a.start a.scene = handled
      at hdispatched
    cases hdispatched with
    | installed described => exact Table.get?_insert_of_ne hne _ _
    | undescribed wrong => rfl
    | forgotten => exact Table.get?_erase_of_ne hne _
    | missing none => rfl
    | undrafted found wrong => rfl
    | transferred found drafted => exact Table.get?_insert_of_ne hne _ _

/-- What a body makes of the client of the session that it addresses depends on that client
alone. -/
theorem get?_after_congr (ha : Addresses a.body session)
    (h : Table.get? session s.sessions = Table.get? session t.sessions) :
    Table.get? session (s.after a).sessions = Table.get? session (t.after a).sessions := by
  obtain ⟨method, params, id, hreading⟩ := exists_call_of_addresses ha
  unfold after
  rw [handle_eq, handle_eq, hreading]
  exact (dispatch_congr a.transport method params a.start a.scene h).2.1

/-- What a body is answered depends on the client of the session that it addresses alone. -/
theorem answer_congr_of_addresses (ha : Addresses a.body session)
    (h : Table.get? session s.sessions = Table.get? session t.sessions) :
    s.answer a = t.answer a := by
  refine answer_congr fun addressed haddressed => ?_
  cases ha.symm.trans haddressed
  exact h

/-! ### Many bodies -/

/-- The bodies that address a session. -/
def own (session : String) (arrivals : List Arrival) : List Arrival :=
  arrivals.filter fun a => Addresses a.body session

/-- A body that addresses the session is one of its own. -/
theorem own_concat_of_addresses (ha : Addresses a.body session) (arrivals : List Arrival) :
    own session (arrivals ++ [a]) = own session arrivals ++ [a] := by
  simp [own, ha]

/-- Another one is not. -/
theorem own_concat_of_not_addresses (ha : ¬Addresses a.body session) (arrivals : List Arrival) :
    own session (arrivals ++ [a]) = own session arrivals := by
  simp [own, ha]

variable (s session)

/-- The client of a session is what the bodies of that session make of it. -/
theorem served_own (arrivals : List Arrival) :
    Table.get? session (s.served arrivals).sessions =
      Table.get? session (s.served (own session arrivals)).sessions := by
  induction arrivals using List.reverseRecOn with
  | nil => rfl
  -- The induction is from the end, so that the last body meets the state that the ones before it
  -- left.
  | append_singleton arrivals a ih =>
    rw [served_concat]
    by_cases ha : Addresses a.body session
    · rw [own_concat_of_addresses ha, served_concat]
      exact get?_after_congr ha ih
    · rw [own_concat_of_not_addresses ha]
      exact (get?_after_of_not_addresses ha).trans ih

/-- What is posted to a session is answered as if nothing were posted to others. -/
theorem history_own (arrivals : List Arrival) :
    ((s.history arrivals).filter fun x => Addresses x.body session) =
      s.history (own session arrivals) := by
  induction arrivals using List.reverseRecOn with
  | nil => rfl
  | append_singleton arrivals a ih =>
    rw [history_concat, List.filter_append, ih]
    by_cases ha : Addresses a.body session
    · -- The answer is the same, since the client is.
      have hanswer := answer_congr_of_addresses ha (s.served_own session arrivals)
      rw [own_concat_of_addresses ha, history_concat, answered, answered, hanswer]
      simp [ha]
    · rw [own_concat_of_not_addresses ha]
      simp [answered, ha]

end

/-! ### Setup and reset -/

section
variable {s : Service} {a : Arrival} {session : String}

/-- A session that was set up has a client with a network of its own, in which no node has
failed. -/
theorem fresh_of_setsUp (h : (s.answered a).SetsUp session) :
    ∃ client, Table.get? session (s.after a).sessions = some client ∧ client.network.Fresh := by
  -- The result says that the method was a setup and that it was not refused, so the client is the
  -- one installed.
  obtain ⟨⟨params, id, hreading⟩, hresult⟩ := h
  change Reading.of a.body = _ at hreading
  have hdispatched := s.dispatched a.transport .setup params session a.start a.scene
  unfold answered answer at hresult
  unfold after
  rw [handle_eq, hreading] at hresult ⊢
  simp only [hasResult_answerTo] at hresult ⊢
  generalize s.dispatch a.transport .setup params session a.start a.scene = handled
    at hdispatched hresult
  cases hdispatched with
  | @installed client described =>
    obtain ⟨fields, -, hclient⟩ := bind_eq_ok.1 described
    exact ⟨client, Table.get?_insert_self session client s.sessions, fresh_of_clientFrom hclient⟩
  | undescribed wrong => cases hresult

/-- A session that has no client still has none after a body that does not set it up. -/
theorem get?_after_eq_none (h : Table.get? session s.sessions = none)
    (hno : ¬(s.answered a).SetsUp session) : Table.get? session (s.after a).sessions = none := by
  have hnot : ¬Table.contains session (s.after a).sessions = true := by
    rw [contains_after, Table.contains, h]
    rintro (hset | ⟨hsome, -⟩)
    · exact hno hset
    · cases hsome
  rwa [Table.contains, Option.not_isSome_iff_eq_none] at hnot

/-- A session that was reset has no client. -/
theorem get?_after_of_resets (h : (s.answered a).Resets session) :
    Table.get? session (s.after a).sessions = none := by
  obtain ⟨params, id, hreading⟩ := h
  change Reading.of a.body = _ at hreading
  unfold after
  rw [handle_eq, hreading]
  exact Table.get?_erase_self session s.sessions

/-- A transfer that is requested in a session without a client is answered with an error. -/
theorem answer_of_noClient (h : Table.get? session s.sessions = none)
    (hcalls : (Reading.of a.body).Calls .transferCrypto session) :
    s.answer a = errorAnswer (noClient session) (bodyId a.body) := by
  rw [← Reading.id_of]
  obtain ⟨params, id, hreading⟩ := hcalls
  unfold answer
  rw [handle_eq, hreading]
  simp only [dispatch, transferCrypto, h]
  rfl

/-- As long as a session without a client is not set up, every transfer that is requested in it
fails. -/
theorem transfers_fail_of_noClient (h : Table.get? session s.sessions = none)
    {later : List Arrival} (hno : ∀ x ∈ s.history later, ¬x.SetsUp session) :
    ∀ x ∈ s.history later, (Reading.of x.body).Calls .transferCrypto session →
      x.answer = errorAnswer (noClient session) (bodyId x.body) := by
  induction later generalizing s with
  | nil => exact nofun
  | cons a rest ih =>
    obtain ⟨hfirst, hrest⟩ := List.forall_mem_cons.1 hno
    refine List.forall_mem_cons.2 ⟨fun hcalls => answer_of_noClient h hcalls, ?_⟩
    exact ih (get?_after_eq_none h hfirst) hrest

end

end Service

/-! ### Requests that overlap -/

namespace Overlap

open Service

variable {o : Overlap} {s : Service}

/-- A method that does not overlap with anything makes of the client of its session what it makes of
it in a service. A transfer puts the network in its place when it has ended. -/
theorem Owned.exists_dispatched (ho : Owned o) {session : String}
    (hs : o.client? session = Table.get? session s.sessions) {body : Bytes} {method : Method}
    {params id : Json} (hreading : Reading.of body = .call method params session id) {σ : Type}
    {transport : Transport σ} {start : Timestamp} {scene : Scene σ} {handled : Handled σ}
    (h : Dispatched s transport params session start scene method handled) :
    ∃ events o', Steps o events o' ∧ events.filterMap Event.body? = [body] ∧
      (∀ e ∈ events, e.session? = some session) ∧
      o'.client? session = Table.get? session handled.service.sessions := by
  have hposted : Steps o ([] ++ [.posted body]) (o.posted body) := .step .refl (.posted body)
  have hsession : (Event.posted body).session? = some session := congrArg Reading.session? hreading
  have hconcerns : ∀ e ∈ [Event.posted body], e.session? = some session :=
    List.forall_mem_singleton.2 hsession
  -- Posting is one step. It is followed by a second one only for a transfer, which ends at once.
  cases h with
  | @installed client described =>
    refine ⟨_, _, hposted, rfl, hconcerns, ?_⟩
    have hset : (Event.posted body).SetsUp session client := ⟨params, id, hreading, described⟩
    rw [ho.client?_steps_of_setUp hset (.posted body) .refl (List.forall_mem_nil _)]
    exact (Table.get?_insert_self session client s.sessions).symm
  | undescribed wrong =>
    refine ⟨_, _, hposted, rfl, hconcerns, ?_⟩
    simp only [Overlap.posted, hreading, wrong]
    exact hs
  | forgotten =>
    refine ⟨_, _, hposted, rfl, hconcerns, ?_⟩
    have hreset : (Event.posted body).Resets session := ⟨params, id, hreading⟩
    rw [client?_steps_of_reset hreset (.posted body) .refl (List.forall_mem_nil _)]
    exact (Table.get?_erase_self session s.sessions).symm
  | missing none =>
    have hnone : Table.get? session o.handles = .none := by
      rw [← ho.client?_eq_none_iff, hs, none]
    refine ⟨_, _, hposted, rfl, hconcerns, ?_⟩
    simp only [Overlap.posted, hreading, hnone]
    exact hs
  | undrafted found wrong =>
    refine ⟨_, _, hposted, rfl, hconcerns, ?_⟩
    simp only [Overlap.posted, hreading, wrong]
    cases Table.get? session o.handles <;> exact hs
  | @transferred client draft found drafted =>
    -- The session has a handle, since it has a client, and the transfer takes a copy.
    obtain ⟨handle, hget, -⟩ := Option.bind_eq_some_iff.1 (hs.trans found)
    -- The network at the end is the one that the transfer leaves.
    let t : Transferring := ⟨session, handle⟩
    have hbegun : o.posted body = { o with transfers := t :: o.transfers } := by
      simp only [Overlap.posted, hreading, hget, drafted, t]
    have hused := Step.used (o := o.posted body) (t := t) (by rw [hbegun]; exact List.mem_cons_self)
      (transfer transport client draft start scene).2.1.network
    refine ⟨_, _, hposted.step hused, rfl, ?_, ?_⟩
    · intro e he
      rcases List.mem_append.1 he with hfirst | hlast
      · exact hconcerns e hfirst
      · rw [List.mem_singleton.1 hlast]
        rfl
    · obtain ⟨hoperator, hconfig⟩ := transfer_client transport client draft start scene
      rw [hbegun]
      have hended := client?_used_self (o := { o with transfers := t :: o.transfers }) (t := t) hget
        (hs.trans found) (transfer transport client draft start scene).2.1.network
      rw [← hoperator, ← hconfig] at hended
      exact hended.trans (Table.get?_insert_self session _ s.sessions).symm

/-- A body that does not overlap with anything makes of all clients what it makes of them in a
service. -/
theorem Owned.exists_after (ho : Owned o)
    (hs : ∀ session, o.client? session = Table.get? session s.sessions) (a : Arrival) :
    ∃ events o', Steps o events o' ∧ events.filterMap Event.body? = [a.body] ∧
      ∀ session, o'.client? session = Table.get? session (s.after a).sessions := by
  cases hreading : Reading.of a.body with
  | call method params addressed id =>
    have ha : Addresses a.body addressed := congrArg Reading.session? hreading
    obtain ⟨events, o', hsteps, hbody, hconcerns, hclient⟩ := ho.exists_dispatched (hs addressed)
      hreading (s.dispatched a.transport method params addressed a.start a.scene)
    refine ⟨events, o', hsteps, hbody, fun session => ?_⟩
    -- The addressed session follows from the lemma on its method, and every other session is left
    -- by both.
    by_cases hsession : session = addressed
    · rw [hsession, hclient, Service.after, handle_eq, hreading]
      rfl
    · have hne : some addressed ≠ some session := fun heq => hsession (Option.some.inj heq).symm
      rw [get?_after_of_not_addresses fun hother => hne (ha.symm.trans hother), ← hs]
      exact ho.client?_steps_of_ne hsteps fun e he => by rw [hconcerns e he]; exact hne
  | _ =>
    -- A body that calls no method addresses no session, so both sides stay as they are.
    have hnone : (Reading.of a.body).session? = none := by rw [hreading]; rfl
    refine ⟨_, _, .step .refl (.posted a.body), rfl, fun session => ?_⟩
    have hne : ¬Addresses a.body session := by
      intro haddresses
      exact nomatch hnone.symm.trans haddresses
    rw [get?_after_of_not_addresses hne, (ho.posted_of_ne hne).2, hs]

/-- Where nothing overlaps, the sessions have the clients that they have in a service. -/
theorem exists_alone (arrivals : List Arrival) :
    ∃ events o, Steps {} events o ∧
      events.filterMap Event.body? = arrivals.map Arrival.body ∧
      ∀ session, o.client? session = Table.get? session (served {} arrivals).sessions := by
  induction arrivals using List.reverseRecOn with
  | nil => exact ⟨[], {}, .refl, rfl, fun _ => rfl⟩
  | append_singleton arrivals a ih =>
    -- The events of the bodies so far are continued with those of the last one.
    obtain ⟨events, o, hsteps, hbodies, hclients⟩ := ih
    obtain ⟨more, o', hmore, hbody, hafter⟩ := (owned_fresh.steps hsteps).exists_after hclients a
    refine ⟨events ++ more, o', hsteps.trans hmore, ?_, ?_⟩
    · rw [List.filterMap_append, hbodies, hbody, List.map_append, List.map_singleton]
    · rw [served_concat]
      exact hafter

end Overlap

/-! ### Isolation -/

/-- The sessions of a service are isolated from each other. The client of a session is all that
there is to it: whether there is one, who pays with it, its nodes and their records, and where its
cursor is, so also which node it would pick at any time. -/
structure Service.Isolated (s : Service) : Prop where
  /-- A body leaves the clients of all sessions that it does not address. -/
  kept : ∀ (a : Arrival) (session : String), ¬Addresses a.body session →
    Table.get? session (s.after a).sessions = Table.get? session s.sessions
  /-- The client of a session is the same if nothing is posted to other sessions. -/
  client : ∀ (arrivals : List Arrival) (session : String),
    Table.get? session (s.served arrivals).sessions =
      Table.get? session (s.served (own session arrivals)).sessions
  /-- And so are the answers to what is posted to that session. -/
  answers : ∀ (arrivals : List Arrival) (session : String),
    ((s.history arrivals).filter fun x => Addresses x.body session) =
      s.history (own session arrivals)
  /-- A setup installs a client whose network has no failures on record. -/
  setUp : ∀ (a : Arrival) (session : String), (s.answered a).SetsUp session →
    ∃ client, Table.get? session (s.after a).sessions = some client ∧ client.network.Fresh
  /-- After a reset, every transfer fails until the next setup. -/
  reset : ∀ (a : Arrival) (session : String) (later : List Arrival),
    (s.answered a).Resets session → (∀ x ∈ (s.after a).history later, ¬x.SetsUp session) →
    ∀ x ∈ (s.after a).history later, (Reading.of x.body).Calls .transferCrypto session →
      x.answer = errorAnswer (noClient session) (bodyId x.body)

/-- The sessions are isolated from each other also while transfers are in progress. -/
structure Overlap.Isolated (o : Overlap) : Prop where
  /-- Nothing that happens in other sessions changes the client of a session. -/
  kept : ∀ (session : String) (events : List Event) (o' : Overlap), o.Steps events o' →
    (∀ e ∈ events, e.session? ≠ some session) → o'.client? session = o.client? session
  /-- A setup installs a client whose network has no failures on record, and the transfers that the
  session began before do not touch it. -/
  setUp : ∀ (session : String) (client : Client) (event : Event) (events : List Event)
    (o' o'' : Overlap), event.SetsUp session client → o.Step event o' → o'.Steps events o'' →
    (∀ e ∈ events, e.session? ≠ some session ∨ ∃ t ∈ o.transfers, ∃ network, e = .used t network) →
    o''.client? session = some client ∧ client.network.Fresh
  /-- After a reset there is no client until the next setup, whatever is still in progress. -/
  reset : ∀ (session : String) (event : Event) (events : List Event) (o' o'' : Overlap),
    event.Resets session → o.Step event o' → o'.Steps events o'' →
    (∀ e ∈ events, ∀ client, ¬e.SetsUp session client) → o''.client? session = none

/-- One body after the other, the sessions are kept apart. -/
theorem Service.isolated (s : Service) : s.Isolated where
  kept _ _ h := get?_after_of_not_addresses h
  client arrivals session := s.served_own session arrivals
  answers arrivals session := s.history_own session arrivals
  setUp _ _ h := fresh_of_setsUp h
  reset _ _ _ hreset hno := transfers_fail_of_noClient (get?_after_of_resets hreset) hno

/-- They are kept apart also while transfers overlap. -/
theorem Overlap.Owned.isolated {o : Overlap} (ho : o.Owned) : o.Isolated where
  kept _ _ _ h hne := ho.client?_steps_of_ne h hne
  setUp session client event events o' o'' hset hstep h hold := by
    refine ⟨ho.client?_steps_of_setUp hset hstep h hold, ?_⟩
    cases hstep with
    | posted body =>
      obtain ⟨params, id, -, hdescribed⟩ := hset
      obtain ⟨fields, -, hclient⟩ := bind_eq_ok.1 hdescribed
      exact Service.fresh_of_clientFrom hclient
    | used begun network => cases hset
  reset _ _ _ _ _ hreset hstep h hno := client?_steps_of_reset hreset hstep h hno

/-- Sessions do not meet: in any service, whatever it is posted and however nodes answer. A body
belongs to the session that it names, or to the usual one.

That does not take requests to be handled one after the other. It is the same where transfers are in
progress while other requests are handled, in every order in which that can happen; and the services
above are what becomes of these if nothing overlaps. -/
theorem sessions_isolated :
    (∀ s : Service, s.Isolated) ∧
      (∀ body method session, (Reading.of body).Calls method session →
        session = sessionNamed body) ∧
      (∀ events o, Overlap.Steps {} events o → o.Isolated) ∧
      ∀ arrivals : List Arrival, ∃ events o, Overlap.Steps {} events o ∧
        events.filterMap Event.body? = arrivals.map Arrival.body ∧
        ∀ session, o.client? session = Table.get? session (Service.served {} arrivals).sessions :=
  ⟨Service.isolated, fun _ _ _ h => session_eq_sessionNamed h,
    fun _ _ h => (Overlap.owned_fresh.steps h).isolated, Overlap.exists_alone⟩

end Rpc

end LedgerClient
