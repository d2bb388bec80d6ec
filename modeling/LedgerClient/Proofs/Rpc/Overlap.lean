import LedgerClient.Proofs.Rpc.Serving

/-!
# `LedgerClient.Proofs.Rpc.Overlap`: requests that overlap

A transfer takes a while, and meanwhile other requests are handled, also
some of its own session, which may be set up anew or reset. So what is
stored for a session is no more than a handle, which says where in memory
the network is, and a transfer in progress has a copy of it: whatever the
transfer makes of its network, everybody who has the handle sees.

`Overlap` is a service as such requests see it. A transfer in progress
may at any time replace the network that its handle means, by any other
network at all; nothing that is said here depends on which. That it does
so only there is what the handle is for.

Every network belongs to the session for which it was made: no other
session and no transfer of another session has a handle of it (`Owned`).
So no session sees what happens in another (`client?_steps_of_ne`), and a
client that was just set up is not touched by the transfers that its
session began before (`client?_steps_of_installed`).

Where nothing overlaps, the clients are those of `Service`
(`Overlap.exists_alone` in `LedgerClient.Proofs.Rpc.Isolation`).
-/

set_option autoImplicit false

namespace LedgerClient.Rpc

/-- A client as it is stored and passed on: where its network is, and what it has of its own. -/
structure Handle where
  place : Nat
  operator : Option Operator
  config : ClientConfig

/-- A network in memory, with the session for which it was made. Nothing depends on that. -/
structure Cell where
  session : String
  network : Network

/-- A transfer in progress: the session in which it was requested, and its copy of the handle. -/
structure Transferring where
  session : String
  handle : Handle

/-- A service with the networks in memory and the transfers in progress. One that has ended counts
as one that does nothing any more. -/
structure Overlap where
  cells : List Cell := []
  handles : Table String Handle := []
  transfers : List Transferring := []

/-- What happens: a body is posted, or a transfer in progress does something to its network. -/
inductive Event where
  | posted (body : Bytes)
  | used (t : Transferring) (network : Network)

namespace Event

/-- The body that is posted, if one is. -/
def body? : Event → Option Bytes
  | posted body => some body
  | used _ _ => none

/-- The session in which it happens, if in any. -/
def session? : Event → Option String
  | posted body => (Reading.of body).session?
  | used t _ => some t.session

/-- A session is set up, with parameters that describe a client. -/
def SetsUp (session : String) (client : Client) : Event → Prop
  | posted body => ∃ params id, Reading.of body = .call .setup params session id ∧
      Service.clientOf params = .ok client
  | used _ _ => False

/-- A session is reset. -/
def Resets (session : String) : Event → Prop
  | posted body => (Reading.of body).Calls .reset session
  | used _ _ => False

end Event

namespace Overlap

open Service (clientOf draftOf)

/-- The client that a handle means. -/
def clientAt (o : Overlap) (handle : Handle) : Option Client :=
  o.cells[handle.place]?.map fun cell => ⟨cell.network, handle.operator, handle.config⟩

/-- The client of a session. -/
def client? (o : Overlap) (session : String) : Option Client :=
  (Table.get? session o.handles).bind o.clientAt

/-- The handle of a client that is about to be stored: its network gets a place of its own. -/
def newHandle (o : Overlap) (client : Client) : Handle :=
  ⟨o.cells.length, client.operator, client.config⟩

/-- A body is posted. A transfer that is not turned down takes its copy of the handle. -/
def posted (o : Overlap) (body : Bytes) : Overlap :=
  match Reading.of body with
  | .call .setup params session _ =>
    match clientOf params with
    | .ok client =>
      { o with
        cells := o.cells ++ [⟨session, client.network⟩]
        handles := Table.insert session (o.newHandle client) o.handles }
    | .error _ => o
  | .call .reset _ session _ => { o with handles := Table.erase session o.handles }
  | .call .transferCrypto params session _ =>
    match Table.get? session o.handles, draftOf params with
    | some handle, .ok _ => { o with transfers := ⟨session, handle⟩ :: o.transfers }
    | _, _ => o
  | .rejected _ | .unknown _ => o

/-- A transfer puts another network in the place that its handle means. -/
def used (o : Overlap) (t : Transferring) (network : Network) : Overlap :=
  { o with
    cells := o.cells.modify t.handle.place fun cell => { cell with network := network } }

/-- One thing happens. -/
inductive Step (o : Overlap) : Event → Overlap → Prop
  | posted (body : Bytes) : Step o (.posted body) (o.posted body)
  | used {t : Transferring} (begun : t ∈ o.transfers) (network : Network) :
      Step o (.used t network) (o.used t network)

/-- Some things happen one after the other. -/
inductive Steps (o : Overlap) : List Event → Overlap → Prop
  | refl : Steps o [] o
  | step {o' o'' : Overlap} {events : List Event} {event : Event} (steps : Steps o events o')
      (last : Step o' event o'') : Steps o (events ++ [event]) o''

/-- Events that follow each other are one course of events. -/
theorem Steps.trans {o o' o'' : Overlap} {events more : List Event} (h : Steps o events o')
    (hmore : Steps o' more o'') : Steps o (events ++ more) o'' := by
  induction hmore with
  | refl =>
    rw [List.append_nil]
    exact h
  | step _ last ih =>
    rw [← List.append_assoc]
    exact ih.step last

/-- A handle means a network that was made for a session. -/
def Means (o : Overlap) (handle : Handle) (session : String) : Prop :=
  ∃ cell, o.cells[handle.place]? = some cell ∧ cell.session = session

/-- Every network belongs to one session: whoever has a handle of it is that session, or one of its
transfers. -/
structure Owned (o : Overlap) : Prop where
  handles : ∀ session handle, Table.get? session o.handles = some handle → o.Means handle session
  transfers : ∀ t ∈ o.transfers, o.Means t.handle t.session

variable {o o' : Overlap} {session : String} {handle : Handle} {t : Transferring} {event : Event}
  {events : List Event} {client : Client}

/-! ### Who owns what -/

/-- Where nothing has been posted, nothing is under way. -/
theorem owned_fresh : Owned {} := ⟨nofun, nofun⟩

/-- A place keeps its owner when another network is put there, or anywhere. -/
theorem Means.used (h : o.Means handle session) (t : Transferring) (network : Network) :
    (o.used t network).Means handle session := by
  obtain ⟨cell, hcell, rfl⟩ := h
  unfold Means Overlap.used
  rw [List.getElem?_modify, hcell]
  split
  · exact ⟨_, rfl, rfl⟩
  · exact ⟨_, rfl, rfl⟩

/-- A place keeps its owner when others are added. -/
theorem Means.append (h : o.Means handle session) (cell : Cell) (handles : Table String Handle)
    (transfers : List Transferring) :
    Means ⟨o.cells ++ [cell], handles, transfers⟩ handle session := by
  obtain ⟨old, hold, hsession⟩ := h
  refine ⟨old, ?_, hsession⟩
  rw [List.getElem?_append_left (List.getElem?_eq_some_iff.1 hold).1]
  exact hold

/-- A network that is made has a place that no handle means so far. -/
theorem Means.place_lt (h : o.Means handle session) : handle.place < o.cells.length := by
  obtain ⟨cell, hcell, -⟩ := h
  exact (List.getElem?_eq_some_iff.1 hcell).1

/-- No body makes two owners. -/
theorem Owned.posted (ho : Owned o) (body : Bytes) : Owned (o.posted body) := by
  unfold Overlap.posted
  -- Only a setup adds a place and only a reset takes a handle away. A transfer shares the place of
  -- its session.
  split
  next params session id _ =>
    split
    next client _ =>
      refine ⟨fun other handle hget => ?_, fun t ht => (ho.transfers t ht).append _ _ _⟩
      by_cases hother : other = session
      · rw [hother, Table.get?_insert_self] at hget
        cases hget
        -- The new place is the last one, and it is owned by the session that was set up.
        exact ⟨⟨session, client.network⟩, List.getElem?_concat_length, hother.symm⟩
      · rw [Table.get?_insert_of_ne hother] at hget
        exact (ho.handles other handle hget).append _ _ _
    · exact ho
  next params session id _ =>
    refine ⟨fun other handle hget => ?_, ho.transfers⟩
    by_cases hother : other = session
    · rw [hother, Table.get?_erase_self] at hget
      cases hget
    · rw [Table.get?_erase_of_ne hother] at hget
      exact ho.handles other handle hget
  next params session id _ =>
    split
    next handle draft hget _ =>
      refine ⟨ho.handles, fun t ht => ?_⟩
      -- The transfer that begins has the handle of its session, which has an owner already.
      rcases List.mem_cons.1 ht with rfl | hold
      · exact ho.handles session handle hget
      · exact ho.transfers t hold
    · exact ho
  · exact ho
  · exact ho

/-- Nothing that happens makes two owners. -/
theorem Owned.step (ho : Owned o) (h : Step o event o') : Owned o' := by
  cases h with
  | posted body => exact ho.posted body
  | used begun network =>
    exact ⟨fun session handle hget => (ho.handles session handle hget).used _ network,
      fun t ht => (ho.transfers t ht).used _ network⟩

/-- So everything under way belongs to its session, however things go on. -/
theorem Owned.steps (ho : Owned o) (h : Steps o events o') : Owned o' := by
  induction h with
  | refl => exact ho
  | step _ last ih => exact ih.step last

/-! ### What happens in other sessions -/

/-- The client of a session that has a handle. -/
theorem client?_eq (h : Table.get? session o.handles = some handle) :
    o.client? session = o.clientAt handle := by
  rw [client?, h, Option.bind_some]

/-- A session has a client if it has a handle. -/
theorem Owned.client?_eq_none_iff (ho : Owned o) :
    o.client? session = none ↔ Table.get? session o.handles = none := by
  cases hget : Table.get? session o.handles with
  | none => simp [client?, hget]
  | some handle =>
    obtain ⟨cell, hcell, -⟩ := ho.handles session handle hget
    simp [client?_eq hget, clientAt, hcell]

/-- A network that is put elsewhere changes no client. -/
theorem clientAt_used_of_ne (h : handle.place ≠ t.handle.place) (network : Network) :
    (o.used t network).clientAt handle = o.clientAt handle := by
  unfold clientAt Overlap.used
  show Option.map _ (o.cells.modify _ _)[_]? = _
  rw [List.getElem?_modify_ne _ _ (Ne.symm h)]

/-- A session whose handle a transfer has sees the network that the transfer puts in its place. -/
theorem client?_used_self (hget : Table.get? t.session o.handles = some t.handle)
    (h : o.client? t.session = some client) (network : Network) :
    (o.used t network).client? t.session = some ⟨network, client.operator, client.config⟩ := by
  rw [client?_eq hget, clientAt] at h
  obtain ⟨cell, hcell, rfl⟩ := Option.map_eq_some_iff.1 h
  rw [client?_eq (show Table.get? t.session (o.used t network).handles = _ from hget)]
  show Option.map _ (o.cells.modify _ _)[_]? = _
  rw [List.getElem?_modify_eq, hcell]
  rfl

/-- More networks change no client that there is. -/
theorem Means.clientAt_append (h : o.Means handle session) (cell : Cell)
    (handles : Table String Handle) (transfers : List Transferring) :
    clientAt ⟨o.cells ++ [cell], handles, transfers⟩ handle = o.clientAt handle := by
  unfold clientAt
  rw [List.getElem?_append_left h.place_lt]

/-- A body that is posted in another session leaves the handle and the client. -/
theorem Owned.posted_of_ne (ho : Owned o) {body : Bytes}
    (hne : (Reading.of body).session? ≠ some session) :
    Table.get? session (o.posted body).handles = Table.get? session o.handles ∧
      (o.posted body).client? session = o.client? session := by
  unfold Overlap.posted
  split
  next params addressed id hreading =>
    have hother : session ≠ addressed := by
      rintro rfl
      exact hne (congrArg Reading.session? hreading)
    split
    -- A new place does not move the others, so what the handle of another session means stays.
    next client _ =>
      have hget : Table.get? session (Table.insert addressed (o.newHandle client) o.handles) =
          Table.get? session o.handles := Table.get?_insert_of_ne hother _ _
      refine ⟨hget, ?_⟩
      cases hhandle : Table.get? session o.handles with
      | none => simp only [client?, hget, hhandle, Option.bind_none]
      | some handle =>
        rw [client?_eq (hget.trans hhandle), client?_eq hhandle]
        exact (ho.handles session handle hhandle).clientAt_append _ _ _
    · exact ⟨rfl, rfl⟩
  next params addressed id hreading =>
    have hother : session ≠ addressed := by
      rintro rfl
      exact hne (congrArg Reading.session? hreading)
    have hget : Table.get? session (Table.erase addressed o.handles) =
        Table.get? session o.handles := Table.get?_erase_of_ne hother _
    refine ⟨hget, ?_⟩
    simp only [client?, hget]
    rfl
  next params addressed id _ => split <;> exact ⟨rfl, rfl⟩
  · exact ⟨rfl, rfl⟩
  · exact ⟨rfl, rfl⟩

/-- Nothing that happens in another session changes the handle or the client of a session. -/
theorem Owned.step_of_ne (ho : Owned o) (h : Step o event o')
    (hne : event.session? ≠ some session) :
    Table.get? session o'.handles = Table.get? session o.handles ∧
      o'.client? session = o.client? session := by
  cases h with
  | posted body => exact ho.posted_of_ne hne
  | @used t begun network =>
    refine ⟨rfl, ?_⟩
    -- A transfer ends in some other session. The handles stay, so only the place that it writes to
    -- matters.
    cases hhandle : Table.get? session o.handles with
    | none => rw [client?, client?, show Table.get? session (o.used t network).handles = none
        from hhandle, hhandle]; rfl
    | some handle =>
      rw [client?_eq (show Table.get? session (o.used t network).handles = some handle
        from hhandle), client?_eq hhandle]
      -- A place with two handles has one owner, so these two are of one session.
      refine clientAt_used_of_ne (fun hplace => hne ?_) network
      obtain ⟨cell, hcell, hsession⟩ := ho.handles session handle hhandle
      obtain ⟨cell', hcell', hsession'⟩ := ho.transfers t begun
      rw [hplace, hcell'] at hcell
      cases hcell
      exact congrArg some (hsession'.symm.trans hsession)

/-- However much happens in other sessions, a session keeps its client. -/
theorem Owned.client?_steps_of_ne (ho : Owned o) (h : Steps o events o')
    (hne : ∀ e ∈ events, e.session? ≠ some session) : o'.client? session = o.client? session := by
  induction h with
  | refl => rfl
  | step steps last ih =>
    rw [List.forall_mem_append] at hne
    have hlast := hne.2 _ (List.mem_singleton_self _)
    exact ((ho.steps steps).step_of_ne last hlast).2.trans (ih hne.1)

/-! ### What happens after a setup and after a reset -/

/-- After a setup, a session has the client that was described, whatever happens in other sessions
and whatever the transfers do that were in progress before. -/
theorem Owned.client?_steps_of_setUp (ho : Owned o) (hset : event.SetsUp session client)
    (hstep : Step o event o') {o'' : Overlap} (h : Steps o' events o'')
    (hold : ∀ e ∈ events, e.session? ≠ some session ∨
      ∃ t ∈ o.transfers, ∃ network, e = .used t network) :
    o''.client? session = some client := by
  cases hstep with
  | used begun network => cases hset
  | posted body =>
    obtain ⟨params, id, hreading, hdescribed⟩ := hset
    have hposted : o.posted body =
        { o with
          cells := o.cells ++ [⟨session, client.network⟩]
          handles := Table.insert session (o.newHandle client) o.handles } := by
      simp only [Overlap.posted, hreading, hdescribed]
    -- The handle is the new one, and it means what was stored.
    -- The induction is over what happens after the setup, and it has to carry the handle along with
    -- the client.
    suffices hkept : Table.get? session o''.handles = some (o.newHandle client) ∧
        o''.client? session = some client from hkept.2
    induction h with
    | refl =>
      have hget : Table.get? session (o.posted body).handles = some (o.newHandle client) := by
        rw [hposted]
        exact Table.get?_insert_self _ _ _
      refine ⟨hget, ?_⟩
      rw [client?_eq hget, clientAt, hposted]
      show Option.map _ (o.cells ++ [_])[o.cells.length]? = _
      rw [List.getElem?_concat_length]
      rfl
    | @step o₁ o₂ events event steps last ih =>
      rw [List.forall_mem_append] at hold
      obtain ⟨hget, hclient⟩ := ih hold.1
      have howned : Owned o₁ := (ho.posted body).steps steps
      rcases hold.2 event (List.mem_singleton_self event) with hne | ⟨t, ht, network, rfl⟩
      · obtain ⟨hhandles, hkept⟩ := howned.step_of_ne last hne
        exact ⟨hhandles.trans hget, hkept.trans hclient⟩
      · cases last
        refine ⟨hget, ?_⟩
        rw [client?_eq hget] at hclient
        rw [client?_eq (show Table.get? session (o₁.used t network).handles = _ from hget)]
        -- The transfer began before, so its handle means an older place.
        rw [clientAt_used_of_ne (Nat.ne_of_gt (ho.transfers t ht).place_lt) network]
        exact hclient

/-- After a reset, a session has no client until it is set up, whatever else happens. -/
theorem client?_steps_of_reset (hreset : event.Resets session) (hstep : Step o event o')
    {o'' : Overlap} (h : Steps o' events o'')
    (hno : ∀ e ∈ events, ∀ client, ¬e.SetsUp session client) :
    o''.client? session = none := by
  -- No handle is a stronger fact than no client, and it is the one that steps keep.
  suffices hnone : Table.get? session o''.handles = none by
    rw [client?, hnone, Option.bind_none]
  induction h with
  | refl =>
    cases hstep with
    | used begun network => cases hreset
    | posted body =>
      obtain ⟨params, id, hreading⟩ := hreset
      simp only [Overlap.posted, hreading]
      exact Table.get?_erase_self _ _
  | @step o₁ o₂ events event steps last ih =>
    rw [List.forall_mem_append] at hno
    have hnone := ih hno.1
    have hnot := hno.2 event (List.mem_singleton_self event)
    cases last with
    | used begun network => exact hnone
    | posted body =>
      unfold Overlap.posted
      split
      next params addressed id hreading =>
        split
        -- A setup of the same session is excluded, so this one is of another.
        next client hdescribed =>
          have hne : session ≠ addressed := by
            rintro rfl
            exact hnot client ⟨params, id, hreading, hdescribed⟩
          exact (Table.get?_insert_of_ne hne _ _).trans hnone
        · exact hnone
      next params addressed id _ =>
        by_cases hsame : session = addressed
        · rw [hsame]
          exact Table.get?_erase_self _ _
        · exact (Table.get?_erase_of_ne hsame _).trans hnone
      next => split <;> exact hnone
      · exact hnone
      · exact hnone

end Overlap

end LedgerClient.Rpc
