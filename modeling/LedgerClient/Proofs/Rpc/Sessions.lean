import LedgerClient.Proofs.Json.Fields
import LedgerClient.Rpc.Http

/-!
# `LedgerClient.Proofs.Rpc.Sessions`: the clients that sessions have

Clients come into a service by `setup` alone, and only a transfer
changes one: it leaves the network as its calls left it. So whatever a
service has been asked, every session has a client with an operator and
with the default settings (`Reached.configured`). Both matter to a
transfer, which needs the operator to freeze and to sign, and whose
calls the settings bound. The network of a client that `setup` makes is
a new one (`fresh_of_clientFrom`).
-/

set_option autoImplicit false

namespace LedgerClient

variable {σ : Type}

/-- Freezing leaves a client its operator and its settings. -/
theorem Draft.freezeWith_client (d : Draft) (client : Client) (now : Time) (start : Timestamp) :
    (d.freezeWith client now start).2.operator = client.operator ∧
      (d.freezeWith client now start).2.config = client.config := by
  unfold freezeWith
  cases d.nodeIds <;> simp only <;> split <;> exact ⟨rfl, rfl⟩

/-- A network that was just made has no failures on record, and its cursor is at the first node. -/
structure Network.Fresh (net : Network) : Prop where
  health : net.health = []
  cursor : net.cursor = 0

namespace Network

/-- A network that was accepted has no failures recorded, and the default times. -/
theorem fresh_of_make {nodes : List Node} {net : Network} (h : make nodes = .ok net) :
    net.Fresh := by
  unfold make at h
  split at h
  · cases h
  · split at h
    · cases h
    · cases h
      exact ⟨rfl, rfl⟩

/-- So has one with a name. -/
theorem fresh_of_named {name : String} {net : Network} (h : named name = .ok net) : net.Fresh := by
  unfold named at h
  split at h
  · exact fresh_of_make h
  · cases h

end Network

namespace Rpc

/-- A client as a session has it: with an operator, and with the default settings. -/
structure Configured (client : Client) : Prop where
  operator : ∃ op, client.operator = some op
  config : client.config = .default

namespace Service

/-- The services that there are: one without sessions, and whatever becomes of one when it responds
to a request. -/
inductive Reached : Service → Prop
  | fresh : Reached {}
  | responded {σ : Type} {s : Service} (reached : Reached s) (transport : Transport σ)
      (method target : String) (body : Bytes) (start : Timestamp) (scene : Scene σ) :
      Reached (Http.respond s transport method target body start scene).2.1

/-- Every session has a configured client. -/
def AllConfigured (sessions : Table String Client) : Prop :=
  ∀ session client, Table.get? session sessions = some client → Configured client

variable {sessions : Table String Client}

/-- Every session still has a configured client when a configured one is stored. -/
theorem AllConfigured.insert (h : AllConfigured sessions) (session : String) {client : Client}
    (hclient : Configured client) : AllConfigured (Table.insert session client sessions) := by
  intro other client' hget
  by_cases hother : other = session
  · rw [hother, Table.get?_insert_self] at hget
    cases hget
    exact hclient
  · rw [Table.get?_insert_of_ne hother] at hget
    exact h other client' hget

/-- So it has when one is forgotten. -/
theorem AllConfigured.erase (h : AllConfigured sessions) (session : String) :
    AllConfigured (Table.erase session sessions) := by
  intro other client hget
  by_cases hother : other = session
  · rw [hother, Table.get?_erase_self] at hget
    cases hget
  · rw [Table.get?_erase_of_ne hother] at hget
    exact h other client hget

/-- The client that `setup` makes is configured. -/
theorem clientFrom_configured {params : List (String × Json)} {client : Client}
    (h : clientFrom params = .ok client) : Configured client := by
  obtain ⟨_, -, h⟩ := bind_eq_ok.1 h
  obtain ⟨accountId, -, h⟩ := bind_eq_ok.1 h
  obtain ⟨_, -, h⟩ := bind_eq_ok.1 h
  obtain ⟨key, -, h⟩ := bind_eq_ok.1 h
  obtain ⟨network, -, h⟩ := bind_eq_ok.1 h
  cases h
  exact ⟨⟨⟨accountId, key⟩, rfl⟩, rfl⟩

/-- Whatever `setup` is told about the network, it makes a new one. -/
theorem fresh_of_networkFrom {specification : Option Json} {network : Network}
    (h : networkFrom specification = .ok network) : network.Fresh := by
  unfold networkFrom at h
  -- Each way of naming a network ends in making one, and nothing has failed in a network that was
  -- just made.
  split at h
  · cases h
    exact ⟨rfl, rfl⟩
  · cases h
    exact ⟨rfl, rfl⟩
  · split at h
    next hnamed =>
      cases h
      exact Network.fresh_of_named hnamed
    · cases h
  · split at h
    · split at h
      · obtain ⟨nodes, -, hmade⟩ := bind_eq_ok.1 (mapError_eq_ok.1 h)
        exact Network.fresh_of_make hmade
      · cases h
    · cases h
  · cases h

/-- The client that `setup` makes has a network of its own. -/
theorem fresh_of_clientFrom {params : List (String × Json)} {client : Client}
    (h : clientFrom params = .ok client) : client.network.Fresh := by
  obtain ⟨_, -, h⟩ := bind_eq_ok.1 h
  obtain ⟨accountId, -, h⟩ := bind_eq_ok.1 h
  obtain ⟨_, -, h⟩ := bind_eq_ok.1 h
  obtain ⟨key, -, h⟩ := bind_eq_ok.1 h
  obtain ⟨network, hnetwork, h⟩ := bind_eq_ok.1 h
  cases h
  exact ⟨(fresh_of_networkFrom hnetwork).health, (fresh_of_networkFrom hnetwork).cursor⟩

/-- A transfer leaves a client its operator and its settings. -/
theorem transfer_client (transport : Transport σ) (client : Client) (draft : Draft)
    (start : Timestamp) (scene : Scene σ) :
    (transfer transport client draft start scene).2.1.operator = client.operator ∧
      (transfer transport client draft start scene).2.1.config = client.config := by
  have hfrozen := draft.freezeWith_client client scene.now start
  unfold transfer
  -- The client after a transfer is the one after freezing, up to the network.
  split
  next hfreeze =>
    rw [hfreeze] at hfrozen
    exact hfrozen
  next hfreeze =>
    rw [hfreeze] at hfrozen
    simp only
    split <;> exact hfrozen

variable {s : Service}

/-- Whatever a method does, every session has a configured client afterwards. -/
theorem dispatch_configured (h : AllConfigured s.sessions) (transport : Transport σ)
    (method : Method) (params : Json) (session : String) (start : Timestamp) (scene : Scene σ) :
    AllConfigured (s.dispatch transport method params session start scene).service.sessions := by
  -- A setup installs a configured client, a reset only takes one away, and a transfer keeps what
  -- makes one configured.
  cases method with
  | setup =>
    unfold dispatch
    simp only
    cases hsetup : s.setup params session with
    | error e => exact h
    | ok answer =>
      obtain ⟨fields, -, hsetup⟩ := bind_eq_ok.1 hsetup
      obtain ⟨client, hclient, hsetup⟩ := bind_eq_ok.1 hsetup
      cases hsetup
      exact h.insert session (clientFrom_configured hclient)
  | reset => exact h.erase session
  | transferCrypto =>
    show AllConfigured (s.transferCrypto transport params session start scene).service.sessions
    unfold transferCrypto
    cases hget : Table.get? session s.sessions with
    | none => exact h
    | some client =>
      simp only
      split
      · exact h
      next draft _ =>
        obtain ⟨hoperator, hconfig⟩ := transfer_client transport client draft start scene
        obtain ⟨op, hop⟩ := (h session client hget).operator
        exact h.insert session
          ⟨⟨op, hoperator.trans hop⟩, hconfig.trans (h session client hget).config⟩

/-- Whatever a request does, every session has a configured client afterwards. -/
theorem handleRequest_configured (h : AllConfigured s.sessions) (transport : Transport σ)
    (request : Request) (start : Timestamp) (scene : Scene σ) :
    AllConfigured (s.handleRequest transport request start scene).2.1.sessions := by
  unfold handleRequest
  cases Method.parse request.method with
  | error e => exact h
  | ok method =>
    have hdispatch := dispatch_configured h transport method request.params
      (request.sessionId.getD defaultSession) start scene
    simp only
    split <;> exact hdispatch

/-- Whatever a body does, every session has a configured client afterwards. -/
theorem handle_configured (h : AllConfigured s.sessions) (transport : Transport σ) (body : Bytes)
    (start : Timestamp) (scene : Scene σ) :
    AllConfigured (s.handle transport body start scene).2.1.sessions := by
  unfold handle
  split
  · exact h
  · unfold handleText
    split
    · exact h
    · exact handleRequest_configured h transport _ start scene

/-- Whatever a service has answered, every session has a configured client. -/
theorem Reached.configured (h : s.Reached) : AllConfigured s.sessions := by
  induction h with
  | fresh => exact nofun
  -- Only a body within the limit reaches the service.
  | responded _ transport method target body start scene ih =>
    unfold Http.respond
    split
    · split
      · exact ih
      · split
        · exact ih
        · exact handle_configured ih transport body start scene
    · exact ih
    · exact ih
    · exact ih

end Service

end Rpc

end LedgerClient
