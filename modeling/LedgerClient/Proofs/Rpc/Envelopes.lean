import LedgerClient.Proofs.Json.Kept
import LedgerClient.Rpc.Envelope

/-!
# `LedgerClient.Proofs.Rpc.Envelopes`: which bodies are requests

A body is read and then its envelope is checked. `SoundEnvelope` says what the
check asks of an object, in terms of the fields that the object has:
those that were kept, so that of several with one name only the last
counts. `Lifts` says what is taken out of the parameters, and what is
left.

* `Request.splitSession_eq_some_iff`: taking out the session is `Lifts`.
* `Request.ofFields?_eq_some_iff`: what is made of an object without its
  id.
* `Request.parse_eq_ok_iff` and `Request.of_parse_eq_error` take the
  reading of a body apart. A body is turned down as no JSON text before
  anything is checked, and with the id of the object in every other
  case.
-/

set_option autoImplicit false

namespace LedgerClient.Rpc

open Json (names exists_split eq_of_once filter_of_missing filter_of_once)

/-! ### What a request may be -/

/-- Parameters that a request may have: null, a list, or an object whose session, if it has that
field, is null or a text. -/
inductive Admissible : Json → Prop
  | null : Admissible .null
  | list (items : List Json) : Admissible (.list items)
  | record {members : List (String × Json)} (session : ∀ value, ("sessionId", value) ∈ members →
      value = .null ∨ ∃ id, value = .text id) : Admissible (.record members)

/-- An object is a request: it has the version, a method, an id, which may be anything, and no
parameters or parameters that a request may have. -/
structure SoundEnvelope (fields : List (String × Json)) : Prop where
  version : ("jsonrpc", .text "2.0") ∈ fields
  method : ∃ name, ("method", .text name) ∈ fields
  id : ∃ id, ("id", id) ∈ fields
  params : ∀ params, ("params", params) ∈ fields → Admissible params

/-- The parameters of an object. Absent ones are null. -/
inductive Given (fields : List (String × Json)) : Json → Prop
  | present {params : Json} (member : ("params", params) ∈ fields) : Given fields params
  | absent (missing : "params" ∉ names fields) : Given fields .null

/-- Parameters, what is left of them when the session is taken out, and the session. Only the field
of the object itself is taken out, and nothing else is changed. -/
inductive Lifts : Json → Json → Option String → Prop
  | null : Lifts .null .null none
  | list (items : List Json) : Lifts (.list items) (.list items) none
  | unnamed {members : List (String × Json)} (missing : "sessionId" ∉ names members) :
      Lifts (.record members) (.record members) none
  | cleared {before after : List (String × Json)}
      (once : "sessionId" ∉ names (before ++ after)) :
      Lifts (.record (before ++ ("sessionId", .null) :: after)) (.record (before ++ after)) none
  | named {before after : List (String × Json)} (id : String)
      (once : "sessionId" ∉ names (before ++ after)) :
      Lifts (.record (before ++ ("sessionId", .text id) :: after)) (.record (before ++ after))
        (some id)

/-- The id that is repeated when a body is turned down that was read: that of an object which has
one, and otherwise null. -/
inductive Repeats : Json → Json → Prop
  | id {fields : List (String × Json)} {id : Json} (member : ("id", id) ∈ fields) :
      Repeats (.record fields) id
  | missing {fields : List (String × Json)} (missing : "id" ∉ names fields) :
      Repeats (.record fields) .null
  | noObject {json : Json} (other : ∀ fields, json ≠ .record fields) : Repeats json .null

/-! ### The session -/

section
variable {params rest : Json} {session : Option String} {fields : List (String × Json)}

/-- What is left of an object is told by the session that it has. -/
theorem lifts_record_iff (hdistinct : (names fields).Nodup) :
    Lifts (.record fields) rest session ↔
      rest = .record (fields.filter fun f => f.1 ≠ "sessionId") ∧
        ((session = none ∧ ("sessionId" ∉ names fields ∨ ("sessionId", .null) ∈ fields)) ∨
          ∃ id, session = some id ∧ ("sessionId", .text id) ∈ fields) := by
  constructor
  · intro h
    cases h with
    | unnamed missing => exact ⟨by rw [filter_of_missing missing], .inl ⟨rfl, .inl missing⟩⟩
    | cleared once => exact ⟨by rw [filter_of_once once], .inl ⟨rfl, .inr (by simp)⟩⟩
    | named id once => exact ⟨by rw [filter_of_once once], .inr ⟨id, rfl, by simp⟩⟩
  · rintro ⟨rfl, ⟨rfl, hmissing | hnull⟩ | ⟨id, rfl, hid⟩⟩
    · rw [filter_of_missing hmissing]
      exact .unnamed hmissing
    · -- A name stands in an object once, so the field splits the others in two and taking it out
      -- leaves both parts.
      obtain ⟨before, after, rfl, once⟩ := exists_split hdistinct hnull
      rw [filter_of_once once]
      exact .cleared once
    · obtain ⟨before, after, rfl, once⟩ := exists_split hdistinct hid
      rw [filter_of_once once]
      exact .named id once

/-- The session is taken out of parameters, and nothing else is. -/
theorem Request.splitSession_eq_some_iff (hkept : params.Kept) :
    splitSession params = some (rest, session) ↔ Lifts params rest session := by
  cases hkept with
  | null =>
    constructor
    · rintro ⟨⟩
      exact .null
    · rintro ⟨⟩
      rfl
  | list =>
    constructor
    · rintro ⟨⟩
      exact .list _
    · rintro ⟨⟩
      rfl
  -- Only here is a field looked for, and distinct names make looking it up the same as its standing
  -- among the fields.
  | @record fields sorted _ =>
    rw [lifts_record_iff sorted.nodup]
    simp only [← Json.field?_eq_some_iff sorted.nodup, ← Json.field?_eq_none_iff]
    unfold splitSession
    simp only
    split
    next h => simp [h, eq_comm]
    next h => simp [h, eq_comm]
    next id h => simp [h, eq_comm]
    next value hnull htext h =>
      -- There is a session, but it is neither null nor a text.
      have hnone : value ≠ .null := hnull
      have hid (id : String) : value ≠ .text id := htext id
      simp [h, hnone, hid]
  | _ => exact ⟨nofun, nofun⟩

/-- Parameters that a request may have are those that a session can be taken out of. -/
theorem admissible_iff (hkept : params.Kept) :
    Admissible params ↔ ∃ rest session, Lifts params rest session := by
  constructor
  · intro h
    cases h with
    | null => exact ⟨_, _, .null⟩
    | list items => exact ⟨_, _, .list items⟩
    | @record members hsession =>
      -- Whether the name stands there decides between the two ways of having no session and the
      -- named one.
      by_cases hnamed : "sessionId" ∈ names members
      · obtain ⟨value, hvalue⟩ := Json.exists_of_mem_names hnamed
        obtain ⟨before, after, rfl, once⟩ := exists_split hkept.nodup hvalue
        rcases hsession value hvalue with rfl | ⟨id, rfl⟩
        · exact ⟨_, _, .cleared once⟩
        · exact ⟨_, _, .named id once⟩
      · exact ⟨_, _, .unnamed hnamed⟩
  · rintro ⟨rest, session, h⟩
    cases h with
    | null => exact .null
    | list items => exact .list items
    | unnamed missing =>
      exact .record fun value hvalue => absurd (Json.mem_names_of_mem hvalue) missing
    | cleared once => exact .record fun value hvalue => .inl (eq_of_once once hvalue)
    | named id once => exact .record fun value hvalue => .inr ⟨id, eq_of_once once hvalue⟩

/-! ### The envelope -/

/-- The parameters of an object are found under their name. -/
theorem given_iff (hdistinct : (names fields).Nodup) :
    Given fields params ↔ (Json.field? "params" fields).getD .null = params := by
  constructor
  · rintro (member | missing)
    · rw [(Json.field?_eq_some_iff hdistinct).2 member, Option.getD_some]
    · rw [Json.field?_eq_none_iff.2 missing, Option.getD_none]
  · rintro rfl
    cases hfield : Json.field? "params" fields with
    | none => exact .absent (Json.field?_eq_none_iff.1 hfield)
    | some value => exact .present (Json.mem_of_field? hfield)

/-- Parameters that are given are kept like all of an object. -/
theorem Given.kept (hkept : (Json.record fields).Kept) (h : Given fields params) : params.Kept := by
  cases h with
  | present member =>
    cases hkept with
    | record _ fields_kept => exact fields_kept _ _ member
  | absent => exact .null

/-- A value is a text exactly if it is that text. -/
theorem bind_text?_eq_some_iff {name text : String} (hdistinct : (names fields).Nodup) :
    (Json.field? name fields).bind Json.text? = some text ↔ (name, .text text) ∈ fields := by
  rw [← Json.field?_eq_some_iff hdistinct, Option.bind_eq_some_iff]
  constructor
  · rintro ⟨value, hvalue, htext⟩
    cases value <;> cases htext
    exact hvalue
  · exact fun h => ⟨_, h, rfl⟩

/-- What is made of an object without its id. -/
theorem Request.ofFields?_eq_some_iff (hkept : (Json.record fields).Kept) {method : String} :
    ofFields? fields = some (method, rest, session) ↔
      ("jsonrpc", .text "2.0") ∈ fields ∧ ("method", .text method) ∈ fields ∧
        ∃ params, Given fields params ∧ Lifts params rest session := by
  have hdistinct := hkept.nodup
  have hparams {params : Json} (h : (Json.field? "params" fields).getD .null = params) :
      splitSession params = some (rest, session) ↔ Lifts params rest session :=
    splitSession_eq_some_iff (((given_iff hdistinct).2 h).kept hkept)
  -- Both sides are brought to what the three lookups find, and every lookup that finds nothing
  -- makes both false.
  simp only [given_iff hdistinct, ← bind_text?_eq_some_iff hdistinct, exists_eq_left',
    ← hparams rfl]
  unfold ofFields?
  cases (Json.field? "jsonrpc" fields).bind Json.text? with
  | none => simp
  | some version =>
    cases (Json.field? "method" fields).bind Json.text? with
    | none => simp
    | some name =>
      cases splitSession ((Json.field? "params" fields).getD .null) with
      | none => simp
      | some split =>
        by_cases hversion : version = "2.0" <;> simp [hversion, Prod.ext_iff]

/-- A body is a request exactly if it is read as an object with an id of which one can be made. -/
theorem Request.parse_eq_ok_iff {body : String} {request : Request} :
    parse body = .ok request ↔ ∃ fields, Json.read? body = some (.record fields) ∧
      Json.field? "id" fields = some request.id ∧
        ofFields? fields = some (request.method, request.params, request.sessionId) := by
  unfold parse
  constructor
  · -- The match on the id and on what is made of the fields has one branch that succeeds.
    intro h
    split at h
    · cases h
    next fields hread =>
      split at h
      · cases h
      · cases h
      next id method params session hid hfields =>
        cases h
        exact ⟨fields, hread, hid, hfields⟩
    · cases h
  · rintro ⟨fields, hread, hid, hfields⟩
    simp only [hread, hid, hfields]

/-- A body is turned down because it is no JSON text, or is read and is no request. -/
theorem Request.of_parse_eq_error {body : String} {rejection : Rejection}
    (h : parse body = .error rejection) :
    (Json.read? body = none ∧ rejection = ⟨.parseError, .null⟩) ∨
      ∃ json, Json.read? body = some json ∧ rejection.error = .invalidRequest ∧
        Repeats json rejection.id := by
  unfold parse at h
  -- One case for each branch of the match: no text, an object without an id, an object with one,
  -- and no object.
  split at h
  next hread =>
    cases h
    exact .inl ⟨hread, rfl⟩
  next fields hread =>
    split at h
    next hid =>
      cases h
      exact .inr ⟨_, hread, rfl, .missing (Json.field?_eq_none_iff.1 hid)⟩
    next id hid hfields =>
      cases h
      exact .inr ⟨_, hread, rfl, .id (Json.mem_of_field? hid)⟩
    · cases h
  next json hother hread =>
    cases h
    exact .inr ⟨json, hread, rfl, .noObject fun fields heq => hother fields heq⟩

/-- An object is a request exactly if it has an id and something is made of it. -/
theorem soundEnvelope_iff (hkept : (Json.record fields).Kept) :
    SoundEnvelope fields ↔ ∃ id method rest session, Json.field? "id" fields = some id ∧
      Request.ofFields? fields = some (method, rest, session) := by
  have hdistinct := hkept.nodup
  simp only [Request.ofFields?_eq_some_iff hkept]
  constructor
  · rintro ⟨version, ⟨method, hmethod⟩, ⟨id, hid⟩, hparams⟩
    have hfield := (Json.field?_eq_some_iff hdistinct).2 hid
    -- Parameters are given in any case: a missing field stands for null.
    obtain ⟨params, hgiven⟩ : ∃ params, Given fields params := ⟨_, (given_iff hdistinct).2 rfl⟩
    have hadmissible : Admissible params := by
      cases hgiven with
      | present member => exact hparams _ member
      | absent => exact .null
    obtain ⟨rest, session, hlifts⟩ := (admissible_iff (hgiven.kept hkept)).1 hadmissible
    exact ⟨id, method, rest, session, hfield, version, hmethod, params, hgiven, hlifts⟩
  · rintro ⟨id, method, rest, session, hid, version, hmethod, params, hgiven, hlifts⟩
    refine ⟨version, ⟨method, hmethod⟩, ⟨id, Json.mem_of_field? hid⟩, fun params' hparams' => ?_⟩
    -- The fields have distinct names, so no other parameters are given.
    have hsame : params = params' := by
      rw [← (given_iff hdistinct).1 hgiven, ← (given_iff hdistinct).1 (.present hparams')]
    rw [← hsame]
    exact (admissible_iff (hgiven.kept hkept)).2 ⟨rest, session, hlifts⟩

end

/-- Envelopes are checked exactly. Whatever the body, the JSON value that is read from it has each
name once at every depth. It is a request exactly if that value is an object with the version, a
method, an id, and parameters as they may be. The request then has the method and the id of the
object, and its parameters without the session, and the session that they named. Otherwise the body
is turned down: with a null id and as no JSON text exactly if it is none, and as no request and with
the id of the object if it is one. -/
theorem envelopes_checked_exactly (body : String) :
    (∀ json, Json.read? body = some json → json.Kept) ∧
      ((∃ request, Request.parse body = .ok request) ↔
        ∃ fields, Json.read? body = some (.record fields) ∧ SoundEnvelope fields) ∧
      (∀ request, Request.parse body = .ok request →
        ∃ fields params, Json.read? body = some (.record fields) ∧
          ("method", .text request.method) ∈ fields ∧ ("id", request.id) ∈ fields ∧
          Given fields params ∧ Lifts params request.params request.sessionId) ∧
      ∀ rejection, Request.parse body = .error rejection →
        ((rejection.error.code = -32700 ∧ rejection.id = .null) ↔ Json.read? body = none) ∧
        ∀ json, Json.read? body = some json →
          rejection.error.code = -32600 ∧ Repeats json rejection.id := by
  refine ⟨fun json hread => Json.kept_of_read? hread, ⟨?_, ?_⟩, fun request h => ?_,
    fun rejection h => ?_⟩
  · -- What was read has its names once, which is what the characterisation of an object needs.
    rintro ⟨request, h⟩
    obtain ⟨fields, hread, hid, hfields⟩ := Request.parse_eq_ok_iff.1 h
    have hsound := soundEnvelope_iff (Json.kept_of_read? hread)
    exact ⟨fields, hread, hsound.2 ⟨_, _, _, _, hid, hfields⟩⟩
  · rintro ⟨fields, hread, hsound⟩
    obtain ⟨id, method, rest, session, hid, hfields⟩ :=
      (soundEnvelope_iff (Json.kept_of_read? hread)).1 hsound
    exact ⟨⟨method, rest, id, session⟩, Request.parse_eq_ok_iff.2 ⟨fields, hread, hid, hfields⟩⟩
  · obtain ⟨fields, hread, hid, hfields⟩ := Request.parse_eq_ok_iff.1 h
    obtain ⟨-, hmethod, params, hgiven, hlifts⟩ :=
      (Request.ofFields?_eq_some_iff (Json.kept_of_read? hread)).1 hfields
    exact ⟨fields, params, hread, hmethod, Json.mem_of_field? hid, hgiven, hlifts⟩
  · rcases Request.of_parse_eq_error h with ⟨hread, rfl⟩ | ⟨json, hread, herror, hrepeats⟩
    · refine ⟨iff_of_true ⟨rfl, rfl⟩ hread, fun json hjson => ?_⟩
      rw [hread] at hjson
      cases hjson
    · -- The two codes are different, so a body that is a JSON text is never turned down as none.
      have hcode : rejection.error.code = -32600 := by rw [herror]; rfl
      refine ⟨iff_of_false ?_ ?_, fun json' hread' => ?_⟩
      · rintro ⟨hparse, -⟩
        rw [hcode] at hparse
        cases hparse
      · rw [hread]
        exact nofun
      · rw [hread] at hread'
        cases hread'
        exact ⟨hcode, hrepeats⟩

/-- Of two versions the last one counts, and a session is taken out of the parameters. -/
example : (Request.parse ("\x7b\"jsonrpc\":\"1.0\",\"id\":null,\"method\":\"reset\"," ++
    "\"params\":\x7b\"sessionId\":\"s\"\x7d,\"jsonrpc\":\"2.0\"\x7d")).toOption.map
      (fun request => (request.method, request.sessionId)) = some ("reset", some "s") := by
  decide +kernel

end LedgerClient.Rpc
