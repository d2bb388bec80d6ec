import LedgerClient.Json.Printer
import LedgerClient.Rpc.Service

/-!
# `LedgerClient.Rpc.Http`: the service behind its three paths

Requests are posted to `/`; `/health` and `/metrics` can be got. An
error of the service is still an answer with status 200, since the
error is in the body. Only bodies posted to `/` are timed, and one of
more than two mebibytes is refused before the service sees it.

Asking for the head of something that can be got is answered like
getting it, without the body. Another method on a known path is
refused, and any other path is unknown.

A target names its path directly, or it is absolute: a scheme, `://`
and an authority stand before the path, and where nothing follows the
authority the path is `/`.
-/

set_option autoImplicit false

namespace LedgerClient.Rpc.Http

/-- An answer: its status and its body. -/
structure Response where
  status : Nat
  body : String
deriving DecidableEq, Repr

/-- Whether a character may stand in the name of a scheme. -/
def isSchemeChar (c : Char) : Bool :=
  c.isAlphanum || c = '+' || c = '-' || c = '.' || c = '~'

/-- Whether a character ends a path. -/
def endsPath (c : Char) : Bool :=
  c = '?' || c = '#'

/-- What follows the scheme and the authority of an absolute target. -/
def afterAuthority? (target : List Char) : Option (List Char) :=
  match target.dropWhile isSchemeChar with
  | ':' :: '/' :: '/' :: rest => some (rest.dropWhile fun c => c ≠ '/' && !endsPath c)
  | _ => none

/-- The path of a target, without what follows a question mark or a number sign. -/
def pathOf (target : String) : String :=
  match afterAuthority? target.toList with
  | none => String.ofList (target.toList.takeWhile fun c => !endsPath c)
  | some rest =>
    match rest.takeWhile fun c => !endsPath c with
    | [] => "/"
    | path => String.ofList path

/-- The most bytes that a posted body may have. -/
def bodyLimit : Nat := 2 * 1024 * 1024

/-- The answer to a body beyond the limit. -/
def tooLarge : Response :=
  ⟨413, "Failed to buffer the request body: length limit exceeded"⟩

/-- Whether the service is there. -/
def healthBody : String :=
  Json.render (.record [("status", .text "ok")])

/-- The answer to a method on something that can be got. -/
def got (method body : String) : Response :=
  if method = "GET" then ⟨200, body⟩
  else if method = "HEAD" then ⟨200, ""⟩
  else ⟨405, ""⟩

/-- The answer to a request, the service after it, and the time and state of the outside. -/
def respond {σ : Type} (s : Service) (transport : Transport σ) (method target : String)
    (body : Bytes) (start : Timestamp) (scene : Scene σ) : Response × Service × Scene σ :=
  match pathOf target with
  | "/" =>
    if method ≠ "POST" then (⟨405, ""⟩, s, scene)
    else if bodyLimit < body.length then (tooLarge, s, scene)
    else
      let (answer, s, after) := s.handle transport body start scene
      (⟨200, answer.render⟩,
        { s with metrics := s.metrics.observe (after.now - scene.now) }, after)
  | "/health" => (got method healthBody, s, scene)
  | "/metrics" => (got method s.metrics.text, s, scene)
  | _ => (⟨404, ""⟩, s, scene)

section
variable {σ : Type} (s : Service) (transport : Transport σ) {target : String} {body : Bytes}
  (start : Timestamp) (scene : Scene σ)

/-- A body within the limit that is posted to the service is handled by it. Besides what that
leaves, the service has noted how long it took. -/
theorem respond_of_within (hpath : pathOf target = "/") (hwithin : body.length ≤ bodyLimit) :
    respond s transport "POST" target body start scene =
      let (answer, s, after) := s.handle transport body start scene
      (⟨200, answer.render⟩,
        { s with metrics := s.metrics.observe (after.now - scene.now) }, after) := by
  have hnot : ¬bodyLimit < body.length := Nat.not_lt.2 hwithin
  simp only [respond, hpath, ne_eq, not_true_eq_false, if_false, hnot]

/-- A body beyond the limit is refused, and the service never sees it. -/
theorem respond_of_beyond (hpath : pathOf target = "/") (hbeyond : bodyLimit < body.length) :
    respond s transport "POST" target body start scene = (tooLarge, s, scene) := by
  simp only [respond, hpath, ne_eq, not_true_eq_false, if_false, hbeyond, if_true]

end

end LedgerClient.Rpc.Http
