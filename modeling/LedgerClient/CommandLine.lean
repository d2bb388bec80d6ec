import LedgerClient.Text.Decimal
import LedgerClient.Text.Split

/-!
# `LedgerClient.CommandLine`: how the service is started

Three options say where the service listens and how it logs; each is
given once at most, as `--option value` or `--option=value`. There are
no other arguments.

An option without `=` takes the next argument as its value, unless
that looks like an option itself. Its value is only looked at when
the next option follows or the arguments end, so an argument that
nothing is known about is reported first.
-/

set_option autoImplicit false

namespace LedgerClient.CommandLine

/-- Where to listen and how to log. -/
structure Settings where
  host : String := "localhost"
  port : Nat := 8544
  logFormat : String := "pretty"
deriving DecidableEq, Repr

/-- The address to listen at. -/
def Settings.bindAddress (s : Settings) : String :=
  s.host ++ ":" ++ Text.Decimal.natural s.port

/-- Why arguments give no settings. Help and version are asked for in the same way. -/
inductive Stop where
  | badValue
  | missingValue
  | unexpectedValue
  | unknownArgument
  | repeatedOption
  | help
  | version
deriving DecidableEq, Repr

/-- The options. -/
inductive Flag where
  | host
  | port
  | logFormat
deriving DecidableEq, Repr

/-- What the arguments so far have given. -/
structure Scan where
  settings : Settings := {}
  given : List Flag := []
  /-- The option whose value is still to be looked at, and the value once it is there. -/
  pending : Option (Flag × Option String) := none

namespace Scan

/-- Gives an option its value. -/
def assign (s : Scan) (option : Flag) (value : String) : Except Stop Scan :=
  if option ∈ s.given then .error .repeatedOption
  else
    let s := { s with given := option :: s.given }
    match option with
    | .host => .ok { s with settings := { s.settings with host := value } }
    | .logFormat => .ok { s with settings := { s.settings with logFormat := value } }
    | .port =>
      match (Text.Decimal.signed? value.toList).filter fun n : Int => 0 ≤ n ∧ n < UInt16.size with
      | some n => .ok { s with settings := { s.settings with port := n.toNat } }
      | none => .error .badValue

/-- Looks at the value of the option before. -/
def settle (s : Scan) : Except Stop Scan :=
  match s.pending with
  | none => .ok s
  | some (_, none) => .error .missingValue
  | some (option, some value) => assign { s with pending := none } option value

/-- The option with a name. -/
def optionNamed? (name : List Char) : Option Flag :=
  match String.ofList name with
  | "host" => some .host
  | "port" => some .port
  | "log-format" => some .logFormat
  | _ => none

/-- An argument that starts with two hyphens: an option, with its value if there is an equals
sign. -/
def long (s : Scan) (text : List Char) : Except Stop Scan :=
  let (name, value) := match Text.splitFirst '=' text with
    | some (name, value) => (name, some (String.ofList value))
    | none => (text, none)
  match optionNamed? name, value with
  | some option, some value => s.settle.bind fun s => s.assign option value
  | some option, none => s.settle.map fun s => { s with pending := some (option, none) }
  | none, value =>
    match String.ofList name with
    | "help" => if value.isSome then .error .unexpectedValue
      else s.settle.bind fun _ => .error .help
    | "version" => if value.isSome then .error .unexpectedValue
      else s.settle.bind fun _ => .error .version
    | _ => .error .unknownArgument

/-- An argument that starts with one hyphen. -/
def short (s : Scan) : List Char → Except Stop Scan
  | 'h' :: _ => s.settle.bind fun _ => .error .help
  | 'V' :: _ => s.settle.bind fun _ => .error .version
  | _ => .error .unknownArgument

/-- One argument before any `--`. -/
def argument (s : Scan) (text : List Char) : Except Stop Scan :=
  match text with
  | '-' :: '-' :: name => s.long name
  | '-' :: c :: rest => s.short (c :: rest)
  | _ =>
    match s.pending with
    | some (option, none) =>
      .ok { s with pending := some (option, some (String.ofList text)) }
    | _ => .error .unknownArgument

/-- All arguments. After `--` there are only plain ones, and none is known. -/
def arguments (s : Scan) : List String → Except Stop Scan
  | [] => s.settle
  | "--" :: [] => s.settle
  | "--" :: _ :: _ => .error .unknownArgument
  | text :: rest => (s.argument text.toList).bind fun s => s.arguments rest

end Scan

/-- The settings that the arguments give. -/
def parse (args : List String) : Except Stop Settings :=
  (Scan.arguments {} args).map Scan.settings

/-- How the service writes its log. -/
inductive LogFormat where
  | pretty
  | json
deriving DecidableEq, Repr

namespace LogFormat

/-- The name of a format. -/
def name : LogFormat → String
  | pretty => "pretty"
  | json => "json"

/-- The format with a name, in letters of either case; any other name means `pretty`. No
letter beyond ASCII has one of the letters of `json` as its lower case. -/
def ofText (text : String) : LogFormat :=
  if text.toList.map Char.toLower = "json".toList then json else pretty

end LogFormat

end LedgerClient.CommandLine
