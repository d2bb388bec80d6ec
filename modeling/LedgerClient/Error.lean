import LedgerClient.Network.Fault
import LedgerClient.Text.Quoted
import LedgerClient.Wire.Message

/-!
# `LedgerClient.Error`: how a request can fail

A caller sees one of two things: a result, or one `Error`. An error is
its cause, not its text; `message` is the only place where the words
are chosen.

Faults and verdicts that are worth another attempt never surface on
their own. They appear as the `last` failure inside the three errors
by which a request gives up: too many attempts, the deadline passed,
or the caller cancelled.
-/

set_option autoImplicit false

namespace LedgerClient

/-- What is wrong with what the caller passed. -/
inductive ArgumentFault where
  | malformedId (kind : EntityKind) (text : String)
  | malformedSerial (text : String)
  | wrongKind (expected : EntityKind) (got : EntityId)
  | namelessStart (text : String)
  | instantOutOfRange (seconds : Int64) (nanos : Int32)
  | malformedInstant (text : String)
  | malformedDate (text : String)
  | beyondCalendar (instant : Timestamp)
  | unknownStatus (text : String)
  | malformedConfig
  | noAttempts
  | backoffBounds (min max : UInt64)
  | nodeBackoffBounds (min max : UInt64)
  | noRequestTimeout
  | malformedAddress (text : String)
  | noNodes
  | duplicateNode (id : AccountId)
  | unknownNetwork (name : String)
  | noCandidates
  | foreignNode (id : AccountId)
  | memoTooLong (size limit : Nat)
  | durationTooShort
  | emptyNodeList
  | zeroAmount
  | totalOverflow (current amount : Int64)
  | unfrozenNode (id : AccountId)
  | other (text : String)
deriving DecidableEq, Repr

/-- What a request lacks to be carried out now. -/
inductive StateFault where
  | bodyWithoutId
  | noOperatorForId
  | freezeWithoutId
  | freezeWithoutNodes
  | unsigned
  | other (text : String)
deriving DecidableEq, Repr

/-- Why an answer could not be used. -/
inductive CodecFault where
  | undecodable
  | wrongPayload (expected : String) (got : Wire.Payload)
  | other (text : String)
deriving DecidableEq, Repr

/-- Which kind of key a text was no key of. Nothing more is said about why. -/
inductive KeyFault where
  | invalidPrivateKey
  | invalidPublicKey
deriving DecidableEq, Repr

/-- A failed attempt that was worth another one: the node it went to, and what happened. -/
inductive AttemptFailure where
  | transport (node : AccountId) (fault : Fault)
  | status (node : AccountId) (status : Status)
deriving DecidableEq, Repr

/-- Every way in which a request can fail for good. -/
inductive Error where
  | invalidArgument (fault : ArgumentFault)
  | illegalState (fault : StateFault)
  | precheck (status : Status) (transactionId : Option TransactionId) (node : AccountId)
      (attempts : Nat)
  | receiptStatus (status : Status) (transactionId : TransactionId)
  | expired (status : Status) (node : AccountId) (attempts : Nat)
  | maxAttemptsExceeded (attempts : Nat) (last : Option AttemptFailure)
  | deadlineExceeded (attempts : Nat) (last : Option AttemptFailure)
  | cancelled (attempts : Nat) (last : Option AttemptFailure)
  | codec (fault : CodecFault)
  | key (fault : KeyFault)
deriving DecidableEq, Repr

/-- The text of a fault in an argument. -/
def ArgumentFault.message : ArgumentFault → String
  | malformedId kind text => "invalid " ++ kind.name ++ " id: " ++ Text.quoted text
  | malformedSerial text => "invalid nft serial: " ++ Text.quoted text
  | wrongKind expected got =>
    "expected " ++ expected.name ++ " id, got " ++ got.kind.name ++ " id " ++ got.text
  | namelessStart text => "transaction id `" ++ text ++ "` is missing '@'"
  | instantOutOfRange seconds nanos =>
    "invalid timestamp: seconds=" ++ Text.Decimal.integer seconds.toInt ++ ", nanos=" ++
      Text.Decimal.integer nanos.toInt
  | malformedInstant text => "invalid timestamp: " ++ Text.quoted text
  | malformedDate text => "invalid date-time " ++ Text.quoted text ++ ": no such date-time"
  | beyondCalendar instant => "timestamp " ++ instant.text ++ " out of range"
  | unknownStatus text => "unknown status: " ++ text
  | malformedConfig => "invalid client config: no such configuration"
  | noAttempts => "max_attempts must be at least 1"
  | backoffBounds min max =>
    "min_backoff_ms (" ++ Text.Decimal.natural min.toNat ++ ") exceeds max_backoff_ms (" ++
      Text.Decimal.natural max.toNat ++ ")"
  | nodeBackoffBounds min max =>
    "node_min_backoff_ms (" ++ Text.Decimal.natural min.toNat ++
      ") exceeds node_max_backoff_ms (" ++ Text.Decimal.natural max.toNat ++ ")"
  | noRequestTimeout => "request_timeout_ms must be positive"
  | malformedAddress text =>
    "invalid node address " ++ Text.quoted text ++ ": expected host:port"
  | noNodes => "network has no nodes"
  | duplicateNode id => "duplicate node account id " ++ id.text
  | unknownNetwork name => "unknown network name " ++ Text.quoted name
  | noCandidates => "no candidate nodes"
  | foreignNode id => "node " ++ id.text ++ " is not part of this network"
  | memoTooLong size limit =>
    "memo is " ++ Text.Decimal.natural size ++ " bytes, the limit is " ++
      Text.Decimal.natural limit
  | durationTooShort => "transaction valid duration must be at least one second"
  | emptyNodeList => "node account id list is empty"
  | zeroAmount => "transfer amount must be non-zero"
  | totalOverflow current amount =>
    "transfer total overflows: " ++ Text.Decimal.integer current.toInt ++ " + " ++
      Text.Decimal.integer amount.toInt
  | unfrozenNode id => "node " ++ id.text ++ " is not one of this transaction's nodes"
  | other text => text

/-- The text of a fault in the state. -/
def StateFault.message : StateFault → String
  | bodyWithoutId => "transaction id must be set before building a body"
  | noOperatorForId =>
    "no transaction id set and the client has no operator to generate one"
  | freezeWithoutId => "cannot freeze without a transaction id"
  | freezeWithoutNodes => "cannot freeze without node account ids"
  | unsigned => "transaction has no signatures and the client has no operator"
  | other text => text

/-- The text of a fault in an answer. -/
def CodecFault.message : CodecFault → String
  | undecodable => "malformed message"
  | wrongPayload expected got => "expected a " ++ expected ++ ", got " ++ got.shown
  | other text => text

/-- The text of a fault in a key. -/
def KeyFault.message : KeyFault → String
  | invalidPrivateKey => "invalid private key: expected 32 bytes as raw or DER hex"
  | invalidPublicKey => "invalid public key: not a valid Ed25519 point"

namespace AttemptFailure

/-- The node that the attempt went to. -/
def node : AttemptFailure → AccountId
  | transport node _ => node
  | status node _ => node

/-- The text of a failed attempt. -/
def message : AttemptFailure → String
  | transport node fault => "transport fault on node " ++ node.text ++ ": " ++ fault.message
  | status node code =>
    "node " ++ node.text ++ " returned retryable status " ++ code.name

end AttemptFailure

namespace Error

/-- The text of the last failure, if there was one. -/
def lastText : Option AttemptFailure → String
  | some failure => failure.message
  | none => "none"

/-- The request as it is called in a message: a transaction by its name, or a query. -/
def requestText : Option TransactionId → String
  | some id => "transaction " ++ id.text
  | none => "query"

/-- The text of an error. -/
def message : Error → String
  | invalidArgument fault => "invalid argument: " ++ fault.message
  | illegalState fault => "illegal state: " ++ fault.message
  | precheck status id node attempts =>
    requestText id ++ " failed precheck with status " ++ status.name ++ " on node " ++
      node.text ++ " after " ++ Text.Decimal.natural attempts ++ " attempt(s)"
  | receiptStatus status id =>
    "receipt for transaction " ++ id.text ++ " contained error status " ++ status.name
  | expired status node attempts =>
    "request expired on node " ++ node.text ++ " with status " ++ status.name ++ " after " ++
      Text.Decimal.natural attempts ++ " attempt(s)"
  | maxAttemptsExceeded attempts last =>
    "exceeded maximum attempts (" ++ Text.Decimal.natural attempts ++ "); last failure: " ++
      lastText last
  | deadlineExceeded attempts last =>
    "deadline exceeded after " ++ Text.Decimal.natural attempts ++
      " attempt(s); last failure: " ++ lastText last
  | cancelled attempts last =>
    "request cancelled after " ++ Text.Decimal.natural attempts ++
      " attempt(s); last failure: " ++ lastText last
  | codec fault => "codec error: " ++ fault.message
  | key fault => fault.message

/-- The name of an error's kind. -/
def name : Error → String
  | invalidArgument _ => "InvalidArgument"
  | illegalState _ => "IllegalState"
  | precheck .. => "Precheck"
  | receiptStatus .. => "ReceiptStatus"
  | expired .. => "Expired"
  | maxAttemptsExceeded .. => "MaxAttemptsExceeded"
  | deadlineExceeded .. => "DeadlineExceeded"
  | cancelled .. => "Cancelled"
  | codec _ => "Codec"
  | key _ => "Key"

/-- The last failure before a request was given up, if it got so far. -/
def lastFailure? : Error → Option AttemptFailure
  | maxAttemptsExceeded _ last | deadlineExceeded _ last | cancelled _ last => last
  | _ => none

/-- The node's status behind an error, if there is one: of the errors that give up, that of
the last failure. -/
def status? : Error → Option Status
  | precheck status .. | receiptStatus status _ | expired status .. => some status
  | e =>
    match e.lastFailure? with
    | some (.status _ status) => some status
    | _ => none

/-- How many attempts were made, for the errors that count them. -/
def attempts? : Error → Option Nat
  | precheck _ _ _ attempts | expired _ _ attempts => some attempts
  | maxAttemptsExceeded attempts _ | deadlineExceeded attempts _ | cancelled attempts _ =>
    some attempts
  | _ => none

/-- Whether the network failed the request, rather than the caller. -/
def isLedgerError : Error → Bool
  | precheck .. | receiptStatus .. | expired .. | maxAttemptsExceeded ..
  | deadlineExceeded .. => true
  | _ => false

end Error

end LedgerClient
