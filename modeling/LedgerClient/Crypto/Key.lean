import LedgerClient.Crypto.Ed25519
import LedgerClient.Error
import LedgerClient.Text.Blank
import LedgerClient.Text.Split

/-!
# `LedgerClient.Crypto.Key`: keys and their texts

A key's text is the hexadecimal digits of its 32 bytes, alone or
behind the fixed header by which a certificate says what kind of key
it holds. White space around the text is dropped, and then one `0x`
in front of it. What is left is taken for bare digits if it has 64
bytes, and otherwise must start with the header of the right kind, in
lower case.

A public key must moreover be the encoding of a point; a private key
may be any 32 bytes. Whatever is wrong with a text, the error is the
same, so that no message says anything about key material.
-/

set_option autoImplicit false

namespace LedgerClient

/-- A private key: 32 secret bytes. -/
structure PrivateKey where
  secret : KeyBytes
deriving DecidableEq

/-- A public key. Its bytes are those of a point when it was read from text. -/
structure PublicKey where
  key : KeyBytes
deriving DecidableEq

/-- A signature: 64 bytes when it was made here, any number when it was received. -/
structure Signature where
  bytes : Bytes
deriving DecidableEq

/-- The header of a private key. -/
def privateKeyHeader : List Char := "302e020100300506032b657004220420".toList

/-- The header of a public key. -/
def publicKeyHeader : List Char := "302a300506032b6570032100".toList

/-- Thirty-two bytes, or nothing. -/
def KeyBytes.ofBytes? (bytes : Bytes) : Option KeyBytes :=
  if h : bytes.length = 32 then some ⟨bytes, h⟩ else none

/-- The digits of a key's text, without the white space, the `0x` and the header. -/
def keyDigits? (header : List Char) (cs : List Char) : Option (List Char) :=
  let cs := Text.trim cs
  let cs := (Text.dropLeading? ['0', 'x'] cs).getD cs
  if (Bytes.ofText (String.ofList cs)).length = 64 then some cs
  else Text.dropLeading? header cs

/-- The bytes that a key's text denotes. -/
def KeyBytes.parse? (header : List Char) (text : String) : Option KeyBytes :=
  ((keyDigits? header text.toList).bind Hex.decodeChars).bind KeyBytes.ofBytes?

namespace PublicKey

/-- The bytes of a key. -/
def bytes (k : PublicKey) : Bytes := k.key.bytes

/-- The key with the given bytes, if they are those of a point. -/
def ofKeyBytes (key : KeyBytes) : Except Error PublicKey :=
  if Crypto.Ed25519.isPoint key.bytes then .ok ⟨key⟩ else .error (.key .invalidPublicKey)

/-- The key with a text. -/
def parse (text : String) : Except Error PublicKey :=
  match KeyBytes.parse? publicKeyHeader text with
  | some key => ofKeyBytes key
  | none => .error (.key .invalidPublicKey)

/-- Whether a signature is one of the message under the key. -/
def verify (k : PublicKey) (message : Bytes) (signature : Signature) : Bool :=
  Crypto.Ed25519.verify k.bytes message signature.bytes

/-- The digits of the key alone. -/
def rawText (k : PublicKey) : String := Hex.encode k.bytes

/-- The digits of the key behind its header. -/
def text (k : PublicKey) : String := String.ofList publicKeyHeader ++ k.rawText

/-- The key as it is shown where it need only be recognised: by its first eight bytes. -/
def shown (k : PublicKey) : String := "PublicKey(" ++ Hex.encode (k.bytes.take 8) ++ ")"

end PublicKey

namespace PrivateKey

/-- The secret bytes of a key. -/
def bytes (k : PrivateKey) : Bytes := k.secret.bytes

/-- The key with a text. -/
def parse (text : String) : Except Error PrivateKey :=
  match KeyBytes.parse? privateKeyHeader text with
  | some key => .ok ⟨key⟩
  | none => .error (.key .invalidPrivateKey)

/-- The public half of a key. -/
def publicKey (k : PrivateKey) : PublicKey :=
  ⟨Crypto.Ed25519.publicKey k.bytes, by
    simp [Crypto.Ed25519.publicKey, Crypto.Edwards.Point.encode]⟩

/-- The signature of a message under the key. -/
def sign (k : PrivateKey) (message : Bytes) : Signature :=
  ⟨Crypto.Ed25519.sign k.bytes message⟩

/-- The digits of the key alone. -/
def rawText (k : PrivateKey) : String := Hex.encode k.bytes

/-- The digits of the key behind its header. -/
def text (k : PrivateKey) : String := String.ofList privateKeyHeader ++ k.rawText

/-- The key as it is shown: only its public half. -/
def shown (k : PrivateKey) : String := "PrivateKey(pub=" ++ k.publicKey.rawText ++ ")"

end PrivateKey

/-- A signature as it is shown. -/
def Signature.shown (s : Signature) : String := "Signature(" ++ Hex.encode s.bytes ++ ")"

end LedgerClient
