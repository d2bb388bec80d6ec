import LedgerClient.Text.Unprintable

/-!
# `LedgerClient.Text.Quoted`: a text as it is shown in a message

An error that repeats what the caller wrote puts it between double
quotes and escapes what would not survive there: the quote and the
backslash, the four control characters that have short names, and
every unprintable character by its number. A single quote stands for
itself.
-/

set_option autoImplicit false

namespace LedgerClient.Text

/-- How one character is shown inside quotes. -/
def escaped (c : Char) : List Char :=
  match c with
  | '"' => ['\\', '"']
  | '\\' => ['\\', '\\']
  | '\t' => ['\\', 't']
  | '\r' => ['\\', 'r']
  | '\n' => ['\\', 'n']
  | '\x00' => ['\\', '0']
  | c =>
    if isUnprintable c then
      ['\\', 'u', '\x7b'] ++ Nat.toDigits 16 c.toNat ++ ['\x7d']
    else [c]

/-- A text between double quotes. -/
def quoted (text : String) : String :=
  String.ofList ('"' :: text.toList.flatMap escaped ++ ['"'])

end LedgerClient.Text
