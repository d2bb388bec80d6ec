/-!
# `LedgerClient.Text.Split`: texts cut at a character

Identifiers are parts joined by a separator, and which occurrence of
the separator counts is part of their grammar: the first `@` ends an
account, the last `:` ends a host, and every `.` of an entity
number counts. All three cuts work on lists of characters, and each
gives back the text when its parts are joined again.
-/

set_option autoImplicit false

namespace LedgerClient.Text

/-- What stands before and after the first occurrence of a character. -/
def splitFirst (sep : Char) : List Char → Option (List Char × List Char)
  | [] => none
  | c :: cs =>
    if c = sep then some ([], cs)
    else (splitFirst sep cs).map fun (before, after) => (c :: before, after)

/-- What stands before and after the last occurrence of a character. -/
def splitLast (sep : Char) (cs : List Char) : Option (List Char × List Char) :=
  (splitFirst sep cs.reverse).map fun (after, before) => (before.reverse, after.reverse)

/-- The parts between the occurrences of a character: one more than there are of them. -/
def splitAll (sep : Char) : List Char → List (List Char)
  | [] => [[]]
  | c :: cs =>
    if c = sep then [] :: splitAll sep cs
    else match splitAll sep cs with
      | [] => [[c]]
      | part :: parts => (c :: part) :: parts

/-- The rest of a text that starts with the given characters. -/
def dropLeading? : List Char → List Char → Option (List Char)
  | [], cs => some cs
  | _ :: _, [] => none
  | p :: ps, c :: cs => if p = c then dropLeading? ps cs else none

end LedgerClient.Text
