import LedgerClient.Proofs.Json.Fields
import LedgerClient.Rpc.Envelope
import Mathlib.Data.String.Basic

/-!
# `LedgerClient.Proofs.Json.Size`: a value is no larger than its text

Every item of a list and every field of a record takes a character of
its own, the comma or the bracket behind it. So the places of a value,
which `Json.places` counts at every depth, are at most as many as the
characters of the text that it is read from (`Json.places_of_read`).
That bounds every list that a request can bring, by the length of its
body (`Rpc.Request.places_of_parse`).

The readers of scalars leave no more behind than they were given;
`value?`, `items?` and `fields?` moreover pay a character for each
place, and that is one induction on their common fuel
(`Json.places_of_readers`).
-/

set_option autoImplicit false

namespace LedgerClient

/-- A text has at most as many characters as its UTF-8 form has bytes. -/
theorem Bytes.length_le_of_text? {bytes : Bytes} {text : String} (h : text? bytes = some text) :
    text.length ≤ bytes.length := by
  -- The text is made of the bytes as they are, so it takes as many.
  have hsize : text.utf8ByteSize = bytes.length := by
    unfold text? String.fromUTF8? at h
    split at h
    · cases h
      rfl
    · cases h
  -- Every character takes at least one of them.
  have hchars (cs : List Char) : cs.length ≤ String.utf8Len cs := by
    induction cs with
    | nil => exact Nat.le_refl _
    | cons c cs ih =>
      have := c.utf8Size_pos
      rw [String.utf8Len_cons, List.length_cons]
      omega
  rw [← hsize, ← String.utf8Len_toList, ← String.length_toList]
  exact hchars text.toList

namespace Json

/-! ### Places -/

mutual

/-- The items and fields of a value, at every depth. -/
def places : Json → Nat
  | .list items => placesOfItems items
  | .record fields => placesOfFields fields
  | _ => 0

/-- The items of a list and the places in them. -/
def placesOfItems : List Json → Nat
  | [] => 0
  | item :: rest => 1 + places item + placesOfItems rest

/-- The fields of a record and the places in them. -/
def placesOfFields : List (String × Json) → Nat
  | [] => 0
  | (_, value) :: rest => 1 + places value + placesOfFields rest

end

/-- A list has at least as many places as items. -/
theorem length_le_places (items : List Json) : items.length ≤ (Json.list items).places := by
  rw [places]
  induction items with
  | nil => exact Nat.zero_le _
  | cons item rest ih =>
    rw [placesOfItems, List.length_cons]
    omega

/-- The places in an item are places in the list. -/
theorem places_le_of_mem_items {items : List Json} {item : Json} (h : item ∈ items) :
    item.places ≤ (Json.list items).places := by
  rw [places]
  induction items with
  | nil => cases h
  | cons other rest ih =>
    rw [placesOfItems]
    rcases List.mem_cons.1 h with rfl | hrest
    · omega
    · have := ih hrest
      omega

/-- The places in the value of a field are places in the record. -/
theorem places_le_of_mem_fields {fields : List (String × Json)} {name : String} {value : Json}
    (h : (name, value) ∈ fields) : value.places ≤ placesOfFields fields := by
  induction fields with
  | nil => cases h
  | cons other rest ih =>
    obtain ⟨n, v⟩ := other
    rw [placesOfFields]
    rcases List.mem_cons.1 h with hhere | hrest
    · cases hhere
      omega
    · have := ih hrest
      omega

/-- A field has no more places than the record. -/
theorem places_le_of_field? {name : String} {fields : List (String × Json)} {value : Json}
    (h : field? name fields = some value) : value.places ≤ placesOfFields fields := by
  obtain ⟨field, hfield, rfl⟩ := Option.map_eq_some_iff.1 h
  exact places_le_of_mem_fields (List.mem_reverse.1 (List.mem_of_find?_eq_some hfield))

/-- The places in a part of a structure are places in the structure. -/
theorem places_of_part? {names : List String} {name : String} {j value : Json}
    (h : part? names name j = some value) : value.places ≤ j.places := by
  cases j with
  | record fields => exact places_le_of_field? h
  | list items => exact places_le_of_mem_items (List.mem_of_getElem? h)
  | _ => cases h

/-- Leaving fields out leaves no more places. -/
theorem placesOfFields_filter_le (keep : String × Json → Bool) (fields : List (String × Json)) :
    placesOfFields (fields.filter keep) ≤ placesOfFields fields := by
  induction fields with
  | nil => exact Nat.le_refl _
  | cons field rest ih =>
    obtain ⟨name, value⟩ := field
    rw [List.filter_cons]
    split
    · rw [placesOfFields, placesOfFields]
      omega
    · rw [placesOfFields]
      omega

/-! ### Readers -/

/-- A reader that is given `room` characters pays for what it reads: the cost of it and what is left
behind it fit into the room. -/
def Pays {α : Type} (cost : α → Nat) (room : Nat) (read : Option (α × List Char)) : Prop :=
  ∀ a rest, read = some (a, rest) → cost a + rest.length ≤ room

/-- A reader leaves no more than it was given. -/
abbrev Leaves {α : Type} (room : Nat) (read : Option (α × List Char)) : Prop :=
  Pays (fun _ => 0) room read

section
variable {α β : Type} {cost : α → Nat} {cost' : β → Nat} {room : Nat}
  {read : Option (α × List Char)}

/-- What is not read costs nothing. -/
theorem pays_none : Pays cost room none :=
  nofun

/-- What is read is paid for if it costs no more than what was taken of the text. -/
theorem pays_some {a : α} {rest : List Char} (h : cost a + rest.length ≤ room) :
    Pays cost room (some (a, rest)) := by
  intro a' rest' heq
  cases heq
  exact h

/-- What was paid for one part leaves that much less for the next. -/
theorem Pays.bind (h : Pays cost room read) {room' : Nat}
    {next : α × List Char → Option (β × List Char)}
    (hnext : ∀ a rest, cost a + rest.length ≤ room → Pays cost' room' (next (a, rest))) :
    Pays cost' room' (read >>= next) := by
  intro b rest heq
  obtain ⟨⟨a, after⟩, hread, hrest⟩ := Option.bind_eq_some_iff.1 heq
  exact hnext a after (h a after hread) b rest hrest

/-- What is made of a part must cost no more. -/
theorem Pays.map (h : Pays cost room read) (make : α → β) (hmake : ∀ a, cost' (make a) ≤ cost a) :
    Pays cost' room (read.map fun p => (make p.1, p.2)) := by
  intro b rest heq
  obtain ⟨⟨a, after⟩, hread, hmade⟩ := Option.map_eq_some_iff.1 heq
  cases hmade
  exact Nat.le_trans (Nat.add_le_add_right (hmake a) _) (h a after hread)

/-- What is made of a value leaves the same text behind. -/
theorem Leaves.map (h : Leaves room read) (make : α → β) :
    Leaves room (read.map fun p => (make p.1, p.2)) :=
  Pays.map h make fun _ => Nat.le_refl 0

/-- Whatever is paid for from less text is paid for from more. -/
theorem Pays.mono (h : Pays cost room read) {room' : Nat} (hroom : room ≤ room') :
    Pays cost room' read :=
  fun a rest heq => Nat.le_trans (h a rest heq) hroom

end

/-- Skipping space leaves no more than there was. -/
theorem length_skipSpace_le (cs : List Char) : (skipSpace cs).length ≤ cs.length :=
  (List.dropWhile_sublist isSpace).length_le

/-- Nor does dropping a beginning. -/
theorem length_of_dropLeading? {front cs rest : List Char}
    (h : Text.dropLeading? front cs = some rest) : rest.length ≤ cs.length := by
  induction front generalizing cs with
  | nil =>
    cases h
    exact Nat.le_refl _
  | cons p ps ih =>
    cases cs with
    | nil => cases h
    | cons c cs =>
      rw [Text.dropLeading?] at h
      split at h
      · exact Nat.le_succ_of_le (ih h)
      · cases h

/-- What stands behind a fixed beginning may be read in its room. -/
theorem pays_dropLeading? {α : Type} {cost : α → Nat} {room : Nat} {front cs : List Char}
    {next : List Char → Option (α × List Char)}
    (hnext : ∀ rest, rest.length ≤ cs.length → Pays cost room (next rest)) :
    Pays cost room (Text.dropLeading? front cs >>= next) := by
  intro a rest heq
  obtain ⟨after, hafter, hread⟩ := Option.bind_eq_some_iff.1 heq
  exact hnext after (length_of_dropLeading? hafter) a rest hread

/-- Reading the four digits of a unit leaves no more than there was. -/
theorem leaves_hexUnit? (cs : List Char) : Leaves cs.length (hexUnit? cs) := by
  intro unit rest h
  unfold hexUnit? at h
  split at h
  · simp only [bind, Option.bind_eq_some_iff, pure, Option.some.injEq, Prod.mk.injEq] at h
    obtain ⟨_, -, _, -, _, -, _, -, -, rfl⟩ := h
    simp only [List.length_cons]
    omega
  · cases h

/-- Nor does reading an escaped character, which is one unit or two. -/
theorem leaves_escape? (cs : List Char) : Leaves cs.length (escape? cs) := by
  unfold escape?
  split
  case h_9 rest =>
    refine Pays.bind ((leaves_hexUnit? rest).mono (Nat.le_succ _)) fun unit after hafter => ?_
    exact pays_some hafter
  case h_10 => exact pays_none
  all_goals exact pays_some (by simp)

/-- Nor does reading the units of a text. -/
theorem leaves_units? (fuel : Nat) (cs : List Char) : Leaves cs.length (units? fuel cs) := by
  induction fuel generalizing cs with
  | zero => exact pays_none
  | succ fuel ih =>
    cases cs with
    | nil => exact pays_none
    | cons c cs =>
      -- A unit leaves no more than there was, and the rest is read from that.
      have hunits {room : Nat} {after : List Char} (hafter : 0 + after.length ≤ room) :
          Leaves room (units? fuel after) := (ih after).mono (by omega)
      have hroom : 0 + cs.length ≤ (c :: cs).length := by simp
      rw [units?]
      split
      · exact pays_some hroom
      · split
        · refine Pays.bind ((leaves_escape? cs).mono (Nat.le_succ _)) fun unit after h => ?_
          exact (hunits h).bind fun units rest h => pays_some h
        · split
          · exact pays_none
          · exact (hunits hroom).bind fun units rest h => pays_some h

/-- So the body of a text leaves no more than there was. -/
theorem leaves_textBody? (fuel : Nat) (cs : List Char) : Leaves cs.length (textBody? fuel cs) :=
  (leaves_units? fuel cs).bind fun _ _ h => pays_some h

/-- Reading digits leaves no more than there was. -/
theorem leaves_digits? (cs : List Char) : Leaves cs.length (digits? cs) := by
  unfold digits?
  simp only
  split
  · exact pays_none
  · refine pays_some ?_
    have := (List.dropWhile_sublist Text.Decimal.isDigit (l := cs)).length_le
    omega

/-- Nor does reading an exponent, with its sign. -/
theorem leaves_exponent? (cs : List Char) : Leaves cs.length (exponent? cs) := by
  unfold exponent?
  simp only
  split
  · exact Leaves.map ((leaves_digits? _).mono (Nat.le_succ _)) (true, ·)
  · exact Leaves.map ((leaves_digits? _).mono (Nat.le_succ _)) (false, ·)
  · exact Leaves.map (leaves_digits? _) (false, ·)

/-- The exponent of a number, if it has one. -/
theorem leaves_exponentPart {α : Type} (make : Option (Bool × List Char) → α) {room : Nat}
    {cs : List Char} (h : 0 + cs.length ≤ room) :
    Leaves room (do
      let (exponent, cs) ← match cs with
        | 'e' :: rest | 'E' :: rest => (exponent? rest).map fun (e, rest) => (some e, rest)
        | cs => some (none, cs)
      return (make exponent, cs)) := by
  have hexponent {c : Char} {rest : List Char} (h : 0 + (c :: rest).length ≤ room) :
      Leaves room ((exponent? rest).map fun p => (some p.1, p.2)) :=
    (Leaves.map (leaves_exponent? rest) some).mono (by rw [List.length_cons] at h; omega)
  split
  · exact (hexponent h).bind fun _ _ h => pays_some h
  · exact (hexponent h).bind fun _ _ h => pays_some h
  · exact pays_some h

/-- So a number leaves no more than there was, with all of its parts. -/
theorem leaves_literal? (cs : List Char) : Leaves cs.length (literal? cs) := by
  unfold literal?
  refine Pays.bind (Pays.mono (leaves_digits? _) (?_ : _ ≤ cs.length)) fun whole rest h => ?_
  · -- What follows the sign, if there is one.
    split
    · exact Nat.le_succ _
    · exact Nat.le_refl _
  simp only
  -- Digits may follow a point, and an exponent may follow both.
  split
  · exact pays_none
  · split
    next rest =>
      have hrest : rest.length ≤ cs.length := by
        rw [List.length_cons] at h
        omega
      exact ((Leaves.map (leaves_digits? rest) some).mono hrest).bind fun _ _ h =>
        leaves_exponentPart _ h
    · exact leaves_exponentPart _ h

/-- A number has no places, also if it is no whole one. -/
theorem Literal.places_real (negative : Bool) (significand : Nat) (exponent : Int) :
    (real negative significand exponent).places = 0 := by
  unfold real
  split <;> rfl

/-- A number has no places. -/
theorem Literal.places_denoted (lit : Literal) : lit.denoted.places = 0 := by
  unfold denoted
  simp only
  split
  · split
    · rfl
    · split
      · rfl
      · exact places_real _ _ _
  · split
    · exact places_real _ _ _
    · split
      · exact places_real _ _ _
      · split <;> rfl

/-- What the three readers pay, for a given fuel: a character for each place. -/
structure PayForPlaces (fuel : Nat) : Prop where
  value : ∀ cs, Pays places cs.length (value? fuel cs)
  items : ∀ cs, Pays placesOfItems cs.length (items? fuel cs)
  fields : ∀ cs, Pays (fun fields => fields.elim 0 placesOfFields) cs.length (fields? fuel cs)

/-- A value pays for its places where its items and its fields do. -/
theorem PayForPlaces.pays_value {fuel : Nat} (h : PayForPlaces fuel) (cs : List Char) :
    Pays places cs.length (value? (fuel + 1) cs) := by
  cases cs with
  | nil => exact pays_none
  | cons c cs =>
    have hspace := length_skipSpace_le cs
    -- A literal name leaves what follows its letters.
    have hname (letters : List Char) (j : Json) (hj : j.places = 0) : Pays places (c :: cs).length
        ((Text.dropLeading? letters cs).map fun rest => (j, rest)) := by
      intro j' rest heq
      obtain ⟨after, hafter, hmade⟩ := Option.map_eq_some_iff.1 heq
      cases hmade
      have := length_of_dropLeading? hafter
      rw [hj, List.length_cons]
      omega
    unfold value?
    -- The three literal names, a text, a list, a record, and a number.
    split
    · exact hname _ _ rfl
    · exact hname _ _ rfl
    · exact hname _ _ rfl
    · refine Pays.map ((leaves_textBody? _ cs).mono (Nat.le_succ _))
        (fun text => text.elim unreadable Json.text) fun text => ?_
      cases text <;> exact Nat.le_refl 0
    · -- An empty list has no items to pay for, and another one pays where they do.
      split
      next rest heq =>
        rw [heq, List.length_cons] at hspace
        exact pays_some (by rw [places, placesOfItems, List.length_cons]; omega)
      · exact Pays.map ((h.items _).mono (Nat.le_succ_of_le hspace)) list fun _ => Nat.le_refl _
    · split
      next rest heq =>
        rw [heq, List.length_cons] at hspace
        exact pays_some (by rw [places, placesOfFields, List.length_cons]; omega)
      · refine Pays.map ((h.fields _).mono (Nat.le_succ_of_le hspace))
          (fun fields => fields.elim unreadable record) fun fields => ?_
        cases fields <;> exact Nat.le_refl _
    · exact Pays.map (leaves_literal? _) Literal.denoted fun lit => Nat.le_of_eq lit.places_denoted

/-- Items pay for their places where values and the items behind them do. -/
theorem PayForPlaces.pays_items {fuel : Nat} (h : PayForPlaces fuel) (cs : List Char) :
    Pays placesOfItems cs.length (items? (fuel + 1) cs) := by
  unfold items?
  -- Behind an item comes the end of the list, or a comma and the other items.
  refine (h.value cs).bind fun item rest hitem => ?_
  have hspace := length_skipSpace_le rest
  simp only
  split
  next rest heq =>
    rw [heq, List.length_cons] at hspace
    exact pays_some (by rw [placesOfItems, placesOfItems]; omega)
  next rest heq =>
    have hnext := length_skipSpace_le rest
    rw [heq, List.length_cons] at hspace
    refine (h.items (skipSpace rest)).bind fun items after hitems => pays_some ?_
    show 1 + item.places + placesOfItems items + after.length ≤ cs.length
    omega
  · exact pays_none

/-- Fields pay for their places where values and the fields behind them do. -/
theorem PayForPlaces.pays_fields {fuel : Nat} (h : PayForPlaces fuel) (cs : List Char) :
    Pays (fun fields => fields.elim 0 placesOfFields) cs.length (fields? (fuel + 1) cs) := by
  unfold fields?
  simp only
  split
  next cs =>
    -- A field is a name, a colon and a value, and each of them leaves no more than there was.
    refine Pays.bind (leaves_textBody? _ cs) fun name rest hname => ?_
    refine pays_dropLeading? fun after hcolon => ?_
    have hroom : (skipSpace after).length ≤ cs.length := by
      have := length_skipSpace_le rest
      have := length_skipSpace_le after
      simp only at hcolon
      omega
    refine (h.value _).bind fun value rest hvalue => ?_
    have hspace := length_skipSpace_le rest
    rw [List.length_cons]
    simp only
    split
    next rest heq =>
      rw [heq, List.length_cons] at hspace
      refine pays_some ?_
      -- A name that cannot be read makes the record unreadable, and then it has no places.
      cases name with
      | none =>
        show 0 + rest.length ≤ _
        omega
      | some name =>
        show 1 + value.places + 0 + rest.length ≤ _
        omega
    next rest heq =>
      have hcomma := length_skipSpace_le rest
      rw [heq, List.length_cons] at hspace
      refine (h.fields _).bind fun fields rest hfields => pays_some ?_
      -- So does one among the other fields.
      cases name with
      | none =>
        show 0 + rest.length ≤ _
        omega
      | some name =>
        cases fields with
        | none =>
          show 0 + rest.length ≤ _
          omega
        | some fields =>
          change placesOfFields fields + rest.length ≤ _ at hfields
          show 1 + value.places + placesOfFields fields + rest.length ≤ _
          omega
    · exact pays_none
  · exact pays_none

/-- With any fuel, the readers pay a character for each place. -/
theorem payForPlaces (fuel : Nat) : PayForPlaces fuel := by
  induction fuel with
  | zero => exact ⟨fun _ => pays_none, fun _ => pays_none, fun _ => pays_none⟩
  | succ fuel ih => exact ⟨ih.pays_value, ih.pays_items, ih.pays_fields⟩

/-- A value has at most as many places as its text has characters. -/
theorem places_of_parse? {text : String} {j : Json} (h : parse? text = some j) :
    j.places ≤ text.length := by
  unfold parse? at h
  obtain ⟨⟨value, rest⟩, hvalue, h⟩ := Option.bind_eq_some_iff.1 h
  -- What the value takes of the text pays for it, and skipping space leaves no more.
  have hpays := (payForPlaces _).value _ value rest hvalue
  have hspace := length_skipSpace_le text.toList
  rw [String.length_toList] at hspace
  simp only at h
  split at h
  · cases h
    omega
  · cases h

/-! ### The untyped reading -/

/-- An insertion adds the places of one field, or fewer if it takes the place of another. -/
theorem placesOfFields_insertField_le (name : String) (value : Json)
    (fields : List (String × Json)) :
    placesOfFields (insertField name value fields) ≤ 1 + value.places + placesOfFields fields := by
  induction fields with
  | nil => exact Nat.le_refl _
  | cons field rest ih =>
    obtain ⟨n, v⟩ := field
    rw [insertField]
    -- The new field comes first, takes the place of the first one, or goes further back.
    split
    · exact Nat.le_refl _
    · split
      · simp only [placesOfFields]
        omega
      · simp only [placesOfFields]
        omega

/-- Sorting adds no places; it may lose those of fields that are hidden. -/
theorem placesOfFields_sortFields_le (fields : List (String × Json)) :
    placesOfFields (sortFields fields) ≤ placesOfFields fields := by
  -- What is sorted already is carried along, with the places that it has.
  have hsorted (sorted : List (String × Json)) :
      placesOfFields
          (fields.foldl (fun sorted field => insertField field.1 field.2 sorted) sorted) ≤
        placesOfFields sorted + placesOfFields fields := by
    induction fields generalizing sorted with
    | nil => exact Nat.le_refl _
    | cons field rest ih =>
      obtain ⟨name, value⟩ := field
      have hinsert := placesOfFields_insertField_le name value sorted
      rw [List.foldl_cons, placesOfFields]
      refine Nat.le_trans (ih (insertField name value sorted)) ?_
      omega
  exact Nat.le_trans (hsorted []) (Nat.le_of_eq (Nat.zero_add _))

/-- What is kept of a value has no more places than there were. -/
theorem places_of_settledWithin {depth : Nat} {j kept : Json}
    (h : settledWithin depth j = some kept) : kept.places ≤ j.places := by
  -- Items and fields have one level less to spare, so the induction is on that.
  induction depth generalizing j kept with
  | zero =>
    cases j <;> cases h <;> exact Nat.le_refl 0
  | succ depth ih =>
    have hitems {items keptItems : List Json} (h : settledItems depth items = some keptItems) :
        placesOfItems keptItems ≤ placesOfItems items := by
      induction items generalizing keptItems with
      | nil =>
        cases h
        exact Nat.le_refl _
      | cons item rest ihrest =>
        rw [settledItems] at h
        obtain ⟨item', hitem, h⟩ := Option.bind_eq_some_iff.1 h
        obtain ⟨rest', hrest, h⟩ := Option.bind_eq_some_iff.1 h
        cases h
        have := ih hitem
        have := ihrest hrest
        simp only [placesOfItems]
        omega
    have hfields {fields keptFields : List (String × Json)}
        (h : settledFields depth fields = some keptFields) :
        placesOfFields keptFields ≤ placesOfFields fields := by
      induction fields generalizing keptFields with
      | nil =>
        cases h
        exact Nat.le_refl _
      | cons field rest ihrest =>
        obtain ⟨name, value⟩ := field
        rw [settledFields] at h
        obtain ⟨value', hvalue, h⟩ := Option.bind_eq_some_iff.1 h
        obtain ⟨rest', hrest, h⟩ := Option.bind_eq_some_iff.1 h
        cases h
        have := ih hvalue
        have := ihrest hrest
        simp only [placesOfFields]
        omega
    cases j with
    | list items =>
      rw [settledWithin] at h
      obtain ⟨keptItems, hkept, rfl⟩ := Option.map_eq_some_iff.1 h
      exact hitems hkept
    | record fields =>
      rw [settledWithin] at h
      obtain ⟨keptFields, hkept, rfl⟩ := Option.map_eq_some_iff.1 h
      exact Nat.le_trans (placesOfFields_sortFields_le keptFields) (hfields hkept)
    | _ =>
      cases h <;> exact Nat.le_refl 0

/-- So is what is kept of a text. -/
theorem places_of_read? {text : String} {j : Json} (h : read? text = some j) :
    j.places ≤ text.length := by
  obtain ⟨written, hwritten, hkept⟩ := Option.bind_eq_some_iff.1 h
  exact Nat.le_trans (places_of_settledWithin hkept) (places_of_parse? hwritten)

end Json

namespace Rpc

/-- Taking the session out of parameters adds no places. -/
theorem Request.places_of_splitSession {params rest : Json} {session : Option String}
    (h : splitSession params = some (rest, session)) : rest.places ≤ params.places := by
  cases params with
  | record fields =>
    -- Whichever session there is, the parameters are the fields without it.
    have hrest : (Json.record (fields.filter fun f => f.1 ≠ "sessionId")).places ≤
        (Json.record fields).places :=
      Json.placesOfFields_filter_le _ fields
    unfold splitSession at h
    simp only at h
    split at h <;> cases h <;> exact hrest
  | list items =>
    cases h
    exact Nat.le_refl _
  | null =>
    cases h
    exact Nat.le_refl _
  | _ => cases h

/-- The parameters of a request have at most as many places as its text has characters. -/
theorem Request.places_of_parse {text : String} {request : Request}
    (h : parse text = .ok request) : request.params.places ≤ text.length := by
  unfold parse at h
  split at h
  · cases h
  next fields hread =>
    split at h
    · cases h
    · cases h
    next id method params session hid hfields =>
      cases h
      unfold ofFields? at hfields
      simp only [bind, Option.bind_eq_some_iff] at hfields
      obtain ⟨version, -, method', -, ⟨params', session'⟩, hsplit, hfields⟩ := hfields
      have hparams : params' = params := by
        simp only at hfields
        split at hfields <;> cases hfields
        rfl
      subst hparams
      -- The parameters are a field of the request, or there are none.
      have hwhole : ((Json.field? "params" fields).getD .null).places ≤
          (Json.record fields).places := by
        cases hfield : Json.field? "params" fields with
        | none => exact Nat.zero_le _
        | some value => exact Json.places_le_of_field? hfield
      exact Nat.le_trans (places_of_splitSession hsplit)
        (Nat.le_trans hwhole (Json.places_of_read? hread))
  · cases h

end Rpc

end LedgerClient
