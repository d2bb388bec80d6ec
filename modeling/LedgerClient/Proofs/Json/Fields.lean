import LedgerClient.Json.Form
import Mathlib.Data.List.Forall2

/-!
# `LedgerClient.Proofs.Json.Fields`: the fields that a structure is read from

A structure is written as a record or as the list of its fields, and
`readRecord` brings both into one form: the fields that it knows, each
at most once. `part?` says which value is written for a field without
going through that form, and `readRecord_field?` that it is the one
which is read, so what a structure is read from can be said in terms of
the JSON value alone.

A field that may be left out may also be written as `null`;
`optionalPart?` is the value that is left when neither is the case.
-/

set_option autoImplicit false

namespace LedgerClient

/-! ### Steps that may fail -/

section
variable {ε ε' α β : Type} {x : Except ε α} {b : β}

/-- Two steps succeed if the first does and the second does with its result. -/
theorem bind_eq_ok {f : α → Except ε β} : x >>= f = .ok b ↔ ∃ a, x = .ok a ∧ f a = .ok b := by
  cases x <;> simp [bind, Except.bind]

/-- What is made of the result of a step is there if the step succeeds. -/
theorem map_eq_ok {f : α → β} : x.map f = .ok b ↔ ∃ a, x = .ok a ∧ f a = b := by
  cases x <;> simp [Except.map]

/-- Another error makes no step succeed or fail. -/
theorem mapError_eq_ok {f : ε → ε'} {a : α} : x.mapError f = .ok a ↔ x = .ok a := by
  cases x <;> simp [Except.mapError]

end

namespace Json

/-- The value that is written for a field of a structure: by the name of the field in a record, by
its place among the names in a list. -/
def part? (names : List String) (name : String) : Json → Option Json
  | .record fields => field? name fields
  | .list items => items[names.idxOf name]?
  | _ => none

/-- A value, unless it is `null`. -/
def unlessNull : Json → Option Json
  | .null => none
  | j => some j

/-- The value that is written for a field that may be left out. -/
def optionalPart? (names : List String) (name : String) (j : Json) : Option Json :=
  (part? names name j).bind unlessNull

/-! ### Fields by name -/

/-- A later field of a name hides an earlier one, so the first counts only if no other has its name.
-/
theorem field?_cons (name other : String) (value : Json) (rest : Fields) :
    field? name ((other, value) :: rest) =
      (field? name rest).or (if other = name then some value else none) := by
  unfold field?
  rw [List.reverse_cons, List.find?_append, Option.map_or]
  by_cases h : other = name <;> simp [h]

/-- The last field is the one that is found under its name. -/
theorem field?_concat (name other : String) (value : Json) (fields : Fields) :
    field? name (fields ++ [(other, value)]) =
      if other = name then some value else field? name fields := by
  unfold field?
  rw [List.reverse_append, List.reverse_singleton, List.singleton_append, List.find?_cons]
  by_cases h : other = name <;> simp [h]

/-! ### What is read -/

section
variable {checks : List FieldCheck} {name : String}

/-- Of the fields of a record, a known one is kept if it was not there before. It is not written
again once it is there. -/
theorem checkFields_field? (hname : name ∈ checks.map FieldCheck.name)
    {written kept fields : Fields}
    (h : checkFields checks written kept = .ok fields) :
    field? name fields = (field? name kept).or (field? name written) ∧
      (field? name kept = none ∨ field? name written = none) := by
  -- A field is only known to be the last one at the end, so the induction carries what was kept
  -- before.
  induction written generalizing kept with
  | nil =>
    cases h
    exact ⟨(Option.or_none).symm, .inr rfl⟩
  | cons entry rest ih =>
    obtain ⟨other, value⟩ := entry
    rw [checkFields] at h
    rw [field?_cons]
    cases hfind : checks.find? (·.name = other) with
    | none =>
      -- The field is unknown, so it is not the one that is asked for.
      have hother : other ≠ name := by
        rintro rfl
        obtain ⟨c, hc, hcname⟩ := List.mem_map.1 hname
        have hno := List.find?_eq_none.1 hfind c hc
        simp [hcname] at hno
      rw [hfind] at h
      simpa [hother] using ih h
    | some check =>
      simp only [hfind] at h
      split at h
      · cases h
      next hnew =>
      obtain ⟨-, -, hrest⟩ := bind_eq_ok.1 h
      obtain ⟨hfield, honce⟩ := ih hrest
      rw [field?_concat] at hfield honce
      -- The field that was just kept is the one that is asked for, or another one.
      by_cases hother : other = name
      · subst hother
        have hkept : field? other kept = none := by simpa using hnew
        have hafter : field? other rest = none := by simpa using honce
        simpa [hkept, hafter] using hfield
      · simp only [hother, if_false, Option.or_none] at hfield honce ⊢
        exact ⟨hfield, honce⟩

/-- Of the items of a list, a field gets the one in its place. -/
theorem checkItems_field? {defaults : Nat} (hdistinct : (checks.map FieldCheck.name).Nodup)
    {items : List Json} {fields : Fields} (h : checkItems defaults checks items = .ok fields) :
    items.length ≤ checks.length ∧
      field? name fields = items[(checks.map FieldCheck.name).idxOf name]? := by
  induction checks generalizing items fields with
  | nil =>
    cases items with
    | nil =>
      cases h
      exact ⟨Nat.le_refl 0, rfl⟩
    | cons => cases h
  | cons check checks ih =>
    rw [List.map_cons, List.nodup_cons] at hdistinct
    cases items with
    | nil =>
      rw [checkItems] at h
      split at h
      · cases h
        exact ⟨Nat.zero_le _, rfl⟩
      · cases h
    | cons value items =>
      rw [checkItems] at h
      obtain ⟨-, -, h⟩ := bind_eq_ok.1 h
      obtain ⟨rest, hrest, h⟩ := bind_eq_ok.1 h
      cases h
      obtain ⟨hlength, hfield⟩ := ih hdistinct.2 hrest
      refine ⟨Nat.succ_le_succ hlength, ?_⟩
      rw [field?_cons, hfield, List.map_cons, List.idxOf_cons]
      by_cases hname : check.name = name
      · -- The names are distinct, so nothing behind this item belongs to the field.
        have habsent : (checks.map FieldCheck.name).idxOf name = checks.length := by
          rw [List.idxOf_eq_length (hname ▸ hdistinct.1), List.length_map]
        simp [hname, habsent, hlength]
      · have hbeq : (check.name == name) = false := by simpa using hname
        simp [hname, hbeq]

/-- The value that is read for a field is the one that is written for it. -/
theorem readRecord_field? {defaults : Nat} (hdistinct : (checks.map FieldCheck.name).Nodup)
    (hname : name ∈ checks.map FieldCheck.name) {j : Json} {fields : Fields}
    (h : readRecord checks defaults j = .ok fields) :
    field? name fields = part? (checks.map FieldCheck.name) name j := by
  unfold readRecord at h
  split at h
  · simpa [part?, field?] using (checkFields_field? hname h).1
  · exact (checkItems_field? hdistinct h).2
  · cases h

end

/-! ### Values in fields -/

section
variable {α : Type} [JsonForm α] {checks : List FieldCheck} {name : String} {defaults : Nat}
  {j : Json} {fields : Fields}

/-- A required value is read from what is written for its field. -/
theorem readRecord_get (hdistinct : (checks.map FieldCheck.name).Nodup)
    (hname : name ∈ checks.map FieldCheck.name)
    (hfields : readRecord checks defaults j = .ok fields)
    (hrequired : (JsonForm.absent : Option α) = none) {a : α} (hget : fields.get name = .ok a) :
    ∃ value, part? (checks.map FieldCheck.name) name j = some value ∧ ofJson value = .ok a := by
  rw [← readRecord_field? hdistinct hname hfields]
  unfold Fields.get at hget
  -- A required value has nothing to fall back on, so its field must be there.
  rw [hrequired] at hget
  cases hfield : field? name fields with
  | some value =>
    rw [hfield] at hget
    exact ⟨value, rfl, hget⟩
  | none =>
    rw [hfield] at hget
    cases hget

/-- An optional value is read from what is written for its field, if something is. -/
theorem readRecord_get_option (hdistinct : (checks.map FieldCheck.name).Nodup)
    (hname : name ∈ checks.map FieldCheck.name)
    (hfields : readRecord checks defaults j = .ok fields)
    {a : Option α} (hget : fields.get name = .ok a) :
    Option.Rel (fun value a => ofJson value = .ok a)
      (optionalPart? (checks.map FieldCheck.name) name j) a := by
  rw [optionalPart?, ← readRecord_field? hdistinct hname hfields]
  unfold Fields.get at hget
  cases hfield : field? name fields with
  | none =>
    rw [hfield] at hget
    cases hget
    exact .none
  | some value =>
    rw [hfield] at hget
    -- Nothing at all may also be written as null.
    cases value with
    | null =>
      cases hget
      exact .none
    | _ =>
      obtain ⟨a, ha, rfl⟩ := map_eq_ok.1 hget
      exact .some ha

/-- A value with a default is read from what is written for its field, if something is. -/
theorem readRecord_getD (hdistinct : (checks.map FieldCheck.name).Nodup)
    (hname : name ∈ checks.map FieldCheck.name)
    (hfields : readRecord checks defaults j = .ok fields)
    {default a : α} (hget : fields.getD name default = .ok a) :
    match part? (checks.map FieldCheck.name) name j with
    | some value => ofJson value = .ok a
    | none => a = default := by
  rw [← readRecord_field? hdistinct hname hfields]
  unfold Fields.getD at hget
  cases hfield : field? name fields with
  | some value =>
    rw [hfield] at hget
    exact hget
  | none =>
    rw [hfield] at hget
    cases hget
    rfl

end

end Json

/-- A list is read from a list, item by item. -/
theorem list_of_ofJson {α : Type} [JsonForm α] {j : Json} {xs : List α} (h : ofJson j = .ok xs) :
    ∃ items, j = .list items ∧ List.Forall₂ (fun item x => ofJson item = .ok x) items xs := by
  cases j with
  | list items =>
    refine ⟨items, rfl, ?_⟩
    change items.mapM ofJson = Except.ok xs at h
    -- Every item is read, or the whole list is not.
    induction items generalizing xs with
    | nil =>
      cases h
      exact .nil
    | cons item items ih =>
      rw [List.mapM_cons] at h
      obtain ⟨x, hx, h⟩ := bind_eq_ok.1 h
      obtain ⟨rest, hrest, h⟩ := bind_eq_ok.1 h
      cases h
      exact .cons hx (ih hrest)
  | _ => cases h

end LedgerClient
