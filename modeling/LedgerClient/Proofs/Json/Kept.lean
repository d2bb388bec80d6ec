import LedgerClient.Json.Parser
import LedgerClient.Proofs.Json.Fields
import Mathlib.Data.List.Induction
import Mathlib.Data.List.Nodup
import Mathlib.Data.String.Basic

/-!
# `LedgerClient.Proofs.Json.Kept`: what an untyped reading keeps

An untyped reading keeps one field of each name, and it is the last one
that was written. `mem_sortFields_iff` says so of the fields of one
record, by induction on the fields as they were written, and `Kept` that
the names of a record differ at every depth of the value. `kept_of_read?`
is that every value which is read from a text is one of these, by
induction on the levels of nesting that are to spare.

In a record whose names differ, a field is found under its name exactly
if it is one of the fields (`field?_eq_some_iff`). So what is said of a
value that was kept can be said in terms of the fields that it has,
without a rule for names that come twice.
-/

set_option autoImplicit false

namespace LedgerClient.Json

/-- The names of fields. -/
def names (fields : List (String × Json)) : List String := fields.map Prod.fst

/-- The names of fields are those of the first and of the rest. -/
@[simp] theorem names_cons (name : String) (value : Json) (fields : List (String × Json)) :
    names ((name, value) :: fields) = name :: names fields := rfl

section
variable {name : String} {value : Json} {fields : List (String × Json)}

/-! ### Fields with different names -/

/-- A field has its name among those of the record. -/
theorem mem_names_of_mem (h : (name, value) ∈ fields) : name ∈ names fields :=
  List.mem_map_of_mem h

/-- A name belongs to a field. -/
theorem exists_of_mem_names (h : name ∈ names fields) : ∃ value, (name, value) ∈ fields := by
  obtain ⟨⟨_, value⟩, hmem, rfl⟩ := List.mem_map.1 h
  exact ⟨value, hmem⟩

/-- A field that is found under a name is one of the fields. -/
theorem mem_of_field? (h : field? name fields = some value) : (name, value) ∈ fields := by
  obtain ⟨⟨found, _⟩, hfound, rfl⟩ := Option.map_eq_some_iff.1 h
  have hname : found = name := by simpa using List.find?_some hfound
  rw [← hname]
  exact List.mem_reverse.1 (List.mem_of_find?_eq_some hfound)

/-- Nothing is found under a name exactly if no field has it. -/
theorem field?_eq_none_iff : field? name fields = none ↔ name ∉ names fields := by
  induction fields with
  | nil => simp [field?, names]
  | cons field fields ih =>
    obtain ⟨other, value⟩ := field
    rw [field?_cons, Option.or_eq_none_iff, ih, names_cons, List.mem_cons, not_or, and_comm]
    simp [eq_comm]

/-- Where no name comes twice, what is found under a name is the field that has it. -/
theorem field?_eq_some_iff (hdistinct : (names fields).Nodup) :
    field? name fields = some value ↔ (name, value) ∈ fields := by
  refine ⟨mem_of_field?, fun hmem => ?_⟩
  induction fields with
  | nil => cases hmem
  | cons field fields ih =>
    obtain ⟨other, first⟩ := field
    obtain ⟨hnew, hdistinct⟩ := List.nodup_cons.1 hdistinct
    rw [field?_cons]
    -- The last field with a name counts, so the first one is found only if no other has its name.
    rcases List.mem_cons.1 hmem with heq | hmem
    · cases heq
      rw [field?_eq_none_iff.2 hnew, Option.none_or, if_pos rfl]
    · rw [ih hdistinct hmem, Option.some_or]

/-- A field whose name comes once is the only one with it. -/
theorem eq_of_once {last : Json} {before after : List (String × Json)}
    (h : name ∉ names (before ++ after)) (hmem : (name, last) ∈ before ++ (name, value) :: after) :
    last = value := by
  rcases List.mem_append.1 hmem with hbefore | hmem
  · exact absurd (mem_names_of_mem (List.mem_append_left after hbefore)) h
  · rcases List.mem_cons.1 hmem with heq | hafter
    · exact congrArg Prod.snd heq
    · exact absurd (mem_names_of_mem (List.mem_append_right before hafter)) h

/-- Leaving out a field that is not there leaves the fields as they are. -/
theorem filter_of_missing (h : name ∉ names fields) :
    fields.filter (fun f => f.1 ≠ name) = fields := by
  refine List.filter_eq_self.2 fun field hmem => ?_
  have hne : field.1 ≠ name := fun heq => h (heq ▸ List.mem_map_of_mem hmem)
  simpa using hne

/-- Leaving out a field that is there once leaves the others. -/
theorem filter_of_once {before after : List (String × Json)}
    (h : name ∉ names (before ++ after)) :
    (before ++ (name, value) :: after).filter (fun f => f.1 ≠ name) = before ++ after := by
  rw [List.filter_append, List.filter_cons_of_neg (by simp), ← List.filter_append,
    filter_of_missing h]

/-- A field whose name comes once stands between the others. -/
theorem exists_split (hdistinct : (names fields).Nodup)
    (h : (name, value) ∈ fields) : ∃ before after, fields = before ++ (name, value) :: after ∧
      name ∉ names (before ++ after) := by
  obtain ⟨before, after, rfl⟩ := List.append_of_mem h
  refine ⟨before, after, rfl, ?_⟩
  rw [names, List.map_append, List.map_cons, List.nodup_middle] at hdistinct
  rw [names, List.map_append]
  exact (List.nodup_cons.1 hdistinct).1

end

/-! ### Sorting -/

/-- The names of fields are in order, each once. -/
def Sorted (fields : List (String × Json)) : Prop := (names fields).Pairwise (· < ·)

/-- In the order of the names none is there twice, since the order is strict. -/
theorem Sorted.nodup {fields : List (String × Json)} (h : Sorted fields) : (names fields).Nodup :=
  h.imp fun hlt => ne_of_lt hlt

/-- Fields are in order if the rest is and the first comes before all of it. -/
theorem sorted_cons_iff {name : String} {value : Json} {fields : List (String × Json)} :
    Sorted ((name, value) :: fields) ↔ (∀ other ∈ names fields, name < other) ∧ Sorted fields :=
  List.pairwise_cons

section
variable {name other : String} {value new : Json} {fields : List (String × Json)}

/-- Of a field with a new name and some others, a field is the one or among the others, as its name
says. -/
theorem mem_cons_iff_of_new (hnew : name ∉ names fields) : (other, value) ∈ (name, new) :: fields ↔
    if name = other then value = new else (other, value) ∈ fields := by
  by_cases hname : name = other
  · have hothers : (other, value) ∉ fields := fun hmem => hnew (hname ▸ mem_names_of_mem hmem)
    simp [hname, hothers]
  · simp [hname, Ne.symm hname]

/-- A field that is stored takes the place of one with its name, and the others stay. -/
theorem Sorted.mem_insertField_iff (h : Sorted fields) :
    (other, value) ∈ insertField name new fields ↔
      if name = other then value = new else (other, value) ∈ fields := by
  induction fields with
  | nil => exact mem_cons_iff_of_new List.not_mem_nil
  | cons field fields ih =>
    obtain ⟨first, old⟩ := field
    obtain ⟨hfirst, hrest⟩ := sorted_cons_iff.1 h
    rw [insertField]
    -- The new field goes before the first one, takes its place, or goes somewhere behind it.
    split
    next hlt =>
      refine mem_cons_iff_of_new fun hmem => ?_
      rcases List.mem_cons.1 hmem with heq | hmem
      · exact ne_of_lt hlt heq
      · exact lt_asymm hlt (hfirst name hmem)
    next hlt =>
      split
      next heq =>
        subst heq
        rw [mem_cons_iff_of_new fun hmem => lt_irrefl _ (hfirst name hmem)]
        by_cases hname : name = other
        · simp [hname]
        · simp [hname, Ne.symm hname]
      next hne =>
        rw [List.mem_cons, ih hrest]
        by_cases hname : name = other
        · simp [hname, hname ▸ hne]
        · simp [hname]

/-- Storing a field adds its name. -/
theorem mem_names_insertField_iff : other ∈ names (insertField name new fields) ↔
    other = name ∨ other ∈ names fields := by
  induction fields with
  | nil => simp [insertField, names]
  | cons field fields ih =>
    obtain ⟨first, old⟩ := field
    rw [insertField]
    -- The name is new in front of the first field, or takes its place, or belongs further back.
    split
    · simp
    · split
      next heq => simp [heq]
      · rw [names_cons, List.mem_cons, ih, names_cons, List.mem_cons, or_left_comm]

/-- Storing a field keeps the names in order. -/
theorem Sorted.insertField (h : Sorted fields) : Sorted (insertField name new fields) := by
  induction fields with
  | nil => exact List.pairwise_singleton _ _
  | cons field fields ih =>
    obtain ⟨first, old⟩ := field
    obtain ⟨hfirst, hrest⟩ := sorted_cons_iff.1 h
    rw [Json.insertField]
    -- The same three places: whatever comes first stays below all the names behind it.
    split
    next hlt =>
      refine sorted_cons_iff.2 ⟨fun other hother => ?_, h⟩
      rcases List.mem_cons.1 hother with rfl | hother
      · exact hlt
      · exact lt_trans hlt (hfirst other hother)
    next hlt =>
      split
      next heq => exact sorted_cons_iff.2 ⟨heq ▸ hfirst, hrest⟩
      next hne =>
        have hgt : first < name := lt_of_le_of_ne (not_lt.1 hlt) (Ne.symm hne)
        refine sorted_cons_iff.2 ⟨fun other hother => ?_, ih hrest⟩
        rcases mem_names_insertField_iff.1 hother with rfl | hother
        · exact hgt
        · exact hfirst other hother

/-- Sorting takes the fields one by one, so the last one is inserted last. -/
theorem sortFields_concat : sortFields (fields ++ [(name, new)]) =
    insertField name new (sortFields fields) := by
  rw [sortFields, List.foldl_append]
  rfl

/-- Sorted fields are in order. -/
theorem sorted_sortFields (fields : List (String × Json)) : Sorted (sortFields fields) := by
  induction fields using List.reverseRecOn with
  | nil => exact .nil
  | append_singleton fields field ih =>
    rw [sortFields_concat]
    exact ih.insertField

/-- Of the fields with one name, sorting keeps the last. -/
theorem mem_sortFields_iff :
    (name, value) ∈ sortFields fields ↔ field? name fields = some value := by
  induction fields using List.reverseRecOn with
  | nil => simp [sortFields, field?]
  | append_singleton fields field ih =>
    rw [sortFields_concat, (sorted_sortFields fields).mem_insertField_iff, ih, field?_concat]
    by_cases hname : field.1 = name
    · simp [hname, eq_comm]
    · simp [hname]

end

/-! ### Values -/

/-- A value as an untyped reading keeps it: everything in it denotes something, and the names of the
fields of a record are in order, each once, at every depth. -/
inductive Kept : Json → Prop
  | null : Kept .null
  | bool (value : Bool) : Kept (.bool value)
  | integer (value : Int) : Kept (.integer value)
  | real (value : Binary64) : Kept (.real value)
  | text (value : String) : Kept (.text value)
  | list {items : List Json} (items_kept : ∀ item ∈ items, Kept item) : Kept (.list items)
  | record {fields : List (String × Json)} (sorted : Sorted fields)
      (fields_kept : ∀ name value, (name, value) ∈ fields → Kept value) : Kept (.record fields)

/-- A record as it is kept has no name twice. -/
theorem Kept.nodup {fields : List (String × Json)} (h : (Json.record fields).Kept) :
    (names fields).Nodup := by
  cases h with
  | record sorted => exact sorted.nodup

/-- The items of a list are kept if each of them is. -/
theorem kept_of_settledItems {depth : Nat}
    (hdepth : ∀ {j kept : Json}, settledWithin depth j = some kept → kept.Kept)
    {items kept : List Json} (h : settledItems depth items = some kept) :
    ∀ item ∈ kept, item.Kept := by
  induction items generalizing kept with
  | nil =>
    cases h
    exact nofun
  | cons item items ih =>
    rw [settledItems] at h
    obtain ⟨first, hfirst, h⟩ := Option.bind_eq_some_iff.1 h
    obtain ⟨rest, hrest, h⟩ := Option.bind_eq_some_iff.1 h
    cases h
    exact List.forall_mem_cons.2 ⟨hdepth hfirst, ih hrest⟩

/-- The values of fields are kept if each of them is. -/
theorem kept_of_settledFields {depth : Nat}
    (hdepth : ∀ {j kept : Json}, settledWithin depth j = some kept → kept.Kept)
    {fields kept : List (String × Json)} (h : settledFields depth fields = some kept) :
    ∀ field ∈ kept, field.2.Kept := by
  induction fields generalizing kept with
  | nil =>
    cases h
    exact nofun
  | cons field fields ih =>
    obtain ⟨name, value⟩ := field
    rw [settledFields] at h
    obtain ⟨first, hfirst, h⟩ := Option.bind_eq_some_iff.1 h
    obtain ⟨rest, hrest, h⟩ := Option.bind_eq_some_iff.1 h
    cases h
    exact List.forall_mem_cons.2 ⟨hdepth hfirst, ih hrest⟩

/-- What is kept of a value is a value that is kept. -/
theorem kept_of_settledWithin {depth : Nat} {j kept : Json}
    (h : settledWithin depth j = some kept) : kept.Kept := by
  -- The parts of a list or a record have one level less to spare.
  induction depth generalizing j kept with
  | zero => cases j <;> cases h <;> constructor
  | succ depth ih =>
    cases j with
    | list items =>
      rw [settledWithin] at h
      obtain ⟨keptItems, hitems, rfl⟩ := Option.map_eq_some_iff.1 h
      exact .list (kept_of_settledItems ih hitems)
    | record fields =>
      rw [settledWithin] at h
      obtain ⟨keptFields, hfields, rfl⟩ := Option.map_eq_some_iff.1 h
      -- After sorting no name comes twice, so a field that is there is the last one written with
      -- its name.
      refine .record (sorted_sortFields keptFields) fun name value hmem => ?_
      have hwritten := mem_of_field? (mem_sortFields_iff.1 hmem)
      exact kept_of_settledFields ih hfields (name, value) hwritten
    | _ => cases h <;> constructor

/-- What is read from a text is a value that is kept. -/
theorem kept_of_read? {text : String} {j : Json} (h : read? text = some j) : j.Kept := by
  obtain ⟨written, -, hkept⟩ := Option.bind_eq_some_iff.1 h
  exact kept_of_settledWithin hkept

end LedgerClient.Json
