/-!
# `LedgerClient.Table`: values by key

A finite map as the list of its entries, at most one for each key
that was ever inserted. The maps of a client are small (a handful of
nodes, sessions or counters), and what matters about them is which
keys they hold and that an update of one key leaves the others alone;
both are read off `get?` below.
-/

set_option autoImplicit false

namespace LedgerClient

/-- A finite map from `κ` to `α`, as its entries. -/
abbrev Table (κ α : Type) := List (κ × α)

namespace Table

variable {κ α : Type} [DecidableEq κ]

/-- The value stored under a key. -/
def get? (key : κ) : Table κ α → Option α
  | [] => none
  | (k, v) :: rest => if k = key then some v else get? key rest

/-- Whether a key has a value. -/
def contains (key : κ) (table : Table κ α) : Bool :=
  (get? key table).isSome

/-- Stores a value, in the place of the one that the key had, if any. -/
def insert (key : κ) (value : α) : Table κ α → Table κ α
  | [] => [(key, value)]
  | (k, v) :: rest =>
    if k = key then (key, value) :: rest else (k, v) :: insert key value rest

/-- Forgets a key. -/
def erase (key : κ) : Table κ α → Table κ α
  | [] => []
  | (k, v) :: rest => if k = key then erase key rest else (k, v) :: erase key rest

/-- What is stored under a key is found there. -/
@[simp] theorem get?_insert_self (key : κ) (value : α) (table : Table κ α) :
    get? key (insert key value table) = some value := by
  induction table with
  | nil => simp [insert, get?]
  | cons entry rest ih =>
    obtain ⟨k, v⟩ := entry
    by_cases h : k = key <;> simp [insert, get?, h, ih]

/-- Nothing else is found anew under another key. -/
theorem get?_insert_of_ne {key other : κ} (h : other ≠ key) (value : α) (table : Table κ α) :
    get? other (insert key value table) = get? other table := by
  induction table with
  | nil => simp [insert, get?, Ne.symm h]
  | cons entry rest ih =>
    obtain ⟨k, v⟩ := entry
    by_cases hk : k = key
    · subst hk; simp [insert, get?, Ne.symm h]
    · by_cases ho : k = other <;> simp_all [insert, get?]

/-- What is forgotten is no longer found. -/
@[simp] theorem get?_erase_self (key : κ) (table : Table κ α) :
    get? key (erase key table) = none := by
  induction table with
  | nil => rfl
  | cons entry rest ih =>
    obtain ⟨k, v⟩ := entry
    by_cases h : k = key <;> simp [erase, get?, h, ih]

/-- What is under another key is not forgotten. -/
theorem get?_erase_of_ne {key other : κ} (h : other ≠ key) (table : Table κ α) :
    get? other (erase key table) = get? other table := by
  induction table with
  | nil => rfl
  | cons entry rest ih =>
    obtain ⟨k, v⟩ := entry
    by_cases hk : k = key
    · subst hk; simp [erase, get?, Ne.symm h, ih]
    · by_cases ho : k = other <;> simp_all [erase, get?]

/-- The keys, in the order of their entries. -/
def keys (table : Table κ α) : List κ :=
  table.map Prod.fst

/-- The keys are those under which something is found. -/
theorem mem_keys_iff {key : κ} {table : Table κ α} :
    key ∈ keys table ↔ contains key table = true := by
  induction table with
  | nil => simp [keys, contains, get?]
  | cons entry rest ih =>
    obtain ⟨k, v⟩ := entry
    by_cases h : k = key
    · subst h; simp [keys, contains, get?]
    · simpa [keys, contains, get?, h, Ne.symm h] using ih

/-- Storing adds one key, unless it was there. -/
theorem contains_insert (key other : κ) (value : α) (table : Table κ α) :
    contains other (insert key value table) = (decide (other = key) || contains other table) := by
  by_cases h : other = key
  · subst h; simp [contains]
  · simp [contains, get?_insert_of_ne h, h]

/-- Forgetting takes one away. -/
theorem contains_erase (key other : κ) (table : Table κ α) :
    contains other (erase key table) = (decide (other ≠ key) && contains other table) := by
  by_cases h : other = key
  · subst h; simp [contains]
  · simp [contains, get?_erase_of_ne h, h]

/-- A key that has a value keeps its place when another value is stored under it. -/
theorem keys_insert_of_contains {key : κ} {table : Table κ α} (h : contains key table = true)
    (value : α) : keys (insert key value table) = keys table := by
  induction table with
  | nil => cases h
  | cons entry rest ih =>
    obtain ⟨k, v⟩ := entry
    by_cases hkey : k = key
    · simp [insert, keys, hkey]
    · have hrest : contains key rest = true := by simpa [contains, get?, hkey] using h
      rw [insert, if_neg hkey]
      exact congrArg (k :: ·) (ih hrest)

/-- Storing a value gives no key a second entry. -/
theorem nodup_keys_insert {table : Table κ α} (h : (keys table).Nodup) (key : κ) (value : α) :
    (keys (insert key value table)).Nodup := by
  induction table with
  | nil => simp [insert, keys]
  | cons entry rest ih =>
    obtain ⟨k, v⟩ := entry
    obtain ⟨hk, hrest⟩ := List.nodup_cons.1 h
    by_cases hkey : k = key
    · subst hkey
      rw [insert, if_pos rfl]
      exact h
    · rw [insert, if_neg hkey]
      have hnew : k ∉ keys (insert key value rest) := by
        rw [mem_keys_iff, contains_insert]
        simpa [hkey] using fun hin => hk (mem_keys_iff.2 hin)
      exact List.nodup_cons.2 ⟨hnew, ih hrest⟩

/-- Forgetting a key gives no other a second entry. -/
theorem nodup_keys_erase {table : Table κ α} (h : (keys table).Nodup) (key : κ) :
    (keys (erase key table)).Nodup := by
  induction table with
  | nil => exact h
  | cons entry rest ih =>
    obtain ⟨k, v⟩ := entry
    obtain ⟨hk, hrest⟩ := List.nodup_cons.1 h
    by_cases hkey : k = key
    · rw [erase, if_pos hkey]
      exact ih hrest
    · rw [erase, if_neg hkey]
      have hleft : k ∉ keys (erase key rest) := by
        rw [mem_keys_iff, contains_erase]
        simpa [hkey] using fun hin => hk (mem_keys_iff.2 hin)
      exact List.nodup_cons.2 ⟨hleft, ih hrest⟩

end Table

end LedgerClient
