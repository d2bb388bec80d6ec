import LedgerClient.Text.Blank
import LedgerClient.Text.Split
import Mathlib.Data.List.DropRight

/-!
# `LedgerClient.Proofs.Text.Cuts`: where a text is cut

A text is cut at its first separator exactly if what is before the cut
has no separator in it (`splitFirst_eq_some_iff`), and it is not cut
exactly if it has none at all (`splitFirst_eq_none_iff`).

Cutting at every separator is the library's `List.splitOn`, so the parts
are the ones without a separator that give the text when they are joined
again (`splitAll_eq_iff`).

What is cut off at the ends of a text leaves no choice either. A given
beginning is dropped exactly if it is there (`dropLeading?_eq_some_iff`),
and of all ways to see a text between white space, trimming gives the one
that leaves none of it at the ends (`trim_eq_iff`).
-/

set_option autoImplicit false

namespace LedgerClient.Text

/-- A text is not cut exactly if it has no separator. -/
theorem splitFirst_eq_none_iff {sep : Char} {cs : List Char} :
    splitFirst sep cs = none ↔ sep ∉ cs := by
  induction cs with
  | nil => simp [splitFirst]
  | cons c cs ih =>
    rw [splitFirst]
    by_cases hc : c = sep
    · simp [hc]
    · simp [hc, ih, Ne.symm hc]

/-- The cut of a text that is joined at a separator, if that is the first one. -/
theorem splitFirst_append {sep : Char} {before : List Char} (h : sep ∉ before)
    (after : List Char) : splitFirst sep (before ++ sep :: after) = some (before, after) := by
  induction before with
  | nil => simp [splitFirst]
  | cons c cs ih =>
    simp only [List.mem_cons, not_or] at h
    simp [splitFirst, Ne.symm h.1, ih h.2]

/-- A text is the two sides of its cut joined again, and the cut is at the first separator. -/
theorem of_splitFirst_eq_some {sep : Char} {cs before after : List Char}
    (h : splitFirst sep cs = some (before, after)) :
    cs = before ++ sep :: after ∧ sep ∉ before := by
  induction cs generalizing before with
  | nil => simp [splitFirst] at h
  | cons c cs ih =>
    rw [splitFirst] at h
    by_cases hc : c = sep
    · -- The first character is the separator, so nothing is before the cut.
      rw [if_pos hc] at h
      cases h
      simp [hc]
    · rw [if_neg hc, Option.map_eq_some_iff] at h
      obtain ⟨⟨before', after'⟩, hcut, hparts⟩ := h
      cases hparts
      obtain ⟨hcs, hsep⟩ := ih hcut
      refine ⟨by rw [hcs, List.cons_append], ?_⟩
      simp [hsep, Ne.symm hc]

/-- A text is cut at the separator that has none before it. -/
theorem splitFirst_eq_some_iff {sep : Char} {cs before after : List Char} :
    splitFirst sep cs = some (before, after) ↔ cs = before ++ sep :: after ∧ sep ∉ before := by
  constructor
  · exact of_splitFirst_eq_some
  · rintro ⟨rfl, h⟩
    exact splitFirst_append h after

/-- The parts of a text are those of the library. -/
theorem splitAll_eq_splitOn (sep : Char) (cs : List Char) :
    splitAll sep cs = cs.splitOn sep := by
  induction cs with
  | nil => rfl
  | cons c cs ih =>
    rw [splitAll, List.splitOn_cons_eq_if_modifyHead, ih]
    by_cases hc : c = sep
    · simp [hc]
    · -- The library puts the character in front of the first part, and there always is one.
      simp only [hc, if_false, beq_iff_eq]
      cases hparts : cs.splitOn sep with
      | nil => exact absurd hparts (List.splitOn_ne_nil sep cs)
      | cons part parts => rfl

/-- No part of a text has a separator in it. -/
theorem notMem_of_mem_splitAll {sep : Char} {cs part : List Char} (h : part ∈ splitAll sep cs) :
    sep ∉ part := by
  induction cs generalizing part with
  | nil =>
    rw [splitAll, List.mem_singleton] at h
    simp [h]
  | cons c cs ih =>
    rw [splitAll] at h
    by_cases hc : c = sep
    · rw [if_pos hc, List.mem_cons] at h
      rcases h with rfl | h
      · simp
      · exact ih h
    · -- The character goes to the front of the first part.
      rw [if_neg hc] at h
      cases hparts : splitAll sep cs with
      | nil =>
        rw [splitAll_eq_splitOn] at hparts
        exact absurd hparts (List.splitOn_ne_nil sep cs)
      | cons first parts =>
        simp only [hparts, List.mem_cons] at h ih
        rcases h with rfl | h
        · simp [Ne.symm hc, ih (.inl rfl)]
        · exact ih (.inr h)

/-- The parts of a text have no separator in them, and are the text when they are joined. -/
theorem splitAll_eq_iff {sep : Char} {cs : List Char} {parts : List (List Char)}
    (hne : parts ≠ []) :
    splitAll sep cs = parts ↔ cs = [sep].intercalate parts ∧ ∀ part ∈ parts, sep ∉ part := by
  constructor
  · intro h
    subst h
    refine ⟨?_, fun part hpart => notMem_of_mem_splitAll hpart⟩
    rw [splitAll_eq_splitOn, List.intercalate_splitOn]
  · rintro ⟨rfl, hparts⟩
    rw [splitAll_eq_splitOn, List.splitOn_intercalate sep hparts hne]

/-! ### The ends of a text -/

/-- A beginning is dropped exactly if the text has it, whatever the rest is. -/
theorem dropLeading?_eq_some_iff {ps cs rest : List Char} :
    dropLeading? ps cs = some rest ↔ cs = ps ++ rest := by
  induction ps generalizing cs with
  | nil => simp [dropLeading?]
  | cons p ps ih =>
    cases cs with
    | nil => simp [dropLeading?]
    | cons c cs =>
      -- Both lists lose their first element, if it is the same.
      rw [dropLeading?]
      by_cases hc : p = c
      · simp [hc, ih]
      · simp [hc, Ne.symm hc]

/-- Nothing but white space. -/
def Blank (cs : List Char) : Prop := ∀ c ∈ cs, isBlank c = true

instance (cs : List Char) : Decidable (Blank cs) :=
  decidable_of_iff (cs.all isBlank = true) List.all_eq_true

/-- No white space at either end. -/
structure Trimmed (cs : List Char) : Prop where
  head : ∀ c ∈ cs.head?, isBlank c = false
  last : ∀ c ∈ cs.getLast?, isBlank c = false

/-- A text that has white space nowhere has none at its ends. -/
theorem Trimmed.of_all {cs : List Char} (h : ∀ c ∈ cs, isBlank c = false) : Trimmed cs where
  head c hc := h c (List.mem_of_mem_head? hc)
  last c hc := h c (List.mem_of_getLast? hc)

/-- Both ends are trimmed, the first one first. -/
theorem trim_eq_rdropWhile (cs : List Char) :
    trim cs = (cs.dropWhile isBlank).rdropWhile isBlank := rfl

/-- White space around a text is cut off, and no more than that. -/
theorem trim_append {before core after : List Char} (hbefore : Blank before) (hcore : Trimmed core)
    (hafter : Blank after) : trim (before ++ core ++ after) = core := by
  have hafter' : Blank after.reverse := by
    intro c hc
    exact hafter c (List.mem_reverse.1 hc)
  rw [trim_eq_rdropWhile, List.append_assoc, List.dropWhile_append_of_pos hbefore]
  cases core with
  | nil =>
    -- All of the text is white space, and trimming the first end takes it away.
    rw [List.nil_append, List.dropWhile_eq_nil_iff.2 hafter, List.rdropWhile_nil]
  | cons c cs =>
    have hhead : isBlank c = false := hcore.head c rfl
    have hlast : (c :: cs).rdropWhile isBlank = c :: cs := by
      rw [List.rdropWhile_eq_self_iff]
      intro hne
      simp [hcore.last _ (List.getLast?_eq_some_getLast hne)]
    rw [List.cons_append, List.dropWhile_cons_of_neg (by simp [hhead]), ← List.cons_append,
      List.rdropWhile, List.reverse_append, List.dropWhile_append_of_pos hafter']
    exact hlast

/-- A text is trimmed to what has no white space at its ends and has only white space around
it. -/
theorem trim_eq_iff {cs core : List Char} :
    trim cs = core ↔
      (∃ before after, Blank before ∧ Blank after ∧ cs = before ++ core ++ after) ∧
        Trimmed core := by
  constructor
  · -- What is cut off is the white space that each end starts with.
    intro h
    subst h
    have hparts : trim cs ++ (cs.dropWhile isBlank).rtakeWhile isBlank = cs.dropWhile isBlank :=
      List.rdropWhile_append_rtakeWhile
    refine ⟨⟨cs.takeWhile isBlank, (cs.dropWhile isBlank).rtakeWhile isBlank, ?_, ?_, ?_⟩, ?_, ?_⟩
    · intro c hc
      exact List.mem_takeWhile_imp hc
    · intro c hc
      exact List.mem_rtakeWhile_imp hc
    · rw [List.append_assoc, hparts, List.takeWhile_append_dropWhile]
    · intro c hc
      have hhead : (cs.dropWhile isBlank).head? = some c := by
        rw [← hparts, List.head?_append, hc, Option.some_or]
      have hstop := List.head?_dropWhile_not isBlank cs
      rw [hhead] at hstop
      exact hstop
    · intro c hc
      obtain ⟨hne, rfl⟩ := List.mem_getLast?_eq_getLast hc
      exact Bool.eq_false_iff.2 (List.rdropWhile_last_not isBlank (cs.dropWhile isBlank) hne)
  · rintro ⟨⟨before, after, hbefore, hafter, rfl⟩, hcore⟩
    exact trim_append hbefore hcore hafter

end LedgerClient.Text
