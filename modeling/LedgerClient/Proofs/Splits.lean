/-!
# `LedgerClient.Proofs.Splits`: every place in a history

A history is a list that grows at its end: calls, choices, signatures.
What is said of each entry together with those before it is said of
every way to split the list, `xs = ys ++ y :: zs`. Such a property is
carried from one step to the next by the lemma below.
-/

set_option autoImplicit false

namespace LedgerClient

/-- A property of every place in a list that is one longer: of the places in the list, and of the
last one. -/
theorem forall_splits_concat {β : Type} {P : List β → β → Prop} {xs : List β} {x : β}
    (h : ∀ ys y zs, xs = ys ++ y :: zs → P ys y) (hx : P xs x) :
    ∀ ys y zs, xs ++ [x] = ys ++ y :: zs → P ys y := by
  intro ys y zs he
  rcases List.eq_nil_or_concat zs with rfl | ⟨ws, w, rfl⟩
  · obtain ⟨hxs, hxy⟩ := List.append_inj' he rfl
    cases hxs
    cases hxy
    exact hx
  · rw [List.concat_eq_append, ← List.cons_append, ← List.append_assoc] at he
    exact h ys y ws (List.append_inj' he rfl).1

end LedgerClient
