import LedgerClient.Proofs.Retry.Run

/-!
# `LedgerClient.Proofs.Retry.Waiting`: what ends a wait

Two instants can end a request from outside: the deadline, and the one
at which the caller cancels. `Scene.Overdue` and `Scene.Cancelled` say
that they have come. This module reads both off the two places where
the engine looks at them: the check before an attempt
(`Progress.open_iff`), and the wait after a failed one
(`Pause.ofWait_spec`).

An attempt cannot carry a request past its deadline either, because the
limit of an attempt is cut to the time that is left
(`Budget.le_of_attemptLimit`).
-/

set_option autoImplicit false

namespace LedgerClient

variable {σ α : Type}

/-! ### Instants -/

/-- The caller has cancelled by now, as far as the outside tells. -/
def Scene.Cancelled (cancelledAt : σ → Option Time) (scene : Scene σ) : Prop :=
  ∃ c ∈ cancelledAt scene.world, c ≤ scene.now

/-- The deadline has passed by now. -/
def Scene.Overdue (budget : Budget) (scene : Scene σ) : Prop :=
  ∃ d ∈ budget.deadline, d ≤ scene.now

namespace Progress

/-- The check between attempts sees whether the request is cancelled by now. -/
theorem cancelled_iff (cancelledAt : σ → Option Time) (p : Progress σ) :
    p.cancelled cancelledAt = true ↔ p.scene.Cancelled cancelledAt := by
  unfold cancelled Scene.Cancelled
  cases cancelledAt p.scene.world <;> simp

/-- It sees whether the deadline has passed, in the same way. -/
theorem deadlinePassed_iff (budget : Budget) (p : Progress σ) :
    budget.deadlinePassed p.scene.now = true ↔ p.scene.Overdue budget := by
  unfold Budget.deadlinePassed Scene.Overdue
  cases budget.deadline <;> simp

/-- An attempt is only made before the deadline and before a cancellation. -/
theorem open_iff (budget : Budget) (cancelledAt : σ → Option Time) (p : Progress σ) :
    p.Open budget cancelledAt ↔
      (∀ c ∈ cancelledAt p.scene.world, p.scene.now < c) ∧
        ∀ d ∈ budget.deadline, p.scene.now < d := by
  have hc := p.cancelled_iff cancelledAt
  have hd := deadlinePassed_iff budget p
  unfold Scene.Cancelled at hc
  unfold Scene.Overdue at hd
  -- Both checks are negated, so an open state has neither cancellation nor deadline behind it.
  constructor
  · rintro ⟨huncancelled, hintime⟩
    simp only [huncancelled, hintime, Bool.false_eq_true, false_iff, not_exists, not_and,
      Nat.not_le] at hc hd
    exact ⟨hc, hd⟩
  · rintro ⟨huncancelled, hintime⟩
    refine ⟨?_, ?_⟩
    · rw [← Bool.not_eq_true, hc]
      rintro ⟨c, hmem, hle⟩
      exact Nat.not_lt_of_le hle (huncancelled c hmem)
    · rw [← Bool.not_eq_true, hd]
      rintro ⟨d, hmem, hle⟩
      exact Nat.not_lt_of_le hle (hintime d hmem)

end Progress

/-- An attempt that starts before the deadline and keeps to its limit ends by the deadline. -/
theorem Budget.le_of_attemptLimit {budget : Budget} {now ended d : Time}
    (hd : d ∈ budget.deadline) (hnow : now ≤ d) (hended : ended ≤ now + budget.attemptLimit now) :
    ended ≤ d := by
  rw [attemptLimit, Option.mem_def.1 hd] at hended
  have hmin : min budget.requestTimeout (d - now) ≤ d - now := Nat.min_le_right _ _
  calc ended ≤ now + min budget.requestTimeout (d - now) := hended
    _ ≤ now + (d - now) := Nat.add_le_add_left hmin now
    _ = d := Nat.add_sub_of_le hnow

/-- A wait that only the deadline can end. -/
theorem Pause.beforeDeadline_spec (deadline : Option Time) (now wait : Time) :
    match Pause.beforeDeadline deadline now (now + wait) with
    | .cancelled _ => False
    | .deadline t => ∃ d ∈ deadline, d ≤ t ∧ t = max now d
    | .resume t => t = now + wait ∧ ∀ d ∈ deadline, t < d := by
  unfold beforeDeadline
  cases deadline with
  | none => exact ⟨rfl, nofun⟩
  | some d =>
    -- The deadline ends the wait if it is not past its end, also if they come together.
    by_cases hd : d ≤ now + wait
    · simp only [hd, if_true]
      exact ⟨d, rfl, Nat.le_max_right now d, rfl⟩
    · simp only [hd, if_false]
      refine ⟨trivial, fun d' hd' => ?_⟩
      cases hd'
      exact Nat.lt_of_not_le hd

/-- A wait ends with whatever comes first: the cancellation, the deadline, its own end. Where
they come together, the cancellation wins over the deadline, and the deadline over the end. -/
theorem Pause.ofWait_spec (cancelledAt deadline : Option Time) (now : Time) (wait : Duration) :
    match Pause.ofWait cancelledAt deadline now wait with
    | .cancelled t => now ≤ t ∧ (∃ c ∈ cancelledAt, c ≤ t) ∧ ∀ d ∈ deadline, t ≤ max now d
    | .deadline t => (∃ d ∈ deadline, d ≤ t ∧ t = max now d) ∧ ∀ c ∈ cancelledAt, t < c
    | .resume t => t = now + wait ∧ (∀ d ∈ deadline, t < d) ∧ ∀ c ∈ cancelledAt, t < c := by
  -- First where the deadline and the end of the wait leave it, then whether a cancellation comes
  -- before that.
  have hbefore := beforeDeadline_spec deadline now wait
  unfold ofWait
  cases hp : beforeDeadline deadline now (now + wait) with
  | cancelled t => simp [hp] at hbefore
  | deadline t =>
    rw [hp] at hbefore
    obtain ⟨d, hd, hdt, ht⟩ := hbefore
    cases cancelledAt with
    | none => exact ⟨⟨d, hd, hdt, ht⟩, nofun⟩
    | some c =>
      -- A cancellation at the same instant comes first.
      by_cases hc : c ≤ t
      · simp only [time, hc, if_true]
        refine ⟨Nat.le_max_left now c, ⟨c, rfl, Nat.le_max_right now c⟩, fun d' hd' => ?_⟩
        rw [Option.mem_unique hd' hd, ← ht]
        exact Nat.max_le.2 ⟨ht ▸ Nat.le_max_left now d, hc⟩
      · simp only [time, hc, if_false]
        refine ⟨⟨d, hd, hdt, ht⟩, fun c' hc' => ?_⟩
        cases hc'
        exact Nat.lt_of_not_le hc
  | resume t =>
    rw [hp] at hbefore
    obtain ⟨ht, hbound⟩ := hbefore
    cases cancelledAt with
    | none => exact ⟨ht, hbound, nofun⟩
    | some c =>
      -- So it does where the wait would have ended by itself.
      by_cases hc : c ≤ t
      · simp only [time, hc, if_true]
        refine ⟨Nat.le_max_left now c, ⟨c, rfl, Nat.le_max_right now c⟩, fun d hd => ?_⟩
        refine Nat.max_le.2 ⟨Nat.le_max_left now d, ?_⟩
        exact Nat.le_trans hc (Nat.le_trans (Nat.le_of_lt (hbound d hd)) (Nat.le_max_right now d))
      · simp only [time, hc, if_false]
        refine ⟨ht, hbound, fun c' hc' => ?_⟩
        cases hc'
        exact Nat.lt_of_not_le hc

/-- A wait comes to its own end if the deadline leaves it and no cancellation comes before. -/
theorem Pause.ofWait_eq_resume_iff (cancelledAt deadline : Option Time) (now t : Time)
    (wait : Duration) :
    Pause.ofWait cancelledAt deadline now wait = .resume t ↔
      Pause.beforeDeadline deadline now (now + wait) = .resume t ∧ ∀ c ∈ cancelledAt, t < c := by
  unfold ofWait
  cases cancelledAt with
  | none => simp
  | some c =>
    by_cases hc : c ≤ (beforeDeadline deadline now (now + wait)).time
    · simp only [hc, if_true, reduceCtorEq, Option.mem_def, Option.some.injEq, forall_eq',
        false_iff, not_and]
      intro hbefore
      rw [hbefore] at hc
      exact Nat.not_lt_of_le hc
    · simp only [hc, if_false, Option.mem_def, Option.some.injEq, forall_eq']
      refine ⟨fun hbefore => ⟨hbefore, ?_⟩, And.left⟩
      rw [hbefore] at hc
      exact Nat.lt_of_not_le hc

/-- However a wait ends, it ends by the deadline, unless that had passed when it began. -/
theorem Pause.time_ofWait_le (cancelledAt deadline : Option Time) (now : Time) (wait : Duration) :
    ∀ d ∈ deadline, (Pause.ofWait cancelledAt deadline now wait).time ≤ max now d := by
  intro d hd
  have hspec := ofWait_spec cancelledAt deadline now wait
  cases hp : ofWait cancelledAt deadline now wait with
  | cancelled t =>
    rw [hp] at hspec
    exact hspec.2.2 d hd
  | deadline t =>
    rw [hp] at hspec
    obtain ⟨⟨d', hd', -, ht⟩, -⟩ := hspec
    rw [Option.mem_unique hd hd']
    exact Nat.le_of_eq ht
  | resume t =>
    rw [hp] at hspec
    exact Nat.le_trans (Nat.le_of_lt (hspec.2.1 d hd)) (Nat.le_max_right now d)

namespace Progress

section
variable {transport : Transport σ} {budget : Budget} {cancelledAt cancelledAt' : σ → Option Time}
  {p q : Progress σ}

/-- In an open state there is neither a cancellation nor a deadline. -/
theorem Open.not_interrupted (h : p.Open budget cancelledAt) :
    ¬ p.scene.Cancelled cancelledAt ∧ ¬ p.scene.Overdue budget := by
  rw [← cancelled_iff, ← deadlinePassed_iff, h.uncancelled, h.intime]
  simp

/-- A wait that ends by a cancellation ends when there is one. -/
theorem cancelled_of_pause {t : Time} (h : q.pause transport budget cancelledAt = .cancelled t) :
    (q.later t).scene.Cancelled cancelledAt := by
  have hspec := Pause.ofWait_spec (cancelledAt q.scene.world) budget.deadline q.scene.now
    (transport.timer (budget.backoff.delay q.attempts))
  rw [show Pause.ofWait _ _ _ _ = _ from h] at hspec
  exact hspec.2.1

/-- A wait that ends by the deadline ends when it has passed, and before any cancellation. -/
theorem overdue_of_pause {t : Time} (h : q.pause transport budget cancelledAt = .deadline t) :
    (q.later t).scene.Overdue budget ∧ ¬ (q.later t).scene.Cancelled cancelledAt := by
  have hspec := Pause.ofWait_spec (cancelledAt q.scene.world) budget.deadline q.scene.now
    (transport.timer (budget.backoff.delay q.attempts))
  rw [show Pause.ofWait _ _ _ _ = _ from h] at hspec
  obtain ⟨⟨d, hd, hdt, -⟩, hlate⟩ := hspec
  refine ⟨⟨d, hd, hdt⟩, ?_⟩
  rintro ⟨c, hc, hct⟩
  exact Nat.not_lt_of_le hct (hlate c hc)

/-- A cancellation that had not come by the end of a wait does not end it. -/
theorem pause_resume_of_late {t : Time} (h : q.pause transport budget cancelledAt = .resume t)
    (hlate : ∀ c ∈ cancelledAt' q.scene.world, t < c) :
    q.pause transport budget cancelledAt' = .resume t :=
  (Pause.ofWait_eq_resume_iff _ _ _ _ _).2 ⟨((Pause.ofWait_eq_resume_iff _ _ _ _ _).1 h).1, hlate⟩

/-- However a wait ends, it ends by the deadline, unless that had passed when it began. -/
theorem pause_time_le (q : Progress σ) :
    ∀ d ∈ budget.deadline, (q.pause transport budget cancelledAt).time ≤ max q.scene.now d :=
  Pause.time_ofWait_le _ _ _ _

end

end Progress

end LedgerClient
