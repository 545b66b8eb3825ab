/-
**Outcomes: what a chain of steps that may fail says about its parts.**

Main definitions:

* `Outcome.Alike` — two outcomes that are both results or both errors, and alike as such.

Main results:

* `Outcome.bind_eq_ok`, `Outcome.map_eq_ok` — a chain succeeds exactly when each of its steps does;
* `Outcome.bind_eq_error`, `Outcome.foldlM_eq_error` — it fails exactly when one of its steps is the
  first to fail;
* `Outcome.mapM_eq_ok`, `Outcome.mapM_eq_error` — the same for a step on each element of a list;
* `Outcome.Alike.bind`, `Outcome.Alike.foldlM` — chains of like steps have like outcomes.
-/

import Mathlib.Data.List.Forall2

set_option relaxedAutoImplicit false
set_option autoImplicit false

namespace TableAssembler

namespace Outcome

variable {ε α β γ : Type}

/-- Two steps succeed exactly when the first does and the second does on its result. -/
theorem bind_eq_ok {step : Except ε α} {next : α → Except ε β} {b : β} :
    (step >>= next) = .ok b ↔ ∃ a, step = .ok a ∧ next a = .ok b := by
  cases step <;> simp [bind, Except.bind]

theorem map_eq_ok {step : Except ε α} {f : α → β} {b : β} :
    step.map f = .ok b ↔ ∃ a, step = .ok a ∧ f a = b := by
  cases step <;> simp [Except.map]

theorem mapError_eq_ok {ε' : Type} {step : Except ε α} {f : ε → ε'} {a : α} :
    step.mapError f = .ok a ↔ step = .ok a := by
  cases step <;> simp [Except.mapError]

theorem toOption_eq_some {step : Except ε α} {a : α} : step.toOption = some a ↔ step = .ok a := by
  cases step <;> simp [Except.toOption]

@[simp] theorem map_ok (a : α) (f : α → β) : (Except.ok a : Except ε α).map f = .ok (f a) := rfl

@[simp] theorem map_error (error : ε) (f : α → β) :
    (Except.error error : Except ε α).map f = .error error := rfl

theorem map_map (step : Except ε α) (f : α → β) (g : β → γ) :
    (step.map f).map g = step.map fun a => g (f a) := by
  cases step <;> rfl

/-- Two steps fail exactly when the first does or the second does on its result. -/
theorem bind_eq_error {step : Except ε α} {next : α → Except ε β} {error : ε} :
    (step >>= next) = .error error ↔
      step = .error error ∨ ∃ a, step = .ok a ∧ next a = .error error := by
  cases step <;> simp [bind, Except.bind]

theorem map_eq_error {step : Except ε α} {f : α → β} {error : ε} :
    step.map f = .error error ↔ step = .error error := by
  cases step <;> simp [Except.map]

/-- **A fold fails exactly when one of its steps is the first to fail.** -/
theorem foldlM_eq_error {step : β → α → Except ε β} {items : List α} {b : β} {error : ε} :
    items.foldlM step b = .error error ↔
      ∃ before item after middle, items = before ++ item :: after ∧
        before.foldlM step b = .ok middle ∧ step middle item = .error error := by
  constructor
  · intro h
    induction items generalizing b with
    | nil => cases h
    | cons item items ih =>
        rw [List.foldlM_cons, bind_eq_error] at h
        rcases h with hfirst | ⟨next, hnext, hrest⟩
        · exact ⟨[], item, items, b, rfl, rfl, hfirst⟩
        · obtain ⟨before, later, after, middle, rfl, hbefore, hlater⟩ := ih hrest
          refine ⟨item :: before, later, after, middle, rfl, ?_, hlater⟩
          rw [List.foldlM_cons]
          exact bind_eq_ok.2 ⟨next, hnext, hbefore⟩
  · rintro ⟨before, item, after, middle, rfl, hbefore, hitem⟩
    rw [List.foldlM_append, bind_eq_error]
    refine .inr ⟨middle, hbefore, ?_⟩
    rw [List.foldlM_cons, bind_eq_error]
    exact .inl hitem

/-- A step on each element of a list succeeds exactly when each does. -/
theorem mapM_eq_ok {step : α → Except ε β} {items : List α} {results : List β} :
    items.mapM step = .ok results ↔
      List.Forall₂ (fun item result => step item = .ok result) items results := by
  induction items generalizing results with
  | nil =>
      rw [List.mapM_nil, List.forall₂_nil_left_iff]
      exact ⟨fun h => (Except.ok.inj h).symm, fun h => congrArg _ h.symm⟩
  | cons item items ih =>
      rw [List.mapM_cons, bind_eq_ok, List.forall₂_cons_left_iff]
      constructor
      · rintro ⟨result, hresult, hrest⟩
        obtain ⟨rest, hitems, hresults⟩ := bind_eq_ok.1 hrest
        exact ⟨result, rest, hresult, ih.1 hitems, (Except.ok.inj hresults).symm⟩
      · rintro ⟨result, rest, hresult, hitems, rfl⟩
        exact ⟨result, hresult, bind_eq_ok.2 ⟨rest, ih.2 hitems, rfl⟩⟩

/-- **A step on each element of a list fails exactly when it fails on one of them**, and succeeds on
all in front of it. -/
theorem mapM_eq_error {step : α → Except ε β} {items : List α} {error : ε} :
    items.mapM step = .error error ↔
      ∃ before item after, items = before ++ item :: after ∧
        (∀ earlier ∈ before, ∃ result, step earlier = .ok result) ∧ step item = .error error := by
  constructor
  · intro h
    induction items with
    | nil => cases h
    | cons item items ih =>
        rw [List.mapM_cons, bind_eq_error] at h
        rcases h with hitem | ⟨result, hresult, hrest⟩
        · exact ⟨[], item, items, rfl, by simp, hitem⟩
        · rcases bind_eq_error.1 hrest with hitems | ⟨_, -, hpure⟩
          · obtain ⟨before, later, after, rfl, hbefore, hlater⟩ := ih hitems
            refine ⟨item :: before, later, after, rfl, ?_, hlater⟩
            simpa [hresult] using hbefore
          · cases hpure
  · rintro ⟨before, item, after, rfl, hbefore, hitem⟩
    induction before with
    | nil =>
        rw [List.nil_append, List.mapM_cons, bind_eq_error]
        exact .inl hitem
    | cons first before ih =>
        obtain ⟨result, hresult⟩ := hbefore first List.mem_cons_self
        have hrest := ih fun earlier h => hbefore earlier (List.mem_cons_of_mem _ h)
        rw [List.cons_append, List.mapM_cons, bind_eq_error]
        exact .inr ⟨result, hresult, bind_eq_error.2 (.inl hrest)⟩

/-! ### Like outcomes -/

/-- Both are results that `A` relates, or both are errors that `E` relates. -/
inductive Alike {ε ε' α α' : Type} (E : ε → ε' → Prop) (A : α → α' → Prop) :
    Except ε α → Except ε' α' → Prop
  | ok {a : α} {a' : α'} (h : A a a') : Alike E A (.ok a) (.ok a')
  | error {error : ε} {error' : ε'} (h : E error error') : Alike E A (.error error) (.error error')

namespace Alike

variable {ε' α' β' : Type} {E : ε → ε' → Prop} {A : α → α' → Prop} {B : β → β' → Prop}

theorem map {step : Except ε α} {step' : Except ε' α'} {f : α → β} {f' : α' → β'}
    (h : Alike E A step step') (hf : ∀ a a', A a a' → B (f a) (f' a')) :
    Alike E B (step.map f) (step'.map f') := by
  cases h with
  | ok h => exact .ok (hf _ _ h)
  | error h => exact .error h

theorem bind {step : Except ε α} {step' : Except ε' α'} {next : α → Except ε β}
    {next' : α' → Except ε' β'} (h : Alike E A step step')
    (hnext : ∀ a a', A a a' → Alike E B (next a) (next' a')) :
    Alike E B (step >>= next) (step' >>= next') := by
  cases h with
  | ok h => exact hnext _ _ h
  | error h => exact .error h

/-- A fold over like lists from like starting points has like outcomes if each of its steps has. -/
theorem foldlM {step : β → α → Except ε β} {step' : β' → α' → Except ε' β'} {items : List α}
    {items' : List α'} (hitems : List.Forall₂ A items items') {b : β} {b' : β'} (hb : B b b')
    (hstep : ∀ b b' a a', B b b' → A a a' → Alike E B (step b a) (step' b' a')) :
    Alike E B (items.foldlM step b) (items'.foldlM step' b') := by
  induction hitems generalizing b b' with
  | nil => exact .ok hb
  | cons ha _ ih =>
      rw [List.foldlM_cons, List.foldlM_cons]
      exact (hstep _ _ _ _ hb ha).bind fun next next' hnext => ih hnext

theorem mapError {δ δ' : Type} {D : δ → δ' → Prop} {step : Except ε α} {step' : Except ε' α'}
    {f : ε → δ} {f' : ε' → δ'} (h : Alike E A step step')
    (hf : ∀ error error', E error error' → D (f error) (f' error')) :
    Alike D A (step.mapError f) (step'.mapError f') := by
  cases h with
  | ok h => exact .ok h
  | error h => exact .error (hf _ _ h)

/-- The two cases, for steps that are no constructors yet. -/
theorem cases_eq {step : Except ε α} {step' : Except ε' α'} (h : Alike E A step step') :
    (∃ a a', step = .ok a ∧ step' = .ok a' ∧ A a a') ∨
      ∃ error error', step = .error error ∧ step' = .error error' ∧ E error error' := by
  cases h with
  | ok h => exact .inl ⟨_, _, rfl, rfl, h⟩
  | error h => exact .inr ⟨_, _, rfl, rfl, h⟩

theorem exists_ok {step : Except ε α} {step' : Except ε' α'} {a : α} (h : Alike E A step step')
    (hstep : step = .ok a) : ∃ a', step' = .ok a' ∧ A a a' := by
  subst hstep
  cases h with
  | ok h => exact ⟨_, rfl, h⟩

/-- Outcomes with the results of like outcomes are alike as far as results go. -/
theorem of_toOption {step result : Except ε α} {step' result' : Except ε' α'}
    (h : Alike E A step step') (hresult : result.toOption = step.toOption)
    (hresult' : result'.toOption = step'.toOption) :
    Alike (fun _ _ => True) A result result' := by
  cases h with
  | ok h =>
      cases result <;> cases hresult
      cases result' <;> cases hresult'
      exact .ok h
  | error h =>
      cases result <;> cases hresult
      cases result' <;> cases hresult'
      exact .error trivial

end Alike

end Outcome

end TableAssembler
