import ServiceCompiler.Files.Action

namespace ServiceCompiler

/-!
# What actions do to a state

Actions on files and on the world are actions on a state that may fail.  What such an action may do to its state is
told by a relation that allows doing nothing and doing one thing after the other, so that it holds of an action if it
holds of its steps.

* `Effect` — such a relation; `Effect.Bounds` — an action that stays within it, whether it fails or not.
* `FailsOnly` — the failures that an action can have.
-/

variable {σ α β : Type}

/-- One action after another, on a state. -/
theorem bind_apply (x : ExceptT Failure (StateM σ) α) (f : α → ExceptT Failure (StateM σ) β) (s : σ) :
    (x >>= f) s = match x s with
      | (.ok a, s') => f a s'
      | (.error e, s') => (.error e, s') := by
  show (ExceptT.bindCont f (x s).1) (x s).2 = _
  rcases x s with ⟨_ | a, s'⟩ <;> rfl

theorem pure_apply (a : α) (s : σ) : (pure a : ExceptT Failure (StateM σ) α) s = (.ok a, s) := rfl

/-- What may be done to a state. -/
structure Effect (σ : Type) where
  Allows : σ → σ → Prop
  refl : ∀ s, Allows s s
  trans : ∀ {s s' s''}, Allows s s' → Allows s' s'' → Allows s s''

namespace Effect

/-- The action does no more than that. -/
def Bounds (e : Effect σ) (x : ExceptT Failure (StateM σ) α) : Prop := ∀ s, e.Allows s (x s).2

variable {e : Effect σ}

theorem bounds_pure (a : α) : e.Bounds (pure a) := e.refl

theorem Bounds.bind {x : ExceptT Failure (StateM σ) α} {f : α → ExceptT Failure (StateM σ) β} (hx : e.Bounds x)
    (hf : ∀ a, e.Bounds (f a)) : e.Bounds (x >>= f) := by
  intro s
  have hs := hx s
  rw [bind_apply]
  rcases hresult : x s with ⟨_ | a, s'⟩
  · simpa only [hresult] using hs
  · rw [hresult] at hs
    exact e.trans hs (hf a s')

theorem bounds_forM {xs : List β} {f : β → ExceptT Failure (StateM σ) PUnit} (h : ∀ b ∈ xs, e.Bounds (f b)) :
    e.Bounds (xs.forM f) := by
  induction xs with
  | nil => exact bounds_pure ()
  | cons b bs ih =>
    obtain ⟨hb, hbs⟩ := List.forall_mem_cons.1 h
    exact hb.bind fun _ => ih hbs

end Effect

/-! ### Failures -/

theorem exists_ok_of_bind {ε α β : Type} {x : Except ε α} {f : α → Except ε β} {b : β} (h : x >>= f = .ok b) :
    ∃ a, x = .ok a ∧ f a = .ok b := by
  cases x with
  | error e => cases h
  | ok a => exact ⟨a, rfl, h⟩

/-- All steps of a loop that goes through have gone through. -/
theorem ok_of_forM {ε α : Type} {f : α → Except ε Unit} {xs : List α} (h : xs.forM f = .ok ()) {x : α} (hx : x ∈ xs) :
    f x = .ok () := by
  induction xs with
  | nil => cases hx
  | cons y xs ih =>
    obtain ⟨⟨⟩, hy, hxs⟩ := exists_ok_of_bind h
    rcases List.mem_cons.1 hx with rfl | hx
    · exact hy
    · exact ih hxs hx

theorem mapError_error {ε ε' α : Type} (f : ε → ε') (e : ε) :
    (Except.error e : Except ε α).mapError f = .error (f e) :=
  rfl

theorem mapError_ok {ε ε' α : Type} (f : ε → ε') (a : α) : (Except.ok a : Except ε α).mapError f = .ok a := rfl

/-- The failures of an action are of a kind. -/
def FailsOnly (kind : Failure → Prop) (x : ExceptT Failure (StateM σ) α) : Prop :=
  ∀ s f, (x s).1 = .error f → kind f

namespace FailsOnly

variable {kind : Failure → Prop}

theorem pure (a : α) : FailsOnly kind (Pure.pure a : ExceptT Failure (StateM σ) α) := fun _ _ h => nomatch h

theorem bind {x : ExceptT Failure (StateM σ) α} {f : α → ExceptT Failure (StateM σ) β} (hx : FailsOnly kind x)
    (hf : ∀ a, FailsOnly kind (f a)) : FailsOnly kind (x >>= f) := by
  intro s failure h
  have hs := hx s
  rw [bind_apply] at h
  rcases hresult : x s with ⟨cause | a, s'⟩
  · rw [hresult] at h hs
    obtain rfl : cause = failure := Except.error.inj h
    exact hs cause rfl
  · rw [hresult] at h
    exact hf a s' failure h

theorem forM {xs : List β} {f : β → ExceptT Failure (StateM σ) PUnit} (h : ∀ b ∈ xs, FailsOnly kind (f b)) :
    FailsOnly kind (xs.forM f) := by
  induction xs with
  | nil => exact pure ()
  | cons b bs ih =>
    obtain ⟨hb, hbs⟩ := List.forall_mem_cons.1 h
    exact hb.bind fun _ => ih hbs

/-- The failures under a label. -/
theorem labeled {label : Failure → Failure} (h : ∀ f, kind (label f)) (action : FileAction α) :
    FailsOnly kind (action.labeled label) := by
  intro t f hf
  rw [FileAction.labeled] at hf
  rcases hresult : action t with ⟨cause | a, t'⟩
  · simp only [hresult] at hf
    cases hf
    exact h cause
  · simp [hresult, mapError_ok] at hf

end FailsOnly

end ServiceCompiler
