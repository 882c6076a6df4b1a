import Mathlib.Logic.Basic

/-!
# Computations that hold a resource

A computation changes a state and may fail, in which case the changes it has made remain. A
resource of the state, such as a transaction, may be lost at any point and never comes back.
A computation that holds the resource at its end has therefore held it throughout, and what
each of its parts yields under the resource, the whole yields.

## Main definitions
* `Fallible` : state changes that survive a failure.
* `Resource` : when a state holds the resource, and when it has lost it for good.
* `Forsakes` : the computation never regains a lost resource.
* `Yields` : the values of the computation when it keeps the resource.
-/
namespace Tenure

variable {ε σ α β : Type}

/-- A computation that changes the state, and returns a value or fails. -/
def Fallible (ε σ α : Type) := σ → Except ε α × σ

namespace Fallible

/-- Fail without a change. -/
def fail (e : ε) : Fallible ε σ α := fun s => (.error e, s)

/-- The current state. -/
def state : Fallible ε σ σ := fun s => (.ok s, s)

/-- A value or a failure computed without the state. -/
def ofExcept (r : Except ε α) : Fallible ε σ α := fun s => (r, s)

/-- Go on with the value; a failure ends the computation. -/
def andThen (p : Fallible ε σ α) (f : α → Fallible ε σ β) : Fallible ε σ β := fun s =>
  match p s with
  | (.ok a, s') => f a s'
  | (.error e, s') => (.error e, s')

instance : Monad (Fallible ε σ) where
  pure a := fun s => (.ok a, s)
  bind := andThen

theorem bind_of_ok {p : Fallible ε σ α} {f : α → Fallible ε σ β} {s s' : σ} {a : α}
    (h : p s = (.ok a, s')) : (p >>= f) s = f a s' := by
  change andThen p f s = _
  rw [andThen, h]

theorem bind_of_error {p : Fallible ε σ α} {f : α → Fallible ε σ β} {s s' : σ} {e : ε}
    (h : p s = (.error e, s')) : (p >>= f) s = (.error e, s') := by
  change andThen p f s = _
  rw [andThen, h]

/-- A value of a sequence comes from values of both parts. -/
theorem bind_eq_ok {p : Fallible ε σ α} {f : α → Fallible ε σ β} {s t : σ} {b : β}
    (h : (p >>= f) s = (.ok b, t)) : ∃ a s', p s = (.ok a, s') ∧ f a s' = (.ok b, t) := by
  cases hp : p s with
  | mk r s' =>
      cases r with
      | ok a => exact ⟨a, s', rfl, by rwa [bind_of_ok hp] at h⟩
      | error e =>
          rw [bind_of_error hp] at h
          cases h

end Fallible

/-- When a state holds the resource, and when it has lost it for good. -/
structure Resource (σ : Type) where
  Held : σ → Prop
  Lost : σ → Prop
  not_lost : ∀ s, Held s → ¬ Lost s

variable {R : Resource σ}

/-- A resource that is lost before the computation is lost after it. -/
def Forsakes (R : Resource σ) (p : Fallible ε σ α) : Prop := ∀ s, R.Lost s → R.Lost (p s).2

/-- From a state that holds the resource, the computation loses it, or keeps it and returns
only values of `Q`. -/
def Yields (R : Resource σ) (p : Fallible ε σ α) (Q : α → Prop) : Prop :=
  ∀ s, R.Held s → R.Lost (p s).2 ∨ R.Held (p s).2 ∧ ∀ a, (p s).1 = .ok a → Q a

theorem Yields.mono {p : Fallible ε σ α} {Q Q' : α → Prop} (h : Yields R p Q)
    (himp : ∀ a, Q a → Q' a) : Yields R p Q' := fun s hs =>
  (h s hs).imp_right fun ⟨hheld, hvalue⟩ => ⟨hheld, fun a ha => himp a (hvalue a ha)⟩

/-! ## Computations without a change -/

theorem forsakes_pure (a : α) : Forsakes R (pure a : Fallible ε σ α) := fun _ h => h

theorem forsakes_fail (e : ε) : Forsakes R (Fallible.fail e : Fallible ε σ α) := fun _ h => h

theorem forsakes_state : Forsakes R (Fallible.state : Fallible ε σ σ) := fun _ h => h

theorem forsakes_ofExcept (r : Except ε α) :
    Forsakes R (Fallible.ofExcept r : Fallible ε σ α) := fun _ h => h

theorem yields_pure {a : α} {Q : α → Prop} (h : Q a) :
    Yields R (pure a : Fallible ε σ α) Q := by
  intro s hs
  refine .inr ⟨hs, fun b hb => ?_⟩
  obtain rfl : a = b := Except.ok.inj hb
  exact h

theorem yields_fail (e : ε) (Q : α → Prop) :
    Yields R (Fallible.fail e : Fallible ε σ α) Q :=
  fun _ hs => .inr ⟨hs, fun _ h => nomatch h⟩

theorem yields_state (Q : σ → Prop) (h : ∀ s, R.Held s → Q s) :
    Yields R (Fallible.state : Fallible ε σ σ) Q := by
  intro s hs
  refine .inr ⟨hs, fun b hb => ?_⟩
  obtain rfl : s = b := Except.ok.inj hb
  exact h s hs

theorem yields_ofExcept {r : Except ε α} {Q : α → Prop} (h : ∀ a, r = .ok a → Q a) :
    Yields R (Fallible.ofExcept r : Fallible ε σ α) Q := fun _ hs => .inr ⟨hs, h⟩

/-! ## Sequences -/

theorem Forsakes.bind {p : Fallible ε σ α} {f : α → Fallible ε σ β} (hp : Forsakes R p)
    (hf : ∀ a, Forsakes R (f a)) : Forsakes R (p >>= f) := by
  intro s hs
  have hlost := hp s hs
  cases h : p s with
  | mk r s' =>
      rw [h] at hlost
      cases r with
      | ok a =>
          rw [Fallible.bind_of_ok h]
          exact hf a s' hlost
      | error e =>
          rw [Fallible.bind_of_error h]
          exact hlost

/-- The second part runs with the resource, or after its loss: then it stays lost. -/
theorem Yields.bind {p : Fallible ε σ α} {f : α → Fallible ε σ β} {P : α → Prop}
    {Q : β → Prop} (hp : Yields R p P) (hf : ∀ a, Forsakes R (f a))
    (hq : ∀ a, P a → Yields R (f a) Q) : Yields R (p >>= f) Q := by
  intro s hs
  have hfirst := hp s hs
  cases h : p s with
  | mk r s' =>
      rw [h] at hfirst
      cases r with
      | ok a =>
          rw [Fallible.bind_of_ok h]
          rcases hfirst with hlost | ⟨hheld, hvalue⟩
          · exact .inl (hf a s' hlost)
          · exact hq a (hvalue a rfl) s' hheld
      | error e =>
          rw [Fallible.bind_of_error h]
          exact hfirst.imp_right fun hheld => ⟨hheld.1, fun _ hb => nomatch hb⟩

end Tenure
