import Mathlib.Algebra.BigOperators.Group.List.Basic
import Mathlib.Algebra.Group.Nat.Defs
import Mathlib.Algebra.Ring.Nat
import Mathlib.Data.List.Induction
import RevenueRecovery.Lib.Run

/-!
# Tasks of one event loop

Tasks share a state in memory. A task runs until it awaits something, and nothing else runs
meanwhile, so what it does between two awaits is one step. What a step has to keep of the
state, of its own task and of the others carries over to every run. A log is explained when
each entry is justified by those before it.

## Main definitions
* `System` : how tasks start, and the step of each.
* `World`, `Action`, `System.worldStep` : the tasks at any moment, and what may happen next.
* `System.Relies` : what each step keeps.
* `Explained` : each entry of a log is justified by those before it.
-/
namespace Tasks

variable {State Task Arrival Input Event : Type*}

/-- The tasks a caller may start, and the step of the task with some number. -/
structure System (State Task Arrival Input : Type*) where
  start : Arrival → Task
  step : ℕ → State → Task → Input → Option (State × Task)

structure World (State Task : Type*) where
  state : State
  tasks : List Task

inductive Action (Arrival Input : Type*)
  | spawn (x : Arrival)
  | resume (i : ℕ) (input : Input)

namespace System

variable (S : System State Task Arrival Input)

def worldStep (w : World State Task) : Action Arrival Input → Option (World State Task)
  | .spawn x => some { w with tasks := w.tasks ++ [S.start x] }
  | .resume i input =>
      w.tasks[i]?.bind fun t => (S.step i w.state t input).map fun (s, t') =>
        ⟨s, w.tasks.set i t'⟩

variable {S} in
theorem worldStep_resume {w : World State Task} {i : ℕ} {t u : Task} {input : Input} {s : State}
    (ht : w.tasks[i]? = some t) (h : S.step i w.state t input = some (s, u)) :
    S.worldStep w (.resume i input) = some ⟨s, w.tasks.set i u⟩ := by
  rw [System.worldStep, ht, Option.bind_some, h, Option.map_some]

/-- What holds of the state, and of each number with its task, if it has one. -/
structure Relies (G : State → Prop) (L : ℕ → State → Option Task → Prop) : Prop where
  start : ∀ {i s} (x : Arrival), G s → L i s none → L i s (some (S.start x))
  step : ∀ {i s t input s' t'}, G s → L i s (some t) → S.step i s t input = some (s', t') →
    G s' ∧ L i s' (some t')
  others : ∀ {i s t input s' t' j q}, G s → L i s (some t) →
    S.step i s t input = some (s', t') → j ≠ i → L j s q → L j s' q

variable {S} {G : State → Prop} {L : ℕ → State → Option Task → Prop} {w w' : World State Task}

/-- The invariant of the worlds. -/
def Holds (G : State → Prop) (L : ℕ → State → Option Task → Prop) (w : World State Task) :
    Prop :=
  G w.state ∧ ∀ i, L i w.state w.tasks[i]?

theorem Relies.worldStep (h : S.Relies G L) {a : Action Arrival Input} (hw : Holds G L w)
    (ha : S.worldStep w a = some w') : Holds G L w' := by
  obtain ⟨hG, hL⟩ := hw
  cases a with
  | spawn x =>
      obtain rfl := Option.some.inj ha
      refine ⟨hG, fun i => ?_⟩
      have hi := hL i
      rcases Nat.lt_trichotomy i w.tasks.length with hlt | rfl | hgt
      · simpa [List.getElem?_append_left hlt] using hi
      · rw [List.getElem?_eq_none (Nat.le_refl _)] at hi
        simpa using h.start x hG hi
      · rw [List.getElem?_eq_none (Nat.le_of_lt hgt)] at hi
        have hlength : (w.tasks ++ [S.start x]).length ≤ i := by rw [List.length_append]; exact hgt
        rw [List.getElem?_eq_none hlength]
        exact hi
  | resume i input =>
      obtain ⟨t, ht, hnext⟩ := Option.bind_eq_some_iff.mp ha
      obtain ⟨⟨s', t'⟩, hstep, rfl⟩ := Option.map_eq_some_iff.mp hnext
      have hi := hL i
      rw [ht] at hi
      obtain ⟨hG', hi'⟩ := h.step hG hi hstep
      refine ⟨hG', fun j => ?_⟩
      by_cases hj : j = i
      · obtain ⟨hlt, -⟩ := List.getElem?_eq_some_iff.mp ht
        simpa [hj, hlt] using hi'
      · simpa [List.getElem?_set_ne (Ne.symm hj)] using h.others hG hi hstep hj (hL j)

/-- What the steps keep holds in every run. -/
theorem Relies.exec (h : S.Relies G L) {as : List (Action Arrival Input)} (hw : Holds G L w)
    (ha : Run.exec S.worldStep w as = some w') : Holds G L w' :=
  Run.invariant_exec (fun _ _ _ hs hstep => h.worldStep hs hstep) hw ha

end System

/-! ## Logs -/

/-- Each entry of the log is justified by those before it. -/
inductive Explained (justifies : List Event → Event → Prop) : List Event → Prop
  | nil : Explained justifies []
  | snoc {log : List Event} {e : Event} (hlog : Explained justifies log)
      (he : justifies log e) : Explained justifies (log ++ [e])

theorem Explained.of_append {justifies : List Event → Event → Prop} {before after : List Event}
    (h : Explained justifies (before ++ after)) : Explained justifies before := by
  induction after using List.reverseRecOn with
  | nil => simpa using h
  | append_singleton after e ih =>
      rw [← List.append_assoc] at h
      generalize hlog : before ++ after ++ [e] = log at h
      cases h with
      | nil => simp at hlog
      | snoc hbefore he =>
          obtain ⟨rfl, -⟩ := List.append_inj' hlog rfl
          exact ih hbefore

theorem Explained.justified {justifies : List Event → Event → Prop} {log before after : List Event}
    {e : Event} (h : Explained justifies log) (heq : log = before ++ e :: after) :
    justifies before e := by
  induction h generalizing after with
  | nil => simp at heq
  | @snoc log e' hlog he ih =>
      rcases List.eq_nil_or_concat after with rfl | ⟨after', last, rfl⟩
      · obtain ⟨rfl, he'⟩ := List.append_inj' heq rfl
        obtain rfl : e' = e := by simpa using he'
        exact he
      · have heq' : log ++ [e'] = (before ++ e :: after') ++ [last] := by simpa using heq
        exact ih (List.append_inj' heq' rfl).1

end Tasks
