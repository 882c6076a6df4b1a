import Mathlib.Data.List.TakeWhile

/-!
# Fair locks of an event loop

A lock for which tasks wait in a queue. When it is released the first of them is woken, and
nobody passes it until it goes on; a newcomer gets the lock at once only when nobody waits.
A task that is cancelled while it waits keeps its place until it goes on, but a newcomer
need not wait for it.

## Main definitions
* `FairLock` : the holder of the lock, and the queue.
* `FairLock.free`, `FairLock.woken` : who gets the lock.
* `FairLock.place` : where a task stands.
* `FairLock.WaitsFor`, `FairLock.before` : whom a task in the queue waits for.
-/

/-- A task in the queue of a lock, and whether it has been cancelled there. -/
structure Waiter (ι : Type*) where
  task : ι
  cancelled : Bool := false
deriving DecidableEq

structure FairLock (ι : Type*) where
  holder : Option ι := none
  queue : List (Waiter ι) := []
deriving DecidableEq

namespace FairLock

variable {ι : Type*} (l : FairLock ι) (i j : ι)

/-- A newcomer gets the lock at once. -/
def free : Bool := l.holder.isNone && l.queue.all (·.cancelled)

/-- The first in the queue of a lock that is not held, unless it has been cancelled. -/
def woken : Option ι :=
  if l.holder.isSome then none
  else l.queue.head?.bind fun first => if first.cancelled then none else some first.task

def take : FairLock ι := { l with holder := some i }

def release : FairLock ι := { l with holder := none }

/-- Wait at the end of the queue. -/
def join : FairLock ι := { l with queue := l.queue ++ [{ task := i }] }

section Lock
variable {l i}

@[simp] theorem holder_take : (l.take i).holder = some i := rfl
@[simp] theorem holder_release : l.release.holder = none := rfl
@[simp] theorem holder_join : (l.join i).holder = l.holder := rfl

theorem holder_of_free (h : l.free = true) : l.holder = none := by
  simpa using (Bool.and_eq_true_iff.mp h).1

theorem holder_of_woken (h : l.woken = some i) : l.holder = none := by
  unfold woken at h
  split at h
  · cases h
  · simp_all

end Lock

variable [DecidableEq ι]

/-- Go on, with the lock or without. -/
def leave : FairLock ι := { l with queue := l.queue.filter (·.task ≠ i) }

/-- Be cancelled while waiting. -/
def cancel : FairLock ι :=
  { l with queue := l.queue.map fun x => if x.task = i then { x with cancelled := true } else x }

/-- Whether the task is in the queue, and whether it has been cancelled there. -/
def place : Option Bool := (l.queue.find? (·.task = i)).map (·.cancelled)

/-- The tasks before `i` in the queue. -/
def before : List ι := (l.queue.map (·.task)).takeWhile (· ≠ i)

variable {l i j}

@[simp] theorem holder_leave : (l.leave i).holder = l.holder := rfl
@[simp] theorem holder_cancel : (l.cancel i).holder = l.holder := rfl

/-! ## Places in the queue -/

@[simp] theorem place_take : (l.take j).place i = l.place i := rfl
@[simp] theorem place_release : l.release.place i = l.place i := rfl

theorem place_join_of_ne (h : j ≠ i) : (l.join i).place j = l.place j := by
  simp [place, join, List.find?_append, Ne.symm h]

theorem place_leave_of_ne (h : j ≠ i) : (l.leave i).place j = l.place j := by
  unfold place leave
  rw [List.find?_filter]
  congr 2
  funext x
  by_cases hx : x.task = j <;> simp [hx, h]

/-- Being cancelled marks a task where it stands. -/
theorem find?_cancel : (l.cancel i).queue.find? (·.task = j) =
    (l.queue.find? (·.task = j)).map fun x =>
      if x.task = i then { x with cancelled := true } else x := by
  have hsame : (fun x : Waiter ι => decide (x.task = j)) ∘
      (fun x => if x.task = i then { x with cancelled := true } else x) =
      fun x => decide (x.task = j) := by
    funext x
    by_cases hx : x.task = i <;> simp [hx]
  rw [cancel, List.find?_map, hsame]

theorem place_cancel_of_ne (h : j ≠ i) : (l.cancel i).place j = l.place j := by
  rw [place, place, find?_cancel, Option.map_map]
  refine Option.map_congr fun x hfound => ?_
  have hx : x.task = j := by simpa using List.find?_some hfound
  simp [hx, h]

theorem mem_queue_of_place (h : (l.place i).isSome) : i ∈ l.queue.map (·.task) := by
  rw [place, Option.isSome_map, List.find?_isSome] at h
  obtain ⟨x, hx, htask⟩ := h
  exact List.mem_map.mpr ⟨x, hx, by simpa using htask⟩

@[simp] theorem before_take : (l.take j).before i = l.before i := rfl
@[simp] theorem before_release : l.release.before i = l.before i := rfl

theorem before_join (h : (l.place i).isSome) : (l.join j).before i = l.before i := by
  have hmem := mem_queue_of_place h
  simp only [before, join, List.map_append]
  generalize l.queue.map (·.task) = tasks at hmem
  induction tasks with
  | nil => cases hmem
  | cons x tasks ih =>
      by_cases hx : x = i
      · simp [hx]
      · have hrest := ih ((List.mem_cons.mp hmem).resolve_left (Ne.symm hx))
        simpa [hx] using hrest

theorem before_cancel : (l.cancel j).before i = l.before i := by
  simp only [before, cancel, List.map_map]
  congr 2
  funext x
  by_cases hx : x.task = j <;> simp [hx]

/-- A task that leaves the queue is no longer before the others. -/
theorem before_leave_sublist (h : i ≠ j) : ((l.leave j).before i).Sublist (l.before i) := by
  simp only [before, leave]
  induction l.queue with
  | nil => exact .refl _
  | cons x queue ih =>
      by_cases hj : x.task = j
      · by_cases hi : x.task = i
        · exact absurd (hi.symm.trans hj) h
        · simpa [hj, Ne.symm h] using ih.trans (List.sublist_cons_self ..)
      · by_cases hi : x.task = i
        · simp [hi, h]
        · simpa [hj, hi] using ih

end FairLock
