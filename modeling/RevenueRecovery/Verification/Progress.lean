import RevenueRecovery.Verification.Tokens

/-!
# Stage 1: progress of verification calls

A call takes a few steps at most. As long as it has not ended it can go on, or it is in the
queue of the token lock, and the call that has the lock, or comes next to it, can go on. In
the queue nobody passes it.

## Main definitions
* `VerifyTask.rank` : the steps a call has ahead.
* `VerifyTask.InPlace` : a call is in the queue exactly while it waits.
-/
namespace RevenueRecovery

open Tasks

namespace VerifyTask

/-- The steps a call has ahead, at most. -/
def rank : VerifyTask → ℕ
  | .called _ => 4
  | .waiting .. => 3
  | .fetching .. => 2
  | .verifying .. | .cancelling _ => 1
  | .done .. | .cancelled _ => 0

/-- Whether a call is in the queue, and whether it has been cancelled there. -/
def place : Option VerifyTask → Option Bool
  | some (.waiting ..) => some false
  | some (.cancelling _) => some true
  | _ => none

/-- Call `i` has the place in the queue that its task says. -/
def InPlace (i : ℕ) (client : PayPalClient) (q : Option VerifyTask) : Prop :=
  client.lock.place i = place q

end VerifyTask

section Steps
variable {config : PayPalConfig} {lower : String → String} {depth i j : ℕ}
  {client client₀ client' : PayPalClient} {task task' : VerifyTask} {input : ClientInput}
  {call : VerifyCall} {content : ByteArray}

/-- The other calls keep their places in the queue, and nobody passes them. -/
theorem ClientStepped.others (h : ClientStepped config lower depth i client task client' task')
    (hne : j ≠ i) : client'.lock.place j = client.lock.place j ∧
      ((client.lock.place j).isSome → (client'.lock.before j).Sublist (client.lock.before j)) := by
  have hleave : (client.lock.leave i).place j = client.lock.place j ∧
      ((client.lock.place j).isSome →
        ((client.lock.leave i).before j).Sublist (client.lock.before j)) :=
    ⟨FairLock.place_leave_of_ne hne, fun _ => FairLock.before_leave_sublist hne⟩
  cases h with
  | refused hprepare => exact ⟨rfl, fun _ => .refl _⟩
  | cancelled htask => exact ⟨rfl, fun _ => .refl _⟩
  | queued hprepare =>
      exact ⟨FairLock.place_join_of_ne hne, fun hj => FairLock.before_join hj ▸ .refl _⟩
  | cancelledWaiting =>
      refine ⟨FairLock.place_cancel_of_ne hne, fun _ => ?_⟩
      simp only [PayPalClient.cancelWaiting, FairLock.before_cancel, List.Sublist.refl]
  | left htask => exact hleave
  | sent hasks htoken =>
      rcases hasks with ⟨rfl, -, rfl⟩ | ⟨rfl, rfl⟩
      · exact ⟨rfl, fun _ => .refl _⟩
      · exact hleave
  | requested hasks htoken hfree =>
      rcases hasks with ⟨rfl, -, rfl⟩ | ⟨rfl, rfl⟩
      · exact ⟨rfl, fun _ => .refl _⟩
      · exact hleave
  | abandoned htask' => exact ⟨rfl, fun _ => .refl _⟩
  | granted hgrant => exact ⟨rfl, fun _ => .refl _⟩
  | answered =>
      rw [answered_rest.1]
      exact ⟨rfl, fun _ => .refl _⟩

end Steps

section Runs
variable {config : PayPalConfig} {lower : String → String} {depth : ℕ}
  {as : List (Action VerifyCall ClientInput)} {w w' : ClientWorld} {i j : ℕ} {task : VerifyTask}

namespace ClientExample

/-- Two calls wait in the queue, and the request of the call that has the lock fails. -/
def waiting : List (Action VerifyCall ClientInput) :=
  [.spawn call, .spawn call, .spawn call, .resume 0 {}, .resume 1 {}, .resume 2 {}, .resume 0 {}]

end ClientExample

end Runs

end RevenueRecovery
