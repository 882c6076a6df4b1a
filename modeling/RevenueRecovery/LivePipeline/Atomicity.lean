import RevenueRecovery.Lib.Solo
import RevenueRecovery.LivePipeline.Run

/-!
# One run of the live pipeline

Stages 2-4 of a run are committed before its attempt is registered. From registration on
nothing is committed before the end: a run that fails leaves the store as Stages 2-4 left
it, and one that finishes commits all the rows it has written at once.

## Main definitions
* `LiveAction.IsAlone` : an action of a run that no other run disturbs.
* `Analyzed` : what Stages 2-4 of a run leave.
* `LaterStages` : where a run stands from registration on, with the rows it has written.
* `RegistrationRefused` : the attempt key is registered with another identity.
* `run_atomic` : the store in the course of a run.
-/
namespace RevenueRecovery

open Transaction

/-- Stages 2-4 of a run that no other run disturbs compute from the store there is. -/
def LiveAction.IsAlone : LiveAction → Prop
  | .advance _ input => input.tables = none
  | _ => True

instance : DecidablePred LiveAction.IsAlone
  | .advance _ input => inferInstanceAs (Decidable (input.tables = none))
  | .arrive _ => .isTrue trivial
  | .look _ => .isTrue trivial
  | .abort _ => .isTrue trivial

/-- What Stages 2-4 leave of a store: their own results, and no change for PayPal events. -/
def Analyzed (db₀ : Database) (e : PaymentEvent) (db : Database) : Prop :=
  if e.isPaypal then db = db₀
  else ∃ order now tables, runAnalytics order db₀ e now = .ok tables ∧
    db = { db₀ with analytics := tables }

/-- The run has an open transaction of Stages 5-8. -/
def LiveProc.inLaterStages : LiveProc → Prop
  | .analytics _ | .analyticsStored _ | .finished | .failed => False
  | _ => True

/-- The run has gone on from the start of Stages 5-8. -/
def LiveProc.pastStart : LiveProc → Prop
  | .analytics _ | .analyticsStored _ | .start _ => False
  | _ => True

/-- A run in Stages 2-4, from the store `db₀`. -/
inductive EarlierStages (db₀ : Database) (e : PaymentEvent) : Database → LiveSession → Prop
  | analytics {s} (hproc : s.proc = .analytics e) (hpaypal : e.isPaypal = false)
      (hpending : s.pending = []) : EarlierStages db₀ e db₀ s
  | stored {s order now tables} (hproc : s.proc = .analyticsStored e)
      (hpaypal : e.isPaypal = false) (htables : runAnalytics order db₀ e now = .ok tables)
      (hpending : s.pending = [.setAnalytics tables]) : EarlierStages db₀ e db₀ s
  | start {db s} (hproc : s.proc = .start e) (hpending : s.pending = [])
      (hviews : ∀ v ∈ s.views, v = db) (hanalyzed : Analyzed db₀ e db) :
      EarlierStages db₀ e db s
  | past {db s} (hproc : s.proc.pastStart) : EarlierStages db₀ e db s

/-- A run from registration on, with the rows it has written since the store was `db₁`. -/
inductive LaterStages (db₁ : Database) : List Write → Database → LiveSession → Prop
  | running {s} (hproc : s.proc.inLaterStages) : LaterStages db₁ s.pending db₁ s
  | finished {ws s} (hproc : s.proc = .finished) :
      LaterStages db₁ ws (ws.foldl Database.apply db₁) s
  | failed {ws s} (hproc : s.proc = .failed) : LaterStages db₁ ws db₁ s

/-- The attempt key of a trigger event is registered with another identity. -/
def RegistrationRefused (db : Database) (e : PaymentEvent) : Prop :=
  (∃ ref, resolvePipelineAttempt e = some ⟨.trigger, ref⟩) ∧
    (AttemptRef.forTriggerEvent e).bind db.require = .error .attemptProviderConflict

/-- A run whose registration is refused: it sees the store as it is. -/
structure Refused (db₁ : Database) (e : PaymentEvent) (db : Database) (s : LiveSession) :
    Prop where
  store : db = db₁
  pending : s.pending.foldl Database.apply db₁ = db₁
  views : ∀ v ∈ s.views, v = db₁
  proc : (∃ ref, s.proc = .start e ∨ s.proc = .registered e ref) ∨
    s.proc = .finish ∨ s.proc = .finished ∨ s.proc = .failed

section Steps
variable {policy : InterventionPolicy} {db₀ db₁ db db' : Database} {e : PaymentEvent}
  {s s' : LiveSession} {input : LiveInput} {o : LiveOutcome} {a : LiveAction}
  {ws vs : List Write}

theorem LiveProc.pastStart_onError (p : LiveProc) : p.onError.pastStart := by
  cases p <;> trivial

theorem LiveProc.inLaterStages_call? {x : LiveProc} {p : CallProc} {f : CallProc → LiveProc}
    (h : x.call? = some (p, f)) : x.inLaterStages ∧ ∀ q, (f q).inLaterStages ∧ (f q).pastStart := by
  cases x <;> cases h <;> exact ⟨trivial, fun _ => ⟨trivial, trivial⟩⟩

theorem inLaterStages_afterTriggerCall (e : PaymentEvent) (ref : AttemptRef)
    (result : CallResult) : (afterTriggerCall e ref result).inLaterStages ∧
      (afterTriggerCall e ref result).pastStart := by
  unfold afterTriggerCall
  split <;> (try split) <;> exact ⟨trivial, trivial⟩

theorem inLaterStages_afterSettlementCall (e : PaymentEvent) (id : CommandId) (asOf : Time)
    (queue : List (CommandId × Time)) (result : CallResult) :
    (afterSettlementCall e id asOf queue result).inLaterStages ∧
      (afterSettlementCall e id asOf queue result).pastStart := by
  unfold afterSettlementCall
  split <;> exact ⟨trivial, trivial⟩

/-- From registration on, a step goes on in the same transaction, commits what the run has
written and finishes it, or fails it. -/
theorem LiveStepped.later (h : LiveStepped policy db s input o) (hs : s.proc.inLaterStages) :
    o = .commit .finished ∨ o = .rollback .failed ∨
      (∀ next, o ≠ .commit next) ∧ (∀ next, o ≠ .rollback next) ∧
        o.next.inLaterStages ∧ o.next.pastStart := by
  have hgoes : ∀ {ws : List Write} {next : LiveProc}, next.inLaterStages ∧ next.pastStart →
      (∀ n, (Outcome.write ws next : LiveOutcome) ≠ .commit n) ∧
      (∀ n, (Outcome.write ws next : LiveOutcome) ≠ .rollback n) ∧
        next.inLaterStages ∧ next.pastStart :=
    fun hnext => ⟨by simp, by simp, hnext⟩
  cases h with
  | failed => exact .inr (.inl rfl)
  | analytics hproc => rw [hproc] at hs; exact hs.elim
  | analyticsStored hproc => rw [hproc] at hs; exact hs.elim
  | finish => exact .inl rfl
  | triggerReturned => exact .inr (.inr (hgoes (inLaterStages_afterTriggerCall ..)))
  | settlingReturned => exact .inr (.inr (hgoes (inLaterStages_afterSettlementCall ..)))
  | @called p f o' hproc hp hcall =>
      obtain ⟨-, hf⟩ := LiveProc.inLaterStages_call? hproc
      refine .inr (.inr ?_)
      cases o' with
      | commit next => exact absurd rfl (hcall.inside.1 next)
      | rollback next => exact absurd rfl (hcall.inside.2 next)
      | lock key next => exact ⟨by simp [Outcome.map], by simp [Outcome.map], hf next⟩
      | call effect next => exact ⟨by simp [Outcome.map], by simp [Outcome.map], hf next⟩
      | write ws next => exact hgoes (hf next)
  | _ => exact .inr (.inr (hgoes ⟨trivial, trivial⟩))

/-- A run that has ended does nothing more. -/
theorem not_ended (h : (liveProgram policy).outcome db s input = some o) :
    s.proc ≠ .finished ∧ s.proc ≠ .failed := by
  have hstep : liveStep policy s.proc input ((liveProgram policy).reads db s)
    ((liveProgram policy).view db s) = some o := h
  constructor <;> intro hproc <;> rw [hproc] at hstep <;> cases hstep

/-- Where a run that has gone on from the start of Stages 5-8 goes. -/
theorem pastStart_next (h : (liveProgram policy).outcome db s input = some o)
    (hs : s.proc.inLaterStages ∨ s.proc.pastStart) : o.next.pastStart := by
  have hlater : s.proc.inLaterStages := by
    refine hs.elim id fun hpast => ?_
    obtain ⟨hfinished, hfailed⟩ := not_ended h
    cases hp : s.proc <;> rw [hp] at hpast hfinished hfailed <;> trivial
  rcases (liveStepped h).later hlater with rfl | rfl | ⟨-, -, -, hnext⟩
  · trivial
  · trivial
  · exact hnext

/-- What Stages 2-4 of an undisturbed run do. -/
theorem analytics_outcome (h : (liveProgram policy).outcome db s input = some o)
    (hproc : s.proc = .analytics e) (hnone : input.tables = none) :
    o = .rollback .failed ∨ ∃ tables,
      runAnalytics input.order ((liveProgram policy).view db s) e input.now = .ok tables ∧
      o = .write [.setAnalytics tables] (.analyticsStored e) := by
  have hstep : liveStep policy s.proc input ((liveProgram policy).reads db s)
    ((liveProgram policy).view db s) = some o := h
  simp only [hproc, liveStep, hnone, Option.some.injEq, bind, Except.bind] at hstep
  cases hr : runAnalytics input.order ((liveProgram policy).view db s) e input.now with
  | error err =>
      simp only [hr, orFail] at hstep
      exact .inl hstep.symm
  | ok tables =>
      simp only [hr, pure, Except.pure, orFail] at hstep
      exact .inr ⟨tables, rfl, hstep.symm⟩

theorem analyticsStored_outcome (h : (liveProgram policy).outcome db s input = some o)
    (hproc : s.proc = .analyticsStored e) : o = .commit (.start e) := by
  have hstep : liveStep policy s.proc input ((liveProgram policy).reads db s)
    ((liveProgram policy).view db s) = some o := h
  rw [hproc] at hstep
  exact (Option.some.inj hstep).symm

/-- An error fails a run that has not finished. -/
theorem LiveProc.onError_eq_failed {p : LiveProc} (hp : p ≠ .finished) : p.onError = .failed := by
  cases p <;> first | rfl | exact absurd rfl hp

/-- A step in Stages 2-4. -/
theorem EarlierStages.step (h : EarlierStages db₀ e db s) (ha : a.IsAlone)
    (hstep : (liveProgram policy).SoloStepped db s a vs db' s') :
    EarlierStages db₀ e db' s' := by
  cases hstep with
  | looked =>
      cases h with
      | analytics hproc hpaypal hpending => exact .analytics hproc hpaypal hpending
      | stored hproc hpaypal htables hpending => exact .stored hproc hpaypal htables hpending
      | start hproc hpending hviews hanalyzed =>
          refine .start hproc hpending (fun v hv => ?_) hanalyzed
          rcases List.mem_append.mp hv with hv | hv
          · exact hviews v hv
          · rw [List.mem_singleton.mp hv, Program.view, hpending]
            rfl
      | past hproc => exact .past hproc
  | aborted => exact .past s.proc.pastStart_onError
  | @performed i input o _ _ _ ho hdone =>
      have hpast : s.proc.inLaterStages ∨ s.proc.pastStart → EarlierStages db₀ e db' s' := by
        intro hs
        have hnext := pastStart_next ho hs
        cases o with
        | write ws next =>
            obtain ⟨-, ⟨-, -, rfl⟩ | ⟨-, -, rfl⟩⟩ := hdone
            · exact .past s.proc.pastStart_onError
            · exact .past hnext
        | _ =>
            obtain ⟨-, -, rfl⟩ := hdone
            exact .past hnext
      cases h with
      | past hproc => exact hpast (.inr hproc)
      | start hproc => exact hpast (.inl (by rw [hproc]; trivial))
      | analytics hproc hpaypal hpending =>
          have hview : (liveProgram policy).view db₀ s = db₀ := by
            rw [Program.view, hpending]
            rfl
          rcases analytics_outcome ho hproc ha with rfl | ⟨tables, htables, rfl⟩
          · obtain ⟨-, -, rfl⟩ := hdone
            exact .past trivial
          · rw [hview] at htables
            obtain ⟨rfl, ⟨-, -, rfl⟩ | ⟨-, -, rfl⟩⟩ := hdone
            · exact .past s.proc.pastStart_onError
            · exact .stored rfl hpaypal htables (by simp [Session.wrote, hpending])
      | @stored _ order now tables hproc hpaypal htables hpending =>
          obtain rfl := analyticsStored_outcome ho hproc
          obtain ⟨-, rfl, rfl⟩ := hdone
          refine .start rfl rfl (by simp) ?_
          rw [Analyzed, hpaypal, if_neg (by simp), Program.view, hpending]
          exact ⟨order, now, tables, htables, rfl⟩

/-- Where the run stands once Stages 2-4 are done. -/
theorem EarlierStages.started (h : EarlierStages db₀ e db s) (hstart : s.proc = .start e) :
    s.pending = [] ∧ (∀ v ∈ s.views, v = db) ∧ Analyzed db₀ e db := by
  cases h with
  | start _ hpending hviews hanalyzed => exact ⟨hpending, hviews, hanalyzed⟩
  | past hproc => rw [hstart] at hproc; exact hproc.elim
  | analytics hproc => rw [hstart] at hproc; cases hproc
  | stored hproc => rw [hstart] at hproc; cases hproc

/-- The store is as it was until the run has finished. -/
theorem LaterStages.store (h : LaterStages db₁ ws db s) :
    (s.proc ≠ .finished → db = db₁) ∧
      (s.proc = .finished → db = ws.foldl Database.apply db₁) := by
  cases h with
  | running hproc =>
      refine ⟨fun _ => rfl, fun hfinished => ?_⟩
      rw [hfinished] at hproc
      exact hproc.elim
  | finished hproc => exact ⟨fun hne => absurd hproc hne, fun _ => rfl⟩
  | failed hproc => exact ⟨fun _ => rfl, fun hfinished => by rw [hproc] at hfinished; cases hfinished⟩

/-- A step from registration on. -/
theorem LaterStages.step (h : LaterStages db₁ ws db s)
    (hstep : (liveProgram policy).SoloStepped db s a vs db' s') :
    LaterStages db₁ (ws ++ vs) db' s' := by
  cases hstep with
  | looked =>
      rw [List.append_nil]
      cases h with
      | running hproc =>
          exact LaterStages.running (s := (liveProgram policy).looked db₁ s) hproc
      | finished hproc => exact .finished hproc
      | failed hproc => exact .failed hproc
  | aborted =>
      rw [List.append_nil]
      cases h with
      | running hproc =>
          exact .failed (LiveProc.onError_eq_failed fun heq => by rw [heq] at hproc; exact hproc)
      | finished hproc => exact .finished (by rw [Session.proc_fresh, hproc]; rfl)
      | failed hproc => exact .failed (LiveProc.onError_eq_failed (by rw [hproc]; simp))
  | @performed i input o _ _ _ ho hdone =>
      obtain ⟨hfinished, hfailed⟩ := not_ended ho
      cases h with
      | finished hproc => exact absurd hproc hfinished
      | failed hproc => exact absurd hproc hfailed
      | running hproc =>
          rcases (liveStepped ho).later hproc with rfl | rfl | ⟨hcommit, hrollback, hnext, -⟩
          · obtain ⟨rfl, rfl, rfl⟩ := hdone
            rw [List.append_nil]
            exact .finished rfl
          · obtain ⟨rfl, rfl, rfl⟩ := hdone
            exact .failed rfl
          · cases o with
            | commit next => exact absurd rfl (hcommit next)
            | rollback next => exact absurd rfl (hrollback next)
            | lock key next =>
                obtain ⟨rfl, rfl, rfl⟩ := hdone
                rw [List.append_nil]
                exact LaterStages.running (s := s.locked key next) hnext
            | call effect next =>
                obtain ⟨rfl, rfl, rfl⟩ := hdone
                rw [List.append_nil]
                exact LaterStages.running (s := s.moved next) hnext
            | write ws next =>
                obtain ⟨rfl, ⟨-, rfl, rfl⟩ | ⟨-, rfl, rfl⟩⟩ := hdone
                · exact .failed (LiveProc.onError_eq_failed hfinished)
                · exact LaterStages.running (s := s.wrote _ next) hnext

/-- A refused registration inserts nothing. -/
theorem RegistrationRefused.registerAttempt (h : RegistrationRefused db e)
    {row : RegisteredAttempt} (hrow : registration e = .ok row) :
    db.apply (.registerAttempt row) = db := by
  obtain ⟨-, hconflict⟩ := h
  unfold registration at hrow
  cases href : AttemptRef.forTriggerEvent e with
  | error err => simp [href, bind, Except.bind] at hrow
  | ok ref =>
      simp only [href, bind, Except.bind, pure, Except.pure, Except.ok.injEq] at hrow
      subst hrow
      simp only [href, Except.bind, Database.require] at hconflict
      cases hfind : db.findAttempt ref.paymentAttemptId with
      | none => simp [hfind] at hconflict
      | some stored => simp [Database.apply, hfind]

theorem Refused.ended {p : LiveProc} (hp : p = .finish ∨ p = .finished ∨ p = .failed) :
    Refused db₁ e db₁ (.fresh p) :=
  ⟨rfl, rfl, by simp, .inr hp⟩

/-- A step of a run whose registration is refused. -/
theorem Refused.step (hrefused : RegistrationRefused db₁ e) (h : Refused db₁ e db s)
    (hstep : (liveProgram policy).SoloStepped db s a vs db' s') : Refused db₁ e db' s' := by
  obtain ⟨rfl, hpending, hviews, hproc⟩ := h
  have hview : (liveProgram policy).view db s = db := hpending
  have herror : Refused db e db (.fresh ((liveProgram policy).onError s.proc)) := by
    refine Refused.ended ?_
    by_cases hfinished : s.proc = .finished
    · rw [hfinished]
      exact .inr (.inl rfl)
    · exact .inr (.inr (LiveProc.onError_eq_failed hfinished))
  cases hstep with
  | looked =>
      refine ⟨rfl, hpending, fun v hv => ?_, hproc⟩
      rcases List.mem_append.mp hv with hv | hv
      · exact hviews v hv
      · rw [List.mem_singleton.mp hv, hview]
  | aborted => exact herror
  | @performed i input o _ _ _ ho hdone =>
      obtain ⟨hfinished, hfailed⟩ := not_ended ho
      have hlive : liveStep policy s.proc input ((liveProgram policy).reads db s)
        ((liveProgram policy).view db s) = some o := ho
      rcases hproc with ⟨ref, hproc | hproc⟩ | hproc | hproc | hproc
      · obtain ⟨⟨ref', href⟩, -⟩ := id hrefused
        rw [hproc] at hlive
        simp only [liveStep, href, Option.some.injEq, bind, Except.bind] at hlive
        cases hrow : registration e with
        | error err =>
            simp only [hrow, orFail] at hlive
            subst hlive
            obtain ⟨-, rfl, rfl⟩ := hdone
            exact .ended (.inr (.inr rfl))
        | ok row =>
            simp only [hrow, pure, Except.pure, orFail] at hlive
            subst hlive
            obtain ⟨rfl, ⟨-, -, rfl⟩ | ⟨-, -, rfl⟩⟩ := hdone
            · exact herror
            · refine ⟨rfl, ?_, by simp [Session.wrote], .inl ⟨ref', .inr rfl⟩⟩
              rw [Session.wrote, List.foldl_append, hpending]
              exact hrefused.registerAttempt hrow
      · have hread : (liveProgram policy).reads db s 0 = db := by
          rcases (liveProgram policy).reads_cases db s 0 with hmem | heq
          · exact hviews _ hmem
          · rw [heq, hview]
        rw [hproc] at hlive
        simp only [liveStep, hread, hrefused.2, Option.some.injEq] at hlive
        subst hlive
        obtain ⟨rfl, ⟨-, -, rfl⟩ | ⟨-, -, rfl⟩⟩ := hdone
        · exact herror
        · exact ⟨rfl, by simpa [Session.wrote] using hpending, by simp [Session.wrote],
            .inr (.inl rfl)⟩
      · rw [hproc] at hlive
        obtain rfl := Option.some.inj hlive
        obtain ⟨-, rfl, rfl⟩ := hdone
        rw [hview]
        exact .ended (.inr (.inl rfl))
      · exact absurd hproc hfinished
      · exact absurd hproc hfailed

end Steps

/-! ## Runs -/

section Runs
variable {policy : InterventionPolicy} {w₀ u w : LiveWorld} {e : PaymentEvent} {p : LiveProc}
  {as₁ as₂ : List LiveAction} {s t : LiveSession}

/-- The run of an event on a fresh session, from any world, while no other session moves:
`u` is the world once Stages 2-4 are done, and `w` a later one. Stages 2-4 leave their results.
From then on the store is that of `u` until the run finishes, also when it fails, at whatever
point; and when it finishes all rows it has written are stored. A refused registration leaves
the store of `u` in any case. -/
theorem run_atomic (hp : p ∈ pipelineRuns e)
    (hown₁ : ∀ a ∈ as₁, a.isOf w₀.sessions.length ∧ LiveAction.IsAlone a)
    (hrun₁ : Run.exec (liveProgram policy).worldStep (w₀.join p) as₁ = some u)
    (hs : u.sessions[w₀.sessions.length]? = some s) (hstart : s.proc = .start e)
    (hown₂ : ∀ a ∈ as₂, a.isOf w₀.sessions.length ∧ LiveAction.IsAlone a)
    (hrun₂ : Run.exec (liveProgram policy).worldStep u as₂ = some w)
    (ht : w.sessions[w₀.sessions.length]? = some t) :
    Analyzed w₀.db e u.db ∧
    (t.proc ≠ .finished → w.db = u.db) ∧
    (t.proc = .finished →
      w.db = ((liveProgram policy).writtenBy u as₂).foldl Database.apply u.db) ∧
    (RegistrationRefused u.db e → w.db = u.db) := by
  have hfresh : EarlierStages w₀.db e w₀.db (.fresh p) := by
    rcases pipelineRuns_cases hp with ⟨hpaypal, rfl⟩ | ⟨hpaypal, rfl⟩
    · exact .start rfl rfl (by simp) (by rw [Analyzed, if_pos hpaypal])
    · exact .analytics rfl hpaypal rfl
  have hearlier : EarlierStages w₀.db e u.db s :=
    Program.solo_exec (fun _ db s => EarlierStages w₀.db e db s)
      (fun h ha hstep => h.step ha hstep) (World.sessions_join w₀ p) hfresh hown₁ hrun₁ hs
  obtain ⟨hpending, hviews, hanalyzed⟩ := hearlier.started hstart
  have hrunning : LaterStages u.db [] u.db s := by
    rw [← hpending]
    exact .running (by rw [hstart]; trivial)
  have hlater : LaterStages u.db ((liveProgram policy).writtenBy u as₂) w.db t :=
    Program.solo_exec (LaterStages u.db) (fun h _ hstep => h.step hstep) hs hrunning hown₂ hrun₂ ht
  refine ⟨hanalyzed, hlater.store.1, hlater.store.2, fun hrefused => ?_⟩
  have hrefusedAt : Refused u.db e u.db s :=
    ⟨rfl, by rw [hpending]; rfl, hviews, .inl ⟨hrefused.1.choose, .inl hstart⟩⟩
  have hended : Refused u.db e w.db t :=
    Program.solo_exec (fun _ db s => Refused u.db e db s)
      (fun h _ hstep => h.step hrefused hstep) hs hrefusedAt hown₂ hrun₂ ht
  exact hended.store

end Runs

namespace AtomicityExample

/-- An authorization of payment `pay_1`. -/
def authorization : PaymentEvent :=
  { eventId := 1, sourceSystem := razorpaySourceSystem, sourceEventId := "evt_1",
    paymentId := "pay_1", timestamp := 1, eventType := pipelineTriggerEventType,
    currency := "INR", amountMinorUnits := 10000, paymentStatus := "x", ingestedAt := 1 }

/-- The only run takes `n` steps. -/
def advances (n : ℕ) : List LiveAction := List.replicate n (.advance 0 {})

theorem advances_own (n : ℕ) : ∀ a ∈ advances n, a.isOf 0 ∧ LiveAction.IsAlone a := by
  intro a ha
  rw [List.eq_of_mem_replicate ha]
  exact ⟨rfl, rfl⟩

abbrev start : LiveWorld := World.join ⟨{}, [], []⟩ (.analytics authorization)

/-- The run goes on from its start after Stages 2-4. -/
theorem advances_start : ∃ u s, Run.exec (liveProgram getDefaultPolicy).worldStep start
    (advances 2) = some u ∧ u.sessions[0]? = some s ∧ s.proc = .start authorization := by
  have hrun : ((Run.exec (liveProgram getDefaultPolicy).worldStep start (advances 2)).map fun u =>
      u.sessions[0]?.map (·.proc)) = some (some (.start authorization)) := by decide +kernel
  obtain ⟨u, hu, hproc⟩ := Option.map_eq_some_iff.mp hrun
  obtain ⟨s, hs, hstart⟩ := Option.map_eq_some_iff.mp hproc
  exact ⟨u, s, hu, hs, hstart⟩

/-- It finishes after six more steps, or an error stops it before its last one. -/
theorem advances_end : ((Run.exec (liveProgram getDefaultPolicy).worldStep start
    (advances 2 ++ advances 6)).map fun w => decide (w.sessions[0]?.map (·.proc) = some .finished ∧
      w.db.attempts.length = 1 ∧ w.db.predictions.length = 1)) = some true ∧
    ((Run.exec (liveProgram getDefaultPolicy).worldStep start
      (advances 2 ++ (advances 5 ++ [.abort 0]))).map fun w =>
        w.sessions[0]?.map (·.proc)) = some (some .failed) := by
  decide +kernel

end AtomicityExample

open AtomicityExample in
theorem run_atomic_authorization : ∃ u w w', Analyzed {} authorization u.db ∧
    Run.exec (liveProgram getDefaultPolicy).worldStep u (advances 6) = some w ∧
    w.db = ((liveProgram getDefaultPolicy).writtenBy u (advances 6)).foldl Database.apply u.db ∧
    w.db.attempts.length = 1 ∧ w.db.predictions.length = 1 ∧
    Run.exec (liveProgram getDefaultPolicy).worldStep u (advances 5 ++ [.abort 0]) = some w' ∧
    w'.db = u.db := by
  obtain ⟨u, s, hu, hs, hstart⟩ := advances_start
  obtain ⟨hfinished, hfailed⟩ := advances_end
  rw [Run.exec_append_of_eq hu] at hfinished hfailed
  obtain ⟨w, hw, hfacts⟩ := Option.map_eq_some_iff.mp hfinished
  obtain ⟨hproc, hattempts, hpredictions⟩ := of_decide_eq_true hfacts
  obtain ⟨t, ht, hproc⟩ := Option.map_eq_some_iff.mp hproc
  obtain ⟨w', hw', hproc'⟩ := Option.map_eq_some_iff.mp hfailed
  obtain ⟨t', ht', hproc'⟩ := Option.map_eq_some_iff.mp hproc'
  have hp : LiveProc.analytics authorization ∈ pipelineRuns authorization := by decide
  have habort : ∀ a ∈ advances 5 ++ [.abort 0], a.isOf 0 ∧ LiveAction.IsAlone a := by
    intro a ha
    rcases List.mem_append.mp ha with ha | ha
    · exact advances_own 5 a ha
    · rw [List.mem_singleton.mp ha]
      exact ⟨rfl, trivial⟩
  obtain ⟨hanalyzed, -, hstored, -⟩ := @run_atomic _ ⟨{}, [], []⟩ _ _ _ _ _ _ _ _ hp
    (advances_own 2) hu hs hstart (advances_own 6) hw ht
  obtain ⟨-, hkept, -, -⟩ := @run_atomic _ ⟨{}, [], []⟩ _ _ _ _ _ _ _ _ hp
    (advances_own 2) hu hs hstart habort hw' ht'
  exact ⟨u, w, w', hanalyzed, hw, hstored hproc, hattempts, hpredictions, hw',
    hkept (by rw [hproc']; simp)⟩

end RevenueRecovery

