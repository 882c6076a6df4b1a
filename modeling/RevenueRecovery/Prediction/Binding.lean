import Mathlib.Data.List.Induction
import RevenueRecovery.Prediction.Training

/-!
# Provider models are bound to checked datasets

The snapshot transaction of an extraction, once its session has lost it, never becomes
current again. An extraction that ends with it current has therefore read everything in it,
that is, from one store. Training compares fingerprints, and equal fingerprints mean equal
canonical rows.

## Main definitions
* `tenure` : the session holds a transaction, or has lost it.
* `CheckedOn` : a dataset and its window, as one store gives them.
* `CheckedIn` : an extraction read its dataset in one snapshot transaction.
* `Agree` : two datasets have the same samples, integer labels and instants, in order.
-/
namespace RevenueRecovery.Training

open Tenure

/-! ## Holding a transaction -/

/-- The session holds the transaction, in which everything since `base` ran; or it has lost
it, and no active transaction has its identity. -/
def tenure (t : SessionTransaction) (base : List ℕ) : Resource Session where
  Held s := s.transaction = some t ∧ t.isActive = true ∧ t.id < s.begun ∧
    ∃ k, s.ran = List.replicate k t.id ++ base
  Lost s := t.id < s.begun ∧ ∀ u ∈ s.transaction, u.id = t.id → u.isActive = false
  not_lost s hheld hlost := by
    have hinactive := hlost.2 t (by rw [hheld.1]; rfl) rfl
    rw [hheld.2.1] at hinactive
    cases hinactive

section Sessions
variable {t : SessionTransaction} {base : List ℕ} {s : Session} {a : Await}

theorem lost_begin (h : t.id < s.begun) (isolationLevel : IsolationLevel)
    (snapshot : Database) : (tenure t base).Lost (s.begin isolationLevel snapshot) := by
  refine ⟨Nat.lt_succ_of_lt h, fun u hu hid => ?_⟩
  obtain rfl := Option.some.inj hu
  exact absurd hid (Nat.ne_of_gt h)

theorem lost_autobegin (h : (tenure t base).Lost s) :
    (tenure t base).Lost (s.autobegin a) := by
  unfold Session.autobegin
  cases htransaction : s.transaction with
  | none => exact lost_begin h.1 _ _
  | some u => exact h

theorem lost_settle (h : (tenure t base).Lost s) (loss : Option Loss)
    (successor : Option (IsolationLevel × Database)) :
    (tenure t base).Lost (s.settle loss successor) := by
  unfold Session.settle
  split
  · exact h
  · refine ⟨h.1, fun u hu hid => ?_⟩
    obtain ⟨w, -, rfl⟩ := Option.mem_map.mp hu
    rfl
  · exact ⟨h.1, fun u hu => nomatch hu⟩
  · exact lost_begin h.1 _ _

/-- Any loss is for good. -/
theorem lost_settle_of_held (h : (tenure t base).Held s) (loss : Loss)
    (successor : Option (IsolationLevel × Database)) :
    (tenure t base).Lost (s.settle (some loss) successor) := by
  cases loss with
  | deactivated =>
      refine ⟨h.2.2.1, fun u hu hid => ?_⟩
      obtain ⟨w, -, rfl⟩ := Option.mem_map.mp hu
      rfl
  | ended =>
      cases successor with
      | none => exact ⟨h.2.2.1, fun u hu => nomatch hu⟩
      | some next => exact lost_begin h.2.2.1 _ _

theorem snapshotIsCurrent_of_held (h : (tenure t base).Held s) :
    s.snapshotIsCurrent t.id = true := by
  simp [Session.snapshotIsCurrent, h.1, h.2.1]

theorem not_lost_of_snapshotIsCurrent (h : s.snapshotIsCurrent t.id = true) :
    ¬ (tenure t base).Lost s := by
  intro hlost
  obtain ⟨u, hu, hcurrent⟩ := Option.any_eq_true _ _ |>.mp h
  rw [Bool.and_eq_true, beq_iff_eq] at hcurrent
  have hinactive := hlost.2 u hu hcurrent.1
  rw [hcurrent.2] at hinactive
  cases hinactive

end Sessions

/-! ## Reading one store -/

/-- Every statement reads the store. -/
def FromStore (db : Database) (r : Reads) : Prop := ∀ k, r.db k = db

section Reading
variable {t : SessionTransaction} {base : List ℕ} {α : Type} {world : ℕ → Await}

theorem SessionTransaction.fromStore_reads {a : Await}
    (hsnapshot : t.isolationLevel.isSnapshot = true) (h : a.loss = none) :
    FromStore t.snapshot (t.reads a) := by
  intro k
  rw [SessionTransaction.reads, h, hsnapshot]
  rfl

/-- A call that begins after the loss runs in some other transaction. -/
theorem lost_await {s : Session} (h : (tenure t base).Lost s) (a : Await)
    (f : SessionTransaction → Reads → α) : (tenure t base).Lost (await a f s).2 := by
  have hbegun (ran : List ℕ) : (tenure t base).Lost
      { s.autobegin a with awaited := s.awaited + 1, ran := ran } := lost_autobegin h
  unfold await
  dsimp only
  split
  · exact hbegun _
  · split_ifs
    · exact lost_settle (hbegun _) _ _
    · exact lost_settle (hbegun _) _ _
    · exact hbegun _

theorem forsakes_execute (f : Reads → α) : Forsakes (tenure t base) (execute world f) :=
  fun _ hs => lost_await hs _ _

/-- What is awaited with the transaction held is read from its snapshot. -/
theorem yields_execute (hsnapshot : t.isolationLevel.isSnapshot = true) (f : Reads → α) :
    Yields (tenure t base) (execute world f) fun x =>
      ∃ r, FromStore t.snapshot r ∧ x = f r := by
  intro s hs
  have hautobegin : s.autobegin (world s.awaited) = s := by
    rw [Session.autobegin, hs.1]
  have hawait : execute world f s =
      (if (world s.awaited).raises then .error .database
        else .ok (f (t.reads (world s.awaited))),
        ({ s with awaited := s.awaited + 1, ran := t.id :: s.ran } : Session).settle
          (world s.awaited).loss (world s.awaited).successor) := by
    simp only [execute, await, hautobegin, hs.1, hs.2.1, if_true]
  have hheld : (tenure t base).Held
      { s with awaited := s.awaited + 1, ran := t.id :: s.ran } := by
    obtain ⟨htransaction, hactive, hid, k, hran⟩ := hs
    refine ⟨htransaction, hactive, hid, k + 1, ?_⟩
    change t.id :: s.ran = _
    rw [hran, List.replicate_succ, List.cons_append]
  rw [hawait]
  cases hloss : (world s.awaited).loss with
  | some loss => exact .inl (lost_settle_of_held hheld loss _)
  | none =>
      refine .inr ⟨hheld, fun x hx => ?_⟩
      split_ifs at hx with hraises
      exact ⟨_, SessionTransaction.fromStore_reads hsnapshot hloss, (Except.ok.inj hx).symm⟩

theorem forsakes_ensure (c : Bool) (e : TrainingError) :
    Forsakes (tenure t base) (ensure c e) := by
  unfold ensure
  split_ifs
  · exact forsakes_pure _
  · exact forsakes_fail _

theorem yields_ensure (c : Bool) (e : TrainingError) :
    Yields (tenure t base) (ensure c e) fun _ => c = true := by
  unfold ensure
  split_ifs with h
  · exact yields_pure h
  · exact yields_fail _ _

theorem ensure_eq_ok {c : Bool} {e : TrainingError} {u : Unit} {s s' : Session}
    (h : ensure c e s = (.ok u, s')) : c = true ∧ s' = s := by
  cases c with
  | true => exact ⟨rfl, (Prod.mk.inj h).2.symm⟩
  | false => cases (Prod.mk.inj h).1

theorem forsakes_requireProviderSnapshot (transaction : ℕ) :
    Forsakes (tenure t base) (requireProviderSnapshot transaction) :=
  forsakes_state.bind fun _ => forsakes_ofExcept _

theorem yields_requireProviderSnapshot (transaction : ℕ) :
    Yields (tenure t base) (requireProviderSnapshot transaction) fun _ => True :=
  (yields_state (fun _ => True) fun _ _ => trivial).bind (fun _ => forsakes_ofExcept _)
    fun _ _ => yields_ofExcept fun _ _ => trivial

end Reading

/-! ## Extraction from one store -/

/-- No event in the window is generated. -/
def Clean (db : Database) (window : Time × Time) : Prop :=
  ∀ e ∈ db.events, inWindow window e = true →
    e.sourceSystem ∈ razorpaySourceSystem :: nonRazorpayPipelineSources ∧
      ¬ (e.sourceSystem = razorpaySourceSystem ∧ isLegacyLiveContextEvent e = true)

/-- The label and the features of an event, as the store gives them; none when it is
skipped. -/
def SampledFrom (db : Database) (e : PaymentEvent) (row : Option (Sample × ℤ)) : Prop :=
  ∃ r label, FromStore db r ∧ RevenueRecovery.getTerminalLabel ⟨.providerEvaluation, true⟩ r
      e.paymentId e.ingestedAt = .ok label ∧
    if label = -1 then row = none
    else ∃ r', FromStore db r' ∧ row = (reconstructFeatures r' e.paymentId e.ingestedAt).map
      fun features => (asdict features, label)

/-- The dataset of the events, as the store gives it. -/
inductive DatasetOf (db : Database) : List PaymentEvent → Dataset → Prop
  | nil : DatasetOf db [] {}
  | cons {e : PaymentEvent} {events : List PaymentEvent} {row : Option (Sample × ℤ)}
      {d : Dataset} (hrow : SampledFrom db e row) (hrest : DatasetOf db events d) :
      DatasetOf db (e :: events) (appendSample e row d)

/-- The dataset of the store's authorized events, whose window holds no generated event. -/
def CheckedOn (db : Database) (window : Time × Time) (d : Dataset) : Prop :=
  ∃ r, FromStore db r ∧ contaminationWindow (authorizedEvents r) = some window ∧
    Clean db window ∧ DatasetOf db (authorizedEvents r) d

/-- A prefix of the payment id is what the token's full match implies. -/
theorem isPrefixOf_of_isLegacyLiveContextEvent {e : PaymentEvent}
    (h : isLegacyLiveContextEvent e = true) :
    legacyLiveContextPaymentPrefix.toList.isPrefixOf e.paymentId.toList = true := by
  unfold isLegacyLiveContextEvent legacyToken at h
  by_contra hstart
  simp [hstart] at h

theorem clean_of_counts {db : Database} {window : Time × Time} {r r' : Reads}
    (hr : FromStore db r) (hr' : FromStore db r') (hnonProvider : nonProviderCount window r = 0)
    (hlegacy : legacyCount window r' = 0) : Clean db window := by
  intro e he hwindow
  have hnone := List.eq_nil_iff_forall_not_mem.mp (List.length_eq_zero_iff.mp hnonProvider)
  have hnoLegacy := List.eq_nil_iff_forall_not_mem.mp (List.length_eq_zero_iff.mp hlegacy)
  constructor
  · by_contra hsource
    refine hnone e (Reads.mem_rows.mpr ⟨(hr 0).symm ▸ he, ?_⟩)
    simpa [hwindow] using hsource
  · rintro ⟨hsource, hgenerated⟩
    refine hnoLegacy e (List.mem_filter.mpr ⟨Reads.mem_rows.mpr ⟨(hr' 0).symm ▸ he, ?_⟩,
      hgenerated⟩)
    simp [hwindow, hsource, isPrefixOf_of_isLegacyLiveContextEvent hgenerated]

section Extraction
variable {t : SessionTransaction} {base : List ℕ} {world : ℕ → Await}

theorem forsakes_assertEvaluationWindowUncontaminated (transaction : ℕ) (window : Time × Time) :
    Forsakes (tenure t base)
      (assertEvaluationWindowUncontaminated world transaction window) :=
  (forsakes_requireProviderSnapshot _).bind fun _ => (forsakes_execute _).bind fun _ =>
    (forsakes_execute _).bind fun _ => forsakes_ensure _ _

theorem forsakes_checkWindow (transaction : ℕ) (window : Option (Time × Time)) :
    Forsakes (tenure t base) (checkWindow world transaction window) := by
  cases window with
  | none => exact forsakes_pure _
  | some window => exact forsakes_assertEvaluationWindowUncontaminated transaction window

theorem forsakes_getTerminalLabel (transaction : ℕ) (paymentId : String) (time : Time) :
    Forsakes (tenure t base) (getTerminalLabel world transaction paymentId time) :=
  (forsakes_requireProviderSnapshot _).bind fun _ => forsakes_state.bind fun _ =>
    (forsakes_execute _).bind fun _ => forsakes_ofExcept _

theorem forsakes_reconstructSample (e : PaymentEvent) (label : ℤ) :
    Forsakes (tenure t base) (reconstructSample world e label) := by
  unfold reconstructSample
  split_ifs
  · exact forsakes_pure _
  · exact (forsakes_execute _).bind fun _ => forsakes_pure _

theorem forsakes_labelAndReconstruct (transaction : ℕ) (events : List PaymentEvent) :
    Forsakes (tenure t base) (labelAndReconstruct world transaction events) := by
  induction events with
  | nil => exact forsakes_pure _
  | cons e events ih =>
      exact (forsakes_getTerminalLabel _ _ _).bind fun _ =>
        (forsakes_reconstructSample _ _).bind fun _ => ih.bind fun _ => forsakes_pure _

variable (hsnapshot : t.isolationLevel.isSnapshot = true)
include hsnapshot

theorem yields_getAuthorizedEvents (transaction : ℕ) :
    Yields (tenure t base) (getAuthorizedEvents world transaction) fun events =>
      ∃ r, FromStore t.snapshot r ∧ events = authorizedEvents r :=
  (yields_requireProviderSnapshot _).bind (fun _ => forsakes_execute _)
    fun _ _ => yields_execute hsnapshot _

theorem yields_assertEvaluationWindowUncontaminated (transaction : ℕ) (window : Time × Time) :
    Yields (tenure t base) (assertEvaluationWindowUncontaminated world transaction window)
      fun _ => Clean t.snapshot window := by
  refine (yields_requireProviderSnapshot _).bind (fun _ => (forsakes_execute _).bind fun _ =>
    (forsakes_execute _).bind fun _ => forsakes_ensure _ _) fun _ _ => ?_
  refine (yields_execute hsnapshot _).bind (fun _ => (forsakes_execute _).bind fun _ =>
    forsakes_ensure _ _) ?_
  rintro nonProvider ⟨r, hr, rfl⟩
  refine (yields_execute hsnapshot _).bind (fun _ => forsakes_ensure _ _) ?_
  rintro legacy ⟨r', hr', rfl⟩
  refine (yields_ensure _ _).mono fun _ hcounts => ?_
  rw [Bool.and_eq_true, beq_iff_eq, beq_iff_eq] at hcounts
  exact clean_of_counts hr hr' hcounts.1 hcounts.2

theorem yields_checkWindow (transaction : ℕ) (window : Option (Time × Time)) :
    Yields (tenure t base) (checkWindow world transaction window)
      fun _ => ∀ w ∈ window, Clean t.snapshot w := by
  cases window with
  | none => exact yields_pure fun w hw => nomatch hw
  | some window =>
      refine (yields_assertEvaluationWindowUncontaminated hsnapshot transaction window).mono ?_
      intro _ hclean w hw
      obtain rfl := Option.some.inj hw
      exact hclean

theorem yields_getTerminalLabel (paymentId : String) (time : Time) :
    Yields (tenure t base) (getTerminalLabel world t.id paymentId time) fun label =>
      ∃ r, FromStore t.snapshot r ∧ RevenueRecovery.getTerminalLabel
        ⟨.providerEvaluation, true⟩ r paymentId time = .ok label := by
  refine (yields_requireProviderSnapshot _).bind (fun _ => forsakes_state.bind fun _ =>
    (forsakes_execute _).bind fun _ => forsakes_ofExcept _) fun _ _ => ?_
  refine (yields_state (fun s => s.validator t.id = ⟨.providerEvaluation, true⟩) fun s hs => ?_).bind
    (fun _ => (forsakes_execute _).bind fun _ => forsakes_ofExcept _) ?_
  · rw [Session.validator, snapshotIsCurrent_of_held hs]
  intro s hs
  refine (yields_execute hsnapshot _).bind (fun _ => forsakes_ofExcept _) ?_
  rintro answer ⟨r, hr, rfl⟩
  refine yields_ofExcept fun label hlabel => ⟨r, hr, ?_⟩
  rw [hs] at hlabel
  cases hanswer : RevenueRecovery.getTerminalLabel ⟨.providerEvaluation, true⟩ r paymentId time with
  | error e =>
      rw [hanswer] at hlabel
      cases hlabel
  | ok n =>
      rw [hanswer] at hlabel
      exact congrArg Except.ok (Except.ok.inj hlabel)

theorem yields_reconstructSample (e : PaymentEvent) {label : ℤ} {r : Reads}
    (hr : FromStore t.snapshot r)
    (hlabel : RevenueRecovery.getTerminalLabel ⟨.providerEvaluation, true⟩ r e.paymentId
      e.ingestedAt = .ok label) :
    Yields (tenure t base) (reconstructSample world e label) (SampledFrom t.snapshot e) := by
  unfold reconstructSample
  split_ifs with hunresolved
  · exact yields_pure ⟨r, label, hr, hlabel, by rw [if_pos hunresolved]⟩
  · refine (yields_execute hsnapshot _).bind (fun _ => forsakes_pure _) ?_
    rintro snapshot ⟨r', hr', rfl⟩
    exact yields_pure ⟨r, label, hr, hlabel, by rw [if_neg hunresolved]; exact ⟨r', hr', rfl⟩⟩

theorem yields_labelAndReconstruct (events : List PaymentEvent) :
    Yields (tenure t base) (labelAndReconstruct world t.id events)
      (DatasetOf t.snapshot events) := by
  induction events with
  | nil => exact yields_pure .nil
  | cons e events ih =>
      refine (yields_getTerminalLabel hsnapshot _ _).bind (fun _ =>
        (forsakes_reconstructSample _ _).bind fun _ =>
          (forsakes_labelAndReconstruct _ _).bind fun _ => forsakes_pure _) ?_
      rintro label ⟨r, hr, hlabel⟩
      refine (yields_reconstructSample hsnapshot e hr hlabel).bind (fun _ =>
        (forsakes_labelAndReconstruct _ _).bind fun _ => forsakes_pure _) fun row hrow => ?_
      exact ih.bind (fun _ => forsakes_pure _) fun d hd => yields_pure (.cons hrow hd)

/-- An extraction whose final check passes has held its transaction throughout. -/
theorem extractInSnapshot_spec {s s' : Session} {window : Option (Time × Time)} {d : Dataset}
    (hs : (tenure t base).Held s)
    (h : extractInSnapshot world t.id s = (.ok (window, d), s')) :
    (tenure t base).Held s' ∧ ∀ w ∈ window, CheckedOn t.snapshot w d := by
  have hyields : Yields (tenure t base) (extractInSnapshot world t.id) fun result =>
      ∀ w ∈ result.1, CheckedOn t.snapshot w result.2 := by
    refine (yields_getAuthorizedEvents hsnapshot _).bind (fun _ =>
      (forsakes_checkWindow _ _).bind fun _ => (forsakes_labelAndReconstruct _ _).bind fun _ =>
        forsakes_state.bind fun _ => (forsakes_ensure _ _).bind fun _ => forsakes_pure _) ?_
    rintro events ⟨r, hr, rfl⟩
    refine (yields_checkWindow hsnapshot _ _).bind (fun _ =>
      (forsakes_labelAndReconstruct _ _).bind fun _ => forsakes_state.bind fun _ =>
        (forsakes_ensure _ _).bind fun _ => forsakes_pure _) fun _ hclean => ?_
    refine (yields_labelAndReconstruct hsnapshot _).bind (fun _ => forsakes_state.bind fun _ =>
      (forsakes_ensure _ _).bind fun _ => forsakes_pure _) fun d hd => ?_
    refine (yields_state (fun _ => True) fun _ _ => trivial).bind (fun _ =>
      (forsakes_ensure _ _).bind fun _ => forsakes_pure _) fun s _ => ?_
    refine (yields_ensure _ _).bind (fun _ => forsakes_pure _) fun _ _ => ?_
    exact yields_pure fun w hw => ⟨r, hr, hw, hclean w hw, hd⟩
  have hcurrent : s'.snapshotIsCurrent t.id = true := by
    obtain ⟨events, s₁, -, h⟩ := Fallible.bind_eq_ok h
    obtain ⟨_, s₂, -, h⟩ := Fallible.bind_eq_ok h
    obtain ⟨dataset, s₃, -, h⟩ := Fallible.bind_eq_ok h
    obtain ⟨s₄, s₅, hstate, h⟩ := Fallible.bind_eq_ok h
    obtain ⟨_, s₆, hensure, h⟩ := Fallible.bind_eq_ok h
    obtain ⟨-, rfl⟩ := Prod.mk.inj h
    obtain ⟨hread, rfl⟩ := Prod.mk.inj hstate
    obtain rfl := Except.ok.inj hread
    obtain ⟨hcheck, rfl⟩ := ensure_eq_ok hensure
    exact hcheck
  have hresult := hyields s hs
  rw [h] at hresult
  rcases hresult with hlost | ⟨hheld, hvalue⟩
  · exact absurd hlost (not_lost_of_snapshotIsCurrent hcurrent)
  · exact ⟨hheld, hvalue _ rfl⟩

end Extraction

/-! ## The snapshot transaction -/

/-- The session's transaction, if any, is one of those begun since `n`. -/
def BegunSince (n : ℕ) (s : Session) : Prop :=
  n ≤ s.begun ∧ ∀ u ∈ s.transaction, n ≤ u.id ∧ u.id < s.begun

section Setup
variable {n : ℕ} {s s' : Session} {world : ℕ → Await}

theorem begunSince_begin (h : n ≤ s.begun) (isolationLevel : IsolationLevel)
    (snapshot : Database) : BegunSince n (s.begin isolationLevel snapshot) := by
  refine ⟨Nat.le_succ_of_le h, fun u hu => ?_⟩
  obtain rfl := Option.some.inj hu
  exact ⟨h, Nat.lt_succ_self _⟩

theorem BegunSince.autobegin (h : BegunSince n s) (a : Await) :
    BegunSince n (s.autobegin a) := by
  unfold Session.autobegin
  cases htransaction : s.transaction with
  | none => exact begunSince_begin h.1 _ _
  | some u => exact h

theorem BegunSince.settle (h : BegunSince n s) (loss : Option Loss) :
    BegunSince n (s.settle loss none) := by
  cases loss with
  | none => exact h
  | some loss =>
      cases loss with
      | deactivated =>
          refine ⟨h.1, fun u hu => ?_⟩
          obtain ⟨w, hw, rfl⟩ := Option.mem_map.mp hu
          exact h.2 w hw
      | ended => exact ⟨h.1, fun u hu => nomatch hu⟩

theorem connection_begunSince (world : ℕ → Await) (s : Session) :
    BegunSince s.begun (connection world s).2 ∧ (connection world s).2.ran = s.ran := by
  constructor
  · have hbegin : BegunSince s.begun { s.begin (world s.awaited).isolationLevel
        ((world s.awaited).reads.db 0) with awaited := s.awaited + 1 } :=
      begunSince_begin le_rfl _ _
    exact hbegin.settle _
  · unfold connection Session.settle
    dsimp only
    split <;> rfl

/-- What is answered ran in an active transaction. -/
theorem await_eq_ok {α : Type} {a : Await} {f : SessionTransaction → Reads → α} {x : α}
    (h : await a f s = (.ok x, s')) : ∃ t, (s.autobegin a).transaction = some t ∧
      t.isActive = true ∧ x = f t (t.reads a) ∧
        s' = ({ s.autobegin a with awaited := s.awaited + 1, ran := t.id :: (s.autobegin a).ran } :
          Session).settle a.loss a.successor := by
  unfold await at h
  dsimp only at h
  split at h
  · cases (Prod.mk.inj h).1
  next t htransaction =>
    split_ifs at h with hactive hraises
    · cases (Prod.mk.inj h).1
    · obtain ⟨hx, hs⟩ := Prod.mk.inj h
      exact ⟨t, htransaction, hactive, (Except.ok.inj hx).symm, hs.symm⟩
    · cases (Prod.mk.inj h).1

theorem ran_autobegin (s : Session) (a : Await) : (s.autobegin a).ran = s.ran := by
  unfold Session.autobegin
  split <;> rfl

/-- The level that is shown is that of the transaction found active afterwards. -/
theorem shownLevel_spec {a : Await} (ha : a.successor = none) (hs : BegunSince n s)
    {isolationLevel : IsolationLevel}
    (h : await a (fun t _ => t.isolationLevel) s = (.ok isolationLevel, s'))
    {t : SessionTransaction} (ht : s'.transaction = some t) (hactive : t.isActive = true) :
    t.isolationLevel = isolationLevel ∧ n ≤ t.id ∧ (tenure t s.ran).Held s' := by
  obtain ⟨u, hu, -, rfl, rfl⟩ := await_eq_ok h
  rw [ha] at ht ⊢
  cases hloss : a.loss with
  | none =>
      rw [hloss] at ht
      obtain rfl : u = t := Option.some.inj (hu.symm.trans ht)
      have hbegun := (hs.autobegin a).2 u hu
      refine ⟨rfl, hbegun.1, hu, hactive, hbegun.2, 1, ?_⟩
      exact congrArg (u.id :: ·) (ran_autobegin _ _)
  | some loss =>
      rw [hloss] at ht
      cases loss with
      | deactivated =>
          obtain ⟨w, -, rfl⟩ := Option.map_eq_some_iff.mp ht
          cases hactive
      | ended => cases ht

/-- The extraction begins one transaction of a snapshot level, and holds it. -/
theorem beginProviderSnapshot_spec {transaction : ℕ}
    (h : beginProviderSnapshot world s = (.ok transaction, s')) :
    ∃ t, t.id = transaction ∧ t.isolationLevel.isSnapshot = true ∧ s.begun ≤ t.id ∧
      (tenure t s.ran).Held s' := by
  obtain ⟨s₀, s₁, hstate, h₁⟩ := Fallible.bind_eq_ok h
  obtain ⟨_, s₂, hensure, h₂⟩ := Fallible.bind_eq_ok h₁
  obtain ⟨_, s₃, hconnection, h₃⟩ := Fallible.bind_eq_ok h₂
  obtain ⟨isolationLevel, s₄, hshow, h₄⟩ := Fallible.bind_eq_ok h₃
  obtain ⟨_, s₅, hlevel, h₅⟩ := Fallible.bind_eq_ok h₄
  obtain ⟨s₆, s₇, hread, h₆⟩ := Fallible.bind_eq_ok h₅
  have hs₂ : s₂ = s := (ensure_eq_ok hensure).2.trans (Prod.mk.inj hstate).2.symm
  have hsnapshot := (ensure_eq_ok hlevel).1
  have hs₄ : s₄ = s' := (ensure_eq_ok hlevel).2.symm.trans
    ((Prod.mk.inj hread).2.trans (Prod.mk.inj h₆).2)
  have hs₆ : s₆ = s' := (Except.ok.inj (Prod.mk.inj hread).1).symm.trans
    ((Prod.mk.inj hread).2.trans (Prod.mk.inj h₆).2)
  have hactive : activeTransaction s₆ = .ok transaction := (Prod.mk.inj h₆).1
  have hbegun := connection_begunSince world s₂
  rw [hconnection, hs₂] at hbegun
  rw [hs₄] at hshow
  rw [hs₆] at hactive
  unfold activeTransaction at hactive
  cases ht : s'.transaction with
  | none =>
      rw [ht] at hactive
      cases hactive
  | some t =>
      rw [ht] at hactive
      dsimp only at hactive
      split_ifs at hactive with hisActive
      obtain ⟨hshown, hid, hheld⟩ := shownLevel_spec rfl hbegun.1 hshow ht hisActive
      rw [hbegun.2] at hheld
      exact ⟨t, Except.ok.inj hactive, by rw [hshown]; exact hsnapshot, hid, hheld⟩

end Setup

/-! ## Checked extractions -/

/-- A call that found the session in `s` and left it in `s'` began the transaction `t`, at a
level with a snapshot, awaited everything in it, and read from its snapshot a dataset whose
window is clean. -/
structure CheckedIn (t : SessionTransaction) (s s' : Session) (window : Time × Time)
    (d : Dataset) : Prop where
  isSnapshot : t.isolationLevel.isSnapshot = true
  begun : s.begun ≤ t.id
  current : s'.snapshotIsCurrent t.id = true
  ran : ∃ k, s'.ran = List.replicate k t.id ++ s.ran
  checked : CheckedOn t.snapshot window d

section Validator
variable {F : Type} {sha256 : List CanonicalRow → F} {world : ℕ → Await}
  {v : ProviderValidator F} {checked : CheckedExtraction F}

theorem recordChecked_spec {d : Dataset} {window : Option (Time × Time)}
    (hv : v.checkedExtraction = none)
    (h : (v.recordChecked sha256 d window).2.checkedExtraction = some checked) :
    window = some checked.window ∧
      computeDatasetFingerprint sha256 d = .ok checked.datasetFingerprint ∧
        (v.recordChecked sha256 d window).1 = .ok d ∧
          (v.recordChecked sha256 d window).2.session = v.session := by
  unfold ProviderValidator.recordChecked at h ⊢
  cases window with
  | none =>
      rw [show v.checkedExtraction = some checked from h] at hv
      cases hv
  | some window =>
      cases hfingerprint : computeDatasetFingerprint sha256 d with
      | error e =>
          rw [hfingerprint] at h
          rw [show v.checkedExtraction = some checked from h] at hv
          cases hv
      | ok fingerprint =>
          rw [hfingerprint] at h
          obtain rfl := Option.some.inj h
          exact ⟨rfl, rfl, rfl, rfl⟩

/-- Only a checked extraction is remembered, whatever was remembered before. -/
theorem extractDataset_spec
    (h : (extractDataset sha256 world v).2.checkedExtraction = some checked) :
    ∃ d t, (extractDataset sha256 world v).1 = .ok d ∧
      computeDatasetFingerprint sha256 d = .ok checked.datasetFingerprint ∧
        CheckedIn t v.session (extractDataset sha256 world v).2.session checked.window d := by
  unfold extractDataset at h ⊢
  rcases hbegin : beginProviderSnapshot world v.session with ⟨e | transaction, s⟩
  · rw [hbegin] at h
    cases h
  obtain ⟨t, rfl, hsnapshot, hbegun, hheld⟩ := beginProviderSnapshot_spec hbegin
  rw [hbegin] at h
  dsimp only at h ⊢
  rcases hextract : extractInSnapshot world t.id s with ⟨e | ⟨window, d⟩, s'⟩
  · rw [hextract] at h
    cases h
  rw [hextract] at h
  dsimp only at h ⊢
  obtain ⟨hend, hchecked⟩ := extractInSnapshot_spec hsnapshot hheld hextract
  obtain ⟨hwindow, hfingerprint, hresult, hsession⟩ := recordChecked_spec rfl h
  refine ⟨d, t, hresult, hfingerprint, hsnapshot, hbegun, ?_, ?_, hchecked _ hwindow⟩
  · rw [hsession]
    exact snapshotIsCurrent_of_held hend
  · rw [hsession]
    exact hend.2.2.2

/-- What is remembered was remembered by the most recent extraction. -/
theorem afterCalls_checked {session : Session} (calls : List Call)
    (h : (afterCalls sha256 world { session := session } calls).checkedExtraction =
      some checked) :
    ∃ before later, calls = before ++ .extractDataset :: later ∧ .extractDataset ∉ later ∧
      (extractDataset sha256 world
        (afterCalls sha256 world { session := session } before)).2.checkedExtraction =
          some checked := by
  induction calls using List.reverseRecOn with
  | nil => cases h
  | append_singleton calls call ih =>
      rw [afterCalls, List.foldl_append] at h
      by_cases hcall : call = .extractDataset
      · subst hcall
        exact ⟨calls, [], rfl, List.not_mem_nil, h⟩
      · have hkept : (afterCalls sha256 world { session := session } calls).checkedExtraction =
            some checked := by
          cases call with
          | extractDataset => exact absurd rfl hcall
          | runPipeline d => exact h
          | useSession loss successor => exact h
          | begin isolationLevel snapshot => exact h
        obtain ⟨before, later, rfl, hlater, hchecked⟩ := ih hkept
        refine ⟨before, later ++ [call], by simp, ?_, hchecked⟩
        rw [List.mem_append, List.mem_singleton]
        rintro (hmem | heq)
        · exact hlater hmem
        · exact hcall heq.symm

end Validator

/-! ## Agreement -/

/-- The same samples up to the order of their keys, the same integer labels and the same
instants, in order. -/
structure Agree (d d' : Dataset) : Prop where
  samples : List.Forall₂ List.Perm d.samples d'.samples
  labels : d.labels.map Label.toInt = d'.labels.map Label.toInt
  times : d.times.map Datetime.instant = d'.times.map Datetime.instant

section Agreement
variable {F : Type} {sha256 : List CanonicalRow → F}

theorem canonicalRow_eq_ok {x : Sample} {y : Label} {t : Datetime} {row : CanonicalRow}
    (h : canonicalRow x y t = .ok row) :
    x.Perm row.features ∧ y.toInt = some row.label ∧ t.instant = some row.time := by
  unfold canonicalRow at h
  split at h
  next label time hlabel htime =>
    split_ifs at h
    obtain rfl := Except.ok.inj h
    exact ⟨(List.perm_insertionSort _ _).symm, hlabel, htime⟩
  · cases h
  · cases h

/-- The canonical rows determine the samples, integer labels and instants. -/
theorem canonicalRows_eq_ok {xs : List Sample} {ys : List Label} {ts : List Datetime}
    {rows : List CanonicalRow} (hxy : xs.length = ys.length) (hyt : ys.length = ts.length)
    (h : canonicalRows xs ys ts = .ok rows) :
    List.Forall₂ List.Perm xs (rows.map CanonicalRow.features) ∧
      ys.map Label.toInt = rows.map (fun row => some row.label) ∧
        ts.map Datetime.instant = rows.map fun row => some row.time := by
  induction xs generalizing ys ts rows with
  | nil =>
      obtain rfl := List.length_eq_zero_iff.mp hxy.symm
      obtain rfl := List.length_eq_zero_iff.mp hyt.symm
      obtain rfl := Except.ok.inj h
      exact ⟨.nil, rfl, rfl⟩
  | cons x xs ih =>
      cases ys with
      | nil => cases hxy
      | cons y ys =>
          cases ts with
          | nil => cases hyt
          | cons t ts =>
              simp only [canonicalRows, bind, Except.bind] at h
              cases hrow : canonicalRow x y t with
              | error e =>
                  rw [hrow] at h
                  cases h
              | ok row =>
                  rw [hrow] at h
                  dsimp only at h
                  cases hrows : canonicalRows xs ys ts with
                  | error e =>
                      rw [hrows] at h
                      cases h
                  | ok rest =>
                      rw [hrows] at h
                      obtain rfl := Except.ok.inj h
                      obtain ⟨hsample, hlabel, htime⟩ := canonicalRow_eq_ok hrow
                      obtain ⟨hsamples, hlabels, htimes⟩ :=
                        ih (Nat.succ.inj hxy) (Nat.succ.inj hyt) hrows
                      refine ⟨.cons hsample hsamples, ?_, ?_⟩
                      · rw [List.map_cons, List.map_cons, hlabel, hlabels]
                      · rw [List.map_cons, List.map_cons, htime, htimes]

theorem computeDatasetFingerprint_eq_ok {d : Dataset} {fingerprint : F}
    (h : computeDatasetFingerprint sha256 d = .ok fingerprint) :
    ∃ rows, canonicalRows d.samples d.labels d.times = .ok rows ∧ sha256 rows = fingerprint ∧
      d.samples.length = d.labels.length ∧ d.labels.length = d.times.length := by
  simp only [computeDatasetFingerprint, bind, Except.bind, pure, Except.pure, throw, throwThe,
    MonadExceptOf.throw] at h
  split_ifs at h with hlength hnaive
  · cases hrows : canonicalRows d.samples d.labels d.times with
    | error e =>
        rw [hrows] at h
        cases h
    | ok rows =>
        rw [hrows] at h
        exact ⟨rows, rfl, Except.ok.inj h, hlength⟩

theorem forall₂_perm_of_common {xs ys zs : List Sample} (h : List.Forall₂ List.Perm xs zs)
    (h' : List.Forall₂ List.Perm ys zs) : List.Forall₂ List.Perm xs ys := by
  induction h generalizing ys with
  | nil =>
      cases h'
      exact .nil
  | cons hx _ ih =>
      cases h' with
      | cons hy hys => exact .cons (hx.trans hy.symm) (ih hys)

/-- Equal fingerprints come from datasets that agree. -/
theorem agree_of_fingerprint (hinj : Function.Injective sha256) {d d' : Dataset}
    {fingerprint : F} (h : computeDatasetFingerprint sha256 d = .ok fingerprint)
    (h' : computeDatasetFingerprint sha256 d' = .ok fingerprint) : Agree d d' := by
  obtain ⟨rows, hrows, hhash, hxy, hyt⟩ := computeDatasetFingerprint_eq_ok h
  obtain ⟨rows', hrows', hhash', hxy', hyt'⟩ := computeDatasetFingerprint_eq_ok h'
  obtain rfl := hinj (hhash.trans hhash'.symm)
  obtain ⟨hsamples, hlabels, htimes⟩ := canonicalRows_eq_ok hxy hyt hrows
  obtain ⟨hsamples', hlabels', htimes'⟩ := canonicalRows_eq_ok hxy' hyt' hrows'
  exact ⟨forall₂_perm_of_common hsamples hsamples', hlabels.trans hlabels'.symm,
    htimes.trans htimes'.symm⟩

end Agreement

/-! ## Binding -/

section Binding
variable {F Estimator : Type} [DecidableEq F] {sha256 : List CanonicalRow → F}
  {fit : Dataset → Except TrainingError Estimator} {v : ProviderValidator F} {d : Dataset}
  {model : ProviderModel Estimator F}

theorem requireCheckedDataset_eq_ok {checked : CheckedExtraction F} {fingerprint : F}
    (h : requireCheckedDataset sha256 v d = .ok (checked, fingerprint)) :
    v.checkedExtraction = some checked ∧
      computeDatasetFingerprint sha256 d = .ok checked.datasetFingerprint := by
  unfold requireCheckedDataset at h
  cases hchecked : v.checkedExtraction with
  | none =>
      rw [hchecked] at h
      cases h
  | some remembered =>
      rw [hchecked] at h
      simp only [bind, Except.bind, pure, Except.pure, throw, throwThe,
        MonadExceptOf.throw] at h
      split_ifs at h with htimes
      · cases hfingerprint : computeDatasetFingerprint sha256 d with
        | error e =>
            rw [hfingerprint] at h
            cases h
        | ok computed =>
            rw [hfingerprint] at h
            dsimp only at h
            split_ifs at h with hne
            · obtain ⟨rfl, rfl⟩ := Prod.mk.inj (Except.ok.inj h)
              exact ⟨rfl, congrArg Except.ok (not_not.mp hne)⟩

/-- A model is trained only on a dataset with the remembered fingerprint. -/
theorem runPipeline_spec (h : runPipeline sha256 fit v d = .ok model) :
    ∃ checked, v.checkedExtraction = some checked ∧
      computeDatasetFingerprint sha256 d = .ok checked.datasetFingerprint ∧
        model.contaminationWindow = checked.window := by
  simp only [runPipeline, bind, Except.bind, pure, Except.pure] at h
  cases hchecked : requireCheckedDataset sha256 v d with
  | error e =>
      rw [hchecked] at h
      cases h
  | ok result =>
      rw [hchecked] at h
      dsimp only at h
      split at h
      · cases h
      · split at h
        · cases h
        · obtain rfl := Except.ok.inj h
          obtain ⟨hremembered, hfingerprint⟩ := requireCheckedDataset_eq_ok hchecked
          exact ⟨result.1, hremembered, hfingerprint, rfl⟩

/-- In any sequence of calls a provider model is returned only when the most recent
extraction read its dataset in one snapshot transaction, found the window clean, and returned
a dataset that agrees with the arguments. -/
theorem runPipeline_bound (hinj : Function.Injective sha256) (world : ℕ → Await)
    (session : Session) (calls : List Call)
    (h : runPipeline sha256 fit (afterCalls sha256 world { session := session } calls) d =
      .ok model) :
    ∃ before later dataset t, calls = before ++ .extractDataset :: later ∧
      .extractDataset ∉ later ∧
        let v := afterCalls sha256 world { session := session } before
        (extractDataset sha256 world v).1 = .ok dataset ∧
          CheckedIn t v.session (extractDataset sha256 world v).2.session
            model.contaminationWindow dataset ∧ Agree d dataset := by
  obtain ⟨checked, hchecked, hfingerprint, hwindow⟩ := runPipeline_spec h
  obtain ⟨before, later, hcalls, hlater, hremembered⟩ := afterCalls_checked calls hchecked
  obtain ⟨dataset, t, hresult, hextracted, hin⟩ := extractDataset_spec hremembered
  refine ⟨before, later, dataset, t, hcalls, hlater, hresult, ?_, ?_⟩
  · rw [hwindow]
    exact hin
  · exact agree_of_fingerprint hinj hfingerprint hextracted

end Binding

/-! ### A failed payment -/

namespace TrainingExample

/-- A Razorpay payment that failed a second after its authorization. -/
def db : Database :=
  let authorization : PaymentEvent :=
    { eventId := 0, sourceSystem := razorpaySourceSystem, sourceEventId := "evt_0",
      paymentId := "pay", timestamp := 0, eventType := pipelineTriggerEventType,
      currency := "INR", amountMinorUnits := 10000, paymentStatus := "authorized",
      ingestedAt := 0 }
  { events := [authorization, { authorization with
      eventId := 1, sourceEventId := "evt_1", eventType := failedEventType,
      paymentStatus := "failed", timestamp := Time.seconds 1, ingestedAt := Time.seconds 1 }] }

def world (_ : ℕ) : Await := { isolationLevel := .repeatableRead, reads := .all db }

/-- The dataset with its keys in another order, a truth value for the label, and the time on
the clock of another zone. -/
def arguments : Dataset :=
  match (extractDataset id world { session := {} }).1 with
  | .error _ => {}
  | .ok d =>
      { samples := d.samples.map List.reverse
        labels := [.bool true]
        times := [⟨Time.minutes 330, some (Time.minutes 330)⟩] }

end TrainingExample

open TrainingExample in
theorem runPipeline_bound_reordered :
    ∃ model : ProviderModel Unit (List CanonicalRow),
      runPipeline id (fun _ => .ok ()) (afterCalls id world { session := {} } [.extractDataset])
        arguments = .ok model ∧
      ∃ before later dataset t, [Call.extractDataset] = before ++ .extractDataset :: later ∧
        .extractDataset ∉ later ∧
          let v := afterCalls id world { session := {} } before
          (extractDataset id world v).1 = .ok dataset ∧
            CheckedIn t v.session (extractDataset id world v).2.session
              model.contaminationWindow dataset ∧ Agree arguments dataset := by
  have hsome : (runPipeline id (fun _ => .ok ()) (afterCalls id world { session := {} }
      [.extractDataset]) arguments).toOption.isSome = true := by decide +kernel
  obtain ⟨model, hmodel⟩ := Option.isSome_iff_exists.mp hsome
  cases hrun : runPipeline id (fun _ => .ok ()) (afterCalls id world { session := {} }
      [.extractDataset]) arguments with
  | error e =>
      rw [hrun] at hmodel
      cases hmodel
  | ok trained =>
      exact ⟨trained, rfl, runPipeline_bound Function.injective_id world {} [.extractDataset] hrun⟩

end RevenueRecovery.Training
