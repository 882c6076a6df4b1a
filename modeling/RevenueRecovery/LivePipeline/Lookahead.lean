import RevenueRecovery.LivePipeline.Atomicity
import RevenueRecovery.LivePipeline.LateEvents
import RevenueRecovery.LivePipeline.Ledger
import RevenueRecovery.Prediction.Features
import RevenueRecovery.RootCause.Concurrent
import RevenueRecovery.Rows

/-!
# Features as of a time

The features of an attempt as of `t` are read from the events ingested up to `t`, the history
rows stamped up to `t` and the root cause evaluations generated before `t`. Rows of these
tables are only added, so an evaluation that is repeated after rows with later stamps were
committed gives the same features (`features_reproduced`). History rows carry the provider
timestamp of the event whose run added them, so the run of an event that is ingested after
`t` but happened before it can add rows the first evaluation did not see
(`features_not_reproduced`).

## Main definitions
* `LearnedAfter` : the rows that were added are stamped after a time.
* `Recorded` : what Stages 2-4 of an event add.
* `LearnsAfter` : the steps that commit only rows stamped after a time.
-/
namespace RevenueRecovery

open Transaction

/-- All statements read one store. -/
def Reads.fixed (r : Reads) (db : Database) : Reads := { r with db := fun _ => db }

/-- The second store has all rows of the first that features are read from, and what it adds
is stamped after `t`. -/
structure LearnedAfter (t : Time) (db db' : Database) : Prop where
  events : ∃ new, db'.events = db.events ++ new ∧ ∀ e ∈ new, t < e.ingestedAt
  history : ∃ new, db'.analytics.history = db.analytics.history ++ new ∧
    ∀ h ∈ new, t < h.evaluationTimestamp ∧
      ∀ h' ∈ db.analytics.history, h'.reconciliationRunId ≠ h.reconciliationRunId
  evaluations : ∃ new, db'.analytics.evaluations = db.analytics.evaluations ++ new ∧
    ∀ v ∈ new, t ≤ v.generatedAt
  candidates : ∃ new, db'.analytics.candidates = db.analytics.candidates ++ new ∧
    ∀ c ∈ new, ∀ v ∈ db.analytics.evaluations, v.evaluationId ≠ c.evaluationId

/-! ## Queries as of a time -/

theorem filter_append_of_not {α : Type} {p : α → Bool} {old new all : List α}
    (hall : all = old ++ new) (hnew : ∀ a ∈ new, ¬p a = true) : all.filter p = old.filter p := by
  rw [hall, List.filter_append, List.filter_eq_nil_iff.mpr hnew, List.append_nil]

section Queries
variable {r : Reads} {db : Database} {t : Time}

theorem Reads.rows_fixed {α : Type} {k : ℕ} {table : Database → List α} {p : α → Bool}
    (h : (table (r.db k)).filter p = (table db).filter p) :
    r.rows k table p = (r.fixed db).rows k table p := by
  unfold Reads.rows
  rw [h]
  rfl

variable (h : ∀ k, LearnedAfter t db (r.db k))
include h

theorem getPaymentEventById_fixed (paymentAttemptId : String) :
    getPaymentEventById r paymentAttemptId t =
      getPaymentEventById (r.fixed db) paymentAttemptId t := by
  unfold getPaymentEventById
  obtain ⟨new, hall, hnew⟩ := (h 0).events
  rw [Reads.rows_fixed (filter_append_of_not hall fun e he hmatch => ?_)]
  have hle : e.ingestedAt ≤ t := by simpa using (Bool.and_eq_true_iff.mp hmatch).2
  exact absurd (hnew e he) (not_lt.mpr hle)

theorem getHistoricalFailureRate_fixed (column : PaymentEvent → Option String) (value : String)
    (windowMinutes : ℤ) (paypal : Bool) :
    getHistoricalFailureRate r column value t windowMinutes paypal =
      getHistoricalFailureRate (r.fixed db) column value t windowMinutes paypal := by
  obtain ⟨new, hall, hnew⟩ := (h 0).events
  have hrows : (r.db 0).events.filter (countedInRate column value t windowMinutes paypal) =
      db.events.filter (countedInRate column value t windowMinutes paypal) := by
    refine filter_append_of_not hall fun e he hmatch => ?_
    simp only [countedInRate, Bool.and_eq_true, decide_eq_true_eq] at hmatch
    exact absurd (hnew e he) (not_lt.mpr (le_of_lt hmatch.1.1.1.1.2))
  unfold getHistoricalFailureRate
  rw [hrows]
  rfl

theorem calculateRate_fixed (column : PaymentEvent → Option String) (value : String)
    (windowMinutes : ℤ) (dimension : String) (paypal : Bool) :
    calculateRate r column value t windowMinutes dimension paypal =
      calculateRate (r.fixed db) column value t windowMinutes dimension paypal := by
  unfold calculateRate
  rw [getHistoricalFailureRate_fixed h]

theorem attributeRate_fixed (column : PaymentEvent → Option String) (auth : PaymentEvent)
    (windowMinutes : ℤ) (dimension : String) (paypal : Bool) :
    attributeRate r column auth t windowMinutes dimension paypal =
      attributeRate (r.fixed db) column auth t windowMinutes dimension paypal := by
  unfold attributeRate
  simp only [calculateRate_fixed h]

/-- The reconciliation that was evaluated last up to `t` is one of the old ones, and the rows
of its run are old. -/
theorem getActiveEpisodeContext_fixed (dimension value : String) :
    getActiveEpisodeContext r dimension value t =
      getActiveEpisodeContext (r.fixed db) dimension value t := by
  obtain ⟨new, hall, hnew⟩ := (h 0).history
  have hlast : (r.rows 0 (·.analytics.history) fun row =>
      row.ofSegment dimension value && row.evaluationTimestamp ≤ t) =
      (r.fixed db).rows 0 (·.analytics.history) fun row =>
        row.ofSegment dimension value && row.evaluationTimestamp ≤ t := by
    refine Reads.rows_fixed (filter_append_of_not hall fun row hrow hmatch => ?_)
    have hle : row.evaluationTimestamp ≤ t := by simpa using (Bool.and_eq_true_iff.mp hmatch).2
    exact absurd (hnew row hrow).1 (not_lt.mpr hle)
  unfold getActiveEpisodeContext
  rw [hlast]
  cases hl : Table.latestBy (·.evaluationTimestamp) ((r.fixed db).rows 0 (·.analytics.history)
      fun row => row.ofSegment dimension value && row.evaluationTimestamp ≤ t) with
  | none => rfl
  | some last =>
      have hstored : last ∈ db.analytics.history := (Reads.mem_rows.mp (Table.latestBy_mem hl)).1
      obtain ⟨new', hall', hnew'⟩ := (h 1).history
      dsimp only
      rw [Reads.rows_fixed (filter_append_of_not hall' fun row hrow hmatch => ?_)]
      simp only [Bool.and_eq_true, beq_iff_eq] at hmatch
      exact (hnew' row hrow).2 last hstored hmatch.1.1.symm

theorem getAttributeContext_fixed (dimension : String) (value : Option String) :
    getAttributeContext r dimension value t =
      getAttributeContext (r.fixed db) dimension value t := by
  unfold getAttributeContext
  simp only [getActiveEpisodeContext_fixed h]

theorem getMostSevereActiveEpisode_fixed (auth : PaymentEvent) :
    getMostSevereActiveEpisode r auth t = getMostSevereActiveEpisode (r.fixed db) auth t := by
  have hshift : ∀ k dimension value, getAttributeContext (r.shift k) dimension value t =
      getAttributeContext ((r.fixed db).shift k) dimension value t :=
    fun k dimension value => getAttributeContext_fixed (fun i => h (k + i)) dimension value
  unfold getMostSevereActiveEpisode activeEpisodes
  rw [getActiveEpisodeContext_fixed h]
  simp only [hshift]
  rfl

/-- The evaluation that was made last before `t` is one of the old ones, and so are its
candidates. -/
theorem getRcaContext_fixed (episodeId : EpisodeId) :
    getRcaContext r episodeId t = getRcaContext (r.fixed db) episodeId t := by
  obtain ⟨new, hall, hnew⟩ := (h 0).evaluations
  have hlast : (r.rows 0 (·.analytics.evaluations) fun v =>
      v.episodeId == episodeId && v.generatedAt < t) =
      (r.fixed db).rows 0 (·.analytics.evaluations) fun v =>
        v.episodeId == episodeId && v.generatedAt < t := by
    refine Reads.rows_fixed (filter_append_of_not hall fun v hv hmatch => ?_)
    have hlt : v.generatedAt < t := by simpa using (Bool.and_eq_true_iff.mp hmatch).2
    exact absurd hlt (not_lt.mpr (hnew v hv))
  unfold getRcaContext
  rw [hlast]
  cases hl : Table.latestBy (·.evaluationVersion) ((r.fixed db).rows 0 (·.analytics.evaluations)
      fun v => v.episodeId == episodeId && v.generatedAt < t) with
  | none => rfl
  | some last =>
      have hstored : last ∈ db.analytics.evaluations :=
        (Reads.mem_rows.mp (Table.latestBy_mem hl)).1
      obtain ⟨new', hall', hnew'⟩ := (h 1).candidates
      simp only [Option.map_some]
      rw [Reads.rows_fixed (filter_append_of_not hall' fun c hc hmatch => ?_)]
      simp only [Bool.and_eq_true, beq_iff_eq] at hmatch
      exact hnew' c hc last hstored hmatch.1.symm

theorem degradationContext_fixed (auth : PaymentEvent) :
    degradationContext r auth t = degradationContext (r.fixed db) auth t := by
  have hshift : ∀ episodeId, getRcaContext (r.shift 10) episodeId t =
      getRcaContext ((r.fixed db).shift 10) episodeId t :=
    fun episodeId => getRcaContext_fixed (fun i => h (10 + i)) episodeId
  unfold degradationContext
  rw [getMostSevereActiveEpisode_fixed h]
  simp only [hshift]

/-- Rows stamped after `t` do not change the features as of `t`. -/
theorem reconstructFeatures_fixed (paymentAttemptId : String) :
    reconstructFeatures r paymentAttemptId t =
      reconstructFeatures (r.fixed db) paymentAttemptId t := by
  have hrate : ∀ k column value minutes dimension paypal,
      calculateRate (r.shift k) column value t minutes dimension paypal =
        calculateRate ((r.fixed db).shift k) column value t minutes dimension paypal :=
    fun k column value minutes dimension paypal =>
      calculateRate_fixed (fun i => h (k + i)) column value minutes dimension paypal
  have hattribute : ∀ k column auth minutes dimension paypal,
      attributeRate (r.shift k) column auth t minutes dimension paypal =
        attributeRate ((r.fixed db).shift k) column auth t minutes dimension paypal :=
    fun k column auth minutes dimension paypal =>
      attributeRate_fixed (fun i => h (k + i)) column auth minutes dimension paypal
  have hcontext : ∀ auth, degradationContext (r.shift 11) auth t =
      degradationContext ((r.fixed db).shift 11) auth t :=
    fun auth => degradationContext_fixed (fun i => h (11 + i)) auth
  unfold reconstructFeatures
  rw [getPaymentEventById_fixed h]
  simp only [hrate, hattribute, hcontext]

end Queries

/-! ## What is learned later -/

section Learned
variable {t : Time} {db db' db'' : Database}

theorem LearnedAfter.refl (t : Time) (db : Database) : LearnedAfter t db db where
  events := ⟨[], by simp, by simp⟩
  history := ⟨[], by simp, by simp⟩
  evaluations := ⟨[], by simp, by simp⟩
  candidates := ⟨[], by simp, by simp⟩

theorem LearnedAfter.trans (h : LearnedAfter t db db') (h' : LearnedAfter t db' db'') :
    LearnedAfter t db db'' := by
  obtain ⟨⟨es, hes, hnewes⟩, ⟨hs, hhs, hnewhs⟩, ⟨vs, hvs, hnewvs⟩, cs, hcs, hnewcs⟩ := h
  obtain ⟨⟨es', hes', hnewes'⟩, ⟨hs', hhs', hnewhs'⟩, ⟨vs', hvs', hnewvs'⟩, cs', hcs', hnewcs'⟩ :=
    h'
  refine ⟨⟨es ++ es', by rw [hes', hes, List.append_assoc], ?_⟩,
    ⟨hs ++ hs', by rw [hhs', hhs, List.append_assoc], ?_⟩,
    ⟨vs ++ vs', by rw [hvs', hvs, List.append_assoc], ?_⟩,
    cs ++ cs', by rw [hcs', hcs, List.append_assoc], ?_⟩
  · exact fun e he => (List.mem_append.mp he).elim (hnewes e) (hnewes' e)
  · intro row hrow
    rcases List.mem_append.mp hrow with hrow | hrow
    · exact hnewhs row hrow
    · obtain ⟨hstamp, hrun⟩ := hnewhs' row hrow
      exact ⟨hstamp, fun old hold => hrun old (hhs ▸ List.mem_append_left _ hold)⟩
  · exact fun v hv => (List.mem_append.mp hv).elim (hnewvs v) (hnewvs' v)
  · intro c hc v hv
    rcases List.mem_append.mp hc with hc | hc
    · exact hnewcs c hc v hv
    · exact hnewcs' c hc v (hvs ▸ List.mem_append_left _ hv)

end Learned

/-! ## What Stages 2-4 add -/

/-- The id of an evaluation names its episode and version. -/
def RootCauseAnalysisEvaluation.OfVersion (v : RootCauseAnalysisEvaluation) : Prop :=
  v.evaluationId = ⟨v.episodeId, v.evaluationVersion⟩

/-- Rows are added: history rows of new reconciliations, stamped with `t`, new evaluations,
and candidates of these. -/
structure Recorded (t : Time) (old new : AnalyticsTables) : Prop where
  history : ∃ rows, new.history = old.history ++ rows ∧
    ∀ row ∈ rows, row.evaluationTimestamp = t ∧
      ∀ row' ∈ old.history, row'.reconciliationRunId ≠ row.reconciliationRunId
  evaluations : ∃ rows, new.evaluations = old.evaluations ++ rows ∧
    ∀ v ∈ rows, v.OfVersion ∧ ∀ v' ∈ old.evaluations, v'.evaluationId ≠ v.evaluationId
  candidates : ∃ rows, new.candidates = old.candidates ++ rows ∧
    ∀ c ∈ rows, ∀ v ∈ old.evaluations, v.evaluationId ≠ c.evaluationId

/-- Every stored evaluation is named by its episode and version. -/
def VersionsNamed (tables : AnalyticsTables) : Prop := ∀ v ∈ tables.evaluations, v.OfVersion

section Recorded
variable {t : Time} {old mid new : AnalyticsTables}

theorem Recorded.refl (t : Time) (tables : AnalyticsTables) : Recorded t tables tables where
  history := ⟨[], by simp, by simp⟩
  evaluations := ⟨[], by simp, by simp⟩
  candidates := ⟨[], by simp, by simp⟩

theorem Recorded.trans (h : Recorded t old mid) (h' : Recorded t mid new) : Recorded t old new := by
  obtain ⟨⟨hs, hhs, hnewhs⟩, ⟨vs, hvs, hnewvs⟩, cs, hcs, hnewcs⟩ := h
  obtain ⟨⟨hs', hhs', hnewhs'⟩, ⟨vs', hvs', hnewvs'⟩, cs', hcs', hnewcs'⟩ := h'
  refine ⟨⟨hs ++ hs', by rw [hhs', hhs, List.append_assoc], ?_⟩,
    ⟨vs ++ vs', by rw [hvs', hvs, List.append_assoc], ?_⟩,
    cs ++ cs', by rw [hcs', hcs, List.append_assoc], ?_⟩
  · intro row hrow
    rcases List.mem_append.mp hrow with hrow | hrow
    · exact hnewhs row hrow
    · obtain ⟨hstamp, hrun⟩ := hnewhs' row hrow
      exact ⟨hstamp, fun old hold => hrun old (hhs ▸ List.mem_append_left _ hold)⟩
  · intro v hv
    rcases List.mem_append.mp hv with hv | hv
    · exact hnewvs v hv
    · obtain ⟨hnamed, hfresh⟩ := hnewvs' v hv
      exact ⟨hnamed, fun old hold => hfresh old (hvs ▸ List.mem_append_left _ hold)⟩
  · intro c hc v hv
    rcases List.mem_append.mp hc with hc | hc
    · exact hnewcs c hc v hv
    · exact hnewcs' c hc v (hvs ▸ List.mem_append_left _ hv)

theorem Recorded.versionsNamed (h : Recorded t old new) (hold : VersionsNamed old) :
    VersionsNamed new := by
  obtain ⟨rows, hrows, hnew⟩ := h.evaluations
  intro v hv
  rw [hrows] at hv
  exact (List.mem_append.mp hv).elim (hold v) fun hv => (hnew v hv).1

/-- A reconciliation adds history rows of its own run. -/
theorem recorded_processSnapshots {snapshots : List PaymentHealthSnapshot}
    (h : processSnapshots old snapshots t (newReconciliationRunId old) = .ok new) :
    Recorded t old new := by
  cases snapshots with
  | nil => cases h; exact .refl t _
  | cons first rest =>
      simp only [processSnapshots, bind, Except.bind] at h
      split at h
      · cases h
      · cases h
        refine ⟨⟨_, rfl, fun row hrow => ?_⟩, ⟨[], by simp [storeReconciliation], by simp⟩,
          ⟨[], by simp [storeReconciliation], by simp⟩⟩
        obtain ⟨ep, -, rfl⟩ := List.mem_map.mp hrow
        exact ⟨rfl, newReconciliationRunId_fresh old⟩

theorem recorded_detectDegradation {order : ℕ → ℕ} {windowStart : Time}
    (h : detectDegradation order old windowStart t = .ok new) : Recorded t old new := by
  unfold detectDegradation at h
  dsimp only at h
  generalize groupBySegment _ = segments at h
  induction segments generalizing old with
  | nil => cases h; exact .refl t _
  | cons segment segments ih =>
      simp only [List.foldlM_cons, bind, Except.bind] at h
      split at h
      · cases h
      · rename_i mid hmid
        exact (recorded_processSnapshots hmid).trans (ih h)

/-- An evaluation is appended as the next version of its episode. -/
theorem recorded_appendEvaluation (hnamed : VersionsNamed old) (t : Time) (episodeId : EpisodeId)
    (window : Time × Time) (classification : RCAClassification) (fingerprint : RCAFingerprint)
    (now : Time) (ranked : List QualifiedCandidate) :
    Recorded t old (appendEvaluation old episodeId window classification fingerprint now ranked) := by
  have hfresh : ∀ v ∈ old.evaluations, v.evaluationId ≠ ⟨episodeId,
      Table.maxOf (·.evaluationVersion)
        (old.evaluations.filter fun r => r.episodeId = episodeId) + 1⟩ := by
    intro v hv heq
    obtain ⟨hepisode, hversion⟩ := EvaluationId.mk.inj ((hnamed v hv).symm.trans heq)
    exact Table.maxOf_succ_fresh (List.mem_filter.mpr ⟨hv, by simpa using hepisode⟩) hversion
  refine ⟨⟨[], by simp [appendEvaluation], by simp⟩, ⟨_, rfl, fun v hv => ?_⟩,
    ⟨_, rfl, fun c hc v hv => ?_⟩⟩
  · obtain rfl := List.mem_singleton.mp hv
    exact ⟨rfl, hfresh⟩
  · obtain ⟨i, hi, rfl⟩ := List.mem_mapIdx.mp hc
    exact hfresh v hv

theorem recorded_evaluateEpisode {events : List PaymentEvent} {ep : DegradationEpisode}
    {now : Time} (hnamed : VersionsNamed old)
    (h : evaluateEpisode events old ep now = .ok new) : Recorded t old new := by
  rw [evaluateEpisode_eq] at h
  cases hdraft : evaluationDraft (fun _ => ⟨events, old⟩) ep with
  | error e => simp [hdraft, Except.map] at h
  | ok draft =>
      simp only [hdraft, Except.map, Except.ok.injEq] at h
      subst h
      cases draft with
      | none => exact .refl t old
      | some d => exact recorded_appendEvaluation hnamed ..

theorem recorded_analyzeRootCauses {order : ℕ → ℕ} {events : List PaymentEvent} {now : Time}
    (hnamed : VersionsNamed old) (h : analyzeRootCauses order events old now = .ok new) :
    Recorded t old new := by
  unfold analyzeRootCauses at h
  generalize Table.scan order _ = episodes at h
  induction episodes generalizing old with
  | nil => cases h; exact .refl t _
  | cons ep episodes ih =>
      simp only [List.foldlM_cons, bind, Except.bind] at h
      split at h
      · cases h
      · rename_i mid hmid
        have hstep : Recorded t old mid := recorded_evaluateEpisode hnamed hmid
        exact hstep.trans (ih (hstep.versionsNamed hnamed) h)

/-- Stages 2-4 stamp their history with the time of the event. -/
theorem recorded_runAnalytics {order : ℕ → ℕ → ℕ} {db : Database} {e : PaymentEvent} {now : Time}
    (hnamed : VersionsNamed db.analytics) (h : runAnalytics order db e now = .ok new) :
    Recorded e.timestamp db.analytics new := by
  simp only [runAnalytics, bind, Except.bind] at h
  split at h
  · cases h
  · rename_i mid hmid
    have hdetected : Recorded e.timestamp { db.analytics with
        snapshots := calculateAndSaveWindow db.events db.analytics.snapshots
          (Time.windowStart e.timestamp) (Time.windowStart e.timestamp + Time.minutes 5) } mid :=
      recorded_detectDegradation hmid
    have hstored : Recorded e.timestamp db.analytics mid := { hdetected with }
    exact hstored.trans (recorded_analyzeRootCauses (hstored.versionsNamed hnamed) h)

end Recorded

/-! ## Runs -/

/-- Stages 2-4 of a run that interleave with those of others only insert rows of their own,
as they do when they are alone. -/
def InsertsRows (db : Database) (s : LiveSession) (input : LiveInput) : Prop :=
  ∀ e tables, s.proc = .analytics e → input.tables = some tables →
    Recorded e.timestamp db.analytics tables

/-- The history rows the write adds are stamped after `t`, and the evaluations it adds were
generated at `t` or later. -/
def Write.StampsAfter (t : Time) (db : Database) : Write → Prop
  | .setAnalytics tables =>
      (∀ row ∈ tables.history, row ∈ db.analytics.history ∨ t < row.evaluationTimestamp) ∧
        ∀ v ∈ tables.evaluations, v ∈ db.analytics.evaluations ∨ t ≤ v.generatedAt
  | _ => True

instance Write.StampsAfter.decidable (t : Time) (db : Database) (w : Write) :
    Decidable (w.StampsAfter t db) :=
  match w with
  | .setAnalytics tables => inferInstanceAs (Decidable ((∀ row ∈ tables.history, _) ∧
      ∀ v ∈ tables.evaluations, _))
  | .insertEvent _ | .registerAttempt _ | .appendPrediction _ | .appendDecision _
  | .insertCommand _ | .updateCommandStatus .. | .insertExecutionAttempt _
  | .insertObservation _ | .appendAttribution _ => isTrue trivial

/-- A step that commits only rows stamped after `t`: an event that is ingested after `t`, or
the history rows and evaluations a run has written. -/
def LearnsAfter (t : Time) (w : LiveWorld) : LiveAction → Prop
  | .arrive e => t < e.ingestedAt
  | .advance i _ => ∀ s ∈ w.sessions[i]?, ∀ write ∈ s.pending, write.StampsAfter t w.db
  | .look _ | .abort _ => True

instance LearnsAfter.decidable (t : Time) (w : LiveWorld) (a : LiveAction) :
    Decidable (LearnsAfter t w a) :=
  match a with
  | .arrive e => inferInstanceAs (Decidable (t < e.ingestedAt))
  | .advance i _ => inferInstanceAs (Decidable (∀ s ∈ w.sessions[i]?, ∀ write ∈ s.pending, _))
  | .look _ | .abort _ => isTrue trivial

/-- The writes of a run to the tables of Stages 2-4. -/
inductive AnalyticsSession (db : Database) (s : LiveSession) : Prop
  | analytics {e} (hproc : s.proc = .analytics e) (hpending : s.pending = [])
  | stored {e tables} (hproc : s.proc = .analyticsStored e)
      (hpending : s.pending = [.setAnalytics tables])
      (hrecorded : Recorded e.timestamp db.analytics tables)
  | later (hproc : s.proc.inLaterStages ∨ s.proc = .finished ∨ s.proc = .failed)
      (hpending : ∀ tables, .setAnalytics tables ∉ s.pending)

section Runs
variable {policy : InterventionPolicy} {db db' : Database} {s : LiveSession} {input : LiveInput}
  {o : LiveOutcome} {ws : List Write} {next : LiveProc} {t : Time} {w w' : LiveWorld}

theorem analytics_foldl (hws : ∀ tables, .setAnalytics tables ∉ ws) (db : Database) :
    (ws.foldl Database.apply db).analytics = db.analytics := by
  induction ws generalizing db with
  | nil => rfl
  | cons w ws ih =>
      rw [List.foldl_cons, ih fun tables hmem => hws tables (List.mem_cons_of_mem _ hmem)]
      cases w with
      | setAnalytics tables => exact absurd List.mem_cons_self (hws tables)
      | registerAttempt row =>
          simp only [Database.apply]
          split <;> rfl
      | _ => rfl

/-- From registration on, a run does not write the tables of Stages 2-4. -/
theorem LiveStepped.not_setAnalytics (h : LiveStepped policy db s input (.write ws next))
    (hs : s.proc.inLaterStages) (tables : AnalyticsTables) : .setAnalytics tables ∉ ws := by
  generalize ho : (Outcome.write ws next : LiveOutcome) = o at h
  cases h with
  | analytics hproc => rw [hproc] at hs; exact hs.elim
  | register => cases ho; simp
  | @called p f o' hproc hp hcall =>
      cases o' with
      | write vs next' =>
          cases ho
          exact fun hmem => hcall.origin hmem
      | _ => cases ho
  | failed => cases ho
  | analyticsStored => cases ho
  | finish => cases ho
  | _ => cases ho; simp

theorem AnalyticsSession.congr (h : AnalyticsSession db s)
    (hdb : db'.analytics = db.analytics) : AnalyticsSession db' s := by
  cases h with
  | analytics hproc hpending => exact .analytics hproc hpending
  | stored hproc hpending hrecorded => exact .stored hproc hpending (hdb ▸ hrecorded)
  | later hproc hpending => exact .later hproc hpending

theorem AnalyticsSession.fresh {p : LiveProc}
    (hp : p.inLaterStages ∨ p = .finished ∨ p = .failed) : AnalyticsSession db (.fresh p) :=
  .later hp (by simp)

/-- What the next step of a run does to the tables of Stages 2-4. -/
inductive AnalyticsStep (db : Database) (s : LiveSession) : LiveOutcome → Prop
  | failed : AnalyticsStep db s (.rollback .failed)
  | stored {e tables} (hproc : s.proc = .analytics e) (hpending : s.pending = [])
      (hrecorded : Recorded e.timestamp db.analytics tables) :
      AnalyticsStep db s (.write [.setAnalytics tables] (.analyticsStored e))
  | committed {e tables} (hproc : s.proc = .analyticsStored e)
      (hpending : s.pending = [.setAnalytics tables])
      (hrecorded : Recorded e.timestamp db.analytics tables) :
      AnalyticsStep db s (.commit (.start e))
  | finished (hproc : s.proc.inLaterStages) (hpending : ∀ tables, .setAnalytics tables ∉ s.pending) :
      AnalyticsStep db s (.commit .finished)
  | later {o : LiveOutcome} (hproc : s.proc.inLaterStages)
      (hpending : ∀ tables, .setAnalytics tables ∉ s.pending)
      (hcommit : ∀ next, o ≠ .commit next) (hrollback : ∀ next, o ≠ .rollback next)
      (hnext : o.next.inLaterStages)
      (hwrites : ∀ ws next, o = .write ws next → ∀ tables, .setAnalytics tables ∉ ws) :
      AnalyticsStep db s o

theorem AnalyticsSession.step (h : AnalyticsSession db s) (hnamed : VersionsNamed db.analytics)
    (hg : InsertsRows db s input) (ho : (liveProgram policy).outcome db s input = some o) :
    AnalyticsStep db s o := by
  cases h with
  | @analytics e hproc hpending =>
      have hview : (liveProgram policy).view db s = db := by
        rw [liveProgram_view, hpending, List.foldl_nil]
      cases ht : input.tables with
      | none =>
          rcases analytics_outcome ho hproc ht with rfl | ⟨tables, htables, rfl⟩
          · exact .failed
          · rw [hview] at htables
            exact .stored hproc hpending (recorded_runAnalytics hnamed htables)
      | some tables =>
          have hstep : liveStep policy s.proc input ((liveProgram policy).reads db s)
            ((liveProgram policy).view db s) = some o := ho
          simp only [hproc, liveStep, ht, bind, Except.bind, pure, Except.pure, orFail,
            Option.some.injEq] at hstep
          subst hstep
          exact .stored hproc hpending (hg e tables hproc ht)
  | stored hproc hpending hrecorded =>
      obtain rfl := analyticsStored_outcome ho hproc
      exact .committed hproc hpending hrecorded
  | later hproc hpending =>
      obtain ⟨hfinished, hfailed⟩ := not_ended ho
      have hlater : s.proc.inLaterStages :=
        hproc.resolve_right fun hended => hended.elim hfinished hfailed
      rcases (liveStepped ho).later hlater with rfl | rfl | ⟨hcommit, hrollback, hnext, -⟩
      · exact .finished hlater hpending
      · exact .failed
      · refine .later hlater hpending hcommit hrollback hnext fun ws next heq => ?_
        subst heq
        exact (liveStepped ho).not_setAnalytics hlater

theorem AnalyticsSession.onError (s : LiveSession) :
    AnalyticsSession db (.fresh s.proc.onError) := by
  by_cases hfinished : s.proc = .finished
  · rw [hfinished]
    exact .fresh (.inr (.inl rfl))
  · rw [LiveProc.onError_eq_failed hfinished]
    exact .fresh (.inr (.inr rfl))

theorem pipelineRuns_analyticsSession {e : PaymentEvent} {p : LiveProc}
    (hp : p ∈ pipelineRuns e) : AnalyticsSession db (.fresh p) := by
  rcases pipelineRuns_cases hp with ⟨-, rfl⟩ | ⟨-, rfl⟩
  · exact .fresh (.inl trivial)
  · exact .analytics rfl rfl

/-- A run that commits later than Stages 2-4 leaves their tables as they are. -/
theorem view_analytics (hpending : ∀ tables, .setAnalytics tables ∉ s.pending) :
    ((liveProgram policy).view db s).analytics = db.analytics := by
  rw [liveProgram_view]
  exact analytics_foldl hpending db

variable (policy) in
/-- The tables of Stages 2-4 are written by one run at a time, and only grow. -/
theorem analyticsInvariant : (liveProgram policy).Invariant InsertsRows
    (fun db => VersionsNamed db.analytics) AnalyticsSession where
  arrive hG harrive _ := by
    obtain ⟨rfl, rfl⟩ := liveProgram_arrive harrive
    exact ⟨hG, fun s hs _ => hs.congr rfl, fun p hp => pipelineRuns_analyticsSession hp⟩
  look _ hL := by
    cases hL with
    | analytics hproc hpending => exact .analytics hproc hpending
    | stored hproc hpending hrecorded => exact .stored hproc hpending hrecorded
    | later hproc hpending => exact .later hproc hpending
  abort {db s} _ _ := .onError s
  lock {db s input key next} hG hL hg ho := by
    generalize hout : (Outcome.lock key next : LiveOutcome) = o at ho
    cases hL.step hG hg ho with
    | later hproc hpending hcommit hrollback hnext =>
        subst hout
        exact .later (.inl hnext) hpending
    | _ => cases hout
  write {db s input ws next} hG hL hg ho _ := by
    generalize hout : (Outcome.write ws next : LiveOutcome) = o at ho
    cases hL.step hG hg ho with
    | stored hproc hpending hrecorded =>
        cases hout
        exact .stored rfl (by simp [Session.wrote, hpending]) hrecorded
    | later hproc hpending hcommit hrollback hnext hwrites =>
        subst hout
        refine .later (.inl hnext) fun tables hmem => ?_
        exact (List.mem_append.mp hmem).elim (hpending tables) (hwrites ws next rfl tables)
    | _ => cases hout
  call {db s input effect next} hG hL hg ho := by
    generalize hout : (Outcome.call effect next : LiveOutcome) = o at ho
    cases hL.step hG hg ho with
    | later hproc hpending hcommit hrollback hnext =>
        subst hout
        exact .later (.inl hnext) hpending
    | _ => cases hout
  rollback {db s input next} hG hL hg ho := by
    generalize hout : (Outcome.rollback next : LiveOutcome) = o at ho
    cases hL.step hG hg ho with
    | failed => cases hout; exact .fresh (.inr (.inr rfl))
    | later hproc hpending hcommit hrollback => exact absurd hout.symm (hrollback next)
    | _ => cases hout
  commit {db s input next} hG hL hg ho := by
    generalize hout : (Outcome.commit next : LiveOutcome) = o at ho
    cases hL.step hG hg ho with
    | @committed e tables hproc hpending hrecorded =>
        cases hout
        have hview : (liveProgram policy).view db s = { db with analytics := tables } := by
          rw [liveProgram_view, hpending]
          rfl
        rw [hview]
        refine ⟨hrecorded.versionsNamed hG, .fresh (.inl trivial), fun u hu hapart => ?_⟩
        cases hu with
        | analytics hproc hpending => exact .analytics hproc hpending
        | later hproc hpending => exact .later hproc hpending
        | stored hproc' hpending' =>
            -- the other run would be writing the same tables
            have hclash := hapart.pending (.setAnalytics tables) (by simp [hpending])
              _ (by rw [hpending']; exact List.mem_singleton_self _)
            cases hclash
    | finished hproc hpending =>
        cases hout
        have hsame : ((liveProgram policy).view db s).analytics = db.analytics :=
          view_analytics hpending
        exact ⟨hsame ▸ hG, .fresh (.inr (.inl rfl)), fun u hu _ => hu.congr hsame⟩
    | later hproc hpending hcommit => exact absurd hout.symm (hcommit next)
    | _ => cases hout

theorem liveProgram_eventsArrive (policy : InterventionPolicy) :
    EventsArrive (liveProgram policy) where
  apply := rfl
  write {db s input ws next} ho := by
    refine List.filterMap_eq_nil_iff.mpr fun w hw => ?_
    generalize hout : (Outcome.write ws next : LiveOutcome) = o at ho
    cases liveStepped ho with
    | analytics => cases hout; obtain rfl := List.mem_singleton.mp hw; rfl
    | register => cases hout; obtain rfl := List.mem_singleton.mp hw; rfl
    | @called p f o' hproc hp hcall =>
        cases o' with
        | write vs next' =>
            cases hout
            cases w with
            | insertEvent e => exact (hcall.origin hw).elim
            | _ => rfl
        | _ => cases hout
    | failed => cases hout
    | analyticsStored => cases hout
    | finish => cases hout
    | _ => cases hout; simp at hw

/-- What Stages 2-4 add when the rows they write are stamped after `t`. -/
theorem Recorded.learnedAfter {stamp : Time} {tables : AnalyticsTables}
    (h : Recorded stamp db.analytics tables) (hevents : db'.events = db.events)
    (hdb : db'.analytics = tables) (hstamps : (Write.setAnalytics tables).StampsAfter t db) :
    LearnedAfter t db db' := by
  subst hdb
  obtain ⟨hstamped, hgenerated⟩ := hstamps
  obtain ⟨⟨hs, hhs, hnewhs⟩, ⟨vs, hvs, hnewvs⟩, hcandidates⟩ := h
  refine ⟨⟨[], by simp [hevents], by simp⟩, ⟨hs, hhs, fun row hrow => ?_⟩,
    ⟨vs, hvs, fun v hv => ?_⟩, hcandidates⟩
  · have hrun := (hnewhs row hrow).2
    have hstamp := hstamped row (hhs ▸ List.mem_append_right _ hrow)
    exact ⟨hstamp.resolve_left fun hold => hrun row hold rfl, hrun⟩
  · refine (hgenerated v (hvs ▸ List.mem_append_right _ hv)).resolve_left fun hold => ?_
    exact (hnewvs v hv).2 v hold rfl

/-- What the invariants say of a world. -/
structure AnalyticsWorld (policy : InterventionPolicy) (w : LiveWorld) : Prop where
  analytics : (liveProgram policy).Good (fun db => VersionsNamed db.analytics) AnalyticsSession w
  events : (liveProgram policy).Good (fun _ => True) EventsSession w

theorem AnalyticsWorld.step {a : LiveAction} (h : AnalyticsWorld policy w)
    (hg : Program.worldGuard InsertsRows w a)
    (hstep : (liveProgram policy).worldStep w a = some w') : AnalyticsWorld policy w' where
  analytics := (analyticsInvariant policy).step h.analytics hg hstep
  events := (liveProgram_eventsArrive policy).invariant.step h.events
    (by cases a <;> simp [Program.worldGuard]) hstep

/-- A step that commits only rows stamped after `t`. -/
theorem AnalyticsWorld.learned {a : LiveAction} (h : AnalyticsWorld policy w)
    (hg : Program.worldGuard InsertsRows w a) (hlearns : LearnsAfter t w a)
    (hstep : (liveProgram policy).worldStep w a = some w') : LearnedAfter t w.db w'.db := by
  cases Program.stepped hstep with
  | arrived harrive =>
      obtain ⟨rfl, -⟩ := liveProgram_arrive harrive
      refine { LearnedAfter.refl t w.db with events := ⟨_, rfl, fun e he => ?_⟩ }
      obtain rfl := List.mem_singleton.mp he
      exact hlearns
  | @committed i input s next hs ho =>
      have hsession := h.analytics.session s (List.mem_of_getElem? hs)
      have hevents : ((liveProgram policy).view w.db s).events = w.db.events :=
        (h.events.session s (List.mem_of_getElem? hs)).view rfl
      generalize hout : (Outcome.commit next : LiveOutcome) = o at ho
      cases hsession.step h.analytics.store (hg s hs) ho with
      | @committed e tables hproc hpending hrecorded =>
          refine hrecorded.learnedAfter hevents ?_
            (hlearns s hs (.setAnalytics tables) (by simp [hpending]))
          rw [liveProgram_view, hpending]
          rfl
      | finished hproc hpending =>
          have hsame : ((liveProgram policy).view w.db s).analytics = w.db.analytics :=
            view_analytics hpending
          refine ⟨⟨[], by simp [hevents], by simp⟩, ?_, ?_, ?_⟩ <;>
            exact ⟨[], by simp [hsame], by simp⟩
      | later hproc hpending hcommit => exact absurd hout.symm (hcommit next)
      | _ => cases hout
  | _ => exact .refl t w.db

theorem liveRun_analyticsWorld {as : List LiveAction} (h : liveRun policy as = some w)
    (hrows : Run.Guarded (liveProgram policy).worldStep (Program.worldGuard InsertsRows)
      ⟨{}, [], []⟩ as) : AnalyticsWorld policy w :=
  Run.invariant_guarded (fun _ _ _ hu hg hstep => AnalyticsWorld.step hu hg hstep)
    ⟨.empty (by simp [VersionsNamed]), .empty trivial⟩ hrows h

/-- A run that commits only rows stamped after `t`. -/
theorem AnalyticsWorld.learned_exec {as : List LiveAction} (h : AnalyticsWorld policy w)
    (hrows : Run.Guarded (liveProgram policy).worldStep (Program.worldGuard InsertsRows) w as)
    (hlearns : Run.Guarded (liveProgram policy).worldStep (LearnsAfter t) w as)
    (hrun : Run.exec (liveProgram policy).worldStep w as = some w') :
    LearnedAfter t w.db w'.db := by
  have hstep : ∀ u a u', (AnalyticsWorld policy u ∧ LearnedAfter t w.db u.db) →
      (Program.worldGuard InsertsRows u a ∧ LearnsAfter t u a) →
      (liveProgram policy).worldStep u a = some u' →
      AnalyticsWorld policy u' ∧ LearnedAfter t w.db u'.db :=
    fun u a u' hu hg hstep =>
      ⟨hu.1.step hg.1 hstep, hu.2.trans (hu.1.learned hg.1 hg.2 hstep)⟩
  exact (Run.invariant_guarded hstep ⟨h, .refl t w.db⟩ (hrows.and hlearns) hrun).2

theorem guarded_insertsRows {step : LiveWorld → LiveAction → Option LiveWorld}
    {as : List LiveAction} (h : ∀ a ∈ as, a.IsAlone) :
    Run.Guarded step (Program.worldGuard InsertsRows) w as := by
  refine Run.guarded_of_forall fun as₁ a as₂ u heq _ => ?_
  have ha := h a (by simp [heq])
  cases a with
  | advance i input =>
      intro s _ e tables _ htables
      rw [show input.tables = none from ha] at htables
      cases htables
  | _ => trivial

end Runs

/-- The features as of `t` stay what they are, whatever is read later, as long as every event
that is committed was ingested after `t`, every history row that is committed is stamped
after `t`, and every evaluation was generated at `t` or later. -/
theorem features_reproduced {policy : InterventionPolicy} {as : List LiveAction} {w : LiveWorld}
    {t : Time} {r : Reads} (h : liveRun policy as = some w)
    (hrows : Run.Guarded (liveProgram policy).worldStep (Program.worldGuard InsertsRows)
      ⟨{}, [], []⟩ as)
    (hr : ∀ k, ∃ bs w', Run.exec (liveProgram policy).worldStep w bs = some w' ∧
      r.db k = w'.db ∧
      Run.Guarded (liveProgram policy).worldStep (Program.worldGuard InsertsRows) w bs ∧
      Run.Guarded (liveProgram policy).worldStep (LearnsAfter t) w bs)
    (paymentId : String) :
    reconstructFeatures r paymentId t = reconstructFeatures (r.fixed w.db) paymentId t := by
  refine reconstructFeatures_fixed (fun k => ?_) paymentId
  obtain ⟨bs, w', hrun, hdb, hrows', hlearns⟩ := hr k
  rw [hdb]
  exact (liveRun_analyticsWorld h hrows).learned_exec hrows' hlearns hrun

namespace LookaheadExample

open LedgerExample

/-- The time of the authorization. -/
def t₁ : Time := t₀ + Time.minutes 16

/-- Two windows without success and most of a third one. -/
def arrived : List LiveAction :=
  ((List.range 3).flatMap fun k => .arrive (baseline k) :: advances k 2) ++
    ((List.range 2).flatMap fun k =>
      (List.range 50).map (fun i => .arrive (failure k i)) ++
        advances (50 * k + 52) 2 (t₀ + Time.minutes 5 * (k + 1))) ++
    (List.range 49).map fun i => .arrive (failure 2 i)

/-- The authorization, and its run up to its prediction. -/
def authorized : List LiveAction :=
  .arrive { payment 1000 pipelineTriggerEventType t₁ with paymentId := "pay_1" } ::
    advances 152 4 t₁

/-- The last failure of the third window, which is ingested late. -/
def lateFailure : PaymentEvent := { failure 2 49 with ingestedAt := t₁ + Time.minutes 1 }

/-- A single failure shortly before the authorization, which is ingested late too. -/
def quietFailure : PaymentEvent :=
  { payment 400 failedEventType (t₁ - 30) with ingestedAt := t₁ + Time.minutes 1 }

/-- The prediction, and the event with its Stages 2-4. -/
def followedBy (e : PaymentEvent) : List LiveAction :=
  .advance 152 { now := t₁ } :: .arrive e :: advances 153 2 e.ingestedAt

def liveStepDefault : LiveWorld → LiveAction → Option LiveWorld :=
  (liveProgram getDefaultPolicy).worldStep

/-- The world before the authorization. -/
def afterArrival : Option LiveWorld := do
  let w ← execSingle ⟨{}, [], []⟩
    ((List.range 3).flatMap fun k => .arrive (baseline k) :: advances k 2)
  let w ← (List.range 2).foldlM (fun w k => do
    let w ← arriveAll w ((List.range 50).map (failure k))
    execSingle w (advances (50 * k + 52) 2 (t₀ + Time.minutes 5 * (k + 1)))) w
  arriveAll w ((List.range 49).map (failure 2))

theorem afterArrival_eq {w : LiveWorld} (h : afterArrival = some w) :
    execSingle ⟨{}, [], []⟩ arrived = some w := by
  simp only [afterArrival, Option.bind_eq_bind, Option.bind_eq_some_iff] at h
  obtain ⟨u, hu, v, hv, hw⟩ := h
  have hlast := arriveAll_eq hw
  rw [List.map_map] at hlast
  refine execSingle_append (execSingle_append hu
    (execSingle_flatMap (fun w k w' hk => ?_) hv)) hlast
  obtain ⟨x, hx, hk⟩ := Option.bind_eq_some_iff.mp hk
  have harrived := arriveAll_eq hx
  rw [List.map_map] at harrived
  exact execSingle_append harrived hk

/-- The worlds at the prediction, after the late failure, and after the single one instead. -/
def worlds : Option (LiveWorld × LiveWorld × LiveWorld) := do
  let w ← afterArrival
  let w ← Run.exec liveStepDefault w authorized
  let u ← Run.exec liveStepDefault w (followedBy lateFailure)
  let v ← Run.execGuarded liveStepDefault (LearnsAfter t₁) w (followedBy quietFailure)
  return (w, u, v)

/-- The attempt whose features a run is about to evaluate. -/
def predicting (w : LiveWorld) (i : ℕ) : Option (AttemptRef × Time) :=
  (w.sessions[i]?).bind fun s =>
    match s.proc with
    | .trigger _ _ (.predict ref t) => some (ref, t)
    | _ => none

/-- Whether the features see a degradation. -/
def degraded (db : Database) : Option Bool :=
  (reconstructFeatures (.all db) "pay_1" t₁).map (·.isInActiveDegradation)

theorem worlds_facts : (worlds.map fun (w, u, _) =>
    decide ((predicting w 152).map (fun (ref, t) => (ref.paymentAttemptId, t)) =
        some ("pay_1", t₁) ∧
      degraded w.db = some false ∧ degraded u.db = some true)) = some true := by
  decide +kernel

/-- Stages 2-4 of each run are alone. -/
theorem arrived_alone :
    ∀ a ∈ arrived ++ authorized ++ followedBy quietFailure, LiveAction.IsAlone a := by
  decide +kernel

/-- The runs, and what is evaluated in them. -/
theorem worlds_run : ∃ w u v, liveRun getDefaultPolicy (arrived ++ authorized) = some w ∧
    Run.exec liveStepDefault w (followedBy lateFailure) = some u ∧
    (Run.Guarded liveStepDefault (LearnsAfter t₁) w (followedBy quietFailure) ∧
      Run.exec liveStepDefault w (followedBy quietFailure) = some v) ∧
    (predicting w 152).map (fun (ref, t) => (ref.paymentAttemptId, t)) = some ("pay_1", t₁) ∧
    degraded w.db = some false ∧ degraded u.db = some true := by
  obtain ⟨⟨w, u, v⟩, hworlds, hfacts⟩ := Option.map_eq_some_iff.mp worlds_facts
  simp only [worlds, Option.bind_eq_bind, Option.bind_eq_some_iff, Option.pure_def,
    Option.some.injEq, Prod.mk.injEq] at hworlds
  obtain ⟨w₀, hw₀, w', hw, u', hu, v', hv, rfl, rfl, rfl⟩ := hworlds
  have harrived := (Run.execGuarded_eq_some.mp (afterArrival_eq hw₀)).2
  refine ⟨_, _, _, ?_, hu, Run.execGuarded_eq_some.mp hv, of_decide_eq_true hfacts⟩
  rw [liveRun, Run.exec_append_of_eq harrived]
  exact hw

end LookaheadExample

open LookaheadExample LedgerExample in
/-- A late failure whose run reconciles no episode leaves the features as they are. -/
theorem features_reproduced_quietFailure : ∃ w v,
    liveRun getDefaultPolicy (arrived ++ authorized) = some w ∧
      quietFailure.timestamp ≤ t₁ ∧ t₁ < quietFailure.ingestedAt ∧
      Run.exec liveStepDefault w (followedBy quietFailure) = some v ∧
      degraded w.db = some false ∧ reconstructFeatures (.all v.db) "pay_1" t₁ =
        reconstructFeatures ((Reads.all v.db).fixed w.db) "pay_1" t₁ := by
  obtain ⟨w, -, v, hw, -, ⟨hlearns, hv⟩, -, hdegraded, -⟩ := worlds_run
  refine ⟨w, v, hw, by decide +kernel, by decide +kernel, hv, hdegraded, features_reproduced hw
    (guarded_insertsRows fun a ha => arrived_alone a (List.mem_append_left _ ha))
    (fun _ => ⟨followedBy quietFailure, v, hv, rfl, ?_, hlearns⟩) "pay_1"⟩
  exact guarded_insertsRows fun a ha => arrived_alone a (List.mem_append_right _ ha)

open LookaheadExample LedgerExample in
/-- A failure that happened before the time and is ingested after it changes the features. -/
theorem features_not_reproduced : ∃ w u ref,
    liveRun getDefaultPolicy (arrived ++ authorized) = some w ∧
      predicting w 152 = some (ref, t₁) ∧ ref.paymentAttemptId = "pay_1" ∧
      lateFailure.timestamp ≤ t₁ ∧ t₁ < lateFailure.ingestedAt ∧
      Run.exec (liveProgram getDefaultPolicy).worldStep w (followedBy lateFailure) = some u ∧
      reconstructFeatures (.all w.db) "pay_1" t₁ ≠
        reconstructFeatures (.all u.db) "pay_1" t₁ := by
  obtain ⟨w, u, -, hw, hu, -, hpredicting, hbefore, hafter⟩ := worlds_run
  obtain ⟨⟨ref, t⟩, hpredicting, href⟩ := Option.map_eq_some_iff.mp hpredicting
  obtain ⟨hkey, rfl⟩ := Prod.mk.inj href
  refine ⟨w, u, ref, hw, hpredicting, hkey, by decide +kernel, by decide +kernel, hu, fun heq => ?_⟩
  have hsame : degraded w.db = degraded u.db := by rw [degraded, heq, degraded]
  rw [hbefore, hafter] at hsame
  cases hsame

end RevenueRecovery
