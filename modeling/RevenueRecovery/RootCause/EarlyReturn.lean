import RevenueRecovery.RootCause.Concurrent

/-!
# Stage 4: the early return

An evaluation appends nothing when the latest evaluation of the episode digested the same
inputs. In one database, where events are only appended and Stage 2 saves the snapshots,
evaluations of equal fingerprints have one diagnosis, whenever they are made; so what is
stored is what an evaluation from scratch would find (`diagnosis_of_sameFingerprint`).

## Main definitions
* `TablesChange`, `changeTables` : the changes of the tables an evaluation reads.
* `HasDiagnosis` : a stored evaluation has the diagnosis of an evaluation from scratch.
* `Diagnosed` : every stored evaluation has that of an earlier state of the database.
-/
namespace RevenueRecovery

/-! ## One database -/

/-- A change of the tables an evaluation reads or appends to: an event is ingested, Stage 2
saves a window of the events it read, Stage 3 changes its tables in any way, or an episode
is evaluated. -/
inductive TablesChange
  | ingest (e : PaymentEvent)
  | saveWindow (run : SnapshotRun)
  | reconcile (signals : List DegradationSignal) (episodes : List DegradationEpisode)
      (history : List EpisodeStateHistory)
  | evaluate (ep : DegradationEpisode) (now : Time)

/-- An evaluation that raises is no change. -/
def changeTables (db : Database) : TablesChange → Option Database
  | .ingest e => some { db with events := db.events ++ [e] }
  | .saveWindow run => some { db with analytics := { db.analytics with
      snapshots := calculateAndSaveWindow run.events db.analytics.snapshots run.windowStart
        run.windowEnd } }
  | .reconcile signals episodes history => some { db with analytics := { db.analytics with
      signals := signals, episodes := episodes, history := history } }
  | .evaluate ep now =>
      (evaluateEpisode db.events db.analytics ep now).toOption.map fun tables =>
        { db with analytics := tables }

/-- The candidates of a stored evaluation, named as those of a first one. -/
def AnalyticsTables.candidatesOf (tables : AnalyticsTables) (v : RootCauseAnalysisEvaluation) :
    List CandidateCause :=
  (tables.candidates.filter fun c => c.evaluationId = v.evaluationId).map fun c =>
    { c with evaluationId := ⟨v.episodeId, 1⟩ }

/-- The stored evaluation has the classification and the ranked candidates, with their
figures, of an evaluation from scratch. -/
def HasDiagnosis (tables : AnalyticsTables) (v : RootCauseAnalysisEvaluation)
    (fresh : AnalyticsTables) : Prop :=
  fresh.evaluations.map (·.classification) = [v.classification] ∧
    fresh.candidates = tables.candidatesOf v

/-! ## An evaluation and one from scratch -/

/-- The tables without evaluations. -/
def AnalyticsTables.unevaluated (tables : AnalyticsTables) : AnalyticsTables :=
  { tables with evaluations := [], candidates := [] }

section Scratch
variable {events : List PaymentEvent} {tables tables' : AnalyticsTables} {db : Database}
  {ep : DegradationEpisode} {now : Time}

/-- Without evaluations no input is unchanged. -/
theorem unchangedInputs_unevaluated (fingerprint : RCAFingerprint) :
    unchangedInputs tables.unevaluated fingerprint = false :=
  rfl

theorem classifiedDraft_fingerprint (window : Time × Time) (fingerprint : RCAFingerprint)
    (totals : EpisodeTotals) (results : List StructuralResult) :
    (classifiedDraft window fingerprint totals results).fingerprint = fingerprint := by
  unfold classifiedDraft
  split <;> rfl

theorem classifiedDraft_episodeId (window : Time × Time) (fingerprint : RCAFingerprint)
    (totals : EpisodeTotals) (results : List StructuralResult) :
    (classifiedDraft window fingerprint totals results).episodeId = fingerprint.episodeId := by
  unfold classifiedDraft
  split <;> rfl

/-- A call drafts what it drafts from scratch, or the draft's inputs are unchanged. -/
theorem evaluationDraft_unevaluated {o : Option EvaluationDraft}
    (h : evaluationDraft (fun _ => ⟨events, tables⟩) ep = .ok o) :
    ∃ d, d.episodeId = ep.episodeId ∧ d.fingerprint.episodeId = ep.episodeId ∧
      evaluationDraft (fun _ => ⟨events, tables.unevaluated⟩) ep = .ok (some d) ∧
      (o = some d ∨ o = none ∧ unchangedInputs tables d.fingerprint = true) := by
  unfold evaluationDraft at h ⊢
  by_cases hstatus : ep.status = .invalidated
  · simp only [if_pos hstatus, Except.ok.injEq] at h ⊢
    subst h
    refine ⟨unknownDraft (computeInputFingerprint ep (ep.startedAtWindow,
      ep.startedAtWindow + Time.minutes 5) 0 0 []) _, rfl, rfl, rfl, ?_⟩
    unfold unknownUnlessUnchanged
    split
    · rename_i hsame
      exact .inr ⟨rfl, hsame⟩
    · exact .inl rfl
  · simp only [if_neg hstatus, structuralResultsFrom_const] at h ⊢
    cases hwindow : computeAnalysisWindow ep.startedAtWindow ep.endedAtWindow
        (getLatestBadWindowStart tables.signals ep) ep.status with
    | error e => simp [hwindow, bind, Except.bind] at h
    | ok window =>
        have hwindow' : computeAnalysisWindow ep.startedAtWindow ep.endedAtWindow
          (getLatestBadWindowStart tables.unevaluated.signals ep) ep.status = .ok window := hwindow
        simp only [hwindow, hwindow', unchangedInputs_unevaluated, unknownUnlessUnchanged, bind,
          Except.bind, pure, Except.pure, Bool.false_eq_true, if_false] at h ⊢
        by_cases hfew : failureCount (terminalEventsInWindow events window) <
            minFailuresForRcaEvaluation
        · simp only [if_pos hfew] at h ⊢
          refine ⟨_, rfl, rfl, rfl, ?_⟩
          split at h
          · rename_i hsame
            exact .inr ⟨(Except.ok.inj h).symm, hsame⟩
          · exact .inl (Except.ok.inj h).symm
        · simp only [if_neg hfew] at h ⊢
          refine ⟨_, classifiedDraft_episodeId .., by rw [classifiedDraft_fingerprint]; rfl, rfl, ?_⟩
          rw [classifiedDraft_fingerprint]
          split at h
          · rename_i hsame
            exact .inr ⟨(Except.ok.inj h).symm, hsame⟩
          · exact .inl (Except.ok.inj h).symm

/-- An evaluation returns early, or appends what it appends from scratch. -/
theorem evaluateEpisode_returns (h : evaluateEpisode db.events db.analytics ep now = .ok tables') :
    ∃ d : EvaluationDraft, d.episodeId = ep.episodeId ∧ d.fingerprint.episodeId = ep.episodeId ∧
      evaluateFromScratch db ep now = .ok (d.appendTo db.analytics.unevaluated now) ∧
      (tables' = d.appendTo db.analytics now ∨
        tables' = db.analytics ∧ unchangedInputs db.analytics d.fingerprint = true) := by
  rw [evaluateEpisode_eq] at h
  cases hdraft : evaluationDraft (fun _ => ⟨db.events, db.analytics⟩) ep with
  | error e => simp [hdraft, Except.map] at h
  | ok o =>
      obtain ⟨d, hepisode, hfingerprint, hscratch, ho⟩ := evaluationDraft_unevaluated hdraft
      simp only [hdraft, Except.map, Except.ok.injEq] at h
      refine ⟨d, hepisode, hfingerprint, ?_, ?_⟩
      · refine evaluateEpisode_eq.trans ?_
        rw [show evaluationDraft (fun _ => ⟨db.events, { db.analytics with
          evaluations := [], candidates := [] }⟩) ep = .ok (some d) from hscratch]
        rfl
      · rcases ho with rfl | ⟨rfl, hsame⟩
        · exact .inl h.symm
        · exact .inr ⟨h.symm, hsame⟩

theorem candidateRows_rename (id id' : EvaluationId) (qualified : List QualifiedCandidate) :
    (candidateRows id qualified).map (fun c => { c with evaluationId := id' }) =
      candidateRows id' qualified := by
  refine List.ext_getElem (by simp [candidateRows]) fun i hi hi' => ?_
  simp [candidateRows, candidateRow]

end Scratch

/-! ## The stored evaluations -/

/-- The evaluation has the diagnosis of an evaluation from scratch of an earlier state, with
the same fingerprint. -/
structure Origin (db : Database) (v : RootCauseAnalysisEvaluation) (db₀ : Database)
    (fresh : AnalyticsTables) : Prop where
  earlier : db₀.events <+: db.events
  global : GlobalNamedAll db₀.analytics.snapshots
  scratch : ∃ ep now, evaluateFromScratch db₀ ep now = .ok fresh
  fingerprint : fresh.evaluations.map (·.inputFingerprint) = [v.inputFingerprint]
  diagnosis : HasDiagnosis db.analytics v fresh

/-- What holds of every state of the database. -/
structure Diagnosed (db : Database) : Prop where
  global : GlobalNamedAll db.analytics.snapshots
  named : ∀ v ∈ db.analytics.evaluations, v.evaluationId = ⟨v.episodeId, v.evaluationVersion⟩
  owned : ∀ c ∈ db.analytics.candidates, ∃ v ∈ db.analytics.evaluations,
    c.evaluationId = v.evaluationId
  origin : ∀ v ∈ db.analytics.evaluations, ∃ db₀ fresh, Origin db v db₀ fresh

section Stored
variable {db db' : Database} {ep : DegradationEpisode} {now : Time}

theorem diagnosed_empty : Diagnosed {} :=
  ⟨by simp [GlobalNamedAll], by simp, by simp, by simp⟩

/-- Other events and other tables leave the stored evaluations as they are. -/
theorem Diagnosed.congr (h : Diagnosed db) (hevents : db.events <+: db'.events)
    (hglobal : GlobalNamedAll db'.analytics.snapshots)
    (hevaluations : db'.analytics.evaluations = db.analytics.evaluations)
    (hcandidates : db'.analytics.candidates = db.analytics.candidates) : Diagnosed db' := by
  refine ⟨hglobal, hevaluations ▸ h.named, ?_, fun v hv => ?_⟩
  · rw [hevaluations, hcandidates]
    exact h.owned
  · rw [hevaluations] at hv
    obtain ⟨db₀, fresh, horigin⟩ := h.origin v hv
    refine ⟨db₀, fresh, { horigin with earlier := horigin.earlier.trans hevents, diagnosis := ?_ }⟩
    obtain ⟨hclass, hsame⟩ := horigin.diagnosis
    exact ⟨hclass, by rw [hsame, AnalyticsTables.candidatesOf, AnalyticsTables.candidatesOf,
      hcandidates]⟩

/-- An evaluation that is appended is the diagnosis from scratch of this state. -/
theorem Diagnosed.append (h : Diagnosed db) {d : EvaluationDraft}
    (hscratch : evaluateFromScratch db ep now = .ok (d.appendTo db.analytics.unevaluated now)) :
    Diagnosed { db with analytics := d.appendTo db.analytics now } := by
  set version := nextEvaluationVersion db.analytics d.episodeId with hversion
  have hfresh : ∀ v ∈ db.analytics.evaluations, v.evaluationId ≠ ⟨d.episodeId, version⟩ := by
    intro v hv heq
    obtain ⟨hepisode, hold⟩ := EvaluationId.mk.inj ((h.named v hv).symm.trans heq)
    exact Table.maxOf_succ_fresh (List.mem_filter.mpr ⟨hv, by simpa using hepisode⟩) hold
  have hrows : ∀ c ∈ d.candidates version, c.evaluationId = ⟨d.episodeId, version⟩ := by
    intro c hc
    obtain ⟨i, hi, rfl⟩ := List.mem_mapIdx.mp hc
    rfl
  have hevaluations : (d.appendTo db.analytics now).evaluations =
      db.analytics.evaluations ++ [d.evaluation version now] := rfl
  have hcandidates : (d.appendTo db.analytics now).candidates =
      db.analytics.candidates ++ d.candidates version := rfl
  refine ⟨h.global, ?_, ?_, ?_⟩
  · intro v hv
    rcases List.mem_append.mp (hevaluations ▸ hv) with hv | hv
    · exact h.named v hv
    · obtain rfl := List.mem_singleton.mp hv
      rfl
  · intro c hc
    rw [hevaluations]
    rcases List.mem_append.mp (hcandidates ▸ hc) with hc | hc
    · obtain ⟨v, hv, hid⟩ := h.owned c hc
      exact ⟨v, List.mem_append_left _ hv, hid⟩
    · exact ⟨_, List.mem_append_right _ (List.mem_singleton_self _), hrows c hc⟩
  · intro v hv
    rcases List.mem_append.mp (hevaluations ▸ hv) with hv | hv
    · -- the new candidates are not those of a stored evaluation
      obtain ⟨db₀, fresh, horigin⟩ := h.origin v hv
      refine ⟨db₀, fresh, { horigin with diagnosis := ⟨horigin.diagnosis.1, ?_⟩ }⟩
      have hother : (d.candidates version).filter (fun c => c.evaluationId = v.evaluationId) = [] :=
        List.filter_eq_nil_iff.mpr fun c hc => by
          simpa [hrows c hc] using (hfresh v hv).symm
      rw [horigin.diagnosis.2, AnalyticsTables.candidatesOf, AnalyticsTables.candidatesOf,
        hcandidates, List.filter_append, hother, List.append_nil]
    · obtain rfl := List.mem_singleton.mp hv
      refine ⟨db, _, ⟨List.prefix_refl _, h.global, ⟨ep, now, hscratch⟩, rfl, rfl, ?_⟩⟩
      have hold : db.analytics.candidates.filter (fun c =>
          c.evaluationId = (d.evaluation version now).evaluationId) = [] :=
        List.filter_eq_nil_iff.mpr fun c hc => by
          obtain ⟨v, hv, hid⟩ := h.owned c hc
          simpa [hid, EvaluationDraft.evaluation] using hfresh v hv
      have hnew : (d.candidates version).filter (fun c =>
          c.evaluationId = (d.evaluation version now).evaluationId) = d.candidates version :=
        List.filter_eq_self.mpr fun c hc => decide_eq_true (hrows c hc)
      rw [AnalyticsTables.candidatesOf, hcandidates, List.filter_append, hold, hnew,
        List.nil_append]
      exact (candidateRows_rename ..).symm

theorem Diagnosed.change {c : TablesChange} (h : Diagnosed db)
    (hchange : changeTables db c = some db') : Diagnosed db' := by
  cases c with
  | ingest e =>
      obtain rfl := Option.some.inj hchange
      exact h.congr (List.prefix_append _ _) h.global rfl rfl
  | saveWindow run =>
      obtain rfl := Option.some.inj hchange
      exact h.congr (List.prefix_refl _) (h.global.calculateAndSaveWindow _ _ _) rfl rfl
  | reconcile signals episodes history =>
      obtain rfl := Option.some.inj hchange
      exact h.congr (List.prefix_refl _) h.global rfl rfl
  | evaluate ep now =>
      simp only [changeTables] at hchange
      cases hevaluated : evaluateEpisode db.events db.analytics ep now with
      | error e => simp [hevaluated, Except.toOption] at hchange
      | ok tables =>
          simp only [hevaluated, Except.toOption, Option.map_some, Option.some.injEq] at hchange
          subst hchange
          obtain ⟨d, -, -, hscratch, rfl | ⟨rfl, -⟩⟩ := evaluateEpisode_returns hevaluated
          · exact h.append hscratch
          · exact h

theorem changeTables_events {c : TablesChange} (hchange : changeTables db c = some db') :
    db.events <+: db'.events := by
  cases c with
  | ingest e =>
      obtain rfl := Option.some.inj hchange
      exact List.prefix_append _ _
  | saveWindow run => obtain rfl := Option.some.inj hchange; exact List.prefix_refl _
  | reconcile signals episodes history =>
      obtain rfl := Option.some.inj hchange
      exact List.prefix_refl _
  | evaluate ep now =>
      obtain ⟨tables, -, rfl⟩ := Option.map_eq_some_iff.mp hchange
      exact List.prefix_refl _

end Stored

/-- In one database evaluations of equal fingerprints, each made in any state, have the same
diagnosis. So an evaluation that returns early leaves a stored one with the diagnosis of an
evaluation from scratch. -/
theorem diagnosis_of_sameFingerprint {as bs : List TablesChange} {db db' : Database}
    (h : Run.exec changeTables {} as = some db) (h' : Run.exec changeTables db bs = some db') :
    (∀ ep ep' now now' fresh fresh', evaluateFromScratch db ep now = .ok fresh →
      evaluateFromScratch db' ep' now' = .ok fresh' → SameFingerprint fresh fresh' →
        SameDiagnosis fresh fresh') ∧
    ∀ ep now, evaluateEpisode db'.events db'.analytics ep now = .ok db'.analytics →
      ∃ last fresh, getLatestEvaluation db'.analytics.evaluations ep.episodeId = some last ∧
        evaluateFromScratch db' ep now = .ok fresh ∧ HasDiagnosis db'.analytics last fresh := by
  have hdiagnosed : Diagnosed db :=
    Run.invariant_exec (fun _ _ _ hu hchange => hu.change hchange) diagnosed_empty h
  have hdiagnosed' : Diagnosed db' :=
    Run.invariant_exec (fun _ _ _ hu hchange => hu.change hchange) hdiagnosed h'
  have hgrows : ∀ u change u', db.events <+: u.events → changeTables u change = some u' →
      db.events <+: u'.events :=
    fun _ _ _ hu hchange => hu.trans (changeTables_events hchange)
  have hevents : db.events <+: db'.events := Run.invariant_exec hgrows (List.prefix_refl _) h'
  refine ⟨fun ep ep' now now' fresh fresh' hfresh hfresh' hsame => ?_, fun ep now hreturn => ?_⟩
  · have hagree := InputsAgree.of_prefix hevents hdiagnosed.global hdiagnosed'.global hfresh
      hfresh' hsame
    exact (sameDiagnosis_iff hfresh hfresh' hsame).mpr hagree
  · obtain ⟨d, -, hepisode, hscratch, happend | ⟨-, hunchanged⟩⟩ := evaluateEpisode_returns hreturn
    · -- an append is visible
      have hlength := congrArg (·.evaluations.length) happend
      simp [EvaluationDraft.appendTo, appendEvaluation] at hlength
    · unfold unchangedInputs at hunchanged
      rw [hepisode] at hunchanged
      split at hunchanged
      · rename_i last hlast
        have hstored : last ∈ db'.analytics.evaluations :=
          (List.mem_filter.mp (Table.latestBy_mem hlast)).1
        obtain ⟨db₀, fresh, horigin⟩ := hdiagnosed'.origin last hstored
        obtain ⟨ep₀, now₀, hscratch₀⟩ := horigin.scratch
        have hsame : SameFingerprint fresh (d.appendTo db'.analytics.unevaluated now) :=
          horigin.fingerprint.trans (congrArg (fun f => [f]) (of_decide_eq_true hunchanged))
        have hagree := InputsAgree.of_prefix horigin.earlier horigin.global hdiagnosed'.global
          hscratch₀ hscratch hsame
        have hdiagnosis := (sameDiagnosis_iff hscratch₀ hscratch hsame).mpr hagree
        exact ⟨last, _, hlast, hscratch, hdiagnosis.1.symm.trans horigin.diagnosis.1,
          hdiagnosis.2.symm.trans horigin.diagnosis.2⟩
      · cases hunchanged

/-! ### A capture after the degraded window -/

namespace EarlyReturnExample

open DigestExample

/-- The failures are ingested after two windows were saved, and the episode is evaluated. -/
def firstChanges : List TablesChange :=
  (history 2 ++ history 1 ++ failures 11).map .ingest ++
    ([2, 1].map fun k => .saveWindow
      ⟨history k, t₀ - Time.weeks k, t₀ - Time.weeks k + Time.minutes 5⟩) ++
    [.evaluate episode 0]

/-- An hour later. -/
def capture : PaymentEvent := event 400 capturedEventType "HDFC" (t₀ + Time.minutes 60)

def laterChanges : List TablesChange :=
  [.ingest capture,
    .saveWindow ⟨[capture], capture.timestamp, capture.timestamp + Time.minutes 5⟩]

def states : Option (Database × Database) := do
  let db ← Run.exec changeTables {} firstChanges
  let db' ← Run.exec changeTables db laterChanges
  return (db, db')

theorem states_facts : (states.map fun (db, db') =>
    decide (compared db db' = some (true, true) ∧
      evaluateEpisode db'.events db'.analytics episode 1 = .ok db'.analytics)) = some true := by
  decide +kernel

end EarlyReturnExample

open DigestExample EarlyReturnExample in
/-- The second evaluation returns early, and would find what is stored. -/
theorem diagnosis_of_sameFingerprint_later : ∃ db db',
    Run.exec changeTables {} firstChanges = some db ∧
      Run.exec changeTables db laterChanges = some db' ∧
      (∃ fresh fresh', evaluateFromScratch db episode 0 = .ok fresh ∧
        evaluateFromScratch db' episode 0 = .ok fresh' ∧ SameDiagnosis fresh fresh') ∧
      ∃ last fresh, getLatestEvaluation db'.analytics.evaluations episode.episodeId = some last ∧
        evaluateFromScratch db' episode 1 = .ok fresh ∧ HasDiagnosis db'.analytics last fresh := by
  obtain ⟨⟨db, db'⟩, hstates, hfacts⟩ := Option.map_eq_some_iff.mp states_facts
  simp only [states, Option.bind_eq_bind, Option.bind_eq_some_iff, Option.pure_def,
    Option.some.injEq, Prod.mk.injEq] at hstates
  obtain ⟨u, hu, v, hv, rfl, rfl⟩ := hstates
  obtain ⟨hcompared, hreturn⟩ := of_decide_eq_true hfacts
  obtain ⟨fresh, fresh', hfresh, hfresh', hsame, -⟩ := compared_eq_some hcompared
  obtain ⟨hdiagnosis, hstored⟩ := diagnosis_of_sameFingerprint hu hv
  exact ⟨u, v, hu, hv, ⟨fresh, fresh', hfresh, hfresh',
    hdiagnosis _ _ _ _ fresh fresh' hfresh hfresh' (hsame.mpr rfl)⟩, hstored _ _ hreturn⟩

end RevenueRecovery
