import RevenueRecovery.Degradation.Service
import RevenueRecovery.Lib.Transaction

/-!
# Stage 3: concurrent calls

The statements of a `process_snapshots` transaction: for each snapshot the highest
evaluation version is read and the next one appended, then the timeline is read and
reconciled, the stored episodes are read, and the outcome is upserted episode by episode.
There is no lock, so calls of one segment may collide on a version or reconcile a
timeline that lacks each other's signals. Calls that act on no such stale read have the
effect of sequential service calls, also when they overlap.

## Main definitions
* `SnapshotsProc`, `snapshotsStep` : a call as a transactional program, one statement a step.
* `snapshotsProgram`, `snapshotsRun` : any interleaving of calls.
* `ReadsCurrent` : a call appends and commits what it would if it read again.
* `Replayed` : no violation, every signal kept, and every quiet segment reconciled.
-/
namespace RevenueRecovery

open Transaction

/-! ## The program -/

inductive SnapshotsWrite
  | appendSignal (row : DegradationSignal)
  | upsertEpisode (row : DegradationEpisode)
  | appendHistory (row : EpisodeStateHistory)
deriving DecidableEq

/-- Where a call stands, with the signals it has appended, the timeline it has reconciled and
the stored episodes of its segment, as it has read them. -/
inductive SnapshotsProc
  | start (call : DegradationCall)
  | evaluate (call : DegradationCall) (done : List DegradationSignal)
      (todo : List PaymentHealthSnapshot)
  | append (call : DegradationCall) (done : List DegradationSignal) (signal : DegradationSignal)
      (todo : List PaymentHealthSnapshot)
  | fetch (call : DegradationCall) (done timeline : List DegradationSignal)
  | upsert (call : DegradationCall) (done timeline : List DegradationSignal)
      (stored queue : List DegradationEpisode)
  | finished (call : DegradationCall) (signals : List DegradationSignal)
  | failed

namespace DegradationCall

/-- The dimension of the first snapshot. -/
def segmentDimension (call : DegradationCall) : String :=
  (call.snapshots.head?.map (·.segmentDimension)).getD ""

/-- The value of the first snapshot. -/
def segmentValue (call : DegradationCall) : String :=
  (call.snapshots.head?.map (·.segmentValue)).getD ""

def snapshotsSorted (call : DegradationCall) : List PaymentHealthSnapshot :=
  call.snapshots.insertionSort fun a b => a.windowStart ≤ b.windowStart

/-- The episodes a call upserts when it has read this timeline and these stored episodes. -/
def upserts (call : DegradationCall) (timeline : List DegradationSignal)
    (stored : List DegradationEpisode) : List DegradationEpisode :=
  reconciledUpserts stored (reconcileTimeline timeline) call.segmentDimension call.segmentValue

end DegradationCall

abbrev SnapshotsOutcome := Outcome SnapshotsWrite Unit Unit SnapshotsProc

/-- The statements of `upsert_episode`. -/
def episodeWrites (call : DegradationCall) (ep : DegradationEpisode) : List SnapshotsWrite :=
  [.upsertEpisode ep,
    .appendHistory (historyRow call.reconciliationRunId call.evaluationTimestamp ep)]

/-- The next statement of a call; an evaluation that raises fails it. -/
def snapshotsStep (now : AnalyticsTables) : SnapshotsProc → Option SnapshotsOutcome
  | .start call =>
      if call.snapshots = [] then some (.commit (.finished call []))
      else some (.write [] (.evaluate call [] call.snapshotsSorted))
  | .evaluate call done (s :: todo) =>
      let version := getMaxEvaluationVersion now.signals call.segmentDimension call.segmentValue
        s.windowStart + 1
      match evaluateSnapshot s version call.evaluationTimestamp with
      | .ok signal => some (.write [] (.append call done signal todo))
      | .error _ => some (.rollback .failed)
  | .append call done signal todo =>
      some (.write [.appendSignal signal] (.evaluate call (done ++ [signal]) todo))
  | .evaluate call done [] =>
      some (.write [] (.fetch call done
        (latestSignals now.signals call.segmentDimension call.segmentValue)))
  | .fetch call done timeline =>
      let stored := getEpisodesForSegment now.episodes call.segmentDimension call.segmentValue
      some (.write [] (.upsert call done timeline stored (call.upserts timeline stored)))
  | .upsert call done timeline stored (ep :: queue) =>
      some (.write (episodeWrites call ep) (.upsert call done timeline stored queue))
  | .upsert call done _ _ [] => some (.commit (.finished call done))
  | .finished .. => none
  | .failed => none

/-- A call that dies or raises is rolled back. -/
def SnapshotsProc.onError : SnapshotsProc → SnapshotsProc
  | .finished call signals => .finished call signals
  | _ => .failed

def AnalyticsTables.applySnapshots (tables : AnalyticsTables) : SnapshotsWrite → AnalyticsTables
  | .appendSignal row => { tables with signals := tables.signals ++ [row] }
  | .upsertEpisode row => { tables with episodes := RevenueRecovery.upsertEpisode tables.episodes row }
  | .appendHistory row => { tables with history := tables.history ++ [row] }

/-- `uq_signal_evaluation_version`. -/
def AnalyticsTables.violatesSnapshots (tables : AnalyticsTables) : SnapshotsWrite → Bool
  | .appendSignal row => tables.signals.any row.sameEvaluation
  | .upsertEpisode _ | .appendHistory _ => false

/-- Signals compete for a version, upserts for a row. -/
def SnapshotsWrite.clashes : SnapshotsWrite → SnapshotsWrite → Bool
  | .appendSignal a, .appendSignal b => a.sameEvaluation b
  | .upsertEpisode a, .upsertEpisode b => a.episodeId == b.episodeId
  | _, _ => false

theorem DegradationSignal.sameEvaluation_iff {a b : DegradationSignal} :
    a.sameEvaluation b ↔ a.segmentDimension = b.segmentDimension ∧
      a.segmentValue = b.segmentValue ∧ a.windowStart = b.windowStart ∧
      a.evaluationVersion = b.evaluationVersion := by
  simp [DegradationSignal.sameEvaluation, and_assoc]

theorem DegradationSignal.sameEvaluation_comm (a b : DegradationSignal) :
    a.sameEvaluation b = b.sameEvaluation a := by
  rw [Bool.eq_iff_iff, sameEvaluation_iff, sameEvaluation_iff]
  grind

theorem SnapshotsWrite.clashes_symm (a b : SnapshotsWrite) : a.clashes b = b.clashes a := by
  cases a <;> cases b <;> simp only [clashes]
  · exact DegradationSignal.sameEvaluation_comm _ _
  · exact Bool.beq_comm

/-- Calls arrive at any time. -/
def snapshotsProgram :
    Program AnalyticsTables SnapshotsWrite Unit Unit SnapshotsProc Unit DegradationCall where
  apply := AnalyticsTables.applySnapshots
  violates := AnalyticsTables.violatesSnapshots
  clashes := SnapshotsWrite.clashes
  clashes_symm := SnapshotsWrite.clashes_symm
  step p _ _ now := snapshotsStep now p
  onError := SnapshotsProc.onError
  arrive call _ := some ([], [.start call])

abbrev SnapshotsSession := Session AnalyticsTables SnapshotsWrite Unit SnapshotsProc
abbrev SnapshotsWorld := World AnalyticsTables SnapshotsWrite Unit Unit SnapshotsProc
abbrev SnapshotsAction := Action Unit DegradationCall

/-- Any interleaving of calls, from empty tables. -/
def snapshotsRun (as : List SnapshotsAction) : Option SnapshotsWorld :=
  Run.exec snapshotsProgram.worldStep ⟨{}, [], []⟩ as

/-! ## What the calls should do -/

/-- The segment of a call in progress. -/
def SnapshotsProc.segment? : SnapshotsProc → Option (String × String)
  | .evaluate call .. | .append call .. | .fetch call .. | .upsert call .. =>
      some (call.segmentDimension, call.segmentValue)
  | .start _ | .finished .. | .failed => none

/-- No read on which the next step acts is stale: a signal is appended under the version that
follows the highest one now, and a call commits when its timeline and the stored episodes of
its segment are still what it has read. -/
def SnapshotsProc.ReadsCurrent (db view : AnalyticsTables) : SnapshotsProc → Prop
  | .append call _ signal _ =>
      signal.evaluationVersion = getMaxEvaluationVersion view.signals call.segmentDimension
        call.segmentValue signal.windowStart + 1
  | .upsert call _ timeline stored [] =>
      timeline = latestSignals view.signals call.segmentDimension call.segmentValue ∧
        stored = getEpisodesForSegment db.episodes call.segmentDimension call.segmentValue
  | .start _ | .evaluate .. | .fetch .. | .upsert _ _ _ _ (_ :: _) | .finished .. | .failed => True

instance SnapshotsProc.ReadsCurrent.decidable (db view : AnalyticsTables) :
    (p : SnapshotsProc) → Decidable (p.ReadsCurrent db view)
  | .append .. => inferInstanceAs (Decidable (_ = _))
  | .upsert _ _ _ _ [] => inferInstanceAs (Decidable (_ ∧ _))
  | .start _ | .evaluate .. | .fetch .. | .upsert _ _ _ _ (_ :: _) | .finished .. | .failed =>
      isTrue trivial

/-- The committed tables and what the call sees of them meet the condition of its next step. -/
def ReadsCurrent (db : AnalyticsTables) (s : SnapshotsSession) (_ : Unit) : Prop :=
  s.proc.ReadsCurrent db (snapshotsProgram.view db s)

instance (db : AnalyticsTables) (s : SnapshotsSession) (input : Unit) :
    Decidable (ReadsCurrent db s input) := inferInstanceAs (Decidable (s.proc.ReadsCurrent _ _))

/-- The signal is an evaluation of the snapshot. -/
def EvaluationOf (t : Time) (s : PaymentHealthSnapshot) (signal : DegradationSignal) : Prop :=
  ∃ version, evaluateSnapshot s version t = .ok signal

/-- What concurrent calls should do in a run and leave in the world it ends in: no
statement raises; the signal of each snapshot of a finished call is stored, and no two
stored signals have one version of one window; and when no call of a segment is in
progress, its episodes that are not invalidated are those its latest signals reconcile to. -/
structure Replayed (as : List SnapshotsAction) (w : SnapshotsWorld) : Prop where
  noViolation : ¬Run.Occurs snapshotsProgram.worldStep ⟨{}, [], []⟩ as fun w a =>
    snapshotsProgram.raises w a = true
  kept : ∀ s ∈ w.sessions, ∀ call signals, s.proc = .finished call signals →
    List.Forall₂ (EvaluationOf call.evaluationTimestamp) call.snapshotsSorted signals ∧
      signals ⊆ w.db.signals
  versions : w.db.signals.Pairwise fun a b => a.sameEvaluation b = false
  reconciled : ∀ dim val, (∀ s ∈ w.sessions, s.proc.segment? ≠ some (dim, val)) → ∀ ep,
    ep ∈ reconcileTimeline (latestSignals w.db.signals dim val) ↔
      ep ∈ getEpisodesForSegment w.db.episodes dim val ∧ ep.status ≠ .invalidated

/-! ## Steps -/

section Steps
variable {db : AnalyticsTables} {s : SnapshotsSession} {input : Unit} {o : SnapshotsOutcome}

/-- What one step of a call can be. -/
inductive SnapshotsStepped (now : AnalyticsTables) : SnapshotsProc → SnapshotsOutcome → Prop
  | empty {call} (hempty : call.snapshots = []) :
      SnapshotsStepped now (.start call) (.commit (.finished call []))
  | started {call} (hne : call.snapshots ≠ []) :
      SnapshotsStepped now (.start call) (.write [] (.evaluate call [] call.snapshotsSorted))
  | evaluated {call done snapshot todo signal}
      (h : evaluateSnapshot snapshot (getMaxEvaluationVersion now.signals call.segmentDimension
        call.segmentValue snapshot.windowStart + 1) call.evaluationTimestamp = .ok signal) :
      SnapshotsStepped now (.evaluate call done (snapshot :: todo))
        (.write [] (.append call done signal todo))
  | raised {call done snapshot todo} :
      SnapshotsStepped now (.evaluate call done (snapshot :: todo)) (.rollback .failed)
  | appended {call done signal todo} :
      SnapshotsStepped now (.append call done signal todo)
        (.write [.appendSignal signal] (.evaluate call (done ++ [signal]) todo))
  | reconciled {call done} :
      SnapshotsStepped now (.evaluate call done []) (.write [] (.fetch call done
        (latestSignals now.signals call.segmentDimension call.segmentValue)))
  | fetched {call done timeline stored}
      (h : stored = getEpisodesForSegment now.episodes call.segmentDimension call.segmentValue) :
      SnapshotsStepped now (.fetch call done timeline)
        (.write [] (.upsert call done timeline stored (call.upserts timeline stored)))
  | upserted {call done timeline stored ep queue} :
      SnapshotsStepped now (.upsert call done timeline stored (ep :: queue))
        (.write (episodeWrites call ep) (.upsert call done timeline stored queue))
  | committed {call done timeline stored} :
      SnapshotsStepped now (.upsert call done timeline stored []) (.commit (.finished call done))

theorem snapshotsStepped (h : snapshotsProgram.outcome db s input = some o) :
    SnapshotsStepped (snapshotsProgram.view db s) s.proc o := by
  have hstep : snapshotsStep (snapshotsProgram.view db s) s.proc = some o := h
  cases hp : s.proc with
  | start call =>
      simp only [hp, snapshotsStep] at hstep
      split at hstep <;> obtain rfl := Option.some.inj hstep
      · exact .empty ‹_›
      · exact .started ‹_›
  | evaluate call done todo =>
      cases todo with
      | nil =>
          simp only [hp, snapshotsStep, Option.some.injEq] at hstep
          subst hstep
          exact .reconciled
      | cons snapshot todo =>
          simp only [hp, snapshotsStep] at hstep
          split at hstep <;> obtain rfl := Option.some.inj hstep
          · exact .evaluated ‹_›
          · exact .raised
  | append call done signal todo =>
      simp only [hp, snapshotsStep, Option.some.injEq] at hstep
      subst hstep
      exact .appended
  | fetch call done timeline =>
      simp only [hp, snapshotsStep, Option.some.injEq] at hstep
      subst hstep
      exact .fetched rfl
  | upsert call done timeline stored queue =>
      cases queue with
      | nil =>
          simp only [hp, snapshotsStep, Option.some.injEq] at hstep
          subst hstep
          exact .committed
      | cons ep queue =>
          simp only [hp, snapshotsStep, Option.some.injEq] at hstep
          subst hstep
          exact .upserted
  | finished call signals => simp [hp, snapshotsStep] at hstep
  | failed => simp [hp, snapshotsStep] at hstep

end Steps

/-! ## Versions -/

/-- Stored signals have distinct versions. -/
def DistinctVersions (db : AnalyticsTables) : Prop :=
  db.signals.Pairwise fun a b => a.sameEvaluation b = false

/-- The second write would violate a constraint after the first. -/
def SnapshotsWrite.conflicts : SnapshotsWrite → SnapshotsWrite → Bool
  | .appendSignal a, .appendSignal b => b.sameEvaluation a
  | _, _ => false

theorem snapshotsConstraints :
    Program.Constraints snapshotsProgram SnapshotsWrite.conflicts DistinctVersions where
  violates_apply db a b := by
    cases a <;> cases b <;> simp [snapshotsProgram, AnalyticsTables.violatesSnapshots,
      AnalyticsTables.applySnapshots, SnapshotsWrite.conflicts]
  clashes {a b} h := by
    cases a <;> cases b <;> simp only [SnapshotsWrite.conflicts]
    rw [DegradationSignal.sameEvaluation_comm]
    exact h
  keep {db a} hdb h := by
    cases a with
    | appendSignal row =>
        refine List.pairwise_append.mpr ⟨hdb, by simp, fun old hold new hnew => ?_⟩
        obtain rfl := List.mem_singleton.mp hnew
        rw [DegradationSignal.sameEvaluation_comm]
        simpa using List.any_eq_false.mp h old hold
    | _ => exact hdb

theorem getMaxEvaluationVersion_fresh {signals : List DegradationSignal} {dim val : String}
    {signal old : DegradationSignal} (hdim : signal.segmentDimension = dim)
    (hval : signal.segmentValue = val)
    (hversion : signal.evaluationVersion =
      getMaxEvaluationVersion signals dim val signal.windowStart + 1) (hold : old ∈ signals) :
    signal.sameEvaluation old = false := by
  by_contra hsame
  rw [Bool.not_eq_false, DegradationSignal.sameEvaluation_iff] at hsame
  obtain ⟨hd, hv, hw, hversion'⟩ := hsame
  have hmem : old ∈ (segmentSignals signals dim val).filter fun s =>
      s.windowStart = signal.windowStart :=
    List.mem_filter.mpr ⟨List.mem_filter.mpr ⟨hold, by simp [← hd, ← hv, hdim, hval]⟩,
      by simp [hw]⟩
  have hne : old.evaluationVersion ≠ getMaxEvaluationVersion signals dim val
      signal.windowStart + 1 := Table.maxOf_succ_fresh hmem
  exact hne (hversion'.symm.trans hversion)

/-! ## The state of a call -/

/-- A call in progress has evaluated the first of its snapshots and has the others to do. -/
structure Evaluating (call : DegradationCall) (done : List DegradationSignal)
    (todo : List PaymentHealthSnapshot) : Prop where
  nonempty : call.snapshots ≠ []
  progress : ∃ before, call.snapshotsSorted = before ++ todo ∧
    List.Forall₂ (EvaluationOf call.evaluationTimestamp) before done

/-- What holds of a call by where it stands: what it has written so far, and that this follows
from what it has read. -/
def SnapshotsState (db : AnalyticsTables) (s : SnapshotsSession) : Prop :=
  match s.proc with
  | .start _ | .failed => s.pending = []
  | .finished call signals => s.pending = [] ∧ List.Forall₂
      (EvaluationOf call.evaluationTimestamp) call.snapshotsSorted signals ∧
        signals ⊆ db.signals
  | .evaluate call done todo => s.pending = done.map .appendSignal ∧ Evaluating call done todo
  | .append call done signal todo => s.pending = done.map .appendSignal ∧
      Evaluating call (done ++ [signal]) todo
  | .fetch call done _ => s.pending = done.map .appendSignal ∧ Evaluating call done []
  | .upsert call done timeline stored queue => ∃ upserted,
      s.pending = done.map .appendSignal ++ upserted.flatMap (episodeWrites call) ∧
        Evaluating call done [] ∧ upserted ++ queue = call.upserts timeline stored

theorem DegradationCall.segment_eq {call : DegradationCall} {s : PaymentHealthSnapshot}
    (h : s ∈ call.snapshots) :
    s.segmentDimension = call.segmentDimension ∧ s.segmentValue = call.segmentValue := by
  have hone := call.oneSegment
  unfold segmentDimension segmentValue
  cases hsnap : call.snapshots with
  | nil => simp [hsnap] at h
  | cons first rest => exact hone s h first (by simp [hsnap])

/-- The signals of a call are of its segment. -/
theorem Evaluating.segment {call : DegradationCall} {done : List DegradationSignal}
    {todo : List PaymentHealthSnapshot} (h : Evaluating call done todo) :
    ∀ s ∈ done, s.segmentDimension = call.segmentDimension ∧
      s.segmentValue = call.segmentValue := by
  obtain ⟨before, hsorted, hdone⟩ := h.progress
  intro s hs
  obtain ⟨i, hi, rfl⟩ := List.getElem_of_mem hs
  have hi' : i < before.length := hdone.length_eq ▸ hi
  obtain ⟨version, hok⟩ := hdone.get hi' hi
  obtain ⟨hdim, hval, -⟩ := evaluateSnapshot_fields hok
  have hmem : before[i] ∈ call.snapshotsSorted := by
    rw [hsorted]
    exact List.mem_append_left _ (List.getElem_mem hi')
  have hseg := DegradationCall.segment_eq ((List.perm_insertionSort _ _).mem_iff.mp hmem)
  exact ⟨hdim.trans hseg.1, hval.trans hseg.2⟩

theorem applyAll_appendSignal (db : AnalyticsTables) (done : List DegradationSignal) :
    snapshotsProgram.applyAll db (done.map .appendSignal) =
      { db with signals := db.signals ++ done } := by
  induction done generalizing db with
  | nil => simp
  | cons signal done ih =>
      rw [List.map_cons, Program.applyAll_cons, ih]
      simp [snapshotsProgram, AnalyticsTables.applySnapshots]

theorem applyAll_episodeWrites (db : AnalyticsTables) (call : DegradationCall)
    (upserted : List DegradationEpisode) :
    snapshotsProgram.applyAll db (upserted.flatMap (episodeWrites call)) =
      { db with
        episodes := upserted.foldl upsertEpisode db.episodes
        history := db.history ++ upserted.map
          (historyRow call.reconciliationRunId call.evaluationTimestamp) } := by
  induction upserted generalizing db with
  | nil => simp
  | cons ep upserted ih =>
      rw [List.flatMap_cons, Program.applyAll_append, ih]
      simp [episodeWrites, snapshotsProgram, AnalyticsTables.applySnapshots]

section View
variable {db : AnalyticsTables} {s : SnapshotsSession} {call : DegradationCall}
  {done : List DegradationSignal}

/-- Upserts do not change the signals. -/
theorem view_signals_upserted {upserted : List DegradationEpisode}
    (h : s.pending = done.map .appendSignal ++ upserted.flatMap (episodeWrites call)) :
    (snapshotsProgram.view db s).signals = db.signals ++ done := by
  rw [Program.view, h, Program.applyAll_append, applyAll_appendSignal, applyAll_episodeWrites]

/-- Only the stored episodes of the segment matter. -/
theorem DegradationCall.upserts_segment (call : DegradationCall)
    (timeline : List DegradationSignal) (episodes : List DegradationEpisode) :
    call.upserts timeline
        (getEpisodesForSegment episodes call.segmentDimension call.segmentValue) =
      reconciledUpserts episodes (reconcileTimeline timeline) call.segmentDimension
        call.segmentValue := by
  simp [upserts, reconciledUpserts, staleEpisodes, getEpisodesForSegment]

/-- A call that has upserted what it would upsert now commits the reconciliation of its
segment. -/
theorem view_reconciled (h : s.pending = done.map .appendSignal ++
      (call.upserts (latestSignals (db.signals ++ done) call.segmentDimension call.segmentValue)
        (getEpisodesForSegment db.episodes call.segmentDimension call.segmentValue)).flatMap
          (episodeWrites call)) :
    snapshotsProgram.view db s = storeReconciliation db (db.signals ++ done)
      call.segmentDimension call.segmentValue call.evaluationTimestamp
      call.reconciliationRunId := by
  rw [call.upserts_segment] at h
  rw [Program.view, h, Program.applyAll_append, applyAll_appendSignal, applyAll_episodeWrites]
  rfl

end View

/-! ## Calls that act on no stale read -/

/-- Other tables keep the state of a call, as long as they keep its signals. -/
theorem SnapshotsState.mono {db db' : AnalyticsTables} (h : db.signals ⊆ db'.signals)
    {s : SnapshotsSession} (hs : SnapshotsState db s) : SnapshotsState db' s := by
  unfold SnapshotsState at hs ⊢
  cases hp : s.proc with
  | finished call signals =>
      simp only [hp] at hs ⊢
      exact ⟨hs.1, hs.2.1, List.Subset.trans hs.2.2 h⟩
  | _ => simpa only [hp] using hs

/-- The obligations for calls that act on no stale read: the committed tables stay reconciled
and each call's state is kept. -/
theorem snapshotsInvariant : snapshotsProgram.Invariant ReadsCurrent ReplayInvariant
    SnapshotsState where
  arrive {db x ws ps} hG harr _ := by
    obtain ⟨rfl, rfl⟩ := Prod.mk.inj (Option.some.inj harr).symm
    refine ⟨hG, fun s hs _ => hs, fun p hp => ?_⟩
    obtain rfl := List.mem_singleton.mp hp
    rfl
  look hG hL := hL
  abort {db s} hG hL := by
    cases hp : s.proc <;> simp only [snapshotsProgram, SnapshotsProc.onError, SnapshotsState,
      Session.proc_fresh, Session.pending_fresh]
    simp only [SnapshotsState, hp] at hL
    exact ⟨trivial, hL.2⟩
  lock {db s input key next} hG hL _ ho := by
    have hstep := snapshotsStepped ho
    generalize hlock : Outcome.lock key next = o at hstep
    generalize s.proc = p at hstep
    cases hstep <;> cases hlock
  write {db s input ws next} hG hL _ ho _ := by
    have hstep := snapshotsStepped ho
    generalize hwrite : Outcome.write ws next = o at hstep
    generalize hproc : s.proc = p at hstep
    unfold SnapshotsState at hL
    rw [hproc] at hL
    cases hstep with
    | @started call hne =>
        cases hwrite
        exact ⟨by simpa [Session.wrote] using hL, hne, [], by simp, .nil⟩
    | @evaluated call done snapshot todo signal hsignal =>
        cases hwrite
        obtain ⟨hpending, hne, before, hsorted, hdone⟩ := hL
        have hsorted' : call.snapshotsSorted = (before ++ [snapshot]) ++ todo := by
          rw [hsorted, List.append_assoc, List.singleton_append]
        exact ⟨by simpa [Session.wrote] using hpending, hne, _, hsorted',
          List.rel_append hdone (.cons ⟨_, hsignal⟩ .nil)⟩
    | @appended call done signal todo =>
        cases hwrite
        obtain ⟨hpending, heval⟩ := hL
        exact ⟨by simp [Session.wrote, hpending], heval⟩
    | @reconciled call done =>
        cases hwrite
        obtain ⟨hpending, heval⟩ := hL
        exact ⟨by simpa [Session.wrote] using hpending, heval⟩
    | @fetched call done timeline stored hstored =>
        cases hwrite
        obtain ⟨hpending, heval⟩ := hL
        exact ⟨[], by simpa [Session.wrote] using hpending, heval, rfl⟩
    | @upserted call done timeline stored ep queue =>
        cases hwrite
        obtain ⟨upserted, hpending, heval, hqueue⟩ := hL
        refine ⟨upserted ++ [ep], ?_, heval, by rw [← hqueue]; simp⟩
        simp [Session.wrote, hpending]
    | _ => cases hwrite
  call {db s input effect next} hG hL _ ho := by
    have hstep := snapshotsStepped ho
    generalize hcall : Outcome.call effect next = o at hstep
    generalize s.proc = p at hstep
    cases hstep <;> cases hcall
  rollback {db s input next} hG hL _ ho := by
    have hstep := snapshotsStepped ho
    generalize hrollback : Outcome.rollback next = o at hstep
    generalize s.proc = p at hstep
    cases hstep <;> cases hrollback
    exact rfl
  commit {db s input next} hG hL hg ho := by
    have hstep := snapshotsStepped ho
    generalize hcommit : Outcome.commit next = o at hstep
    generalize hproc : s.proc = p at hstep
    unfold SnapshotsState at hL
    unfold ReadsCurrent at hg
    rw [hproc] at hL hg
    cases hstep with
    | @empty call hempty =>
        cases hcommit
        have hview : snapshotsProgram.view db s = db := by
          rw [Program.view, show s.pending = [] from hL]
          rfl
        rw [hview]
        refine ⟨hG, ⟨rfl, ?_, by simp⟩, fun t ht _ => ht⟩
        simp [DegradationCall.snapshotsSorted, hempty]
    | @committed call done timeline stored =>
        cases hcommit
        obtain ⟨upserted, hpending, heval, hqueue⟩ := hL
        obtain ⟨htimeline, hstored⟩ := hg
        rw [view_signals_upserted hpending] at htimeline
        rw [List.append_nil, htimeline, hstored] at hqueue
        rw [view_reconciled (hqueue ▸ hpending)]
        refine ⟨hG.store heval.segment _ _, ⟨rfl, ?_, ?_⟩, fun t ht _ => ht.mono ?_⟩
        · obtain ⟨-, before, hsorted, hdone⟩ := heval
          rw [hsorted, List.append_nil]
          exact hdone
        · exact fun x hx => List.mem_append_right _ hx
        · exact fun x hx => List.mem_append_left _ hx
    | _ => cases hcommit

/-- No statement of such a call violates a constraint. -/
theorem SnapshotsState.violatesAny {db : AnalyticsTables} {s : SnapshotsSession} {input : Unit}
    {ws : List SnapshotsWrite} {next : SnapshotsProc} (hL : SnapshotsState db s)
    (hg : ReadsCurrent db s input)
    (ho : snapshotsProgram.outcome db s input = some (.write ws next)) :
    snapshotsProgram.violatesAny (snapshotsProgram.view db s) ws = false := by
  have hstep := snapshotsStepped ho
  generalize hwrite : Outcome.write ws next = o at hstep
  generalize hproc : s.proc = p at hstep
  unfold SnapshotsState at hL
  unfold ReadsCurrent at hg
  rw [hproc] at hL hg
  cases hstep with
  | @appended call done signal todo =>
      cases hwrite
      obtain ⟨hdim, hval⟩ := hL.2.segment signal (by simp)
      have hnone : (snapshotsProgram.view db s).signals.any signal.sameEvaluation = false :=
        List.any_eq_false.mpr fun old hold => by
          simp [getMaxEvaluationVersion_fresh hdim hval hg hold]
      exact Bool.or_eq_false_iff.mpr ⟨hnone, rfl⟩
  | started | evaluated | reconciled | fetched | upserted => cases hwrite; rfl
  | _ => cases hwrite

/-- Calls that act on no stale read have the effect of sequential calls: whatever the
interleaving, no statement raises, every signal of a finished call is kept under its own
version, and the committed episodes of each segment are those its latest signals reconcile
to. -/
theorem snapshotsRun_replayed {as : List SnapshotsAction} {w : SnapshotsWorld}
    (hrun : snapshotsRun as = some w)
    (hreads : Run.Guarded snapshotsProgram.worldStep (Program.worldGuard ReadsCurrent)
      ⟨{}, [], []⟩ as) : Replayed as w := by
  have hempty : snapshotsProgram.Good ReplayInvariant SnapshotsState ⟨{}, [], []⟩ :=
    .empty replayInvariant_empty
  have hgood := snapshotsInvariant.exec hempty hreads hrun
  have hnone : DistinctVersions {} := .nil
  have hmet := Program.Constraints.Met.exec snapshotsConstraints (.empty hnone) hrun
  refine ⟨?_, fun s hs call signals hproc => ?_, hmet.store, fun dim val _ ep => ?_⟩
  · exact snapshotsInvariant.not_raises (fun _ hL hg ho => hL.violatesAny hg ho) hempty hreads
  · have hstate := hgood.session s hs
    simp only [SnapshotsState, hproc] at hstate
    exact hstate.2
  · exact hgood.store.current dim val ep

/-! ### Calls that overlap -/

namespace ConcurrentExample

/-- The five-minute window `k`, of 50 failed payments. -/
def snapshot (k : ℤ) : PaymentHealthSnapshot :=
  { windowStart := Time.minutes (5 * k), windowEnd := Time.minutes (5 * k + 5),
    segmentDimension := "currency", segmentValue := "INR", transactionCount := 50,
    successfulTransactionCount := 0, failedTransactionCount := 50, successRate := some 0,
    failureRate := some 1, totalGmvMinorUnits := 0, successfulGmvMinorUnits := 0,
    failedGmvMinorUnits := 0, baselineSuccessRate := some 1, insufficientVolume := false }

/-- A call for some of the windows. -/
def call (windows : List ℤ) (run : ℕ) : DegradationCall :=
  { snapshots := windows.map snapshot
    evaluationTimestamp := Time.minutes 15
    reconciliationRunId := run
    oneSegment := by simp [snapshot] }

def advances (i n : ℕ) : List SnapshotsAction := List.replicate n (.advance i ())

/-- Two calls read the versions of one window before either appends. -/
def collide : List SnapshotsAction :=
  .arrive (call [0] 1) :: .arrive (call [0] 2) :: (advances 0 2 ++ advances 1 2 ++ advances 0 4)

/-- Two calls read the timeline before either commits. -/
def stale : List SnapshotsAction :=
  .arrive (call [0, 1] 1) :: .arrive (call [2] 2) ::
    (advances 0 7 ++ advances 1 5 ++ advances 0 1 ++ advances 1 1)

/-- The same calls, the second of which reads the timeline after the first has committed. -/
def overlapping : List SnapshotsAction :=
  .arrive (call [0, 1] 1) :: .arrive (call [2] 2) ::
    (advances 0 2 ++ advances 1 3 ++ advances 0 6 ++ advances 1 4)

theorem collide_raises : ((snapshotsRun collide).map fun w =>
    snapshotsProgram.raises w (.advance 1 ()) &&
      (snapshotsProgram.worldStep w (.advance 1 ())).isSome) = some true := by
  decide +kernel

theorem stale_episodes : ((snapshotsRun stale).map fun w =>
    w.sessions.all (fun s => s.proc.segment?.isNone) && w.db.episodes.isEmpty &&
      !(reconcileTimeline (latestSignals w.db.signals "currency" "INR")).isEmpty) =
        some true := by
  decide +kernel

end ConcurrentExample

open ConcurrentExample in
/-- Two calls of one segment overlap, and their signals make up an episode. -/
theorem snapshotsRun_replayed_overlapping : ∃ w, snapshotsRun overlapping = some w ∧
    w.db.episodes ≠ [] ∧ Replayed overlapping w := by
  have hguarded : ((Run.execGuarded snapshotsProgram.worldStep (Program.worldGuard ReadsCurrent)
      ⟨{}, [], []⟩ overlapping).map fun w => !w.db.episodes.isEmpty) = some true := by
    decide +kernel
  obtain ⟨w, hw, hepisodes⟩ := Option.map_eq_some_iff.mp hguarded
  obtain ⟨hreads, hrun⟩ := Run.execGuarded_eq_some.mp hw
  exact ⟨w, hrun, by simpa using hepisodes, snapshotsRun_replayed hrun hreads⟩

open ConcurrentExample in
/-- Calls that act on stale reads collide on a version, or lose the episode their signals make
up. -/
theorem snapshotsRun_not_replayed :
    (∃ w, snapshotsRun (collide ++ [.advance 1 ()]) = some w ∧
      ¬Replayed (collide ++ [.advance 1 ()]) w) ∧
    ∃ w, snapshotsRun stale = some w ∧ ¬Replayed stale w := by
  constructor
  · obtain ⟨w, hw, hfacts⟩ := Option.map_eq_some_iff.mp collide_raises
    obtain ⟨hraises, hsome⟩ := Bool.and_eq_true_iff.mp hfacts
    obtain ⟨w', hstep⟩ := Option.isSome_iff_exists.mp hsome
    refine ⟨w', Run.exec_snoc hw hstep, fun h => h.noViolation ?_⟩
    exact ⟨collide, _, [], w, rfl, hw, hraises⟩
  · obtain ⟨w, hw, hfacts⟩ := Option.map_eq_some_iff.mp stale_episodes
    simp only [Bool.and_eq_true, List.all_eq_true, List.isEmpty_iff, Bool.not_eq_true',
      Option.isNone_iff_eq_none] at hfacts
    obtain ⟨⟨hquiet, hepisodes⟩, hne⟩ := hfacts
    obtain ⟨ep, hep⟩ := List.exists_mem_of_ne_nil _ (List.isEmpty_eq_false_iff.mp hne)
    refine ⟨w, hw, fun h => ?_⟩
    have hstored := ((h.reconciled "currency" "INR"
      (fun s hs => by rw [hquiet s hs]; simp) ep).mp hep).1
    simp [getEpisodesForSegment, hepisodes] at hstored

end RevenueRecovery
