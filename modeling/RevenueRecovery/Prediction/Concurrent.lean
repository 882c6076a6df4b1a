import RevenueRecovery.Services.Identity

/-!
# Stage 5: predictions by concurrent calls

A prediction call looks for a stored prediction with its inputs, and otherwise waits for the
version lock of its attempt and appends one, without looking again. Calls of one attempt and
time that do not overlap in between return one row and store it once
(`predictions_single`); a call that has looked and waits for the lock while another holds a
prediction that is not committed yet stores a second one (`predictions_not_single`).

## Main definitions
* `Predicted` : what holds of every stored prediction.
* `predictionProgram` : connections that ask for one prediction.
* `CheckedApart` : no call has looked while another holds an uncommitted prediction.
* `predictionAnswer` : what a single call answers.
-/
namespace RevenueRecovery

open Transaction

/-! ## Stored predictions -/

/-- A prediction is named by its attempt and version, is of a registered attempt, and was
made at the time its inputs name. -/
def Predicted (db : Database) : Write → Prop
  | .appendPrediction p => p.predictionId = ⟨p.paymentAttemptId, p.predictionVersion⟩ ∧
      Registered db p.sourceSystem p.paymentAttemptId ∧
      p.predictedAt = p.inputFingerprint.predictedAt
  | _ => True

/-- The prediction a write appends. -/
def Write.prediction? : Write → Option FailurePrediction
  | .appendPrediction p => some p
  | _ => none

/-- Every stored prediction is one. -/
def PredictionRows (db : Database) : Prop := ∀ p ∈ db.predictions, Predicted db (.appendPrediction p)

theorem Predicted.mono {db db' : Database} {w : Write} (h : Predicted db w)
    (hlater : Leads db db') : Predicted db' w := by
  cases w with
  | appendPrediction p => exact ⟨h.1, h.2.1.mono hlater.registry, h.2.2⟩
  | _ => exact trivial

/-- What a call knows once it holds the version lock: its attempt is registered. -/
def PredictionKnows (view : Database) : CallProc → Prop
  | .predictLocked ref _ _ => Registered view ref.sourceSystem ref.paymentAttemptId
  | _ => True

section Rows
variable {model : FailurePredictionModel} {policy : InterventionPolicy} {input : CallInput}
  {reads : ℕ → Database} {now view : Database} {p : CallProc} {o : CallOutcome}

/-- A call that goes on is about to predict only after it has waited for the lock. -/
theorem CallStepped.predictionKnows (h : CallStepped model policy input reads now p o)
    (hreads : ∀ k, Leads (reads k) view) (db : Database) :
    PredictionKnows (match o with | .lock _ _ => view | _ => db) o.next := by
  cases h with
  | predictLock hres => exact (orchestratePrediction_registered hres).mono (hreads 0).registry
  | @executing id t q o' => cases o' <;> exact trivial
  | _ => exact trivial

/-- Connections store predictions of registered attempts. -/
theorem configuredProgram_predicted {ι : Type} (config : ι → ServiceConfig) :
    (configuredProgram config).Provenance Leads PredictionRows Predicted (fun _ _ _ => True)
      (fun view _ p => callKnows config (fun _ => PredictionKnows) view p) where
  grows := (configuredProgram_identified config).grows
  lasting hlater h := h.mono hlater
  collect {db ws} h hws p hp := by
    rcases (Adds.foldl db ws).predictions p hp with hp | hp
    · exact (h p hp).mono (.foldl db ws)
    · exact hws _ hp
  knowing {db db' ws p} hlater h := by
    obtain ⟨i, _ | q⟩ := p
    · trivial
    · cases q with
      | predictLocked ref t inputs => exact Registered.mono h hlater.registry
      | _ => trivial
  arrive {db x ws ps} harr := by
    obtain ⟨rfl, rfl⟩ := configuredProgram_arrive harr
    cases x with
    | event row =>
        exact ⟨by simp [ConfiguredArrival.effect, Predicted], by simp [ConfiguredArrival.effect]⟩
    | connect is =>
        refine ⟨by simp [ConfiguredArrival.effect], fun p hp db' => ?_⟩
        obtain ⟨i, -, rfl⟩ := List.mem_map.mp hp
        trivial
  error _ _ := trivial
  step {db s input o} hrows hreads hknows _ ho := by
    obtain ⟨⟨i, q⟩, pending, locks, views⟩ := s
    obtain ⟨o', rfl, hstep⟩ := configuredStepped ho
    cases hstep with
    | requested hproc =>
        cases hr : input.request with
        | commit => exact fun _ => trivial
        | rollback => exact fun _ => trivial
        | registerAttempt | storeAnalytics => exact ⟨by simp [Predicted], trivial⟩
        | _ => exact ⟨by simp, trivial⟩
    | returned => exact ⟨by simp, trivial⟩
    | raised => exact fun _ => trivial
    | @called p o'' hproc hp hcall =>
        obtain rfl : q = .calling p := hproc
        have hnext := fun db => hcall.predictionKnows hreads db
        cases o'' with
        | write ws next =>
            refine ⟨fun w hw => ?_, hnext _⟩
            have horigin := hcall.origin hw
            cases w with
            | appendPrediction row =>
                obtain ⟨ref, t, inputs, rfl, rfl⟩ := horigin
                refine ⟨rfl, ?_, rfl⟩
                rw [Program.view_wrote]
                exact Registered.mono hknows (Leads.foldl _ ws).registry
            | _ => trivial
        | lock key next => exact hnext db
        | call effect next => exact hnext _
        | commit next => exact absurd rfl (hcall.inside.1 next)
        | rollback next => exact absurd rfl (hcall.inside.2 next)

/-- Every prediction of a reachable store is of a registered attempt. -/
theorem configuredRun_predicted {ι : Type} {config : ι → ServiceConfig}
    {as : List (ConfiguredAction ι)} {w : ConfiguredWorld ι}
    (h : configuredRun config as = some w) : PredictionRows w.db :=
  ((configuredProgram_predicted config).invariant.exec_true
    (.empty fun _ hp => absurd hp List.not_mem_nil) h).store

end Rows

/-! ## Calls for one attempt and time -/

/-- One prediction that is asked for: of which services, for which attempt and time, and in
which order statements return the rows they do not sort. -/
structure PredictionCalls where
  model : FailurePredictionModel
  policy : InterventionPolicy
  ref : AttemptRef
  t : Time
  order : ℕ → ℕ → ℕ := fun _ i => i
  episodeOrder : EpisodeId → ℕ := fun _ => 0

inductive PredictionRequest
  | predict
  | commit
  | rollback
deriving DecidableEq

namespace PredictionCalls

variable (q : PredictionCalls)

/-- The request, as a transaction makes it. -/
def input (r : PredictionRequest) : TransactionInput where
  order := q.order
  episodeOrder := q.episodeOrder
  request := match r with
    | .predict => .predict q.ref q.t
    | .commit => .commit
    | .rollback => .rollback

def reads (db : ℕ → Database) : Reads := ⟨db, q.order, q.episodeOrder⟩

/-- Status and features that a call finds in a store. -/
def inputs (db : Database) : PredictionStatus × Option FeatureSnapshot :=
  predictionInputs ((q.reads fun _ => db).shift 1) q.ref q.t

def fingerprint (db : Database) : PredictionFingerprint :=
  predictionFingerprint q.model q.ref q.t (q.inputs db).2

/-- The latest version of the attempt's prediction. -/
def latest (db : Database) : Option FailurePrediction :=
  Table.latestBy (·.predictionVersion)
    (attemptPredictions db q.ref.sourceSystem q.ref.paymentAttemptId)

/-- The prediction of the attempt from what a store holds. -/
def fresh (db : Database) : FailurePrediction := newPrediction q.model db q.ref q.t (q.inputs db)

/-- The predictions of the attempt at the time. -/
def stored (rows : List FailurePrediction) : List FailurePrediction :=
  rows.filter fun p => p.paymentAttemptId = q.ref.paymentAttemptId ∧
    p.sourceSystem = q.ref.sourceSystem ∧ p.predictedAt = q.t

/-- Whatever is stored for the attempt and time is its latest prediction, from the inputs
that are found now. -/
def Current (db : Database) : Prop :=
  ∀ p ∈ q.stored db.predictions, q.latest db = some p ∧ p.inputFingerprint = q.fingerprint db

/-- Connections that ask for the prediction, any number of times. -/
def program : Program Database Write LockKey InterventionCommand TransactionProc
    PredictionRequest Unit where
  apply := Database.apply
  violates := Database.violates
  clashes := Write.clashes
  clashes_symm := Write.clashes_symm
  step p r reads now := transactionStep q.model q.policy p (q.input r) reads now
  onError _ := .idle
  arrive _ _ := some ([], [.idle])

/-- The call has looked for a stored prediction, and does not yet hold the lock. -/
def checked (s : TransactionSession) : Bool :=
  match s.proc with
  | .calling (.predict _ _) => 25 < s.views.length
  | _ => false

/-- Neither of two connections has looked while the other holds an uncommitted prediction. -/
def CheckedApart (s t : TransactionSession) : Prop :=
  (checked s = true → t.pending = []) ∧ (checked t = true → s.pending = [])

/-! ## One call -/

/-- What a call answers in a store, and what it appends. -/
inductive Answer (db : Database) : FailurePrediction → List FailurePrediction → Prop
  | stored {p} (hlatest : q.latest db = some p) (hinputs : p.inputFingerprint = q.fingerprint db) :
      Answer db p []
  | fresh (hlatest : ∀ p, q.latest db = some p → p.inputFingerprint ≠ q.fingerprint db) :
      Answer db (q.fresh db) [q.fresh db]

/-- The upstream tables are those of another store. -/
structure Upstream (db₀ db : Database) : Prop where
  events : db.events = db₀.events
  analytics : db.analytics = db₀.analytics
  attempts : db.attempts = db₀.attempts

section Answers
variable {q} {db₀ db : Database} {reads : ℕ → Database} {p : FailurePrediction}
  {new : List FailurePrediction}

theorem Upstream.refl (db : Database) : Upstream db db := ⟨rfl, rfl, rfl⟩

theorem exists_answer (q : PredictionCalls) (db : Database) : ∃ p new, q.Answer db p new := by
  by_cases h : ∃ p, q.latest db = some p ∧ p.inputFingerprint = q.fingerprint db
  · obtain ⟨p, hp, hinputs⟩ := h
    exact ⟨p, [], .stored hp hinputs⟩
  · exact ⟨_, _, .fresh fun p hp hinputs => h ⟨p, hp, hinputs⟩⟩

/-- Status and features depend on events and the tables of Stages 2-4. -/
theorem predictionInputs_congr {r r' : Reads} {ref : AttemptRef} {t : Time}
    (hevents : ∀ k, (r.db k).events = (r'.db k).events)
    (hanalytics : ∀ k, (r.db k).analytics = (r'.db k).analytics) (horder : r.order = r'.order)
    (hepisodes : r.episodeOrder = r'.episodeOrder) :
    predictionInputs r ref t = predictionInputs r' ref t := by
  have hpart : ∀ r : Reads, predictionInputs r ref t = predictionInputs
      ⟨fun k => { events := (r.db k).events, analytics := (r.db k).analytics }, r.order,
        r.episodeOrder⟩ ref t := fun _ => rfl
  rw [hpart r, hpart r', horder, hepisodes]
  simp only [hevents, hanalytics]

theorem attemptPredictions_congr {sourceSystem paymentAttemptId : String}
    (hattempts : db.attempts = db₀.attempts) (hpredictions : db.predictions = db₀.predictions) :
    attemptPredictions db sourceSystem paymentAttemptId =
      attemptPredictions db₀ sourceSystem paymentAttemptId := by
  unfold attemptPredictions Database.registeredUnder
  rw [hattempts, hpredictions]

/-- A call whose statements read the same upstream tables depends on what it has looked for. -/
theorem orchestratePrediction_eq (hreads : ∀ k, Upstream db₀ (reads k))
    {row : RegisteredAttempt} (hreg : db₀.require q.ref = .ok row) :
    orchestratePrediction q.model (q.reads reads) q.ref q.t =
      .ok (match q.latest (reads 25) with
        | some l => if l.inputFingerprint = q.fingerprint db₀ then .inl l else .inr (q.inputs db₀)
        | none => .inr (q.inputs db₀)) := by
  have hreq : ((q.reads reads).db 0).require q.ref = .ok row := by
    rw [← hreg]
    unfold Database.require Database.findAttempt
    rw [show ((q.reads reads).db 0).attempts = db₀.attempts from (hreads 0).attempts]
  have hinputs : predictionInputs ((q.reads reads).shift 1) q.ref q.t = q.inputs db₀ :=
    predictionInputs_congr (fun k => (hreads (1 + k)).events) (fun k => (hreads (1 + k)).analytics)
      rfl rfl
  have hlatest : getLatestPrediction ((q.reads reads).shift 25) q.ref = q.latest (reads 25) := rfl
  unfold orchestratePrediction
  simp only [hreq, hinputs, hlatest, bind, Except.bind, pure, Except.pure]
  cases q.latest (reads 25) with
  | none => rfl
  | some l =>
      have hfingerprint : predictionFingerprint q.model q.ref q.t (q.inputs db₀).2 =
          q.fingerprint db₀ := rfl
      simp only [hfingerprint]
      by_cases hl : l.inputFingerprint = q.fingerprint db₀
      · simp only [if_pos hl]
      · simp only [if_neg hl]

theorem newPrediction_eq (hattempts : db.attempts = db₀.attempts)
    (hpredictions : db.predictions = db₀.predictions) :
    newPrediction q.model db q.ref q.t (q.inputs db₀) = q.fresh db₀ := by
  unfold fresh newPrediction
  rw [attemptPredictions_congr hattempts hpredictions]

/-- The answer is the latest prediction of what the call leaves, from the inputs it found. -/
theorem Answer.latest_eq (h : q.Answer db₀ p new) {row : RegisteredAttempt}
    (hreg : db₀.require q.ref = .ok row) (hattempts : db.attempts = db₀.attempts)
    (hpredictions : db.predictions = db₀.predictions ++ new) :
    q.latest db = some p ∧ p.inputFingerprint = q.fingerprint db₀ := by
  cases h with
  | stored hlatest hinputs =>
      rw [List.append_nil] at hpredictions
      unfold latest at hlatest ⊢
      rw [attemptPredictions_congr hattempts hpredictions]
      exact ⟨hlatest, hinputs⟩
  | fresh hlatest =>
      refine ⟨?_, rfl⟩
      have hregistered := (registered_of_require hreg).registeredUnder
      have hregistered' : db.registeredUnder q.ref.sourceSystem q.ref.paymentAttemptId = true := by
        rw [← hregistered]
        unfold Database.registeredUnder
        rw [hattempts]
      have hrows : attemptPredictions db q.ref.sourceSystem q.ref.paymentAttemptId =
          attemptPredictions db₀ q.ref.sourceSystem q.ref.paymentAttemptId ++ [q.fresh db₀] := by
        unfold attemptPredictions
        rw [if_pos hregistered, if_pos hregistered', hpredictions, List.filter_append]
        simp [PredictionCalls.fresh, newPrediction]
      unfold PredictionCalls.latest
      rw [hrows]
      refine Table.latestBy_append_max fun b hb => ?_
      exact Nat.lt_succ_of_le (Table.le_maxOf hb)

end Answers

/-! ## Interleaved calls -/

/-- The rows a transaction has yet to commit: none, or the answer, under the version lock of
the attempt. -/
def PendingAnswer (db₀ : Database) (p : FailurePrediction) (new : List FailurePrediction)
    (db : Database) (s : TransactionSession) : Prop :=
  s.pending = [] ∨ s.pending = [.appendPrediction p] ∧ new = [p] ∧
    db.predictions = db₀.predictions ∧ .version q.ref.paymentAttemptId ∈ s.locks

/-- What a transaction sees: the same upstream tables, and the predictions of the start or
with the answer. -/
structure Sees (db₀ : Database) (new : List FailurePrediction) (db : Database) : Prop where
  upstream : Upstream db₀ db
  predictions : db.predictions = db₀.predictions ∨ db.predictions = db₀.predictions ++ new

/-- Where a call stands. What a call has looked for is still what it sees, and a call that
holds the lock is the first to store the answer. -/
def CallState (db₀ : Database) (p : FailurePrediction) (new : List FailurePrediction)
    (view : Database) (s : TransactionSession) : Prop :=
  match s.proc with
  | .idle => True
  | .calling (.predict ref t) => (ref = q.ref ∧ t = q.t) ∧ (∀ v ∈ s.views, Upstream db₀ v) ∧
      ∀ v, s.views[25]? = some v → v.predictions = view.predictions
  | .calling (.predictLocked ref t inputs) => (ref = q.ref ∧ t = q.t ∧ inputs = q.inputs db₀) ∧
      (.version q.ref.paymentAttemptId ∈ s.locks ∧ s.pending = []) ∧
      (new = [p] ∧ p = q.fresh db₀ ∧ view.predictions = db₀.predictions) ∧
      ∀ v ∈ s.views, Upstream db₀ v ∧ v.predictions = db₀.predictions
  | .calling (.returned result) => result = .prediction p ∧
      view.predictions = db₀.predictions ++ new
  | .calling _ => False

section Calls
variable {q} {db₀ db : Database} {p : FailurePrediction} {new : List FailurePrediction}
  {s t : TransactionSession} {r : PredictionRequest} {o : TransactionOutcome}

theorem program_view (db : Database) (s : TransactionSession) :
    q.program.view db s = s.pending.foldl Database.apply db := rfl

/-- A transaction sees the upstream tables and what it has yet to commit. -/
theorem Sees.view (h : Sees db₀ new db) (hs : q.PendingAnswer db₀ p new db s) :
    Sees db₀ new (q.program.view db s) := by
  rcases hs with hs | ⟨hs, hnew, hrows, -⟩
  · rw [program_view, hs]
    exact h
  · rw [program_view, hs]
    refine ⟨⟨h.upstream.events, h.upstream.analytics, h.upstream.attempts⟩, .inr ?_⟩
    rw [hnew, ← hrows]
    rfl

/-- A transaction that has stored the answer sees it. -/
theorem PendingAnswer.view (hs : q.PendingAnswer db₀ p new db s) (hne : s.pending ≠ []) :
    (q.program.view db s).predictions = db₀.predictions ++ new := by
  rcases hs with hs | ⟨hs, rfl, hrows, -⟩
  · exact absurd hs hne
  · rw [program_view, hs, ← hrows]
    rfl

/-- What the statements of a call read are the same upstream tables. -/
theorem reads_upstream (h : Sees db₀ new (q.program.view db s))
    (hviews : ∀ v ∈ s.views, Upstream db₀ v) (k : ℕ) : Upstream db₀ (q.program.reads db s k) := by
  rcases q.program.reads_cases db s k with hmem | heq
  · exact hviews _ hmem
  · rw [heq]
    exact h.upstream

/-- What a call has looked for is what it sees. -/
theorem reads_checked (h : ∀ v, s.views[25]? = some v →
      v.predictions = (q.program.view db s).predictions) :
    (q.program.reads db s 25).predictions = (q.program.view db s).predictions := by
  unfold Program.reads
  rw [List.getD_eq_getElem?_getD]
  cases hv : s.views[25]? with
  | none => rfl
  | some v => exact h v hv

/-- A call returns the answer, or waits for the lock as long as nobody has stored it. -/
theorem predict_outcome (hanswer : q.Answer db₀ p new) {row : RegisteredAttempt}
    (hreg : db₀.require q.ref = .ok row) (hsees : Sees db₀ new (q.program.view db s))
    (hproc : s.proc = .calling (.predict q.ref q.t)) (hviews : ∀ v ∈ s.views, Upstream db₀ v)
    (hchecked : ∀ v, s.views[25]? = some v →
      v.predictions = (q.program.view db s).predictions)
    (ho : q.program.outcome db s r = some o) :
    ((q.program.view db s).predictions = db₀.predictions ++ new ∧
        o = .write [] (.calling (.returned (.prediction p)))) ∨
      (new = [p] ∧ p = q.fresh db₀ ∧ (q.program.view db s).predictions = db₀.predictions) ∧
        o = .lock (.version q.ref.paymentAttemptId)
          (.calling (.predictLocked q.ref q.t (q.inputs db₀))) := by
  have hreads := reads_upstream hsees hviews
  have hrows := reads_checked hchecked
  have hcall : orchestratePrediction q.model (q.reads (q.program.reads db s)) q.ref q.t = _ :=
    orchestratePrediction_eq hreads hreg
  have hattempts : (q.program.reads db s 25).attempts = db₀.attempts := (hreads 25).attempts
  have hout : q.program.outcome db s r = some (match orchestratePrediction q.model
      (q.reads (q.program.reads db s)) q.ref q.t with
    | .error _ => .rollback .idle
    | .ok (.inl p) => .write [] (.calling (.returned (.prediction p)))
    | .ok (.inr inputs) => .lock (.version q.ref.paymentAttemptId)
        (.calling (.predictLocked q.ref q.t inputs))) := by
    have hstep : q.program.outcome db s r = transactionStep q.model q.policy s.proc (q.input r)
      (q.program.reads db s) (q.program.view db s) := rfl
    have hinput : (q.input r).toCallInput.reads (q.program.reads db s) =
      q.reads (q.program.reads db s) := rfl
    rw [hstep, hproc]
    simp only [transactionStep, callStep, hinput, bind, Except.bind, pure, Except.pure]
    cases orchestratePrediction q.model (q.reads (q.program.reads db s)) q.ref q.t with
    | error e => rfl
    | ok res => cases res <;> rfl
  rw [hout, hcall] at ho
  rw [← hrows]
  by_cases hdone : (q.program.reads db s 25).predictions = db₀.predictions ++ new
  · obtain ⟨hlatest, hinputs⟩ := hanswer.latest_eq hreg hattempts hdone
    simp only [hlatest, hinputs, if_true, Option.some.injEq] at ho
    exact .inl ⟨hdone, ho.symm⟩
  · have hstart : (q.program.reads db s 25).predictions = db₀.predictions :=
      hrows ▸ hsees.predictions.resolve_right (hrows ▸ hdone)
    cases hanswer with
    | stored => exact absurd (hstart.trans (List.append_nil _).symm) hdone
    | fresh hlatest =>
        have heq : q.latest (q.program.reads db s 25) = q.latest db₀ := by
          unfold latest
          rw [attemptPredictions_congr hattempts hstart]
        refine .inr ⟨⟨rfl, rfl, hstart⟩, ?_⟩
        rw [heq] at ho
        cases hl : q.latest db₀ with
        | none =>
            simp only [hl, Option.some.injEq] at ho
            exact ho.symm
        | some l =>
            simp only [hl, if_neg (hlatest l hl), Option.some.injEq] at ho
            exact ho.symm

/-- What one step of a connection can be. -/
inductive AnswerStepped (q : PredictionCalls) (db₀ : Database) (p : FailurePrediction)
    (new : List FailurePrediction) (view : Database) (s : TransactionSession) :
    TransactionOutcome → Prop
  | request (hproc : s.proc = .idle) :
      AnswerStepped q db₀ p new view s (.write [] (.calling (.predict q.ref q.t)))
  | commit (hproc : s.proc = .idle) : AnswerStepped q db₀ p new view s (.commit .idle)
  | rollback (hproc : s.proc = .idle) : AnswerStepped q db₀ p new view s (.rollback .idle)
  | found (hproc : s.proc = .calling (.predict q.ref q.t))
      (hrows : view.predictions = db₀.predictions ++ new) :
      AnswerStepped q db₀ p new view s (.write [] (.calling (.returned (.prediction p))))
  | wait (hproc : s.proc = .calling (.predict q.ref q.t))
      (hfirst : new = [p] ∧ p = q.fresh db₀ ∧ view.predictions = db₀.predictions) :
      AnswerStepped q db₀ p new view s (.lock (.version q.ref.paymentAttemptId)
        (.calling (.predictLocked q.ref q.t (q.inputs db₀))))
  | append (hproc : s.proc = .calling (.predictLocked q.ref q.t (q.inputs db₀)))
      (hfirst : new = [p] ∧ p = q.fresh db₀ ∧ view.predictions = db₀.predictions) :
      AnswerStepped q db₀ p new view s
        (.write [.appendPrediction p] (.calling (.returned (.prediction p))))
  | returned (hproc : s.proc = .calling (.returned (.prediction p))) :
      AnswerStepped q db₀ p new view s (.write [] .idle)

theorem answerStepped (hanswer : q.Answer db₀ p new) {row : RegisteredAttempt}
    (hreg : db₀.require q.ref = .ok row) (hsees : Sees db₀ new (q.program.view db s))
    (hstate : q.CallState db₀ p new (q.program.view db s) s)
    (ho : q.program.outcome db s r = some o) :
    AnswerStepped q db₀ p new (q.program.view db s) s o := by
  unfold CallState at hstate
  cases hproc : s.proc with
  | idle =>
      have hstep : q.program.outcome db s r = transactionStep q.model q.policy s.proc (q.input r)
        (q.program.reads db s) (q.program.view db s) := rfl
      rw [hstep, hproc] at ho
      obtain rfl := Option.some.inj ho
      cases r
      · exact .request hproc
      · exact .commit hproc
      · exact .rollback hproc
  | calling c =>
      rw [hproc] at hstate
      cases c with
      | predict ref t =>
          obtain ⟨⟨rfl, rfl⟩, hviews, hchecked⟩ := hstate
          rcases predict_outcome hanswer hreg hsees hproc hviews hchecked ho with
            ⟨hrows, rfl⟩ | ⟨hfirst, rfl⟩
          · exact .found hproc hrows
          · exact .wait hproc hfirst
      | predictLocked ref t inputs =>
          obtain ⟨⟨rfl, rfl, rfl⟩, -, hfirst, hviews⟩ := hstate
          obtain ⟨hnew, hp, hrows⟩ := hfirst
          have hstep : q.program.outcome db s r = transactionStep q.model q.policy s.proc
            (q.input r) (q.program.reads db s) (q.program.view db s) := rfl
          rw [hstep, hproc] at ho
          obtain rfl := Option.some.inj ho
          have hread : (q.program.reads db s 0).attempts = db₀.attempts ∧
              (q.program.reads db s 0).predictions = db₀.predictions := by
            rcases q.program.reads_cases db s 0 with hmem | heq
            · exact ⟨(hviews _ hmem).1.attempts, (hviews _ hmem).2⟩
            · exact heq ▸ ⟨hsees.upstream.attempts, hrows⟩
          simp only [newPrediction_eq hread.1 hread.2, ← hp]
          exact .append hproc ⟨hnew, hp, hrows⟩
      | returned result =>
          obtain ⟨rfl, -⟩ := hstate
          have hstep : q.program.outcome db s r = transactionStep q.model q.policy s.proc
            (q.input r) (q.program.reads db s) (q.program.view db s) := rfl
          rw [hstep, hproc] at ho
          obtain rfl := Option.some.inj ho
          exact .returned hproc
      | _ => exact absurd hstate id

/-- Connections of which none has looked while another holds an uncommitted answer give the
answer of one call. -/
theorem program_invariant (hanswer : q.Answer db₀ p new) {row : RegisteredAttempt}
    (hreg : db₀.require q.ref = .ok row) :
    q.program.ExclusiveInvariant CheckedApart (fun _ _ _ => True) (Sees db₀ new) fun db s =>
      q.PendingAnswer db₀ p new db s ∧ q.CallState db₀ p new (q.program.view db s) s where
  arrive {db x ws ps} hG harr _ := by
    obtain ⟨rfl, rfl⟩ := Prod.mk.inj (Option.some.inj harr).symm
    refine ⟨hG, fun s hs _ => hs, fun p hp => ?_⟩
    obtain rfl := List.mem_singleton.mp hp
    exact ⟨.inl rfl, trivial⟩
  look {db s} hG h := by
    refine ⟨h.1, ?_⟩
    have hsees := hG.view h.1
    have hstate := h.2
    unfold CallState at hstate ⊢
    simp only [Program.looked]
    have hview : q.program.view db { s with views := s.views ++ [q.program.view db s] } =
      q.program.view db s := rfl
    rw [hview]
    cases hproc : s.proc with
    | idle => trivial
    | calling c =>
        rw [hproc] at hstate
        cases c with
        | predict ref t =>
            obtain ⟨href, hviews, hchecked⟩ := hstate
            refine ⟨href, fun v hv => ?_, fun v hv => ?_⟩
            · rcases List.mem_append.mp hv with hv | hv
              · exact hviews v hv
              · exact List.mem_singleton.mp hv ▸ hsees.upstream
            · rw [List.getElem?_append] at hv
              split at hv
              · exact hchecked v hv
              · rw [List.mem_singleton.mp (List.mem_of_getElem? hv)]
        | predictLocked ref t inputs =>
            obtain ⟨href, hlock, hfirst, hviews⟩ := hstate
            refine ⟨href, hlock, hfirst, fun v hv => ?_⟩
            rcases List.mem_append.mp hv with hv | hv
            · exact hviews v hv
            · exact List.mem_singleton.mp hv ▸ ⟨hsees.upstream, hfirst.2.2⟩
        | _ => exact hstate
  abort _ _ := ⟨.inl rfl, trivial⟩
  lock {db s r key next} hG h _ ho := by
    have hstep := answerStepped hanswer hreg (hG.view h.1) h.2 ho
    generalize hlock : Outcome.lock key next = o at hstep
    cases hstep with
    | wait hproc hfirst =>
        cases hlock
        have hpending : s.pending = [] := by
          by_contra hne
          have hrows := h.1.view hne
          rw [hfirst.2.2, hfirst.1] at hrows
          simp at hrows
        refine ⟨.inl hpending, ⟨rfl, rfl, rfl⟩, ⟨List.mem_cons_self, hpending⟩, hfirst, ?_⟩
        simp [Session.locked]
    | _ => cases hlock
  write {db s r ws next} hG h _ ho _ := by
    have hstep := answerStepped hanswer hreg (hG.view h.1) h.2 ho
    have hsame : ∀ next, q.program.view db (s.wrote [] next) = q.program.view db s := fun next => by
      rw [Program.view_wrote]
      rfl
    generalize hwrite : Outcome.write ws next = o at hstep
    cases hstep with
    | request hproc =>
        cases hwrite
        refine ⟨by simpa [Session.wrote, PendingAnswer] using h.1, ⟨rfl, rfl⟩, ?_, ?_⟩ <;>
          simp [Session.wrote]
    | found hproc hrows =>
        cases hwrite
        refine ⟨by simpa [Session.wrote, PendingAnswer] using h.1, rfl, ?_⟩
        rw [hsame]
        exact hrows
    | append hproc hfirst =>
        cases hwrite
        have hstate := h.2
        simp only [CallState, hproc] at hstate
        obtain ⟨-, ⟨hlock, hpending⟩, ⟨hnew, -, hrows⟩, -⟩ := hstate
        have hdb : db.predictions = db₀.predictions := by
          rw [program_view, hpending] at hrows
          exact hrows
        refine ⟨.inr ⟨by simp [Session.wrote, hpending], hnew, hdb, hlock⟩, rfl, ?_⟩
        rw [Program.view_wrote, hnew, ← hrows]
        rfl
    | returned hproc =>
        cases hwrite
        exact ⟨by simpa [Session.wrote, PendingAnswer] using h.1, trivial⟩
    | _ => cases hwrite
  call {db s r effect next} hG h _ ho := by
    have hstep := answerStepped hanswer hreg (hG.view h.1) h.2 ho
    generalize hcall : Outcome.call effect next = o at hstep
    cases hstep <;> cases hcall
  rollback {db s r next} hG h _ ho := by
    have hstep := answerStepped hanswer hreg (hG.view h.1) h.2 ho
    generalize hrollback : Outcome.rollback next = o at hstep
    cases hstep <;> cases hrollback
    exact ⟨.inl rfl, trivial⟩
  commit {db s r next} hG h _ ho := by
    have hstep := answerStepped hanswer hreg (hG.view h.1) h.2 ho
    generalize hcommit : Outcome.commit next = o at hstep
    cases hstep with
    | commit hproc =>
        cases hcommit
        refine ⟨hG.view h.1, ⟨.inl rfl, trivial⟩, fun t ht hapart hX => ?_⟩
        rcases h.1 with hnone | ⟨hpending, hnew, hrows, hlock⟩
        · rw [program_view, hnone]
          exact ht
        have hfree : .version q.ref.paymentAttemptId ∉ t.locks := hapart.locks _ hlock
        have hnone : t.pending = [] := by
          rcases ht.1 with hnone | ⟨-, -, -, hlock'⟩
          · exact hnone
          · exact absurd hlock' hfree
        refine ⟨.inl hnone, ?_⟩
        have hstate := ht.2
        unfold CallState at hstate ⊢
        cases htproc : t.proc with
        | idle => trivial
        | calling c =>
            rw [htproc] at hstate
            cases c with
            | predict ref t' =>
                obtain ⟨href, hviews, -⟩ := hstate
                refine ⟨href, hviews, fun v hv => ?_⟩
                have hchecked : checked t = true := by
                  have hlt : 25 < t.views.length := (List.getElem?_eq_some_iff.mp hv).1
                  simpa [checked, htproc] using hlt
                exact absurd (hX.2 hchecked) (by simp [hpending])
            | predictLocked ref t' inputs => exact absurd hstate.2.1.1 hfree
            | returned result =>
                have hseen := hstate.2
                rw [program_view, hnone] at hseen
                rw [List.foldl_nil, hrows, hnew] at hseen
                simp at hseen
            | _ => exact hstate
    | _ => cases hcommit

/-- The next version of an attempt is nobody else's. -/
theorem fresh_sameVersion (hrows : PredictionRows db₀) {row : RegisteredAttempt}
    (hreg : db₀.require q.ref = .ok row) {old : FailurePrediction} (hold : old ∈ db₀.predictions) :
    (q.fresh db₀).sameVersion old = false := by
  obtain ⟨hid, hregistered, -⟩ := hrows old hold
  have hself := registered_of_require hreg
  -- a row of the attempt is of its provider, and was counted
  have hcounted : old.paymentAttemptId = q.ref.paymentAttemptId →
      old.predictionVersion < (q.fresh db₀).predictionVersion := by
    intro hkey
    have hsource := (hregistered.same hself hkey).2
    refine Nat.lt_succ_of_le (Table.le_maxOf ?_)
    unfold attemptPredictions
    rw [if_pos hself.registeredUnder]
    exact List.mem_filter.mpr ⟨hold, by simp [hkey, hsource]⟩
  by_contra hsame
  rw [Bool.not_eq_false, FailurePrediction.sameVersion] at hsame
  simp only [Bool.or_eq_true, Bool.and_eq_true, beq_iff_eq] at hsame
  rcases hsame with hsame | ⟨⟨hkey, -⟩, hversion⟩
  · rw [hid] at hsame
    obtain ⟨hkey, hversion⟩ := PredictionId.mk.inj hsame
    exact absurd (hcounted hkey.symm) (by rw [← hversion]; exact Nat.lt_irrefl _)
  · exact absurd (hcounted hkey.symm) (by rw [← hversion]; exact Nat.lt_irrefl _)

/-- No statement of such a call violates a constraint. -/
theorem program_violatesAny (hrows : PredictionRows db₀) (hanswer : q.Answer db₀ p new)
    {row : RegisteredAttempt} (hreg : db₀.require q.ref = .ok row) (hG : Sees db₀ new db)
    (hs : q.PendingAnswer db₀ p new db s ∧ q.CallState db₀ p new (q.program.view db s) s)
    {ws : List Write} {next : TransactionProc}
    (ho : q.program.outcome db s r = some (.write ws next)) :
    q.program.violatesAny (q.program.view db s) ws = false := by
  have hstep := answerStepped hanswer hreg (hG.view hs.1) hs.2 ho
  generalize hwrite : Outcome.write ws next = o at hstep
  cases hstep with
  | append hproc hfirst =>
      cases hwrite
      obtain ⟨-, rfl, hview⟩ := hfirst
      have hnone : (q.program.view db s).predictions.any (q.fresh db₀).sameVersion = false := by
        rw [hview]
        exact List.any_eq_false.mpr fun old hold => by simp [fresh_sameVersion hrows hreg hold]
      exact Bool.or_eq_false_iff.mpr ⟨hnone, rfl⟩
  | request | found | returned => cases hwrite; rfl
  | _ => cases hwrite

/-- A call leaves one prediction of the attempt and time: its answer. -/
theorem Answer.stored_eq (hanswer : q.Answer db₀ p new) (hrows : PredictionRows db₀)
    (hunique : Unique db₀) (hcurrent : q.Current db₀) :
    q.stored (db₀.predictions ++ new) = [p] ∧
      (q.stored db₀.predictions = [] ∨ q.stored db₀.predictions = [p]) := by
  cases hanswer with
  | stored hlatest hinputs =>
      have hmem := Table.latestBy_mem hlatest
      unfold attemptPredictions at hmem
      split at hmem
      · obtain ⟨hp, hkey⟩ := List.mem_filter.mp hmem
        have hkey := of_decide_eq_true hkey
        have hstored : p ∈ q.stored db₀.predictions := by
          refine List.mem_filter.mpr ⟨hp, ?_⟩
          have htime : p.predictedAt = q.t := by
            rw [(hrows p hp).2.2, hinputs]
            rfl
          simp [hkey.1, hkey.2, htime]
        have hall : ∀ a ∈ q.stored db₀.predictions, a = p := fun a ha =>
          Option.some.inj ((hcurrent a ha).1.symm.trans hlatest)
        have hpair : (q.stored db₀.predictions).Pairwise fun a b => b.sameVersion a = false :=
          hunique.predictions.filter _
        have hone : q.stored db₀.predictions = [p] := by
          rcases hs : q.stored db₀.predictions with _ | ⟨a, _ | ⟨b, rest⟩⟩
          · simp [hs] at hstored
          · rw [hall a (by simp [hs])]
          · have ha := hall a (by simp [hs])
            have hb := hall b (by simp [hs])
            rw [hs] at hpair
            have hne := (List.pairwise_cons.mp hpair).1 b List.mem_cons_self
            rw [ha, hb] at hne
            simp [FailurePrediction.sameVersion] at hne
        exact ⟨by rw [List.append_nil, hone], .inr hone⟩
      · cases hmem
  | fresh hlatest =>
      have hnone : q.stored db₀.predictions = [] := by
        refine List.eq_nil_iff_forall_not_mem.mpr fun a ha => ?_
        obtain ⟨hlast, hinputs⟩ := hcurrent a ha
        exact hlatest a hlast hinputs
      refine ⟨?_, .inl hnone⟩
      have hself : q.stored [q.fresh db₀] = [q.fresh db₀] := by
        simp [PredictionCalls.stored, PredictionCalls.fresh, newPrediction]
      rw [PredictionCalls.stored, List.filter_append]
      rw [PredictionCalls.stored] at hnone hself
      rw [hnone, hself, List.nil_append]

end Calls

/-! ## Runs -/

/-- The predictions, as a table that is appended to. -/
def table : LockedTable Database Write LockKey FailurePrediction where
  rows := Database.predictions
  row? := Write.prediction?
  guards
    | .version key, p => p.paymentAttemptId = key
    | _, _ => false

theorem table_appends : table.Appends q.program := fun db w => by
  cases w with
  | registerAttempt row =>
      have hrow : (db.apply (.registerAttempt row)).predictions = db.predictions := by
        simp only [Database.apply]
        split <;> rfl
      exact hrow.trans (List.append_nil _).symm
  | appendPrediction row => rfl
  | _ => exact (List.append_nil _).symm

/-- After a run from a store: no call raises, every call returns the one answer, at most that
one is stored, and it is stored once the transaction of a call has committed. -/
structure Single (db₀ : Database) (as : List (Action PredictionRequest Unit))
    (w : TransactionWorld) (p : FailurePrediction) : Prop where
  completes : ∀ s ∈ w.sessions, ∀ c r, s.proc = .calling c →
    ∃ o, q.program.outcome w.db s r = some o ∧ ∀ next, o ≠ .rollback next
  noViolation : ¬Run.Occurs q.program.worldStep ⟨db₀, [], []⟩ as
    fun u a => q.program.raises u a = true
  returned : ∀ s ∈ w.sessions, ∀ result, s.proc = .calling (.returned result) →
    result = .prediction p ∧ q.stored (q.program.view w.db s).predictions = [p]
  stored : q.stored w.db.predictions = [] ∨ q.stored w.db.predictions = [p]
  committed : ∀ as₁ as₂ u j s s' result, as = as₁ ++ as₂ →
    Run.exec q.program.worldStep ⟨db₀, [], []⟩ as₁ = some u → u.sessions[j]? = some s →
    s.proc = .calling (.returned result) →
    Run.Guarded q.program.worldStep (fun v a => ¬LockedTable.undoes q.program j v a) u as₂ →
    w.sessions[j]? = some s' → s'.pending = [] → q.stored w.db.predictions = [p]

section Runs
variable {q} {db₀ : Database} {p : FailurePrediction} {new : List FailurePrediction}
  {as : List (Action PredictionRequest Unit)} {w : TransactionWorld}

/-- A connection always goes on. -/
theorem program_outcome (db : Database) (s : TransactionSession) (r : PredictionRequest) :
    ∃ o, q.program.outcome db s r = some o := by
  have hstep : q.program.outcome db s r = transactionStep q.model q.policy s.proc (q.input r)
    (q.program.reads db s) (q.program.view db s) := rfl
  rw [hstep]
  cases s.proc with
  | idle => exact ⟨_, rfl⟩
  | calling c =>
      cases c with
      | returned result => exact ⟨_, rfl⟩
      | _ => simp only [transactionStep]; split <;> exact ⟨_, rfl⟩

/-- Calls for a prediction that is stored at most as the latest version, of which none has
looked while another holds an uncommitted prediction: whatever the interleaving, they give
one answer and store it once. -/
theorem predictions_single {ι : Type} {config : ι → ServiceConfig}
    {as₀ : List (ConfiguredAction ι)} {w₀ : ConfiguredWorld ι} {row : RegisteredAttempt}
    (h₀ : configuredRun config as₀ = some w₀) (hreg : w₀.db.require q.ref = .ok row)
    (hcurrent : q.Current w₀.db)
    (hrun : Run.exec q.program.worldStep ⟨w₀.db, [], []⟩ as = some w)
    (hapart : Run.Guarded q.program.worldStep (fun u _ => Program.Exclusive CheckedApart u)
      ⟨w₀.db, [], []⟩ as) :
    ∃ p, q.Single w₀.db as w p := by
  obtain ⟨p, new, hanswer⟩ := q.exists_answer w₀.db
  have hrows := configuredRun_predicted h₀
  obtain ⟨hone, hbefore⟩ := hanswer.stored_eq hrows (configuredRun_met h₀).store hcurrent
  have hsymm : ∀ s t : TransactionSession, CheckedApart s t → CheckedApart t s :=
    fun _ _ h => ⟨h.2, h.1⟩
  have hI := program_invariant hanswer hreg
  have hstart : q.program.Good (Sees w₀.db new) (fun db s => q.PendingAnswer w₀.db p new db s ∧
      q.CallState w₀.db p new (q.program.view db s) s) ⟨w₀.db, [], []⟩ :=
    .empty ⟨.refl _, .inl rfl⟩
  have hgood := hI.exec hsymm hstart hapart hrun
  have hstored : ∀ {db}, Sees w₀.db new db → q.stored db.predictions = [] ∨
      q.stored db.predictions = [p] := by
    rintro db ⟨-, hdb | hdb⟩ <;> rw [hdb]
    · exact hbefore
    · exact .inr hone
  have hreturned : ∀ {db s result}, q.CallState w₀.db p new (q.program.view db s) s →
      s.proc = .calling (.returned result) → result = .prediction p ∧
        q.stored (q.program.view db s).predictions = [p] := by
    intro db s result hs hproc
    simp only [CallState, hproc] at hs
    exact ⟨hs.1, by rw [hs.2, hone]⟩
  refine ⟨p, ?_, ?_, fun s hs result hproc => ?_, hstored hgood.store, ?_⟩
  · intro s hs c r hproc
    obtain ⟨o, ho⟩ := program_outcome w.db s r
    have hstate := hgood.session s hs
    refine ⟨o, ho, fun next heq => ?_⟩
    have hstep := answerStepped hanswer hreg (hgood.store.view hstate.1) hstate.2 ho
    cases hstep with
    | rollback hidle => rw [hproc] at hidle; cases hidle
    | _ => cases heq
  · exact hI.not_raises hsymm (fun hG hs ho => program_violatesAny hrows hanswer hreg hG hs ho)
      hstart hapart
  · exact hreturned (hgood.session s hs).2 hproc
  · rintro as₁ as₂ u j s s' result rfl hu hs hproc hkept hs' hpending
    have hgoodu := hI.exec hsymm hstart (Run.guarded_append hu hapart).1 hu
    obtain ⟨-, hview⟩ := hreturned (hgoodu.session s (List.mem_of_getElem? hs)).2 hproc
    rw [Run.exec_append_of_eq hu] at hrun
    have hmem : p ∈ q.stored (q.program.view u.db s).predictions := by simp [hview]
    obtain ⟨hp, hkey⟩ := List.mem_filter.mp hmem
    have hrow : p ∈ w.db.predictions :=
      (table_appends q).mem_exec hrun hkept hs hs' hpending hp
    refine (hstored hgood.store).resolve_left fun hnone => ?_
    have hin : p ∈ q.stored w.db.predictions := List.mem_filter.mpr ⟨hrow, hkey⟩
    simp [hnone] at hin

end Runs

instance (s t : TransactionSession) : Decidable (CheckedApart s t) :=
  inferInstanceAs (Decidable ((checked s = true → _) ∧ (checked t = true → _)))

instance (w : TransactionWorld) : Decidable (Program.Exclusive CheckedApart w) :=
  inferInstanceAs (Decidable (w.sessions.Pairwise CheckedApart))

end PredictionCalls

/-! ### Calls that look before either has stored -/

namespace PredictionExample

def config : Unit → ServiceConfig := fun _ => ⟨deterministicBaselineModel, getDefaultPolicy⟩

def calls : PredictionCalls where
  model := deterministicBaselineModel
  policy := getDefaultPolicy
  ref := ⟨razorpaySourceSystem, "pay_1", "pay_1", validAttemptIdentity_pay_1⟩
  t := 10

/-- The attempt is registered. -/
def start : List (ConfiguredAction Unit) :=
  [.arrive (.connect [()]),
    .advance 0 { request := .registerAttempt ⟨"pay_1", razorpaySourceSystem, "pay_1", 0⟩ },
    .advance 0 { request := .commit }]

/-- Connection `i` asks for the prediction, and its statements before the lock have read. -/
def look (i : ℕ) : List (Action PredictionRequest Unit) :=
  .advance i .predict :: List.replicate 26 (.look i)

/-- The call waits for the lock, appends and returns, and the transaction commits. -/
def finish (i : ℕ) : List (Action PredictionRequest Unit) :=
  List.replicate 4 (.advance i .commit)

/-- One call after the other; the second finds the prediction. -/
def serial : List (Action PredictionRequest Unit) :=
  [.arrive (), .arrive ()] ++ look 0 ++ finish 0 ++ look 1 ++ List.replicate 3 (.advance 1 .commit)

/-- Both calls look before either has the lock. -/
def overlap : List (Action PredictionRequest Unit) :=
  [.arrive (), .arrive ()] ++ look 0 ++ look 1 ++ finish 0 ++ finish 1

/-- The attempt is registered, and has no prediction yet. -/
theorem start_facts : ∃ w₀ row, configuredRun config start = some w₀ ∧
    w₀.db.require calls.ref = .ok row ∧ calls.Current w₀.db := by
  have hrun : ((configuredRun config start).map fun w₀ =>
      decide (w₀.db.predictions = [] ∧ (w₀.db.require calls.ref).toOption.isSome)) =
        some true := by decide +kernel
  obtain ⟨w₀, hw₀, hfacts⟩ := Option.map_eq_some_iff.mp hrun
  obtain ⟨hnone, hrequire⟩ := of_decide_eq_true hfacts
  cases hreq : w₀.db.require calls.ref with
  | error e => simp [hreq, Except.toOption] at hrequire
  | ok row => exact ⟨w₀, row, hw₀, hreq, fun p hp => by simp [PredictionCalls.stored, hnone] at hp⟩

theorem serial_facts : ((configuredRun config start).bind fun w₀ =>
    (Run.execGuarded calls.program.worldStep
      (fun u _ => Program.Exclusive PredictionCalls.CheckedApart u) ⟨w₀.db, [], []⟩ serial).map
      fun w => decide ((calls.stored w.db.predictions).length = 1)) = some true := by
  decide +kernel

theorem overlap_facts : ((configuredRun config start).bind fun w₀ =>
    (Run.exec calls.program.worldStep ⟨w₀.db, [], []⟩ overlap).map fun w =>
      decide ((calls.stored w.db.predictions).length = 2 ∧
        ∀ s ∈ w.sessions, s.proc = .idle ∧ s.pending = [])) = some true := by
  decide +kernel

end PredictionExample

open PredictionExample in
theorem predictions_single_serial : ∃ w₀ w p, configuredRun config start = some w₀ ∧
    Run.exec calls.program.worldStep ⟨w₀.db, [], []⟩ serial = some w ∧
    (calls.stored w.db.predictions).length = 1 ∧ calls.Single w₀.db serial w p := by
  obtain ⟨w₀, row, hw₀, hreg, hcurrent⟩ := start_facts
  have hfacts := serial_facts
  rw [hw₀, Option.bind_some] at hfacts
  obtain ⟨w, hw, hlength⟩ := Option.map_eq_some_iff.mp hfacts
  obtain ⟨hapart, hrun⟩ := Run.execGuarded_eq_some.mp hw
  obtain ⟨p, hp⟩ := PredictionCalls.predictions_single hw₀ hreg hcurrent hrun hapart
  exact ⟨w₀, w, p, hw₀, hrun, of_decide_eq_true hlength, hp⟩

open PredictionExample in
/-- Two calls that have both looked store two predictions; every transaction has committed. -/
theorem predictions_not_single : ∃ w₀ row w, configuredRun config start = some w₀ ∧
    w₀.db.require calls.ref = .ok row ∧ calls.Current w₀.db ∧
    Run.exec calls.program.worldStep ⟨w₀.db, [], []⟩ overlap = some w ∧
    (∀ s ∈ w.sessions, s.proc = .idle ∧ s.pending = []) ∧
    (calls.stored w.db.predictions).length = 2 ∧ ∀ p, ¬calls.Single w₀.db overlap w p := by
  obtain ⟨w₀, row, hw₀, hreg, hcurrent⟩ := start_facts
  have hfacts := overlap_facts
  rw [hw₀, Option.bind_some] at hfacts
  obtain ⟨w, hrun, hfacts⟩ := Option.map_eq_some_iff.mp hfacts
  obtain ⟨hlength, hidle⟩ := of_decide_eq_true hfacts
  refine ⟨w₀, row, w, hw₀, hreg, hcurrent, hrun, hidle, hlength, fun p hp => ?_⟩
  rcases hp.stored with hnone | hone
  · simp [hnone] at hlength
  · simp [hone] at hlength

end RevenueRecovery
