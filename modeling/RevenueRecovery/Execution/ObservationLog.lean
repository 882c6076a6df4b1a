import RevenueRecovery.Rows
import RevenueRecovery.Services.Transactions

/-!
# Stage 7: the observation log

The observations of a command are numbered `1, 2, …` in the order they are stored, however
observing transactions interleave: the number is read as the highest stored one plus one,
and the unique constraints reject what would break this.

## Main definitions
* `observationsOf` : the stored observations of a command.
* `NumberedObservations` : they are numbered in the order they were stored.
* `ObservesByVersion` : the programs that number observations this way.
-/
namespace RevenueRecovery

open Transaction

/-- The stored observations of a command, oldest first. -/
def observationsOf (db : Database) (id : CommandId) : List PaymentOutcomeObservation :=
  db.observations.filter fun o => o.commandId = id

theorem mem_observationsOf {db : Database} {id : CommandId} {o : PaymentOutcomeObservation} :
    o ∈ observationsOf db id ↔ o ∈ db.observations ∧ o.commandId = id := by
  simp [observationsOf]

theorem observationsOf_subset {db db' : Database} (h : Keeps db db') (id : CommandId) :
    observationsOf db id ⊆ observationsOf db' id := by
  intro o ho
  rw [mem_observationsOf] at ho ⊢
  exact ⟨h.observations ho.1, ho.2⟩

/-- The observations that writes insert follow those of the store. -/
theorem observationsOf_foldl (db : Database) (ws : List Write) (id : CommandId) :
    observationsOf (ws.foldl Database.apply db) id = observationsOf db id ++
      (ws.filterMap Write.observation?).filter fun o => o.commandId = id := by
  rw [observationsOf, Database.observations_foldl, List.filter_append]
  rfl

/-- The observations of every command are numbered in the order they were stored. -/
def NumberedObservations (db : Database) : Prop :=
  ∀ id, Table.Numbered (·.observationVersion) (observationsOf db id)

theorem NumberedObservations.empty : NumberedObservations {} := fun _ => .nil _

/-- Writes that insert no observation keep the numbers. -/
theorem NumberedObservations.foldl {db : Database} {ws : List Write}
    (h : NumberedObservations db) (hws : ws.filterMap Write.observation? = []) :
    NumberedObservations (ws.foldl Database.apply db) := by
  intro id
  rw [observationsOf_foldl, hws, List.filter_nil, List.append_nil]
  exact h id

/-- An observation numbered after an earlier store keeps the numbers when it breaks no
constraint. -/
theorem NumberedObservations.insert {db read : Database} {o : PaymentOutcomeObservation}
    (h : NumberedObservations db) (hread : Keeps read db)
    (hversion : o.observationVersion =
      Table.maxOf (·.observationVersion) (observationsOf read o.commandId) + 1)
    (hok : db.violates (.insertObservation o) = false) :
    NumberedObservations (db.apply (.insertObservation o)) := by
  intro id
  have hsplit := observationsOf_foldl db [.insertObservation o] id
  simp only [List.foldl_cons, List.foldl_nil] at hsplit
  rw [hsplit]
  by_cases hid : o.commandId = id
  · subst hid
    have hfresh : ∀ b ∈ observationsOf db o.commandId,
        b.observationVersion ≠ o.observationVersion := by
      intro b hb heq
      obtain ⟨hmem, hcmd⟩ := mem_observationsOf.mp hb
      have hfalse := List.any_eq_false.mp hok b hmem
      simp [PaymentOutcomeObservation.sameVersion, hcmd, heq] at hfalse
    have hsnoc := (h o.commandId).snoc_of_fresh (observationsOf_subset hread o.commandId)
      hversion hfresh
    simpa [Write.observation?] using hsnoc
  · simpa [Write.observation?, hid] using h id

/-! ## The log under interleaving -/

section Invariant
variable {Lock Effect Proc Input Arrival : Type}
  {P : Program Database Write Lock Effect Proc Input Arrival} {db : Database}
  {s t : Session Database Write Lock Proc}

/-- A program that inserts observations one at a time, each under the highest number some
statement of the step read plus one. -/
structure ObservesByVersion (P : Program Database Write Lock Effect Proc Input Arrival) :
    Prop where
  apply : P.apply = Database.apply
  violates : P.violates = Database.violates
  clashes : P.clashes = Write.clashes
  arrive : ∀ {db x ws ps}, P.arrive x db = some (ws, ps) →
    ws.filterMap Write.observation? = []
  write : ∀ {db s input ws next}, P.outcome db s input = some (.write ws next) →
    ws.filterMap Write.observation? = [] ∨
      ∃ o k, ws = [.insertObservation o] ∧ o.observationVersion =
        Table.maxOf (·.observationVersion) (observationsOf (P.reads db s k) o.commandId) + 1

/-- What a session sees and has seen is numbered. -/
structure NumberedSession (P : Program Database Write Lock Effect Proc Input Arrival)
    (db : Database) (s : Session Database Write Lock Proc) : Prop where
  views : ∀ v ∈ s.views, Keeps v (P.view db s) ∧ NumberedObservations v
  view : NumberedObservations (P.view db s)

theorem NumberedSession.fresh (h : NumberedObservations db) (p : Proc) :
    NumberedSession P db (.fresh p) := ⟨by simp, h⟩

theorem NumberedSession.reads (h : NumberedSession P db s) (k : ℕ) :
    Keeps (P.reads db s k) (P.view db s) ∧ NumberedObservations (P.reads db s k) := by
  rcases P.reads_cases db s k with hmem | heq
  · exact h.views _ hmem
  · rw [heq]
    exact ⟨.refl _, h.view⟩

/-- A session that only moves on still sees a numbered log. -/
theorem NumberedSession.moved (h : NumberedSession P db s)
    {s' : Session Database Write Lock Proc} (hpending : s'.pending = s.pending)
    (hviews : s'.views = []) : NumberedSession P db s' := by
  refine ⟨by simp [hviews], ?_⟩
  rw [Program.view, hpending]
  exact h.view

/-- Two sessions with pending observations of one command would have given them the same
number, so they would compete. -/
theorem NumberedSession.commit (hP : ObservesByVersion P) (hs : NumberedSession P db s)
    (ht : NumberedSession P db t) (h : Apart P s t) : NumberedSession P (P.view db s) t := by
  have hkeeps : Keeps (P.view db t) (P.view (P.view db s) t) := by
    simp only [view_eq_foldl hP.apply]
    exact (Keeps.foldl db s.pending).foldl_mono _
  refine ⟨fun v hv => ⟨(ht.views v hv).1.trans hkeeps, (ht.views v hv).2⟩, fun id => ?_⟩
  have hsid := hs.view id
  have htid := ht.view id
  simp only [view_eq_foldl hP.apply, observationsOf_foldl] at hsid htid ⊢
  cases hrows : (s.pending.filterMap Write.observation?).filter fun o => o.commandId = id with
  | nil => rwa [List.append_nil]
  | cons a rows =>
      cases hrows' : (t.pending.filterMap Write.observation?).filter fun o => o.commandId = id with
      | nil =>
          rw [hrows] at hsid
          rwa [List.append_nil]
      | cons b rows' =>
          have hcompete : a.sameVersion b = true := by
            have hab : a.observationVersion = b.observationVersion := by
              rw [hrows] at hsid
              rw [hrows'] at htid
              exact hsid.next.trans htid.next.symm
            have ha : a.commandId = id := by
              have := List.mem_filter.mp (hrows ▸ List.mem_cons_self : a ∈ _)
              simpa using this.2
            have hb : b.commandId = id := by
              have := List.mem_filter.mp (hrows' ▸ List.mem_cons_self : b ∈ _)
              simpa using this.2
            simp [PaymentOutcomeObservation.sameVersion, ha, hb, hab]
          have hmem : ∀ {ws : List Write} {o os},
              ((ws.filterMap Write.observation?).filter fun o => o.commandId = id) = o :: os →
              .insertObservation o ∈ ws := by
            intro ws o os heq
            have := List.mem_filter.mp (heq ▸ List.mem_cons_self : o ∈ _)
            exact mem_filterMap_observation?.mp this.1
          have hapart := h.pending _ (hmem hrows) _ (hmem hrows')
          rw [hP.clashes] at hapart
          exact absurd hcompete (by simpa [Write.clashes] using hapart)

/-- The log stays numbered, and so does what every session sees of it. -/
theorem ObservesByVersion.invariant (hP : ObservesByVersion P) :
    P.Invariant (fun _ _ _ => True) NumberedObservations (NumberedSession P) where
  arrive {db x ws ps} hG harr _ := by
    have hnone := hP.arrive harr
    rw [applyAll_eq_foldl hP.apply]
    refine ⟨hG.foldl hnone, fun s hs _ => ⟨fun v hv => ?_, fun id => ?_⟩,
      fun p _ => .fresh (hG.foldl hnone) p⟩
    · refine ⟨(hs.views v hv).1.trans ?_, (hs.views v hv).2⟩
      simp only [view_eq_foldl hP.apply]
      exact (Keeps.foldl db ws).foldl_mono _
    · have hview := hs.view id
      simp only [view_eq_foldl hP.apply, observationsOf_foldl] at hview ⊢
      rwa [hnone, List.filter_nil, List.append_nil]
  look {db s} _ h := by
    refine ⟨fun v hv => ?_, h.view⟩
    rcases List.mem_append.mp hv with hv | hv
    · exact h.views v hv
    · obtain rfl := List.mem_singleton.mp hv
      exact ⟨.refl _, h.view⟩
  abort hG _ := .fresh hG _
  lock _ h _ _ := h.moved rfl rfl
  write {db s input ws next} _ h _ hstep hok := by
    refine ⟨by simp [Session.wrote], ?_⟩
    rw [view_wrote_eq_foldl hP.apply]
    rcases hP.write hstep with hnone | ⟨o, k, rfl, hversion⟩
    · exact h.view.foldl hnone
    · refine h.view.insert (h.reads k).1 hversion ?_
      simpa [Program.violatesAny, hP.violates] using hok
  call _ h _ _ := h.moved rfl rfl
  rollback hG _ _ _ := .fresh hG _
  commit {db s input next} hG h _ _ :=
    ⟨h.view, .fresh h.view _, fun t ht hapart => h.commit hP ht hapart⟩

end Invariant

/-! ## Observing transactions -/

section Transactions
variable {model : FailurePredictionModel} {policy : InterventionPolicy} {db : Database}
  {s : TransactionSession} {input : TransactionInput}

theorem observe_commandId {r : Reads} {id : CommandId} {asOf : Time}
    {o : PaymentOutcomeObservation} (h : observe r id asOf = .ok o) :
    o.commandId = id ∧ o.asOfTimestamp = asOf ∧
      o.observationId = ⟨id, o.observationVersion⟩ ∧ o.observationVersion =
        Table.maxOf (·.observationVersion) (observationsOf (r.db 3) id) + 1 := by
  obtain ⟨cmd, row, hget, -, rfl⟩ := observe_spec h
  have hid : cmd.commandId = id := by simpa using List.find?_some hget
  subst hid
  exact ⟨rfl, rfl, rfl, rfl⟩

theorem transactionProgram_observes (model : FailurePredictionModel)
    (policy : InterventionPolicy) : ObservesByVersion (transactionProgram model policy) where
  apply := rfl
  violates := rfl
  clashes := rfl
  arrive {db x ws ps} harr := by
    obtain ⟨rfl, -⟩ := transactionProgram_arrive harr
    cases x <;> rfl
  write {db s input ws next} h := by
    generalize ho : Outcome.write ws next = o at h
    cases transactionStepped h with
    | requested =>
        cases hr : input.request <;> rw [hr] at ho <;> cases ho <;> exact .inl rfl
    | returned => cases ho; exact .inl rfl
    | raised => cases ho
    | @called p o' hproc hp hcall =>
        cases o' with
        | write vs next' =>
            obtain ⟨rfl, -⟩ := Outcome.write.inj ho
            rcases hcall.observations with hnone | ⟨id, asOf, row, rfl, rfl, hobs⟩
            · exact .inl hnone
            · obtain ⟨hid, -, -, hversion⟩ := observe_commandId hobs
              exact .inr ⟨row, 3, rfl, by rw [hid]; exact hversion⟩
        | _ => cases ho

/-- Steps of a run only append observations. -/
theorem observations_prefix {w w' : TransactionWorld} {as : List TransactionAction}
    (h : Run.exec (transactionProgram model policy).worldStep w as = some w') :
    w.db.observations <+: w'.db.observations := by
  have happend : ∀ (db : Database) (ws : List Write),
      db.observations <+: (ws.foldl Database.apply db).observations := by
    intro db ws
    rw [Database.observations_foldl]
    exact List.prefix_append _ _
  have hstep : ∀ (u : TransactionWorld) a u', w.db.observations <+: u.db.observations →
      (transactionProgram model policy).worldStep u a = some u' →
      w.db.observations <+: u'.db.observations := by
    intro u a u' hu hstep
    cases Program.stepped hstep with
    | arrived => exact hu.trans (happend _ _)
    | committed => exact hu.trans (happend _ _)
    | _ => exact hu
  exact Run.invariant_exec hstep List.prefix_rfl h

/-- An observation violates a constraint when one of its command has its version or its
`asOf`. -/
theorem violates_insertObservation {rows : Database} (hrows : Justified namesCommand rows)
    {o : PaymentOutcomeObservation} (ho : o.observationId = ⟨o.commandId, o.observationVersion⟩) :
    rows.violates (.insertObservation o) = true ↔ ∃ o' ∈ observationsOf rows o.commandId,
      o'.observationVersion = o.observationVersion ∨ o'.asOfTimestamp = o.asOfTimestamp := by
  simp only [Database.violates, List.any_eq_true]
  constructor
  · rintro ⟨o', ho', hsame⟩
    have hid := (hrows.observations o' ho').1
    simp only [PaymentOutcomeObservation.sameVersion, ho, hid, Bool.or_eq_true, Bool.and_eq_true,
      beq_iff_eq, ObservationId.mk.injEq] at hsame
    rcases hsame with ⟨hcmd, hver⟩ | ⟨hcmd, hver | hasOf⟩
    · exact ⟨o', mem_observationsOf.mpr ⟨ho', hcmd.symm⟩, .inl hver.symm⟩
    · exact ⟨o', mem_observationsOf.mpr ⟨ho', hcmd.symm⟩, .inl hver.symm⟩
    · exact ⟨o', mem_observationsOf.mpr ⟨ho', hcmd.symm⟩, .inr hasOf.symm⟩
  · rintro ⟨o', ho', hsame⟩
    obtain ⟨hmem, hcmd⟩ := mem_observationsOf.mp ho'
    refine ⟨o', hmem, ?_⟩
    rcases hsame with hver | hasOf
    · simp [PaymentOutcomeObservation.sameVersion, hcmd, hver]
    · simp [PaymentOutcomeObservation.sameVersion, hcmd, hasOf]

/-- A call inserts an observation of its command and `asOf`. This raises exactly when the `asOf`
is taken, or when the call does not know all observations of the command that are stored by the
time it inserts. -/
theorem observe_raises_iff {as : List TransactionAction} {w : TransactionWorld}
    (h : transactionRun model policy as = some w) (hs : s ∈ w.sessions) {id : CommandId}
    {asOf : Time} {o : PaymentOutcomeObservation}
    (hobs : observe (input.reads ((transactionProgram model policy).reads w.db s)) id asOf =
      .ok o) :
    ((transactionProgram model policy).view w.db s).violates (.insertObservation o) = true ↔
      ∃ o' ∈ observationsOf ((transactionProgram model policy).view w.db s) id,
        o'.asOfTimestamp = asOf ∨
          o' ∉ observationsOf ((transactionProgram model policy).reads w.db s 3) id := by
  have hgood := (transactionProgram_observes model policy).invariant.exec_true (.empty .empty) h
  have hrows := (transactionProgram_namesCommand model policy).invariant.exec_true
    (.empty (.empty _)) h
  have hnumbered := hgood.session s hs
  have hview : Justified namesCommand ((transactionProgram model policy).view w.db s) :=
    hrows.store.foldl (hrows.session s hs).pending
  obtain ⟨hoid, hoasOf, hoself, hversion⟩ := observe_commandId hobs
  subst hoid hoasOf
  have htaken := (hnumbered.view o.commandId).taken_iff ((hnumbered.reads 3).2 o.commandId)
    (observationsOf_subset (hnumbered.reads 3).1 o.commandId)
  simp only [CallInput.db_reads] at hversion
  rw [violates_insertObservation hview hoself, hversion]
  simp only [and_or_left, exists_or, htaken]
  exact or_comm

/-- In every reachable store, the observations of a command are numbered `1, 2, …`, at most
one has any `asOf`, and no later store changes or removes one. A call inserts an observation of
its command and `asOf`; while no other observation of the command became visible since the call
read the highest version, this raises exactly when the `asOf` is taken. -/
theorem observations_log {as : List TransactionAction} {w : TransactionWorld}
    (h : transactionRun model policy as = some w) :
    (∀ id, (observationsOf w.db id).map (·.observationVersion) =
        List.range' 1 (observationsOf w.db id).length) ∧
      (∀ o ∈ w.db.observations, ∀ o' ∈ w.db.observations, o.commandId = o'.commandId →
        o.asOfTimestamp = o'.asOfTimestamp → o = o') ∧
      (∀ as' w', Run.exec (transactionProgram model policy).worldStep w as' = some w' →
        w.db.observations <+: w'.db.observations) ∧
      ∀ s ∈ w.sessions, ∀ (input : TransactionInput) (id : CommandId) (asOf : Time)
        (o : PaymentOutcomeObservation),
        observe (input.reads ((transactionProgram model policy).reads w.db s)) id asOf = .ok o →
        o.commandId = id ∧ o.asOfTimestamp = asOf ∧
          (observationsOf ((transactionProgram model policy).view w.db s) id ⊆
              observationsOf ((transactionProgram model policy).reads w.db s 3) id →
            (((transactionProgram model policy).view w.db s).violates (.insertObservation o) =
                true ↔
              ∃ o' ∈ observationsOf ((transactionProgram model policy).view w.db s) id,
                o'.asOfTimestamp = asOf)) := by
  have hgood := (transactionProgram_observes model policy).invariant.exec_true (.empty .empty) h
  refine ⟨hgood.store, fun o ho o' ho' hid hasOf => ?_, fun as' w' => observations_prefix,
    fun s hs input id asOf o hobs => ?_⟩
  · exact (transactionRun_met h).store.observation_eq ho ho' hid (.inr hasOf)
  · obtain ⟨hid, hasOf, -⟩ := observe_commandId hobs
    refine ⟨hid, hasOf, fun hknown => ?_⟩
    rw [observe_raises_iff h hs hobs]
    exact exists_congr fun o' => and_congr_right fun ho' =>
      or_iff_left (not_not.mpr (hknown ho'))

end Transactions

namespace ObservationLogExample

/-- An `ACT` decision for a payment. -/
def decision : InterventionDecision :=
  { decisionId := ⟨"pay_1", 1⟩
    paymentAttemptId := "pay_1"
    sourceSystem := razorpaySourceSystem
    decisionVersion := 1
    decidedAt := 0
    decisionType := .act
    selectedRouteId := some .fallbackPaymentLink
    failureProbability := some (4 / 5)
    stage5PredictionId := some ⟨"pay_1", 1⟩
    diagnosisConfidence := none
    decisionConfidence := 1
    gateVerdict := .passed
    policyId := "policy"
    policyVersion := "1"
    inputFingerprint := ⟨"pay_1", 0, 10000, "INR", some ⟨"pay_1", 1⟩, some (4 / 5),
      some .predicted, none, none, none, none, none, none, "policy", "1"⟩ }

def commandId : CommandId := ⟨decision.decisionId⟩

/-- The connection's caller makes a request, and the call takes `n` more steps. -/
def request (r : Request) (n : ℕ) : List TransactionAction :=
  .advance 0 { request := r } :: List.replicate n (.advance 0 {})

/-- The command of the decision is created and observed as of `10`. -/
def firstObservation : List TransactionAction :=
  [.arrive .connect] ++
    request (.registerAttempt ⟨"pay_1", razorpaySourceSystem, "pay_1", 0⟩) 0 ++
    request (.createCommand decision 300 0) 2 ++ request (.observe commandId 10) 2 ++
    request .commit 0

/-- It is observed once more, as of `asOf`. -/
def secondObservation (asOf : Time) : List TransactionAction :=
  firstObservation ++ request (.observe commandId asOf) 0

def world (as : List TransactionAction) : Option TransactionWorld :=
  transactionRun deterministicBaselineModel getDefaultPolicy as

end ObservationLogExample

open ObservationLogExample in
theorem observations_log_second : ∃ w, world (secondObservation 5 ++ request .commit 2) = some w ∧
    (observationsOf w.db commandId).map (·.observationVersion) = [1, 2] := by
  have hrun : ((world (secondObservation 5 ++ request .commit 2)).map fun w =>
      (observationsOf w.db commandId).length) = some 2 := by decide +kernel
  obtain ⟨w, hw, hlength⟩ := Option.map_eq_some_iff.mp hrun
  refine ⟨w, hw, ?_⟩
  rw [(observations_log hw).1 commandId, hlength]
  rfl

open ObservationLogExample in
/-- A second observation of a command as of the same time raises, with no other call around. -/
theorem observations_log_repeated : ∃ w s o, world (secondObservation 10) = some w ∧
    w.sessions = [s] ∧ s.proc = .calling (.observe commandId 10) ∧
    observe (.all ((transactionProgram deterministicBaselineModel getDefaultPolicy).view w.db s))
      commandId 10 = .ok o ∧
    ((transactionProgram deterministicBaselineModel getDefaultPolicy).view w.db s).violates
      (.insertObservation o) = true := by
  have hrun : ((world (secondObservation 10)).bind fun w => w.sessions.head?.bind fun s =>
      (observe (.all ((transactionProgram deterministicBaselineModel getDefaultPolicy).view w.db s))
        commandId 10).toOption.map fun o => decide (w.sessions.length = 1 ∧
          s.proc = .calling (.observe commandId 10) ∧
          ((transactionProgram deterministicBaselineModel getDefaultPolicy).view w.db s).violates
            (.insertObservation o) = true)) = some true := by decide +kernel
  obtain ⟨w, hw, hrun⟩ := Option.bind_eq_some_iff.mp hrun
  obtain ⟨s, hs, hrun⟩ := Option.bind_eq_some_iff.mp hrun
  obtain ⟨o, ho, hrun⟩ := Option.map_eq_some_iff.mp hrun
  obtain ⟨hlength, hproc, hviolates⟩ := of_decide_eq_true hrun
  refine ⟨w, s, o, hw, ?_, hproc, ?_, hviolates⟩
  · obtain ⟨t, ht⟩ := List.length_eq_one_iff.mp hlength
    rw [ht] at hs ⊢
    simpa using hs
  · cases hobs : observe (.all ((transactionProgram deterministicBaselineModel
        getDefaultPolicy).view w.db s)) commandId 10 with
    | error e => simp [hobs, Except.toOption] at ho
    | ok o' => simpa [hobs, Except.toOption] using ho

end RevenueRecovery
