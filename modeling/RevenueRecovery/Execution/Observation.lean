import RevenueRecovery.Database

/-!
# Stage 7: outcome observation

An observation is derived from the terminal events of the command's attempt that its
provider recorded and that were ingested by `asOf`. The first of them in ingestion order
gives the outcome.

## Main definitions
* `getCanonicalTerminalEvents` : the events an observation reads.
* `observeEvents` : the outcome fields derived from them.
* `observe` : the row of an observation.
-/
namespace RevenueRecovery

def PaymentEvent.quoted (e : PaymentEvent) : QuotedEvent :=
  { eventId := e.eventId, eventType := e.eventType, timestamp := e.timestamp,
    ingestedAt := e.ingestedAt }

/-- `get_canonical_terminal_events`, provider-exact; `ORDER BY ingested_at`. -/
def getCanonicalTerminalEvents (r : Reads) (k : ℕ) (sourceSystem paymentAttemptId : String)
    (asOf : Time) : List PaymentEvent :=
  (r.rows k (·.events) fun e =>
    isTerminalFrom sourceSystem paymentAttemptId e && e.ingestedAt ≤ asOf).insertionSort
      fun a b => a.ingestedAt ≤ b.ingestedAt

theorem mem_getCanonicalTerminalEvents {r : Reads} {k : ℕ} {sourceSystem key : String}
    {asOf : Time} {e : PaymentEvent} :
    e ∈ getCanonicalTerminalEvents r k sourceSystem key asOf ↔
      e ∈ (r.db k).events ∧ isTerminalFrom sourceSystem key e = true ∧ e.ingestedAt ≤ asOf := by
  simp [getCanonicalTerminalEvents, List.mem_insertionSort]

/-- The first of the events was ingested no later than any other. -/
theorem getCanonicalTerminalEvents_head {r : Reads} {k : ℕ} {sourceSystem key : String}
    {asOf : Time} {e : PaymentEvent} {es : List PaymentEvent}
    (h : getCanonicalTerminalEvents r k sourceSystem key asOf = e :: es) :
    ∀ e' ∈ (r.db k).events, isTerminalFrom sourceSystem key e' = true →
      e'.ingestedAt ≤ asOf → e.ingestedAt ≤ e'.ingestedAt := by
  intro e' he' hterm hasOf
  have hmem : e' ∈ e :: es := by
    rw [← h]
    exact mem_getCanonicalTerminalEvents.mpr ⟨he', hterm, hasOf⟩
  have hsorted : (e :: es).Pairwise fun a b => a.ingestedAt ≤ b.ingestedAt := by
    rw [← h]
    have : IsTrans PaymentEvent fun a b => a.ingestedAt ≤ b.ingestedAt :=
      ⟨fun _ _ _ hab hbc => Int.le_trans hab hbc⟩
    have : Std.Total fun a b : PaymentEvent => a.ingestedAt ≤ b.ingestedAt :=
      ⟨fun a b => Int.le_total a.ingestedAt b.ingestedAt⟩
    exact List.pairwise_insertionSort _ _
  rcases List.mem_cons.mp hmem with rfl | hmem
  · exact Int.le_refl _
  · exact (List.pairwise_cons.mp hsorted).1 e' hmem

/-- The outcome of the first event. -/
def eventOutcome (first : PaymentEvent) : PaymentOutcome :=
  if first.eventType = capturedEventType then .captured else .failed

/-- The milliseconds from the command's creation to the event; not below `0`. -/
def timeToOutcomeMs (command : InterventionCommand) (first : PaymentEvent) : ℕ :=
  ((first.timestamp - command.createdAt).tdiv 1000).toNat

/-- The payload of an observation of these events, the first one selected. -/
def observationAuditPayload (events : List PaymentEvent) : ObservationAuditPayload :=
  let conflict := (events.map (·.eventType)).dedup.length > 1
  { terminalEventCount := events.length
    conflictDetected := conflict
    conflictingEvents := if conflict then events.map (·.quoted) else []
    canonicalSelectedEvent := events.head?.map (·.quoted) }

/-- The next observation of a command, read by the statements from the terminal events on. -/
def newObservation (r : Reads) (cmd : InterventionCommand) (asOf : Time) :
    PaymentOutcomeObservation :=
  let events := getCanonicalTerminalEvents r 0 cmd.sourceSystem cmd.paymentAttemptId asOf
  let first := events.head?
  let version := Table.maxOf (·.observationVersion)
    ((r.db 1).observations.filter fun o => o.commandId = cmd.commandId) + 1
  { observationId := ⟨cmd.commandId, version⟩
    commandId := cmd.commandId
    paymentAttemptId := cmd.paymentAttemptId
    sourceSystem := cmd.sourceSystem
    observationVersion := version
    asOfTimestamp := asOf
    paymentOutcome := first.elim .unknownInFlight eventOutcome
    terminalEventId := first.map (·.eventId)
    terminalEventType := first.map (·.eventType)
    terminalEventTimestamp := first.map (·.timestamp)
    timeToOutcomeMs := first.map (timeToOutcomeMs cmd)
    observationAuditPayload := observationAuditPayload events }

/-- The observation to insert. The statements are the command, the registry, the terminal
events and the highest version. -/
def observe (r : Reads) (commandId : CommandId) (asOf : Time) :
    Except ServiceError PaymentOutcomeObservation := do
  let some cmd := (r.db 0).getCommandById commandId | throw .commandNotFound
  let _ ← (r.db 1).requireKey cmd.sourceSystem cmd.paymentAttemptId
  return newObservation (r.shift 2) cmd asOf

/-- An observation is of a known command whose attempt is registered. -/
theorem observe_spec {r : Reads} {commandId : CommandId} {asOf : Time}
    {o : PaymentOutcomeObservation} (h : observe r commandId asOf = .ok o) :
    ∃ cmd row, (r.db 0).getCommandById commandId = some cmd ∧
      (r.db 1).requireKey cmd.sourceSystem cmd.paymentAttemptId = .ok row ∧
      o = newObservation (r.shift 2) cmd asOf := by
  unfold observe at h
  cases hcmd : (r.db 0).getCommandById commandId with
  | none => simp [hcmd, throw, throwThe, MonadExceptOf.throw] at h
  | some cmd =>
      cases hreq : (r.db 1).requireKey cmd.sourceSystem cmd.paymentAttemptId with
      | error e => simp [hcmd, hreq, bind, Except.bind] at h
      | ok row =>
          simp only [hcmd, hreq, bind, Except.bind, pure, Except.pure, Except.ok.injEq] at h
          exact ⟨cmd, row, rfl, hreq, h.symm⟩

/-- A captured observation selected a captured event of the attempt that was ingested by
`asOf`, and no later than any other terminal event of the attempt. -/
theorem newObservation_captured {r : Reads} {cmd : InterventionCommand} {asOf : Time}
    (h : (newObservation r cmd asOf).paymentOutcome = .captured) :
    ∃ e ∈ (r.db 0).events, e.eventType = capturedEventType ∧
      isTerminalFrom cmd.sourceSystem cmd.paymentAttemptId e = true ∧ e.ingestedAt ≤ asOf ∧
      (∀ e' ∈ (r.db 0).events, isTerminalFrom cmd.sourceSystem cmd.paymentAttemptId e' = true →
        e'.ingestedAt ≤ asOf → e.ingestedAt ≤ e'.ingestedAt) ∧
      (newObservation r cmd asOf).terminalEventId = some e.eventId ∧
      (newObservation r cmd asOf).terminalEventTimestamp = some e.timestamp := by
  cases hes : getCanonicalTerminalEvents r 0 cmd.sourceSystem cmd.paymentAttemptId asOf with
  | nil => simp [newObservation, hes] at h
  | cons e es =>
      obtain ⟨hmem, hterm, hasOf⟩ := mem_getCanonicalTerminalEvents.mp
        (by rw [hes]; exact List.mem_cons_self : e ∈ _)
      have hcaptured : e.eventType = capturedEventType := by
        simpa [newObservation, hes, eventOutcome] using h
      exact ⟨e, hmem, hcaptured, hterm, hasOf, getCanonicalTerminalEvents_head hes,
        by simp [newObservation, hes], by simp [newObservation, hes]⟩

end RevenueRecovery
