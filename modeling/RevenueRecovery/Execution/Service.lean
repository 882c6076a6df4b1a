import RevenueRecovery.Database
import RevenueRecovery.Lib.Transaction

/-!
# Stage 7: command creation and execution

A command is created once from an `ACT` decision. Executing it takes the command lock,
closes it when it has expired or when a terminal event is already known, and otherwise
claims it by a compare-and-set, calls the executor, records the execution attempt and
sets the final status. `executeStep` cuts the call at its lock, its writes and the call
to the executor.

## Main definitions
* `legalTransitions`, `validateTransition` : the status machine.
* `createCommand` : the command of a decision.
* `ExecuteProc`, `executeStep` : the execution of a command.
* `simulatorExecute` : the simulator in its default mode.
-/
namespace RevenueRecovery

/-- The advisory locks, by the key they are derived from. -/
inductive LockKey
  | version (paymentAttemptId : String)
  | globalRateLimit
  | command (commandId : CommandId)
  | attribution (commandId : CommandId)
deriving DecidableEq

/-! ## State machine -/

/-- `LEGAL_TRANSITIONS`. -/
def legalTransitions : CommandStatus → List CommandStatus
  | .pending => [.executing, .notNeeded, .expired]
  | .executing => [.succeeded, .failed]
  | .succeeded | .failed | .expired | .notNeeded => []

def canTransition (current target : CommandStatus) : Bool :=
  (legalTransitions current).contains target

def validateTransition (current target : CommandStatus) : Except ServiceError Unit :=
  if current = target then .ok ()
  else if canTransition current target then .ok ()
  else .error .illegalStateTransition

/-! ## Creation -/

/-- `get_command_by_attempt_and_version`, provider-exact. -/
def getCommandByAttemptAndVersion (db : Database) (sourceSystem paymentAttemptId : String)
    (decisionVersion : ℕ) : Option InterventionCommand :=
  if db.registeredUnder sourceSystem paymentAttemptId then
    db.commands.find? fun c => c.paymentAttemptId = paymentAttemptId ∧
      c.decisionVersion = decisionVersion ∧ c.sourceSystem = sourceSystem
  else none

/-- The command of a decision, before it is persisted. -/
def newCommand (d : InterventionDecision) (route : InterventionRouteKey)
    (expiresInSeconds : ℤ) (now : Time) : InterventionCommand :=
  { commandId := ⟨d.decisionId⟩
    decisionId := d.decisionId
    paymentAttemptId := d.paymentAttemptId
    sourceSystem := d.sourceSystem
    decisionVersion := d.decisionVersion
    routeKey := route
    policyId := d.policyId
    policyVersion := d.policyVersion
    commandStatus := .pending
    statusReason := none
    idempotencyKey := d.decisionId
    createdAt := now
    expiresAt := now + Time.seconds expiresInSeconds
    updatedAt := now }

def defaultExpiresInSeconds : ℤ := 300

/-- The existing command of the decision, or the new one to insert. The statements are
the registry, the command by decision and the command by version. -/
def createCommand (r : Reads) (d : InterventionDecision) (expiresInSeconds : ℤ) (now : Time) :
    Except ServiceError (InterventionCommand ⊕ InterventionCommand) := do
  if d.decisionType ≠ .act then throw .invalidDecisionForExecution
  let some route := d.selectedRouteId | throw .invalidDecisionForExecution
  if d.gateVerdict ≠ .passed then throw .invalidDecisionForExecution
  let _ ← (r.db 0).requireKey d.sourceSystem d.paymentAttemptId
  match (r.db 1).commands.find? fun c => c.decisionId = d.decisionId with
  | some existing =>
      if existing.sourceSystem ≠ d.sourceSystem then throw .attemptProviderConflict
      return .inl existing
  | none =>
      match getCommandByAttemptAndVersion (r.db 2) d.sourceSystem d.paymentAttemptId
          d.decisionVersion with
      | some existing => return .inl existing
      | none => return .inr (newCommand d route expiresInSeconds now)

/-- Only an `ACT` decision with a route and passed gates has a command: an existing one of
the decision or of its version, or the new one. -/
theorem createCommand_spec {r : Reads} {d : InterventionDecision} {expiresInSeconds : ℤ}
    {now : Time} {res : InterventionCommand ⊕ InterventionCommand}
    (h : createCommand r d expiresInSeconds now = .ok res) :
    d.decisionType = .act ∧ ∃ route, d.selectedRouteId = some route ∧
      ((∃ c, res = .inl c ∧ c ∈ (r.db 1).commands ∧ c.decisionId = d.decisionId ∧
          c.sourceSystem = d.sourceSystem) ∨
        (∃ c, res = .inl c ∧ c ∈ (r.db 2).commands ∧
          c.paymentAttemptId = d.paymentAttemptId ∧ c.decisionVersion = d.decisionVersion ∧
          c.sourceSystem = d.sourceSystem) ∨
        res = .inr (newCommand d route expiresInSeconds now)) := by
  unfold createCommand at h
  simp only [bind, Except.bind, throw, throwThe, MonadExceptOf.throw, pure, Except.pure] at h
  split at h
  · cases h
  · rename_i hact
    split at h
    · rename_i route hroute
      refine ⟨by simpa using hact, route, hroute, ?_⟩
      split at h
      · cases h
      · split at h
        · cases h
        · split at h
          · rename_i existing hfind
            split at h
            · cases h
            · rename_i hsource
              cases h
              exact .inl ⟨existing, rfl, List.mem_of_find?_eq_some hfind,
                by simpa using List.find?_some hfind, by simpa using hsource⟩
          · split at h
            · rename_i existing hfind
              cases h
              unfold getCommandByAttemptAndVersion at hfind
              split at hfind
              · exact .inr (.inl ⟨existing, rfl, List.mem_of_find?_eq_some hfind,
                  by simpa using List.find?_some hfind⟩)
              · cases hfind
            · cases h
              exact .inr (.inr rfl)
    · cases h

/-! ## Execution -/

/-- `check_terminal_event_exists_before`, as execution calls it: without a provider. -/
def checkTerminalEventExistsBefore (db : Database) (paymentAttemptId : String)
    (asOf : Time) : Bool :=
  db.events.any fun e => isTerminalOf paymentAttemptId e && e.ingestedAt ≤ asOf

/-- The update of `update_command_status_atomic` found the command in this status. -/
def statusIs (db : Database) (commandId : CommandId) (status : CommandStatus) : Bool :=
  db.commands.any fun c => c.commandId == commandId && c.commandStatus == status

/-- Where the execution of a command stands. -/
inductive ExecuteProc
  | start
  | check
  | close (target : CommandStatus) (reason : String)
  | claim
  | dispatch
  | running (command : InterventionCommand)
  | finalize (result : ExecutionResult)
  | done
deriving DecidableEq

/-- The final status of an executed command. -/
def finalStatus (result : ExecutionResult) : CommandStatus :=
  if result.status = .success then .succeeded else .failed

/-- The reason stored with the final status. -/
def finalReason (result : ExecutionResult) : Option String :=
  match result.status with
  | .success => none
  | .timeout => some "EXECUTOR_TIMEOUT"
  | .failure => match result.errorMessage with
    | some message => some (if message = "" then "EXECUTOR_FAILURE" else message)
    | none => some "EXECUTOR_FAILURE"

/-- When the execution ended, by the executor's duration. -/
def attemptEnd (claimTime : Time) (result : ExecutionResult) : Time :=
  claimTime + Time.milliseconds result.durationMs

/-- The row of the execution attempt. -/
def newExecutionAttempt (db : Database) (command : InterventionCommand) (claimTime : Time)
    (result : ExecutionResult) : ExecutionAttempt :=
  { commandId := command.commandId
    sourceSystem := command.sourceSystem
    attemptNumber := Table.maxOf (·.attemptNumber)
      (db.executionAttempts.filter fun a => a.commandId = command.commandId) + 1
    startedAt := claimTime
    completedAt := attemptEnd claimTime result
    durationMs := result.durationMs
    executionStatus := result.status
    executorName := result.executorName
    isSimulation := result.isSimulation
    providerActionType := result.providerActionType
    providerResponseCode := result.providerResponseCode
    errorMessage := result.errorMessage
    createdAt := attemptEnd claimTime result }

/-- What one step of a service call does to its transaction, or the error it raises. -/
abbrev ServiceOutcome (Proc : Type) :=
  Except ServiceError (Transaction.Outcome Write LockKey InterventionCommand Proc)

/-- The pre-execution barriers: the next state for a command that was read. The statements
are the command, the registry and the terminal events. -/
def executeCheck (r : Reads) (commandId : CommandId) (claimTime : Time) :
    Except ServiceError ExecuteProc := do
  let some cmd := (r.db 0).getCommandById commandId | throw .commandNotFound
  let _ ← (r.db 1).requireKey cmd.sourceSystem cmd.paymentAttemptId
  if cmd.commandStatus ≠ .pending then return .done
  if claimTime ≥ cmd.expiresAt then
    validateTransition cmd.commandStatus .expired
    return .close .expired "COMMAND_EXPIRED_BEFORE_DISPATCH"
  if checkTerminalEventExistsBefore (r.db 2) cmd.paymentAttemptId claimTime then
    validateTransition cmd.commandStatus .notNeeded
    return .close .notNeeded "TERMINAL_OUTCOME_ALREADY_INGESTED"
  validateTransition cmd.commandStatus .executing
  return .claim

/-- One step of executing a command at `claimTime`. `now` is the store at the moment of
the step, which a status update decides on; `result` is what the executor returns, or
`none` when it raises. -/
def executeStep (commandId : CommandId) (claimTime : Time) (r : Reads) (now : Database)
    (result : Option ExecutionResult) : ExecuteProc → ServiceOutcome ExecuteProc
  | .start => .ok (.lock (.command commandId) .check)
  | .check => (executeCheck r commandId claimTime).map (.write [])
  | .close target reason =>
      .ok (.write [.updateCommandStatus commandId .pending target (some reason) claimTime] .done)
  | .claim =>
      .ok (.write [.updateCommandStatus commandId .pending .executing none claimTime]
        (if statusIs now commandId .pending then .dispatch else .done))
  | .dispatch =>
      match (r.db 0).getCommandById commandId with
      | none => .error .assertionError
      | some cmd => .ok (.call cmd (.running cmd))
  | .running cmd =>
      match result with
      | none => .error .executorRaised
      | some res =>
          .ok (.write [.insertExecutionAttempt (newExecutionAttempt (r.db 0) cmd claimTime res)]
            (.finalize res))
  | .finalize res =>
      .ok (.write [.updateCommandStatus commandId .executing (finalStatus res)
        (finalReason res) (attemptEnd claimTime res)] .done)
  | .done => .ok (.write [] .done)

/-! ## Simulator -/

def routeActionType : InterventionRouteKey → String
  | .retrySecondaryGateway => "GATEWAY_REROUTE"
  | .promptPaymentMethodSwitch => "METHOD_SWITCH_PROMPT"
  | .dynamicRetryBackoff => "BACKOFF_RETRY_SCHEDULE"
  | .degradationCircuitBypass => "CIRCUIT_BYPASS"
  | .fallbackPaymentLink => "PAYMENT_LINK_DISPATCH"

/-- The simulator, which the pipeline runs in mode `ALWAYS_SUCCEED`. -/
def simulatorExecute (command : InterventionCommand) : ExecutionResult :=
  { status := .success
    executorName := "SIMULATOR_V1"
    isSimulation := true
    providerActionType := routeActionType command.routeKey
    providerResponseCode := some "SIMULATED_ACK"
    errorMessage := none
    durationMs := 15 }

end RevenueRecovery
