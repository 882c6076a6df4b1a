import RevenueRecovery.Lib.Regex
import RevenueRecovery.LivePipeline.Run
import RevenueRecovery.Migration.Expand

/-!
# Attempt identity, in Python and in SQL

The identity of an attempt is checked twice: by the constructor of `AttemptRef`, whose
pattern Python matches, and by the CHECK constraints of the registry, whose pattern
PostgreSQL searches. Both accept the same identities, and an event that is given a role has
a valid one.

## Main definitions
* `paypalIdentifierPattern` : the pattern both sides use.
* `sourceSystemCheck`, `namespaceCheck` : the CHECK constraints of `payment_attempts`.
* `resolvesTo` : `resolve_pipeline_attempt`, with what it may raise.
* `Database.insertAttempt`, `Database.register` : the registration of an attempt.
* `IdentityRules` : the rules of the code and of the registry agree.
-/
namespace RevenueRecovery

/-! ## The pattern -/

/-- `[A-Za-z0-9_-]`. -/
def isIdentifierChar (c : Char) : Bool := isAsciiAlnum c || c == '_' || c == '-'

/-- `PAYPAL_IDENTIFIER_PATTERN`. -/
def paypalIdentifierPattern : Regex :=
  .anchored (.seq (.set isAsciiAlnum) (.upTo 127 (.set isIdentifierChar)))

theorem anchorFree_identifier :
    (Regex.seq (.set isAsciiAlnum) (.upTo 127 (.set isIdentifierChar))).AnchorFree :=
  ⟨trivial, trivial⟩

/-- `re.fullmatch` accepts the identifiers, and no newline after them. -/
theorem fullmatch_paypalIdentifier (s : String) :
    paypalIdentifierPattern.fullmatch Regex.newlineEnd s = matchesPaypalIdentifier s := by
  rw [paypalIdentifierPattern, Regex.fullmatch_anchored rfl, Bool.eq_iff_iff, Regex.fullmatch_word]
  unfold matchesPaypalIdentifier
  cases s.toList with
  | nil => simp
  | cons c cs =>
      simp only [List.cons.injEq, Bool.and_eq_true, decide_eq_true_eq, and_assoc]
      constructor
      · rintro ⟨_, _, rfl, rfl, h⟩
        exact h
      · exact fun h => ⟨c, cs, rfl, rfl, h⟩

/-- The operator `~` accepts the same. -/
theorem search_paypalIdentifier (s : String) :
    paypalIdentifierPattern.search Regex.strictEnd s = matchesPaypalIdentifier s := by
  rw [← fullmatch_paypalIdentifier]
  exact anchorFree_identifier.fullmatch_eq_search.symm

-- A search by Python would accept a newline at the end.
example : paypalIdentifierPattern.search Regex.newlineEnd "O-1\n" = true ∧
    paypalIdentifierPattern.search Regex.strictEnd "O-1\n" = false := by decide +kernel

/-! ## The constraints of the registry -/

/-- `PAYMENT_ATTEMPT_SOURCE_SYSTEM_CHECK`. -/
def sourceSystemCheck (row : RegisteredAttempt) : Bool :=
  ["razorpay", "synthetic", "paypal"].contains row.sourceSystem

/-- `PAYMENT_ATTEMPT_NAMESPACE_CHECK`. -/
def namespaceCheck (row : RegisteredAttempt) : Bool :=
  if row.sourceSystem = "paypal" then
    paypalIdentifierPattern.search Regex.strictEnd row.providerReference &&
      row.paymentAttemptId == "paypal-order:" ++ row.providerReference
  else
    row.providerReference != "" && row.paymentAttemptId == row.providerReference &&
      Migration.leftChars row.paymentAttemptId 13 != "paypal-order:"

/-- The migration puts the same constraint on the table. -/
theorem namespaceCheck_migration (row : Migration.PaymentAttemptRow) (triggerEventId : ℕ) :
    row.namespaceCheck =
      namespaceCheck ⟨row.paymentAttemptId, row.sourceSystem, row.providerReference,
        triggerEventId⟩ := by
  simp only [Migration.PaymentAttemptRow.namespaceCheck, namespaceCheck, search_paypalIdentifier]

theorem leftChars_eq_iff (key : String) :
    Migration.leftChars key 13 = "paypal-order:" ↔ hasPaypalPrefix key = true := by
  have hlength : paypalAttemptPrefix.toList.length = 13 := rfl
  rw [hasPaypalPrefix, decide_eq_true_eq, hlength, Migration.leftChars, ← String.ofList_inj,
    String.ofList_toList]
  rfl

private theorem ite_ok_iff {b : Bool} {err : ServiceError} :
    (if b then .ok () else .error err : Except ServiceError Unit) = .ok () ↔ b = true := by
  cases b <;> simp

/-- An identity is valid exactly if its row satisfies both constraints. -/
theorem validAttemptIdentity_iff (row : RegisteredAttempt) :
    validAttemptIdentity row.sourceSystem row.paymentAttemptId row.providerReference = .ok () ↔
      sourceSystemCheck row = true ∧ namespaceCheck row = true := by
  have hsources : sourceSystemCheck row = pipelineProviders.contains row.sourceSystem := rfl
  have hprefix : (Migration.leftChars row.paymentAttemptId 13 != "paypal-order:") =
      !hasPaypalPrefix row.paymentAttemptId := by
    rw [Bool.eq_iff_iff, bne_iff_ne, ne_eq, leftChars_eq_iff, Bool.not_eq_true',
      Bool.not_eq_true]
  rw [hsources]
  unfold validAttemptIdentity namespaceCheck
  cases pipelineProviders.contains row.sourceSystem with
  | false => simp
  | true =>
      simp only [Bool.not_true, Bool.false_eq_true, if_false, true_and]
      by_cases hpaypal : row.sourceSystem = "paypal"
      · have hsource : (row.sourceSystem == paypalSourceSystem) = true :=
          beq_iff_eq.mpr hpaypal
        rw [if_pos hsource, if_pos hpaypal, ite_ok_iff, search_paypalIdentifier]
        rfl
      · have hsource : ¬(row.sourceSystem == paypalSourceSystem) = true :=
          fun h => hpaypal (beq_iff_eq.mp h)
        rw [if_neg hsource, if_neg hpaypal, ite_ok_iff, hprefix]

/-! ## Valid identities -/

section Identities
variable {sourceSystem key reference : String} {err : ServiceError}

/-- The constructor returns exactly if the identity is valid. -/
theorem AttemptRef.make_isOk_iff : (AttemptRef.make sourceSystem key reference).isOk = true ↔
    validAttemptIdentity sourceSystem key reference = .ok () := by
  unfold AttemptRef.make
  split
  · rename_i h
    exact iff_of_true rfl h
  · rename_i err h
    rw [h]
    exact iff_of_false nofun nofun

theorem validAttemptIdentity_error (h : validAttemptIdentity sourceSystem key reference = .error err) :
    err = .unsupportedProvider ∨ err = .invalidAttemptIdentity := by
  unfold validAttemptIdentity at h
  split_ifs at h <;> cases h <;> simp

theorem AttemptRef.forKey_error (h : AttemptRef.forKey sourceSystem key = .error err) :
    err = .unsupportedProvider ∨ err = .invalidAttemptIdentity := by
  unfold AttemptRef.forKey AttemptRef.make at h
  split at h
  · cases h
  · cases h
    exact validAttemptIdentity_error ‹_›

/-- The key of a PayPal attempt starts with the prefix, and that of another does not. -/
theorem AttemptRef.hasPaypalPrefix_iff (ref : AttemptRef) :
    hasPaypalPrefix ref.paymentAttemptId = true ↔ ref.sourceSystem = paypalSourceSystem := by
  have hvalid := ref.valid
  unfold validAttemptIdentity at hvalid
  split at hvalid
  · cases hvalid
  · split at hvalid
    · rename_i hpaypal
      split at hvalid
      · rename_i hmatch
        simp only [Bool.and_eq_true, beq_iff_eq] at hmatch
        refine iff_of_true ?_ (beq_iff_eq.mp hpaypal)
        rw [hmatch.2, hasPaypalPrefix, paypalAttemptId, String.toList_append, decide_eq_true_eq]
        exact List.take_left
      · cases hvalid
    · rename_i hpaypal
      split at hvalid
      · rename_i hmatch
        simp only [Bool.and_eq_true, Bool.not_eq_true'] at hmatch
        refine iff_of_false (by simp [hmatch.2]) fun h => hpaypal ?_
        exact beq_iff_eq.mpr h
      · cases hvalid

end Identities

/-! ## Roles -/

/-- The exceptions that derive from `PaymentAttemptError`. -/
def ServiceError.isPaymentAttemptError : ServiceError → Bool
  | .unsupportedProvider | .invalidAttemptIdentity | .attemptNotRegistered
  | .attemptProviderConflict => true
  | _ => false

/-- `pipeline_attempt_refusal`, which catches no other exceptions. -/
def refusalOf (e : PaymentEvent) : Except ServiceError (Option AttemptRefusal) :=
  if inPaypalAttemptNamespace e then .ok (some .paypalNamespace)
  else match candidateRole e with
    | none => .ok none
    | some (_, key) =>
        match AttemptRef.forKey e.sourceSystem key with
        | .ok _ => .ok none
        | .error err =>
            if err.isPaymentAttemptError then .ok (some (.identity err)) else .error err

/-- `resolve_pipeline_attempt`, with what it may raise. -/
def resolvesTo (e : PaymentEvent) : Except ServiceError (Option PipelineAttempt) := do
  if (← refusalOf e).isSome then return none
  match candidateRole e with
  | none => return none
  | some (role, key) => return some ⟨role, ← AttemptRef.forKey e.sourceSystem key⟩

section Roles
variable {e : PaymentEvent} {ref : AttemptRef}

theorem refusalOf_eq (e : PaymentEvent) : refusalOf e = .ok (pipelineAttemptRefusal e) := by
  unfold refusalOf pipelineAttemptRefusal
  split
  · rfl
  · cases candidateRole e with
    | none => rfl
    | some candidate =>
        cases hkey : AttemptRef.forKey e.sourceSystem candidate.2 with
        | ok ref => simp only [hkey]
        | error err =>
            have hcaught : err.isPaymentAttemptError = true := by
              rcases AttemptRef.forKey_error hkey with rfl | rfl <;> rfl
            simp only [hkey, hcaught, if_true]

/-- An event that is not refused has the attempt its key names. -/
theorem resolvesTo_eq (e : PaymentEvent) : resolvesTo e = .ok (resolvePipelineAttempt e) := by
  simp only [resolvesTo, refusalOf_eq, bind, Except.bind, pure, Except.pure]
  unfold resolvePipelineAttempt
  cases hrefusal : pipelineAttemptRefusal e with
  | some refusal => simp
  | none =>
      simp only [Option.isSome_none, Bool.false_eq_true, if_false]
      cases hcandidate : candidateRole e with
      | none => rfl
      | some candidate =>
          obtain ⟨role, key⟩ := candidate
          cases hkey : AttemptRef.forKey e.sourceSystem key with
          | ok ref => simp only [hkey]
          | error err =>
              unfold pipelineAttemptRefusal at hrefusal
              simp only [hcandidate, hkey] at hrefusal
              split at hrefusal <;> cases hrefusal

theorem candidateRole_trigger {key : String} (h : candidateRole e = some (.trigger, key)) :
    if e.isPaypal then
      e.eventType = paypalTriggerEventType ∧ e.paymentId ≠ "" ∧ key = paypalAttemptId e.paymentId
    else e.eventType = pipelineTriggerEventType ∧ key = e.paymentId := by
  unfold candidateRole at h
  split_ifs at h ⊢ with hpaypal hevent hterminal hevent
  · cases h
    exact ⟨hevent.1, hevent.2, rfl⟩
  · split at h
    · split_ifs at h
      cases h
    · cases h
  · cases h
    exact ⟨hevent, rfl⟩
  · cases h

/-- The attempt of a trigger event is the one that the event starts. -/
theorem forTriggerEvent_of_resolve (h : resolvePipelineAttempt e = some ⟨.trigger, ref⟩) :
    AttemptRef.forTriggerEvent e = .ok ref := by
  obtain ⟨hcandidate, hsource, -⟩ := resolvePipelineAttempt_spec h
  have hkey := ref.forKey_self
  have htrigger := candidateRole_trigger hcandidate
  unfold AttemptRef.forTriggerEvent
  split_ifs at htrigger with hpaypal
  · obtain ⟨htype, hne, hid⟩ := htrigger
    have hspaypal : e.sourceSystem = paypalSourceSystem := beq_iff_eq.mp hpaypal
    rw [hsource, hspaypal, hid, AttemptRef.forKey, paypalOrderId_paypalAttemptId hne] at hkey
    simpa [hpaypal, htype] using hkey
  · obtain ⟨htype, hid⟩ := htrigger
    have hother : (e.sourceSystem == paypalSourceSystem) = false := Bool.eq_false_iff.mpr hpaypal
    rw [hsource, hid, AttemptRef.forKey, hother] at hkey
    simpa [hpaypal, htype] using hkey

end Roles

/-! ## Registration -/

namespace Database

/-- The statement of `register`: a registered key is kept as it is, and an attempt has one key
and an event of its own provider. -/
def insertAttempt (db : Database) (row : RegisteredAttempt) : Except ServiceError Database := do
  if !(sourceSystemCheck row && namespaceCheck row) then throw .integrityError
  if (db.findAttempt row.paymentAttemptId).isSome then return db
  if db.attempts.any fun r => r.sourceSystem == row.sourceSystem &&
      r.providerReference == row.providerReference then throw .integrityError
  if !db.events.any fun e => e.eventId == row.triggerEventId &&
      e.sourceSystem == row.sourceSystem then throw .integrityError
  return { db with attempts := db.attempts ++ [row] }

/-- `register`. Between its insert and its read, other transactions commit. -/
def register (db : Database) (others : Database → Database) (e : PaymentEvent) :
    Except ServiceError RegisteredAttempt := do
  let row ← registration e
  let stored ← db.insertAttempt row
  let ref ← AttemptRef.forTriggerEvent e
  (others stored).require ref

variable {db db' : Database} {row : RegisteredAttempt} {err : ServiceError}

theorem insertAttempt_error (h : db.insertAttempt row = .error err) : err = .integrityError := by
  simp only [insertAttempt, bind, Except.bind, pure, Except.pure, throw, throwThe,
    MonadExceptOf.throw] at h
  split_ifs at h <;> cases h <;> rfl

theorem require_error {ref : AttemptRef} (h : db.require ref = .error err) :
    err = .attemptNotRegistered ∨ err = .attemptProviderConflict := by
  unfold Database.require at h
  split at h
  · cases h
    exact .inl rfl
  · split at h
    · cases h
      exact .inr rfl
    · cases h

/-- Registering a trigger event raises no identity error. -/
theorem register_ne_invalid {e : PaymentEvent} {ref : AttemptRef}
    {others : Database → Database} (h : resolvePipelineAttempt e = some ⟨.trigger, ref⟩) :
    db.register others e ≠ .error .invalidAttemptIdentity := by
  intro hregister
  simp only [register, registration, forTriggerEvent_of_resolve h, bind, Except.bind, pure,
    Except.pure] at hregister
  split at hregister
  · rename_i err hinsert
    cases hregister
    cases insertAttempt_error hinsert
  · rcases require_error hregister with herr | herr <;> cases herr

end Database

/-- The rules of the code and of the registry agree, at every identity, event and store. -/
structure IdentityRules : Prop where
  constructed_iff : ∀ sourceSystem paymentAttemptId providerReference triggerEventId,
    (AttemptRef.make sourceSystem paymentAttemptId providerReference).isOk = true ↔
      sourceSystemCheck ⟨paymentAttemptId, sourceSystem, providerReference, triggerEventId⟩ =
          true ∧
        namespaceCheck ⟨paymentAttemptId, sourceSystem, providerReference, triggerEventId⟩ = true
  pattern : ∀ s,
    paypalIdentifierPattern.fullmatch Regex.newlineEnd s = matchesPaypalIdentifier s
  resolve_returns : ∀ e, resolvesTo e = .ok (resolvePipelineAttempt e)
  disjoint : ∀ ref ref' : AttemptRef, ref.sourceSystem = paypalSourceSystem →
    ref'.sourceSystem ≠ paypalSourceSystem → ref.paymentAttemptId ≠ ref'.paymentAttemptId
  forKey : ∀ ref : AttemptRef,
    AttemptRef.forKey ref.sourceSystem ref.paymentAttemptId = .ok ref
  register : ∀ (db : Database) others e ref,
    resolvePipelineAttempt e = some ⟨.trigger, ref⟩ →
    db.register others e ≠ .error .invalidAttemptIdentity

theorem identityRules : IdentityRules where
  constructed_iff sourceSystem paymentAttemptId providerReference triggerEventId :=
    AttemptRef.make_isOk_iff.trans (validAttemptIdentity_iff
      ⟨paymentAttemptId, sourceSystem, providerReference, triggerEventId⟩)
  pattern := fullmatch_paypalIdentifier
  resolve_returns := resolvesTo_eq
  disjoint ref ref' h h' hkey := by
    have hpaypal := ref.hasPaypalPrefix_iff.mpr h
    rw [hkey] at hpaypal
    exact h' (ref'.hasPaypalPrefix_iff.mp hpaypal)
  forKey ref := ref.forKey_self
  register _ _ _ _ h := Database.register_ne_invalid h

end RevenueRecovery
