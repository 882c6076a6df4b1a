import Mathlib.Data.List.Chain
import RevenueRecovery.Services.Configured

/-!
# Stage 6: the decision log

A decision is appended under the version lock of its attempt, and an `ACT` decision also
under the global lock. What a call reads there is what is committed in the end, so that the
versions of an attempt, the cooldowns of its routes and the global rate limit hold under
every interleaving of calls, in whatever order their decision times come.

## Main definitions
* `decisionTable` : the decisions, and the locks that guard them.
* `AttemptLog`, `RateLimited` : what holds of the decisions of an attempt, and of all `ACT`
  decisions.
* `decisionLog` : the calls keep both.
-/
namespace RevenueRecovery

open Transaction

/-- The decisions: an attempt's are guarded by its version lock, the `ACT` decisions by the
global lock. -/
def decisionTable : LockedTable Database Write LockKey InterventionDecision where
  rows := Database.decisions
  row? := Write.decision?
  guards
    | .version key, d => d.paymentAttemptId = key
    | .globalRateLimit, d => d.decisionType = .act
    | _, _ => false

@[simp] theorem guards_version (key : String) (d : InterventionDecision) :
    decisionTable.guards (.version key) d = decide (d.paymentAttemptId = key) := rfl
@[simp] theorem guards_globalRateLimit (d : InterventionDecision) :
    decisionTable.guards .globalRateLimit d = decide (d.decisionType = .act) := rfl
@[simp] theorem guards_command (id : CommandId) (d : InterventionDecision) :
    decisionTable.guards (.command id) d = false := rfl
@[simp] theorem guards_attribution (id : CommandId) (d : InterventionDecision) :
    decisionTable.guards (.attribution id) d = false := rfl

/-- The decisions of an attempt under a provider, oldest first. -/
def Database.decisionsOf (db : Database) (sourceSystem paymentAttemptId : String) :
    List InterventionDecision :=
  db.decisions.filter fun d => d.paymentAttemptId = paymentAttemptId ∧ d.sourceSystem = sourceSystem

section Queries
variable {db db' : Database} {policy : InterventionPolicy} {ctx : DecisionContext}

theorem decisionsOf_eq (db : Database) (sourceSystem paymentAttemptId : String) :
    db.decisionsOf sourceSystem paymentAttemptId =
      (decisionTable.guarded (.version paymentAttemptId) db).filter
        (·.sourceSystem = sourceSystem) := by
  unfold Database.decisionsOf LockedTable.guarded
  rw [List.filter_filter]
  refine List.filter_congr fun d _ => ?_
  simp [Bool.and_comm]

/-- The provider-exact query finds all decisions of a registered attempt. -/
theorem attemptDecisions_eq {sourceSystem paymentAttemptId : String}
    (h : Registered db sourceSystem paymentAttemptId) :
    attemptDecisions db sourceSystem paymentAttemptId =
      db.decisionsOf sourceSystem paymentAttemptId := by
  rw [attemptDecisions, if_pos h.registeredUnder, Database.decisionsOf]

/-- What the version lock guards is all that the latest decision depends on. -/
theorem storedDecision_congr
    (h : Registered db ctx.ref.sourceSystem ctx.ref.paymentAttemptId)
    (h' : Registered db' ctx.ref.sourceSystem ctx.ref.paymentAttemptId)
    (hrows : decisionTable.guarded (.version ctx.ref.paymentAttemptId) db =
      decisionTable.guarded (.version ctx.ref.paymentAttemptId) db') :
    storedDecision policy db ctx = storedDecision policy db' ctx := by
  unfold storedDecision getLatestDecision
  rw [attemptDecisions_eq h, attemptDecisions_eq h', decisionsOf_eq, decisionsOf_eq, hrows]

/-- A call that asks for the version lock has found its attempt registered. -/
theorem decideUpstream_registered {r : Reads} {ref : AttemptRef} {tDecide : Time}
    (h : decideUpstream policy r ref tDecide = .ok (.inr ctx)) :
    Registered (r.db 0) ref.sourceSystem ref.paymentAttemptId ∧ ctx.ref = ref := by
  obtain ⟨d, hd, -⟩ | ⟨ctx', hctx, href, -⟩ := decideUpstream_spec h
  · cases hd
  · obtain rfl := Sum.inr.inj hctx
    refine ⟨?_, href⟩
    unfold decideUpstream decisionContext at h
    cases hreq : (r.db 0).require ref with
    | error e => simp [hreq, bind, Except.bind] at h
    | ok row => exact registered_of_require hreq

/-- Under the version lock a call decides only when the latest decision has other inputs. -/
theorem decideLocked_append {r : Reads} {d : InterventionDecision}
    (h : decideLocked policy r ctx = .append d) : storedDecision policy (r.db 0) ctx = none ∧
      ∃ verdict, verdict.decisionType ≠ .act ∧
        d = newDecision policy (r.db (policy.routes.length + 1)) ctx verdict := by
  unfold decideLocked at h
  split at h
  · cases h
  · simp only at h
    split at h
    · cases h
    · exact ⟨‹_›, _, ‹_›, (LockedOutcome.append.inj h).symm⟩

theorem decideLocked_act {r : Reads} {verdict : Verdict}
    (h : decideLocked policy r ctx = .tentativeAct verdict) :
    storedDecision policy (r.db 0) ctx = none ∧
      verdict = tentativeVerdict policy ctx (cooldowns policy (r.shift 1) ctx) := by
  unfold decideLocked at h
  split at h
  · cases h
  · simp only at h
    split at h
    · exact ⟨‹_›, (LockedOutcome.tentativeAct.inj h).symm⟩
    · cases h

/-- Under the global lock a verdict is admitted below the limit, or blocked. -/
theorem decideAdmitted_eq (policy : InterventionPolicy) (r : Reads) (ctx : DecisionContext)
    (verdict : Verdict) : ∃ v, decideAdmitted policy r ctx verdict =
      newDecision policy (r.db 1) ctx v ∧ (v.selectedRoute = verdict.selectedRoute ∧
        countRecentActDecisions (r.db 0) (ctx.tDecide - Time.seconds 60) <
          policy.globalRateLimitPerMinute ∨ v = .blocked .failedGlobalRateLimit) := by
  refine ⟨_, rfl, ?_⟩
  split
  · exact .inr rfl
  · exact .inl ⟨rfl, Nat.lt_of_not_le ‹_›⟩

theorem newDecision_congr {verdict : Verdict}
    (h : Registered db ctx.ref.sourceSystem ctx.ref.paymentAttemptId)
    (h' : Registered db' ctx.ref.sourceSystem ctx.ref.paymentAttemptId)
    (hrows : decisionTable.guarded (.version ctx.ref.paymentAttemptId) db =
      decisionTable.guarded (.version ctx.ref.paymentAttemptId) db') :
    newDecision policy db ctx verdict = newDecision policy db' ctx verdict := by
  unfold newDecision
  rw [attemptDecisions_eq h, attemptDecisions_eq h', decisionsOf_eq, decisionsOf_eq, hrows]

theorem hasRecentRouteDecision_eq (db : Database) (ref : AttemptRef) (route : InterventionRouteKey)
    (since : Time) : hasRecentRouteDecision db ref route since =
      (decisionTable.guarded (.version ref.paymentAttemptId) db).any fun d =>
        d.selectedRouteId == some route && d.decisionType == .act && since ≤ d.decidedAt &&
          d.sourceSystem == ref.sourceSystem := by
  unfold hasRecentRouteDecision LockedTable.guarded
  rw [List.any_filter]
  simp [decisionTable, Bool.and_assoc, Bool.beq_eq_decide_eq]

/-- What the version lock guards is all that the cooldowns depend on. -/
theorem cooldowns_congr {r : Reads} {key : InterventionRouteKey}
    (hrows : ∀ k, decisionTable.guarded (.version ctx.ref.paymentAttemptId) (r.db k) =
      decisionTable.guarded (.version ctx.ref.paymentAttemptId) db) :
    cooldowns policy r ctx key = cooldowns policy (.all db) ctx key := by
  unfold cooldowns
  simp only [hasRecentRouteDecision_eq, hrows, Reads.all]

theorem countRecentActDecisions_eq (db : Database) (since : Time) :
    countRecentActDecisions db since =
      (decisionTable.guarded .globalRateLimit db).countP (since ≤ ·.decidedAt) := by
  unfold countRecentActDecisions LockedTable.guarded
  rw [List.countP_filter]
  simp [decisionTable, Bool.and_comm]

end Queries

/-! ## Verdicts -/

section Verdicts
variable {policy : InterventionPolicy} {ctx : DecisionContext}
  {onCooldown : InterventionRouteKey → Bool} {key : InterventionRouteKey}

/-- A ranked candidate is an eligible route, so it is not on cooldown. -/
theorem rankedCandidates_cool {c : CandidateRouteScore}
    (h : c ∈ rankedCandidates policy ctx onCooldown) : onCooldown c.routeKey = false := by
  unfold rankedCandidates scoreAndRankCandidates at h
  obtain ⟨i, c', hc', rfl⟩ : ∃ i c', c' ∈ (policy.routes.map (scoreRoute policy ctx onCooldown)).filter
      (·.eligibility = .eligible) ∧ { c' with rank := i + 1 } = c := by
    obtain ⟨i, hi, hc⟩ := List.mem_mapIdx.mp h
    exact ⟨i, _, (List.perm_insertionSort _ _).mem_iff.mp (List.getElem_mem hi), hc⟩
  obtain ⟨hmem, heligible⟩ := List.mem_filter.mp hc'
  obtain ⟨route, -, rfl⟩ := List.mem_map.mp hmem
  by_contra hcool
  have hon : onCooldown route.routeKey = true := by simpa [scoreRoute] using hcool
  simp only [scoreRoute, hon, decide_eq_true_eq] at heligible
  split at heligible
  · cases heligible
  · unfold evaluateRouteEligibility at heligible
    split at heligible <;> simp at heligible

/-- A route that a verdict selects is not on cooldown. -/
theorem tentativeVerdict_cool (h : (tentativeVerdict policy ctx onCooldown).selectedRoute = some key) :
    onCooldown key = false := by
  unfold tentativeVerdict at h
  split at h
  · cases h
  · simp only at h
    split at h
    · cases h
    · have hrisk : (riskVerdict ctx.failureProbability policy).selectedRoute = none := by
        unfold riskVerdict
        split <;> rfl
      unfold determineVerdict at h
      split at h
      · rename_i c hc
        split at h
        · obtain rfl : c.routeKey = key := by simpa using h
          exact rankedCandidates_cool (List.mem_of_mem_head? hc)
        · rw [hrisk] at h
          cases h
      · rw [hrisk] at h
        cases h

end Verdicts

/-! ## The log -/

section Log
variable {ι : Type}

/-- The cooldown that every configuration enforces for a route. -/
def EnforcedCooldown (config : ι → ServiceConfig) (key : InterventionRouteKey) (seconds : ℤ) :
    Prop :=
  ∀ i, ∃ route ∈ (config i).policy.routes, route.routeKey = key ∧ route.cooldownSeconds = seconds

/-- Of two `ACT` decisions on one route, the one appended later was made after the cooldown. -/
def CooledDown (config : ι → ServiceConfig) (a b : InterventionDecision) : Prop :=
  a.decisionType = .act → b.decisionType = .act → a.sourceSystem = b.sourceSystem →
    ∀ key, a.selectedRouteId = some key → b.selectedRouteId = some key →
      ∀ seconds, EnforcedCooldown config key seconds →
        a.decidedAt < b.decidedAt - Time.seconds seconds

/-- What holds of the decisions of an attempt key, oldest first. -/
structure AttemptLog (config : ι → ServiceConfig) (rows : List InterventionDecision) : Prop where
  numbered : ∀ source, Table.Numbered (·.decisionVersion) (rows.filter (·.sourceSystem = source))
  changes : ∀ source, (rows.filter (·.sourceSystem = source)).IsChain fun a b =>
    a.inputFingerprint ≠ b.inputFingerprint
  cooled : rows.Pairwise (CooledDown config)

/-- No closed minute contains more decisions than the limit. -/
def RateLimited (limit : ℕ) (rows : List InterventionDecision) : Prop :=
  ∀ t, rows.countP (fun d => t ≤ d.decidedAt ∧ d.decidedAt ≤ t + Time.seconds 60) ≤ limit

/-- What holds of the decisions each lock guards. -/
def DecisionLog (config : ι → ServiceConfig) : LockKey → List InterventionDecision → Prop
  | .version _, rows => AttemptLog config rows
  | .globalRateLimit, rows =>
      ∀ limit, (∀ i, (config i).policy.globalRateLimitPerMinute ≤ limit) → RateLimited limit rows
  | _, _ => True

/-- The locks a call needs for its decision. -/
def CallProc.deciding : CallProc → LockKey → Prop
  | .decideLocked ctx, key => key = .version ctx.ref.paymentAttemptId
  | .decideAdmit ctx _, key => key = .version ctx.ref.paymentAttemptId ∨ key = .globalRateLimit
  | _, _ => False

/-- What a call knows for its decision: its attempt is registered, the latest decision has
other inputs, and the route it selects is not on cooldown. -/
def DecisionKnows (c : ServiceConfig) (view : Database) : CallProc → Prop
  | .decideLocked ctx => Registered view ctx.ref.sourceSystem ctx.ref.paymentAttemptId
  | .decideAdmit ctx verdict => Registered view ctx.ref.sourceSystem ctx.ref.paymentAttemptId ∧
      storedDecision c.policy view ctx = none ∧ ∀ key, verdict.selectedRoute = some key →
        cooldowns c.policy (.all view) ctx key = false
  | _ => True

/-- The next decision of an attempt whose latest has other inputs, on a route that is not on
cooldown. -/
theorem AttemptLog.snoc {config : ι → ServiceConfig} {view : Database} {ctx : DecisionContext}
    {verdict : Verdict} (i : ι)
    (h : AttemptLog config (decisionTable.guarded (.version ctx.ref.paymentAttemptId) view))
    (hreg : Registered view ctx.ref.sourceSystem ctx.ref.paymentAttemptId)
    (hnew : storedDecision (config i).policy view ctx = none)
    (hcool : ∀ key, verdict.selectedRoute = some key → verdict.decisionType = .act →
      cooldowns (config i).policy (.all view) ctx key = false) :
    AttemptLog config (decisionTable.guarded (.version ctx.ref.paymentAttemptId) view ++
      [newDecision (config i).policy view ctx verdict]) := by
  set rows := decisionTable.guarded (.version ctx.ref.paymentAttemptId) view with hrows
  have hof : attemptDecisions view ctx.ref.sourceSystem ctx.ref.paymentAttemptId =
      rows.filter (·.sourceSystem = ctx.ref.sourceSystem) := by
    rw [attemptDecisions_eq hreg, decisionsOf_eq]
  have hfilter : ∀ source, (rows ++ [newDecision (config i).policy view ctx verdict]).filter
      (·.sourceSystem = source) = rows.filter (·.sourceSystem = source) ++
        if ctx.ref.sourceSystem = source then [newDecision (config i).policy view ctx verdict]
        else [] := by
    intro source
    rw [List.filter_append, List.filter_singleton]
    by_cases hsource : ctx.ref.sourceSystem = source <;> simp [hsource]
  refine ⟨fun source => ?_, fun source => ?_, ?_⟩
  · rw [hfilter]
    split
    · rename_i hsource
      subst hsource
      refine (h.numbered _).snoc ?_
      simp only [newDecision, hof]
      rw [(h.numbered _).maxOf_eq]
    · simpa using h.numbered source
  · rw [hfilter]
    split
    · rename_i hsource
      subst hsource
      refine List.isChain_append.mpr ⟨h.changes _, .singleton _, fun a ha b hb => ?_⟩
      obtain rfl : newDecision (config i).policy view ctx verdict = b := by simpa using hb
      have hlatest : getLatestDecision view ctx.ref = some a := by
        rw [getLatestDecision, hof, (h.numbered _).latestBy_eq]
        exact ha
      rw [storedDecision, hlatest] at hnew
      have hne : a.inputFingerprint ≠ ctx.fingerprint (config i).policy := by
        simpa [Option.filter] using hnew
      exact hne
    · simpa using h.changes source
  · refine List.pairwise_append.mpr ⟨h.cooled, List.pairwise_singleton _ _, fun a ha b hb => ?_⟩
    obtain rfl := List.mem_singleton.mp hb
    intro hact hact' hsource key hkey hkey' seconds henforced
    obtain ⟨route, hroute, rfl, rfl⟩ := henforced i
    have hclear := hcool route.routeKey hkey' hact'
    by_contra hlate
    have hrecent : hasRecentRouteDecision view ctx.ref route.routeKey
        (ctx.tDecide - Time.seconds route.cooldownSeconds) = true := by
      rw [hasRecentRouteDecision_eq, List.any_eq_true]
      refine ⟨a, ha, ?_⟩
      have hsince : ctx.tDecide - Time.seconds route.cooldownSeconds ≤ a.decidedAt :=
        Int.not_lt.mp hlate
      simp only [hkey, hact, hsince, hsource, sourceSystem_newDecision]
      simp
    obtain ⟨j, hj⟩ := List.mem_iff_getElem?.mp hroute
    have hon : cooldowns (config i).policy (.all view) ctx route.routeKey = true := by
      rw [cooldowns, List.any_eq_true]
      exact ⟨(route, j), List.mem_zipIdx_iff_getElem?.mpr hj, by simpa [Reads.all] using hrecent⟩
    simp [hclear] at hon

/-- A decision admitted below the limit keeps every minute below it: the minutes that contain
it begin at most a minute before. -/
theorem RateLimited.snoc {limit : ℕ} {rows : List InterventionDecision} {d : InterventionDecision}
    (h : RateLimited limit rows)
    (hcount : rows.countP (d.decidedAt - Time.seconds 60 ≤ ·.decidedAt) < limit) :
    RateLimited limit (rows ++ [d]) := by
  intro t
  rw [List.countP_append, List.countP_singleton]
  split
  · rename_i hin
    have hin' : t ≤ d.decidedAt ∧ d.decidedAt ≤ t + Time.seconds 60 := by simpa using hin
    have hle : rows.countP (fun x => t ≤ x.decidedAt ∧ x.decidedAt ≤ t + Time.seconds 60) ≤
        rows.countP (d.decidedAt - Time.seconds 60 ≤ ·.decidedAt) := by
      refine List.countP_mono_left fun x _ hx => ?_
      simp only [decide_eq_true_eq] at hx ⊢
      exact (Int.sub_right_le_of_le_add hin'.2).trans hx.1
    exact hle.trans_lt hcount
  · exact h t

@[simp] theorem appended_decision (key : LockKey) (d : InterventionDecision) :
    decisionTable.appended key [.appendDecision d] =
      if decisionTable.guards key d then [d] else [] :=
  decisionTable.appended_singleton rfl key

/-- A new decision keeps what holds of the decisions of every lock. -/
theorem DecisionLog.append {config : ι → ServiceConfig} {view : Database} {ctx : DecisionContext}
    {verdict : Verdict} (i : ι)
    (hΦ : ∀ key, DecisionLog config key (decisionTable.guarded key view))
    (hreg : Registered view ctx.ref.sourceSystem ctx.ref.paymentAttemptId)
    (hnew : storedDecision (config i).policy view ctx = none)
    (hcool : ∀ key, verdict.selectedRoute = some key → verdict.decisionType = .act →
      cooldowns (config i).policy (.all view) ctx key = false)
    (hcount : verdict.decisionType = .act →
      countRecentActDecisions view (ctx.tDecide - Time.seconds 60) <
        (config i).policy.globalRateLimitPerMinute) (key : LockKey) :
    DecisionLog config key (decisionTable.guarded key view ++ decisionTable.appended key
      [.appendDecision (newDecision (config i).policy view ctx verdict)]) := by
  rw [appended_decision]
  split
  · rename_i hguards
    cases key with
    | version k =>
        obtain rfl : ctx.ref.paymentAttemptId = k := of_decide_eq_true hguards
        exact AttemptLog.snoc i (hΦ (.version _)) hreg hnew hcool
    | globalRateLimit =>
        have hact : verdict.decisionType = .act := of_decide_eq_true hguards
        intro limit hlimit
        refine RateLimited.snoc (hΦ .globalRateLimit limit hlimit) ?_
        have hcount' := hcount hact
        rw [countRecentActDecisions_eq] at hcount'
        exact hcount'.trans_le (hlimit i)
    | _ => trivial
  · rw [List.append_nil]
    exact hΦ key

/-- The calls keep the log: what a call reads under its locks is its view of their rows. -/
theorem decisionLog (config : ι → ServiceConfig) :
    CallLog decisionTable config CallProc.deciding DecisionKnows (DecisionLog config) where
  appends db w := by
    cases w with
    | registerAttempt row =>
        simp only [decisionTable, Database.apply, Write.decision?]
        split <;> simp
    | _ => simp [decisionTable, Database.apply, Write.decision?]
  event _ := rfl
  analytics _ := rfl
  registration _ := rfl
  start {p} hp := by
    cases p <;> first | exact ⟨fun _ => id, fun _ _ => trivial⟩ | cases hp
  known {c db db' p} hrows hlater hknows := by
    cases p with
    | decideLocked ctx => exact Registered.mono hknows hlater
    | decideAdmit ctx verdict =>
        have hown := hrows _ (Or.inl rfl)
        refine ⟨hknows.1.mono hlater, ?_, fun key hkey => ?_⟩
        · rw [← storedDecision_congr hknows.1 (hknows.1.mono hlater) hown]
          exact hknows.2.1
        · rw [← hknows.2.2 key hkey]
          exact (cooldowns_congr (r := .all db) fun _ => hown).symm
    | _ => trivial
  step {i input db view p o} hrows hlater hreads hknows hΦ h := by
    have hquiet : ∀ {o' : CallOutcome},
        (∀ ws next, o' = .write ws next → ws.filterMap Write.decision? = []) →
        (∀ key, ¬o'.next.deciding key) → (∀ v, DecisionKnows (config i) v o'.next) →
        decisionTable.Allowed (configuredProgram config) (callNeeds CallProc.deciding)
          (callKnows config DecisionKnows) (DecisionLog config) view (i, .calling p)
          ((o'.map .calling).map (Prod.mk i)) := allowed_of_none hΦ
    cases h with
    | @decideLock ref t ctx hup =>
        obtain ⟨hreg, rfl⟩ := decideUpstream_registered hup
        exact ⟨fun key hkey => .inl hkey, hreg.mono (hlater 0)⟩
    | @lockedAppend ctx d hd =>
        obtain ⟨hstored, verdict, hact, rfl⟩ := decideLocked_append hd
        have hown := hrows (.version ctx.ref.paymentAttemptId) rfl
        rw [CallInput.db_reads] at hstored ⊢
        rw [storedDecision_congr (hreads 0) hknows (hown 0)] at hstored
        rw [newDecision_congr (hreads _) hknows (hown _)]
        intro _
        refine ⟨fun key hkey => ?_, fun _ => False.elim,
          DecisionLog.append i hΦ hknows hstored (fun _ _ h => absurd h hact)
            (fun h => absurd h hact), trivial⟩
        rw [appended_decision, if_neg]
        intro hguards
        cases key with
        | version k => exact hkey (congrArg LockKey.version (of_decide_eq_true hguards).symm)
        | globalRateLimit => exact hact (of_decide_eq_true hguards)
        | _ => cases hguards
    | @lockedAct ctx verdict hv =>
        obtain ⟨hstored, rfl⟩ := decideLocked_act hv
        have hown := hrows (.version ctx.ref.paymentAttemptId) rfl
        rw [CallInput.db_reads, storedDecision_congr (hreads 0) hknows (hown 0)] at hstored
        refine ⟨fun key hkey => ?_, hknows, hstored, fun key hkey => ?_⟩
        · rcases hkey with rfl | rfl
          · exact .inr rfl
          · exact .inl rfl
        · rw [← cooldowns_congr (r := (input.reads db).shift 1) fun k => hown (1 + k)]
          exact tentativeVerdict_cool hkey
    | @admitted ctx verdict =>
        have hown := hrows (.version ctx.ref.paymentAttemptId) (.inl rfl)
        have hglobal := hrows .globalRateLimit (.inr rfl)
        obtain ⟨hreg, hnew, hcool⟩ := hknows
        obtain ⟨v, hd, hv⟩ := decideAdmitted_eq (config i).policy (input.reads db) ctx verdict
        rw [hd, CallInput.db_reads, newDecision_congr (hreads 1).1 hreg (hown 1)]
        rw [CallInput.db_reads, countRecentActDecisions_eq, hglobal,
          ← countRecentActDecisions_eq] at hv
        intro _
        refine ⟨fun key hkey => ?_, fun _ => False.elim,
          DecisionLog.append i hΦ hreg hnew (fun key hkey _ => ?_) (fun hact => ?_), trivial⟩
        · rw [appended_decision, if_neg]
          intro hguards
          cases key with
          | version k =>
              exact hkey (.inl (congrArg LockKey.version (of_decide_eq_true hguards).symm))
          | globalRateLimit => exact hkey (.inr rfl)
          | _ => cases hguards
        · rcases hv with ⟨hroute, -⟩ | rfl
          · exact hcool key (hroute ▸ hkey)
          · cases hkey
        · rcases hv with ⟨-, hcount⟩ | rfl
          · exact hcount
          · cases hact
    | @executing id t q o' hq hstep =>
        refine allowed_of_execution hΦ (fun w hw => ?_) (fun _ _ => False.elim) (fun _ _ => trivial)
          hstep
        cases w <;> first | rfl | exact hw.elim
    | _ =>
        refine hquiet (fun ws next ho => ?_) (fun _ => id) fun _ => trivial
        cases ho <;> rfl

theorem DecisionLog.nil (config : ι → ServiceConfig) (key : LockKey) :
    DecisionLog config key [] := by
  cases key with
  | version => exact ⟨fun _ => .nil _, fun _ => .nil, .nil⟩
  | globalRateLimit => exact fun _ _ _ => Nat.zero_le _
  | _ => trivial

end Log

/-! ## Runs -/

section Runs
variable {ι : Type} {config : ι → ServiceConfig} {as : List (ConfiguredAction ι)}
  {w : ConfiguredWorld ι}

theorem configuredRun_decisionLog (h : configuredRun config as = some w) :
    (configuredProgram config).Good
      (fun db => ∀ key, DecisionLog config key (decisionTable.guarded key db))
      (LockedTable.Log.Known decisionTable (configuredProgram config) KeepsRegistry
        (callNeeds CallProc.deciding) (callKnows config DecisionKnows) (DecisionLog config)) w := by
  have hempty : ∀ key, DecisionLog config key (decisionTable.guarded key ({} : Database)) :=
    .nil config
  exact (decisionLog config).log.invariant.exec_true (.empty hempty) h

/-- Calls of any attempts and providers, with decision times in any order: when they share
one limit, no closed minute contains more `ACT` decisions. -/
theorem actDecisions_rateLimited {limit : ℕ}
    (hlimit : ∀ i, (config i).policy.globalRateLimitPerMinute = limit)
    (h : configuredRun config as = some w) (t : Time) :
    (w.db.decisions.filter fun d => d.decisionType = .act ∧ t ≤ d.decidedAt ∧
      d.decidedAt ≤ t + Time.seconds 60).length ≤ limit := by
  have hrate := (configuredRun_decisionLog h).store .globalRateLimit limit
    (fun i => (hlimit i).le) t
  rw [LockedTable.guarded, List.countP_filter, List.countP_eq_length_filter] at hrate
  refine le_of_eq_of_le (congrArg List.length (List.filter_congr fun d _ => ?_)) hrate
  simp [Bool.and_comm]

/-- Two `ACT` decisions of an attempt on one route are further apart than the cooldown that
every policy gives the route. -/
theorem actDecisions_cooldown {route : RoutePolicyDefinition}
    (hroute : ∀ i, route ∈ (config i).policy.routes) (h : configuredRun config as = some w)
    {a b : InterventionDecision} (ha : a ∈ w.db.decisions) (hb : b ∈ w.db.decisions) (hne : a ≠ b)
    (hsource : a.sourceSystem = b.sourceSystem) (hattempt : a.paymentAttemptId = b.paymentAttemptId)
    (hact : a.decisionType = .act) (hact' : b.decisionType = .act)
    (hkey : a.selectedRouteId = some route.routeKey)
    (hkey' : b.selectedRouteId = some route.routeKey) :
    Time.seconds route.cooldownSeconds < |a.decidedAt - b.decidedAt| := by
  have hlog : AttemptLog config (decisionTable.guarded (.version b.paymentAttemptId) w.db) :=
    (configuredRun_decisionLog h).store (.version b.paymentAttemptId)
  have hmem : ∀ d ∈ w.db.decisions, d.paymentAttemptId = b.paymentAttemptId →
      d ∈ decisionTable.guarded (.version b.paymentAttemptId) w.db :=
    fun d hd hdb => List.mem_filter.mpr ⟨hd, decide_eq_true hdb⟩
  have henforced : EnforcedCooldown config route.routeKey route.cooldownSeconds :=
    fun i => ⟨route, hroute i, rfl, rfl⟩
  have : Std.Symm fun x y => CooledDown config x y ∨ CooledDown config y x := ⟨fun _ _ => Or.symm⟩
  have happart : CooledDown config a b ∨ CooledDown config b a :=
    List.Pairwise.forall (R := fun x y => CooledDown config x y ∨ CooledDown config y x)
      (hlog.cooled.imp Or.inl) (hmem a ha hattempt) (hmem b hb rfl) hne
  rcases happart with hab | hba
  · have hlt := hab hact hact' hsource _ hkey hkey' _ henforced
    rw [abs_sub_comm]
    exact lt_of_lt_of_le (Int.lt_sub_left_of_add_lt (Int.add_lt_of_lt_sub_right hlt))
      (le_abs_self _)
  · have hlt := hba hact' hact hsource.symm _ hkey' hkey _ henforced
    exact lt_of_lt_of_le (Int.lt_sub_left_of_add_lt (Int.add_lt_of_lt_sub_right hlt))
      (le_abs_self _)

/-- A call whose context has the inputs of the latest decision, when it looks before it has
the version lock. -/
theorem decide_stored {s : ConfiguredSession ι} {i : ι} {db : Database} {input : TransactionInput}
    {ref : AttemptRef} {tDecide : Time} {ctx : DecisionContext} {d : InterventionDecision}
    (hproc : s.proc = (i, .calling (.decide ref tDecide)))
    (hctx : decisionContext (input.toCallInput.reads ((configuredProgram config).reads db s)) ref
      tDecide = .ok ctx)
    (hlatest : getLatestDecision ((configuredProgram config).reads db s 16) ctx.ref = some d)
    (hinputs : d.inputFingerprint = ctx.fingerprint (config i).policy) :
    (configuredProgram config).outcome db s input =
      some (.write [] (i, .calling (.returned (.decision d)))) := by
  have hup : decideUpstream (config i).policy
      (input.toCallInput.reads ((configuredProgram config).reads db s)) ref tDecide =
      .ok (.inl d) := by
    simp [decideUpstream, hctx, bind, Except.bind, storedDecision, hlatest, Option.filter, hinputs,
      pure, Except.pure]
  exact configuredProgram_called hproc (by simp) (.decideStored hup)

/-- The same under the version lock, where what it reads is its view. -/
theorem decideLocked_stored {s : ConfiguredSession ι} {i : ι} {ctx : DecisionContext}
    {d : InterventionDecision} (h : configuredRun config as = some w) (hs : s ∈ w.sessions)
    (hproc : s.proc = (i, .calling (.decideLocked ctx)))
    (hlatest : (((configuredProgram config).view w.db s).decisionsOf ctx.ref.sourceSystem
      ctx.ref.paymentAttemptId).getLast? = some d)
    (hinputs : d.inputFingerprint = ctx.fingerprint (config i).policy) (input : TransactionInput) :
    (configuredProgram config).outcome w.db s input =
      some (.write [] (i, .calling (.returned (.decision d)))) := by
  have hknown := (configuredRun_decisionLog h).session s hs
  have hneeds : callNeeds CallProc.deciding s.proc (.version ctx.ref.paymentAttemptId) := by
    rw [hproc]
    rfl
  have hregistered := hknown.knows
  have hregistered' := hknown.knowsReads 0
  rw [hproc] at hregistered hregistered'
  have hlog : AttemptLog config (decisionTable.guarded (.version ctx.ref.paymentAttemptId)
    ((configuredProgram config).view w.db s)) := hknown.rows (.version ctx.ref.paymentAttemptId)
  have hstored : storedDecision (config i).policy ((configuredProgram config).view w.db s) ctx =
      some d := by
    rw [decisionsOf_eq, ← (hlog.numbered _).latestBy_eq, ← decisionsOf_eq,
      ← attemptDecisions_eq hregistered] at hlatest
    rw [storedDecision, getLatestDecision, hlatest]
    simp [Option.filter, hinputs]
  rw [← storedDecision_congr hregistered' hregistered (hknown.reads _ hneeds 0)] at hstored
  have hlocked : decideLocked (config i).policy
      (input.toCallInput.reads ((configuredProgram config).reads w.db s)) ctx = .stored d := by
    simp only [decideLocked, CallInput.db_reads, hstored]
  exact configuredProgram_called hproc (by simp) (.lockedStored hlocked)

/-- The versions of an attempt are `1, 2, …`, adjacent ones have different inputs, a call
with the inputs of the latest returns it and writes nothing, and rows never change. -/
theorem decisions_log (h : configuredRun config as = some w) :
    (∀ source key, Table.Numbered (·.decisionVersion) (w.db.decisionsOf source key) ∧
      (w.db.decisionsOf source key).IsChain fun a b => a.inputFingerprint ≠ b.inputFingerprint) ∧
    (∀ s ∈ w.sessions, ∀ i input d,
      (∀ ref tDecide ctx, s.proc = (i, .calling (.decide ref tDecide)) →
        decisionContext (input.toCallInput.reads ((configuredProgram config).reads w.db s)) ref
          tDecide = .ok ctx →
        getLatestDecision ((configuredProgram config).reads w.db s 16) ctx.ref = some d →
        d.inputFingerprint = ctx.fingerprint (config i).policy →
        (configuredProgram config).outcome w.db s input =
          some (.write [] (i, .calling (.returned (.decision d))))) ∧
      (∀ ctx, s.proc = (i, .calling (.decideLocked ctx)) →
        (((configuredProgram config).view w.db s).decisionsOf ctx.ref.sourceSystem
          ctx.ref.paymentAttemptId).getLast? = some d →
        d.inputFingerprint = ctx.fingerprint (config i).policy →
        (configuredProgram config).outcome w.db s input =
          some (.write [] (i, .calling (.returned (.decision d)))))) ∧
    (∀ as' w', Run.exec (configuredProgram config).worldStep w as' = some w' →
      w.db.decisions <+: w'.db.decisions) := by
  refine ⟨fun source key => ?_, fun s hs i input d => ⟨fun ref t ctx hproc hctx hlatest hinputs =>
    decide_stored hproc hctx hlatest hinputs, fun ctx hproc hlatest hinputs =>
    decideLocked_stored h hs hproc hlatest hinputs input⟩, fun as' w' hrun => ?_⟩
  · have hlog : AttemptLog config (decisionTable.guarded (.version key) w.db) :=
      (configuredRun_decisionLog h).store (.version key)
    rw [decisionsOf_eq]
    exact ⟨hlog.numbered source, hlog.changes source⟩
  · have happends : decisionTable.Appends (configuredProgram config) := (decisionLog config).appends
    exact happends.prefix_exec hrun

end Runs

namespace DecisionLogExample

/-- A model that always predicts failure, and the default policy. -/
def config : Unit → ServiceConfig := fun _ =>
  ⟨⟨"constant", "1", "v1.0.0", fun _ => 9 / 10⟩, getDefaultPolicy⟩

def payment (i : ℕ) (eventType : String) (t : Time) : PaymentEvent :=
  { eventId := i, sourceSystem := razorpaySourceSystem, sourceEventId := toString i,
    paymentId := toString i, timestamp := t, eventType := eventType, currency := "INR",
    amountMinorUnits := 10000, paymentStatus := "x", ingestedAt := t }

def attempt : AttemptRef := ⟨razorpaySourceSystem, "pay_1", "pay_1", validAttemptIdentity_pay_1⟩

/-- The route that both calls select, as the policy defines it. -/
def route : RoutePolicyDefinition := ⟨.fallbackPaymentLink, ["GLOBAL"], 45 / 100, 200, 1800, false,
  false, true⟩

/-- The connection's caller makes a request, and the call takes `n` more steps. -/
def request (r : Request) (n : ℕ) : List (ConfiguredAction Unit) :=
  .advance 0 { request := r } :: List.replicate n (.advance 0 {})

/-- Fifty failures, and an attempt that is predicted and decided on, once more after the
cooldown, and a third time with the same inputs. -/
def run : List (ConfiguredAction Unit) :=
  (List.range 50).map (fun i => .arrive (.event (payment i failedEventType (Time.seconds i)))) ++
    [.arrive (.event { payment 50 pipelineTriggerEventType (Time.seconds 60) with
      paymentId := "pay_1" }), .arrive (.connect [()])] ++
    request (.registerAttempt ⟨"pay_1", razorpaySourceSystem, "pay_1", 50⟩) 0 ++
    request (.predict attempt (Time.seconds 60)) 3 ++
    request (.decide attempt (Time.seconds 60)) 4 ++
    request (.decide attempt (Time.seconds 1861)) 4 ++
    request (.decide attempt (Time.seconds 1861)) 2 ++ request .commit 0

/-- The first two calls act on the same route. -/
theorem run_decisions : ∃ w a b, configuredRun config run = some w ∧ w.db.decisions = [a, b] ∧
    (a.decidedAt = Time.seconds 60 ∧ b.decidedAt = Time.seconds 1861) ∧
    (a.decisionType = .act ∧ b.decisionType = .act) ∧
    a.selectedRouteId = some .fallbackPaymentLink ∧
    b.selectedRouteId = some .fallbackPaymentLink ∧ a.sourceSystem = b.sourceSystem ∧
    a.paymentAttemptId = b.paymentAttemptId := by
  have hrun : ((configuredRun config run).bind fun w => w.db.decisions[0]?.bind fun a =>
      w.db.decisions[1]?.map fun b => decide (w.db.decisions = [a, b] ∧
        (a.decidedAt = Time.seconds 60 ∧ b.decidedAt = Time.seconds 1861) ∧
        (a.decisionType = .act ∧ b.decisionType = .act) ∧
        a.selectedRouteId = some .fallbackPaymentLink ∧
        b.selectedRouteId = some .fallbackPaymentLink ∧ a.sourceSystem = b.sourceSystem ∧
        a.paymentAttemptId = b.paymentAttemptId)) = some true := by decide +kernel
  obtain ⟨w, hw, hrun⟩ := Option.bind_eq_some_iff.mp hrun
  obtain ⟨a, -, hrun⟩ := Option.bind_eq_some_iff.mp hrun
  obtain ⟨b, -, hrun⟩ := Option.map_eq_some_iff.mp hrun
  exact ⟨w, a, b, hw, of_decide_eq_true hrun⟩

end DecisionLogExample

open DecisionLogExample in
theorem actDecisions_rateLimited_run : ∃ w, configuredRun config run = some w ∧
    w.db.decisions.length = 2 ∧ (w.db.decisions.filter fun d => d.decisionType = .act ∧
      Time.seconds 60 ≤ d.decidedAt ∧ d.decidedAt ≤ Time.seconds 60 + Time.seconds 60).length ≤ 100 := by
  obtain ⟨w, a, b, hw, hab, -⟩ := run_decisions
  exact ⟨w, hw, by rw [hab]; rfl, actDecisions_rateLimited (fun _ => rfl) hw _⟩

open DecisionLogExample in
theorem actDecisions_cooldown_run : ∃ w a b, configuredRun config run = some w ∧
    w.db.decisions = [a, b] ∧ Time.seconds 1800 < |a.decidedAt - b.decidedAt| := by
  obtain ⟨w, a, b, hw, hab, ⟨ha, hb⟩, ⟨hact, hact'⟩, hroute, hroute', hsource, hattempt⟩ :=
    run_decisions
  have hne : a ≠ b := by
    rintro rfl
    rw [ha] at hb
    exact absurd hb (by decide)
  have hdefault : route ∈ getDefaultPolicy.routes := by decide +kernel
  have hpolicy : ∀ i, route ∈ (config i).policy.routes := fun _ => hdefault
  exact ⟨w, a, b, hw, hab, actDecisions_cooldown hpolicy hw (by simp [hab]) (by simp [hab]) hne
    hsource hattempt hact hact' hroute hroute'⟩

open DecisionLogExample in
theorem decisions_log_run : ∃ w, configuredRun config run = some w ∧ w.db.decisions.length = 2 ∧
    Table.Numbered (·.decisionVersion) (w.db.decisionsOf razorpaySourceSystem "pay_1") := by
  obtain ⟨w, a, b, hw, hab, -⟩ := run_decisions
  exact ⟨w, hw, by rw [hab]; rfl, ((decisions_log hw).1 _ _).1⟩

end RevenueRecovery
