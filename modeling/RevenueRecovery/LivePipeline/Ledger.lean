import RevenueRecovery.LivePipeline.Run

/-!
# The ledger of an attempt

An `ACT` decision has one command, and a command is never credited with more than was
authorized. Only the cooldowns of the routes keep an attempt from a second `ACT` decision.
In every run that admits no second one, an attempt has one command
(`commands_singleIntervention`), and its commands are together credited with at most the
amount authorized (`protectedByAttempt_le`).

## Main definitions
* `SingleAct` : no two `ACT` decisions are of one attempt.
* `singleActGuard` : the step admits no second `ACT` decision of an attempt.
* `protectedByAttempt`, `authorizedAmount` : the two sides of the ledger.
-/
namespace RevenueRecovery

open Transaction

/-! ## Decisions of an attempt -/

/-- Both decisions act on one attempt. -/
def ActTwice (a b : InterventionDecision) : Prop :=
  a.decisionType = .act ∧ b.decisionType = .act ∧ a.sourceSystem = b.sourceSystem ∧
    a.paymentAttemptId = b.paymentAttemptId

/-- No two `ACT` decisions are of one attempt. -/
def SingleAct (decisions : List InterventionDecision) : Prop :=
  decisions.Pairwise fun a b => ¬ ActTwice a b

/-- The store has an `ACT` decision of the attempt. -/
def hasActDecision (db : Database) (ref : AttemptRef) : Bool :=
  db.decisions.any fun d => d.decisionType == .act && d.sourceSystem == ref.sourceSystem &&
    d.paymentAttemptId == ref.paymentAttemptId

theorem SingleAct.append {ds es : List InterventionDecision} (hd : SingleAct ds)
    (he : SingleAct es) (h : ∀ a ∈ ds, ∀ b ∈ es, ¬ ActTwice a b) : SingleAct (ds ++ es) :=
  List.pairwise_append.mpr ⟨hd, he, h⟩

/-- Equal attempts have the same `ACT` decision. -/
theorem SingleAct.eq {ds : List InterventionDecision} (h : SingleAct ds)
    {a b : InterventionDecision} (ha : a ∈ ds) (hb : b ∈ ds) (hab : ActTwice a b) : a = b := by
  by_contra hne
  have : Std.Symm fun x y : InterventionDecision => ¬ ActTwice x y :=
    ⟨fun x y hxy ⟨hy, hx, hs, hk⟩ => hxy ⟨hx, hy, hs.symm, hk.symm⟩⟩
  exact h.forall ha hb hne hab

/-! ## Commands and amounts -/

/-- The command carries out a stored `ACT` decision of its attempt. -/
def Decided (db : Database) (c : InterventionCommand) : Prop :=
  ∃ d ∈ db.decisions, d.decisionType = .act ∧ d.decisionId = c.decisionId ∧
    d.sourceSystem = c.sourceSystem ∧ d.paymentAttemptId = c.paymentAttemptId

/-- The largest amount authorized for the attempt. -/
def authorizedAmount (db : Database) (sourceSystem paymentAttemptId : String) : ℤ :=
  ((db.events.filter (isTriggerFrom sourceSystem paymentAttemptId)).map
    (·.amountMinorUnits)).foldr max 0

/-- The amount the latest attribution of the command protects. -/
def latestProtected (db : Database) (c : InterventionCommand) : ℤ :=
  (getLatestAttribution db c.commandId).elim 0 (·.attributedProtectedGmvMinorUnits)

/-- The commands of the attempt. -/
def commandsOf (db : Database) (sourceSystem paymentAttemptId : String) :
    List InterventionCommand :=
  db.commands.filter fun c =>
    c.sourceSystem = sourceSystem ∧ c.paymentAttemptId = paymentAttemptId

/-- The amounts protected by the commands of the attempt, as `_protected_gmv_by_currency`
sums them. -/
def protectedByAttempt (db : Database) (sourceSystem paymentAttemptId : String) : ℤ :=
  ((commandsOf db sourceSystem paymentAttemptId).map (latestProtected db)).sum

theorem mem_commandsOf {db : Database} {sourceSystem key : String} {c : InterventionCommand} :
    c ∈ commandsOf db sourceSystem key ↔
      c ∈ db.commands ∧ c.sourceSystem = sourceSystem ∧ c.paymentAttemptId = key := by
  simp [commandsOf]

/-- The attribution credits a stored command with at most the amount authorized. -/
def Bounded (db : Database) (a : CounterfactualAttribution) : Prop :=
  ∃ c ∈ db.commands, c.commandId = a.commandId ∧ a.attributedProtectedGmvMinorUnits ≤
    authorizedAmount db c.sourceSystem c.paymentAttemptId

theorem authorizedAmount_le_iff {db : Database} {sourceSystem key : String} {n : ℤ} :
    authorizedAmount db sourceSystem key ≤ n ↔
      0 ≤ n ∧ ∀ e ∈ db.events, isTriggerFrom sourceSystem key e = true →
        e.amountMinorUnits ≤ n := by
  have hfold : ∀ xs : List ℤ, xs.foldr max 0 ≤ n ↔ 0 ≤ n ∧ ∀ x ∈ xs, x ≤ n := by
    intro xs
    induction xs with
    | nil => simp
    | cons x xs ih =>
        rw [List.foldr_cons, max_le_iff, ih, List.forall_mem_cons]
        exact and_left_comm
  simp only [authorizedAmount, hfold, List.forall_mem_map, List.mem_filter, and_imp]

theorem authorizedAmount_nonneg (db : Database) (sourceSystem key : String) :
    0 ≤ authorizedAmount db sourceSystem key := (authorizedAmount_le_iff.mp le_rfl).1

theorem le_authorizedAmount {db : Database} {sourceSystem key : String} {e : PaymentEvent}
    (he : e ∈ db.events) (htrigger : isTriggerFrom sourceSystem key e = true) :
    e.amountMinorUnits ≤ authorizedAmount db sourceSystem key :=
  (authorizedAmount_le_iff.mp le_rfl).2 e he htrigger

section Later
variable {db db' : Database}

theorem authorizedAmount_mono (h : Keeps db db') (sourceSystem key : String) :
    authorizedAmount db sourceSystem key ≤ authorizedAmount db' sourceSystem key :=
  authorizedAmount_le_iff.mpr ⟨authorizedAmount_nonneg _ _ _, fun _ he htrigger =>
    le_authorizedAmount (h.events he) htrigger⟩

theorem Decided.mono {c : InterventionCommand} (h : Decided db c) (hkeeps : Keeps db db') :
    Decided db' c := by
  obtain ⟨d, hd, hrest⟩ := h
  exact ⟨d, hkeeps.decisions hd, hrest⟩

theorem Decided.samePayload {c c' : InterventionCommand} (h : Decided db c)
    (hsame : c.SamePayload c') : Decided db c' := by
  obtain ⟨d, hd, hact, hid, hsource, hkey⟩ := h
  exact ⟨d, hd, hact, hid.trans hsame.decisionId.symm, hsource.trans hsame.sourceSystem.symm,
    hkey.trans hsame.paymentAttemptId.symm⟩

theorem Bounded.mono {a : CounterfactualAttribution} (h : Bounded db a)
    (hkeeps : Keeps db db') : Bounded db' a := by
  obtain ⟨c, hc, hid, hle⟩ := h
  obtain ⟨c', hc', hsame⟩ := hkeeps.commands c hc
  refine ⟨c', hc', hsame.commandId.trans hid, ?_⟩
  rw [hsame.sourceSystem, hsame.paymentAttemptId]
  exact hle.trans (authorizedAmount_mono hkeeps _ _)

end Later

/-- A new attribution credits its command with at most the amount of the authorization it
read. -/
theorem attribution_bounded {r : Reads} {id : CommandId} {asOf : Time}
    {a : CounterfactualAttribution} {db : Database}
    (h : attributePaymentIntervention r id asOf = .ok (.inr a))
    (hkeeps : ∀ k, Keeps (r.db k) db) : Bounded db a := by
  obtain ⟨u, hu, -, rfl⟩ := attributePaymentIntervention_spec h
  obtain ⟨hcmd, -, -, -, -, hamount, -⟩ := readUpstream_spec hu
  obtain ⟨c, hc, hsame⟩ := (hkeeps 4).commands u.command (List.mem_of_find?_eq_some hcmd)
  refine ⟨c, hc, hsame.commandId, ?_⟩
  rw [hsame.sourceSystem, hsame.paymentAttemptId]
  have hle : u.result.attributedProtectedGmvMinorUnits ≤ max 0 u.paymentAmount :=
    calculateAttribution_protected_le
  refine hle.trans (max_le (authorizedAmount_nonneg _ _ _) ?_)
  rw [hamount]
  cases hlast : getCanonicalPaymentAmount (r.shift 4) 6 u.command.sourceSystem
      u.command.paymentAttemptId (min u.decision.decidedAt asOf) with
  | none => exact authorizedAmount_nonneg _ _ _
  | some amount =>
      obtain ⟨e, he, rfl⟩ := Option.map_eq_some_iff.mp hlast
      obtain ⟨hmem, htrigger⟩ := Reads.mem_rows.mp (Table.latestBy_mem he)
      exact le_authorizedAmount ((hkeeps 10).events hmem)
        (Bool.and_eq_true_iff.mp htrigger).1

/-! ## The invariant -/

section Invariant
variable (policy : InterventionPolicy)

/-- What holds of the call of a run: it decides under the attempt's version lock, and a
decision it goes on with is stored. -/
def CallOk (db : Database) (locks : List LockKey) : CallProc → Prop
  | .decideLocked ctx => .version ctx.ref.paymentAttemptId ∈ locks
  | .decideAdmit ctx _ => .version ctx.ref.paymentAttemptId ∈ locks
  | .create d _ _ => d ∈ db.decisions
  | .returned (.decision d) => d ∈ db.decisions
  | _ => True

/-- An `ACT` verdict that passes the rate limit is the first of its attempt. -/
def singleActGuard (db : Database) (s : LiveSession) (_ : LiveInput) : Prop :=
  match s.proc.call? with
  | some (.decideAdmit ctx _, _) =>
      countRecentActDecisions ((liveProgram policy).reads db s 0)
          (ctx.tDecide - Time.seconds 60) < policy.globalRateLimitPerMinute →
        hasActDecision ((liveProgram policy).view db s) ctx.ref = false
  | _ => True

instance singleActGuard.decidable (db : Database) (s : LiveSession) (input : LiveInput) :
    Decidable (singleActGuard policy db s input) := by
  unfold singleActGuard
  split <;> infer_instance

/-- Committed decisions, commands and attributions are as the ledger needs them. -/
structure LedgerStore (db : Database) : Prop where
  single : SingleAct db.decisions
  commands : ∀ c ∈ db.commands, Decided db c
  attributions : ∀ a ∈ db.attributions, Bounded db a

/-- What holds of a run: its view has what it read earlier, its rows are as the committed
ones, and an `ACT` decision it appended is under the attempt's version lock. -/
structure LedgerLocal (db : Database) (s : LiveSession) : Prop where
  views : ∀ v ∈ s.views, Keeps v ((liveProgram policy).view db s)
  single : SingleAct ((liveProgram policy).view db s).decisions
  locked : ∀ d, .appendDecision d ∈ s.pending → d.decisionType = .act →
    .version d.paymentAttemptId ∈ s.locks
  commands : ∀ c, .insertCommand c ∈ s.pending → Decided ((liveProgram policy).view db s) c
  attributions : ∀ a, .appendAttribution a ∈ s.pending →
    Bounded ((liveProgram policy).view db s) a
  call : ∀ p f, s.proc.call? = some (p, f) →
    CallOk ((liveProgram policy).view db s) s.locks p

variable {policy} {db db' : Database} {s t : LiveSession}

theorem CallOk.mono {locks : List LockKey} {p : CallProc} (h : CallOk db locks p)
    (hkeeps : Keeps db db') : CallOk db' locks p := by
  cases p with
  | create d e t => exact hkeeps.decisions h
  | returned result =>
      cases result with
      | decision d => exact hkeeps.decisions h
      | _ => exact trivial
  | _ => exact h

theorem LiveProc.call?_apply {p q : CallProc} {x : LiveProc} {f : CallProc → LiveProc}
    (h : x.call? = some (p, f)) : (f q).call? = some (q, f) := by
  cases x <;> cases h <;> rfl

theorem LedgerLocal.fresh (hG : LedgerStore db) {p : LiveProc} (hp : p.call? = none) :
    LedgerLocal policy db (.fresh p) where
  views := by simp
  single := hG.single
  locked := by simp
  commands := by simp
  attributions := by simp
  call q f hq := by simp [hp] at hq

/-- Everything the step reads is in the run's view. -/
theorem LedgerLocal.reads (h : LedgerLocal policy db s) (k : ℕ) :
    Keeps ((liveProgram policy).reads db s k) ((liveProgram policy).view db s) := by
  rcases (liveProgram policy).reads_cases db s k with hmem | heq
  · exact h.views _ hmem
  · rw [heq]
    exact .refl _

/-- A later committed store without new decisions of the run's attempts keeps its invariant. -/
theorem LedgerLocal.mono (h : LedgerLocal policy db s) (hkeeps : Keeps db db')
    (hsingle : SingleAct ((liveProgram policy).view db' s).decisions) :
    LedgerLocal policy db' s where
  views v hv := (h.views v hv).trans (hkeeps.foldl_mono _)
  single := hsingle
  locked := h.locked
  commands c hc := (h.commands c hc).mono (hkeeps.foldl_mono _)
  attributions a ha := (h.attributions a ha).mono (hkeeps.foldl_mono _)
  call p f hp := (h.call p f hp).mono (hkeeps.foldl_mono _)

/-- A commit of another run keeps the invariant: both hold the version locks of the
attempts they act on. -/
theorem LedgerLocal.apart (hs : LedgerLocal policy db s) (ht : LedgerLocal policy db t)
    (h : Apart (liveProgram policy) s t) :
    LedgerLocal policy ((liveProgram policy).view db s) t := by
  refine ht.mono (.foldl db s.pending) ?_
  have hsplit : ((liveProgram policy).view ((liveProgram policy).view db s) t).decisions =
      ((liveProgram policy).view db s).decisions ++ t.pending.filterMap Write.decision? :=
    Database.decisions_foldl _ _
  have htdec : ((liveProgram policy).view db t).decisions =
      db.decisions ++ t.pending.filterMap Write.decision? := Database.decisions_foldl _ _
  have hsdec : ((liveProgram policy).view db s).decisions =
      db.decisions ++ s.pending.filterMap Write.decision? := Database.decisions_foldl _ _
  have htpair := ht.single
  rw [htdec] at htpair
  obtain ⟨-, htown, hdbt⟩ := List.pairwise_append.mp htpair
  rw [hsplit]
  refine hs.single.append htown fun a ha b hb => ?_
  rw [hsdec] at ha
  rcases List.mem_append.mp ha with ha | ha
  · exact hdbt a ha b hb
  · rintro ⟨hacta, hactb, -, hkey⟩
    exact h.locks _ (hs.locked a (mem_filterMap_decision?.mp ha) hacta)
      (hkey ▸ ht.locked b (mem_filterMap_decision?.mp hb) hactb)

/-- Committing a run's rows keeps the store invariant. -/
theorem LedgerLocal.commit (h : LedgerLocal policy db s) (hG : LedgerStore db) :
    LedgerStore ((liveProgram policy).view db s) where
  single := h.single
  commands c hc := by
    rcases (Adds.foldl db s.pending).commands c hc with ⟨c₀, hc₀, hsame⟩ | ⟨c₀, hc₀, hsame⟩
    · exact ((hG.commands c₀ hc₀).samePayload hsame).mono (.foldl db s.pending)
    · exact (h.commands c₀ hc₀).samePayload hsame
  attributions a ha := by
    rcases (Adds.foldl db s.pending).attributions a ha with ha | ha
    · exact (hG.attributions a ha).mono (.foldl db s.pending)
    · exact h.attributions a ha

/-! ## The steps of a run -/

/-- A run that only moves on keeps its invariant. -/
theorem LedgerLocal.moved (h : LedgerLocal policy db s) {s' : LiveSession}
    (hpending : s'.pending = s.pending) (hviews : s'.views = [])
    (hlocks : s.locks ⊆ s'.locks) (hcall : ∀ p f, s'.proc.call? = some (p, f) →
      CallOk ((liveProgram policy).view db s) s'.locks p) : LedgerLocal policy db s' where
  views := by simp [hviews]
  single := by
    rw [liveProgram_view, hpending]
    exact h.single
  locked d hd hact := hlocks (h.locked d (hpending ▸ hd) hact)
  commands := by
    simp only [liveProgram_view, hpending]
    exact h.commands
  attributions := by
    simp only [liveProgram_view, hpending]
    exact h.attributions
  call := by
    simp only [liveProgram_view, hpending]
    exact hcall

theorem view_wrote (db : Database) (s : LiveSession) (ws : List Write) (next : LiveProc) :
    (liveProgram policy).view db (s.wrote ws next) =
      ws.foldl Database.apply ((liveProgram policy).view db s) := by
  simp only [liveProgram_view, Session.wrote, List.foldl_append]

/-- Rows that suit the ledger extend the invariant. -/
theorem LedgerLocal.wrote (h : LedgerLocal policy db s) {ws : List Write} {next : LiveProc}
    (hsingle : SingleAct (ws.foldl Database.apply ((liveProgram policy).view db s)).decisions)
    (hlocked : ∀ d, .appendDecision d ∈ ws → d.decisionType = .act →
      .version d.paymentAttemptId ∈ s.locks)
    (hcommands : ∀ c, .insertCommand c ∈ ws → Decided ((liveProgram policy).view db s) c)
    (hattributions : ∀ a, .appendAttribution a ∈ ws →
      Bounded ((liveProgram policy).view db s) a)
    (hcall : ∀ p f, next.call? = some (p, f) →
      CallOk (ws.foldl Database.apply ((liveProgram policy).view db s)) s.locks p) :
    LedgerLocal policy db (s.wrote ws next) := by
  have hkeeps : Keeps ((liveProgram policy).view db s)
      ((liveProgram policy).view db (s.wrote ws next)) := by
    rw [view_wrote]
    exact .foldl _ _
  refine ⟨by simp [Session.wrote], by rw [view_wrote]; exact hsingle, fun d hd hact => ?_,
    fun c hc => ?_, fun a ha => ?_, by rw [view_wrote]; exact hcall⟩
  · rcases List.mem_append.mp hd with hd | hd
    · exact h.locked d hd hact
    · exact hlocked d hd hact
  · rcases List.mem_append.mp hc with hc | hc
    · exact (h.commands c hc).mono hkeeps
    · exact (hcommands c hc).mono hkeeps
  · rcases List.mem_append.mp ha with ha | ha
    · exact (h.attributions a ha).mono hkeeps
    · exact (hattributions a ha).mono hkeeps

/-- A step that writes neither decisions nor commands nor attributions. -/
theorem LedgerLocal.plain (h : LedgerLocal policy db s) {ws : List Write} {next : LiveProc}
    (hws : ws = [] ∨ (∃ t, ws = [.setAnalytics t]) ∨ ∃ row, ws = [.registerAttempt row])
    (hcall : ∀ p f, next.call? = some (p, f) →
      CallOk ((liveProgram policy).view db s) s.locks p) :
    LedgerLocal policy db (s.wrote ws next) := by
  refine h.wrote ?_ ?_ ?_ ?_ fun p f hp => (hcall p f hp).mono (.foldl _ ws)
  · rw [Database.decisions_foldl]
    rcases hws with rfl | ⟨_, rfl⟩ | ⟨_, rfl⟩ <;>
      simpa [List.filterMap_cons, Write.decision?] using h.single
  all_goals rcases hws with rfl | ⟨_, rfl⟩ | ⟨_, rfl⟩ <;> simp

/-- The call a run is in after one step of it is as the invariant says. -/
theorem CallStepped.callOk {model : FailurePredictionModel} {input : CallInput}
    {reads : ℕ → Database} {now db : Database} {locks : List LockKey} {p next : CallProc}
    {ws : List Write} (h : CallStepped model policy input reads now p (.write ws next))
    (hp : ∀ result, p ≠ .returned result) (hreads : ∀ k, Keeps (reads k) db) :
    CallOk (ws.foldl Database.apply db) locks next := by
  have hnew : ∀ d, ws = [.appendDecision d] →
      d ∈ (ws.foldl Database.apply db).decisions := by
    rintro d rfl
    simp [Database.apply]
  generalize ho : Outcome.write ws next = o at h
  cases h with
  | @decideStored ref t d hres =>
      cases ho
      rcases decideUpstream_spec hres with ⟨d', heq, hd⟩ | ⟨ctx, heq, -⟩
      · cases heq
        exact (hreads 16).decisions hd
      · cases heq
  | @lockedStored ctx d hres =>
      cases ho
      rcases decideLocked_spec policy (input.reads reads) ctx with
        ⟨d', hs, hd⟩ | ⟨verdict, hs, -⟩ | ⟨_, hs, -⟩
      · obtain rfl : d = d' := by simpa [hres] using hs
        exact (hreads 0).decisions hd
      · simp [hres] at hs
      · simp [hres] at hs
  | lockedAppend => cases ho; exact hnew _ rfl
  | admitted => cases ho; exact hnew _ rfl
  | @executing id t q o' hq hstep =>
      cases o' with
      | write vs next' =>
          obtain ⟨-, rfl⟩ := Outcome.write.inj ho
          exact trivial
      | _ => cases ho
  | @returned result => exact absurd rfl (hp result)
  | predictLock => cases ho
  | decideLock => cases ho
  | lockedAct => cases ho
  | attributeLock => cases ho
  | _ => cases ho; exact trivial

/-- A step of a call appends rows that suit the ledger. -/
theorem LedgerLocal.called (h : LedgerLocal policy db s) {input : LiveInput} {p next : CallProc}
    {f : CallProc → LiveProc} {ws : List Write} (hg : singleActGuard policy db s input)
    (hproc : s.proc.call? = some (p, f)) (hp : ∀ result, p ≠ .returned result)
    (hcall : CallStepped deterministicBaselineModel policy input.toCallInput
      ((liveProgram policy).reads db s) ((liveProgram policy).view db s) p (.write ws next)) :
    LedgerLocal policy db (s.wrote ws (f next)) := by
  have hok := h.call p f hproc
  refine h.wrote ?_ (fun d hd hact => ?_) (fun c hc => ?_) (fun a ha => ?_) fun q g hq => ?_
  · rw [Database.decisions_foldl]
    rcases hcall.decisions with hnone | ⟨ctx, d, hone, -, hsource, hkey, hact⟩
    · rw [hnone, List.append_nil]
      exact h.single
    · rw [hone]
      refine h.single.append (List.pairwise_singleton _ _) fun a ha b hb => ?_
      obtain rfl := List.mem_singleton.mp hb
      rintro ⟨hacta, hactb, hsab, hkab⟩
      -- the guard: the view has no `ACT` decision of the attempt yet
      obtain ⟨⟨verdict, rfl⟩, hlimit⟩ := hact hactb
      have hfirst : hasActDecision ((liveProgram policy).view db s) ctx.ref = false := by
        simp only [singleActGuard, hproc] at hg
        exact hg hlimit
      have hfalse := List.any_eq_false.mp hfirst a ha
      simp [hacta, hsab, hkab, hsource, hkey] at hfalse
  · have hmem := mem_filterMap_decision?.mpr hd
    rcases hcall.decisions with hnone | ⟨ctx, d', hone, -, -, hkey, hact'⟩
    · rw [hnone] at hmem
      cases hmem
    · rw [hone] at hmem
      obtain rfl := List.mem_singleton.mp hmem
      obtain ⟨⟨verdict, rfl⟩, -⟩ := hact' hact
      rw [hkey]
      exact hok
  · obtain ⟨d, e, t, rfl, hcreate⟩ := hcall.origin hc
    obtain ⟨hact, route, -, hres⟩ := createCommand_spec hcreate
    rcases hres with ⟨_, heq, -⟩ | ⟨_, heq, -⟩ | heq
    · cases heq
    · cases heq
    · cases heq
      exact ⟨d, hok, hact, rfl, rfl, rfl⟩
  · obtain ⟨id, asOf, -, hattribute⟩ := hcall.origin ha
    exact attribution_bounded hattribute h.reads
  · rw [LiveProc.call?_apply hproc] at hq
    cases hq
    exact hcall.callOk hp h.reads

/-- The run goes on to decide under the version lock it has just taken. -/
theorem CallStepped.callOk_lock {model : FailurePredictionModel} {input : CallInput}
    {reads : ℕ → Database} {now db : Database} {locks : List LockKey} {p next : CallProc}
    {key : LockKey} (h : CallStepped model policy input reads now p (.lock key next))
    (hok : CallOk db locks p) : CallOk db (key :: locks) next := by
  generalize ho : Outcome.lock key next = o at h
  cases h with
  | @decideLock ref t ctx hres =>
      cases ho
      rcases decideUpstream_spec hres with ⟨d, heq, -⟩ | ⟨ctx', heq, href, -⟩
      · cases heq
      · cases heq
        exact href ▸ List.mem_cons_self
  | @lockedAct ctx verdict hres =>
      cases ho
      exact List.mem_cons_of_mem _ hok
  | @executing id t q o' hq hstep =>
      cases o' with
      | lock key' next' =>
          obtain ⟨-, rfl⟩ := Outcome.lock.inj ho
          exact trivial
      | _ => cases ho
  | predictLock => cases ho; exact trivial
  | attributeLock => cases ho; exact trivial
  | _ => cases ho

/-- Only an execution calls the executor. -/
theorem CallStepped.callOk_call {model : FailurePredictionModel} {input : CallInput}
    {reads : ℕ → Database} {now db : Database} {locks : List LockKey} {p next : CallProc}
    {effect : InterventionCommand}
    (h : CallStepped model policy input reads now p (.call effect next)) :
    CallOk db locks next := by
  generalize ho : Outcome.call effect next = o at h
  cases h with
  | @executing id t q o' hq hstep =>
      cases o' with
      | call effect' next' =>
          obtain ⟨-, rfl⟩ := Outcome.call.inj ho
          exact trivial
      | _ => cases ho
  | _ => cases ho

theorem ledgerInvariant :
    (liveProgram policy).Invariant (singleActGuard policy) LedgerStore (LedgerLocal policy) where
  arrive {db e ws ps} hG harr _ := by
    obtain ⟨rfl, rfl⟩ := liveProgram_arrive harr
    have hkeeps : Keeps db (db.apply (.insertEvent e)) := .apply _ _
    have hstore : LedgerStore (db.apply (.insertEvent e)) :=
      ⟨hG.single, fun c hc => (hG.commands c hc).mono hkeeps,
        fun a ha => (hG.attributions a ha).mono hkeeps⟩
    refine ⟨hstore, fun s hs _ => hs.mono hkeeps ?_, fun p hp => .fresh hstore ?_⟩
    · rw [liveProgram_view, Database.decisions_foldl]
      have hsingle := hs.single
      rwa [liveProgram_view, Database.decisions_foldl] at hsingle
    · rcases pipelineRuns_cases hp with ⟨-, rfl⟩ | ⟨-, rfl⟩ <;> rfl
  look {db s} _ h := by
    refine { h with views := fun v hv => ?_ }
    rcases List.mem_append.mp hv with hv | hv
    · exact h.views v hv
    · obtain rfl := List.mem_singleton.mp hv
      exact .refl _
  abort {db s} hG _ := .fresh hG (by cases s.proc <;> rfl)
  lock {db s input key next} hG h hg hstep := by
    generalize ho : Outcome.lock key next = o at hstep
    cases liveStepped hstep with
    | @called p f o' hproc hp hcall =>
        cases o' with
        | lock key' next' =>
            cases ho
            refine h.moved rfl rfl (List.subset_cons_self _ _) fun q g hq => ?_
            rw [Session.proc_locked, LiveProc.call?_apply hproc] at hq
            cases hq
            exact hcall.callOk_lock (h.call p f hproc)
        | _ => cases ho
    | _ => cases ho
  write {db s input ws next} hG h hg hstep _ := by
    generalize ho : Outcome.write ws next = o at hstep
    cases liveStepped hstep with
    | @triggerReturned e ref result hproc =>
        cases ho
        have hok := h.call (.returned result) (.trigger e ref) (by rw [hproc]; rfl)
        refine h.plain (.inl rfl) fun p f hp => ?_
        cases result with
        | decision d =>
            simp only [afterTriggerCall] at hp
            split at hp <;> cases hp
            exact hok
        | prediction q =>
            simp only [afterTriggerCall] at hp
            split at hp <;> cases hp
            exact trivial
        | command c => cases hp; exact trivial
        | _ => cases hp
    | @settlingReturned e id asOf queue result hproc =>
        cases ho
        refine h.plain (.inl rfl) fun p f hp => ?_
        cases result <;> cases hp
        exact trivial
    | @called p f o' hproc hp hcall =>
        cases o' with
        | write vs next' =>
            obtain ⟨rfl, rfl⟩ := Outcome.write.inj ho
            exact h.called hg hproc hp hcall
        | _ => cases ho
    | analytics => cases ho; exact h.plain (.inr (.inl ⟨_, rfl⟩)) (by rintro p f ⟨⟩)
    | register => cases ho; exact h.plain (.inr (.inr ⟨_, rfl⟩)) (by rintro p f ⟨⟩)
    | registered => cases ho; exact h.plain (.inl rfl) (by rintro p f ⟨⟩; exact trivial)
    | settleCons => cases ho; exact h.plain (.inl rfl) (by rintro p f ⟨⟩; exact trivial)
    | noAttempt => cases ho; exact h.plain (.inl rfl) (by rintro p f ⟨⟩)
    | readCommands => cases ho; exact h.plain (.inl rfl) (by rintro p f ⟨⟩)
    | conflict => cases ho; exact h.plain (.inl rfl) (by rintro p f ⟨⟩)
    | settleNil => cases ho; exact h.plain (.inl rfl) (by rintro p f ⟨⟩)
    | _ => cases ho
  call {db s input effect next} hG h hg hstep := by
    generalize ho : Outcome.call effect next = o at hstep
    cases liveStepped hstep with
    | @called p f o' hproc hp hcall =>
        cases o' with
        | call effect' next' =>
            cases ho
            refine h.moved rfl rfl (List.Subset.refl _) fun q g hq => ?_
            rw [Session.proc_moved, LiveProc.call?_apply hproc] at hq
            cases hq
            exact hcall.callOk_call
        | _ => cases ho
    | _ => cases ho
  rollback {db s input next} hG _ _ hstep := by
    refine .fresh hG ?_
    generalize ho : Outcome.rollback next = o at hstep
    cases liveStepped hstep with
    | failed => cases ho; rfl
    | @called p f o' hproc hp hcall =>
        cases o' with
        | rollback next' => exact absurd rfl (hcall.inside.2 next')
        | _ => cases ho
    | _ => cases ho
  commit {db s input next} hG h _ hstep := by
    refine ⟨h.commit hG, .fresh (h.commit hG) ?_, fun t ht hapart => h.apart ht hapart⟩
    generalize ho : Outcome.commit next = o at hstep
    cases liveStepped hstep with
    | analyticsStored => cases ho; rfl
    | finish => cases ho; rfl
    | @called p f o' hproc hp hcall =>
        cases o' with
        | commit next' => exact absurd rfl (hcall.inside.1 next')
        | _ => cases ho
    | _ => cases ho

/-- The ledger's invariant holds in every store that guarded runs commit. -/
theorem liveRun_ledger {as : List LiveAction} {w : LiveWorld}
    (hg : Run.Guarded (liveProgram policy).worldStep
      (Program.worldGuard (singleActGuard policy)) ⟨{}, [], []⟩ as)
    (h : liveRun policy as = some w) : LedgerStore w.db :=
  have hempty : LedgerStore {} := ⟨.nil, by simp, by simp⟩
  (ledgerInvariant.exec (.empty hempty) hg h).store

/-- Two commands of one attempt carry out the same decision, so they are the same. -/
theorem LedgerStore.command_eq (h : LedgerStore db) (hunique : Unique db)
    {a b : InterventionCommand} (ha : a ∈ db.commands) (hb : b ∈ db.commands)
    (hsource : a.sourceSystem = b.sourceSystem) (hkey : a.paymentAttemptId = b.paymentAttemptId) :
    a = b := by
  obtain ⟨d, hd, hact, hid, hds, hdk⟩ := h.commands a ha
  obtain ⟨d', hd', hact', hid', hds', hdk'⟩ := h.commands b hb
  have heq : d = d' := h.single.eq hd hd' ⟨hact, hact', by rw [hds, hds', hsource],
    by rw [hdk, hdk', hkey]⟩
  exact hunique.command_eq ha hb (.inr (by rw [← hid, ← hid', heq]))

end Invariant

/-! ## One intervention -/

/-- No two commands are of one attempt. -/
def SingleIntervention (db : Database) : Prop :=
  db.commands.Pairwise fun a b =>
    ¬ (a.sourceSystem = b.sourceSystem ∧ a.paymentAttemptId = b.paymentAttemptId)

instance SingleIntervention.decidable (db : Database) : Decidable (SingleIntervention db) :=
  inferInstanceAs (Decidable (List.Pairwise _ _))

theorem LedgerStore.singleIntervention {db : Database} (h : LedgerStore db)
    (hunique : Unique db) : SingleIntervention db := by
  refine hunique.commands.imp_of_mem fun {a b} ha hb hab => ?_
  rintro ⟨hsource, hkey⟩
  obtain rfl := h.command_eq hunique ha hb hsource hkey
  simp [InterventionCommand.sameIdentity] at hab

/-- In every run whose steps admit no second `ACT` decision of an attempt, no two commands
are of one attempt. -/
theorem commands_singleIntervention {policy : InterventionPolicy} {as : List LiveAction}
    {w : LiveWorld}
    (hg : Run.Guarded (liveProgram policy).worldStep
      (Program.worldGuard (singleActGuard policy)) ⟨{}, [], []⟩ as)
    (h : liveRun policy as = some w) : SingleIntervention w.db := by
  exact (liveRun_ledger hg h).singleIntervention (liveRun_met h).store

namespace LedgerExample

/-- The start of the first degraded window. -/
def t₀ : Time := Time.weeks 2

def payment (i : ℕ) (eventType : String) (t : Time) : PaymentEvent :=
  { eventId := i, sourceSystem := razorpaySourceSystem, sourceEventId := toString i,
    paymentId := toString i, timestamp := t, eventType := eventType, currency := "INR",
    amountMinorUnits := 10000, paymentStatus := "x", ingestedAt := t }

/-- A capture in the same window a week earlier. -/
def baseline (k : ℕ) : PaymentEvent :=
  payment k capturedEventType (t₀ - Time.weeks 1 + Time.minutes 5 * k)

/-- The `i`-th failure of window `k`. -/
def failure (k i : ℕ) : PaymentEvent :=
  payment (100 * (k + 1) + i) failedEventType (t₀ + Time.minutes 5 * k + i)

/-- Run `i` takes `n` steps; the simulator succeeds on the route. -/
def advances (i n : ℕ) (now : Time := 0)
    (route : InterventionRouteKey := .retrySecondaryGateway) : List LiveAction :=
  List.replicate n (.advance i
    { now := now
      result := some ⟨.success, "SIMULATOR_V1", true, routeActionType route,
        some "SIMULATED_ACK", none, 15⟩ })

/-- Three windows without success, and Stages 2-4 for the last event of each. -/
def outage : List LiveAction :=
  ((List.range 3).flatMap fun k => .arrive (baseline k) :: advances k 2) ++
    (List.range 3).flatMap fun k =>
      (List.range 50).map (fun i => .arrive (failure k i)) ++
        advances (50 * k + 52) 2 (t₀ + Time.minutes 5 * (k + 1))

/-- An authorization of one payment, so many seconds after the first, and its run. -/
def authorization (i : ℕ) (seconds : ℤ) (route : InterventionRouteKey) : List LiveAction :=
  let t := t₀ + Time.minutes 16 + Time.seconds seconds
  .arrive { payment (i + 1000) pipelineTriggerEventType t with paymentId := "pay_1" } ::
    advances i 22 t route

/-- The capture of the payment, and its run of `n` steps. -/
def capture (i n : ℕ) : List LiveAction :=
  let t := t₀ + Time.minutes 16 + Time.seconds 200
  .arrive { payment (i + 1000) capturedEventType t with paymentId := "pay_1" } ::
    advances i n t

/-- One authorization. -/
def first : List LiveAction := outage ++ authorization 153 0 .retrySecondaryGateway

/-- The next authorization of the same payment. -/
def second : List LiveAction := authorization 154 1 .fallbackPaymentLink

/-- Two more, the last one after the cooldown of the third, and the capture. -/
def rest : List LiveAction :=
  authorization 155 2 .dynamicRetryBackoff ++ authorization 156 183 .dynamicRetryBackoff ++
    capture 157 29

/-- A run of the default policy in which each step meets the guard. -/
def execSingle (w : LiveWorld) (as : List LiveAction) : Option LiveWorld :=
  Run.execGuarded (liveProgram getDefaultPolicy).worldStep
    (Program.worldGuard (singleActGuard getDefaultPolicy)) w as

/-- The number that decimal digits write. -/
def decimal (s : String) : ℕ := s.toList.foldl (fun n c => 10 * n + (c.toNat - '0'.toNat)) 0

/-- Events that are numbered apart arrive at once. -/
def arriveAll (w : LiveWorld) (es : List PaymentEvent) : Option LiveWorld :=
  if w.sessions.all (·.pending.isEmpty) ∧
      ((w.db.events ++ es).map PaymentEvent.eventId).Nodup ∧
      ∀ e ∈ w.db.events ++ es, decimal e.sourceEventId = e.eventId then
    some { w with
      db := { w.db with events := w.db.events ++ es }
      sessions := w.sessions ++ (es.flatMap pipelineRuns).map Session.fresh }
  else none

theorem execSingle_append {w w' w'' : LiveWorld} {as bs : List LiveAction}
    (h : execSingle w as = some w') (h' : execSingle w' bs = some w'') :
    execSingle w (as ++ bs) = some w'' := by
  obtain ⟨hg, hx⟩ := Run.execGuarded_eq_some.mp h
  obtain ⟨hg', hx'⟩ := Run.execGuarded_eq_some.mp h'
  refine Run.execGuarded_eq_some.mpr ⟨hg.append hx hg', ?_⟩
  rw [Run.exec_append_of_eq hx, hx']

/-- An event whose number is new and is its source's number arrives. -/
theorem arrive_of_numbered {w : LiveWorld} {e : PaymentEvent}
    (hidle : w.sessions.all (·.pending.isEmpty) = true)
    (hnew : e.eventId ∉ w.db.events.map PaymentEvent.eventId)
    (hnamed : ∀ e' ∈ w.db.events ++ [e], decimal e'.sourceEventId = e'.eventId) :
    (liveProgram getDefaultPolicy).worldStep w (.arrive e) = some { w with
      db := { w.db with events := w.db.events ++ [e] }
      sessions := w.sessions ++ (pipelineRuns e).map Session.fresh } := by
  have hviolates : w.db.events.any e.sameIdentity = false := by
    refine List.any_eq_false.mpr fun e' he' hsame => ?_
    have hid : e.eventId ≠ e'.eventId := fun heq => hnew (heq ▸ List.mem_map_of_mem he')
    have hname := hnamed e' (List.mem_append_left _ he')
    have hname' := hnamed e (List.mem_append_right _ (List.mem_singleton_self e))
    simp only [PaymentEvent.sameIdentity, Bool.or_eq_true, Bool.and_eq_true, beq_iff_eq] at hsame
    rcases hsame with heq | ⟨-, heq⟩
    · exact hid heq
    · exact hid (hname'.symm.trans ((congrArg decimal heq).trans hname))
  have hblocked : (liveProgram getDefaultPolicy).blocked w w.sessions.length
      [.insertEvent e] = false := by
    refine List.any_eq_false.mpr fun t ht hb => ?_
    have hs : t.1 ∈ w.sessions := List.fst_mem_of_mem_zipIdx ht
    have hpending : t.1.pending = [] := by
      simpa using List.all_eq_true.mp hidle t.1 hs
    simp [hpending] at hb
  have harrive : (liveProgram getDefaultPolicy).arrive e w.db =
      some ([.insertEvent e], pipelineRuns e) := rfl
  simp only [Program.worldStep, harrive, hblocked]
  simp [Program.violatesAny, Database.violates, hviolates, Program.applyAll, Database.apply]

theorem arriveAll_eq {w w' : LiveWorld} {es : List PaymentEvent} (h : arriveAll w es = some w') :
    execSingle w (es.map .arrive) = some w' := by
  induction es generalizing w with
  | nil =>
      unfold arriveAll at h
      split at h
      · simpa [execSingle, Run.execGuarded] using h
      · cases h
  | cons e es ih =>
      unfold arriveAll at h
      split at h
      · rename_i hok
        obtain ⟨hidle, hnodup, hnamed⟩ := hok
        have hstep := arrive_of_numbered hidle (e := e) (by grind) (by grind)
        have hrest := ih (w := { w with
          db := { w.db with events := w.db.events ++ [e] }
          sessions := w.sessions ++ (pipelineRuns e).map Session.fresh }) (by
            unfold arriveAll
            rw [if_pos ⟨by simp_all, by simpa using hnodup, by simpa using hnamed⟩]
            simpa using h)
        simp only [List.map_cons, execSingle, Run.execGuarded, hstep]
        exact hrest
      · cases h

/-- The world after the outage. -/
def afterOutage : Option LiveWorld := do
  let w ← execSingle ⟨{}, [], []⟩
    ((List.range 3).flatMap fun k => .arrive (baseline k) :: advances k 2)
  (List.range 3).foldlM (fun w k => do
    let w ← arriveAll w ((List.range 50).map (failure k))
    execSingle w (advances (50 * k + 52) 2 (t₀ + Time.minutes 5 * (k + 1)))) w

theorem execSingle_flatMap {f : LiveWorld → ℕ → Option LiveWorld}
    {segment : ℕ → List LiveAction}
    (hf : ∀ w k w', f w k = some w' → execSingle w (segment k) = some w') {ks : List ℕ}
    {w w' : LiveWorld} (h : ks.foldlM f w = some w') :
    execSingle w (ks.flatMap segment) = some w' := by
  induction ks generalizing w with
  | nil => simpa [execSingle, Run.execGuarded] using h
  | cons k ks ih =>
      rw [List.foldlM_cons, Option.bind_eq_bind] at h
      obtain ⟨u, hu, hrest⟩ := Option.bind_eq_some_iff.mp h
      exact execSingle_append (hf w k u hu) (ih hrest)

theorem afterOutage_eq {w : LiveWorld} (h : afterOutage = some w) :
    execSingle ⟨{}, [], []⟩ outage = some w := by
  simp only [afterOutage, Option.bind_eq_bind] at h
  obtain ⟨u, hu, hrest⟩ := Option.bind_eq_some_iff.mp h
  refine execSingle_append hu (execSingle_flatMap (fun w k w' hk => ?_) hrest)
  obtain ⟨v, hv, hk⟩ := Option.bind_eq_some_iff.mp hk
  have harrived := arriveAll_eq hv
  rw [List.map_map] at harrived
  exact execSingle_append harrived hk

/-! The world after the outage, written out: every segment has an episode. -/

def segments : List (String × String) :=
  [("GLOBAL", "ALL"), ("currency", "INR"), ("payment_method", "NULL"), ("bank", "NULL"),
    ("wallet", "NULL"), ("error_source", "NULL")]

/-- The snapshot of a window with this many captures and failures. -/
def snapshotOf (windowStart : Time) (captures failures : ℕ) (rates : Option ℚ × Option ℚ)
    (baselineRate : Option ℚ) (s : String × String) : PaymentHealthSnapshot :=
  ⟨windowStart, windowStart + Time.minutes 5, s.1, s.2, captures + failures, captures, failures,
    rates.1, rates.2, 10000 * (captures + failures), 10000 * captures, 10000 * failures,
    baselineRate, decide (captures + failures < 5)⟩

/-- The signal of a window with this drop against its baseline. -/
def signalOf (windowStart : Time) (signalType : SignalType) (baselineRate : Option ℚ)
    (drop : Option ℚ) (evaluatedAt : Time) (s : String × String) : DegradationSignal :=
  ⟨s.1, s.2, windowStart, 1, signalType, baselineRate, drop, drop, evaluatedAt⟩

def episodeOf (s : String × String) : DegradationEpisode :=
  ⟨⟨s.1, s.2, t₀⟩, s.1, s.2, t₀, none, .active, 1, 3, .critical⟩

def evaluationOf (s : String × String) : RootCauseAnalysisEvaluation :=
  { evaluationId := ⟨⟨s.1, s.2, t₀⟩, 1⟩
    episodeId := ⟨s.1, s.2, t₀⟩
    evaluationVersion := 1
    classification := .systemic
    analysisWindowStart := t₀
    analysisWindowEnd := t₀ + Time.minutes 15
    inputFingerprint := ⟨⟨s.1, s.2, t₀⟩, .active, t₀, t₀ + Time.minutes 15, 150, 150, []⟩
    generatedAt := t₀ + Time.minutes 15 }

def outageTables : AnalyticsTables where
  snapshots :=
    ((List.range 3).flatMap fun k => segments.map
      (snapshotOf (t₀ - Time.weeks 1 + Time.minutes 5 * k) 1 0 (some 1, some 0) none)) ++
    (List.range 3).flatMap fun k => segments.map
      (snapshotOf (t₀ + Time.minutes 5 * k) 0 50 (some 0, some 1) (some 1))
  signals :=
    ((List.range 3).flatMap fun k =>
      let windowStart := t₀ - Time.weeks 1 + Time.minutes 5 * k
      segments.map (signalOf windowStart .noBaseline none none windowStart)) ++
    (List.range 3).flatMap fun k =>
      let windowStart := t₀ + Time.minutes 5 * k
      segments.map (signalOf windowStart .bad (some 1) (some 1) (windowStart + 49))
  episodes := segments.map episodeOf
  history := segments.zipIdx.map fun (s, i) =>
    ⟨i + 1, ⟨s.1, s.2, t₀⟩, s.1, s.2, .active, .critical, t₀, t₀ + Time.minutes 10 + 49⟩
  evaluations := segments.map evaluationOf

def outageWorld : LiveWorld where
  db := { events := (List.range 3).map baseline ++
            (List.range 3).flatMap fun k => (List.range 50).map (failure k)
          analytics := outageTables }
  sessions := (List.range 3).map (fun k => Session.fresh (.start (baseline k))) ++
    (List.range 3).flatMap fun k => (List.range 50).map fun i => Session.fresh
      (if i = 49 then .start (failure k i) else .analytics (failure k i))
  calls := []

deriving instance DecidableEq for Session, World

theorem afterOutage_world : afterOutage = some outageWorld := by decide +kernel

/-- The worlds after one authorization, after its capture, after a second authorization
instead, and at the end. -/
def worlds : Option (LiveWorld × LiveWorld × LiveWorld × LiveWorld) := do
  let w₀ ← afterOutage
  let w ← execSingle w₀ (authorization 153 0 .retrySecondaryGateway)
  let w' ← execSingle w (capture 154 11)
  let w₁ ← Run.exec (liveProgram getDefaultPolicy).worldStep w second
  let w₂ ← Run.exec (liveProgram getDefaultPolicy).worldStep w₁ rest
  return (w, w', w₁, w₂)

/-- The first authorization is acted on once; so is the second, and in the end four commands
are credited with more than the payment. -/
theorem worlds_facts : (worlds.map fun (_, w', w₁, w₂) =>
    decide ((w'.db.commands.length = 1 ∧
        0 < protectedByAttempt w'.db razorpaySourceSystem "pay_1") ∧
      ¬ SingleIntervention w₁.db ∧
      authorizedAmount w₂.db razorpaySourceSystem "pay_1" <
        protectedByAttempt w₂.db razorpaySourceSystem "pay_1")) = some true := by
  rw [worlds, afterOutage_world]
  decide +kernel

theorem outcomes : ∃ w' w₁ w₂,
    (Run.Guarded (liveProgram getDefaultPolicy).worldStep
        (Program.worldGuard (singleActGuard getDefaultPolicy)) ⟨{}, [], []⟩
        (first ++ capture 154 11) ∧
      liveRun getDefaultPolicy (first ++ capture 154 11) = some w') ∧
    liveRun getDefaultPolicy (first ++ second) = some w₁ ∧
    liveRun getDefaultPolicy (first ++ second ++ rest) = some w₂ ∧
    (w'.db.commands.length = 1 ∧ 0 < protectedByAttempt w'.db razorpaySourceSystem "pay_1") ∧
    ¬ SingleIntervention w₁.db ∧
    authorizedAmount w₂.db razorpaySourceSystem "pay_1" <
      protectedByAttempt w₂.db razorpaySourceSystem "pay_1" := by
  obtain ⟨⟨w, w', w₁, w₂⟩, hworlds, hfacts⟩ := Option.map_eq_some_iff.mp worlds_facts
  simp only [worlds, Option.bind_eq_bind, Option.bind_eq_some_iff, Option.pure_def,
    Option.some.injEq, Prod.mk.injEq] at hworlds
  obtain ⟨u₀, hw₀, u, hw, u', hw', u₁, hw₁, u₂, hw₂, rfl, rfl, rfl, rfl⟩ := hworlds
  have hfirst : execSingle ⟨{}, [], []⟩ first = some u :=
    execSingle_append (afterOutage_eq hw₀) hw
  obtain ⟨hgw, hxw⟩ := Run.execGuarded_eq_some.mp hfirst
  obtain ⟨hgw', hxw'⟩ := Run.execGuarded_eq_some.mp hw'
  have hx₁ : liveRun getDefaultPolicy (first ++ second) = some u₁ := by
    rw [liveRun, Run.exec_append_of_eq hxw, hw₁]
  refine ⟨u', u₁, u₂, ⟨hgw.append hxw hgw', ?_⟩, hx₁, ?_, of_decide_eq_true hfacts⟩
  · rw [liveRun, Run.exec_append_of_eq hxw, hxw']
  · rw [liveRun, Run.exec_append_of_eq hx₁, hw₂]

end LedgerExample

open LedgerExample in
theorem commands_singleIntervention_first : ∃ w,
    liveRun getDefaultPolicy (first ++ capture 154 11) = some w ∧
      w.db.commands.length = 1 ∧ SingleIntervention w.db := by
  obtain ⟨w', -, -, ⟨hg, hrun⟩, -, -, ⟨hlength, -⟩, -⟩ := outcomes
  exact ⟨w', hrun, hlength, commands_singleIntervention hg hrun⟩

open LedgerExample in
/-- A second authorization is acted on through another route. -/
theorem commands_not_singleIntervention : ∃ w,
    liveRun getDefaultPolicy (first ++ second) = some w ∧ ¬ SingleIntervention w.db := by
  obtain ⟨-, w₁, -, -, hrun, -, -, hfail, -⟩ := outcomes
  exact ⟨w₁, hrun, hfail⟩

/-! ## The amount protected -/

theorem LedgerStore.latestProtected_le {db : Database} (h : LedgerStore db)
    (hunique : Unique db) {c : InterventionCommand} (hc : c ∈ db.commands) :
    latestProtected db c ≤ authorizedAmount db c.sourceSystem c.paymentAttemptId := by
  unfold latestProtected
  cases hlatest : getLatestAttribution db c.commandId with
  | none => exact authorizedAmount_nonneg _ _ _
  | some a =>
      obtain ⟨ha, hid⟩ : a ∈ db.attributions ∧ a.commandId = c.commandId := by
        simpa using Table.latestBy_mem hlatest
      obtain ⟨c', hc', hid', hle⟩ := h.attributions a ha
      obtain rfl := hunique.command_eq hc' hc (.inl (hid'.trans hid))
      exact hle

/-- An attempt with one command is credited with at most the amount authorized. -/
theorem LedgerStore.protectedByAttempt_le {db : Database} (h : LedgerStore db)
    (hunique : Unique db) (hsingle : SingleIntervention db)
    (sourceSystem paymentAttemptId : String) :
    protectedByAttempt db sourceSystem paymentAttemptId ≤
      authorizedAmount db sourceSystem paymentAttemptId := by
  have hpair : (commandsOf db sourceSystem paymentAttemptId).Pairwise fun a b =>
      ¬ (a.sourceSystem = b.sourceSystem ∧ a.paymentAttemptId = b.paymentAttemptId) :=
    hsingle.filter _
  unfold protectedByAttempt
  rcases hcs : commandsOf db sourceSystem paymentAttemptId with _ | ⟨a, _ | ⟨b, cs⟩⟩
  · exact authorizedAmount_nonneg _ _ _
  · obtain ⟨ha, rfl, rfl⟩ := mem_commandsOf.mp (hcs ▸ List.mem_cons_self)
    simpa using h.latestProtected_le hunique ha
  · obtain ⟨-, has, hak⟩ := mem_commandsOf.mp (hcs ▸ List.mem_cons_self)
    obtain ⟨-, hbs, hbk⟩ :=
      mem_commandsOf.mp (hcs ▸ List.mem_cons_of_mem _ List.mem_cons_self)
    rw [hcs] at hpair
    exact absurd ⟨has.trans hbs.symm, hak.trans hbk.symm⟩
      ((List.pairwise_cons.mp hpair).1 b List.mem_cons_self)

/-- In every run whose steps admit no second `ACT` decision of an attempt, the commands of an
attempt are together credited with at most the amount authorized for it. -/
theorem protectedByAttempt_le_authorized {policy : InterventionPolicy} {as : List LiveAction}
    {w : LiveWorld}
    (hg : Run.Guarded (liveProgram policy).worldStep
      (Program.worldGuard (singleActGuard policy)) ⟨{}, [], []⟩ as)
    (h : liveRun policy as = some w) (sourceSystem paymentAttemptId : String) :
    protectedByAttempt w.db sourceSystem paymentAttemptId ≤
      authorizedAmount w.db sourceSystem paymentAttemptId :=
  have hledger := liveRun_ledger hg h
  have hunique := (liveRun_met h).store
  hledger.protectedByAttempt_le hunique (hledger.singleIntervention hunique) _ _

open LedgerExample in
theorem protectedByAttempt_le_authorized_first : ∃ w,
    liveRun getDefaultPolicy (first ++ capture 154 11) = some w ∧
      0 < protectedByAttempt w.db razorpaySourceSystem "pay_1" ∧
      protectedByAttempt w.db razorpaySourceSystem "pay_1" ≤
        authorizedAmount w.db razorpaySourceSystem "pay_1" := by
  obtain ⟨w', -, -, ⟨hg, hrun⟩, -, -, ⟨-, hpos⟩, -⟩ := outcomes
  exact ⟨w', hrun, hpos, protectedByAttempt_le_authorized hg hrun _ _⟩

open LedgerExample in
/-- Four authorizations of one payment are credited with more than its amount. -/
theorem protectedByAttempt_not_le : ∃ w,
    liveRun getDefaultPolicy (first ++ second ++ rest) = some w ∧
      ¬ protectedByAttempt w.db razorpaySourceSystem "pay_1" ≤
        authorizedAmount w.db razorpaySourceSystem "pay_1" := by
  obtain ⟨-, -, w₂, -, -, hrun, -, -, hmore⟩ := outcomes
  exact ⟨w₂, hrun, Int.not_le.mpr hmore⟩

end RevenueRecovery
