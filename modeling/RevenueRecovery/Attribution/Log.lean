import RevenueRecovery.Execution.ObservationLog
import RevenueRecovery.Services.Configured

/-!
# Stage 8: the attribution log

A call reads the attributions of its command and appends one under the attribution lock of
the command. Versions count the appended rows, while a call is recognized by its as-of time;
the lock keeps both keys unique, in whatever order the as-of times come.

## Main definitions
* `attributionTable` : the attributions, and the locks that guard them.
* `AttributionLog` : what holds of the attributions of a command.
* `attributionLog` : the calls keep it.
-/
namespace RevenueRecovery

open Transaction

/-- The attribution a write appends. -/
def Write.attribution? : Write → Option CounterfactualAttribution
  | .appendAttribution a => some a
  | _ => none

/-- The attributions: a command's are guarded by its attribution lock. -/
def attributionTable : LockedTable Database Write LockKey CounterfactualAttribution where
  rows := Database.attributions
  row? := Write.attribution?
  guards
    | .attribution id, a => a.commandId = id
    | _, _ => false

/-- The attributions of a command, oldest first. -/
def Database.attributionsOf (db : Database) (commandId : CommandId) :
    List CounterfactualAttribution :=
  db.attributions.filter fun a => a.commandId = commandId

theorem attributionsOf_eq (db : Database) (id : CommandId) :
    db.attributionsOf id = attributionTable.guarded (.attribution id) db := rfl

/-- Versions count the rows, and no two rows are as of one time. -/
structure AttributionLog (rows : List CounterfactualAttribution) : Prop where
  numbered : Table.Numbered (·.attributionVersion) rows
  distinct : rows.Pairwise fun a b => a.asOfTimestamp ≠ b.asOfTimestamp

/-- What holds of the attributions each lock guards. -/
def AttributionLogs : LockKey → List CounterfactualAttribution → Prop
  | .attribution _, rows => AttributionLog rows
  | _, _ => True

/-- The lock a call needs for its attribution. -/
def CallProc.attributing : CallProc → LockKey → Prop
  | .attributeLocked id _, key => key = .attribution id
  | _, _ => False

namespace AttributionLog
variable {rows : List CounterfactualAttribution}

theorem nil : AttributionLog [] := ⟨.nil _, .nil⟩

theorem eq_of_asOf (h : AttributionLog rows) {a b : CounterfactualAttribution} (ha : a ∈ rows)
    (hb : b ∈ rows) (hab : a.asOfTimestamp = b.asOfTimestamp) : a = b := by
  by_contra hne
  have : Std.Symm fun x y : CounterfactualAttribution => x.asOfTimestamp ≠ y.asOfTimestamp :=
    ⟨fun _ _ => Ne.symm⟩
  exact h.distinct.forall ha hb hne hab

theorem filter_asOf (h : AttributionLog rows) {a : CounterfactualAttribution} (ha : a ∈ rows) :
    rows.filter (·.asOfTimestamp = a.asOfTimestamp) = [a] := by
  obtain ⟨before, after, rfl⟩ := List.append_of_mem ha
  obtain ⟨-, hafter, hacross⟩ := List.pairwise_append.mp h.distinct
  have hbefore : before.filter (·.asOfTimestamp = a.asOfTimestamp) = [] :=
    List.filter_eq_nil_iff.mpr fun b hb => by simpa using hacross b hb a List.mem_cons_self
  have hrest : after.filter (·.asOfTimestamp = a.asOfTimestamp) = [] :=
    List.filter_eq_nil_iff.mpr fun b hb => by
      simpa using ((List.pairwise_cons.mp hafter).1 b hb).symm
  rw [List.filter_append, hbefore, List.filter_cons_of_pos (by simp), hrest, List.nil_append]

/-- The next version, as of a time that no row has. -/
theorem snoc (h : AttributionLog rows) {a : CounterfactualAttribution}
    (hversion : a.attributionVersion =
      (Table.latestBy (·.attributionVersion) rows).elim 1 (·.attributionVersion + 1))
    (hnew : ∀ b ∈ rows, b.asOfTimestamp ≠ a.asOfTimestamp) : AttributionLog (rows ++ [a]) := by
  refine ⟨h.numbered.snoc ?_, List.pairwise_append.mpr
    ⟨h.distinct, List.pairwise_singleton _ _, fun b hb c hc => ?_⟩⟩
  · rw [hversion, h.numbered.latestBy_eq]
    rcases List.eq_nil_or_concat rows with rfl | ⟨init, b, rfl⟩
    · rfl
    · have hnumbered := h.numbered
      rw [List.concat_eq_append] at hnumbered ⊢
      rw [List.getLast?_append, List.getLast?_singleton, Option.some_or, Option.elim_some,
        hnumbered.next, List.length_append, List.length_singleton]
  · rw [List.mem_singleton.mp hc]
    exact hnew b hb

end AttributionLog

/-! ## The log -/

section Log
variable {db db' : Database} {id : CommandId} {asOf : Time} {a : CounterfactualAttribution}

theorem getAttributionByAsOf_eq (db : Database) (id : CommandId) (asOf : Time) :
    getAttributionByAsOf db id asOf = (db.attributionsOf id).find? (·.asOfTimestamp = asOf) := by
  unfold getAttributionByAsOf Database.attributionsOf
  rw [List.find?_filter]
  simp

/-- The attribution as of a time is the only one. -/
theorem getAttributionByAsOf_mem (h : AttributionLog (db.attributionsOf id))
    (ha : a ∈ db.attributionsOf id) : getAttributionByAsOf db id a.asOfTimestamp = some a := by
  rw [getAttributionByAsOf_eq]
  have hfind : ((db.attributionsOf id).find? (·.asOfTimestamp = a.asOfTimestamp)).isSome := by
    simpa [List.find?_isSome] using ⟨a, ha, rfl⟩
  obtain ⟨b, hb⟩ := Option.isSome_iff_exists.mp hfind
  have hasOf : b.asOfTimestamp = a.asOfTimestamp := by simpa using List.find?_some hb
  rw [hb, h.eq_of_asOf (List.mem_of_find?_eq_some hb) ha hasOf]

/-- A new attribution is of the command and the time asked for, the version after the latest
one, and the first as of the time. -/
theorem attributePaymentIntervention_new {r : Reads}
    (h : attributePaymentIntervention r id asOf = .ok (.inr a)) :
    a.commandId = id ∧ a.asOfTimestamp = asOf ∧
      a.attributionVersion = (Table.latestBy (·.attributionVersion)
        ((r.db 2).attributionsOf id)).elim 1 (·.attributionVersion + 1) ∧
      ∀ b ∈ (r.db 0).attributionsOf id, b.asOfTimestamp ≠ asOf := by
  obtain ⟨u, hu, hnone, rfl⟩ := attributePaymentIntervention_spec h
  have hid : u.command.commandId = id := by
    simpa using List.find?_some (readUpstream_spec hu).1
  refine ⟨hid, rfl, rfl, fun b hb hasOf => ?_⟩
  rw [getAttributionByAsOf_eq] at hnone
  simpa [hasOf] using List.find?_eq_none.mp hnone b hb

theorem appended_attribution (key : LockKey) (a : CounterfactualAttribution) :
    attributionTable.appended key [.appendAttribution a] =
      if attributionTable.guards key a then [a] else [] :=
  attributionTable.appended_singleton rfl key

/-- A stored attribution is returned for the command and the time asked for. -/
theorem attributePaymentIntervention_stored {r : Reads}
    (h : attributePaymentIntervention r id asOf = .ok (.inl a)) :
    a ∈ (r.db 0).attributionsOf id ∧ a.asOfTimestamp = asOf := by
  unfold attributePaymentIntervention at h
  cases hold : getAttributionByAsOf (r.db 0) id asOf with
  | none =>
      simp only [hold, bind, Except.bind] at h
      split at h
      · split at h
        · cases h
        · split at h <;> cases h
      · split at h <;> cases h
  | some b =>
      simp only [hold, bind, Except.bind] at h
      split at h
      · cases h
      · obtain rfl : b = a := Sum.inl.inj (Except.ok.inj h)
        rw [getAttributionByAsOf_eq] at hold
        exact ⟨List.mem_of_find?_eq_some hold, by simpa using List.find?_some hold⟩

/-- A stored attribution has the provider of its command, as far as the command was read. -/
theorem checkCommandProvider_ok {view : Database} (hunique : Unique view)
    (hnames : Justified namesCommand view) (hread : Keeps db view) (ha : a ∈ view.attributions) :
    checkCommandProvider db a = .ok () := by
  unfold checkCommandProvider
  cases hget : db.getCommandById a.commandId with
  | none => rfl
  | some cmd =>
      obtain ⟨c, hc, hsame⟩ := hread.commands cmd (List.mem_of_find?_eq_some hget)
      obtain ⟨-, c', hc', hid, hsource, -⟩ := hnames.attributions a ha
      have hcmd : cmd.commandId = a.commandId := by simpa using List.find?_some hget
      obtain rfl := hunique.command_eq hc hc' (.inl (by rw [hsame.commandId, hcmd, hid]))
      simp [← hsource, hsame.sourceSystem]

variable {ι : Type}

/-- The calls keep the log: what a call reads under its lock is its view of the rows. -/
theorem attributionLog (config : ι → ServiceConfig) :
    CallLog attributionTable config CallProc.attributing (fun _ _ _ => True) AttributionLogs where
  appends db w := by
    cases w with
    | registerAttempt row =>
        simp only [attributionTable, Database.apply, Write.attribution?]
        split <;> simp
    | _ => simp [attributionTable, Database.apply, Write.attribution?]
  event _ := rfl
  analytics _ := rfl
  registration _ := rfl
  start {p} hp := by
    cases p <;> first | exact ⟨fun _ => id, fun _ _ => trivial⟩ | cases hp
  known _ _ _ := trivial
  step {i input db view p o} hrows _ _ _ hΦ h := by
    have hquiet : ∀ {o' : CallOutcome},
        (∀ ws next, o' = .write ws next → ws.filterMap Write.attribution? = []) →
        (∀ key, ¬o'.next.attributing key) →
        attributionTable.Allowed (configuredProgram config) (callNeeds CallProc.attributing)
          (callKnows config fun _ _ _ => True) AttributionLogs view (i, .calling p)
          ((o'.map .calling).map (Prod.mk i)) :=
      fun hws hneeds => allowed_of_none hΦ hws hneeds fun _ => trivial
    cases h with
    | @attributeLock id asOf => exact ⟨fun key hkey => .inl hkey, trivial⟩
    | @attributed id asOf a ha =>
        obtain ⟨rfl, rfl, hversion, hnew⟩ := attributePaymentIntervention_new ha
        have hown := hrows (.attribution a.commandId) rfl
        rw [CallInput.db_reads, attributionsOf_eq, hown] at hversion hnew
        intro _
        refine ⟨fun key hkey => ?_, fun _ => False.elim, fun key => ?_, trivial⟩
        · rw [appended_attribution, if_neg]
          intro hguards
          cases key with
          | attribution id => exact hkey (congrArg _ (of_decide_eq_true hguards).symm)
          | _ => cases hguards
        · rw [appended_attribution]
          split
          · rename_i hguards
            cases key with
            | attribution id =>
                obtain rfl : a.commandId = id := of_decide_eq_true hguards
                exact AttributionLog.snoc (hΦ (.attribution a.commandId)) hversion hnew
            | _ => trivial
          · rw [List.append_nil]
            exact hΦ key
    | @executing id t q o' hq hstep =>
        refine allowed_of_execution hΦ (fun w hw => ?_) (fun _ _ => False.elim) (fun _ _ => trivial)
          hstep
        cases w <;> first | rfl | exact hw.elim
    | _ =>
        refine hquiet (fun ws next ho => ?_) fun _ => id
        cases ho <;> rfl

end Log

/-! ## Runs -/

section Runs
variable {ι : Type} {config : ι → ServiceConfig} {as : List (ConfiguredAction ι)}
  {w : ConfiguredWorld ι} {s : ConfiguredSession ι} {i : ι} {id : CommandId} {asOf : Time}

theorem configuredRun_attributionLog (h : configuredRun config as = some w) :
    (configuredProgram config).Good
      (fun db => ∀ key, AttributionLogs key (attributionTable.guarded key db))
      (LockedTable.Log.Known attributionTable (configuredProgram config) KeepsRegistry
        (callNeeds CallProc.attributing) (callKnows config fun _ _ _ => True) AttributionLogs) w := by
  have hempty : ∀ key, AttributionLogs key (attributionTable.guarded key ({} : Database)) := by
    intro key
    cases key <;> first | exact AttributionLog.nil | trivial
  exact (attributionLog config).log.invariant.exec_true (.empty hempty) h

/-- What a call under the attribution lock reads of its command's attributions. -/
theorem attributeLocked_reads (h : configuredRun config as = some w) (hs : s ∈ w.sessions)
    (hproc : s.proc = (i, .calling (.attributeLocked id asOf))) :
    AttributionLog (((configuredProgram config).view w.db s).attributionsOf id) ∧
      ∀ k, ((configuredProgram config).reads w.db s k).attributionsOf id =
        ((configuredProgram config).view w.db s).attributionsOf id := by
  have hknown := (configuredRun_attributionLog h).session s hs
  have hneeds : callNeeds CallProc.attributing s.proc (.attribution id) := by
    rw [hproc]
    rfl
  exact ⟨hknown.rows (.attribution id), hknown.reads _ hneeds⟩

/-- A repeated call returns the stored row, whatever else has been stored since. -/
theorem attributeLocked_stored (h : configuredRun config as = some w) (hs : s ∈ w.sessions)
    (hproc : s.proc = (i, .calling (.attributeLocked id asOf))) {a : CounterfactualAttribution}
    (ha : a ∈ ((configuredProgram config).view w.db s).attributionsOf id)
    (hasOf : a.asOfTimestamp = asOf) (input : TransactionInput) :
    (configuredProgram config).outcome w.db s input =
      some (.write [] (i, .calling (.returned (.attribution a)))) := by
  subst hasOf
  obtain ⟨hlog, hreads⟩ := attributeLocked_reads h hs hproc
  have hnames := configuredRun_namesCommand h
  have hsession := hnames.session s hs
  have hmet := configuredRun_met h
  have hunique : Unique ((configuredProgram config).view w.db s) :=
    (Database.constraints rfl rfl rfl).keep_applyAll hmet.store (hmet.pending s hs)
  have hstored : getAttributionByAsOf ((configuredProgram config).reads w.db s 0) id
      a.asOfTimestamp = some a :=
    getAttributionByAsOf_mem (by rw [hreads]; exact hlog) (by rw [hreads]; exact ha)
  have hprovider : checkCommandProvider ((configuredProgram config).reads w.db s 1) a = .ok () :=
    checkCommandProvider_ok hunique (hsession.view rfl hnames.store) (hsession.reads 1)
      (List.mem_filter.mp ha).1
  refine configuredProgram_called hproc (by simp) (.attributeStored ?_)
  simp [attributePaymentIntervention, hstored, hprovider, bind, Except.bind, pure, Except.pure]

/-- A call under the attribution lock raises, returns the stored row of the time, or appends
the first one. -/
theorem attributeLocked_outcome (h : configuredRun config as = some w) (hs : s ∈ w.sessions)
    (hproc : s.proc = (i, .calling (.attributeLocked id asOf))) {input : TransactionInput}
    {o : Outcome Write LockKey InterventionCommand (ι × TransactionProc)}
    (ho : (configuredProgram config).outcome w.db s input = some o) :
    o = .rollback (i, .idle) ∨ ∃ a, a.commandId = id ∧ a.asOfTimestamp = asOf ∧
      (o = .write [] (i, .calling (.returned (.attribution a))) ∧
          a ∈ ((configuredProgram config).view w.db s).attributionsOf id ∨
        o = .write [.appendAttribution a] (i, .calling (.returned (.attribution a))) ∧
          ∀ b ∈ ((configuredProgram config).view w.db s).attributionsOf id,
            b.asOfTimestamp ≠ asOf) := by
  obtain ⟨-, hreads⟩ := attributeLocked_reads h hs hproc
  obtain ⟨o', rfl, hstep⟩ := configuredStepped ho
  have hproc' : s.transaction.proc = .calling (.attributeLocked id asOf) := by
    rw [Session.proc_map, hproc]
  rw [hproc] at hstep ⊢
  cases hstep with
  | requested hidle => rw [hproc'] at hidle; cases hidle
  | returned hreturned => rw [hproc'] at hreturned; cases hreturned
  | raised => exact .inl rfl
  | @called p o'' hcalling hp hcall =>
      obtain rfl := TransactionProc.calling.inj (hproc'.symm.trans hcalling)
      refine .inr ?_
      cases hcall with
      | @attributeStored _ _ a ha =>
          obtain ⟨hmem, hasOf⟩ := attributePaymentIntervention_stored ha
          have hmem' : a ∈ ((configuredProgram config).view w.db s).attributionsOf id :=
            hreads 0 ▸ hmem
          exact ⟨a, by simpa using (List.mem_filter.mp hmem).2, hasOf, .inl ⟨rfl, hmem'⟩⟩
      | @attributed _ _ a ha =>
          obtain ⟨hid, hasOf, -, hnew⟩ := attributePaymentIntervention_new ha
          refine ⟨a, hid, hasOf, .inr ⟨rfl, ?_⟩⟩
          rw [← hreads 0]
          exact hnew

/-- The attribution a call has returned is the one asked for, and its session sees it. -/
theorem attributeLocked_returned {u : ConfiguredWorld ι} {j : ℕ} {input : TransactionInput}
    {t : ConfiguredSession ι} {a : CounterfactualAttribution} (h : configuredRun config as = some w)
    (hs : w.sessions[j]? = some s) (hproc : s.proc = (i, .calling (.attributeLocked id asOf)))
    (hstep : (configuredProgram config).worldStep w (.advance j input) = some u)
    (ht : u.sessions[j]? = some t)
    (hreturned : t.proc = (i, .calling (.returned (.attribution a)))) :
    a.commandId = id ∧ a.asOfTimestamp = asOf ∧
      a ∈ ((configuredProgram config).view u.db t).attributions := by
  have hlt : j < w.sessions.length := (List.getElem?_eq_some_iff.mp hs).1
  have hproc' : ∀ {t₁ : ConfiguredSession ι}, (w.sessions.set j t₁)[j]? = some t → t₁ = t := by
    intro t₁ ht₁
    simpa [hlt] using ht₁
  simp only [Program.worldStep, hs] at hstep
  cases ho : (configuredProgram config).outcome w.db s input with
  | none => simp [ho] at hstep
  | some o =>
      simp only [ho] at hstep
      rcases attributeLocked_outcome h (List.mem_of_getElem? hs) hproc ho with
        rfl | ⟨b, hid, hasOf, ⟨rfl, hmem⟩ | ⟨rfl, -⟩⟩
      · obtain rfl := Option.some.inj hstep
        obtain rfl := hproc' ht
        cases hreturned
      · rw [Program.Simulates.perform_nil] at hstep
        obtain rfl := Option.some.inj hstep
        obtain rfl := hproc' ht
        obtain rfl : b = a := by simpa using hreturned
        refine ⟨hid, hasOf, ?_⟩
        have hview : (configuredProgram config).view w.db (s.wrote []
            (i, .calling (.returned (.attribution b)))) = (configuredProgram config).view w.db s := by
          simp [Program.view, Session.wrote]
        rw [World.db_setSession, hview]
        exact (List.mem_filter.mp hmem).1
      · simp only [Program.perform] at hstep
        split at hstep
        · cases hstep
        · split at hstep
          · obtain rfl := Option.some.inj hstep
            obtain rfl := hproc' ht
            cases hreturned
          · obtain rfl := Option.some.inj hstep
            obtain rfl := hproc' ht
            obtain rfl : b = a := by simpa using hreturned
            refine ⟨hid, hasOf, ?_⟩
            rw [World.db_setSession, configuredProgram_view, Session.wrote, List.foldl_append]
            exact List.mem_append_right _ List.mem_cons_self

/-- A call that has returned an attribution, in a transaction that is not undone: once all of
the transaction is committed, the row is the one of its command and time. -/
theorem attribution_committed {u w' : ConfiguredWorld ι} {j : ℕ} {input : TransactionInput}
    {t t' : ConfiguredSession ι} {a : CounterfactualAttribution} {as' : List (ConfiguredAction ι)}
    (h : configuredRun config as = some w) (hs : w.sessions[j]? = some s)
    (hproc : s.proc = (i, .calling (.attributeLocked id asOf)))
    (hstep : (configuredProgram config).worldStep w (.advance j input) = some u)
    (ht : u.sessions[j]? = some t) (hreturned : t.proc = (i, .calling (.returned (.attribution a))))
    (hrun : Run.exec (configuredProgram config).worldStep u as' = some w')
    (hkept : Run.Guarded (configuredProgram config).worldStep
      (fun v act => ¬LockedTable.undoes (configuredProgram config) j v act) u as')
    (ht' : w'.sessions[j]? = some t') (hpending : t'.pending = []) :
    (w'.db.attributionsOf id).filter (·.asOfTimestamp = asOf) = [a] := by
  have happends : attributionTable.Appends (configuredProgram config) :=
    (attributionLog config).appends
  obtain ⟨hid, hasOf, hrow⟩ := attributeLocked_returned h hs hproc hstep ht hreturned
  have hmem : a ∈ w'.db.attributions := happends.mem_exec hrun hkept ht ht' hpending hrow
  have hw' : configuredRun config (as ++ .advance j input :: as') = some w' := by
    rw [configuredRun, Run.exec_append_of_eq h, Run.exec_cons, hstep, Option.bind_some, hrun]
  have hlog : AttributionLog (w'.db.attributionsOf id) :=
    (configuredRun_attributionLog hw').store (.attribution id)
  subst hasOf
  exact hlog.filter_asOf (List.mem_filter.mpr ⟨hmem, by simpa using hid⟩)

/-- The versions of a command are `1, 2, …` and no two of its rows are as of one time; a
repeated call returns the stored row, a new one appends the first row of its time, and a call
that raises appends nothing; what a call has returned is, once committed, the one row of its
command and time; and rows never change. -/
theorem attributions_log (h : configuredRun config as = some w) :
    (∀ id, AttributionLog (w.db.attributionsOf id)) ∧
    (∀ j s i id asOf input, w.sessions[j]? = some s →
      s.proc = (i, .calling (.attributeLocked id asOf)) →
      (∀ a ∈ ((configuredProgram config).view w.db s).attributionsOf id, a.asOfTimestamp = asOf →
        (configuredProgram config).outcome w.db s input =
          some (.write [] (i, .calling (.returned (.attribution a))))) ∧
      (∀ o, (configuredProgram config).outcome w.db s input = some o →
        o = .rollback (i, .idle) ∨ ∃ a, a.commandId = id ∧ a.asOfTimestamp = asOf ∧
          (o = .write [] (i, .calling (.returned (.attribution a))) ∧
              a ∈ ((configuredProgram config).view w.db s).attributionsOf id ∨
            o = .write [.appendAttribution a] (i, .calling (.returned (.attribution a))) ∧
              ∀ b ∈ ((configuredProgram config).view w.db s).attributionsOf id,
                b.asOfTimestamp ≠ asOf)) ∧
      (∀ u t a as' w' t', (configuredProgram config).worldStep w (.advance j input) = some u →
        u.sessions[j]? = some t → t.proc = (i, .calling (.returned (.attribution a))) →
        Run.exec (configuredProgram config).worldStep u as' = some w' →
        Run.Guarded (configuredProgram config).worldStep
          (fun v act => ¬LockedTable.undoes (configuredProgram config) j v act) u as' →
        w'.sessions[j]? = some t' → t'.pending = [] →
        (w'.db.attributionsOf id).filter (·.asOfTimestamp = asOf) = [a])) ∧
    (∀ as' w', Run.exec (configuredProgram config).worldStep w as' = some w' →
      w.db.attributions <+: w'.db.attributions) := by
  refine ⟨fun id => (configuredRun_attributionLog h).store (.attribution id),
    fun j s i id asOf input hs hproc => ⟨fun a ha hasOf => ?_, fun o ho => ?_,
      fun u t a as' w' t' hstep ht hreturned hrun hkept ht' hpending => ?_⟩,
    fun as' w' hrun => ?_⟩
  · exact attributeLocked_stored h (List.mem_of_getElem? hs) hproc ha hasOf input
  · exact attributeLocked_outcome h (List.mem_of_getElem? hs) hproc ho
  · exact attribution_committed h hs hproc hstep ht hreturned hrun hkept ht' hpending
  · have happends : attributionTable.Appends (configuredProgram config) :=
      (attributionLog config).appends
    exact happends.prefix_exec hrun

end Runs

namespace AttributionLogExample

open ObservationLogExample (decision commandId)

def config : Unit → ServiceConfig := fun _ => ⟨deterministicBaselineModel, getDefaultPolicy⟩

def attempt : AttemptRef := ⟨razorpaySourceSystem, "pay_1", "pay_1", validAttemptIdentity_pay_1⟩

/-- The connection's caller makes a request, and the call takes `n` more steps. -/
def request (r : Request) (n : ℕ) : List (ConfiguredAction Unit) :=
  .advance 0 { request := r } :: List.replicate n (.advance 0 {})

/-- A command is attributed as of `10`, as of `5`, and as of `10` once more. -/
def run : List (ConfiguredAction Unit) :=
  [.arrive (.connect [()])] ++
    request (.registerAttempt ⟨"pay_1", razorpaySourceSystem, "pay_1", 0⟩) 0 ++
    request (.decide attempt 0) 3 ++ request (.createCommand decision 300 0) 2 ++
    request (.attributePayment commandId 10) 3 ++ request (.attributePayment commandId 5) 3 ++
    request (.attributePayment commandId 10) 3 ++ request .commit 0

end AttributionLogExample

open AttributionLogExample ObservationLogExample in
theorem attributions_log_run : ∃ w, configuredRun AttributionLogExample.config run = some w ∧
    (w.db.attributionsOf commandId).map (·.asOfTimestamp) = [10, 5] ∧
    AttributionLog (w.db.attributionsOf commandId) := by
  have hrun : ((configuredRun AttributionLogExample.config run).map fun w =>
      (w.db.attributionsOf commandId).map (·.asOfTimestamp)) = some [10, 5] := by decide +kernel
  obtain ⟨w, hw, hasOf⟩ := Option.map_eq_some_iff.mp hrun
  exact ⟨w, hw, hasOf, (attributions_log hw).1 commandId⟩

end RevenueRecovery
