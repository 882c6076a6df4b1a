import Mathlib.Data.List.ReduceOption
import RevenueRecovery.Attribution.Log
import RevenueRecovery.Inspection
import RevenueRecovery.Intervention.DecisionLog
import RevenueRecovery.Services.Identity

/-!
# Reporting conserves the ledger

Joins over versioned tables neither repeat nor drop a row, because each table is restricted to
the latest version of its group and, in every store the services commit, the joined tables have
at most one such row for each key.

## Main definitions
* `linked` : decisions are named by attempt and version, attributions by their command's decision.
* `Reportable` : the keys the joins rely on.
* `protectedAmount` : the protected amount of a command's highest-version attribution.
-/
namespace RevenueRecovery

open Relational Transaction

/-! ## Keys -/

/-- A decision is named by its attempt and version, and an attribution carries the decision of
its command. -/
def Linked (db : Database) : Write → Prop
  | .appendDecision d => d.Named
  | .appendAttribution a =>
      ∃ c ∈ db.commands, c.commandId = a.commandId ∧ c.decisionId = a.decisionId
  | _ => True

def linked : Justification where
  holds := Linked
  lasting {db db' w} hkeeps h := by
    cases w with
    | appendAttribution a =>
        obtain ⟨c, hc, hid, hdecision⟩ := h
        obtain ⟨c', hc', hsame⟩ := hkeeps.commands c hc
        exact ⟨c', hc', hsame.commandId.trans hid, hsame.decisionId.trans hdecision⟩
    | appendDecision d => exact h
    | _ => exact trivial

/-- A call links the rows it writes. -/
theorem CallStepped.linked {model : FailurePredictionModel} {policy : InterventionPolicy}
    {input : CallInput} {db : ℕ → Database} {now view : Database} {p next : CallProc}
    {ws : List Write} (h : CallStepped model policy input db now p (.write ws next))
    (hreads : ∀ k, Keeps (db k) view) : ∀ w ∈ ws, Linked view w := by
  intro w hw
  have horigin := h.origin hw
  cases w with
  | appendDecision d =>
      rcases horigin with ⟨ctx, rfl, hd⟩ | ⟨ctx, verdict, rfl, rfl⟩
      · obtain ⟨-, verdict, -, rfl⟩ := decideLocked_append hd
        rfl
      · obtain ⟨v, hd, -⟩ := decideAdmitted_eq policy (input.reads db) ctx verdict
        rw [hd]
        rfl
  | appendAttribution a =>
      obtain ⟨id, asOf, rfl, hattr⟩ := horigin
      obtain ⟨u, hu, -, rfl⟩ := attributePaymentIntervention_spec hattr
      obtain ⟨hget, -, -, hdecision, -⟩ := readUpstream_spec hu
      obtain ⟨c, hc, hsame⟩ := (hreads _).commands _ (List.mem_of_find?_eq_some hget)
      have hid : u.decision.decisionId = u.command.decisionId := by
        simpa using List.find?_some hdecision
      exact ⟨c, hc, hsame.commandId, hsame.decisionId.trans hid.symm⟩
  | _ => exact trivial

section Runs
variable {ι : Type} {config : ι → ServiceConfig} {as : List (ConfiguredAction ι)}
  {w : ConfiguredWorld ι}

theorem configuredProgram_linked (config : ι → ServiceConfig) :
    linked.Respected (configuredProgram config) fun _ _ _ => True where
  apply := rfl
  arrive {db x ws ps} harr w hw := by
    obtain ⟨rfl, -⟩ := configuredProgram_arrive harr
    cases x <;> simp_all [ConfiguredArrival.effect, linked, Linked]
  write {db s input ws next} hreads _ h w hw := by
    have hview : Keeps ((configuredProgram config).view db s)
        ((configuredProgram config).view db (s.wrote ws next)) := keeps_view_wrote rfl db s ws next
    obtain ⟨o, ho, hstep⟩ := configuredStepped h
    cases hstep with
    | requested hproc =>
        cases hr : input.request <;> rw [hr] at ho <;> cases ho <;> simp_all [linked, Linked]
    | returned => cases ho; simp at hw
    | raised => cases ho
    | @called p o' hproc hp hcall =>
        cases o' with
        | write vs next' =>
            obtain ⟨rfl, -⟩ := Outcome.write.inj ho
            exact hcall.linked (fun k => (hreads k).trans hview) w hw
        | _ => cases ho

/-- The keys the joins of the reports rely on. -/
structure Reportable (db : Database) : Prop where
  unique : Unique db
  linked : Justified linked db

theorem configuredRun_reportable (h : configuredRun config as = some w) : Reportable w.db :=
  ⟨(configuredRun_met h).store,
    ((configuredProgram_linked config).invariant.exec_true (.empty (.empty _)) h).store⟩

end Runs

/-! ## One row for each key -/

section Keys
variable {db : Database}

theorem nodup_of_pairwise {α : Type} {R : α → α → Bool} {rows : List α}
    (h : rows.Pairwise fun a b => R b a = false) (hrefl : ∀ a, R a a = true) : rows.Nodup := by
  refine h.imp fun {a b} hab heq => ?_
  rw [heq, hrefl] at hab
  cases hab

theorem mem_latestVersionIds {α ι κ : Type} [DecidableEq κ] {id : α → ι} {group : α → κ}
    {version : α → ℕ} {rows : List α} {a : α}
    (hid : ∀ b ∈ rows, id b = id a → b = a) :
    id a ∈ latestVersionIds id group version rows ↔ a ∈ latestVersions group version rows := by
  unfold latestVersionIds
  rw [List.mem_map]
  constructor
  · rintro ⟨b, hb, heq⟩
    rwa [hid b (mem_latestVersions.mp hb).1 heq] at hb
  · exact fun h => ⟨a, h, rfl⟩

/-- Two latest rows of one group are of one version. -/
theorem version_eq_of_latest {α ι κ : Type} [DecidableEq κ] {id : α → ι} {group : α → κ}
    {version : α → ℕ} {rows : List α} (hid : ∀ a ∈ rows, ∀ b ∈ rows, id a = id b → a = b) {a b : α}
    (ha : a ∈ rows) (hb : b ∈ rows) (hlatest : id a ∈ latestVersionIds id group version rows)
    (hlatest' : id b ∈ latestVersionIds id group version rows) (hgroup : group a = group b) :
    version a = version b := by
  have hmax := (mem_latestVersionIds fun x hx => hid x hx a ha).mp hlatest
  have hmax' := (mem_latestVersionIds fun x hx => hid x hx b hb).mp hlatest'
  exact le_antisymm ((mem_latestVersions.mp hmax').2 a ha hgroup)
    ((mem_latestVersions.mp hmax).2 b hb hgroup.symm)

namespace Reportable

theorem attribution_eq (h : Reportable db) {a b : CounterfactualAttribution}
    (ha : a ∈ db.attributions) (hb : b ∈ db.attributions)
    (hab : a.attributionId = b.attributionId ∨
      a.commandId = b.commandId ∧ a.attributionVersion = b.attributionVersion) : a = b := by
  by_contra hne
  have hsymm : Std.Symm fun x y : CounterfactualAttribution => y.sameVersion x = false := by
    refine ⟨fun x y hxy => ?_⟩
    rw [← hxy]
    simp only [CounterfactualAttribution.sameVersion, Bool.beq_eq_decide_eq, eq_comm]
  have hfalse := h.unique.attributions.forall ha hb hne
  rcases hab with hid | ⟨hid, hversion⟩ <;>
    simp_all [CounterfactualAttribution.sameVersion]

/-- An attribution selected by its id is the latest one of its command. -/
theorem latest_attribution (h : Reportable db) {a : CounterfactualAttribution}
    (ha : a ∈ db.attributions) : a.attributionId ∈ latestAttributionIds db ↔
      ∀ b ∈ db.attributions, b.commandId = a.commandId →
        b.attributionVersion ≤ a.attributionVersion := by
  have hid : ∀ b ∈ db.attributions, b.attributionId = a.attributionId → b = a :=
    fun b hb heq => h.attribution_eq hb ha (.inl heq)
  exact (mem_latestVersionIds hid).trans (mem_latestVersions.trans (and_iff_right ha))

/-- A command has one latest attribution. -/
theorem latest_attribution_eq (h : Reportable db) {a b : CounterfactualAttribution}
    (ha : a ∈ db.attributions) (hb : b ∈ db.attributions)
    (hlatest : a.attributionId ∈ latestAttributionIds db)
    (hlatest' : b.attributionId ∈ latestAttributionIds db) (hid : a.commandId = b.commandId) :
    a = b :=
  h.attribution_eq ha hb (.inr ⟨hid, version_eq_of_latest
    (fun _ hx _ hy heq => h.attribution_eq hx hy (.inl heq)) ha hb hlatest hlatest' hid⟩)

/-- So does a decision, which has one command. -/
theorem latest_attribution_of_decision (h : Reportable db) {a b : CounterfactualAttribution}
    (ha : a ∈ db.attributions) (hb : b ∈ db.attributions)
    (hlatest : a.attributionId ∈ latestAttributionIds db)
    (hlatest' : b.attributionId ∈ latestAttributionIds db) (hid : a.decisionId = b.decisionId) :
    a = b := by
  obtain ⟨c, hc, hcommand, hdecision⟩ := h.linked.attributions a ha
  obtain ⟨c', hc', hcommand', hdecision'⟩ := h.linked.attributions b hb
  have hsame : c.decisionId = c'.decisionId := by rw [hdecision, hdecision', hid]
  obtain rfl := h.unique.command_eq hc hc' (.inr hsame)
  exact h.latest_attribution_eq ha hb hlatest hlatest' (hcommand.symm.trans hcommand')

theorem latest_observation_eq (h : Reportable db) {a b : PaymentOutcomeObservation}
    (ha : a ∈ db.observations) (hb : b ∈ db.observations)
    (hlatest : a.observationId ∈ latestObservationIds db)
    (hlatest' : b.observationId ∈ latestObservationIds db) (hid : a.commandId = b.commandId) :
    a = b := by
  have hkey : ∀ x ∈ db.observations, ∀ y ∈ db.observations, x.observationId = y.observationId →
      x = y := by
    intro x hx y hy heq
    by_contra hne
    have hsymm : Std.Symm fun x y : PaymentOutcomeObservation => y.sameVersion x = false := by
      refine ⟨fun x y hxy => ?_⟩
      rw [← hxy]
      simp only [PaymentOutcomeObservation.sameVersion, Bool.beq_eq_decide_eq, eq_comm]
    have hfalse := h.unique.observations.forall hx hy hne
    simp [PaymentOutcomeObservation.sameVersion, heq] at hfalse
  exact h.unique.observation_eq ha hb hid
    (.inl (version_eq_of_latest hkey ha hb hlatest hlatest' hid))

theorem latest_attempt_eq (h : Reportable db) {a b : ExecutionAttempt}
    (ha : a ∈ db.executionAttempts) (hb : b ∈ db.executionAttempts)
    (hlatest : a.attemptId ∈ latestAttemptIds db) (hlatest' : b.attemptId ∈ latestAttemptIds db)
    (hid : a.commandId = b.commandId) : a = b := by
  have hkey : ∀ x ∈ db.executionAttempts, ∀ y ∈ db.executionAttempts,
      x.attemptId = y.attemptId → x = y := fun x hx y hy heq =>
    h.unique.executionAttempt_eq hx hy (Prod.mk.inj heq).1 (Prod.mk.inj heq).2
  exact h.unique.executionAttempt_eq ha hb hid
    (version_eq_of_latest hkey ha hb hlatest hlatest' hid)

/-- A payment attempt has one latest decision, since decisions are named by their version. -/
theorem latest_decision_eq (h : Reportable db) {a b : InterventionDecision}
    (ha : a ∈ db.decisions) (hb : b ∈ db.decisions)
    (hlatest : a.decisionId ∈ latestDecisionIds db) (hlatest' : b.decisionId ∈ latestDecisionIds db)
    (hid : a.paymentAttemptId = b.paymentAttemptId) : a = b := by
  have hversion := version_eq_of_latest (fun _ hx _ hy => h.unique.decision_eq hx hy) ha hb
    hlatest hlatest' hid
  have hnamed : a.Named := h.linked.decisions a ha
  have hnamed' : b.Named := h.linked.decisions b hb
  refine h.unique.decision_eq ha hb ?_
  rw [hnamed, hnamed', hid, hversion]

end Reportable

end Keys

/-! ## Protected GMV -/

/-- The protected amount of the command's highest-version attribution. -/
def protectedAmount (db : Database) (c : InterventionCommand) : ℤ :=
  ((getLatestAttribution db c.commandId).map (·.attributedProtectedGmvMinorUnits)).getD 0

theorem length_filter_key_le_one {α κ : Type} [DecidableEq κ] {key : α → κ} {rows : List α}
    (h : (rows.map key).Nodup) (k : κ) : (rows.filter fun a => key a = k).length ≤ 1 := by
  rw [Table.filter_key_eq_find? h]
  cases rows.find? fun a => key a = k <;> simp

theorem nodup_paymentCurrency (db : Database) : ((paymentCurrency db).map Prod.fst).Nodup := by
  unfold paymentCurrency
  simp only [List.map_map, Function.comp_def, List.map_id']
  exact List.nodup_dedup _

theorem nodup_currencyOrder (currencies : List (Option String)) :
    (currencyOrder currencies).Nodup := by
  have hsome : ((currencies.reduceOption.dedup.insertionSort (· ≤ ·)).map some).Nodup :=
    ((List.perm_insertionSort _ _).nodup_iff.mpr (List.nodup_dedup _)).map
      (Option.some_injective _)
  unfold currencyOrder
  split
  · refine List.nodup_append.mpr ⟨hsome, List.nodup_singleton _, ?_⟩
    rintro x hx y hy rfl
    obtain rfl := List.mem_singleton.mp hy
    simp at hx
  · rwa [List.append_nil]

theorem mem_currencyOrder {currencies : List (Option String)} {c : Option String}
    (h : c ∈ currencies) : c ∈ currencyOrder currencies := by
  unfold currencyOrder
  cases c with
  | none => simp [h]
  | some c =>
      refine List.mem_append_left _ (List.mem_map_of_mem ?_)
      rw [List.mem_insertionSort, List.mem_dedup]
      exact List.reduceOption_mem_iff.mpr h

/-- The currency joins one row to each attribution. -/
theorem attributedRows_attribution (db : Database) :
    (attributedRows db false).map (·.attribution) = db.attributions := by
  unfold attributedRows
  simp only [Bool.false_eq_true, if_false, List.map_map]
  refine map_fst_leftJoin fun a _ => ?_
  exact length_filter_key_le_one (nodup_paymentCurrency db) a.paymentAttemptId

/-- The groups add up to the latest attributions. -/
theorem sum_protectedGmvByCurrency (db : Database) :
    ((protectedGmvByCurrency db).map (·.amountMinorUnits)).sum =
      ((db.attributions.filter fun a => a.attributionId ∈ latestAttributionIds db).map
        (·.attributedProtectedGmvMinorUnits)).sum := by
  unfold protectedGmvByCurrency
  dsimp only
  rw [List.map_map]
  simp only [Function.comp_def, currencyGroup, List.map_map, and_true]
  rw [sum_groups (fun r : AttributedRow => r.currency)
    (fun r => r.attribution.attributedProtectedGmvMinorUnits) (nodup_currencyOrder _)
    fun r hr => mem_currencyOrder (List.mem_map_of_mem hr)]
  conv_rhs => rw [← attributedRows_attribution db]
  rw [List.filter_map, List.map_map]
  rfl

namespace Reportable
variable {db : Database}

theorem nodup_commandIds (h : Reportable db) : (db.commands.map (·.commandId)).Nodup := by
  have hnodup : db.commands.Nodup := nodup_of_pairwise h.unique.commands fun c => by
    simp [InterventionCommand.sameIdentity]
  exact hnodup.map_on fun a ha b hb hid => h.unique.command_eq ha hb (.inl hid)

theorem nodup_attributions (h : Reportable db) : db.attributions.Nodup :=
  nodup_of_pairwise h.unique.attributions fun a => by simp [CounterfactualAttribution.sameVersion]

/-- The latest attributions of a command: the one of the highest version, if there is any. -/
theorem filter_latest_attribution (h : Reportable db) (id : CommandId) :
    (db.attributions.filter fun a => a.attributionId ∈ latestAttributionIds db).filter
      (fun a => a.commandId = id) = (getLatestAttribution db id).toList := by
  have hone : ((db.attributions.filter fun a => a.attributionId ∈ latestAttributionIds db).filter
      fun a => a.commandId = id).length ≤ 1 := by
    refine length_filter_le_one (h.nodup_attributions.filter _) fun a ha b hb hid hid' => ?_
    obtain ⟨ha, hlatest⟩ := List.mem_filter.mp ha
    obtain ⟨hb, hlatest'⟩ := List.mem_filter.mp hb
    exact h.latest_attribution_eq ha hb (of_decide_eq_true hlatest) (of_decide_eq_true hlatest')
      ((of_decide_eq_true hid).trans (of_decide_eq_true hid').symm)
  unfold getLatestAttribution
  cases hfind : Table.latestBy (·.attributionVersion)
      (db.attributions.filter fun a => a.commandId = id) with
  | none =>
      have hnil := Table.latestBy_eq_none.mp hfind
      rw [List.filter_filter]
      refine List.filter_eq_nil_iff.mpr fun a ha hmatch => ?_
      have hmem : a ∈ db.attributions.filter fun a => a.commandId = id :=
        List.mem_filter.mpr ⟨ha, (Bool.and_eq_true_iff.mp hmatch).1⟩
      rw [hnil] at hmem
      cases hmem
  | some a =>
      obtain ⟨hmem, hmax⟩ := Table.latestBy_spec hfind
      obtain ⟨ha, hid⟩ := List.mem_filter.mp hmem
      have hlatest : a.attributionId ∈ latestAttributionIds db :=
        (h.latest_attribution ha).mpr fun b hb hcommand =>
          hmax b (List.mem_filter.mpr ⟨hb, by simpa [hcommand] using hid⟩)
      have hin : a ∈ (db.attributions.filter
          fun a => a.attributionId ∈ latestAttributionIds db).filter fun a => a.commandId = id :=
        List.mem_filter.mpr ⟨List.mem_filter.mpr ⟨ha, decide_eq_true hlatest⟩, hid⟩
      obtain ⟨b, hb⟩ := List.length_eq_one_iff.mp
        (le_antisymm hone (List.length_pos_of_mem hin))
      rw [hb] at hin ⊢
      obtain rfl := List.mem_singleton.mp hin
      rfl

/-- The currency groups add up to the commands. -/
theorem sum_protectedAmount (h : Reportable db) :
    ((protectedGmvByCurrency db).map (·.amountMinorUnits)).sum =
      (db.commands.map (protectedAmount db)).sum := by
  rw [sum_protectedGmvByCurrency, ← sum_groups (·.commandId) _ h.nodup_commandIds fun a ha => ?_]
  · rw [List.map_map]
    refine congrArg List.sum (List.map_congr_left fun c _ => ?_)
    rw [Function.comp_apply, h.filter_latest_attribution, protectedAmount]
    cases getLatestAttribution db c.commandId <;> simp
  · obtain ⟨c, hc, hid, -⟩ := h.linked.attributions a (List.mem_filter.mp ha).1
    exact hid ▸ List.mem_map_of_mem hc

end Reportable

/-! ## Recovery ledger -/

theorem hasCommandId_eq {command : Option InterventionCommand} {id id' : CommandId}
    (h : hasCommandId command id = true) (h' : hasCommandId command id' = true) : id = id' := by
  obtain ⟨c, hc, hid⟩ := Option.any_eq_true _ _ |>.mp h
  obtain ⟨c', hc', hid'⟩ := Option.any_eq_true _ _ |>.mp h'
  rw [hc] at hc'
  obtain rfl := Option.some.inj hc'
  exact (of_decide_eq_true hid).symm.trans (of_decide_eq_true hid')

namespace Reportable
variable {db : Database}

theorem nodup_observations (h : Reportable db) : db.observations.Nodup :=
  nodup_of_pairwise h.unique.observations fun a => by simp [PaymentOutcomeObservation.sameVersion]

theorem nodup_executionAttempts (h : Reportable db) : db.executionAttempts.Nodup :=
  nodup_of_pairwise h.unique.executionAttempts fun a => by simp [ExecutionAttempt.sameNumber]

theorem nodup_decisions (h : Reportable db) : db.decisions.Nodup :=
  nodup_of_pairwise h.unique.decisions fun a => by simp [InterventionDecision.sameVersion]

theorem nodup_commands (h : Reportable db) : db.commands.Nodup := h.nodup_commandIds.of_map

/-- The latest attributions that join a decision. -/
theorem latest_attributions_of_decision (h : Reportable db) (id : DecisionId) :
    (db.attributions.filter fun a => a.decisionId = id ∧
      a.attributionId ∈ latestAttributionIds db).length ≤ 1 := by
  refine length_filter_le_one h.nodup_attributions fun a ha b hb hmatch hmatch' => ?_
  obtain ⟨hid, hlatest⟩ := of_decide_eq_true hmatch
  obtain ⟨hid', hlatest'⟩ := of_decide_eq_true hmatch'
  exact h.latest_attribution_of_decision ha hb hlatest hlatest' (hid.trans hid'.symm)

/-- Every decision has one row. -/
theorem ledgerJoins_decision (h : Reportable db) :
    (ledgerJoins db).map (·.decision) = db.decisions := by
  unfold ledgerJoins
  extract_lets commands observations attributions attempts currencies
  have hcommands : commands.map Prod.fst = db.decisions := by
    refine map_fst_leftJoin fun d _ => length_filter_le_one h.nodup_commands ?_
    intro a ha b hb hid hid'
    exact h.unique.command_eq ha hb
      (.inr ((of_decide_eq_true hid).trans (of_decide_eq_true hid').symm))
  have hobservations : observations.map Prod.fst = commands := by
    refine map_fst_leftJoin fun r _ => length_filter_le_one h.nodup_observations ?_
    intro a ha b hb hmatch hmatch'
    obtain ⟨hid, hlatest⟩ := of_decide_eq_true hmatch
    obtain ⟨hid', hlatest'⟩ := of_decide_eq_true hmatch'
    exact h.latest_observation_eq ha hb hlatest hlatest' (hasCommandId_eq hid hid')
  have hattributions : attributions.map Prod.fst = observations :=
    map_fst_leftJoin fun r _ => h.latest_attributions_of_decision r.1.1.decisionId
  have hattempts : attempts.map Prod.fst = attributions := by
    refine map_fst_leftJoin fun r _ => length_filter_le_one h.nodup_executionAttempts ?_
    intro a ha b hb hmatch hmatch'
    obtain ⟨hid, hlatest⟩ := of_decide_eq_true hmatch
    obtain ⟨hid', hlatest'⟩ := of_decide_eq_true hmatch'
    exact h.latest_attempt_eq ha hb hlatest hlatest' (hasCommandId_eq hid hid')
  have hcurrencies : currencies.map Prod.fst = attempts :=
    map_fst_leftJoin fun r _ =>
      length_filter_key_le_one (nodup_paymentCurrency db) r.1.1.1.1.paymentAttemptId
  calc _ = ((((currencies.map Prod.fst).map Prod.fst).map Prod.fst).map Prod.fst).map Prod.fst := by
        simp only [List.map_map, Function.comp_def]
    _ = db.decisions := by
        rw [hcurrencies, hattempts, hattributions, hobservations, hcommands]

/-- The ledger has the decisions its filter selects. -/
theorem ledgerRows_decision (h : Reportable db) (decisionType : Option String) :
    (ledgerRows db decisionType).map (·.decision) =
      db.decisions.filter (ofDecisionType decisionType) := by
  rw [ledgerRows, ← h.ledgerJoins_decision, List.filter_map]
  rfl

end Reportable

/-! ## Payments list -/

namespace Reportable
variable {db : Database}

theorem event_eq (h : Reportable db) {a b : PaymentEvent} (ha : a ∈ db.events)
    (hb : b ∈ db.events) (hid : a.eventId = b.eventId) : a = b := by
  by_contra hne
  have hsymm : Std.Symm fun x y : PaymentEvent => y.sameIdentity x = false :=
    ⟨fun x y hxy => by rw [PaymentEvent.sameIdentity_comm]; exact hxy⟩
  have hfalse := h.unique.events.forall ha hb hne
  simp [PaymentEvent.sameIdentity, hid] at hfalse

theorem nodup_events (h : Reportable db) : db.events.Nodup :=
  nodup_of_pairwise h.unique.events fun a => by simp [PaymentEvent.sameIdentity]

/-- Every event has one joined row. -/
theorem paymentJoins_event (h : Reportable db) : (paymentJoins db).map (·.event) = db.events := by
  unfold paymentJoins
  extract_lets terminals decisions attributions
  have hterminals : terminals.map Prod.fst = db.events := by
    have hnodup : ((terminalStatuses db).map Prod.fst).Nodup := by
      unfold terminalStatuses
      simp only [List.map_map, Function.comp_def, List.map_id']
      exact List.nodup_dedup _
    exact map_fst_leftJoin fun e _ => length_filter_key_le_one hnodup e.paymentId
  have hdecisions : decisions.map Prod.fst = terminals := by
    refine map_fst_leftJoin fun r _ => length_filter_le_one h.nodup_decisions ?_
    intro a ha b hb hmatch hmatch'
    obtain ⟨hid, hlatest⟩ := of_decide_eq_true hmatch
    obtain ⟨hid', hlatest'⟩ := of_decide_eq_true hmatch'
    exact h.latest_decision_eq ha hb hlatest hlatest' (hid.trans hid'.symm)
  have hattributions : attributions.map Prod.fst = decisions := by
    refine map_fst_leftJoin fun r _ => ?_
    cases hd : r.2 with
    | none => simp
    | some d =>
        simpa using h.latest_attributions_of_decision d.decisionId
  calc _ = ((attributions.map Prod.fst).map Prod.fst).map Prod.fst := by
        simp only [List.map_map, Function.comp_def]
    _ = db.events := by rw [hattributions, hdecisions, hterminals]

/-- An event of the store is a canonical one when its payment's query row is that event. -/
theorem mem_canonicalEvents (h : Reportable db) {order : ℕ → ℕ} {e : PaymentEvent}
    (he : e ∈ db.events) : e.eventId ∈ canonicalEvents order db ↔
      e ∈ distinctOn (·.paymentId) (·.timestamp)
        (Table.scan order (db.events.filter (·.inRazorpayPipeline))) := by
  unfold canonicalEvents
  rw [List.mem_map]
  constructor
  · rintro ⟨c, hc, hid⟩
    have hstored : c ∈ db.events :=
      (List.mem_filter.mp (Table.mem_scan.mp (distinctOn_spec hc).1)).1
    rwa [h.event_eq hstored he hid] at hc
  · exact fun hc => ⟨e, hc, rfl⟩

/-- The canonical events are one of each payment. -/
theorem canonical_payments (h : Reportable db) (order : ℕ → ℕ) :
    ((db.events.filter fun e => e.eventId ∈ canonicalEvents order db).map (·.paymentId)).Perm
      ((db.events.filter (·.inRazorpayPipeline)).map (·.paymentId)).dedup := by
  let canonical := distinctOn (·.paymentId) (·.timestamp)
    (Table.scan order (db.events.filter (·.inRazorpayPipeline)))
  have hnodup : (canonical.map (·.paymentId)).Nodup := nodup_distinctOn ..
  have hperm : (db.events.filter fun e => e.eventId ∈ canonicalEvents order db).Perm canonical := by
    refine (List.perm_ext_iff_of_nodup (h.nodup_events.filter _) hnodup.of_map).mpr fun e => ?_
    rw [List.mem_filter, decide_eq_true_eq]
    constructor
    · rintro ⟨he, hcanonical⟩
      exact (h.mem_canonicalEvents he).mp hcanonical
    · intro hc
      have he := (List.mem_filter.mp (Table.mem_scan.mp (distinctOn_spec hc).1)).1
      exact ⟨he, (h.mem_canonicalEvents he).mpr hc⟩
  refine (hperm.map _).trans ((List.perm_ext_iff_of_nodup hnodup (List.nodup_dedup _)).mpr
    fun p => ?_)
  rw [List.mem_dedup, List.mem_map, List.mem_map]
  constructor
  · rintro ⟨e, he, rfl⟩
    exact ⟨e, Table.mem_scan.mp (distinctOn_spec he).1, rfl⟩
  · rintro ⟨e, he, rfl⟩
    exact exists_mem_distinctOn _ _ (Table.mem_scan.mpr he)

/-- Without a filter every distinct payment has one row. -/
theorem paymentRows_payments (h : Reportable db) (order : ℕ → ℕ) :
    ((paymentRows order db).map (·.paymentId)).Perm
      ((db.events.filter (·.inRazorpayPipeline)).map (·.paymentId)).dedup := by
  refine List.Perm.trans (.of_eq ?_) (h.canonical_payments order)
  have hevents : (selectedJoins order db {}).map (·.event) =
      db.events.filter fun e => e.eventId ∈ canonicalEvents order db := by
    rw [selectedJoins]
    conv_rhs => rw [← h.paymentJoins_event]
    rw [List.filter_map]
    refine congrArg _ (List.filter_congr fun r _ => ?_)
    simp [PaymentJoin.passes]
  rw [← hevents, paymentRows, List.map_map, List.map_map]
  rfl

end Reportable

/-- In every store the services commit: the currency groups add up to the protected amounts of
all commands; the ledger has one row for each decision; the payments list has one row for each
distinct payment that is not PayPal's, whichever of its earliest events stands for it; and both
have as many rows as their total count, also when that query picks other events. -/
theorem reporting_conserves {ι : Type} {config : ι → ServiceConfig}
    {as : List (ConfiguredAction ι)} {w : ConfiguredWorld ι}
    (h : configuredRun config as = some w) :
    ((protectedGmvByCurrency w.db).map (·.amountMinorUnits)).sum =
        (w.db.commands.map (protectedAmount w.db)).sum ∧
      (ledgerRows w.db).map (·.decision) = w.db.decisions ∧ w.db.decisions.Nodup ∧
      (ledgerRows w.db).length = ledgerCount w.db ∧
      ∀ order order' : ℕ → ℕ,
        ((paymentRows order w.db).map (·.paymentId)).Perm
          ((w.db.events.filter (·.inRazorpayPipeline)).map (·.paymentId)).dedup ∧
        (paymentRows order w.db).length = paymentCount order' w.db := by
  have hdb := configuredRun_reportable h
  have hledger := hdb.ledgerRows_decision none
  have hall : w.db.decisions.filter (ofDecisionType none) = w.db.decisions :=
    List.filter_eq_self.mpr fun _ _ => rfl
  refine ⟨hdb.sum_protectedAmount, hledger.trans hall, hdb.nodup_decisions, ?_,
    fun order order' => ⟨hdb.paymentRows_payments order, ?_⟩⟩
  · rw [ledgerCount, ← hledger, List.length_map]
  · have hlength : ∀ o, (paymentRows o w.db).length =
        ((w.db.events.filter (·.inRazorpayPipeline)).map (·.paymentId)).dedup.length :=
      fun o => by rw [← (hdb.paymentRows_payments o).length_eq, List.length_map]
    have hcount : paymentCount order' w.db = (paymentRows order' w.db).length := by
      rw [paymentCount, paymentRows, List.length_map]
    rw [hcount, hlength, hlength]

namespace ReportExample
open AttributionLogExample

/-- An event of a payment, of Razorpay, PayPal or the synthetic source. -/
def event (id : ℕ) (source payment type status : String) : PaymentEvent :=
  { eventId := id, sourceSystem := source, sourceEventId := toString id, paymentId := payment,
    timestamp := id, eventType := type, currency := "INR", amountMinorUnits := 10000,
    paymentStatus := status, ingestedAt := id }

/-- Razorpay's `pay_1` is authorized and captured, a synthetic `pay_2` fails, and so does a
payment of PayPal. -/
def events : List PaymentEvent :=
  [event 1 razorpaySourceSystem "pay_1" pipelineTriggerEventType "authorized",
    event 2 razorpaySourceSystem "pay_1" capturedEventType "captured",
    event 3 syntheticSourceSystem "pay_2" failedEventType "failed",
    event 4 paypalSourceSystem "PAYPAL-1" failedEventType "failed"]

/-- A command of `pay_1` is attributed twice, then the events arrive. -/
def history : List (ConfiguredAction Unit) := run ++ events.map fun e => .arrive (.event e)

end ReportExample

open ReportExample AttributionLogExample in
/-- One command with two attributions, and two payments that are not PayPal's. -/
theorem reporting_conserves_history : ∃ w,
    configuredRun AttributionLogExample.config history = some w ∧
    w.db.attributions.length = 2 ∧ w.db.events.length = 4 ∧
    (ledgerRows w.db).map (·.decision) = w.db.decisions ∧ (ledgerRows w.db).length = 1 ∧
    ((paymentRows id w.db).map (·.paymentId)).Perm ["pay_1", "pay_2"] := by
  have hrun : ((configuredRun AttributionLogExample.config history).map fun w =>
      (w.db.attributions.length, w.db.events, (ledgerRows w.db).length)) =
        some (2, events, 1) := by decide +kernel
  obtain ⟨w, hw, hfacts⟩ := Option.map_eq_some_iff.mp hrun
  obtain ⟨hattributions, hevents, hledger⟩ := Prod.mk.inj hfacts |>.imp_right Prod.mk.inj
  have hconserves := reporting_conserves hw
  refine ⟨w, hw, hattributions, by rw [hevents]; rfl, hconserves.2.1, hledger, ?_⟩
  refine (hconserves.2.2.2.2 id id).1.trans (.of_eq ?_)
  rw [hevents]
  decide +kernel

end RevenueRecovery
