import RevenueRecovery.Inspection.Conservation
import RevenueRecovery.Lib.Pages

/-!
# Pages of the ledger and of the payments list

Both listings are sorted by a time alone, and each page is a query of its own, which may return
rows of one time in another order than the query before it. The pages have every row once
exactly when no two rows of one time are the last of a page and the first of the next. The
payments list shows for each payment one of its earliest events; when several tie they have to
show the same row too (`pages_complete_iff`).

## Main definitions
* `LedgerComplete`, `PaymentsComplete` : the pages have every row once.
* `Determined` : the earliest events of a payment show one row.
-/
namespace RevenueRecovery

open Relational Transaction

/-! ## Listings -/

/-- Every row of the ledger is read once. -/
def LedgerComplete (db : Database) (decisionType : Option String) (limit : ℕ) : Prop :=
  Pages.Complete (·.decision.decidedAt) limit (ledgerRows db decisionType)

/-- Every row of the payments list is read once, where each query also chooses anew which of
the earliest events stands for a payment. -/
def PaymentsComplete (db : Database) (q : PaymentsQuery) (limit : ℕ) : Prop :=
  ∀ (order : ℕ → ℕ) (orders : ℕ → ℕ → ℕ) (results : ℕ → List PaymentRow),
    (∀ k, Pages.Arranges (·.timestamp) (paymentRows (orders k) db q) (results k)) →
      ∀ count, (paymentRows order db q).length ≤ count * limit →
        (Pages.read limit count results).Perm (paymentRows order db q)

/-- No event of the payment is earlier. -/
def IsEarliest (db : Database) (e : PaymentEvent) : Prop :=
  e.inRazorpayPipeline = true ∧ ∀ e' ∈ db.events, e'.inRazorpayPipeline = true →
    e'.paymentId = e.paymentId → e.timestamp ≤ e'.timestamp

/-- The row a joined event shows, if it passes the filters. -/
def PaymentJoin.shown (q : PaymentsQuery) (r : PaymentJoin) : Option PaymentRow :=
  if r.passes q then some r.row else none

/-- All earliest events of a payment show the same row, or none of them passes the filters. -/
def Determined (db : Database) (q : PaymentsQuery) : Prop :=
  ∀ a ∈ paymentJoins db, ∀ b ∈ paymentJoins db, IsEarliest db a.event → IsEarliest db b.event →
    a.event.paymentId = b.event.paymentId → a.shown q = b.shown q

/-! ## Representatives -/

/-- The joined rows of the events that stand for their payments. -/
def canonicalJoins (order : ℕ → ℕ) (db : Database) : List PaymentJoin :=
  (paymentJoins db).filter fun r => r.event.eventId ∈ canonicalEvents order db

theorem paymentRows_eq (order : ℕ → ℕ) (db : Database) (q : PaymentsQuery) :
    paymentRows order db q = (canonicalJoins order db).filterMap (·.shown q) := by
  have hselected : selectedJoins order db q = (canonicalJoins order db).filter (·.passes q) := by
    unfold selectedJoins canonicalJoins
    rw [List.filter_filter]
    exact List.filter_congr fun r _ => by simp [Bool.and_comm]
  have hshown : ∀ rows : List PaymentJoin,
      (rows.filter (·.passes q)).map (·.row) = rows.filterMap (·.shown q) := by
    intro rows
    induction rows with
    | nil => rfl
    | cons r rows ih =>
        by_cases hpasses : r.passes q = true
        · have hr : r.shown q = some r.row := if_pos hpasses
          rw [List.filter_cons_of_pos hpasses, List.map_cons, List.filterMap_cons_some hr, ih]
        · have hr : r.shown q = none := if_neg hpasses
          rw [List.filter_cons_of_neg hpasses, List.filterMap_cons_none hr, ih]
  rw [paymentRows, hselected, hshown]

/-- Lists with the same keys, whose items of one key yield the same, yield the same. -/
theorem filterMap_perm_of_keys {α β κ : Type} {key : α → κ} {f : α → Option β} {l l' : List α}
    (h : (l.map key).Perm (l'.map key))
    (hf : ∀ a ∈ l, ∀ b ∈ l', key a = key b → f a = f b) :
    (l.filterMap f).Perm (l'.filterMap f) := by
  induction l generalizing l' with
  | nil =>
      obtain rfl : l' = [] := by simpa using h.symm
      exact .refl _
  | cons a l ih =>
      have hmem : key a ∈ l'.map key := h.mem_iff.mp List.mem_cons_self
      obtain ⟨b, hb, hkey⟩ := List.mem_map.mp hmem
      obtain ⟨front, back, rfl⟩ := List.append_of_mem hb
      have hmiddle : (front ++ b :: back).Perm (b :: (front ++ back)) := List.perm_middle
      have hrest : (l.map key).Perm ((front ++ back).map key) := by
        have hcons := h.trans (hmiddle.map key)
        rw [List.map_cons, List.map_cons, hkey] at hcons
        exact hcons.cons_inv
      have htail := ih hrest fun a' ha' b' hb' =>
        hf a' (List.mem_cons_of_mem _ ha') b' (hmiddle.mem_iff.mpr (List.mem_cons_of_mem _ hb'))
      refine List.Perm.trans ?_ (hmiddle.filterMap f).symm
      rw [List.filterMap_cons, List.filterMap_cons, hf a List.mem_cons_self b hb hkey.symm]
      cases f b with
      | none => exact htail
      | some r => exact htail.cons r

namespace Reportable
variable {db : Database}

theorem canonicalJoins_payments (h : Reportable db) (order : ℕ → ℕ) :
    ((canonicalJoins order db).map (·.event.paymentId)).Perm
      ((db.events.filter (·.inRazorpayPipeline)).map (·.paymentId)).dedup := by
  refine List.Perm.trans (.of_eq ?_) (h.canonical_payments order)
  conv_rhs => rw [← h.paymentJoins_event, List.filter_map, List.map_map]
  rfl

theorem nodup_canonicalJoins (h : Reportable db) (order : ℕ → ℕ) :
    ((canonicalJoins order db).map (·.event.paymentId)).Nodup :=
  (h.canonicalJoins_payments order).nodup_iff.mpr (List.nodup_dedup _)

/-- A joined row is that of a stored event. -/
theorem event_mem (h : Reportable db) {r : PaymentJoin} (hr : r ∈ paymentJoins db) :
    r.event ∈ db.events := h.paymentJoins_event ▸ List.mem_map_of_mem hr

/-- An event that stands for its payment is an earliest one. -/
theorem isEarliest_of_canonical (h : Reportable db) {order : ℕ → ℕ} {r : PaymentJoin}
    (hr : r ∈ canonicalJoins order db) : IsEarliest db r.event := by
  obtain ⟨hjoin, hcanonical⟩ := List.mem_filter.mp hr
  have hin := (h.mem_canonicalEvents (h.event_mem hjoin)).mp (of_decide_eq_true hcanonical)
  obtain ⟨hmem, hmin⟩ := distinctOn_spec hin
  refine ⟨(List.mem_filter.mp (Table.mem_scan.mp hmem)).2, fun e' he' hpipeline hpayment => ?_⟩
  exact hmin e' (Table.mem_scan.mpr (List.mem_filter.mpr ⟨he', hpipeline⟩)) hpayment

/-- Any earliest event can stand for its payment. -/
theorem exists_canonical (h : Reportable db) {r : PaymentJoin} (hr : r ∈ paymentJoins db)
    (hearliest : IsEarliest db r.event) : ∃ order, r ∈ canonicalJoins order db := by
  have hevent : r.event ∈ db.events.filter (·.inRazorpayPipeline) :=
    List.mem_filter.mpr ⟨h.event_mem hr, hearliest.1⟩
  obtain ⟨order, rest, hscan⟩ := Table.exists_scan_cons hevent
  refine ⟨order, List.mem_filter.mpr ⟨hr, decide_eq_true
    ((h.mem_canonicalEvents (h.event_mem hr)).mpr ?_)⟩⟩
  refine List.mem_filterMap.mpr ⟨r.event.paymentId, ?_, ?_⟩
  · exact List.mem_dedup.mpr (List.mem_map_of_mem (Table.mem_scan.mpr hevent))
  · rw [hscan, List.filter_cons_of_pos (by simp)]
    refine Table.earliestBy_cons_of_min fun e he => ?_
    obtain ⟨hrest, hpayment⟩ := List.mem_filter.mp he
    have hstored : e ∈ db.events.filter (·.inRazorpayPipeline) :=
      Table.mem_scan.mp (hscan ▸ List.mem_cons_of_mem _ hrest)
    obtain ⟨he, hpipeline⟩ := List.mem_filter.mp hstored
    exact hearliest.2 e he hpipeline (of_decide_eq_true hpayment)

/-- The rows of the payment an event stands for: what it shows. -/
theorem filter_payment (h : Reportable db) {order : ℕ → ℕ} {r : PaymentJoin}
    (hr : r ∈ canonicalJoins order db) (q : PaymentsQuery) :
    (paymentRows order db q).filter (fun row => row.paymentId = r.event.paymentId) =
      (r.shown q).toList := by
  have hrow : ∀ a : PaymentJoin, ∀ row, a.shown q = some row → row.paymentId = a.event.paymentId := by
    intro a row hshown
    unfold PaymentJoin.shown at hshown
    split at hshown <;> cases hshown
    rfl
  have hfilter : ∀ rows : List PaymentJoin,
      (rows.filterMap (·.shown q)).filter (fun row => row.paymentId = r.event.paymentId) =
        (rows.filter fun a => a.event.paymentId = r.event.paymentId).filterMap (·.shown q) := by
    intro rows
    induction rows with
    | nil => rfl
    | cons a rows ih =>
        cases hshown : a.shown q with
        | none =>
            by_cases hpayment : a.event.paymentId = r.event.paymentId <;>
              simp [hshown, hpayment, ih]
        | some row =>
            have hpayment := hrow a row hshown
            by_cases hsame : a.event.paymentId = r.event.paymentId <;>
              simp [hshown, hpayment, hsame, ih]
  rw [paymentRows_eq, hfilter, filter_key_eq_singleton (h.nodup_canonicalJoins order) hr]
  cases hshown : r.shown q <;> simp [hshown]

theorem nodup_paymentRows (h : Reportable db) (order : ℕ → ℕ) (q : PaymentsQuery) :
    (paymentRows order db q).Nodup := by
  have hkeys : ((selectedJoins order db q).map (·.event.paymentId)).Nodup := by
    refine (h.nodup_canonicalJoins order).sublist (List.Sublist.map _ ?_)
    unfold selectedJoins canonicalJoins
    refine List.monotone_filter_right _ fun r hr => ?_
    exact decide_eq_true (of_decide_eq_true hr).1
  have hrows : ((paymentRows order db q).map (·.paymentId)).Nodup := by
    rw [paymentRows, List.map_map]
    exact hkeys
  exact hrows.of_map

/-- The listing does not depend on the choice of events exactly when it is determined. -/
theorem determined_iff (h : Reportable db) (q : PaymentsQuery) : Determined db q ↔
    ∀ order order', (paymentRows order db q).Perm (paymentRows order' db q) := by
  constructor
  · intro hdetermined order order'
    rw [paymentRows_eq, paymentRows_eq]
    refine filterMap_perm_of_keys ((h.canonicalJoins_payments order).trans
      (h.canonicalJoins_payments order').symm) fun a ha b hb hpayment => ?_
    exact hdetermined a (List.mem_filter.mp ha).1 b (List.mem_filter.mp hb).1
      (h.isEarliest_of_canonical ha) (h.isEarliest_of_canonical hb) hpayment
  · intro hrows a ha b hb hearliest hearliest' hpayment
    obtain ⟨order, hcanonical⟩ := h.exists_canonical ha hearliest
    obtain ⟨order', hcanonical'⟩ := h.exists_canonical hb hearliest'
    have hperm := (hrows order order').filter fun row => row.paymentId = a.event.paymentId
    rw [h.filter_payment hcanonical, hpayment, h.filter_payment hcanonical'] at hperm
    cases hshown : a.shown q <;> cases hshown' : b.shown q <;> simp_all

end Reportable

/-! ## Completeness -/

namespace Reportable
variable {db : Database} {limit : ℕ}

theorem nodup_ledgerRows (h : Reportable db) (decisionType : Option String) :
    (ledgerRows db decisionType).Nodup := by
  have hdecisions : ((ledgerRows db decisionType).map (·.decision)).Nodup := by
    rw [h.ledgerRows_decision]
    exact h.nodup_decisions.filter _
  exact hdecisions.of_map

theorem ledgerComplete_iff (h : Reportable db) (hlimit : 0 < limit)
    (decisionType : Option String) : LedgerComplete db decisionType limit ↔
      Pages.Separated (·.decidedAt) limit (db.decisions.filter (ofDecisionType decisionType)) := by
  have hkeys : Pages.sortedKeys (·.decision.decidedAt) (ledgerRows db decisionType) =
      Pages.sortedKeys (·.decidedAt) (db.decisions.filter (ofDecisionType decisionType)) := by
    rw [← h.ledgerRows_decision, Pages.sortedKeys, Pages.sortedKeys, List.map_map]
    rfl
  have hlength : (ledgerRows db decisionType).length =
      (db.decisions.filter (ofDecisionType decisionType)).length := by
    rw [← h.ledgerRows_decision, List.length_map]
  rw [LedgerComplete, Pages.complete_iff hlimit (h.nodup_ledgerRows decisionType),
    Pages.Separated, Pages.Separated, hkeys, hlength]

theorem paymentsComplete_iff (h : Reportable db) (hlimit : 0 < limit) (q : PaymentsQuery) :
    PaymentsComplete db q limit ↔ Determined db q ∧
      ∀ order, Pages.Separated (·.timestamp) limit (paymentRows order db q) := by
  rw [h.determined_iff]
  constructor
  · intro hcomplete
    refine ⟨fun order order' => ?_, fun order =>
      (Pages.complete_iff hlimit (h.nodup_paymentRows order q)).mp fun results hresults =>
        hcomplete order (fun _ => order) results hresults⟩
    -- one result, read to its end
    obtain ⟨l, hl⟩ := Pages.exists_arranges (·.timestamp) (paymentRows order db q)
    have hread := hcomplete order' (fun _ => order) (fun _ => l) (fun _ => hl)
      (l.length + (paymentRows order' db q).length)
      ((Nat.le_add_left _ _).trans (Nat.le_mul_of_pos_right _ hlimit))
    rw [Pages.read_const, List.take_of_length_le
      ((Nat.le_add_right _ _).trans (Nat.le_mul_of_pos_right _ hlimit))] at hread
    exact hl.perm.symm.trans hread
  · rintro ⟨hrows, hseparated⟩ order orders results hresults
    exact (hseparated order).complete results fun k =>
      ⟨(hresults k).perm.trans (hrows (orders k) order), (hresults k).sorted⟩

end Reportable

/-- The pages of the ledger have every row once exactly when no two decisions of one time are
the last of a page and the first of the next; those of the payments list when, moreover, tied
earliest events of a payment show one row. -/
theorem pages_complete_iff {ι : Type} {config : ι → ServiceConfig}
    {as : List (ConfiguredAction ι)} {w : ConfiguredWorld ι} (h : configuredRun config as = some w)
    {limit : ℕ} (hlimit : 0 < limit) (decisionType : Option String) (q : PaymentsQuery) :
    (LedgerComplete w.db decisionType limit ↔ Pages.Separated (·.decidedAt) limit
        (w.db.decisions.filter (ofDecisionType decisionType))) ∧
      (PaymentsComplete w.db q limit ↔ Determined w.db q ∧
        ∀ order, Pages.Separated (·.timestamp) limit (paymentRows order w.db q)) :=
  ⟨(configuredRun_reportable h).ledgerComplete_iff hlimit decisionType,
    (configuredRun_reportable h).paymentsComplete_iff hlimit q⟩

namespace PagesExample

def config : Unit → ServiceConfig := fun _ => ⟨deterministicBaselineModel, getDefaultPolicy⟩

/-- A payment authorized at time zero. -/
def authorized (i : ℕ) (paymentId : String) : PaymentEvent :=
  { eventId := i, sourceSystem := razorpaySourceSystem, sourceEventId := paymentId,
    paymentId := paymentId, timestamp := 0, eventType := pipelineTriggerEventType,
    currency := "INR", amountMinorUnits := 10000, paymentStatus := "authorized", ingestedAt := 0 }

def attempt₁ : AttemptRef := ⟨razorpaySourceSystem, "pay_1", "pay_1", validAttemptIdentity_pay_1⟩
def attempt₂ : AttemptRef := ⟨razorpaySourceSystem, "pay_2", "pay_2", rfl⟩

/-- The connection's caller makes a request, and the call takes `n` more steps. -/
def request (r : Request) (n : ℕ) : List (ConfiguredAction Unit) :=
  .advance 0 { request := r } :: List.replicate n (.advance 0 {})

/-- Two payments authorized, and decided on, in one second. -/
def run : List (ConfiguredAction Unit) :=
  [.arrive (.event (authorized 1 "pay_1")), .arrive (.event (authorized 2 "pay_2")),
      .arrive (.connect [()])] ++
    request (.registerAttempt ⟨"pay_1", razorpaySourceSystem, "pay_1", 1⟩) 0 ++
    request (.registerAttempt ⟨"pay_2", razorpaySourceSystem, "pay_2", 2⟩) 0 ++
    request (.decide attempt₁ 0) 3 ++ request (.decide attempt₂ 0) 3 ++ request .commit 0

end PagesExample

open PagesExample in
/-- One page of two rows. -/
theorem pages_complete_iff_single : ∃ w, configuredRun PagesExample.config run = some w ∧
    LedgerComplete w.db none 2 := by
  have hrun : ((configuredRun PagesExample.config run).map fun w => w.db.decisions.length) =
      some 2 := by decide +kernel
  obtain ⟨w, hw, hlength⟩ := Option.map_eq_some_iff.mp hrun
  refine ⟨w, hw, (pages_complete_iff hw Nat.two_pos none {}).1.mpr fun k hk hlt => ?_⟩
  have hle := List.length_filter_le (ofDecisionType none) w.db.decisions
  omega

open PagesExample in
/-- Pages of one row each, of two payments and of their decisions. -/
theorem pages_incomplete : ∃ w, configuredRun PagesExample.config run = some w ∧
    ¬LedgerComplete w.db none 1 ∧ ¬PaymentsComplete w.db {} 1 := by
  have hrun : ((configuredRun PagesExample.config run).map fun w =>
      (w.db.decisions.map (·.decidedAt), (paymentRows id w.db).map (·.timestamp))) =
      some ([0, 0], [0, 0]) := by decide +kernel
  obtain ⟨w, hw, hkeys⟩ := Option.map_eq_some_iff.mp hrun
  obtain ⟨hdecisions, hpayments⟩ := Prod.mk.inj hkeys
  have htied : ∀ {α : Type} {key : α → Time} {rows : List α}, rows.map key = [0, 0] →
      ¬Pages.Separated key 1 rows := by
    intro α key rows hrows hseparated
    have hlength : rows.length = 2 := by rw [← List.length_map (f := key), hrows]; rfl
    have hne := hseparated 1 Nat.one_pos (by omega)
    rw [Pages.sortedKeys, hrows] at hne
    exact hne (by decide)
  have hdb := configuredRun_reportable hw
  have hall : w.db.decisions.filter (ofDecisionType none) = w.db.decisions :=
    List.filter_eq_self.mpr fun _ _ => rfl
  refine ⟨w, hw, fun hledger => ?_, fun hlist => ?_⟩
  · have hseparated := (hdb.ledgerComplete_iff Nat.one_pos none).mp hledger
    rw [hall] at hseparated
    exact htied hdecisions hseparated
  · exact htied hpayments (((hdb.paymentsComplete_iff Nat.one_pos {}).mp hlist).2 id)

end RevenueRecovery
