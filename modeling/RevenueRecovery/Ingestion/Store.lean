import RevenueRecovery.Ingestion.Service
import RevenueRecovery.Lib.Solo
import RevenueRecovery.Lib.Table

/-!
# Stage 1: what deliveries leave in the store

Raw records and canonical events are stored in pairs, by the commits of the deliveries that
end `stored`, one for each source identity. Every other delivery leaves the store as it is.

## Main definitions
* `StoredDelivery` : a delivery that has committed, with its rows.
* `storedDeliveries` : those of a run, in the order of their commits.
* `ingestion_store` : the store after any interleaving of deliveries.
-/
namespace RevenueRecovery

open Transaction

variable {Body Payload : Type} {library : WebhookLibrary Body Payload}

/-- A delivery with the rows it inserts. -/
structure StoredDelivery (Body Payload : Type) where
  delivery : Delivery Body
  record : RawIngestionRecord Payload
  event : PaymentEvent

/-- The source identity of a raw record. -/
def RawIngestionRecord.identity (r : RawIngestionRecord Payload) : String × String :=
  (r.sourceSystem, r.sourceEventId)

/-- The source identity of its rows. -/
def StoredDelivery.identity (d : StoredDelivery Body Payload) : String × String :=
  d.record.identity

/-- The rows are those of the delivery: its payload as it was read, and the canonical event of
this payload. -/
def StoredDelivery.IsOwn (library : WebhookLibrary Body Payload)
    (d : StoredDelivery Body Payload) : Prop :=
  ∃ input parsed, d.delivery.parse library input = .ok (some parsed) ∧
    parsed.rows library input = .ok (d.record, d.event)

/-- The rows that a session is about to commit. -/
def DeliveryProc.saved? : DeliveryProc Body Payload → Option (StoredDelivery Body Payload)
  | .saved delivery record event => some ⟨delivery, record, event⟩
  | _ => none

/-- What an action commits. -/
def committedDelivery (w : IngestionWorld Body Payload) :
    IngestionAction Body → Option (StoredDelivery Body Payload)
  | .advance i _ => (w.sessions[i]?).bind fun s => s.proc.saved?
  | _ => none

/-- The deliveries a run has stored, in the order of their commits. -/
def storedDeliveries (library : WebhookLibrary Body Payload) (as : List (IngestionAction Body)) :
    List (StoredDelivery Body Payload) :=
  Run.collect (ingestionProgram library).worldStep committedDelivery ⟨{}, [], []⟩ as

/-- The raw records of a source identity. -/
def IngestionStore.recordsOf (db : IngestionStore Payload) (sourceSystem sourceEventId : String) :
    List (RawIngestionRecord Payload) :=
  db.rawRecords.filter fun r => r.identity = (sourceSystem, sourceEventId)

/-- The canonical events of a source identity. -/
def IngestionStore.eventsOf (db : IngestionStore Payload) (sourceSystem sourceEventId : String) :
    List PaymentEvent :=
  db.events.filter fun e => (e.sourceSystem, e.sourceEventId) = (sourceSystem, sourceEventId)

/-- The delivery has ended without storing anything: as a duplicate, ignored, or with an
error. -/
def DeliveryProc.endedUnstored : DeliveryProc Body Payload → Bool
  | .duplicate | .ignored | .failed _ => true
  | _ => false

/-! ## Rows -/

/-- What is read from a delivery that is accepted: its payload with its digest. -/
inductive Delivery.Parsed (library : WebhookLibrary Body Payload) :
    Delivery Body → ParsedDelivery Payload → Prop
  | razorpay {body signature sourceEventId event payload hash}
      (hload : library.loads body = .ok payload)
      (hhash : library.generateDeterministicHash payload = .ok hash) :
      Delivery.Parsed library (.razorpay body signature sourceEventId)
        ⟨razorpaySourceSystem, sourceEventId, payload, hash, .inl event⟩
  | paypal {body event payload hash} (hload : library.loadsObject body = .ok payload)
      (hhash : library.generateDeterministicHash payload = .ok hash) :
      Delivery.Parsed library (.paypal body)
        ⟨paypalSourceSystem, event.eventId, payload, hash, .inr event⟩

theorem Delivery.parsed_of_parse {d : Delivery Body} {input : DeliveryInput}
    {p : ParsedDelivery Payload} (h : d.parse library input = .ok (some p)) :
    d.Parsed library p := by
  cases d with
  | razorpay body signature sourceEventId =>
      simp only [parse, bind, Except.bind, pure, Except.pure] at h
      repeat' split at h
      all_goals cases h
      exact .razorpay ‹_› ‹_›
  | paypal body =>
      simp only [parse, bind, Except.bind, pure, Except.pure] at h
      split at h
      · cases h
      · split at h
        · cases h
        · split at h
          · cases h
          · split at h
            · cases h
            · cases h
            · split at h
              · cases h
              · cases h
                exact .paypal ‹_› ‹_›

/-- The canonical event has the source identity that is read from the delivery. -/
theorem ParsedDelivery.normalize_identity {d : Delivery Body} {input : DeliveryInput}
    {parsed : ParsedDelivery Payload} {e : PaymentEvent} (hparse : d.Parsed library parsed)
    (hnormalize : parsed.normalize library input = .ok e) :
    e.sourceSystem = parsed.sourceSystem ∧ e.sourceEventId = parsed.sourceEventId := by
  cases hparse with
  | razorpay => exact normalizeRazorpayEvent_identity hnormalize
  | paypal => exact normalizePaypalEvent_identity hnormalize

theorem ParsedDelivery.rows_ok {p : ParsedDelivery Payload} {input : DeliveryInput}
    {record : RawIngestionRecord Payload} {event : PaymentEvent}
    (h : p.rows library input = .ok (record, event)) :
    record = p.record input ∧ p.normalize library input = .ok event := by
  simp only [rows, bind, Except.bind] at h
  split at h
  · cases h
  · rename_i e he
    obtain ⟨rfl, rfl⟩ := Prod.mk.inj (Except.ok.inj h)
    exact ⟨rfl, he⟩

/-- Both rows of a delivery have its source identity. -/
theorem StoredDelivery.IsOwn.identity_event {d : StoredDelivery Body Payload}
    (h : d.IsOwn library) : (d.event.sourceSystem, d.event.sourceEventId) = d.identity := by
  obtain ⟨input, parsed, hparse, hrows⟩ := h
  obtain ⟨hrecord, he⟩ := ParsedDelivery.rows_ok hrows
  obtain ⟨hsystem, hid⟩ :=
    ParsedDelivery.normalize_identity (Delivery.parsed_of_parse hparse) he
  rw [hsystem, hid, identity, hrecord]
  rfl

/-! ## Steps of a delivery -/

/-- What a session has written, and that it is its own. -/
def DeliveryProc.Carries (library : WebhookLibrary Body Payload) :
    DeliveryProc Body Payload → List (IngestionWrite Payload) → Prop
  | .saving d record event, ws => ws = [] ∧ StoredDelivery.IsOwn library ⟨d, record, event⟩
  | .saved d record event, ws => ws = [.insertRaw record, .insertEvent event] ∧
      StoredDelivery.IsOwn library ⟨d, record, event⟩
  | _, ws => ws = []

/-- What a step of a delivery can be, with everything it has found. -/
inductive DeliveryStepped (library : WebhookLibrary Body Payload) (input : DeliveryInput)
    (reads : ℕ → IngestionStore Payload) (now : IngestionStore Payload) :
    DeliveryProc Body Payload → IngestionOutcome Body Payload → Prop
  | refused {d err} (hparse : d.parse library input = .error err) :
      DeliveryStepped library input reads now (.received d) (.rollback (.failed (some err)))
  | ignored {d} (hparse : d.parse library input = .ok none) :
      DeliveryStepped library input reads now (.received d) (.rollback .ignored)
  | known {d parsed existing} (hparse : d.parse library input = .ok (some parsed))
      (hfind : (reads 0).getRawRecord parsed.sourceSystem parsed.sourceEventId = some existing) :
      DeliveryStepped library input reads now (.received d)
        (.rollback (onExisting library d parsed input existing))
  | unnormalized {d parsed err} (hparse : d.parse library input = .ok (some parsed))
      (hrows : parsed.rows library input = .error err) :
      DeliveryStepped library input reads now (.received d) (.rollback (.failed (some err)))
  | parsed {d parsed record event} (hparse : d.parse library input = .ok (some parsed))
      (hrows : parsed.rows library input = .ok (record, event)) :
      DeliveryStepped library input reads now (.received d) (.write [] (.saving d record event))
  | lost {d record event} (hconflict : now.conflicts record event = true) :
      DeliveryStepped library input reads now (.saving d record event)
        (.rollback (onConflict d record))
  | inserted {d record event} (hnew : now.conflicts record event = false) :
      DeliveryStepped library input reads now (.saving d record event)
        (.write [.insertRaw record, .insertEvent event] (.saved d record event))
  | committed {d record event} : DeliveryStepped library input reads now (.saved d record event)
      (.commit (.stored d record event))
  | resolved {record winner}
      (hfind : (reads 0).getRawRecord record.sourceSystem record.sourceEventId = some winner) :
      DeliveryStepped library input reads now (.resolving record)
        (.rollback (resolveExisting winner record.payloadHash))
  | unresolved {record}
      (hfind : (reads 0).getRawRecord record.sourceSystem record.sourceEventId = none) :
      DeliveryStepped library input reads now (.resolving record)
        (.rollback (.failed (some .duplicateEventConflict)))

theorem deliveryStepped {input : DeliveryInput} {reads : ℕ → IngestionStore Payload}
    {now : IngestionStore Payload} {p : DeliveryProc Body Payload}
    {o : IngestionOutcome Body Payload} (h : ingestionStep library input reads now p = some o) :
    DeliveryStepped library input reads now p o := by
  cases p with
  | received d =>
      simp only [ingestionStep] at h
      split at h
      · cases h
        exact .refused ‹_›
      · cases h
        exact .ignored ‹_›
      · rename_i parsed hparse
        split at h
        · cases h
          exact .known hparse ‹_›
        · split at h
          · cases h
            exact .unnormalized hparse ‹_›
          · cases h
            exact .parsed hparse ‹_›
  | saving d record event =>
      simp only [ingestionStep] at h
      split at h
      · cases h
        exact .lost ‹_›
      · rename_i hnew
        cases h
        exact .inserted (by simpa using hnew)
  | saved d record event =>
      cases h
      exact .committed
  | resolving record =>
      simp only [ingestionStep] at h
      split at h
      · cases h
        exact .resolved ‹_›
      · cases h
        exact .unresolved ‹_›
  | stored => cases h
  | duplicate => cases h
  | ignored => cases h
  | failed => cases h

/-- A delivery that rolls back has written nothing that it would commit, and goes on to look
the stored record up or ends. -/
theorem DeliveryStepped.rolledBack {input : DeliveryInput} {reads : ℕ → IngestionStore Payload}
    {now : IngestionStore Payload} {p q : DeliveryProc Body Payload}
    (h : DeliveryStepped library input reads now p (.rollback q)) :
    p.saved? = none ∧ q.Carries library [] := by
  cases h with
  | known =>
      refine ⟨rfl, ?_⟩
      unfold onExisting resolveExisting
      split
      · split <;> rfl
      · split <;> rfl
  | lost =>
      refine ⟨rfl, ?_⟩
      unfold onConflict
      split <;> rfl
  | resolved =>
      refine ⟨rfl, ?_⟩
      unfold resolveExisting
      split <;> rfl
  | _ => exact ⟨rfl, rfl⟩

/-! ## The store -/

/-- The store holds the rows of the stored deliveries, and nothing else. -/
structure HoldsRows (library : WebhookLibrary Body Payload)
    (ds : List (StoredDelivery Body Payload)) (w : IngestionWorld Body Payload) : Prop where
  records : w.db.rawRecords = ds.map (·.record)
  events : w.db.events = ds.map (·.event)
  own : ∀ d ∈ ds, d.IsOwn library
  carries : ∀ s ∈ w.sessions, s.proc.Carries library s.pending

theorem DeliveryProc.carries_onError (p : DeliveryProc Body Payload) (ws : List _)
    (h : p.Carries library ws) : p.onError.Carries library [] := by
  cases p <;> rfl

namespace HoldsRows

variable {ds : List (StoredDelivery Body Payload)} {w : IngestionWorld Body Payload}

/-- A session has moved without a commit. -/
theorem moved {a : IngestionAction Body} (h : HoldsRows library ds w)
    (ha : committedDelivery w a = none) (i : ℕ) (s : IngestionSession Body Payload)
    (hs : s.proc.Carries library s.pending) :
    HoldsRows library (ds ++ (committedDelivery w a).toList) (w.setSession i s) := by
  rw [ha, Option.toList_none, List.append_nil]
  refine ⟨h.records, h.events, h.own, fun t ht => ?_⟩
  rcases List.mem_or_eq_of_mem_set ht with ht | rfl
  · exact h.carries t ht
  · exact hs

/-- A step stores what it commits. -/
theorem step {w' : IngestionWorld Body Payload} {a : IngestionAction Body}
    (h : HoldsRows library ds w) (ha : (ingestionProgram library).worldStep w a = some w') :
    HoldsRows library (ds ++ (committedDelivery w a).toList) w' := by
  have hcarries : ∀ {i} {s : IngestionSession Body Payload}, w.sessions[i]? = some s →
      s.proc.Carries library s.pending := fun hs => h.carries _ (List.mem_of_getElem? hs)
  cases Program.stepped ha with
  | @arrived x ws ps harr =>
      cases harr
      have hnone : committedDelivery w (.arrive x) = none := rfl
      rw [hnone, Option.toList_none, List.append_nil]
      refine ⟨h.records, h.events, h.own, fun s hs => ?_⟩
      rcases List.mem_append.mp hs with hs | hs
      · exact h.carries s hs
      · obtain rfl := List.mem_singleton.mp hs
        rfl
  | looked hs =>
      have hnext := hcarries hs
      exact h.moved rfl _ _ hnext
  | aborted hs => exact h.moved rfl _ _ (DeliveryProc.carries_onError _ _ (hcarries hs))
  | @locked i input s key next hs hp =>
      obtain ⟨p, pending, locks, views⟩ := s
      cases deliveryStepped hp
  | @wrote i input s ws next hs hp =>
      obtain ⟨p, pending, locks, views⟩ := s
      have hown := hcarries hs
      cases deliveryStepped hp with
      | parsed hparse hrows =>
          obtain rfl : pending = [] := hown
          exact h.moved (by simp [committedDelivery, hs, DeliveryProc.saved?]) _ _
            ⟨rfl, input, _, hparse, hrows⟩
      | inserted =>
          obtain ⟨rfl, hsaving⟩ := hown
          exact h.moved (by simp [committedDelivery, hs, DeliveryProc.saved?]) _ _ ⟨rfl, hsaving⟩
  | @raised i input s ws next hs hp =>
      obtain ⟨p, pending, locks, views⟩ := s
      have hown := DeliveryProc.carries_onError _ _ (hcarries hs)
      cases deliveryStepped hp <;>
        exact h.moved (by simp [committedDelivery, hs, DeliveryProc.saved?]) _ _ hown
  | @called i input s effect next hs hp =>
      obtain ⟨p, pending, locks, views⟩ := s
      cases deliveryStepped hp
  | @committed i input s next hs hp =>
      obtain ⟨p, pending, locks, views⟩ := s
      have hown := hcarries hs
      cases deliveryStepped hp with
      | @committed d record event =>
          obtain ⟨rfl, hsaved⟩ := hown
          have hcommit : committedDelivery w (.advance i input) = some ⟨d, record, event⟩ := by
            simp [committedDelivery, hs, DeliveryProc.saved?]
          have hmoved := h.moved (a := .look i) rfl i (.fresh (.stored d record event)) rfl
          rw [hcommit]
          refine ⟨?_, ?_, fun d' hd' => ?_, hmoved.carries⟩
          · simp [Program.view, Program.applyAll, ingestionProgram, IngestionStore.apply, h.records]
          · simp [Program.view, Program.applyAll, ingestionProgram, IngestionStore.apply, h.events]
          · rcases List.mem_append.mp hd' with hd' | hd'
            · exact h.own d' hd'
            · obtain rfl := List.mem_singleton.mp hd'
              exact hsaved
  | @rolledBack i input s next hs hp =>
      obtain ⟨p, pending, locks, views⟩ := s
      obtain ⟨hunsaved, hnext⟩ := (deliveryStepped hp).rolledBack
      exact h.moved (by simp [committedDelivery, hs, hunsaved]) _ _ hnext

/-- Every run stores what its deliveries commit. -/
theorem exec {as : List (IngestionAction Body)} {w : IngestionWorld Body Payload}
    (hrun : ingestionRun library as = some w) :
    HoldsRows library (storedDeliveries library as) w :=
  Run.invariant_collect (HoldsRows library) (fun _ _ _ _ h (_ : True) ha => h.step ha)
    ⟨rfl, rfl, by simp, by simp⟩ (by simp) hrun

end HoldsRows

/-! ## One delivery for each source identity -/

/-- Rows of one identity are in each other's way. -/
theorem RawIngestionRecord.identity_ne {a b : RawIngestionRecord Payload}
    (h : a.sameIdentity b = false) : a.identity ≠ b.identity := by
  intro heq
  obtain ⟨hsystem, hid⟩ := Prod.mk.inj heq
  simp [sameIdentity, hsystem, hid] at h

/-- Only a row of the same keys makes another one violate a constraint. -/
theorem ingestionConstraints (library : WebhookLibrary Body Payload) :
    Program.Constraints (ingestionProgram library) IngestionWrite.clashes
      fun db => (db.rawRecords.map (·.identity)).Nodup where
  violates_apply db a b := by
    cases a <;> cases b <;>
      simp [ingestionProgram, IngestionStore.apply, IngestionStore.violates, IngestionWrite.clashes]
  clashes h := h
  keep := by
    intro db a hdb ha
    cases a with
    | insertEvent row => exact hdb
    | insertRaw row =>
        have hnew : ∀ r ∈ db.rawRecords, r.sameIdentity row = false := by
          simpa [ingestionProgram, IngestionStore.violates] using ha
        simp only [ingestionProgram, IngestionStore.apply, List.map_append]
        refine List.nodup_append.mpr ⟨hdb, by simp, fun a ha b hb => ?_⟩
        obtain ⟨r, hr, rfl⟩ := List.mem_map.mp ha
        obtain rfl : b = row.identity := by simpa using hb
        exact RawIngestionRecord.identity_ne (hnew r hr)

/-- The deliveries of a run that are stored have distinct source identities. -/
theorem storedDeliveries_nodup {as : List (IngestionAction Body)} {w : IngestionWorld Body Payload}
    (hrun : ingestionRun library as = some w) :
    ((storedDeliveries library as).map (·.identity)).Nodup := by
  have hmet := Program.Constraints.Met.exec (ingestionConstraints library)
    (Program.Constraints.Met.empty (by simp)) hrun
  have hnodup := hmet.store
  rw [(HoldsRows.exec hrun).records, List.map_map] at hnodup
  exact hnodup

/-! ## Deliveries that store nothing -/

/-- A delivery that is stored stays so. -/
theorem stored_exec {as : List (IngestionAction Body)} {w w' : IngestionWorld Body Payload} {i : ℕ}
    {d : Delivery Body} {record : RawIngestionRecord Payload} {event : PaymentEvent}
    (h : (w.sessions[i]?).map (·.proc) = some (.stored d record event))
    (hrun : Run.exec (ingestionProgram library).worldStep w as = some w') :
    (w'.sessions[i]?).map (·.proc) = some (.stored d record event) := by
  have hstep : ∀ (u : IngestionWorld Body Payload) (a : IngestionAction Body) u',
      (u.sessions[i]?).map (·.proc) = some (.stored d record event) →
      (ingestionProgram library).worldStep u a = some u' →
      (u'.sessions[i]?).map (·.proc) = some (.stored d record event) := by
    intro u a u' hu ha
    obtain ⟨s, hs, hproc⟩ := Option.map_eq_some_iff.mp hu
    obtain ⟨s', hs', hnext⟩ := Program.session_step ha hs
    refine Option.map_eq_some_iff.mpr ⟨s', hs', ?_⟩
    rcases hnext with hsame | herror | ⟨input, o, ho, -⟩
    · rw [hsame, hproc]
    · rw [herror, hproc]
      rfl
    · obtain ⟨p, pending, locks, views⟩ := s
      obtain rfl : p = _ := hproc
      cases ho
  exact Run.invariant_exec hstep h hrun

/-- A delivery that changes the store is stored from then on. -/
theorem stored_of_db_ne {w w' : IngestionWorld Body Payload} {a : IngestionAction Body} {i : ℕ}
    (hi : a.isOf i) (ha : (ingestionProgram library).worldStep w a = some w')
    (hne : w'.db ≠ w.db) :
    ∃ d record event, (w'.sessions[i]?).map (·.proc) = some (.stored d record event) := by
  cases Program.stepped ha with
  | arrived harr => cases hi
  | @committed j input s next hs hp =>
      obtain rfl : j = i := hi
      obtain ⟨p, pending, locks, views⟩ := s
      cases deliveryStepped hp with
      | @committed d record event =>
          refine ⟨d, record, event, ?_⟩
          simp [(List.getElem?_eq_some_iff.mp hs).1]
  | _ => exact absurd rfl hne

/-! ## The store -/

/-- After any interleaving of deliveries, the raw records and the canonical events of a source
identity are those of the first delivery that committed one, if any; a delivery that ended
with an error, as a duplicate or ignored has changed nothing. -/
theorem ingestion_store {as : List (IngestionAction Body)} {w : IngestionWorld Body Payload}
    (hrun : ingestionRun library as = some w) :
    (∀ sourceSystem sourceEventId,
      let first := (storedDeliveries library as).find?
        fun d => d.identity = (sourceSystem, sourceEventId)
      w.db.recordsOf sourceSystem sourceEventId = (first.map (·.record)).toList ∧
      w.db.eventsOf sourceSystem sourceEventId = (first.map (·.event)).toList) ∧
    (∀ d ∈ storedDeliveries library as, d.IsOwn library) ∧
    ∀ i s, w.sessions[i]? = some s → s.proc.endedUnstored →
      ∀ as₁ a as₂ w₁ w₂, as = as₁ ++ a :: as₂ → a.isOf i → ingestionRun library as₁ = some w₁ →
        (ingestionProgram library).worldStep w₁ a = some w₂ → w₂.db = w₁.db := by
  have hrows := HoldsRows.exec hrun
  have hnodup := storedDeliveries_nodup hrun
  refine ⟨fun system id => ⟨?_, ?_⟩, hrows.own, ?_⟩
  · rw [IngestionStore.recordsOf, hrows.records, List.filter_map, Option.toList_map]
    exact congrArg _ (Table.filter_key_eq_find? hnodup (system, id))
  · have hevents : ∀ d ∈ storedDeliveries library as,
        decide ((d.event.sourceSystem, d.event.sourceEventId) = (system, id)) =
          decide (d.identity = (system, id)) :=
      fun d hd => by rw [(hrows.own d hd).identity_event]
    rw [IngestionStore.eventsOf, hrows.events, List.filter_map, Option.toList_map]
    refine congrArg _ ((List.filter_congr hevents).trans ?_)
    exact Table.filter_key_eq_find? hnodup (system, id)
  · rintro i s hs hended as₁ a as₂ w₁ w₂ rfl hi hrun₁ ha
    by_contra hne
    obtain ⟨d, record, event, hstored⟩ := stored_of_db_ne hi ha hne
    have hrest : Run.exec (ingestionProgram library).worldStep w₂ as₂ = some w := by
      rw [ingestionRun, Run.exec_append_of_eq hrun₁, Run.exec_cons, ha] at hrun
      exact hrun
    have hproc := stored_exec hstored hrest
    rw [hs, Option.map_some, Option.some.injEq] at hproc
    rw [hproc] at hended
    cases hended

namespace DeliveriesExample

/-- A capture of 12.50 dollars. -/
def captureBody : String :=
  "\x7b\"create_time\":\"2026-01-05T10:00:00Z\",\"event_type\":\"PAYMENT.CAPTURE.COMPLETED\",\"id\":\"WH-1\",\"resource\"" ++
    ":\x7b\"amount\":\x7b\"currency_code\":\"USD\",\"value\":\"12.50\"\x7d,\"id\":\"CAP-1\",\"status\":\"COMPLETED\"\x7d" ++
    ",\"resource_type\":\"capture\",\"resource_version\":\"2.0\"\x7d"

/-- What its body and its signature yield. -/
def webhooks : WebhookLibrary String String where
  upper := String.toUpper
  fromIsoFormat s := if s = "2026-01-05T10:00:00Z" then some ⟨Time.seconds 1767607200, 0⟩ else none
  verifyRazorpaySignature _ _ := .error .invalidWebhookSignature
  loads body := .ok body
  loadsObject body := .ok body
  parseRazorpayEvent _ := .error .schemaValidation
  parsePaypalEvent payload :=
    if payload = captureBody then
      .ok { eventId := "WH-1", eventType := "PAYMENT.CAPTURE.COMPLETED",
            createTime := "2026-01-05T10:00:00Z", resource := .capture ⟨"USD", "12.50"⟩ none,
            captureId := some "CAP-1", orderId := none }
    else .error .schemaValidation
  generateDeterministicHash _ :=
    .ok "d97446f2719567dfe9798b7bcb05486a3e8c51c4e9bce2b9a29458d5392c47fc"

/-- The capture is delivered twice at once, and a Razorpay delivery has a wrong signature. -/
def deliveries : List (IngestionAction String) :=
  [.arrive (.paypal captureBody), .arrive (.paypal captureBody),
    .arrive (.razorpay captureBody "00" "evt_1"), .advance 0 { recordId := 1, eventId := 1 },
    .advance 1 { recordId := 2, eventId := 2 }, .advance 0 {}, .advance 0 {}, .advance 1 {},
    .advance 1 {}, .advance 2 {}]

end DeliveriesExample

open DeliveriesExample in
theorem ingestion_store_overlap : ∃ w, ingestionRun webhooks deliveries = some w ∧
    w.sessions.map (·.proc.endedUnstored) = [false, true, true] ∧
    (w.db.recordsOf paypalSourceSystem "WH-1").map (·.id) = [1] ∧
    w.db.recordsOf paypalSourceSystem "WH-1" = (((storedDeliveries webhooks deliveries).find?
      fun d => d.identity = (paypalSourceSystem, "WH-1")).map (·.record)).toList ∧
    ∀ as₁ a as₂ w₁ w₂, deliveries = as₁ ++ a :: as₂ → a.isOf 1 →
      ingestionRun webhooks as₁ = some w₁ →
      (ingestionProgram webhooks).worldStep w₁ a = some w₂ → w₂.db = w₁.db := by
  have hrun : ((ingestionRun webhooks deliveries).map fun w =>
      decide (w.sessions.map (·.proc.endedUnstored) = [false, true, true] ∧
        (w.db.recordsOf paypalSourceSystem "WH-1").map (·.id) = [1])) = some true := by
    decide +kernel
  obtain ⟨w, hw, hfacts⟩ := Option.map_eq_some_iff.mp hrun
  obtain ⟨hended, hrecords⟩ := of_decide_eq_true hfacts
  obtain ⟨hstore, -, hunchanged⟩ := ingestion_store hw
  have hlength : 1 < w.sessions.length := by
    have := congrArg List.length hended
    simp only [List.length_map, List.length_cons, List.length_nil] at this
    lia
  have hduplicate : (w.sessions[1]).proc.endedUnstored = true := by
    have := congrArg (·[1]?) hended
    simpa [hlength] using this
  exact ⟨w, hw, hended, hrecords, (hstore _ _).1,
    hunchanged 1 _ (List.getElem?_eq_getElem hlength) hduplicate⟩

end RevenueRecovery
