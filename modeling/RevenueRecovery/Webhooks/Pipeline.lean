import RevenueRecovery.Webhooks.Intake
import RevenueRecovery.LivePipeline.Lookahead

/-!
# The gateway and the live pipeline

Seen from the pipeline, an event arrives when its delivery commits. Each run of the gateway is
in this way a run of the live pipeline with the same events, and each event that has a pipeline
run gets one: it starts after the request has been answered, and never a second time.

## Main definitions
* `arrivalOf` : the event that arrives.
* `Gateway.Paired` : the deliveries and the pipeline runs belong together.
-/
namespace RevenueRecovery

open Transaction

/-- The event that arrives at the pipeline. -/
def arrivalOf : LiveAction → Option PaymentEvent
  | .arrive e => some e
  | _ => none

/-- The session that ingests the delivery of a request. -/
def WebhookRequest.session? : WebhookRequest → Option ℕ
  | .verifying .. => none
  | .ingesting _ k => some k
  | .responded _ delivery => delivery.map Prod.snd

/-- The session of a delivery whose request has been answered. -/
def WebhookRequest.answered? : WebhookRequest → Option ℕ
  | .responded _ (some dk) => some dk.2
  | _ => none

/-- Session `k` has stored the event. -/
def Gateway.Stores (w : Gateway) (k : ℕ) (e : PaymentEvent) : Prop :=
  ∃ (d : Delivery ByteArray) (record : RawIngestionRecord Json),
    (w.ingestion.sessions[k]?).map (·.proc) = some (.stored d record e)

/-- The request of session `k` has been answered. -/
def Gateway.Answered (w : Gateway) (k : ℕ) : Prop :=
  ∃ (response : WebhookResponse) (d : Delivery ByteArray),
    .responded response (some (d, k)) ∈ w.requests

/-- No two requests have one session. -/
def UniqueSessions (requests : List WebhookRequest) : Prop :=
  ∀ (j j' : ℕ) (r r' : WebhookRequest) (k : ℕ), requests[j]? = some r →
    requests[j']? = some r' → r.session? = some k → r'.session? = some k → j = j'

/-! ## Events -/

section Live
variable {policy : InterventionPolicy} {live live' : LiveWorld} {bs : List LiveAction}
  {a : LiveAction} {e : PaymentEvent}

theorem liveRun_events (h : liveRun policy bs = some live) :
    (liveProgram policy).Good (fun _ => True) EventsSession live :=
  (liveProgram_eventsArrive policy).invariant.exec_true (.empty trivial) h

/-- Without an arrival no event is added. -/
theorem live_events_eq (hgood : (liveProgram policy).Good (fun _ => True) EventsSession live)
    (ha : (liveProgram policy).worldStep live a = some live') (harrive : arrivalOf a = none) :
    live'.db.events = live.db.events ∧ live'.sessions.length = live.sessions.length ∧
      ∀ i, runOf a ≠ some i → live'.sessions[i]? = live.sessions[i]? := by
  have hset : ∀ {i : ℕ} {s : LiveSession} {j : ℕ}, some i ≠ some j →
      (live.sessions.set i s)[j]? = live.sessions[j]? :=
    fun hne => List.getElem?_set_ne fun heq => hne (congrArg some heq)
  cases Program.stepped ha with
  | arrived => cases harrive
  | committed hs =>
      refine ⟨?_, List.length_set, fun j hj => hset hj⟩
      exact (hgood.session _ (List.mem_of_getElem? hs)).view rfl
  | _ => exact ⟨rfl, List.length_set, fun j hj => hset hj⟩

/-- An event of new keys can arrive. -/
theorem live_arrive (hgood : (liveProgram policy).Good (fun _ => True) EventsSession live)
    (hnew : live.db.events.any e.sameIdentity = false) :
    (liveProgram policy).worldStep live (.arrive e) = some
      { live with
        db := live.db.apply (.insertEvent e)
        sessions := live.sessions ++ (pipelineRuns e).map Session.fresh } := by
  have hblocked : (liveProgram policy).blocked live live.sessions.length [.insertEvent e] =
      false := by
    refine List.any_eq_false.mpr fun t ht hb => ?_
    have hpending := (hgood.session t.1 (List.fst_mem_of_mem_zipIdx ht)).pending
    simp only [ne_eq, List.any_cons, List.any_nil, Bool.or_false, Bool.and_eq_true,
      List.any_eq_true] at hb
    obtain ⟨-, a, ha, hclash⟩ := hb
    cases a with
    | insertEvent e' =>
        have hmem : e' ∈ t.1.pending.filterMap Write.event? :=
          List.mem_filterMap.mpr ⟨.insertEvent e', ha, rfl⟩
        rw [hpending] at hmem
        cases hmem
    | _ => cases hclash
  have harrive : (liveProgram policy).arrive e live.db =
      some ([.insertEvent e], pipelineRuns e) := rfl
  simp only [Program.worldStep, harrive, hblocked]
  simp [Program.violatesAny, Database.violates, hnew, Program.applyAll]

end Live

/-! ## The invariant -/

/-- The pipeline has seen the arrival of each stored event. The event of a session that has
stored one has its pipeline run, if there is one for such events; it is scheduled when the
request has been answered, and has not started before. -/
structure Gateway.Paired (host : Host) (w : Gateway) : Prop where
  reach : ∃ bs, liveRun host.policy bs = some w.live ∧
    bs.filterMap arrivalOf = w.ingestion.db.events
  events : w.live.db.events = w.ingestion.db.events
  met : Program.Constraints.Met (ingestionProgram host.library)
    (fun db => (db.rawRecords.map (·.identity)).Nodup) w.ingestion
  length : w.runs.length = w.live.sessions.length
  runs : ∀ k, k ∈ w.runs ↔ ∃ e, w.Stores k e ∧ pipelineRuns e ≠ []
  runsNodup : w.runs.Nodup
  fresh : ∀ (l k : ℕ), w.runs[l]? = some k → k ∉ w.scheduled →
    ∃ e p, w.Stores k e ∧ pipelineRuns e = [p] ∧ w.live.sessions[l]? = some (.fresh p)
  sessions : UniqueSessions w.requests
  scheduled : ∀ k, k ∈ w.scheduled ↔ k ∈ w.runs ∧ w.Answered k
  scheduledNodup : w.scheduled.Nodup

/-! ## Requests -/

section Requests
variable {requests : List WebhookRequest} {r r₀ : WebhookRequest} {j : ℕ}

theorem UniqueSessions.append (h : UniqueSessions requests)
    (hr : ∀ k, r.session? = some k → ∀ r' ∈ requests, r'.session? ≠ some k) :
    UniqueSessions (requests ++ [r]) := by
  have hlast : ∀ {i : ℕ} {q : WebhookRequest}, (requests ++ [r])[i]? = some q →
      requests[i]? = some q ∨ (i = requests.length ∧ q = r) := by
    intro i q hq
    rcases Nat.lt_or_ge i requests.length with hlt | hge
    · rw [List.getElem?_append_left hlt] at hq
      exact .inl hq
    · rw [List.getElem?_append_right hge] at hq
      obtain ⟨hzero, rfl⟩ : i - requests.length = 0 ∧ r = q := by
        simpa [List.getElem?_singleton] using hq
      exact .inr ⟨by omega, rfl⟩
  intro i i' q q' k hi hi' hq hq'
  rcases hlast hi with hold | ⟨rfl, rfl⟩
  · rcases hlast hi' with hold' | ⟨rfl, rfl⟩
    · exact h i i' q q' k hold hold' hq hq'
    · exact absurd hq (hr k hq' q (List.mem_of_getElem? hold))
  · rcases hlast hi' with hold' | ⟨rfl, rfl⟩
    · exact absurd hq' (hr k hq q' (List.mem_of_getElem? hold'))
    · rfl

/-- A request that changes keeps its session, or takes one that no other request has. -/
theorem UniqueSessions.set (h : UniqueSessions requests) (hj : requests[j]? = some r₀)
    (hr : ∀ k, r.session? = some k → r₀.session? = some k ∨
      ∀ r' ∈ requests, r'.session? ≠ some k) : UniqueSessions (requests.set j r) := by
  have hother : ∀ {i : ℕ} {q : WebhookRequest} {k : ℕ}, r.session? = some k → i ≠ j →
      requests[i]? = some q → q.session? ≠ some k := by
    intro i q k hk hne hi hq
    rcases hr k hk with hsame | hfresh
    · exact hne (h i j q r₀ k hi hj hq hsame)
    · exact hfresh q (List.mem_of_getElem? hi) hq
  intro i i' q q' k hi hi' hq hq'
  have hlt : j < requests.length := (List.getElem?_eq_some_iff.mp hj).1
  by_cases hij : j = i
  · subst hij
    obtain rfl : r = q := by simpa [hlt] using hi
    by_cases hij' : j = i'
    · exact hij'
    · rw [List.getElem?_set_ne hij'] at hi'
      exact absurd hq' (hother hq (Ne.symm hij') hi')
  · rw [List.getElem?_set_ne hij] at hi
    by_cases hij' : j = i'
    · subst hij'
      obtain rfl : r = q' := by simpa [hlt] using hi'
      exact absurd hq (hother hq' (Ne.symm hij) hi)
    · rw [List.getElem?_set_ne hij'] at hi'
      exact h i i' q q' k hi hi' hq hq'

theorem mem_set_of_ne {α : Type} {xs : List α} {i : ℕ} {x y z : α} (hi : xs[i]? = some z)
    (hy : y ∈ xs) (hne : y ≠ z) : y ∈ xs.set i x := by
  obtain ⟨n, hn⟩ := List.mem_iff_getElem?.mp hy
  have hin : i ≠ n := by
    rintro rfl
    exact hne (Option.some.inj (hn.symm.trans hi))
  exact List.mem_of_getElem? (List.getElem?_set_ne hin ▸ hn)

theorem mem_set_self {α : Type} {xs : List α} {i : ℕ} {x z : α} (hi : xs[i]? = some z) :
    x ∈ xs.set i x := by
  have hlt : i < xs.length := (List.getElem?_eq_some_iff.mp hi).1
  exact List.mem_of_getElem? (i := i) (by simp [hlt])

end Requests

/-! ## Steps -/

section Steps
variable {host : Host} {w w' : Gateway} {k : ℕ} {e : PaymentEvent}

theorem pipelineRuns_eq (e : PaymentEvent) : pipelineRuns e = [] ∨ ∃ p, pipelineRuns e = [p] := by
  unfold pipelineRuns
  split
  · split
    · exact .inr ⟨_, rfl⟩
    · exact .inl rfl
  · exact .inr ⟨_, rfl⟩

/-- The rows of a delivery are of its provider. -/
theorem StoredDelivery.IsOwn.isPaypal {library : WebhookLibrary ByteArray Json}
    {d : StoredDelivery ByteArray Json} (h : d.IsOwn library) :
    d.event.isPaypal = d.delivery.isPaypal := by
  obtain ⟨input, parsed, hparse, hrows⟩ := h
  obtain ⟨-, hnormalize⟩ := ParsedDelivery.rows_ok hrows
  have hparsed := Delivery.parsed_of_parse hparse
  obtain ⟨hsystem, -⟩ := ParsedDelivery.normalize_identity hparsed hnormalize
  obtain ⟨delivery, record, event⟩ := d
  unfold PaymentEvent.isPaypal
  rw [hsystem]
  cases hparsed with
  | razorpay => exact (decide_eq_false_iff_not.mpr razorpay_ne_paypal : _)
  | paypal => exact decide_eq_true rfl

/-- The route schedules the events that have a pipeline run. -/
theorem schedules_iff {d : Delivery ByteArray} {p : DeliveryProc ByteArray Json}
    (h : Accounts host.library w.ingestion.db d p) :
    schedules d p = true ↔ ∃ d' record e, p = .stored d' record e ∧ pipelineRuns e ≠ [] := by
  cases p with
  | stored d' record e =>
      obtain ⟨rfl, hown, -, -⟩ := h
      have hpaypal : e.isPaypal = d'.isPaypal := hown.isPaypal
      have hruns : schedules d' (.stored d' record e) = true ↔ pipelineRuns e ≠ [] := by
        unfold schedules pipelineRuns
        rw [hpaypal]
        by_cases hattempt : (resolvePipelineAttempt e).isSome = true <;>
          cases d'.isPaypal <;> simp [hattempt]
      rw [hruns]
      constructor
      · exact fun hne => ⟨d', record, e, rfl, hne⟩
      · rintro ⟨d'', record', e', heq, hne⟩
        cases heq
        exact hne
  | _ => simp [schedules]

/-- What a session has stored stays stored. -/
theorem Gateway.Stores.ingest {a : IngestionAction ByteArray}
    {ingestion : IngestionWorld ByteArray Json} (h : w.Stores k e)
    (ha : (ingestionProgram host.library).worldStep w.ingestion a = some ingestion) :
    ({ w with ingestion := ingestion } : Gateway).Stores k e := by
  obtain ⟨d, record, hstored⟩ := h
  have hrun : Run.exec (ingestionProgram host.library).worldStep w.ingestion [a] =
      some ingestion := by simp [ha]
  exact ⟨d, record, stored_exec hstored hrun⟩

theorem Gateway.Sound.session_lt (h : w.Sound host) {r : WebhookRequest} (hr : r ∈ w.requests)
    (hk : r.session? = some k) : k < w.ingestion.sessions.length := by
  have hok := h.requests r hr
  cases r with
  | verifying call task => cases hk
  | ingesting d k' =>
      obtain rfl : k' = k := Option.some.inj hk
      obtain ⟨s, hs, -⟩ := hok
      exact (List.getElem?_eq_some_iff.mp hs).1
  | responded response delivery =>
      cases delivery with
      | none => cases hk
      | some dk =>
          obtain rfl : dk.2 = k := Option.some.inj hk
          obtain ⟨s, hs, -⟩ := hok
          exact (List.getElem?_eq_some_iff.mp hs).1

/-- Requests without a session of their own change nothing. -/
theorem Gateway.Paired.requests (h : w.Paired host) {requests : List WebhookRequest}
    (hunique : UniqueSessions requests)
    (hanswered : ∀ k, (∃ response d, .responded response (some (d, k)) ∈ requests) ↔ w.Answered k) :
    ({ w with requests := requests } : Gateway).Paired host :=
  { h with
    sessions := hunique
    scheduled := fun k => (h.scheduled k).trans (and_congr_right fun _ => (hanswered k).symm) }

/-- A delivery that rolls back has not stored its event. -/
theorem not_stored_of_rollback {library : WebhookLibrary ByteArray Json} {input : DeliveryInput}
    {reads : ℕ → IngestionStore Json} {now : IngestionStore Json}
    {p q : DeliveryProc ByteArray Json} (h : DeliveryStepped library input reads now p (.rollback q))
    (d : Delivery ByteArray) (record : RawIngestionRecord Json) (e : PaymentEvent) :
    q ≠ .stored d record e := by
  have hresolve : ∀ (r : RawIngestionRecord Json) hash,
      (resolveExisting r hash : DeliveryProc ByteArray Json) ≠ .stored d record e := by
    intro r hash
    unfold resolveExisting
    split <;> nofun
  cases h with
  | known =>
      unfold onExisting
      split
      · split <;> nofun
      · exact hresolve _ _
  | lost =>
      unfold onConflict
      split <;> nofun
  | resolved => exact hresolve _ _
  | refused => nofun
  | ignored => nofun
  | unnormalized => nofun
  | unresolved => nofun

/-- Without a commit the store stays, and no session has stored its event since. -/
theorem ingestion_uncommitted {library : WebhookLibrary ByteArray Json}
    {a : IngestionAction ByteArray} {ingestion ingestion' : IngestionWorld ByteArray Json}
    (ha : (ingestionProgram library).worldStep ingestion a = some ingestion')
    (hcommit : committedDelivery ingestion a = none) : ingestion'.db = ingestion.db ∧
      ∀ (k : ℕ) d record e, (ingestion'.sessions[k]?).map (·.proc) = some (.stored d record e) →
        (ingestion.sessions[k]?).map (·.proc) = some (.stored d record e) := by
  have hset : ∀ {i : ℕ} {s t : IngestionSession ByteArray Json}, ingestion.sessions[i]? = some s →
      (∀ d record e, t.proc = .stored d record e → s.proc = .stored d record e) →
      ∀ (k : ℕ) d record e,
        ((ingestion.sessions.set i t)[k]?).map (·.proc) = some (.stored d record e) →
          (ingestion.sessions[k]?).map (·.proc) = some (.stored d record e) := by
    intro i s t hs hproc k d record e hk
    have hlt : i < ingestion.sessions.length := (List.getElem?_eq_some_iff.mp hs).1
    by_cases hik : i = k
    · subst hik
      have ht : t.proc = .stored d record e := by simpa [hlt] using hk
      rw [hs]
      exact congrArg some (hproc d record e ht)
    · rwa [List.getElem?_set_ne hik] at hk
  cases Program.stepped ha with
  | arrived harr =>
      cases harr
      refine ⟨rfl, fun k d record e hk => ?_⟩
      rcases Nat.lt_or_ge k ingestion.sessions.length with hlt | hge
      · rwa [List.getElem?_append_left hlt] at hk
      · rw [List.getElem?_append_right hge] at hk
        obtain ⟨s, hs, hproc⟩ := Option.map_eq_some_iff.mp hk
        obtain rfl := List.mem_singleton.mp (List.mem_of_getElem? hs)
        cases hproc
  | looked hs => exact ⟨rfl, hset hs fun _ _ _ h => h⟩
  | @aborted i s hs =>
      refine ⟨rfl, hset hs fun d record e h => ?_⟩
      obtain ⟨p, pending, locks, views⟩ := s
      cases p <;> first | exact h | cases h
  | @locked i input s key next hs hp =>
      obtain ⟨p, pending, locks, views⟩ := s
      cases deliveryStepped hp
  | @wrote i input s ws next hs hp =>
      refine ⟨rfl, hset hs fun d record e h => ?_⟩
      obtain ⟨p, pending, locks, views⟩ := s
      cases deliveryStepped hp <;> cases h
  | @raised i input s ws next hs hp =>
      refine ⟨rfl, hset hs fun d record e h => ?_⟩
      obtain ⟨p, pending, locks, views⟩ := s
      cases p <;> first | exact h | cases h
  | @called i input s effect next hs hp =>
      obtain ⟨p, pending, locks, views⟩ := s
      cases deliveryStepped hp
  | @committed i input s next hs hp =>
      obtain ⟨p, pending, locks, views⟩ := s
      cases deliveryStepped hp with
      | committed => simp [committedDelivery, hs, DeliveryProc.saved?] at hcommit
  | @rolledBack i input s next hs hp =>
      refine ⟨rfl, hset hs fun d record e h => ?_⟩
      obtain ⟨p, pending, locks, views⟩ := s
      exact absurd h (not_stored_of_rollback (deliveryStepped hp) d record e)

/-- Deliveries that go on without a commit. -/
theorem Gateway.Paired.ingest (h : w.Paired host) {a : IngestionAction ByteArray}
    {ingestion : IngestionWorld ByteArray Json}
    (ha : (ingestionProgram host.library).worldStep w.ingestion a = some ingestion)
    (hcommit : committedDelivery w.ingestion a = none) :
    ({ w with ingestion := ingestion } : Gateway).Paired host := by
  obtain ⟨hdb, hstored⟩ := ingestion_uncommitted ha hcommit
  have hstores : ∀ k e, ({ w with ingestion := ingestion } : Gateway).Stores k e ↔
      w.Stores k e := by
    refine fun k e => ⟨?_, fun hk => hk.ingest ha⟩
    rintro ⟨d, record, hk⟩
    exact ⟨d, record, hstored k d record e hk⟩
  refine { h with
    reach := hdb ▸ h.reach
    events := hdb ▸ h.events
    met := Program.Constraints.Met.step (ingestionConstraints host.library) h.met ha
    runs := fun k => ?_
    fresh := fun l k hl hk => ?_ }
  · rw [h.runs k]
    exact exists_congr fun e => and_congr_left fun _ => (hstores k e).symm
  · obtain ⟨e, p, hstore, hrest⟩ := h.fresh l k hl hk
    exact ⟨e, p, (hstores k e).mpr hstore, hrest⟩

/-- What a commit of session `k` leaves. -/
theorem ingestion_committed {input : DeliveryInput} {ingestion : IngestionWorld ByteArray Json}
    {d : StoredDelivery ByteArray Json} (hsound : w.Sound host) (h : w.Paired host)
    (ha : (ingestionProgram host.library).worldStep w.ingestion (.advance k input) =
      some ingestion)
    (hcommit : committedDelivery w.ingestion (.advance k input) = some d) :
    (∃ s, w.ingestion.sessions[k]? = some s ∧
      s.proc = .saved d.delivery d.record d.event) ∧
    ingestion.db.events = w.ingestion.db.events ++ [d.event] ∧
    ingestion.sessions = w.ingestion.sessions.set k
      (.fresh (.stored d.delivery d.record d.event)) ∧
    w.live.db.events.any d.event.sameIdentity = false := by
  obtain ⟨s, hs, hsaved⟩ := Option.bind_eq_some_iff.mp hcommit
  have hmem := List.mem_of_getElem? hs
  obtain ⟨d', haccount⟩ := hsound.deliveries.accounts s hmem
  have hmet := h.met.pending s hmem
  obtain ⟨p, pending, locks, views⟩ := s
  have hp : p = .saved d.delivery d.record d.event := by
    cases p <;> cases hsaved
    rfl
  subst hp
  obtain rfl : pending = [.insertRaw d.record, .insertEvent d.event] := haccount.pending
  refine ⟨⟨_, hs, rfl⟩, ?_⟩
  have hnew : w.live.db.events.any d.event.sameIdentity = false := by
    simp only [Program.violatesAny, ingestionProgram, IngestionStore.violates,
      IngestionStore.apply, Bool.or_false, Bool.or_eq_false_iff] at hmet
    rw [h.events, ← hmet.2]
    exact congrArg _ (funext fun e => PaymentEvent.sameIdentity_comm _ _)
  have hout : (ingestionProgram host.library).outcome w.ingestion.db
      ⟨.saved d.delivery d.record d.event, [.insertRaw d.record, .insertEvent d.event], locks,
        views⟩ input = some (.commit (.stored d.delivery d.record d.event)) := rfl
  simp only [Program.worldStep, hs, hout, Program.perform] at ha
  obtain rfl := Option.some.inj ha
  exact ⟨rfl, rfl, hnew⟩

/-- A commit is an arrival. -/
theorem Gateway.Paired.commit (h : w.Paired host) (hsound : w.Sound host) {input : DeliveryInput}
    {ingestion : IngestionWorld ByteArray Json} {d : StoredDelivery ByteArray Json}
    (ha : (ingestionProgram host.library).worldStep w.ingestion (.advance k input) =
      some ingestion)
    (hcommit : committedDelivery w.ingestion (.advance k input) = some d) :
    (({ w with ingestion := ingestion } : Gateway).store k d.event).Paired host := by
  obtain ⟨⟨s, hs, hproc⟩, hevents, hsessions, hnew⟩ := ingestion_committed hsound h ha hcommit
  obtain ⟨bs, hreach, harrivals⟩ := h.reach
  have hlt : k < w.ingestion.sessions.length := (List.getElem?_eq_some_iff.mp hs).1
  have harrive := live_arrive (liveRun_events hreach) hnew
  set w₁ := ({ w with ingestion := ingestion } : Gateway).store k d.event with hw₁
  have hunstored : ∀ e, ¬ w.Stores k e := by
    rintro e ⟨d', record, hstored⟩
    rw [hs, Option.map_some, hproc] at hstored
    cases hstored
  have hstores : ∀ k' e, w₁.Stores k' e ↔ w.Stores k' e ∨ (k' = k ∧ e = d.event) := by
    intro k' e
    simp only [Gateway.Stores, hw₁, Gateway.store, hsessions]
    by_cases hk : k = k'
    · subst hk
      rw [List.getElem?_set_self hlt, Option.map_some, Session.proc_fresh]
      constructor
      · rintro ⟨d', record, heq⟩
        cases heq
        exact .inr ⟨rfl, rfl⟩
      · rintro (hold | ⟨-, rfl⟩)
        · exact absurd hold (hunstored e)
        · exact ⟨_, _, rfl⟩
    · rw [List.getElem?_set_ne hk]
      simp [Ne.symm hk]
  have hnotrun : k ∉ w.runs := by
    intro hk
    obtain ⟨e, hstore, -⟩ := (h.runs k).mp hk
    exact hunstored e hstore
  have hruns : ∀ k', k' ∈ w₁.runs ↔ k' ∈ w.runs ∨ (k' = k ∧ pipelineRuns d.event ≠ []) := by
    intro k'
    rcases pipelineRuns_eq d.event with hnil | ⟨p, hp⟩
    · simp [hw₁, Gateway.store, hnil]
    · simp [hw₁, Gateway.store, hp]
  have hunanswered : ¬ w.Answered k := by
    rintro ⟨response, d', hmem⟩
    obtain ⟨s', hs', -, newId, hresponse⟩ := hsound.requests _ hmem
    obtain rfl : s = s' := Option.some.inj (hs.symm.trans hs')
    rw [hproc] at hresponse
    cases hresponse
  exact
    { reach := by
        refine ⟨bs ++ [.arrive d.event], Run.exec_snoc hreach harrive, ?_⟩
        rw [List.filterMap_append, harrivals]
        exact hevents.symm
      events := by
        have hadded : w₁.live.db.events = w.live.db.events ++ [d.event] := rfl
        rw [hadded, h.events]
        exact hevents.symm
      met := Program.Constraints.Met.step (ingestionConstraints host.library) h.met ha
      length := by
        simp [hw₁, Gateway.store, h.length]
      runs := fun k' => by
        rw [hruns, h.runs]
        constructor
        · rintro (⟨e, hstore, hne⟩ | ⟨rfl, hne⟩)
          · exact ⟨e, (hstores k' e).mpr (.inl hstore), hne⟩
          · exact ⟨d.event, (hstores _ _).mpr (.inr ⟨rfl, rfl⟩), hne⟩
        · rintro ⟨e, hstore, hne⟩
          rcases (hstores k' e).mp hstore with hold | ⟨rfl, rfl⟩
          · exact .inl ⟨e, hold, hne⟩
          · exact .inr ⟨rfl, hne⟩
      runsNodup := by
        rcases pipelineRuns_eq d.event with hnil | ⟨p, hp⟩
        · simpa [hw₁, Gateway.store, hnil] using h.runsNodup
        · simp only [hw₁, Gateway.store, hp, List.map_cons, List.map_nil]
          exact List.nodup_append.mpr ⟨h.runsNodup, by simp, by
            rintro a ha b hb rfl
            exact hnotrun (List.mem_singleton.mp hb ▸ ha)⟩
      fresh := fun l k' hl hk' => by
        rcases Nat.lt_or_ge l w.runs.length with hlt' | hge
        · have hl' : w.runs[l]? = some k' := by
            rw [← hl]
            exact (List.getElem?_append_left hlt').symm
          obtain ⟨e, p, hstore, hp, hsession⟩ := h.fresh l k' hl' hk'
          refine ⟨e, p, (hstores k' e).mpr (.inl hstore), hp, ?_⟩
          rw [← hsession]
          exact List.getElem?_append_left (h.length ▸ hlt')
        · rcases pipelineRuns_eq d.event with hnil | ⟨p, hp⟩
          · simp only [hw₁, Gateway.store, hnil, List.map_nil, List.append_nil] at hl
            rw [List.getElem?_eq_none hge] at hl
            cases hl
          · simp only [hw₁, Gateway.store, hp, List.map_cons, List.map_nil] at hl
            rw [List.getElem?_append_right hge] at hl
            obtain ⟨hzero, rfl⟩ : l - w.runs.length = 0 ∧ k = k' := by
              simpa [List.getElem?_singleton] using hl
            refine ⟨d.event, p, (hstores k _).mpr (.inr ⟨rfl, rfl⟩), hp, ?_⟩
            simp only [hw₁, Gateway.store, hp, List.map_cons, List.map_nil]
            rw [List.getElem?_append_right (h.length ▸ hge), ← h.length, hzero]
            rfl
      sessions := h.sessions
      scheduled := fun k' => by
        have hsame : k' ∈ w₁.scheduled ↔ k' ∈ w.scheduled := Iff.rfl
        have hanswered : w₁.Answered k' ↔ w.Answered k' := Iff.rfl
        rw [hsame, h.scheduled, hruns, hanswered]
        constructor
        · exact fun hk => ⟨.inl hk.1, hk.2⟩
        · rintro ⟨hold | ⟨rfl, -⟩, hk⟩
          · exact ⟨hold, hk⟩
          · exact absurd hk hunanswered
      scheduledNodup := h.scheduledNodup }

/-- A pipeline run that has been scheduled goes on. -/
theorem Gateway.Paired.pipeline (h : w.Paired host) {a : LiveAction} {live : LiveWorld}
    (hstarted : (runOf a).any w.started = true)
    (ha : (liveProgram host.policy).worldStep w.live a = some live) :
    ({ w with live := live } : Gateway).Paired host := by
  obtain ⟨bs, hreach, harrivals⟩ := h.reach
  obtain ⟨i, hi, hrun⟩ := (Option.any_eq_true _ _).mp hstarted
  obtain ⟨k, hk, hscheduled⟩ := (Option.any_eq_true _ _).mp hrun
  have hnone : arrivalOf a = none := by
    cases a with
    | arrive e => cases hi
    | _ => rfl
  obtain ⟨hevents, hlength, hothers⟩ := live_events_eq (liveRun_events hreach) ha hnone
  exact
    { h with
      reach := by
        refine ⟨bs ++ [a], Run.exec_snoc hreach ha, ?_⟩
        simp [List.filterMap_append, harrivals, hnone]
      events := hevents.trans h.events
      length := h.length.trans hlength.symm
      fresh := fun l k' hl hk' => by
        obtain ⟨e, p, hstore, hp, hsession⟩ := h.fresh l k' hl hk'
        refine ⟨e, p, hstore, hp, ?_⟩
        rw [hothers l, hsession]
        rintro hil
        obtain rfl : i = l := Option.some.inj (hi.symm.trans hil)
        obtain rfl : k = k' := Option.some.inj (hk.symm.trans hl)
        exact hk' (by simpa using hscheduled) }

/-- A request comes in, which is not one of an answered delivery. -/
theorem Gateway.Paired.append (h : w.Paired host) {r : WebhookRequest}
    (hr : r.answered? = none)
    (hfresh : ∀ k, r.session? = some k → ∀ r' ∈ w.requests, r'.session? ≠ some k) :
    ({ w with requests := w.requests ++ [r] } : Gateway).Paired host := by
  refine h.requests (h.sessions.append hfresh) fun k => ?_
  refine exists_congr fun response => exists_congr fun d => ?_
  rw [List.mem_append, List.mem_singleton]
  refine or_iff_left ?_
  rintro rfl
  cases hr

/-- A request changes that is waiting for its verification, and is not answered as a delivery. -/
theorem Gateway.Paired.setRequest (h : w.Paired host) {j : ℕ} {call : VerifyCall} {task : ℕ}
    {r : WebhookRequest} (hj : w.requests[j]? = some (.verifying call task))
    (hr : r.answered? = none)
    (hfresh : ∀ k, r.session? = some k → ∀ r' ∈ w.requests, r'.session? ≠ some k) :
    ({ w with requests := w.requests.set j r } : Gateway).Paired host := by
  refine h.requests (h.sessions.set hj fun k hk => .inr (hfresh k hk)) fun k => ?_
  refine exists_congr fun response => exists_congr fun d => ⟨fun hmem => ?_, fun hmem => ?_⟩
  · rcases List.mem_or_eq_of_mem_set hmem with hmem | heq
    · exact hmem
    · subst heq
      cases hr
  · exact mem_set_of_ne hj hmem nofun

/-- A delivery that comes in has a session of its own. -/
theorem Gateway.Sound.newSession (h : w.Sound host) {d : Delivery ByteArray} :
    ∀ k, (WebhookRequest.ingesting d w.ingestion.sessions.length).session? = some k →
      ∀ r' ∈ w.requests, r'.session? ≠ some k := by
  intro k hk r' hr' hk'
  obtain rfl : w.ingestion.sessions.length = k := Option.some.inj hk
  exact Nat.lt_irrefl _ (h.session_lt hr' hk')

/-- The request of a delivery that has ended is answered. -/
theorem Gateway.Paired.respond (h : w.Paired host) (hsound : w.Sound host) {j : ℕ}
    {d : Delivery ByteArray} {s : IngestionSession ByteArray Json} {response : WebhookResponse}
    (hj : w.requests[j]? = some (.ingesting d k)) (hs : w.ingestion.sessions[k]? = some s) :
    ({ w with
      requests := w.requests.set j (.responded response (some (d, k)))
      scheduled := if schedules d s.proc then w.scheduled ++ [k] else w.scheduled } :
        Gateway).Paired host := by
  obtain ⟨s', hs', haccount, -⟩ := hsound.requests _ (List.mem_of_getElem? hj)
  obtain rfl : s = s' := Option.some.inj (hs.symm.trans hs')
  have hunanswered : ¬ w.Answered k := by
    rintro ⟨response', d', hmem⟩
    obtain ⟨j', hj'⟩ := List.mem_iff_getElem?.mp hmem
    obtain rfl := h.sessions j j' _ _ k hj hj' rfl rfl
    cases hj.symm.trans hj'
  have hruns : schedules d s.proc = true ↔ k ∈ w.runs := by
    rw [schedules_iff haccount.accounts, h.runs k]
    constructor
    · rintro ⟨d', record, e, hproc, hne⟩
      exact ⟨e, ⟨d', record, by rw [hs, Option.map_some, hproc]⟩, hne⟩
    · rintro ⟨e, ⟨d', record, hstored⟩, hne⟩
      rw [hs] at hstored
      exact ⟨d', record, e, Option.some.inj hstored, hne⟩
  have hnew : ∀ k', k' ∈ (if schedules d s.proc then w.scheduled ++ [k] else w.scheduled) ↔
      k' ∈ w.scheduled ∨ (k' = k ∧ k ∈ w.runs) := by
    intro k'
    by_cases hschedules : schedules d s.proc = true
    · simp [hschedules, hruns.mp hschedules]
    · simp [hschedules, mt hruns.mpr hschedules]
  exact
    { h with
      fresh := fun l k' hl hk' => h.fresh l k' hl fun hold => hk' ((hnew k').mpr (.inl hold))
      sessions := h.sessions.set hj fun k' hk' => .inl hk'
      scheduled := fun k' => by
        rw [hnew, h.scheduled]
        constructor
        · rintro (⟨hk', response', d', hmem⟩ | ⟨rfl, hk⟩)
          · exact ⟨hk', response', d', mem_set_of_ne hj hmem nofun⟩
          · exact ⟨hk, response, d, mem_set_self hj⟩
        · rintro ⟨hk', response', d', hmem⟩
          rcases List.mem_or_eq_of_mem_set hmem with hold | heq
          · exact .inl ⟨hk', response', d', hold⟩
          · cases heq
            exact .inr ⟨rfl, hk'⟩
      scheduledNodup := by
        dsimp only
        split
        · refine List.nodup_append.mpr ⟨h.scheduledNodup, by simp, ?_⟩
          rintro a ha b hb rfl
          obtain rfl := List.mem_singleton.mp hb
          exact hunanswered ((h.scheduled a).mp ha).2
        · exact h.scheduledNodup }

theorem Gateway.Paired.step {a : GatewayAction} (h : w.Paired host) (hsound : w.Sound host)
    (ha : host.gatewayStep w a = some w') : w'.Paired host := by
  cases a with
  | razorpay body signature eventId =>
      dsimp only [Host.gatewayStep] at ha
      split at ha
      · exact Option.some.inj ha ▸ h.append rfl nofun
      split at ha
      · exact Option.some.inj ha ▸ h.append rfl nofun
      obtain ⟨ingestion, hnew, rfl⟩ := Option.map_eq_some_iff.mp ha
      exact (h.ingest hnew rfl).append rfl hsound.newSession
  | paypal headers contentLength chunks =>
      dsimp only [Host.gatewayStep] at ha
      split at ha
      · exact Option.some.inj ha ▸ h.append rfl nofun
      · split at ha
        · exact Option.some.inj ha ▸ h.append rfl nofun
        · rename_i rawBody hbody
          obtain ⟨client, -, rfl⟩ := Option.map_eq_some_iff.mp ha
          have happend := h.append
            (r := .verifying ⟨headers, rawBody⟩ w.client.tasks.length) rfl nofun
          exact { happend with }
  | verify task input =>
      obtain ⟨config, -, hnext⟩ := Option.bind_eq_some_iff.mp ha
      obtain ⟨client, -, hw⟩ := Option.bind_eq_some_iff.mp hnext
      obtain rfl := Option.some.inj hw
      exact { h with }
  | verified j =>
      dsimp only [Host.gatewayStep] at ha
      split at ha
      · rename_i call task hj
        split at ha
        · exact Option.some.inj ha ▸ h.setRequest hj rfl nofun
        · exact Option.some.inj ha ▸ h.setRequest hj rfl nofun
        · obtain ⟨ingestion, hnew, rfl⟩ := Option.map_eq_some_iff.mp ha
          exact (h.ingest hnew rfl).setRequest hj rfl hsound.newSession
        · cases ha
      · cases ha
  | deliver a =>
      cases a with
      | arrive d => cases ha
      | look k =>
          obtain ⟨ingestion, hlook, rfl⟩ := Option.map_eq_some_iff.mp ha
          exact h.ingest hlook rfl
      | abort k =>
          obtain ⟨ingestion, habort, rfl⟩ := Option.map_eq_some_iff.mp ha
          exact h.ingest habort rfl
      | advance k input =>
          obtain ⟨ingestion, hadvance, rfl⟩ := Option.map_eq_some_iff.mp ha
          dsimp only
          split
          · exact h.commit hsound hadvance ‹_›
          · exact h.ingest hadvance ‹_›
  | respond j newId =>
      dsimp only [Host.gatewayStep] at ha
      split at ha
      · rename_i d k hj
        obtain ⟨s, hs, hnext⟩ := Option.bind_eq_some_iff.mp ha
        obtain ⟨response, -, hw⟩ := Option.bind_eq_some_iff.mp hnext
        obtain rfl := Option.some.inj hw
        exact h.respond hsound hj hs
      · cases ha
  | pipeline a =>
      dsimp only [Host.gatewayStep] at ha
      split at ha
      · obtain ⟨live, hlive, rfl⟩ := Option.map_eq_some_iff.mp ha
        exact h.pipeline ‹_› hlive
      · cases ha

/-- The invariant of every run. -/
theorem gatewayRun_paired {as : List GatewayAction} (h : host.gatewayRun as = some w) :
    w.Paired host := by
  have hstep : ∀ (u : Gateway) a u', u.Sound host ∧ u.Paired host →
      host.gatewayStep u a = some u' → u'.Sound host ∧ u'.Paired host :=
    fun u a u' hu ha => ⟨hu.1.step ha, hu.2.step hu.1 ha⟩
  have hstart : host.gatewayRun [] = some {} := rfl
  refine (Run.invariant_exec hstep ⟨gatewayRun_sound hstart, ?_⟩ h).2
  exact
    { reach := ⟨[], rfl, rfl⟩
      events := rfl
      met := Program.Constraints.Met.empty (by simp)
      length := rfl
      runs := fun k => by simp [Gateway.Stores]
      runsNodup := .nil
      fresh := by simp
      sessions := by
        intro j j' r r' k hj
        cases hj
      scheduled := by simp
      scheduledNodup := .nil }

end Steps

/-! ## Main results -/

section Results
variable {host : Host} {w : Gateway} {as : List GatewayAction}

/-- Whatever the requests, the pipeline runs as if each event had arrived when its delivery
committed: a run of the live pipeline with the same events, in the same order. -/
theorem gateway_refines_live (h : host.gatewayRun as = some w) :
    ∃ bs, liveRun host.policy bs = some w.live ∧
      bs.filterMap arrivalOf = w.ingestion.db.events ∧
      w.live.db.events = w.ingestion.db.events := by
  have hpaired := gatewayRun_paired h
  obtain ⟨bs, hreach, harrivals⟩ := hpaired.reach
  exact ⟨bs, hreach, harrivals, hpaired.events⟩

open GatewayExample in
theorem gateway_refines_live_example : ∃ w e e' bs,
    GatewayExample.host.gatewayRun actions = some w ∧ e.sourceSystem = razorpaySourceSystem ∧
      e'.sourceSystem = paypalSourceSystem ∧
      liveRun GatewayExample.host.policy bs = some w.live ∧ bs.filterMap arrivalOf = [e, e'] := by
  obtain ⟨w, e, e', hw, hevents, hsource, hsource', -, -⟩ := exists_run
  obtain ⟨bs, hbs, harrivals, -⟩ := gateway_refines_live hw
  exact ⟨w, e, e', bs, hw, hsource, hsource', hbs, harrivals.trans hevents⟩

end Results

end RevenueRecovery
