import RevenueRecovery.Migration.Expand

/-!
# What the preflights of Revision A establish

The purpose of the resolution, in its own terms: an attempt key belongs to the
provider of its earliest trigger event. When the preflights find nothing, every key
of the Stage 5-8 tables has one such provider, the registry that Revision A inserts
has exactly one row for each key, and no constraint refuses a row of it.

## Main definitions
* `IsTrigger`, `Resolves` : the trigger events of a key, and the one that decides.
* `Preflighted` : what the preflights check.
* `Faithful` : the registry has one row for each key, resolved by its trigger event.
* `registryConstraints_pass` : the insert is not refused.
-/
namespace RevenueRecovery.Migration

open Relational

variable {ρ : Type}

/-! ## Triggers -/

/-- The event can be the trigger of the attempt. -/
def IsTrigger (key : String) (e : EventRow ρ) : Prop :=
  (e.sourceSystem = "paypal" ∧ e.eventType = "order.approved" ∧
    key = "paypal-order:" ++ e.paymentId) ∨
  (e.sourceSystem ≠ "paypal" ∧ e.eventType = "payment.authorized" ∧
    inPaypalNamespace key = false ∧ key = e.paymentId)

/-- The event is the earliest trigger of the attempt, and every trigger of it is of the same
provider. -/
structure Resolves (events : List (EventRow ρ)) (key : String) (e : EventRow ρ) : Prop where
  mem : e ∈ events
  trigger : IsTrigger key e
  earliest : ∀ e' ∈ events, IsTrigger key e' →
    toLex (e.ingestedAt, e.eventId.toNat) ≤ toLex (e'.ingestedAt, e'.eventId.toNat)
  provider : ∀ e' ∈ events, IsTrigger key e' → e'.sourceSystem = e.sourceSystem

theorem inPaypalNamespace_iff {key : String} :
    inPaypalNamespace key = true ↔ key = "paypal-order:" ++ substrFrom key 14 := by
  have hsplit := List.take_append_drop 13 key.toList
  simp only [inPaypalNamespace, leftChars, substrFrom, beq_iff_eq]
  constructor
  · intro h
    rw [← h, ← String.ofList_append, hsplit, String.ofList_toList]
  · intro h
    have htake : key.toList.take 13 = ("paypal-order:" : String).toList := by
      rw [h, String.toList_append, String.toList_ofList]
      exact List.take_left' rfl
    rw [htake, String.ofList_toList]

theorem substrFrom_paypal (reference : String) :
    substrFrom ("paypal-order:" ++ reference) 14 = reference := by
  rw [substrFrom, String.toList_append]
  have hdrop : (("paypal-order:" : String).toList ++ reference.toList).drop 13 =
      reference.toList := List.drop_left' rfl
  rw [hdrop, String.ofList_toList]

theorem inPaypalNamespace_paypal (reference : String) :
    inPaypalNamespace ("paypal-order:" ++ reference) = true :=
  inPaypalNamespace_iff.mpr (by rw [substrFrom_paypal])

/-- The candidates of a key are its triggers. -/
theorem accepts_classify {key : String} {e : EventRow ρ} :
    (classify key).accepts e = true ↔ IsTrigger key e := by
  cases hnamespace : inPaypalNamespace key with
  | true =>
      have hkey := inPaypalNamespace_iff.mp hnamespace
      simp only [P3Classified.accepts, classify, IsTrigger, hnamespace]
      constructor
      · intro h
        simp only [if_true, Bool.and_eq_true, beq_iff_eq, Bool.true_and, Bool.not_true,
          Bool.false_and, Bool.or_false] at h
        obtain ⟨hpayment, hsource, htype⟩ := h
        exact .inl ⟨hsource, htype, by rw [hpayment]; exact hkey⟩
      · rintro (⟨hsource, htype, hpayment⟩ | ⟨-, -, hfalse, -⟩)
        · have hreference : substrFrom key 14 = e.paymentId := by
            rw [hpayment, substrFrom_paypal]
          simp [hsource, htype, hreference]
        · cases hfalse
  | false =>
      simp only [P3Classified.accepts, classify, IsTrigger, hnamespace]
      constructor
      · intro h
        simp at h
        exact .inr ⟨h.2.1, h.2.2, trivial, h.1.symm⟩
      · rintro (⟨-, -, hpayment⟩ | ⟨hsource, htype, -, hpayment⟩)
        · rw [hpayment, inPaypalNamespace_paypal] at hnamespace
          cases hnamespace
        · simp [hsource, htype, hpayment]

/-! ## Keys -/

/-- The keys of the keyed tables. -/
def attemptKeys (db : LegacyTables ρ) : List String :=
  (keyRefs db).map KeyRef.paymentAttemptId

variable {db : LegacyTables ρ} {key : String}

theorem mem_attemptKeys : key ∈ attemptKeys db ↔
    (∃ r ∈ db.predictions, r.paymentAttemptId = key) ∨
      (∃ r ∈ db.decisions, r.paymentAttemptId = key) ∨
      (∃ r ∈ db.commands, r.paymentAttemptId = key) ∨
      (∃ r ∈ db.observations, r.paymentAttemptId = key) ∨
      ∃ r ∈ db.attributions, r.paymentAttemptId = key := by
  simp [attemptKeys, keyRefs]

theorem p3Keys_map : (p3Keys db).map P3Key.attemptKey = (attemptKeys db).dedup := by
  simp [p3Keys, attemptKeys, Function.comp_def]

theorem mem_p3Keys_map : key ∈ (p3Keys db).map P3Key.attemptKey ↔ key ∈ attemptKeys db := by
  rw [p3Keys_map, List.mem_dedup]

/-- A key has its earliest record time. -/
theorem firstCreatedAt_isSome {k : P3Key} (h : k ∈ p3Keys db) :
    k.firstCreatedAt.isSome = true := by
  obtain ⟨key, hkey, rfl⟩ := List.mem_map.mp h
  obtain ⟨r, hr, hrkey⟩ := List.mem_map.mp (List.mem_dedup.mp hkey)
  have hmem : r.createdAt ∈
      ((keyRefs db).filter fun r => r.paymentAttemptId = key).map KeyRef.createdAt :=
    List.mem_map_of_mem (List.mem_filter.mpr ⟨hr, by simpa using hrkey⟩)
  cases hmin : (((keyRefs db).filter fun r => r.paymentAttemptId = key).map
      KeyRef.createdAt).min? with
  | none =>
      rw [List.min?_eq_none_iff.mp hmin] at hmem
      cases hmem
  | some t => simp [hmin]

theorem mem_p3Classified {c : P3Classified} :
    c ∈ p3Classified db ↔ ∃ key ∈ attemptKeys db, c = classify key := by
  have hmap : p3Classified db = ((p3Keys db).map P3Key.attemptKey).map classify := by
    simp [p3Classified, Function.comp_def]
  rw [hmap, List.mem_map]
  simp only [mem_p3Keys_map, eq_comm]

/-- The candidate that an event is for a key. -/
def candidateOf (key : String) (e : EventRow ρ) : P3Candidate :=
  ⟨key, e.eventId, e.sourceSystem, e.paymentId, e.ingestedAt⟩

theorem mem_p3Candidates {t : P3Candidate} : t ∈ p3Candidates db ↔
    ∃ key ∈ attemptKeys db, ∃ e ∈ db.events, IsTrigger key e ∧ t = candidateOf key e := by
  simp only [p3Candidates, List.mem_map, Prod.exists, mem_join, mem_p3Classified]
  constructor
  · rintro ⟨c, e, ⟨⟨key, hkey, rfl⟩, he, haccepts⟩, rfl⟩
    exact ⟨key, hkey, e, he, accepts_classify.mp haccepts, rfl⟩
  · rintro ⟨key, hkey, e, he, htrigger, rfl⟩
    exact ⟨classify key, e, ⟨⟨key, hkey, rfl⟩, he, accepts_classify.mpr htrigger⟩, rfl⟩

/-! ## The preflights -/

/-- What PF-01 to PF-17 check, as far as the registry and Revision B rest on it. -/
structure Preflighted (db : LegacyTables ρ) : Prop where
  supported : ∀ t ∈ p3Candidates db, t.sourceSystem ∈ supportedSources
  nonempty : ∀ key ∈ attemptKeys db, key ≠ ""
  wellFormed : ∀ key ∈ attemptKeys db, inPaypalNamespace key = true →
    matchesPaypalIdentifier (substrFrom key 14) = true
  triggered : ∀ key ∈ attemptKeys db, ∃ t ∈ p3Candidates db, t.attemptKey = key
  oneProvider : ∀ t ∈ p3Candidates db, ∀ t' ∈ p3Candidates db,
    t.attemptKey = t'.attemptKey → t.sourceSystem = t'.sourceSystem
  decisionExists : ∀ c ∈ db.commands, ∃ d ∈ db.decisions, d.decisionId = c.decisionId
  commandMatches : ∀ c ∈ db.commands, ∀ d ∈ db.decisions, d.decisionId = c.decisionId →
    d.paymentAttemptId = c.paymentAttemptId
  commandExists : ∀ a ∈ db.executionAttempts, ∃ c ∈ db.commands, c.commandId = a.commandId
  observationCommand : ∀ o ∈ db.observations, ∃ c ∈ db.commands, c.commandId = o.commandId
  observationMatches : ∀ o ∈ db.observations, ∀ c ∈ db.commands, c.commandId = o.commandId →
    c.paymentAttemptId = o.paymentAttemptId
  attributionCommand : ∀ a ∈ db.attributions, ∃ c ∈ db.commands, c.commandId = a.commandId
  attributionMatches : ∀ a ∈ db.attributions, ∀ c ∈ db.commands, c.commandId = a.commandId →
    c.paymentAttemptId = a.paymentAttemptId
  attributionDecision : ∀ a ∈ db.attributions, ∃ d ∈ db.decisions, d.decisionId = a.decisionId
  attributionDecisionMatches : ∀ a ∈ db.attributions, ∀ d ∈ db.decisions,
    d.decisionId = a.decisionId → d.paymentAttemptId = a.paymentAttemptId
  uniqueReference : ((p3Resolved db).map fun r => (r.sourceSystem, r.providerReference)).Nodup

/-- A left join of which no row offends: each row joins one, and none that offends. -/
private theorem leftJoin_passes {α β : Type} {on : α → β → Bool} {offends : α × Option β → Bool}
    {text : α × Option β → Option String} {rows : List α} {target : List β}
    (hnone : ∀ a, offends (a, none) = true)
    (h : ((leftJoin on rows target).filter offends).map text = []) :
    (∀ a ∈ rows, ∃ b ∈ target, on a b = true) ∧
      ∀ a ∈ rows, ∀ b ∈ target, on a b = true → offends (a, some b) = false := by
  rw [List.map_eq_nil_iff, List.filter_eq_nil_iff] at h
  constructor
  · intro a ha
    by_contra hno
    simp only [not_exists, not_and, Bool.not_eq_true] at hno
    exact h (a, none) (mem_leftJoin_none.mpr ⟨ha, hno⟩) (hnone a)
  · intro a ha b hb hon
    exact Bool.not_eq_true _ ▸ h (a, some b) (mem_leftJoin_some.mpr ⟨ha, hb, hon⟩)

theorem pf01_passes : (pf01 db).query = [] ↔
    ∀ t ∈ p3Candidates db, t.sourceSystem ∈ supportedSources := by
  rw [pf01, List.map_eq_nil_iff, List.dedup_eq_nil, List.map_eq_nil_iff, List.filter_eq_nil_iff]
  simp

theorem pf02_passes : (pf02 db).query = [] ↔ ∀ key ∈ attemptKeys db, key ≠ "" ∧
    (inPaypalNamespace key = true → matchesPaypalIdentifier (substrFrom key 14) = true) := by
  rw [pf02, List.map_eq_nil_iff, List.filter_eq_nil_iff]
  constructor
  · intro h key hkey
    have := h (classify key) (mem_p3Classified.mpr ⟨key, hkey, rfl⟩)
    grind [classify]
  · intro h c hc
    obtain ⟨key, hkey, rfl⟩ := mem_p3Classified.mp hc
    have := h key hkey
    grind [classify]

theorem pf04_passes : (pf04 db).query = [] ↔
    ∀ key ∈ attemptKeys db, ∃ t ∈ p3Candidates db, t.attemptKey = key := by
  rw [pf04, List.map_eq_nil_iff, List.filter_eq_nil_iff]
  constructor
  · intro h key hkey
    have := h (classify key) (mem_p3Classified.mpr ⟨key, hkey, rfl⟩)
    simpa [classify] using this
  · intro h c hc
    obtain ⟨key, hkey, rfl⟩ := mem_p3Classified.mp hc
    simpa [classify] using h key hkey

theorem pf05_passes (h : (pf05 db).query = []) : ∀ t ∈ p3Candidates db, ∀ t' ∈ p3Candidates db,
    t.attemptKey = t'.attemptKey → t.sourceSystem = t'.sourceSystem := by
  rw [pf05, List.map_eq_nil_iff, List.filter_eq_nil_iff] at h
  intro t ht t' ht' hkey
  have hle : (candidateSources db t.attemptKey).length ≤ 1 := by
    have := h t.attemptKey (List.mem_dedup.mpr (List.mem_map_of_mem ht))
    simpa using this
  have hmem : ∀ s ∈ p3Candidates db, s.attemptKey = t.attemptKey →
      s.sourceSystem ∈ candidateSources db t.attemptKey := by
    intro s hs hsame
    rw [candidateSources, List.mem_insertionSort, List.mem_dedup]
    exact List.mem_map_of_mem (List.mem_filter.mpr ⟨hs, by simpa using hsame⟩)
  have hsource := hmem t ht rfl
  have hsource' := hmem t' ht' hkey.symm
  cases hsources : candidateSources db t.attemptKey with
  | nil =>
      rw [hsources] at hsource
      cases hsource
  | cons source rest =>
      have hrest : rest = [] := by simpa [hsources] using hle
      rw [hsources, hrest, List.mem_singleton] at hsource hsource'
      rw [hsource, hsource']

theorem pf09_passes : (pf09 db).query = [] ↔
    ∀ c ∈ db.commands, ∃ d ∈ db.decisions, d.decisionId = c.decisionId := by
  rw [pf09, List.map_eq_nil_iff, List.filter_eq_nil_iff]
  simp

theorem pf10_passes (h : (pf10 db).query = []) : ∀ c ∈ db.commands, ∀ d ∈ db.decisions,
    d.decisionId = c.decisionId → d.paymentAttemptId = c.paymentAttemptId := by
  rw [pf10, List.map_eq_nil_iff, List.filter_eq_nil_iff] at h
  intro c hc d hd hid
  have := h (c, d) (mem_join.mpr ⟨hc, hd, by simpa using hid⟩)
  grind

theorem pf11_passes : (pf11 db).query = [] ↔
    ∀ a ∈ db.executionAttempts, ∃ c ∈ db.commands, c.commandId = a.commandId := by
  rw [pf11, List.map_eq_nil_iff, List.filter_eq_nil_iff]
  simp

theorem pf12_passes (h : (pf12 db).query = []) :
    (∀ o ∈ db.observations, ∃ c ∈ db.commands, c.commandId = o.commandId) ∧
      ∀ o ∈ db.observations, ∀ c ∈ db.commands, c.commandId = o.commandId →
        c.paymentAttemptId = o.paymentAttemptId := by
  obtain ⟨hexists, hsame⟩ := leftJoin_passes (fun _ => rfl) h
  simp only [beq_iff_eq, bne_eq_false_iff_eq] at hexists hsame
  exact ⟨hexists, hsame⟩

theorem pf13_passes (h : (pf13 db).query = []) :
    (∀ a ∈ db.attributions, ∃ c ∈ db.commands, c.commandId = a.commandId) ∧
      ∀ a ∈ db.attributions, ∀ c ∈ db.commands, c.commandId = a.commandId →
        c.paymentAttemptId = a.paymentAttemptId := by
  obtain ⟨hexists, hsame⟩ := leftJoin_passes (fun _ => rfl) h
  simp only [beq_iff_eq, Bool.or_eq_false_iff, bne_eq_false_iff_eq] at hexists hsame
  exact ⟨hexists, fun a ha c hc hid => (hsame a ha c hc hid).2⟩

theorem pf14_passes (h : (pf14 db).query = []) :
    (∀ a ∈ db.attributions, ∃ d ∈ db.decisions, d.decisionId = a.decisionId) ∧
      ∀ a ∈ db.attributions, ∀ d ∈ db.decisions, d.decisionId = a.decisionId →
        d.paymentAttemptId = a.paymentAttemptId := by
  obtain ⟨hexists, hsame⟩ := leftJoin_passes (fun _ => rfl) h
  simp only [beq_iff_eq, bne_eq_false_iff_eq] at hexists hsame
  exact ⟨hexists, hsame⟩

theorem pf16_passes : (pf16 db).query = [] ↔
    ((p3Resolved db).map fun r => (r.sourceSystem, r.providerReference)).Nodup := by
  rw [pf16, List.map_eq_nil_iff, duplicates_eq_nil]

/-- The preflights that find nothing establish it. -/
theorem preflighted
    (h : ∀ p ∈ preflightBeforeResolution db ++ preflightAfterResolution db, p.query = []) :
    Preflighted db := by
  simp only [preflightBeforeResolution, preflightAfterResolution, List.cons_append,
    List.nil_append, List.forall_mem_cons, List.not_mem_nil, false_implies, implies_true,
    and_true] at h
  obtain ⟨h01, h02, -, h04, h05, -, -, -, h09, h10, h11, h12, h13, h14, -, h16, -⟩ := h
  rw [pf02_passes] at h02
  exact {
    supported := pf01_passes.mp h01
    nonempty := fun key hkey => (h02 key hkey).1
    wellFormed := fun key hkey => (h02 key hkey).2
    triggered := pf04_passes.mp h04
    oneProvider := pf05_passes h05
    decisionExists := pf09_passes.mp h09
    commandMatches := pf10_passes h10
    commandExists := pf11_passes.mp h11
    observationCommand := (pf12_passes h12).1
    observationMatches := (pf12_passes h12).2
    attributionCommand := (pf13_passes h13).1
    attributionMatches := (pf13_passes h13).2
    attributionDecision := (pf14_passes h14).1
    attributionDecisionMatches := (pf14_passes h14).2
    uniqueReference := pf16_passes.mp h16 }

/-! ## The registry -/

theorem mem_p3Resolved {r : P3Resolved} (h : r ∈ p3Resolved db) :
    ∃ e ∈ db.events, r.attemptKey ∈ attemptKeys db ∧ IsTrigger r.attemptKey e ∧
      (∀ e' ∈ db.events, IsTrigger r.attemptKey e' →
        toLex (e.ingestedAt, e.eventId.toNat) ≤ toLex (e'.ingestedAt, e'.eventId.toNat)) ∧
      r = ⟨r.attemptKey, e.sourceSystem, e.paymentId, e.eventId⟩ := by
  obtain ⟨t, ht, rfl⟩ := List.mem_map.mp h
  obtain ⟨hmem, hfirst⟩ := distinctOn_spec ht
  obtain ⟨key, hkey, e, he, htrigger, rfl⟩ := mem_p3Candidates.mp hmem
  refine ⟨e, he, hkey, htrigger, fun e' he' htrigger' => ?_, rfl⟩
  exact hfirst (candidateOf key e')
    (mem_p3Candidates.mpr ⟨key, hkey, e', he', htrigger', rfl⟩) rfl

theorem nodup_p3Resolved : ((p3Resolved db).map P3Resolved.attemptKey).Nodup := by
  have h := nodup_distinctOn P3Candidate.attemptKey P3Candidate.order (p3Candidates db)
  simpa [p3Resolved, Function.comp_def] using h

/-- The rows of the registry are the resolved keys, each with its earliest record time. -/
theorem mem_registry {r : PaymentAttemptRow} : r ∈ registry db ↔
    ∃ t ∈ p3Resolved db, ∃ k ∈ p3Keys db, t.attemptKey = k.attemptKey ∧
      r = ⟨t.attemptKey, t.sourceSystem, t.providerReference, t.triggerEventId,
        k.firstCreatedAt⟩ := by
  simp only [registry, insertRegistry, List.mem_map, Prod.exists, mem_join, beq_iff_eq]
  constructor
  · rintro ⟨t, k, ⟨ht, hk, hkey⟩, rfl⟩
    exact ⟨t, ht, k, hk, hkey, rfl⟩
  · rintro ⟨t, ht, k, hk, hkey, rfl⟩
    exact ⟨t, k, ⟨ht, hk, hkey⟩, rfl⟩

theorem map_fst_registry_join :
    ((join (fun r k => r.attemptKey == k.attemptKey) (p3Resolved db) (p3Keys db)).map
      Prod.fst) = p3Resolved db := by
  refine map_fst_join fun t ht => ?_
  obtain ⟨e, -, hkey, -⟩ := mem_p3Resolved ht
  obtain ⟨k, hk, hsame⟩ := List.mem_map.mp (mem_p3Keys_map.mpr hkey)
  have hnodup : ((p3Keys db).map P3Key.attemptKey).Nodup := by
    rw [p3Keys_map]
    exact List.nodup_dedup _
  refine ⟨k, ?_⟩
  rw [← filter_key_eq_singleton hnodup hk, hsame]
  exact List.filter_congr fun k' _ => by rw [Bool.beq_eq_decide_eq, Bool.decide_congr eq_comm]

/-- A column of the resolved keys is a column of the registry. -/
theorem map_registry {γ : Type} {column : PaymentAttemptRow → γ} (resolved : P3Resolved → γ)
    (h : ∀ t at', column ⟨t.attemptKey, t.sourceSystem, t.providerReference, t.triggerEventId,
      at'⟩ = resolved t) : (registry db).map column = (p3Resolved db).map resolved := by
  rw [← map_fst_registry_join, registry, insertRegistry, List.map_map, List.map_map]
  exact List.map_congr_left fun ⟨t, k⟩ _ => h t k.firstCreatedAt

theorem registry_unique : ((registry db).map PaymentAttemptRow.paymentAttemptId).Nodup := by
  rw [map_registry P3Resolved.attemptKey fun _ _ => rfl]
  exact nodup_p3Resolved

/-- A registered attempt is resolved by its trigger event. -/
theorem registry_spec (h : Preflighted db) {r : PaymentAttemptRow} (hr : r ∈ registry db) :
    r.paymentAttemptId ∈ attemptKeys db ∧ r.registeredAt.isSome = true ∧
      ∃ e, Resolves db.events r.paymentAttemptId e ∧ r.sourceSystem = e.sourceSystem ∧
        r.providerReference = e.paymentId ∧ r.triggerEventId = e.eventId := by
  obtain ⟨t, ht, k, hk, -, rfl⟩ := mem_registry.mp hr
  obtain ⟨e, he, hkey, htrigger, hfirst, heq⟩ := mem_p3Resolved ht
  have hcandidate : ∀ e' ∈ db.events, IsTrigger t.attemptKey e' →
      candidateOf t.attemptKey e' ∈ p3Candidates db := fun e' he' htrigger' =>
    mem_p3Candidates.mpr ⟨t.attemptKey, hkey, e', he', htrigger', rfl⟩
  refine ⟨hkey, firstCreatedAt_isSome hk, e, ⟨he, htrigger, hfirst, fun e' he' htrigger' => ?_⟩,
    ?_, ?_, ?_⟩
  · exact h.oneProvider _ (hcandidate e' he' htrigger') _ (hcandidate e he htrigger) rfl
  · rw [heq]
  · rw [heq]
  · rw [heq]

/-- Every key is registered. -/
theorem exists_registered (h : Preflighted db) (hkey : key ∈ attemptKeys db) :
    ∃ r ∈ registry db, r.paymentAttemptId = key := by
  obtain ⟨t, ht, rfl⟩ := h.triggered key hkey
  obtain ⟨t', ht', hsame⟩ := exists_mem_distinctOn P3Candidate.attemptKey
    P3Candidate.order ht
  obtain ⟨k, hk, hk'⟩ := List.mem_map.mp (mem_p3Keys_map.mpr hkey)
  exact ⟨_, mem_registry.mpr ⟨_, List.mem_map_of_mem ht', k, hk, hsame.trans hk'.symm, rfl⟩,
    hsame⟩

/-- A key of the keyed tables fits the column of the registry. -/
theorem attemptKey_fits (hschema : LegacySchema db) (hkey : key ∈ attemptKeys db) :
    key.toList.length ≤ 255 := by
  rcases mem_attemptKeys.mp hkey with ⟨r, hr, rfl⟩ | ⟨r, hr, rfl⟩ | ⟨r, hr, rfl⟩ |
    ⟨r, hr, rfl⟩ | ⟨r, hr, rfl⟩
  · exact hschema.prediction_key r hr
  · exact hschema.decision_key r hr
  · exact hschema.command_key r hr
  · exact hschema.observation_key r hr
  · exact hschema.attribution_key r hr

theorem registry_supported (h : Preflighted db) {r : PaymentAttemptRow} (hr : r ∈ registry db) :
    r.sourceSystem ∈ supportedSources := by
  obtain ⟨hkey, -, e, hresolves, hsource, -, -⟩ := registry_spec h hr
  rw [hsource]
  exact h.supported (candidateOf r.paymentAttemptId e)
    (mem_p3Candidates.mpr ⟨_, hkey, e, hresolves.mem, hresolves.trigger, rfl⟩)

/-- PF-02 and the triggers imply the namespace check of the registry. -/
theorem registry_namespaceCheck (h : Preflighted db) {r : PaymentAttemptRow}
    (hr : r ∈ registry db) : r.namespaceCheck = true := by
  obtain ⟨hkey, -, e, hresolves, hsource, hreference, -⟩ := registry_spec h hr
  rw [PaymentAttemptRow.namespaceCheck, hsource, hreference]
  rcases hresolves.trigger with ⟨hpaypal, -, heq⟩ | ⟨hother, -, hnamespace, heq⟩
  · have hwell := h.wellFormed _ hkey (by rw [heq, inPaypalNamespace_paypal])
    rw [heq, substrFrom_paypal] at hwell
    rw [if_pos hpaypal, hwell, heq]
    simp
  · have hne := h.nonempty _ hkey
    have hleft : leftChars r.paymentAttemptId 13 ≠ "paypal-order:" := by
      simpa [inPaypalNamespace] using hnamespace
    rw [heq] at hne hleft
    rw [if_neg hother, heq]
    simp [hne, hleft]

/-- No constraint of the registry refuses the insert. -/
theorem registryConstraints_pass (hschema : LegacySchema db) (h : Preflighted db) :
    ∀ c ∈ registryConstraints db.events (registry db), c.passes = true := by
  have hunique : Unique (fun r : PaymentAttemptRow => some r.paymentAttemptId) (registry db) :=
    unique_some.mpr registry_unique
  simp only [registryConstraints, List.forall_mem_cons, constraint_passes]
  refine ⟨fun r hr => ?_, fun r hr => ?_, fun r hr => ?_, fun r hr => ?_, hunique, ?_, ?_,
    fun r hr => registry_supported h hr, fun r hr => registry_namespaceCheck h hr, ?_,
    List.forall_mem_nil _⟩
  · exact attemptKey_fits hschema (registry_spec h hr).1
  · obtain ⟨-, -, e, hresolves, hsource, -, -⟩ := registry_spec h hr
    rw [hsource]
    exact hschema.event_source_system e hresolves.mem
  · obtain ⟨-, -, e, hresolves, -, hreference, -⟩ := registry_spec h hr
    rw [hreference]
    exact hschema.event_payment_id e hresolves.mem
  · exact (registry_spec h hr).2.1
  · exact hunique.refine Prod.fst fun r _ k hk => by rw [← Option.some.inj hk]
  · rw [unique_some, map_registry (fun t => (t.sourceSystem, t.providerReference))
      fun _ _ => rfl]
    exact h.uniqueReference
  · refine references_iff.mpr fun r hr k hk => ?_
    obtain ⟨-, -, e, hresolves, hsource, -, htrigger⟩ := registry_spec h hr
    exact ⟨e, hresolves.mem, by rw [← hk, hsource, htrigger]⟩

/-- PF-18 finds nothing. -/
theorem pf18_passes (h : Preflighted db) : (pf18 (p3Keys db) (registry db)).query = [] := by
  rw [pf18, List.map_eq_nil_iff, List.filter_eq_nil_iff]
  intro k hk
  obtain ⟨r, hr, hkey⟩ := exists_registered h (mem_p3Keys_map.mp (List.mem_map_of_mem hk))
  simpa using ⟨r, hr, hkey⟩

/-- A registry that has one row for each key, resolved by its trigger event. -/
structure Faithful (db : LegacyTables ρ) (attempts : List PaymentAttemptRow) : Prop where
  unique : (attempts.map PaymentAttemptRow.paymentAttemptId).Nodup
  complete : ∀ key ∈ attemptKeys db, ∃ r ∈ attempts, r.paymentAttemptId = key
  resolves : ∀ r ∈ attempts, ∃ e, Resolves db.events r.paymentAttemptId e ∧
    r.sourceSystem = e.sourceSystem ∧ r.providerReference = e.paymentId ∧
    r.triggerEventId = e.eventId
  checked : ∀ r ∈ attempts, r.sourceSystem ∈ supportedSources ∧ r.namespaceCheck = true

theorem faithful_registry (h : Preflighted db) : Faithful db (registry db) where
  unique := registry_unique
  complete := fun _ hkey => exists_registered h hkey
  resolves := fun _ hr => (registry_spec h hr).2.2
  checked := fun _ hr => ⟨registry_supported h hr, registry_namespaceCheck h hr⟩

end RevenueRecovery.Migration
