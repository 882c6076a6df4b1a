import RevenueRecovery.Webhooks.Deliveries
import RevenueRecovery.Verification.Tokens

/-!
# What the gateway stores and answers

An event is stored only when its request was genuine: a Razorpay signature of the configured
secret, or PayPal's answer about the very bytes of the request. A request that is answered
with success has its delivery in the store, and any other answer has stored nothing.

## Main definitions
* `Entitled` : why a delivery was let in.
* `RequestOk`, `Gateway.Sound` : the invariant.
* `Genuine` : why an event is stored.
-/
namespace RevenueRecovery

open Tasks Transaction

/-! ## Calls to PayPal -/

/-- The arguments of a call. -/
def VerifyTask.call : VerifyTask → VerifyCall
  | .called call | .waiting call _ | .cancelling call | .fetching call _ _ | .verifying call _ _
  | .done call _ | .cancelled call => call

/-- Calls keep their arguments, and their results once they have them. -/
def ClientMoves (client client' : ClientWorld) : Prop :=
  ∀ (i : ℕ) (t : VerifyTask), client.tasks[i]? = some t →
    ∃ t' : VerifyTask, client'.tasks[i]? = some t' ∧ t'.call = t.call ∧
      ∀ call result, t = .done call result → t' = t

theorem ClientStepped.call {config : PayPalConfig} {lower : String → String} {depth i : ℕ}
    {client client' : PayPalClient} {task task' : VerifyTask}
    (h : ClientStepped config lower depth i client task client' task') :
    task'.call = task.call ∧ ∀ call result, task ≠ .done call result := by
  cases h with
  | refused hprepare => exact ⟨rfl, nofun⟩
  | cancelled htask => rcases htask with rfl | ⟨content, token, rfl⟩ <;> exact ⟨rfl, nofun⟩
  | queued hprepare => exact ⟨rfl, nofun⟩
  | cancelledWaiting => exact ⟨rfl, nofun⟩
  | left htask => rcases htask with ⟨content, rfl⟩ | rfl <;> exact ⟨rfl, nofun⟩
  | sent hasks htoken => rcases hasks with ⟨rfl, -⟩ | ⟨rfl, -⟩ <;> exact ⟨rfl, nofun⟩
  | requested hasks htoken hfree =>
      rcases hasks with ⟨rfl, -⟩ | ⟨rfl, -⟩ <;> exact ⟨rfl, nofun⟩
  | abandoned htask' => rcases htask' with ⟨e, rfl⟩ | rfl <;> exact ⟨rfl, nofun⟩
  | granted hgrant => exact ⟨rfl, nofun⟩
  | answered => exact ⟨rfl, nofun⟩

theorem clientMoves_spawn (client : ClientWorld) (t : VerifyTask) :
    ClientMoves client { client with tasks := client.tasks ++ [t] } := by
  intro i u hu
  have hlt : i < client.tasks.length := (List.getElem?_eq_some_iff.mp hu).1
  exact ⟨u, by rw [List.getElem?_append_left hlt, hu], rfl, fun _ _ _ => rfl⟩

theorem clientMoves_resume {config : PayPalConfig} {lower : String → String} {depth i : ℕ}
    {client client' : ClientWorld} {input : ClientInput}
    (h : (config.system lower depth).worldStep client (.resume i input) = some client') :
    ClientMoves client client' ∧ client'.tasks.length = client.tasks.length := by
  obtain ⟨t, ht, hnext⟩ := Option.bind_eq_some_iff.mp h
  obtain ⟨⟨s, t'⟩, hstep, rfl⟩ := Option.map_eq_some_iff.mp hnext
  obtain ⟨hcall, hlive⟩ := (clientStepped hstep).call
  refine ⟨fun j u hu => ?_, List.length_set⟩
  by_cases hij : i = j
  · subst hij
    obtain rfl : t = u := Option.some.inj (ht.symm.trans hu)
    have hlt : i < client.tasks.length := (List.getElem?_eq_some_iff.mp hu).1
    exact ⟨t', by simp [hlt], hcall, fun call result hdone => absurd hdone (hlive call result)⟩
  · exact ⟨u, by simp [List.getElem?_set_ne hij, hu], rfl, fun _ _ _ => rfl⟩

/-! ## The invariant -/

/-- The route has let the delivery in: Razorpay is configured, or a call of
`verify_webhook_signature` about the same bytes has succeeded. -/
def Entitled (host : Host) (client : ClientWorld) : Delivery ByteArray → Prop
  | .razorpay .. => host.getRazorpayWebhookSecret.isSome = true
  | .paypal body => ∃ (task : ℕ) (call : VerifyCall),
      client.tasks[task]? = some (.done call (.ok true)) ∧ call.rawBody = body

theorem Entitled.mono {host : Host} {client client' : ClientWorld} {d : Delivery ByteArray}
    (h : Entitled host client d) (hmoves : ClientMoves client client') :
    Entitled host client' d := by
  cases d with
  | razorpay body signature eventId => exact h
  | paypal body =>
      obtain ⟨task, call, htask, hbody⟩ := h
      obtain ⟨t, ht, -, hdone⟩ := hmoves task _ htask
      exact ⟨task, call, hdone call _ rfl ▸ ht, hbody⟩

/-- The session of a delivery, which it accounts for. -/
def HasSession (host : Host) (ingestion : IngestionWorld ByteArray Json) (d : Delivery ByteArray)
    (k : ℕ) (P : DeliveryProc ByteArray Json → Prop) : Prop :=
  ∃ s, ingestion.sessions[k]? = some s ∧ Account host.library ingestion.db d s ∧ P s.proc

/-- What holds of a request. -/
def RequestOk (host : Host) (client : ClientWorld) (ingestion : IngestionWorld ByteArray Json) :
    WebhookRequest → Prop
  | .verifying call task => ∃ t : VerifyTask, client.tasks[task]? = some t ∧ t.call = call
  | .ingesting d k => HasSession host ingestion d k fun _ => True
  | .responded response none => response.statusCode ≠ 200
  | .responded response (some (d, k)) =>
      HasSession host ingestion d k fun p => ∃ newId, responseOf d newId p = some response

/-- Every session has a delivery that was let in, and every event a session that stored it. -/
structure DeliveriesOk (host : Host) (client : ClientWorld)
    (ingestion : IngestionWorld ByteArray Json) : Prop where
  sessions : ∀ s ∈ ingestion.sessions, ∃ d, Entitled host client d ∧
    Account host.library ingestion.db d s
  events : ∀ e ∈ ingestion.db.events, ∃ (k : ℕ) (d : Delivery ByteArray)
    (record : RawIngestionRecord Json), (ingestion.sessions[k]?).map (·.proc) = some (.stored d record e)

structure Gateway.Sound (host : Host) (w : Gateway) : Prop where
  client : ∀ config, host.createPaypalClient = some config →
    System.Holds PayPalClient.Consistent (VerifyTask.Knows config host.lower host.depth) w.client
  configured : host.createPaypalClient = none → w.client.tasks = []
  limited : ∀ t ∈ w.client.tasks, t.call.rawBody.size ≤ maxPaypalWebhookBodyBytes
  deliveries : DeliveriesOk host w.client w.ingestion
  requests : ∀ r ∈ w.requests, RequestOk host w.client w.ingestion r

section Ingestion
variable {host : Host} {client client' : ClientWorld}
  {ingestion ingestion' : IngestionWorld ByteArray Json} {a : IngestionAction ByteArray}
  {d : Delivery ByteArray} {k : ℕ} {r : WebhookRequest}

/-- A delivery that has ended stays as it is. -/
theorem ended_stays {s : IngestionSession ByteArray Json}
    (ha : (ingestionProgram host.library).worldStep ingestion a = some ingestion')
    (hs : ingestion.sessions[k]? = some s) (hended : s.proc.ended = true) :
    ∃ s', ingestion'.sessions[k]? = some s' ∧ s'.proc = s.proc := by
  obtain ⟨s', hs', hnext⟩ := Program.session_step ha hs
  refine ⟨s', hs', ?_⟩
  obtain ⟨p, pending, locks, views⟩ := s
  rcases hnext with hsame | herror | ⟨input, o, ho, -⟩
  · exact hsame
  · rw [herror]
    cases p <;> first | rfl | cases hended
  · cases p <;> first | (cases hended; done) | cases ho

theorem ended_of_responseOf {p : DeliveryProc ByteArray Json} {newId : ℕ}
    {response : WebhookResponse} (h : responseOf d newId p = some response) : p.ended = true := by
  cases p <;> first | rfl | cases h

theorem DeliveriesOk.accounts (h : DeliveriesOk host client ingestion) :
    ∀ s ∈ ingestion.sessions, ∃ d, Account host.library ingestion.db d s := by
  intro s hs
  obtain ⟨d, -, hd⟩ := h.sessions s hs
  exact ⟨d, hd⟩

/-- Requests keep what holds of them while deliveries go on. -/
theorem RequestOk.ingest (h : RequestOk host client ingestion r)
    (hold : DeliveriesOk host client ingestion)
    (ha : (ingestionProgram host.library).worldStep ingestion a = some ingestion') :
    RequestOk host client ingestion' r := by
  cases r with
  | verifying call task => exact h
  | ingesting d k =>
      obtain ⟨s, hs, hd, -⟩ := h
      obtain ⟨s', hs', hd'⟩ := hd.worldStep ha hold.accounts hs
      exact ⟨s', hs', hd', trivial⟩
  | responded response delivery =>
      cases delivery with
      | none => exact h
      | some dk =>
          obtain ⟨d, k⟩ := dk
          obtain ⟨s, hs, hd, newId, hresponse⟩ := h
          obtain ⟨s', hs', hd'⟩ := hd.worldStep ha hold.accounts hs
          obtain ⟨s'', hs'', hproc⟩ := ended_stays ha hs (ended_of_responseOf hresponse)
          obtain rfl : s' = s'' := Option.some.inj (hs'.symm.trans hs'')
          exact ⟨s', hs', hd', newId, hproc ▸ hresponse⟩

theorem RequestOk.moves (h : RequestOk host client ingestion r)
    (hmoves : ClientMoves client client') : RequestOk host client' ingestion r := by
  cases r with
  | verifying call task =>
      obtain ⟨t, ht, hcall⟩ := h
      obtain ⟨t', ht', hcall', -⟩ := hmoves task t ht
      exact ⟨t', ht', hcall'.trans hcall⟩
  | ingesting d k => exact h
  | responded response delivery =>
      cases delivery with
      | none => exact h
      | some dk => exact h

theorem DeliveriesOk.moves (h : DeliveriesOk host client ingestion)
    (hmoves : ClientMoves client client') : DeliveriesOk host client' ingestion where
  sessions s hs := by
    obtain ⟨d, hentitled, hd⟩ := h.sessions s hs
    exact ⟨d, hentitled.mono hmoves, hd⟩
  events := h.events

/-- Deliveries that go on keep it; an arriving one has to be let in. -/
theorem DeliveriesOk.step (h : DeliveriesOk host client ingestion)
    (ha : (ingestionProgram host.library).worldStep ingestion a = some ingestion')
    (harrive : ∀ d, a = .arrive d → Entitled host client d) :
    DeliveriesOk host client ingestion' where
  sessions s' hs' := by
    obtain ⟨k, hk⟩ := List.mem_iff_getElem?.mp hs'
    rcases Nat.lt_or_ge k ingestion.sessions.length with hlt | hge
    · obtain ⟨d, hentitled, hd⟩ := h.sessions _ (List.getElem_mem hlt)
      obtain ⟨t, ht, hd'⟩ := hd.worldStep ha h.accounts (List.getElem?_eq_getElem hlt)
      obtain rfl : s' = t := Option.some.inj (hk.symm.trans ht)
      exact ⟨d, hentitled, hd'⟩
    · cases Program.stepped ha with
      | @arrived d ws ps harr =>
          cases harr
          rw [List.getElem?_append_right hge] at hk
          obtain rfl := List.mem_singleton.mp (List.mem_of_getElem? hk)
          exact ⟨d, harrive d rfl, .fresh rfl rfl⟩
      | _ => simp [hge] at hk
  events e he := by
    have hrun : Run.exec (ingestionProgram host.library).worldStep ingestion [a] =
        some ingestion' := by simp [ha]
    have hkeep : ∀ e ∈ ingestion.db.events, ∃ (k : ℕ) (d : Delivery ByteArray)
        (record : RawIngestionRecord Json), (ingestion'.sessions[k]?).map (·.proc) = some (.stored d record e) := by
      intro e he
      obtain ⟨k, d, record, hstored⟩ := h.events e he
      exact ⟨k, d, record, stored_exec hstored hrun⟩
    have hset : ∀ {i : ℕ} {t' : IngestionSession ByteArray Json},
        ingestion' = ingestion.setSession i t' → ∃ (k : ℕ) (d : Delivery ByteArray)
          (record : RawIngestionRecord Json), (ingestion'.sessions[k]?).map (·.proc) = some (.stored d record e) := by
      rintro i t' rfl
      exact hkeep e he
    cases Program.stepped ha with
    | arrived harr =>
        cases harr
        exact hkeep e he
    | looked => exact hset rfl
    | aborted => exact hset rfl
    | locked => exact hset rfl
    | wrote => exact hset rfl
    | raised => exact hset rfl
    | called => exact hkeep e he
    | rolledBack => exact hset rfl
    | @committed i input s next hs hp =>
        obtain ⟨d, hd⟩ := h.accounts s (List.mem_of_getElem? hs)
        obtain ⟨record, event, hproc, rfl, -, -, hevents⟩ := hd.committed hp
        rw [show (_ : IngestionWorld ByteArray Json).db.events = _ from hevents] at he
        rcases List.mem_append.mp he with he | he
        · exact hkeep e he
        · obtain rfl := List.mem_singleton.mp he
          exact ⟨i, d, record, by simp [(List.getElem?_eq_some_iff.mp hs).1]⟩

/-- A delivery that has just come in has the last session. -/
theorem HasSession.arrived
    (ha : (ingestionProgram host.library).worldStep ingestion (.arrive d) = some ingestion') :
    HasSession host ingestion' d ingestion.sessions.length fun _ => True := by
  cases Program.stepped ha with
  | arrived harr =>
      cases harr
      exact ⟨.fresh (.received d), by simp, .fresh rfl rfl, trivial⟩

end Ingestion

/-! ## Steps of the gateway -/

section Steps
variable {host : Host} {w w' : Gateway} {a : GatewayAction}

theorem forall_mem_snoc {α : Type} {P : α → Prop} {xs : List α} {x : α} (h : ∀ y ∈ xs, P y)
    (hx : P x) : ∀ y ∈ xs ++ [x], P y := by
  intro y hy
  rcases List.mem_append.mp hy with hy | hy
  · exact h y hy
  · exact List.mem_singleton.mp hy ▸ hx

theorem forall_mem_set {α : Type} {P : α → Prop} {xs : List α} {i : ℕ} {x : α}
    (h : ∀ y ∈ xs, P y) (hx : P x) : ∀ y ∈ xs.set i x, P y := by
  intro y hy
  rcases List.mem_or_eq_of_mem_set hy with hy | rfl
  · exact h y hy
  · exact hx

theorem size_foldl_append (body : ByteArray) (chunks : List ByteArray) :
    body.size ≤ (chunks.foldl (· ++ ·) body).size := by
  induction chunks generalizing body with
  | nil => exact Nat.le_refl _
  | cons chunk chunks ih =>
      have happend : body.size ≤ (body ++ chunk).size := by rw [ByteArray.size_append]; omega
      exact Nat.le_trans happend (ih (body ++ chunk))

/-- The chunks of a body are read as a whole, if that is within the limit. -/
theorem readChunks_eq_some {limit : ℕ} {body all : ByteArray} {chunks : List ByteArray}
    (hbody : body.size ≤ limit) : readChunks limit body chunks = some all ↔
      all = chunks.foldl (· ++ ·) body ∧ all.size ≤ limit := by
  induction chunks generalizing body with
  | nil =>
      rw [readChunks, List.foldl_nil, Option.some_inj]
      exact ⟨fun h => ⟨h.symm, h ▸ hbody⟩, fun h => h.1.symm⟩
  | cons chunk chunks ih =>
      rw [readChunks, List.foldl_cons]
      by_cases hlimit : limit < (body ++ chunk).size
      · rw [if_pos hlimit]
        refine ⟨nofun, ?_⟩
        rintro ⟨rfl, hall⟩
        have hsize := size_foldl_append (body ++ chunk) chunks
        omega
      · rw [if_neg hlimit]
        exact ih (Nat.le_of_not_lt hlimit)

theorem checkContentLength_eq_ok {contentLength : Option String} {limit : ℕ} :
    checkContentLength contentLength limit = .ok () ↔
      ∀ declared, contentLength = some declared → ∃ n, pyInt declared = some n ∧ n ≤ limit := by
  unfold checkContentLength
  cases contentLength with
  | none => simp
  | some declared =>
      cases hdeclared : pyInt declared with
      | none => simp [hdeclared]
      | some n =>
          by_cases hn : (limit : ℤ) < n
          · simp [hdeclared, hn]
          · simp [hdeclared, hn, not_lt.mp hn]

/-- A body is read whatever its chunks are, if neither it nor its declared length exceeds the
limit. -/
theorem readLimitedBody_eq_ok {contentLength : Option String} {chunks : List ByteArray}
    {limit : ℕ} {body : ByteArray} : readLimitedBody contentLength chunks limit = .ok body ↔
      (∀ declared, contentLength = some declared → ∃ n, pyInt declared = some n ∧ n ≤ limit) ∧
      body = chunks.foldl (· ++ ·) .empty ∧ body.size ≤ limit := by
  rw [← readChunks_eq_some (Nat.zero_le limit), ← checkContentLength_eq_ok]
  unfold readLimitedBody
  cases checkContentLength contentLength limit with
  | error response => simp [Except.bind]
  | ok u => cases readChunks limit .empty chunks <;> simp [Except.bind]

theorem readLimitedBody_error {contentLength : Option String} {chunks : List ByteArray}
    {limit : ℕ} {response : WebhookResponse}
    (h : readLimitedBody contentLength chunks limit = .error response) :
    response.statusCode ≠ 200 := by
  unfold readLimitedBody at h
  cases hlength : checkContentLength contentLength limit with
  | error response' =>
      rw [hlength] at h
      obtain rfl : response' = response := Except.error.inj h
      unfold checkContentLength at hlength
      split at hlength
      · cases hlength
      · split at hlength
        · exact Except.error.inj hlength ▸ by decide
        · split at hlength
          · exact Except.error.inj hlength ▸ by decide
          · cases hlength
  | ok u =>
      rw [hlength] at h
      cases hread : readChunks limit .empty chunks with
      | none =>
          rw [hread] at h
          exact Except.error.inj h ▸ by decide
      | some body =>
          rw [hread] at h
          cases h

theorem refusalOfIngestion_ne (e : Option IngestionError) :
    (refusalOfIngestion e).statusCode ≠ 200 := by
  cases e with
  | none => decide
  | some e => cases e <;> decide

theorem refusalOfVerification_ne (e : VerificationError) :
    (refusalOfVerification e).statusCode ≠ 200 := by
  cases e with
  | ingestion e => exact refusalOfIngestion_ne (some e)
  | _ => simp [refusalOfVerification]

theorem Gateway.Sound.refuse (h : w.Sound host) {response : WebhookResponse}
    (hresponse : response.statusCode ≠ 200) : (w.refuse response).Sound host :=
  { h with requests := forall_mem_snoc h.requests hresponse }

theorem Gateway.Sound.store (h : w.Sound host) (session : ℕ) (e : PaymentEvent) :
    (w.store session e).Sound host := ⟨h.client, h.configured, h.limited, h.deliveries, h.requests⟩

/-- Deliveries go on. -/
theorem Gateway.Sound.ingest (h : w.Sound host) {a : IngestionAction ByteArray}
    {ingestion : IngestionWorld ByteArray Json}
    (ha : (ingestionProgram host.library).worldStep w.ingestion a = some ingestion)
    (harrive : ∀ d, a = .arrive d → Entitled host w.client d) :
    ({ w with ingestion := ingestion } : Gateway).Sound host :=
  { h with
    deliveries := h.deliveries.step ha harrive
    requests := fun r hr => (h.requests r hr).ingest h.deliveries ha }

/-- The calls to PayPal go on. -/
theorem Gateway.Sound.call (h : w.Sound host) {config : PayPalConfig} {client : ClientWorld}
    {a : Tasks.Action VerifyCall ClientInput} (hconfig : host.createPaypalClient = some config)
    (ha : (config.system host.lower host.depth).worldStep w.client a = some client)
    (hmoves : ClientMoves w.client client)
    (hlimited : ∀ t ∈ client.tasks, t.call.rawBody.size ≤ maxPaypalWebhookBodyBytes) :
    ({ w with client := client } : Gateway).Sound host where
  client config' hconfig' := by
    obtain rfl : config = config' := Option.some.inj (hconfig.symm.trans hconfig')
    exact client_relies.worldStep (h.client config hconfig) ha
  configured hnone := absurd (hconfig.symm.trans hnone) nofun
  limited := hlimited
  deliveries := h.deliveries.moves hmoves
  requests r hr := (h.requests r hr).moves hmoves

theorem Gateway.Sound.step (h : w.Sound host) (ha : host.gatewayStep w a = some w') :
    w'.Sound host := by
  cases a with
  | razorpay body signature eventId =>
      dsimp only [Host.gatewayStep] at ha
      split at ha
      · exact Option.some.inj ha ▸ h.refuse (by decide)
      rename_i hsecret
      split at ha
      · exact Option.some.inj ha ▸ h.refuse (by decide)
      obtain ⟨ingestion, hnew, rfl⟩ := Option.map_eq_some_iff.mp ha
      have hentitled : host.getRazorpayWebhookSecret.isSome = true := by
        simpa [Option.isSome_iff_ne_none] using hsecret
      have hingest := h.ingest hnew fun d hd => by
        cases hd
        exact hentitled
      exact { hingest with requests := forall_mem_snoc hingest.requests (HasSession.arrived hnew) }
  | paypal headers contentLength chunks =>
      dsimp only [Host.gatewayStep] at ha
      cases hconfig : host.createPaypalClient with
      | none =>
          rw [hconfig] at ha
          exact Option.some.inj ha ▸ h.refuse (by decide)
      | some config =>
          simp only [hconfig] at ha
          cases hbody : readLimitedBody contentLength chunks maxPaypalWebhookBodyBytes with
          | error response =>
              rw [hbody] at ha
              exact Option.some.inj ha ▸ h.refuse (readLimitedBody_error hbody)
          | ok rawBody =>
              simp only [hbody] at ha
              obtain ⟨client, hspawn, rfl⟩ := Option.map_eq_some_iff.mp ha
              obtain rfl := Option.some.inj hspawn
              have hlimited := forall_mem_snoc h.limited
                (x := VerifyTask.called ⟨headers, rawBody⟩) (readLimitedBody_eq_ok.mp hbody).2.2
              have hcall := h.call hconfig hspawn (clientMoves_spawn w.client _) hlimited
              refine { hcall with requests := forall_mem_snoc hcall.requests ?_ }
              exact ⟨.called ⟨headers, rawBody⟩, by simp [PayPalConfig.system], rfl⟩
  | verify task input =>
      obtain ⟨config, hconfig, hnext⟩ := Option.bind_eq_some_iff.mp ha
      obtain ⟨client, hclient, hw⟩ := Option.bind_eq_some_iff.mp hnext
      obtain rfl := Option.some.inj hw
      obtain ⟨hmoves, hlength⟩ := clientMoves_resume hclient
      refine h.call hconfig hclient hmoves fun t ht => ?_
      obtain ⟨i, hi⟩ := List.mem_iff_getElem?.mp ht
      have hlt : i < w.client.tasks.length := hlength ▸ (List.getElem?_eq_some_iff.mp hi).1
      obtain ⟨t', ht', hcall, -⟩ := hmoves i _ (List.getElem?_eq_getElem hlt)
      obtain rfl : t = t' := Option.some.inj (hi.symm.trans ht')
      exact hcall ▸ h.limited _ (List.getElem_mem hlt)
  | verified j =>
      dsimp only [Host.gatewayStep] at ha
      split at ha
      · rename_i call task hj
        obtain ⟨t, ht, hcall⟩ := h.requests _ (List.mem_of_getElem? hj)
        split at ha
        · obtain rfl := Option.some.inj ha
          exact { h with requests := forall_mem_set h.requests (refusalOfVerification_ne _) }
        · obtain rfl := Option.some.inj ha
          exact { h with requests := forall_mem_set h.requests (refusalOfIngestion_ne _) }
        · rename_i call' hdone
          obtain ⟨ingestion, hnew, rfl⟩ := Option.map_eq_some_iff.mp ha
          obtain rfl : t = .done call' (.ok true) := Option.some.inj (ht.symm.trans hdone)
          have hingest := h.ingest hnew fun d hd => by
            cases hd
            exact ⟨task, call', ht, congrArg VerifyCall.rawBody hcall⟩
          exact { hingest with
            requests := forall_mem_set hingest.requests (HasSession.arrived hnew) }
        · cases ha
      · cases ha
  | deliver a =>
      cases a with
      | arrive d => cases ha
      | look k =>
          obtain ⟨ingestion, hlook, rfl⟩ := Option.map_eq_some_iff.mp ha
          exact h.ingest hlook fun _ heq => by cases heq
      | abort k =>
          obtain ⟨ingestion, habort, rfl⟩ := Option.map_eq_some_iff.mp ha
          exact h.ingest habort fun _ heq => by cases heq
      | advance k input =>
          obtain ⟨ingestion, hadvance, rfl⟩ := Option.map_eq_some_iff.mp ha
          have hingest := h.ingest hadvance fun _ heq => by cases heq
          dsimp only
          split
          · exact hingest.store _ _
          · exact hingest
  | respond j newId =>
      dsimp only [Host.gatewayStep] at ha
      split at ha
      · rename_i d k hj
        obtain ⟨s, hs, hd, -⟩ := h.requests _ (List.mem_of_getElem? hj)
        simp only [hs, Option.bind_eq_bind, Option.bind_some] at ha
        obtain ⟨response, hresponse, hw⟩ := Option.bind_eq_some_iff.mp ha
        obtain rfl := Option.some.inj hw
        exact { h with
          requests := forall_mem_set h.requests ⟨s, hs, hd, newId, hresponse⟩ }
      · cases ha
  | pipeline a =>
      dsimp only [Host.gatewayStep] at ha
      split at ha
      · obtain ⟨live, -, rfl⟩ := Option.map_eq_some_iff.mp ha
        exact { h with }
      · cases ha

/-- The invariant of every run. -/
theorem gatewayRun_sound {as : List GatewayAction} (h : host.gatewayRun as = some w) :
    w.Sound host := by
  refine Run.invariant_exec (fun _ _ _ hu ha => Gateway.Sound.step hu ha) ?_ h
  exact
    { client := fun config _ => ⟨⟨rfl, rfl, .nil⟩, fun i => show none ≠ some i from nofun⟩
      configured := fun _ => rfl
      limited := by simp
      deliveries := ⟨by simp, by simp⟩
      requests := by simp }

end Steps

/-! ## Genuine requests -/

/-- Why a raw record and its event are stored: the signature of the configured secret, or the
answer of PayPal about the body that was received. -/
inductive Genuine (host : Host) (traffic : List Traffic) (record : RawIngestionRecord Json)
    (event : PaymentEvent) : Prop
  | razorpay {secret body signature sourceEventId parsed eventId ingestedAt}
      (hsecret : host.getRazorpayWebhookSecret = some secret)
      (hsignature : signature = host.parts.hmacSha256Hex secret body)
      (hpayload : host.parts.loads body = .ok record.rawPayload)
      (hparsed : parseRazorpayEvent host.parts body = .ok parsed)
      (hevent : normalizeRazorpayEvent host.parts.toPythonLibrary parsed sourceEventId eventId
        ingestedAt = .ok event) : Genuine host traffic record event
  | paypal {config call content front i token response answer parsed eventId ingestedAt}
      (hconfig : host.createPaypalClient = some config)
      (hrequest : config.prepare host.lower host.depth call = .ok content)
      (hcontent : content =
        front ++ ",\"webhook_event\":".toUTF8 ++ call.rawBody ++ "\x7d".toUTF8)
      (hanswered : Traffic.verificationAnswered i token content (.ok response) ∈ traffic)
      (hstatus : response.statusCode = 200) (hanswer : response.json = some answer)
      (hsuccess : answer.get? "verification_status" = some (.str (.text "SUCCESS")))
      (hlimit : call.rawBody.size ≤ maxPaypalWebhookBodyBytes)
      (hpayload : host.parts.loadsStandard call.rawBody = .ok record.rawPayload)
      (hparsed : parsePaypalEvent host.parts.urlparse record.rawPayload = .ok parsed)
      (hevent : normalizePaypalEvent host.parts.toPythonLibrary parsed eventId ingestedAt =
        .ok event) : Genuine host traffic record event

namespace GatewayExample

open RedeliveryExample

/-- Both providers are configured. -/
def host : Host where
  env name := [("RAZORPAY_WEBHOOK_SECRET", "whsec"), ("PAYPAL_CLIENT_ID", "client-1"),
    ("PAYPAL_CLIENT_SECRET", "secret"), ("PAYPAL_WEBHOOK_ID", "W-1")].lookup name
  lower s := String.ofList (s.toList.map Char.toLower)
  depth := 8
  parts := webhookParts String.fromUTF8?
  policy := getDefaultPolicy

def success : HttpResponse where
  statusCode := 200
  json := some (.obj [(.text "verification_status", .str (.text "SUCCESS"))])

/-- A Razorpay webhook comes twice at once, and once unsigned; one of PayPal is verified. -/
def actions : List GatewayAction :=
  [.razorpay razorpayBody.toUTF8 (some razorpaySignature) (some "evt_1"),
    .razorpay razorpayBody.toUTF8 (some razorpaySignature) (some "evt_1"),
    .razorpay razorpayBody.toUTF8 none (some "evt_2"),
    .paypal VerificationExample.headers (some "294") [paypalBody.toUTF8],
    .deliver (.advance 0 { recordId := 1, eventId := 1 }), .deliver (.advance 0 {}),
    .deliver (.advance 0 {}), .deliver (.advance 1 { recordId := 2, eventId := 2 }),
    .deliver (.advance 2 {}), .verify 0 {},
    .verify 0 { response := .ok ClientExample.tokenResponse },
    .verify 0 { response := .ok success }, .verified 3,
    .deliver (.advance 3 { recordId := 3, eventId := 3 }), .deliver (.advance 3 {}),
    .deliver (.advance 3 {}), .respond 0 0, .respond 1 7, .respond 2 0, .respond 3 0]

/-- One event of each provider is stored, and the pipeline is scheduled for both. -/
theorem exists_run : ∃ w e e', host.gatewayRun actions = some w ∧
    w.ingestion.db.events = [e, e'] ∧ e.sourceSystem = razorpaySourceSystem ∧
    e'.sourceSystem = paypalSourceSystem ∧ w.requests.length = 4 ∧ w.scheduled = [0, 3] := by
  have h : (host.gatewayRun actions).map (fun w =>
      (w.ingestion.db.events.map (·.sourceSystem), w.requests.length, w.scheduled)) =
        some ([razorpaySourceSystem, paypalSourceSystem], 4, [0, 3]) := by decide +kernel
  obtain ⟨w, hw, hfacts⟩ := Option.map_eq_some_iff.mp h
  obtain ⟨hevents, hrest⟩ := Prod.mk.inj hfacts
  obtain ⟨hrequests, hscheduled⟩ := Prod.mk.inj hrest
  obtain ⟨e, rest, he, hsource, hrest⟩ := List.map_eq_cons_iff.mp hevents
  obtain ⟨e', hrest', hsource'⟩ := List.map_eq_singleton_iff.mp hrest
  exact ⟨w, e, e', hw, by rw [he, hrest'], hsource, hsource', hrequests, hscheduled⟩

end GatewayExample

section Genuine
variable {host : Host} {w : Gateway} {as : List GatewayAction}

theorem verdictOf_eq_true {response : Except TransportError HttpResponse}
    (h : verdictOf response = .ok true) : ∃ r answer, response = .ok r ∧ r.statusCode = 200 ∧
      r.json = some answer ∧
      answer.get? "verification_status" = some (.str (.text "SUCCESS")) := by
  unfold verdictOf at h
  split at h
  · cases h
  · cases h
  · rename_i r
    split at h
    · cases h
    split at h
    · cases h
    split at h
    · cases h
    rename_i hstatus
    split at h
    · cases h
    · rename_i answer hanswer
      split at h
      · rename_i hsuccess
        exact ⟨r, answer, rfl, by simpa using hstatus, hanswer, hsuccess⟩
      all_goals cases h

theorem prepare_eq_ok {config : PayPalConfig} {lower : String → String} {depth : ℕ}
    {call : VerifyCall} {content : ByteArray} (h : config.prepare lower depth call = .ok content) :
    ∃ front, content =
      front ++ ",\"webhook_event\":".toUTF8 ++ call.rawBody ++ "\x7d".toUTF8 := by
  unfold PayPalConfig.prepare at h
  split at h
  · cases h
  · cases h
  · split at h
    · cases h
    · rename_i content' hcontent
      cases h
      cases hfields : transmissionFields lower call.headers with
      | error e =>
          rw [hfields] at hcontent
          cases hcontent
      | ok transmission =>
          rw [hfields] at hcontent
          obtain ⟨text, payload, -, -, -, hbytes⟩ := verificationRequestBody_ok hcontent
          exact ⟨_, hbytes⟩

/-- Only the digest of the body under the secret is a signature. -/
theorem verifyRazorpaySignature_ok {parts : WebhookParts ByteArray} {secret signature : String}
    {body : ByteArray} (h : verifyRazorpaySignature parts secret body signature = .ok ()) :
    signature = parts.hmacSha256Hex secret body := by
  unfold verifyRazorpaySignature compareDigest at h
  split at h
  · cases h
  split at h
  · cases h
  split at h
  · cases h
  · cases h
  · rename_i hcompare
    split at hcompare
    · exact (beq_iff_eq.mp (Option.some.inj hcompare)).symm
    · cases hcompare

/-- The rows of a delivery that was let in are genuine. -/
theorem Gateway.Sound.genuine (h : w.Sound host) {d : Delivery ByteArray}
    {record : RawIngestionRecord Json} {event : PaymentEvent}
    (hentitled : Entitled host w.client d)
    (hown : StoredDelivery.IsOwn host.library ⟨d, record, event⟩) :
    Genuine host w.client.state.traffic record event := by
  obtain ⟨input, parsed, hparse, hrows⟩ := hown
  obtain ⟨rfl, hnormalize⟩ := ParsedDelivery.rows_ok hrows
  cases d with
  | razorpay body signature sourceEventId =>
      obtain ⟨secret, hsecret⟩ := Option.isSome_iff_exists.mp hentitled
      simp only [Delivery.parse, bind, Except.bind, pure, Except.pure] at hparse
      split at hparse
      · cases hparse
      rename_i u hverify
      split at hparse
      · cases hparse
      rename_i razorpay hrazorpay
      split at hparse
      · cases hparse
      rename_i payload hload
      split at hparse
      · cases hparse
      cases hparse
      have hverified : verifyRazorpaySignature host.parts secret body signature = .ok () := by
        have hlibrary : host.library.verifyRazorpaySignature body signature =
            verifyRazorpaySignature host.parts (host.getRazorpayWebhookSecret.getD "") body
              signature := rfl
        rw [hlibrary, hsecret] at hverify
        exact hverify
      have hpayload : host.parts.loads body = .ok payload := by
        have hlibrary : host.library.loads body =
            (host.parts.loads body).mapError fun _ => .unexpected := rfl
        rw [hlibrary] at hload
        cases hloads : host.parts.loads body with
        | error err =>
            rw [hloads] at hload
            cases hload
        | ok data =>
            rw [hloads] at hload
            obtain rfl : data = payload := Except.ok.inj hload
            rfl
      exact .razorpay hsecret (verifyRazorpaySignature_ok hverified) hpayload hrazorpay hnormalize
  | paypal body =>
      obtain ⟨task, call, htask, rfl⟩ := hentitled
      -- the call of `verify_webhook_signature` has had its answer
      cases hconfig : host.createPaypalClient with
      | none =>
          rw [h.configured hconfig] at htask
          cases htask
      | some config =>
          have hknows := (h.client config hconfig).2 task
          rw [htask] at hknows
          obtain ⟨content, token, response, hrequest, hanswered, hverdict⟩ := hknows.2 true rfl
          obtain ⟨r, answer, rfl, hstatus, hanswer, hsuccess⟩ := verdictOf_eq_true hverdict
          obtain ⟨front, hcontent⟩ := prepare_eq_ok hrequest
          have hlimit := h.limited _ (List.mem_of_getElem? htask)
          simp only [Delivery.parse, bind, Except.bind, pure, Except.pure] at hparse
          split at hparse
          · cases hparse
          split at hparse
          · cases hparse
          split at hparse
          · cases hparse
          rename_i payload hload
          split at hparse
          · cases hparse
          · cases hparse
          rename_i paypal hpaypal
          split at hparse
          · cases hparse
          cases hparse
          have hpayload : host.parts.loadsStandard call.rawBody = .ok payload := by
            simp only [Host.library, WebhookParts.library] at hload
            split at hload
            · cases hload
            · rename_i payload' hloads
              split at hload
              · obtain rfl : payload' = payload := Except.ok.inj hload
                exact hloads
              · cases hload
          exact .paypal hconfig hrequest hcontent hanswered hstatus hanswer hsuccess hlimit
            hpayload hpaypal hnormalize

/-- Whatever arrives in whatever order, every stored event is genuine, and so is its record. -/
theorem gateway_genuine (h : host.gatewayRun as = some w) (e : PaymentEvent)
    (he : e ∈ w.ingestion.db.events) :
    ∃ record ∈ w.ingestion.db.rawRecords, record.identity = (e.sourceSystem, e.sourceEventId) ∧
      Genuine host w.client.state.traffic record e := by
  have hsound := gatewayRun_sound h
  obtain ⟨k, d, record, hstored⟩ := hsound.deliveries.events e he
  obtain ⟨s, hs, hproc⟩ := Option.map_eq_some_iff.mp hstored
  obtain ⟨d', hentitled, haccount⟩ := hsound.deliveries.sessions s (List.mem_of_getElem? hs)
  have haccounts := haccount.accounts
  rw [hproc] at haccounts
  obtain ⟨rfl, hown, hrecord, -⟩ := haccounts
  exact ⟨record, hrecord, hown.identity_event.symm, hsound.genuine hentitled hown⟩

open GatewayExample in
theorem gateway_genuine_example : ∃ w e e', GatewayExample.host.gatewayRun actions = some w ∧
    w.ingestion.db.events = [e, e'] ∧ e.sourceSystem = razorpaySourceSystem ∧
    e'.sourceSystem = paypalSourceSystem ∧
    (∃ record ∈ w.ingestion.db.rawRecords, record.identity = (e.sourceSystem, e.sourceEventId) ∧
      Genuine GatewayExample.host w.client.state.traffic record e) ∧
    ∃ record ∈ w.ingestion.db.rawRecords, record.identity = (e'.sourceSystem, e'.sourceEventId) ∧
      Genuine GatewayExample.host w.client.state.traffic record e' := by
  obtain ⟨w, e, e', hw, hevents, hsource, hsource', -, -⟩ := exists_run
  exact ⟨w, e, e', hw, hevents, hsource, hsource', gateway_genuine hw e (by simp [hevents]),
    gateway_genuine hw e' (by simp [hevents])⟩

/-! ## Answers -/

/-- Only PayPal deliveries are ignored. -/
theorem Delivery.isPaypal_of_parse {library : WebhookLibrary ByteArray Json}
    {d : Delivery ByteArray} {input : DeliveryInput} (h : d.parse library input = .ok none) :
    d.isPaypal = true := by
  cases d with
  | razorpay body signature sourceEventId =>
      simp only [Delivery.parse, bind, Except.bind, pure, Except.pure] at h
      repeat' split at h
      all_goals cases h
  | paypal body => rfl

/-- A request that is answered with success has its delivery in the store: as stored now, with
its event's id, or as a duplicate of a record there, unless its event type is ignored. An event
that is stored is that of a delivery that is answered in this way, if at all. -/
theorem gateway_answers (h : host.gatewayRun as = some w) :
    (∀ (j : ℕ) response delivery, w.requests[j]? = some (.responded response delivery) →
      response.statusCode = 200 → ∃ d k, delivery = some (d, k) ∧
        ((∃ record event, (w.ingestion.sessions[k]?).map (·.proc) = some (.stored d record event) ∧
            response.eventId = some event.eventId ∧ record ∈ w.ingestion.db.rawRecords ∧
            event ∈ w.ingestion.db.events) ∨
          AlreadyStored host.library w.ingestion.db d ∨
          (d.isPaypal = true ∧ ∃ input, d.parse host.library input = .ok none))) ∧
    ∀ e ∈ w.ingestion.db.events, ∃ (k : ℕ) (d : Delivery ByteArray) (record : _),
      (w.ingestion.sessions[k]?).map (·.proc) = some (.stored d record e) ∧
      ∀ (j : ℕ) response d', w.requests[j]? = some (.responded response (some (d', k))) →
        response.statusCode = 200 ∧ response.eventId = some e.eventId := by
  have hsound := gatewayRun_sound h
  refine ⟨fun j response delivery hj hstatus => ?_, fun e he => ?_⟩
  · have hok := hsound.requests _ (List.mem_of_getElem? hj)
    cases delivery with
    | none => exact absurd hstatus hok
    | some dk =>
        obtain ⟨d, k⟩ := dk
        obtain ⟨s, hs, haccount, newId, hresponse⟩ := hok
        refine ⟨d, k, rfl, ?_⟩
        obtain ⟨p, pending, locks, views⟩ := s
        have haccounts : Accounts host.library w.ingestion.db d p := haccount.accounts
        cases p with
        | stored d' record event =>
            obtain ⟨rfl, -, hrecord, hevent⟩ := haccounts
            obtain rfl := Option.some.inj hresponse
            exact .inl ⟨record, event, by rw [hs]; rfl, rfl, hrecord, hevent⟩
        | duplicate => exact .inr (.inl haccounts)
        | ignored =>
            obtain ⟨input, hparse⟩ := haccounts
            exact .inr (.inr ⟨Delivery.isPaypal_of_parse hparse, input, hparse⟩)
        | failed err =>
            obtain rfl := Option.some.inj hresponse
            exact absurd hstatus (refusalOfIngestion_ne err)
        | _ => cases hresponse
  · obtain ⟨k, d, record, hstored⟩ := hsound.deliveries.events e he
    refine ⟨k, d, record, hstored, fun j response d' hj => ?_⟩
    obtain ⟨s, hs, haccount, newId, hresponse⟩ := hsound.requests _ (List.mem_of_getElem? hj)
    have hproc : s.proc = .stored d record e := by
      rw [hs] at hstored
      exact Option.some.inj hstored
    rw [hproc] at hresponse
    obtain rfl := Option.some.inj hresponse
    exact ⟨rfl, rfl⟩

open GatewayExample in
theorem gateway_answers_example : ∃ w e e', GatewayExample.host.gatewayRun actions = some w ∧
    w.ingestion.db.events = [e, e'] ∧ e'.sourceSystem = paypalSourceSystem ∧
    (∃ k, ∀ (j : ℕ) response d, w.requests[j]? = some (.responded response (some (d, k))) →
      response.statusCode = 200 ∧ response.eventId = some e.eventId) ∧
    ∃ k, ∀ (j : ℕ) response d, w.requests[j]? = some (.responded response (some (d, k))) →
      response.statusCode = 200 ∧ response.eventId = some e'.eventId := by
  obtain ⟨w, e, e', hw, hevents, -, hsource', -, -⟩ := exists_run
  obtain ⟨k, -, -, -, hanswers⟩ := (gateway_answers hw).2 e (by simp [hevents])
  obtain ⟨k', -, -, -, hanswers'⟩ := (gateway_answers hw).2 e' (by simp [hevents])
  exact ⟨w, e, e', hw, hevents, hsource', ⟨k, hanswers⟩, k', hanswers'⟩

end Genuine

end RevenueRecovery
