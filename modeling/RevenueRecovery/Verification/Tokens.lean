import Mathlib.Tactic.Linarith
import RevenueRecovery.Verification.Client

/-!
# Stage 1: access tokens

What PayPal sees of the client. A verification request carries the token granted last, which
has more than a minute left or has just been granted to the same call, and which PayPal has
not refused since. A token is requested by one call at a time, and only when there is no such
token.

## Main definitions
* `cachedGrant` : the grant a client may use, read off the traffic.
* `fetchingCall` : the call whose token request is open.
* `Justifies` : what has to precede each message.
-/
namespace RevenueRecovery

open Tasks

/-! ## What the traffic tells -/

/-- A grant replaces the one before; a refusal drops the token it is about. -/
def afterTraffic (cached : Option TokenGrant) : Traffic → Option TokenGrant
  | .tokenGranted _ g => some g
  | .verificationAnswered _ token _ (.ok r) =>
      if r.statusCode = 401 then cached.filter (·.token ≠ token) else cached
  | _ => cached

/-- The last grant, unless its token has been refused since. -/
def cachedGrant (traffic : List Traffic) : Option TokenGrant := traffic.foldl afterTraffic none

def afterFetch (fetching : Option ℕ) : Traffic → Option ℕ
  | .tokenRequested i _ => some i
  | .tokenGranted .. | .tokenAbandoned _ => none
  | _ => fetching

/-- The call whose token request has no end yet. -/
def fetchingCall (traffic : List Traffic) : Option ℕ := traffic.foldl afterFetch none

/-- What has to precede a message. -/
def Justifies (before : List Traffic) : Traffic → Prop
  | .tokenRequested _ checkedAt =>
      fetchingCall before = none ∧ ∀ g, cachedGrant before = some g → g.refreshAt ≤ checkedAt
  | .tokenGranted i _ | .tokenAbandoned i => fetchingCall before = some i
  | .verificationSent i token _ checkedAt => ∃ g, cachedGrant before = some g ∧
      g.token = token ∧
        (checkedAt < g.refreshAt ∨ ∃ earlier, before = earlier ++ [.tokenGranted i g])
  | .verificationAnswered i token content _ =>
      ∃ checkedAt, Traffic.verificationSent i token content checkedAt ∈ before

section Traffic
variable {traffic later : List Traffic} {i : ℕ} {g : TokenGrant} {token : String}

@[simp] theorem cachedGrant_append (e : Traffic) :
    cachedGrant (traffic ++ [e]) = afterTraffic (cachedGrant traffic) e := by
  simp [cachedGrant]

@[simp] theorem fetchingCall_append (e : Traffic) :
    fetchingCall (traffic ++ [e]) = afterFetch (fetchingCall traffic) e := by
  simp [fetchingCall]

/-- A cached grant stands in the traffic; no other follows, and no refusal of its token. -/
theorem exists_of_cachedGrant (h : cachedGrant traffic = some g) : ∃ earlier j later,
    traffic = earlier ++ .tokenGranted j g :: later ∧
      (∀ k g', Traffic.tokenGranted k g' ∉ later) ∧
      ∀ k content r, Traffic.verificationAnswered k g.token content (.ok r) ∈ later →
        r.statusCode ≠ 401 := by
  induction traffic using List.reverseRecOn with
  | nil => cases h
  | append_singleton traffic e ih =>
      rw [cachedGrant_append] at h
      have hold : cachedGrant traffic = some g → (∀ k g', e ≠ .tokenGranted k g') →
          (∀ k content r, e = .verificationAnswered k g.token content (.ok r) →
            r.statusCode ≠ 401) → ∃ earlier j later,
          traffic ++ [e] = earlier ++ .tokenGranted j g :: later ∧
            (∀ k g', Traffic.tokenGranted k g' ∉ later) ∧
            ∀ k content r, Traffic.verificationAnswered k g.token content (.ok r) ∈ later →
              r.statusCode ≠ 401 := by
        intro hcached hgrant hrefusal
        obtain ⟨earlier, j, later, rfl, hlater, hanswers⟩ := ih hcached
        refine ⟨earlier, j, later ++ [e], by simp, fun k g' hmem => ?_, fun k c r hmem => ?_⟩
        · rcases List.mem_append.mp hmem with hmem | hmem
          · exact hlater k g' hmem
          · exact hgrant k g' (List.mem_singleton.mp hmem).symm
        · rcases List.mem_append.mp hmem with hmem | hmem
          · exact hanswers k c r hmem
          · exact hrefusal k c r (List.mem_singleton.mp hmem).symm
      cases e with
      | tokenGranted j g' =>
          obtain rfl : g' = g := Option.some.inj h
          exact ⟨traffic, j, [], rfl, by simp, by simp⟩
      | tokenRequested j t => exact hold h (by simp) (by simp)
      | tokenAbandoned j => exact hold h (by simp) (by simp)
      | verificationSent j t c a => exact hold h (by simp) (by simp)
      | verificationAnswered j t c response =>
          cases response with
          | error err => exact hold h (by simp) (by simp)
          | ok r =>
              by_cases hstatus : r.statusCode = 401
              · simp only [afterTraffic, hstatus, if_true, Option.filter_eq_some_iff,
                  decide_eq_true_eq] at h
                refine hold h.1 (by simp) fun k content r' heq => ?_
                cases heq
                exact absurd rfl h.2
              · rw [afterTraffic, if_neg hstatus] at h
                refine hold h (by simp) fun k content r' heq => ?_
                cases heq
                exact hstatus

/-- A grant with no other after it is cached, unless its token has been refused. -/
theorem cachedGrant_of_last (hlast : ∀ k g', Traffic.tokenGranted k g' ∉ later)
    (hrefusal : ∀ k content r, Traffic.verificationAnswered k g.token content (.ok r) ∈ later →
      r.statusCode ≠ 401) :
    cachedGrant (traffic ++ .tokenGranted i g :: later) = some g := by
  induction later using List.reverseRecOn with
  | nil => simp [afterTraffic]
  | append_singleton later e ih =>
      have hold := ih (fun k g' hmem => hlast k g' (List.mem_append_left _ hmem))
        fun k c r hmem => hrefusal k c r (List.mem_append_left _ hmem)
      have he : e ∈ later ++ [e] := List.mem_append_right _ (List.mem_singleton_self e)
      rw [← List.cons_append, ← List.append_assoc, cachedGrant_append, hold]
      cases e with
      | tokenGranted j g' => exact absurd he (hlast j g')
      | tokenRequested j t => rfl
      | tokenAbandoned j => rfl
      | verificationSent j t c a => rfl
      | verificationAnswered j t c response =>
          cases response with
          | error err => rfl
          | ok r =>
              by_cases hstatus : r.statusCode = 401
              · have hne : g.token ≠ t := by
                  rintro rfl
                  exact hrefusal j c r he hstatus
                simp [afterTraffic, hstatus, hne]
              · simp [afterTraffic, hstatus]

end Traffic

/-! ## Steps -/

/-- A call that has no token yet goes on with its request, from the queue or past it. -/
def VerifyTask.Asks (config : PayPalConfig) (lower : String → String) (depth i : ℕ)
    (client : PayPalClient) (call : VerifyCall) (content : ByteArray) (task : VerifyTask)
    (client₀ : PayPalClient) : Prop :=
  (task = .called call ∧ config.prepare lower depth call = .ok content ∧ client₀ = client) ∨
    task = .waiting call content ∧ client₀ = client.leaveQueue i

/-- What one step of call `i` can be. -/
inductive ClientStepped (config : PayPalConfig) (lower : String → String) (depth : ℕ) (i : ℕ)
    (client : PayPalClient) : VerifyTask → PayPalClient → VerifyTask → Prop
  | refused {call e} (hprepare : config.prepare lower depth call = .error e) :
      ClientStepped config lower depth i client (.called call) client (.done call (.error e))
  | cancelled {call task}
      (htask : task = .called call ∨ ∃ content token, task = .verifying call content token) :
      ClientStepped config lower depth i client task client (.cancelled call)
  | queued {call content} (hprepare : config.prepare lower depth call = .ok content) :
      ClientStepped config lower depth i client (.called call) (client.joinQueue i)
        (.waiting call content)
  | cancelledWaiting {call content} :
      ClientStepped config lower depth i client (.waiting call content) (client.cancelWaiting i)
        (.cancelling call)
  | left {call task} (htask : (∃ content, task = .waiting call content) ∨ task = .cancelling call) :
      ClientStepped config lower depth i client task (client.leaveQueue i) (.cancelled call)
  | sent {call content task client₀ token clock}
      (hasks : task.Asks config lower depth i client call content client₀)
      (htoken : client₀.validCachedToken clock = some token) :
      ClientStepped config lower depth i client task (client₀.send i call content token clock).1
        (.verifying call content token)
  | requested {call content task client₀ clock requestedAt}
      (hasks : task.Asks config lower depth i client call content client₀)
      (htoken : client₀.validCachedToken clock = none) (hfree : client.holder = none) :
      ClientStepped config lower depth i client task
        { client₀ with
          lock := client₀.lock.take i
          traffic := client₀.traffic ++ [.tokenRequested i clock] }
        (.fetching call content requestedAt)
  | abandoned {call content requestedAt task'}
      (htask' : (∃ e, task' = .done call (.error e)) ∨ task' = .cancelled call) :
      ClientStepped config lower depth i client (.fetching call content requestedAt)
        (client.abandon i) task'
  | granted {call content requestedAt grant response}
      (hgrant : tokenOf lower requestedAt response = .ok grant) :
      ClientStepped config lower depth i client (.fetching call content requestedAt)
        ((client.store i grant).send i call content grant.token requestedAt).1
        (.verifying call content grant.token)
  | answered {call content token response} :
      ClientStepped config lower depth i client (.verifying call content token)
        (client.answered i token content response) (.done call (verdictOf response))

section Steps
variable {config : PayPalConfig} {lower : String → String} {depth i : ℕ}
  {client client₀ client' : PayPalClient} {task task' : VerifyTask} {input : ClientInput}

theorem enterLock_stepped {call : VerifyCall} {content : ByteArray}
    (hasks : task.Asks config lower depth i client call content client₀)
    (hfree : client.holder = none)
    (h : client₀.enterLock i call content input = (client', task')) :
    ClientStepped config lower depth i client task client' task' := by
  unfold PayPalClient.enterLock at h
  cases htoken : client₀.validCachedToken input.recheckedAt with
  | some token =>
      rw [htoken] at h
      obtain ⟨rfl, rfl⟩ := Prod.mk.inj h
      exact .sent hasks htoken
  | none =>
      rw [htoken] at h
      obtain ⟨rfl, rfl⟩ := Prod.mk.inj h
      exact .requested hasks htoken hfree

theorem clientStepped (h : config.step lower depth i client task input = some (client', task')) :
    ClientStepped config lower depth i client task client' task' := by
  cases task with
  | called call =>
      dsimp only [PayPalConfig.step] at h
      by_cases hcancel : input.cancel
      · rw [if_pos hcancel] at h
        cases h
        exact .cancelled (.inl rfl)
      rw [if_neg hcancel] at h
      cases hprepare : config.prepare lower depth call with
      | error e =>
          rw [hprepare] at h
          cases h
          exact .refused hprepare
      | ok content =>
          simp only [hprepare] at h
          cases htoken : client.validCachedToken input.checkedAt with
          | some token =>
              rw [htoken] at h
              cases h
              exact .sent (.inl ⟨rfl, hprepare, rfl⟩) htoken
          | none =>
              simp only [htoken] at h
              split at h
              · rename_i hfree
                exact enterLock_stepped (.inl ⟨rfl, hprepare, rfl⟩)
                  (FairLock.holder_of_free hfree) (Option.some.inj h)
              · cases h
                exact .queued hprepare
  | waiting call content =>
      dsimp only [PayPalConfig.step] at h
      by_cases hwoken : client.lock.woken = some i <;> by_cases hcancel : input.cancel
      · rw [if_pos hwoken, if_pos hcancel] at h
        cases h
        exact .left (.inl ⟨content, rfl⟩)
      · rw [if_pos hwoken, if_neg hcancel] at h
        exact enterLock_stepped (.inr ⟨rfl, rfl⟩) (FairLock.holder_of_woken hwoken)
          (Option.some.inj h)
      · rw [if_neg hwoken, if_pos hcancel] at h
        cases h
        exact .cancelledWaiting
      · rw [if_neg hwoken, if_neg hcancel] at h
        cases h
  | cancelling call =>
      cases h
      exact .left (.inr rfl)
  | fetching call content requestedAt =>
      dsimp only [PayPalConfig.step] at h
      by_cases hcancel : input.cancel
      · rw [if_pos hcancel] at h
        cases h
        exact .abandoned (.inr rfl)
      rw [if_neg hcancel] at h
      cases hgrant : tokenOf lower requestedAt input.response with
      | error e =>
          rw [hgrant] at h
          cases h
          exact .abandoned (.inl ⟨e, rfl⟩)
      | ok grant =>
          rw [hgrant] at h
          cases h
          exact .granted hgrant
  | verifying call content token =>
      dsimp only [PayPalConfig.step] at h
      by_cases hcancel : input.cancel
      · rw [if_pos hcancel] at h
        cases h
        exact .cancelled (.inr ⟨content, token, rfl⟩)
      rw [if_neg hcancel] at h
      cases h
      exact .answered
  | done call result => cases h
  | cancelled call => cases h

end Steps

/-! ## The invariant -/

/-- The client's fields agree with its traffic, whose messages are all justified. -/
structure PayPalClient.Consistent (client : PayPalClient) : Prop where
  token : client.token = cachedGrant client.traffic
  holder : client.holder = fetchingCall client.traffic
  explained : Explained Justifies client.traffic

/-- What call `i` knows: whether it has the lock, its request, and what it has exchanged. -/
def VerifyTask.Knows (config : PayPalConfig) (lower : String → String) (depth i : ℕ)
    (client : PayPalClient) : Option VerifyTask → Prop
  | none | some (.called _) | some (.cancelling _) | some (.cancelled _) =>
      client.holder ≠ some i
  | some (.waiting call content) =>
      client.holder ≠ some i ∧ config.prepare lower depth call = .ok content
  | some (.fetching call content _) =>
      client.holder = some i ∧ config.prepare lower depth call = .ok content
  | some (.verifying call content token) =>
      client.holder ≠ some i ∧ config.prepare lower depth call = .ok content ∧
        ∃ checkedAt, Traffic.verificationSent i token content checkedAt ∈ client.traffic
  | some (.done call result) => client.holder ≠ some i ∧ ∀ verified, result = .ok verified →
      ∃ content token response, config.prepare lower depth call = .ok content ∧
        Traffic.verificationAnswered i token content response ∈ client.traffic ∧
        verdictOf response = .ok verified

section Invariant
variable {config : PayPalConfig} {lower : String → String} {depth i j : ℕ}
  {client client₀ client' : PayPalClient} {task task' : VerifyTask} {q : Option VerifyTask}
  {token : String} {clock : ℚ} {call : VerifyCall} {content : ByteArray}

theorem validCachedToken_eq_some : client.validCachedToken clock = some token ↔
    ∃ g, client.token = some g ∧ clock < g.refreshAt ∧ g.token = token := by
  unfold PayPalClient.validCachedToken
  cases client.token with
  | none => simp
  | some g => by_cases h : clock < g.refreshAt <;> simp [h]

theorem validCachedToken_eq_none : client.validCachedToken clock = none ↔
    ∀ g, client.token = some g → g.refreshAt ≤ clock := by
  unfold PayPalClient.validCachedToken
  cases client.token with
  | none => simp
  | some g => by_cases h : clock < g.refreshAt <;> simp [h]; exact le_of_not_gt h

/-- An answer changes the cached token as it changes the cached grant. -/
theorem answered_token {content : ByteArray} {response : Except TransportError HttpResponse} :
    (client.answered i token content response).token =
      afterTraffic client.token (.verificationAnswered i token content response) := by
  unfold PayPalClient.answered
  cases response with
  | error e => rfl
  | ok r =>
      by_cases hstatus : r.statusCode = 401
      · simp only [hstatus, if_true, afterTraffic, PayPalClient.discardToken]
        cases client.token with
        | none => rfl
        | some g => by_cases hg : g.token = token <;> simp [Option.filter, hg]
      · simp [hstatus, afterTraffic]

theorem answered_rest {content : ByteArray} {response : Except TransportError HttpResponse} :
    (client.answered i token content response).lock = client.lock ∧
      (client.answered i token content response).traffic =
        client.traffic ++ [.verificationAnswered i token content response] := by
  cases response with
  | error e => exact ⟨rfl, rfl⟩
  | ok r =>
      by_cases hstatus : r.statusCode = 401
      · cases htoken : client.token with
        | none => simp [PayPalClient.answered, PayPalClient.discardToken, hstatus, htoken]
        | some g =>
            by_cases hg : g.token = token <;>
              simp [PayPalClient.answered, PayPalClient.discardToken, hstatus, htoken, hg]
      · simp [PayPalClient.answered, hstatus]

/-- A message that is justified keeps the client consistent with its traffic. -/
theorem PayPalClient.Consistent.snoc {e : Traffic} (h : client.Consistent)
    (he : Justifies client.traffic e) (htraffic : client'.traffic = client.traffic ++ [e])
    (htoken : client'.token = afterTraffic client.token e)
    (hholder : client'.holder = afterFetch client.holder e) : client'.Consistent where
  token := by rw [htoken, htraffic, cachedGrant_append, h.token]
  holder := by rw [hholder, htraffic, fetchingCall_append, h.holder]
  explained := by
    rw [htraffic]
    exact .snoc h.explained he

/-- Sending with the cached token. -/
theorem PayPalClient.Consistent.send {call : VerifyCall} {content : ByteArray} {g : TokenGrant}
    (h : client.Consistent) (hg : client.token = some g)
    (hcurrent : clock < g.refreshAt ∨ ∃ earlier, client.traffic = earlier ++ [.tokenGranted i g]) :
    (client.send i call content g.token clock).1.Consistent :=
  h.snoc (e := .verificationSent i g.token content clock) ⟨g, h.token.symm.trans hg, rfl, hcurrent⟩
    rfl rfl rfl

/-- Consistency does not depend on the queue. -/
theorem PayPalClient.Consistent.of_eq (h : client.Consistent) (htoken : client'.token = client.token)
    (hholder : client'.holder = client.holder) (htraffic : client'.traffic = client.traffic) :
    client'.Consistent :=
  ⟨by rw [htoken, htraffic, h.token], by rw [hholder, htraffic, h.holder],
    htraffic ▸ h.explained⟩

theorem VerifyTask.Asks.client_eq
    (h : task.Asks config lower depth i client call content client₀) :
    client₀.token = client.token ∧ client₀.holder = client.holder ∧
      client₀.traffic = client.traffic := by
  rcases h with ⟨-, -, rfl⟩ | ⟨-, rfl⟩ <;> exact ⟨rfl, rfl, rfl⟩

/-- Each step keeps the client consistent. -/
theorem ClientStepped.consistent (h : ClientStepped config lower depth i client task client' task')
    (hc : client.Consistent) (hk : VerifyTask.Knows config lower depth i client (some task)) :
    client'.Consistent := by
  cases h with
  | refused hprepare => exact hc
  | cancelled htask => exact hc
  | queued hprepare => exact hc.of_eq rfl rfl rfl
  | cancelledWaiting => exact hc.of_eq rfl rfl rfl
  | left htask => exact hc.of_eq rfl rfl rfl
  | sent hasks htoken =>
      obtain ⟨htoken₀, hholder₀, htraffic₀⟩ := hasks.client_eq
      obtain ⟨g, hg, hclock, rfl⟩ := validCachedToken_eq_some.mp htoken
      exact (hc.of_eq htoken₀ hholder₀ htraffic₀).send hg (.inl hclock)
  | @requested call content task client₀ clock requestedAt hasks htoken hfree =>
      obtain ⟨htoken₀, hholder₀, htraffic₀⟩ := hasks.client_eq
      have hc₀ := hc.of_eq htoken₀ hholder₀ htraffic₀
      refine hc₀.snoc (e := .tokenRequested i clock)
        ⟨hc₀.holder.symm.trans (hholder₀.trans hfree), fun g hg => ?_⟩ rfl rfl rfl
      exact validCachedToken_eq_none.mp htoken g (hc₀.token.trans hg)
  | abandoned htask' =>
      exact hc.snoc (e := .tokenAbandoned i) (hc.holder.symm.trans hk.1) rfl rfl rfl
  | @granted call content requestedAt grant response hgrant =>
      have hstored : (client.store i grant).Consistent :=
        hc.snoc (e := .tokenGranted i grant) (hc.holder.symm.trans hk.1) rfl rfl rfl
      exact hstored.send rfl (.inr ⟨client.traffic, rfl⟩)
  | @answered call content token response =>
      obtain ⟨-, -, checkedAt, hsent⟩ := hk
      exact hc.snoc (e := .verificationAnswered i token content response) ⟨checkedAt, hsent⟩
        answered_rest.2 answered_token (congrArg FairLock.holder answered_rest.1)

/-- A step of another call leaves what a call knows. -/
theorem VerifyTask.Knows.mono (h : VerifyTask.Knows config lower depth j client q)
    (hholder : client'.holder = some j ↔ client.holder = some j)
    (htraffic : client.traffic ⊆ client'.traffic) :
    VerifyTask.Knows config lower depth j client' q := by
  cases q with
  | none => exact mt hholder.mp h
  | some task =>
      cases task with
      | called call => exact mt hholder.mp h
      | cancelling call => exact mt hholder.mp h
      | cancelled call => exact mt hholder.mp h
      | waiting call content => exact ⟨mt hholder.mp h.1, h.2⟩
      | fetching call content t => exact ⟨hholder.mpr h.1, h.2⟩
      | verifying call content token =>
          obtain ⟨hfree, hprepare, checkedAt, hsent⟩ := h
          exact ⟨mt hholder.mp hfree, hprepare, checkedAt, htraffic hsent⟩
      | done call result =>
          refine ⟨mt hholder.mp h.1, fun verified hverified => ?_⟩
          obtain ⟨content, token, response, hprepare, hanswered, hverdict⟩ := h.2 verified hverified
          exact ⟨content, token, response, hprepare, htraffic hanswered, hverdict⟩

/-- What a step does to the lock and the traffic. -/
theorem ClientStepped.rest (h : ClientStepped config lower depth i client task client' task') :
    client.traffic ⊆ client'.traffic ∧ (client'.holder = client.holder ∨
      (client.holder = none ∧ client'.holder = some i) ∨
      ((∃ call content t, task = .fetching call content t) ∧ client'.holder = none)) := by
  cases h with
  | refused hprepare => exact ⟨List.Subset.refl _, .inl rfl⟩
  | cancelled htask => exact ⟨List.Subset.refl _, .inl rfl⟩
  | queued hprepare => exact ⟨List.Subset.refl _, .inl rfl⟩
  | cancelledWaiting => exact ⟨List.Subset.refl _, .inl rfl⟩
  | left htask => exact ⟨List.Subset.refl _, .inl rfl⟩
  | sent hasks htoken =>
      obtain ⟨-, hholder₀, htraffic₀⟩ := hasks.client_eq
      exact ⟨htraffic₀ ▸ List.subset_append_left _ _, .inl hholder₀⟩
  | requested hasks htoken hfree =>
      obtain ⟨-, -, htraffic₀⟩ := hasks.client_eq
      exact ⟨htraffic₀ ▸ List.subset_append_left _ _, .inr (.inl ⟨hfree, rfl⟩)⟩
  | abandoned htask' =>
      exact ⟨List.subset_append_left _ _, .inr (.inr ⟨⟨_, _, _, rfl⟩, rfl⟩)⟩
  | granted hgrant =>
      refine ⟨fun e he => ?_, .inr (.inr ⟨⟨_, _, _, rfl⟩, rfl⟩)⟩
      exact List.mem_append_left _ (List.mem_append_left _ he)
  | answered =>
      exact ⟨answered_rest.2 ▸ List.subset_append_left _ _,
        .inl (congrArg FairLock.holder answered_rest.1)⟩

theorem VerifyTask.Asks.knows (h : task.Asks config lower depth i client call content client₀)
    (hk : VerifyTask.Knows config lower depth i client (some task)) :
    client₀.holder ≠ some i ∧ config.prepare lower depth call = .ok content := by
  rcases h with ⟨rfl, hprepare, rfl⟩ | ⟨rfl, rfl⟩
  · exact ⟨hk, hprepare⟩
  · exact hk

/-- What the stepping call knows afterwards. -/
theorem ClientStepped.knows (h : ClientStepped config lower depth i client task client' task')
    (hk : VerifyTask.Knows config lower depth i client (some task)) :
    VerifyTask.Knows config lower depth i client' (some task') := by
  cases h with
  | refused hprepare => exact ⟨hk, nofun⟩
  | cancelled htask =>
      rcases htask with rfl | ⟨content, token, rfl⟩
      · exact hk
      · exact hk.1
  | queued hprepare => exact ⟨hk, hprepare⟩
  | cancelledWaiting => exact hk.1
  | left htask =>
      rcases htask with ⟨content, rfl⟩ | rfl
      · exact hk.1
      · exact hk
  | sent hasks htoken =>
      obtain ⟨hfree, hprepare⟩ := hasks.knows hk
      exact ⟨hfree, hprepare, _, List.mem_append_right _ (List.mem_singleton_self _)⟩
  | requested hasks htoken hfree => exact ⟨rfl, (hasks.knows hk).2⟩
  | abandoned htask' =>
      rcases htask' with ⟨e, rfl⟩ | rfl
      · exact ⟨nofun, nofun⟩
      · exact nofun
  | granted hgrant =>
      exact ⟨nofun, hk.2, _, List.mem_append_right _ (List.mem_singleton_self _)⟩
  | @answered call content token response =>
      obtain ⟨hfree, hprepare, -⟩ := hk
      have hheld : (client.answered i token content response).holder = client.holder :=
        congrArg FairLock.holder answered_rest.1
      refine ⟨hheld ▸ hfree, fun verified hverdict => ?_⟩
      refine ⟨content, token, response, hprepare, ?_, hverdict⟩
      rw [answered_rest.2]
      exact List.mem_append_right _ (List.mem_singleton_self _)

theorem client_relies : (config.system lower depth).Relies PayPalClient.Consistent
    (VerifyTask.Knows config lower depth) where
  start _ _ h := h
  step hc hk hstep :=
    have h := clientStepped hstep
    ⟨h.consistent hc hk, h.knows hk⟩
  others {i client task input client' task' j q} _ hk hstep hne hq := by
    obtain ⟨htraffic, hholder⟩ := (clientStepped hstep).rest
    refine hq.mono ?_ htraffic
    rcases hholder with heq | ⟨hfree, hheld⟩ | ⟨⟨call, content, t, rfl⟩, hfree⟩
    · rw [heq]
    · simp [hfree, hheld, Ne.symm hne]
    · simp [hfree, hk.1, Ne.symm hne]

end Invariant

/-! ## A run with a refused token -/

namespace ClientExample

def shop : PayPalConfig where
  clientId := "client-1"
  clientSecret := "secret"
  webhookId := some "W-1"
  valid := by decide +kernel

def call : VerifyCall where
  headers := VerificationExample.headers
  rawBody := VerificationExample.body.toUTF8

def tokenResponse : HttpResponse where
  statusCode := 200
  json := some (.obj [(.text "access_token", .str (.text "T")),
    (.text "token_type", .str (.text "bearer")), (.text "expires_in", .int 90)])

def grant : TokenGrant := ⟨"T", 0, 90⟩

def refusal : HttpResponse where
  statusCode := 401

/-- The first call gets a token, which PayPal refuses; the second asks for another one. -/
def actions : List (Action VerifyCall ClientInput) :=
  [.spawn call, .resume 0 {}, .resume 0 { response := .ok tokenResponse },
    .resume 0 { response := .ok refusal }, .spawn call, .resume 1 { recheckedAt := 10 }]

theorem exists_prepare : ∃ content, shop.prepare id 2 call = .ok content := by
  cases hfields : transmissionFields id call.headers with
  | error err =>
      have h : (transmissionFields id call.headers).isOk = true := by decide +kernel
      rw [hfields] at h
      cases h
  | ok transmission =>
      have htext : String.fromUTF8? call.rawBody = some VerificationExample.body :=
        fromUTF8_eq_some.mpr rfl
      have h : ((loads 2 VerificationExample.body).map Json.isObject) = some true := by
        decide +kernel
      obtain ⟨payload, hpayload, hobject⟩ := Option.map_eq_some_iff.mp h
      have hbody : ∃ content, verificationRequestBody 2 transmission "W-1" call.rawBody =
          .ok content := by
        simp only [verificationRequestBody, htext, Option.bind_some, hpayload, hobject]
        exact ⟨_, rfl⟩
      obtain ⟨content, hcontent⟩ := hbody
      refine ⟨content, ?_⟩
      have hwebhook : shop.webhookId = some "W-1" := rfl
      simp [PayPalConfig.prepare, hwebhook, hfields, bind, Except.bind, hcontent]

def traffic (content : ByteArray) : List Traffic :=
  [.tokenRequested 0 0, .tokenGranted 0 grant, .verificationSent 0 "T" content 0,
    .verificationAnswered 0 "T" content (.ok refusal), .tokenRequested 1 10]

def last (content : ByteArray) : ClientWorld where
  state := { token := none, lock := { holder := some 1 }, traffic := traffic content }
  tasks := [.done call (verdictOf (.ok refusal)), .fetching call content 0]

theorem exists_run : ∃ content, shop.clientRun id 2 actions = some (last content) := by
  obtain ⟨content, hcontent⟩ := exists_prepare
  have hgrant : tokenOf id 0 (.ok tokenResponse) = .ok grant := rfl
  -- the worlds after the first request, its token, the refusal, and the second request
  let requested : ClientWorld :=
    ⟨⟨none, { holder := some 0 }, (traffic content).take 1⟩, [.fetching call content 0]⟩
  let sent : ClientWorld :=
    ⟨⟨some grant, {}, (traffic content).take 3⟩, [.verifying call content "T"]⟩
  let refused : ClientWorld :=
    ⟨⟨none, {}, (traffic content).take 4⟩, [.done call (verdictOf (.ok refusal))]⟩
  let called : ClientWorld := ⟨refused.state, refused.tasks ++ [.called call]⟩
  have hspawn : (shop.system id 2).worldStep ⟨{}, []⟩ (.spawn call) =
      some ⟨{}, [.called call]⟩ := rfl
  have hrequested : (shop.system id 2).worldStep ⟨{}, [.called call]⟩ (.resume 0 {}) =
      some requested := by
    refine System.worldStep_resume (s := requested.state)
      (u := VerifyTask.fetching call content 0) rfl ?_
    simp [PayPalConfig.system, PayPalConfig.step, hcontent, PayPalClient.validCachedToken,
      PayPalClient.enterLock, FairLock.free, FairLock.take, requested, traffic]
  have hsent : (shop.system id 2).worldStep requested
      (.resume 0 { response := .ok tokenResponse }) = some sent := by
    refine System.worldStep_resume (s := sent.state)
      (u := VerifyTask.verifying call content "T") rfl ?_
    simp only [PayPalConfig.system, PayPalConfig.step, hgrant]
    rfl
  have hrefused : (shop.system id 2).worldStep sent (.resume 0 { response := .ok refusal }) =
      some refused := by
    refine System.worldStep_resume (s := refused.state)
      (u := VerifyTask.done call (verdictOf (.ok refusal))) rfl ?_
    simp [PayPalConfig.system, PayPalConfig.step, PayPalClient.answered,
      PayPalClient.discardToken, refusal, grant, sent, refused, traffic]
  have hagain : (shop.system id 2).worldStep refused (.spawn call) = some called := rfl
  have hlast : (shop.system id 2).worldStep called (.resume 1 { recheckedAt := 10 }) =
      some (last content) := by
    refine System.worldStep_resume (s := (last content).state)
      (u := VerifyTask.fetching call content 0) rfl ?_
    simp [PayPalConfig.system, PayPalConfig.step, hcontent, PayPalClient.validCachedToken,
      PayPalClient.enterLock, FairLock.free, FairLock.take, called, refused, last, traffic]
  refine ⟨content, ?_⟩
  simp only [PayPalConfig.clientRun, actions, Run.exec_cons, Run.exec_nil, hspawn, hrequested,
    hsent, hrefused, hagain, hlast, Option.bind_some]

end ClientExample

section Runs
variable {config : PayPalConfig} {lower : String → String} {depth : ℕ}
  {as : List (Action VerifyCall ClientInput)} {w : ClientWorld} {i : ℕ} {token : String}
  {content : ByteArray} {checkedAt : ℚ} {before after : List Traffic}

/-- Every run keeps the client consistent, and its calls informed. -/
theorem clientRun_holds (h : config.clientRun lower depth as = some w) :
    System.Holds PayPalClient.Consistent (VerifyTask.Knows config lower depth) w := by
  have hstart : System.Holds PayPalClient.Consistent (VerifyTask.Knows config lower depth)
      (⟨{}, []⟩ : ClientWorld) := by
    refine ⟨⟨rfl, rfl, .nil⟩, fun i => ?_⟩
    exact show none ≠ some i from nofun
  exact client_relies.exec hstart h

/-! ## Tokens in use -/

/-- A grant with time left at its check has more than a minute left. -/
theorem TokenGrant.lt_expiry {g : TokenGrant} {clock : ℚ} (h : clock < g.refreshAt)
    (hclock : g.requestedAt ≤ clock) : clock + 60 < g.requestedAt + g.expiresIn := by
  unfold TokenGrant.refreshAt tokenRefreshMarginSeconds at h
  rcases le_total ((g.expiresIn : ℚ) - 60) 0 with hle | hle
  · rw [max_eq_right hle] at h
    linarith
  · rw [max_eq_left hle] at h
    linarith

/-- Every verification request carries the token granted last. PayPal has not refused it since,
and unless it has just been granted to the same call, it has more than a minute left. -/
theorem verification_token_current (h : config.clientRun lower depth as = some w)
    (heq : w.state.traffic = before ++ .verificationSent i token content checkedAt :: after) :
    ∃ g earlier j later, before = earlier ++ .tokenGranted j g :: later ∧ g.token = token ∧
      (∀ k g', Traffic.tokenGranted k g' ∉ later) ∧
      (∀ k content r, Traffic.verificationAnswered k token content (.ok r) ∈ later →
        r.statusCode ≠ 401) ∧
      ((j = i ∧ later = []) ∨
        (g.requestedAt ≤ checkedAt → checkedAt + 60 < g.requestedAt + g.expiresIn)) := by
  obtain ⟨g, hg, rfl, hcurrent⟩ := (clientRun_holds h).1.explained.justified heq
  rcases hcurrent with hclock | ⟨earlier, rfl⟩
  · obtain ⟨earlier, j, later, rfl, hlast, hrefusal⟩ := exists_of_cachedGrant hg
    exact ⟨g, earlier, j, later, rfl, rfl, hlast, hrefusal, by
      exact .inr (g.lt_expiry hclock)⟩
  · exact ⟨g, earlier, i, [], rfl, rfl, by simp, by simp, .inl ⟨rfl, rfl⟩⟩

open ClientExample in
theorem verification_token_current_example : ∃ content, ∃ g : TokenGrant, ∃ earlier j later,
    shop.clientRun id 2 actions = some (last content) ∧
    [Traffic.tokenRequested 0 0, .tokenGranted 0 grant] = earlier ++ .tokenGranted j g :: later ∧
      g.token = "T" := by
  obtain ⟨content, hrun⟩ := exists_run
  have heq : (last content).state.traffic = [.tokenRequested 0 0, .tokenGranted 0 grant] ++
      .verificationSent 0 "T" content 0 ::
        [.verificationAnswered 0 "T" content (.ok refusal), .tokenRequested 1 10] := rfl
  obtain ⟨g, earlier, j, later, hbefore, htoken, -⟩ := verification_token_current hrun heq
  exact ⟨content, g, earlier, j, later, hrun, hbefore, htoken⟩

/-! ## Token requests -/

/-- A token request is open until its own call gets a token or gives up. -/
theorem fetchingCall_of_requested {earlier later : List Traffic} {j : ℕ} {t : ℚ}
    (h : Explained Justifies (earlier ++ .tokenRequested j t :: later)) :
    (Traffic.tokenAbandoned j ∈ later ∨ ∃ g, Traffic.tokenGranted j g ∈ later) ∨
      fetchingCall (earlier ++ .tokenRequested j t :: later) = some j := by
  induction later using List.reverseRecOn with
  | nil => exact .inr (by simp [afterFetch])
  | append_singleton later e ih =>
      have heq : earlier ++ .tokenRequested j t :: (later ++ [e]) =
          (earlier ++ .tokenRequested j t :: later) ++ [e] := by simp
      have he : e ∈ later ++ [e] := List.mem_append_right _ (List.mem_singleton_self e)
      rw [heq] at h ⊢
      have hjust := h.justified rfl
      rcases ih h.of_append with (hend | ⟨g, hend⟩) | hopen
      · exact .inl (.inl (List.mem_append_left _ hend))
      · exact .inl (.inr ⟨g, List.mem_append_left _ hend⟩)
      · rw [fetchingCall_append, hopen]
        cases e with
        | tokenRequested k t' => exact absurd (hopen.symm.trans hjust.1) nofun
        | tokenGranted k g =>
            obtain rfl : j = k := Option.some.inj (hopen.symm.trans hjust)
            exact .inl (.inr ⟨g, he⟩)
        | tokenAbandoned k =>
            obtain rfl : j = k := Option.some.inj (hopen.symm.trans hjust)
            exact .inl (.inl he)
        | verificationSent k t' c a => exact .inr rfl
        | verificationAnswered k t' c r => exact .inr rfl

/-- A token is requested only when every earlier request has ended, and when the token granted
last has at most a minute left or has been refused. -/
theorem token_request_needed (h : config.clientRun lower depth as = some w)
    (heq : w.state.traffic = before ++ .tokenRequested i checkedAt :: after) :
    (∀ earlier j t later, before = earlier ++ .tokenRequested j t :: later →
      Traffic.tokenAbandoned j ∈ later ∨ ∃ g, Traffic.tokenGranted j g ∈ later) ∧
    ∀ earlier j g later, before = earlier ++ .tokenGranted j g :: later →
      (∀ k g', Traffic.tokenGranted k g' ∉ later) →
      g.requestedAt + max ((g.expiresIn : ℚ) - 60) 0 ≤ checkedAt ∨
        ∃ k content r, Traffic.verificationAnswered k g.token content (.ok r) ∈ later ∧
          r.statusCode = 401 := by
  have hexplained := (clientRun_holds h).1.explained
  obtain ⟨hopen, hneeded⟩ := hexplained.justified heq
  refine ⟨fun earlier j t later hbefore => ?_, fun earlier j g later hbefore hlast => ?_⟩
  · have hprefix : Explained Justifies before := (heq ▸ hexplained).of_append
    rw [hbefore] at hopen hprefix
    rcases fetchingCall_of_requested hprefix with hend | hfetching
    · exact hend
    · exact absurd (hopen.symm.trans hfetching) nofun
  · by_contra hnot
    obtain ⟨hfresh, haccepted⟩ := not_or.mp hnot
    refine hfresh (hneeded g ?_)
    rw [hbefore]
    refine cachedGrant_of_last hlast fun k content r hmem hstatus => ?_
    exact haccepted ⟨k, content, r, hmem, hstatus⟩

open ClientExample in
theorem token_request_needed_example : ∃ content,
    shop.clientRun id 2 actions = some (last content) ∧
      ((10 : ℚ) ≥ 0 + max (90 - 60) 0 ∨ ∃ k content' r,
        Traffic.verificationAnswered k "T" content' (.ok r) ∈
          [Traffic.verificationSent 0 "T" content 0,
            .verificationAnswered 0 "T" content (.ok refusal)] ∧ r.statusCode = 401) := by
  obtain ⟨content, hrun⟩ := exists_run
  have heq : (last content).state.traffic = [.tokenRequested 0 0, .tokenGranted 0 grant,
      .verificationSent 0 "T" content 0, .verificationAnswered 0 "T" content (.ok refusal)] ++
        .tokenRequested 1 10 :: [] := rfl
  have hneeded := (token_request_needed hrun heq).2 [.tokenRequested 0 0] 0 grant
    [.verificationSent 0 "T" content 0, .verificationAnswered 0 "T" content (.ok refusal)] rfl
    (by simp)
  exact ⟨content, hrun, hneeded⟩

end Runs

end RevenueRecovery
