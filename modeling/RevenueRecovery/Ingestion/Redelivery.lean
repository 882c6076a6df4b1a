import RevenueRecovery.Ingestion.Containment
import RevenueRecovery.Ingestion.Store

/-!
# Stage 1: redeliveries

Each delivery of a run ends as the one that was stored, as a duplicate, ignored, or with an
error. A conflict is reported for a stored payload that differs from the delivered one, and
otherwise only by a Razorpay delivery that loses the race between its lookup and its insert
(`redelivered`, `redelivered_race`).

## Main definitions
* `arrivals` : the deliveries of a run, one for each session.
* `winsInserts` : no Razorpay delivery inserts an identity stored since its lookup.
* `accepts` : deliveries are accepted, with new ids, and the database does not fail.
-/
namespace RevenueRecovery

open Transaction

variable {Body Payload : Type} {library : WebhookLibrary Body Payload}

/-- The deliveries of a run; the `i`-th is that of session `i`. -/
def arrivals (as : List (IngestionAction Body)) : List (Delivery Body) :=
  as.filterMap fun a => match a with
    | .arrive d => some d
    | _ => none

/-- The bytes of the payload. -/
def Delivery.body : Delivery Body → Body
  | .razorpay body _ _ => body
  | .paypal body => body

/-- The source identity of a delivery. -/
def ParsedDelivery.identity (p : ParsedDelivery Payload) : String × String :=
  (p.sourceSystem, p.sourceEventId)

/-- The delivery has ended. -/
def DeliveryProc.ended : DeliveryProc Body Payload → Bool
  | .stored .. | .duplicate | .ignored | .failed _ => true
  | _ => false

/-- Session `i` takes a step of its own. -/
def advancesSession (i : ℕ) : IngestionAction Body → Bool
  | .advance j _ => j == i
  | _ => false

/-- Deliveries of one source identity have one payload. -/
def SameBodies (library : WebhookLibrary Body Payload) (as : List (IngestionAction Body)) : Prop :=
  ∀ d ∈ arrivals as, ∀ d' ∈ arrivals as, ∀ input input' p p',
    d.parse library input = .ok (some p) → d'.parse library input' = .ok (some p') →
    p.identity = p'.identity → d.body = d'.body

/-- Reading a delivery raises no conflict; only the comparison with a stored record does. -/
def ReadsNoConflict (library : WebhookLibrary Body Payload) (as : List (IngestionAction Body)) :
    Prop :=
  ∀ (d : Delivery Body) i input, .advance i input ∈ as →
    d.parse library input ≠ .error .duplicateEventConflict

/-- A Razorpay delivery that is about to insert finds its identity still free. -/
def winsInserts (w : IngestionWorld Body Payload) : IngestionAction Body → Bool
  | .advance i _ =>
      match (w.sessions[i]?).map Session.proc with
      | some (.saving d record event) => d.isPaypal || !w.db.conflicts record event
      | _ => true
  | _ => true

/-- A delivery is verified, parsed and normalized, and inserts under new ids; no statement
fails. -/
def accepts (library : WebhookLibrary Body Payload) (w : IngestionWorld Body Payload) :
    IngestionAction Body → Bool
  | .advance i input =>
      match (w.sessions[i]?).map Session.proc with
      | some (.received d) =>
          match d.parse library input with
          | .ok (some parsed) => (parsed.normalize library input).isOk
          | _ => false
      | some (.saving _ record event) =>
          !w.db.rawRecords.any (·.id == record.id) && !w.db.events.any (·.eventId == event.eventId)
      | _ => true
  | .abort _ => false
  | _ => true

/-! ## Payloads -/

theorem razorpay_ne_paypal : razorpaySourceSystem ≠ paypalSourceSystem := by decide

/-- What is read from one payload, for one source identity, has one digest. -/
theorem Delivery.Parsed.payloadHash_eq {d d' : Delivery Body} {p p' : ParsedDelivery Payload}
    (h : d.Parsed library p) (h' : d'.Parsed library p') (hidentity : p.identity = p'.identity)
    (hbody : d.body = d'.body) : p.payloadHash = p'.payloadHash := by
  cases h with
  | razorpay hload hhash =>
      cases h' with
      | razorpay hload' hhash' =>
          obtain rfl : _ = _ := hbody
          obtain rfl := Except.ok.inj (hload.symm.trans hload')
          exact Except.ok.inj (hhash.symm.trans hhash')
      | paypal => exact absurd (congrArg Prod.fst hidentity) razorpay_ne_paypal
  | paypal hload hhash =>
      cases h' with
      | razorpay => exact absurd (congrArg Prod.fst hidentity).symm razorpay_ne_paypal
      | paypal hload' hhash' =>
          obtain rfl : _ = _ := hbody
          obtain rfl := Except.ok.inj (hload.symm.trans hload')
          exact Except.ok.inj (hhash.symm.trans hhash')

/-- A digest is that of its payload. -/
theorem Delivery.Parsed.hash {d : Delivery Body} {p : ParsedDelivery Payload}
    (h : d.Parsed library p) : library.generateDeterministicHash p.rawPayload = .ok p.payloadHash := by
  cases h <;> assumption

/-! ## What a delivery knows -/

/-- Some raw record has the source identity. -/
def IngestionStore.Holds (db : IngestionStore Payload) (identity : String × String) : Prop :=
  ∃ r ∈ db.rawRecords, r.identity = identity

/-- What a session knows of its delivery and of the store. -/
def Knows (library : WebhookLibrary Body Payload) (db : IngestionStore Payload)
    (d : Delivery Body) : DeliveryProc Body Payload → Prop
  | .received d' => d' = d
  | .saving d' record event => d' = d ∧ StoredDelivery.IsOwn library ⟨d, record, event⟩
  | .saved d' record event => d' = d ∧ StoredDelivery.IsOwn library ⟨d, record, event⟩
  | .stored d' record _ => d' = d ∧ record ∈ db.rawRecords
  | .resolving record => db.Holds record.identity ∧
      ∃ event, StoredDelivery.IsOwn library ⟨d, record, event⟩
  | .failed (some .duplicateEventConflict) => ∃ input parsed,
      d.parse library input = .ok (some parsed) ∧
      ∃ r ∈ db.rawRecords, r.identity = parsed.identity ∧ r.payloadHash ≠ parsed.payloadHash
  | .duplicate | .ignored | .failed _ => True

/-- What a session has written. -/
def DeliveryProc.writes : DeliveryProc Body Payload → List (IngestionWrite Payload)
  | .saved _ record event => [.insertRaw record, .insertEvent event]
  | _ => []

theorem DeliveryProc.Carries.writes {p : DeliveryProc Body Payload}
    {ws : List (IngestionWrite Payload)} (h : p.Carries library ws) : ws = p.writes := by
  cases p with
  | saving => exact h.1
  | saved => exact h.1
  | _ => exact h

theorem DeliveryProc.writes_of_saved?_eq_none {p : DeliveryProc Body Payload}
    (h : p.saved? = none) : p.writes = [] := by
  cases p with
  | saved => cases h
  | _ => rfl

/-- What a session that looks a stored record up has seen holds one. -/
def DeliveryProc.Sees (v : IngestionStore Payload) : DeliveryProc Body Payload → Prop
  | .resolving record => v.Holds record.identity
  | _ => True

/-- A session knows its delivery, and what its statements have seen is still in the store. -/
structure Fate (library : WebhookLibrary Body Payload) (db : IngestionStore Payload)
    (d : Delivery Body) (s : IngestionSession Body Payload) : Prop where
  knows : Knows library db d s.proc
  pending : s.pending = s.proc.writes
  views : s.proc.saved? = none → ∀ v ∈ s.views, v.rawRecords ⊆ db.rawRecords ∧ s.proc.Sees v

theorem Knows.mono {db db' : IngestionStore Payload} (hdb : db.rawRecords ⊆ db'.rawRecords)
    {d : Delivery Body} {p : DeliveryProc Body Payload} (h : Knows library db d p) :
    Knows library db' d p := by
  cases p with
  | stored => exact ⟨h.1, hdb h.2⟩
  | resolving =>
      obtain ⟨⟨r, hr, hidentity⟩, hown⟩ := h
      exact ⟨⟨r, hdb hr, hidentity⟩, hown⟩
  | failed err =>
      cases err with
      | none => trivial
      | some err =>
          cases err with
          | duplicateEventConflict =>
              obtain ⟨input, parsed, hparse, r, hr, hstored⟩ := h
              exact ⟨input, parsed, hparse, r, hdb hr, hstored⟩
          | _ => trivial
  | _ => exact h

theorem Fate.mono {db db' : IngestionStore Payload} (hdb : db.rawRecords ⊆ db'.rawRecords)
    {d : Delivery Body} {s : IngestionSession Body Payload} (h : Fate library db d s) :
    Fate library db' d s where
  knows := h.knows.mono hdb
  pending := h.pending
  views hsaved v hv := ⟨List.Subset.trans (h.views hsaved v hv).1 hdb, (h.views hsaved v hv).2⟩

/-- A session that starts a new transaction. -/
theorem Fate.fresh {db : IngestionStore Payload} {d : Delivery Body}
    {p : DeliveryProc Body Payload} (h : Knows library db d p) (hwrites : p.writes = []) :
    Fate library db d (.fresh p) := ⟨h, hwrites.symm, by simp⟩

/-- After an error of the database a session knows no more. -/
theorem Fate.onError {db : IngestionStore Payload} {d : Delivery Body}
    {s : IngestionSession Body Payload} (h : Fate library db d s) :
    Fate library db d (.fresh s.proc.onError) := by
  obtain ⟨p, pending, locks, views⟩ := s
  cases p with
  | received | saving | saved | resolving => exact .fresh trivial rfl
  | stored | duplicate | ignored | failed => exact .fresh h.knows rfl

/-- What a session that has written nothing sees is the store, with what it looks for. -/
theorem Fate.view {db : IngestionStore Payload} {d : Delivery Body}
    {s : IngestionSession Body Payload} (h : Fate library db d s) (hsaved : s.proc.saved? = none) :
    (ingestionProgram library).view db s = db ∧ s.proc.Sees db := by
  obtain ⟨p, pending, locks, views⟩ := s
  have hknows : Knows library db d p := h.knows
  obtain rfl : pending = p.writes := h.pending
  cases p with
  | saved => cases hsaved
  | resolving => exact ⟨rfl, hknows.1⟩
  | _ => exact ⟨rfl, trivial⟩

/-- What its statements have read is still in the store. -/
theorem Fate.reads {db : IngestionStore Payload} {d : Delivery Body}
    {s : IngestionSession Body Payload} (h : Fate library db d s) (hsaved : s.proc.saved? = none)
    (k : ℕ) : ((ingestionProgram library).reads db s k).rawRecords ⊆ db.rawRecords ∧
      s.proc.Sees ((ingestionProgram library).reads db s k) := by
  rcases (ingestionProgram library).reads_cases db s k with hview | hview
  · exact h.views hsaved _ hview
  · obtain ⟨heq, hsees⟩ := h.view hsaved
    rw [hview, heq]
    exact ⟨List.Subset.refl _, hsees⟩

theorem Fate.looked {db : IngestionStore Payload} {d : Delivery Body}
    {s : IngestionSession Body Payload} (h : Fate library db d s) :
    Fate library db d ((ingestionProgram library).looked db s) where
  knows := h.knows
  pending := h.pending
  views hsaved v hv := by
    rcases List.mem_append.mp hv with hv | hv
    · exact h.views hsaved v hv
    · obtain rfl := List.mem_singleton.mp hv
      obtain ⟨heq, hsees⟩ := h.view hsaved
      rw [heq]
      exact ⟨List.Subset.refl _, hsees⟩

theorem IngestionStore.getRawRecord_some {db : IngestionStore Payload} {system id : String}
    {r : RawIngestionRecord Payload} (h : db.getRawRecord system id = some r) :
    r ∈ db.rawRecords ∧ r.identity = (system, id) := by
  refine ⟨List.mem_of_find?_eq_some h, ?_⟩
  have hkey := List.find?_some h
  simp only [decide_eq_true_eq] at hkey
  rw [RawIngestionRecord.identity, hkey.1, hkey.2]

theorem IngestionStore.getRawRecord_none {db : IngestionStore Payload} {system id : String}
    (h : db.getRawRecord system id = none) : ¬db.Holds (system, id) := by
  rintro ⟨r, hr, hidentity⟩
  obtain ⟨hsystem, hid⟩ := Prod.mk.inj hidentity
  have hkey := List.find?_eq_none.mp h r hr
  simp [hsystem, hid] at hkey

/-- Normalization raises no conflict. -/
theorem ParsedDelivery.normalize_ne_conflict {p : ParsedDelivery Payload}
    {input : DeliveryInput} : p.normalize library input ≠ .error .duplicateEventConflict := by
  intro h
  unfold normalize at h
  split at h
  · rcases normalizeRazorpayEvent_error h with hkind | hkind <;> cases hkind
  · rcases normalizePaypalEvent_error h with hkind | hkind <;> cases hkind

/-- A stored record is a duplicate, or of another payload. -/
theorem knows_resolveExisting {db : IngestionStore Payload} {d : Delivery Body}
    {input : DeliveryInput} {parsed : ParsedDelivery Payload}
    {existing : RawIngestionRecord Payload} (hparse : d.parse library input = .ok (some parsed))
    (hmem : existing ∈ db.rawRecords) (hidentity : existing.identity = parsed.identity) :
    Knows library db d (resolveExisting existing parsed.payloadHash) := by
  unfold resolveExisting
  split
  · trivial
  · exact ⟨input, parsed, hparse, existing, hmem, hidentity, ‹_›⟩

/-- So it is when a Razorpay duplicate normalizes its event once more. -/
theorem knows_onExisting {db : IngestionStore Payload} {d : Delivery Body}
    {input : DeliveryInput} {parsed : ParsedDelivery Payload}
    {existing : RawIngestionRecord Payload} (hparse : d.parse library input = .ok (some parsed))
    (hmem : existing ∈ db.rawRecords) (hidentity : existing.identity = parsed.identity) :
    Knows library db d (onExisting library d parsed input existing) := by
  unfold onExisting
  split
  · split
    · trivial
    · rename_i err herr
      cases err with
      | duplicateEventConflict => exact absurd herr ParsedDelivery.normalize_ne_conflict
      | _ => trivial
  · exact knows_resolveExisting hparse hmem hidentity

/-! ## Every session -/

/-- The store and the sessions of a run: the sessions are those of its deliveries, and what is
stored is theirs. -/
structure Fates (library : WebhookLibrary Body Payload) (as : List (IngestionAction Body))
    (w : IngestionWorld Body Payload) : Prop where
  length : w.sessions.length = (arrivals as).length
  fate : ∀ (i : ℕ) (d : Delivery Body) (s : IngestionSession Body Payload),
    (arrivals as)[i]? = some d → w.sessions[i]? = some s → Fate library w.db d s
  own : ∀ r ∈ w.db.rawRecords, ∃ d ∈ arrivals as, ∃ e, StoredDelivery.IsOwn library ⟨d, r, e⟩
  events : ∀ e ∈ w.db.events, w.db.Holds (e.sourceSystem, e.sourceEventId)

@[simp] theorem arrivals_append (as bs : List (IngestionAction Body)) :
    arrivals (as ++ bs) = arrivals as ++ arrivals bs := List.filterMap_append ..

namespace Fates

variable {as : List (IngestionAction Body)} {w w' : IngestionWorld Body Payload}
  {a : IngestionAction Body}

/-- A session is that of a delivery. -/
theorem delivery (h : Fates library as w) {i : ℕ} {s : IngestionSession Body Payload}
    (hs : w.sessions[i]? = some s) : ∃ d, (arrivals as)[i]? = some d := by
  have hlt := (List.getElem?_eq_some_iff.mp hs).1
  rw [h.length] at hlt
  exact ⟨_, List.getElem?_eq_getElem hlt⟩

/-- A session has moved without a commit. -/
theorem moved (h : Fates library as w) (ha : arrivals [a] = []) {i : ℕ}
    {s s' : IngestionSession Body Payload} (hs : w.sessions[i]? = some s)
    (hs' : ∀ d, Fate library w.db d s → Fate library w.db d s') :
    Fates library (as ++ [a]) (w.setSession i s') := by
  have hsame : arrivals (as ++ [a]) = arrivals as := by rw [arrivals_append, ha, List.append_nil]
  refine ⟨by simp [hsame, h.length], fun j d t hd ht => ?_, by rw [hsame]; exact h.own, h.events⟩
  rw [hsame] at hd
  simp only [World.sessions_setSession, List.getElem?_set] at ht
  by_cases hij : i = j
  · subst hij
    rw [if_pos rfl] at ht
    split at ht
    · cases ht
      exact hs' d (h.fate i d s hd hs)
    · cases ht
  · rw [if_neg hij] at ht
    exact h.fate j d t hd ht

/-- A delivery has arrived. -/
theorem arrived (h : Fates library as w) (d : Delivery Body) :
    Fates library (as ++ [.arrive d])
      { w with sessions := w.sessions ++ [.fresh (.received d)] } := by
  have hmore : arrivals (as ++ [.arrive d]) = arrivals as ++ [d] := arrivals_append ..
  refine ⟨by simp [hmore, h.length], fun i d' s hd hs => ?_, fun r hr => ?_, h.events⟩
  · rw [hmore] at hd
    rcases Nat.lt_or_ge i w.sessions.length with hlt | hge
    · rw [List.getElem?_append_left hlt] at hs
      rw [List.getElem?_append_left (h.length ▸ hlt)] at hd
      exact h.fate i d' s hd hs
    · rw [List.getElem?_append_right hge] at hs
      rw [List.getElem?_append_right (h.length ▸ hge), ← h.length] at hd
      rw [List.getElem?_singleton] at hs hd
      by_cases hzero : i - w.sessions.length = 0
      · rw [if_pos hzero] at hs hd
        cases hs
        cases hd
        exact .fresh rfl rfl
      · rw [if_neg hzero] at hs
        cases hs
  · obtain ⟨d', hd', e, hown⟩ := h.own r hr
    exact ⟨d', by simp [hmore, hd'], e, hown⟩

/-- A delivery has committed its rows. -/
theorem committed (h : Fates library as w) {i : ℕ} {input : DeliveryInput}
    {s : IngestionSession Body Payload} {d : Delivery Body} {record : RawIngestionRecord Payload}
    {event : PaymentEvent} (hs : w.sessions[i]? = some s) (hproc : s.proc = .saved d record event) :
    Fates library (as ++ [.advance i input])
      { w.setSession i (.fresh (.stored d record event)) with
        db := (ingestionProgram library).view w.db s } := by
  obtain ⟨d', hd'⟩ := h.delivery hs
  have hfate := h.fate i d' s hd' hs
  obtain ⟨rfl, hown⟩ : d = d' ∧ StoredDelivery.IsOwn library ⟨d', record, event⟩ := by
    have hknows := hfate.knows
    rw [hproc] at hknows
    exact hknows
  have hview : (ingestionProgram library).view w.db s =
      { rawRecords := w.db.rawRecords ++ [record], events := w.db.events ++ [event] } := by
    rw [Program.view, hfate.pending, hproc]
    rfl
  have hgrows : w.db.rawRecords ⊆ ((ingestionProgram library).view w.db s).rawRecords := by
    rw [hview]
    exact List.subset_append_left _ _
  have hin : record ∈ ((ingestionProgram library).view w.db s).rawRecords := by
    rw [hview]
    simp
  have hsame : arrivals (as ++ [.advance i input]) = arrivals as := by
    rw [arrivals_append]
    exact List.append_nil _
  refine ⟨by simp [hsame, h.length], fun j d' t hd ht => ?_, fun r hr => ?_, fun e he => ?_⟩
  · rw [hsame] at hd
    simp only [World.sessions_setSession, List.getElem?_set] at ht
    by_cases hij : i = j
    · subst hij
      obtain rfl := Option.some.inj (hd'.symm.trans hd)
      rw [if_pos rfl] at ht
      split at ht
      · cases ht
        exact .fresh ⟨rfl, hin⟩ rfl
      · cases ht
    · rw [if_neg hij] at ht
      exact (h.fate j d' t hd ht).mono hgrows
  · rw [hsame]
    rw [hview] at hr
    rcases List.mem_append.mp hr with hr | hr
    · exact h.own r hr
    · obtain rfl := List.mem_singleton.mp hr
      exact ⟨d, List.mem_of_getElem? hd', event, hown⟩
  · rw [hview] at he
    rcases List.mem_append.mp he with he | he
    · obtain ⟨r, hr, hidentity⟩ := h.events e he
      exact ⟨r, hgrows hr, hidentity⟩
    · obtain rfl := List.mem_singleton.mp he
      exact ⟨record, hin, hown.identity_event.symm⟩

/-- Rows that conflict with the store are of an identity it holds. -/
theorem holds_of_conflicts (h : Fates library as w) {d : Delivery Body}
    {record : RawIngestionRecord Payload} {event : PaymentEvent}
    (hown : StoredDelivery.IsOwn library ⟨d, record, event⟩)
    (hconflict : w.db.conflicts record event = true) : w.db.Holds record.identity := by
  rcases Bool.or_eq_true_iff.mp hconflict with hraw | hevent
  · obtain ⟨r, hr, hkey⟩ := List.any_eq_true.mp hraw
    obtain ⟨hsystem, hid⟩ : r.sourceSystem = record.sourceSystem ∧
        r.sourceEventId = record.sourceEventId := by simpa using hkey
    exact ⟨r, hr, Prod.ext hsystem hid⟩
  · obtain ⟨e, he, hkey⟩ := List.any_eq_true.mp hevent
    obtain ⟨hsystem, hid⟩ : e.sourceSystem = event.sourceSystem ∧
        e.sourceEventId = event.sourceEventId := by simpa using hkey
    have hidentity : (event.sourceSystem, event.sourceEventId) = record.identity :=
      hown.identity_event
    rw [← hidentity, ← hsystem, ← hid]
    exact h.events e he

/-- What a delivery that rolls back goes on to know. -/
theorem rolledBack (h : Fates library as w) {i : ℕ} {input : DeliveryInput} {d : Delivery Body}
    {s : IngestionSession Body Payload} {next : DeliveryProc Body Payload}
    (hs : w.sessions[i]? = some s) (hwin : winsInserts w (.advance i input) = true)
    (hread : d.parse library input ≠ .error .duplicateEventConflict)
    (hfate : Fate library w.db d s)
    (hp : (ingestionProgram library).outcome w.db s input = some (.rollback next)) :
    Knows library w.db d next := by
  have hview := hfate.view
  have hreads := hfate.reads
  obtain ⟨p, pending, locks, views⟩ := s
  have hknows : Knows library w.db d p := hfate.knows
  cases deliveryStepped hp with
  | refused hparse =>
      obtain rfl := hknows
      rename_i err
      cases err with
      | duplicateEventConflict => exact absurd hparse hread
      | _ => trivial
  | ignored => trivial
  | known hparse hfind =>
      obtain rfl := hknows
      obtain ⟨hmem, hidentity⟩ := IngestionStore.getRawRecord_some hfind
      exact knows_onExisting hparse ((hreads rfl 0).1 hmem) hidentity
  | unnormalized hparse hrows =>
      obtain rfl := hknows
      rename_i parsed err
      simp only [ParsedDelivery.rows, bind, Except.bind] at hrows
      split at hrows
      · rename_i err' herr
        cases hrows
        cases err with
        | duplicateEventConflict => exact absurd herr ParsedDelivery.normalize_ne_conflict
        | _ => trivial
      · cases hrows
  | @lost d' record event hconflict =>
      obtain ⟨rfl, hown⟩ := hknows
      rw [(hview rfl).1] at hconflict
      unfold onConflict
      split
      · exact ⟨h.holds_of_conflicts hown hconflict, event, hown⟩
      · rename_i hrazorpay
        simp [winsInserts, hs, hrazorpay, hconflict] at hwin
  | resolved hfind =>
      obtain ⟨-, event, input', parsed, hparse, hrows⟩ := hknows
      obtain ⟨rfl, -⟩ := ParsedDelivery.rows_ok hrows
      obtain ⟨hmem, hidentity⟩ := IngestionStore.getRawRecord_some hfind
      exact knows_resolveExisting hparse ((hreads rfl 0).1 hmem) hidentity
  | unresolved hfind => exact absurd (hreads rfl 0).2 (IngestionStore.getRawRecord_none hfind)

/-- A step keeps them. -/
theorem step (h : Fates library as w) (hwin : winsInserts w a = true)
    (hread : ∀ (d : Delivery Body) i input, a = .advance i input →
      d.parse library input ≠ .error .duplicateEventConflict)
    (ha : (ingestionProgram library).worldStep w a = some w') : Fates library (as ++ [a]) w' := by
  cases Program.stepped ha with
  | arrived harr =>
      cases harr
      exact h.arrived _
  | looked hs => exact h.moved rfl hs fun _ hfate => hfate.looked
  | aborted hs => exact h.moved rfl hs fun _ hfate => hfate.onError
  | @locked i input s key next hs hp =>
      obtain ⟨p, pending, locks, views⟩ := s
      cases deliveryStepped hp
  | @wrote i input s ws next hs hp =>
      refine h.moved rfl hs fun d hfate => ?_
      obtain ⟨p, pending, locks, views⟩ := s
      have hknows : Knows library w.db d p := hfate.knows
      obtain rfl : pending = p.writes := hfate.pending
      cases deliveryStepped hp with
      | parsed hparse hrows =>
          obtain rfl := hknows
          exact ⟨⟨rfl, input, _, hparse, hrows⟩, rfl, by simp [Session.wrote]⟩
      | inserted => exact ⟨hknows, rfl, by simp [Session.wrote]⟩
  | raised hs => exact h.moved rfl hs fun _ hfate => hfate.onError
  | @called i input s effect next hs hp =>
      obtain ⟨p, pending, locks, views⟩ := s
      cases deliveryStepped hp
  | @committed i input s next hs hp =>
      obtain ⟨p, pending, locks, views⟩ := s
      cases deliveryStepped hp with
      | committed => exact h.committed hs rfl
  | @rolledBack i input s next hs hp =>
      refine h.moved rfl hs fun d hfate => .fresh ?_ ?_
      · exact h.rolledBack hs hwin (hread d i input rfl) hfate hp
      · obtain ⟨p, pending, locks, views⟩ := s
        exact (deliveryStepped hp).rolledBack.2.writes.symm

/-- The sessions of a run in which Razorpay deliveries win their inserts. -/
theorem exec (hrun : ingestionRun library as = some w) (hread : ReadsNoConflict library as)
    (hwins : Run.Guarded (ingestionProgram library).worldStep (fun w a => winsInserts w a = true)
      ⟨{}, [], []⟩ as) : Fates library as w := by
  have hreads : Run.Guarded (ingestionProgram library).worldStep
      (fun _ a => ∀ (d : Delivery Body) i input, a = .advance i input →
        d.parse library input ≠ .error .duplicateEventConflict) ⟨{}, [], []⟩ as := by
    refine Run.guarded_of_forall fun as₁ a as₂ t has _ d i input ha => ?_
    exact hread d i input (by rw [has, ha]; simp)
  exact Run.invariant_history (Fates library) (fun _ _ _ _ h hg ha => h.step hg.1 hg.2 ha)
    ⟨rfl, by simp, by simp, by simp⟩ (hwins.and hreads) hrun

end Fates

/-! ## Accepted deliveries -/

/-- The delivery has not ended for another reason than a stored record. -/
def DeliveryProc.accepted : DeliveryProc Body Payload → Bool
  | .ignored | .failed none => false
  | .failed (some err) => err = .duplicateEventConflict
  | _ => true

theorem accepted_resolveExisting (existing : RawIngestionRecord Payload) (payloadHash : String) :
    (resolveExisting existing payloadHash : DeliveryProc Body Payload).accepted = true := by
  unfold resolveExisting
  split <;> rfl

/-- New rows of a free identity violate no constraint. -/
theorem IngestionStore.not_violatesAny {db : IngestionStore Payload}
    {record : RawIngestionRecord Payload} {event : PaymentEvent}
    (hnew : db.conflicts record event = false)
    (hrecord : db.rawRecords.any (·.id == record.id) = false)
    (hevent : db.events.any (·.eventId == event.eventId) = false) :
    (ingestionProgram library).violatesAny db [.insertRaw record, .insertEvent event] = false := by
  obtain ⟨hraw, hevents⟩ := Bool.or_eq_false_iff.mp hnew
  have hor : ∀ {α : Type} (xs : List α) (p q : α → Bool), xs.any p = false → xs.any q = false →
      (xs.any fun x => p x || q x) = false := by
    intro α xs p q hp hq
    simp_all
  simp only [Program.violatesAny, ingestionProgram, violates, apply, Bool.or_false,
    Bool.or_eq_false_iff]
  exact ⟨hor _ _ _ hrecord hraw, hor _ _ _ hevent hevents⟩

section Accepted
variable {as : List (IngestionAction Body)} {w w' : IngestionWorld Body Payload}
  {a : IngestionAction Body}

/-- A session has moved to where its delivery is still accepted. -/
theorem accepted_moved (hold : ∀ s ∈ w.sessions, s.proc.accepted = true) (i : ℕ)
    {s : IngestionSession Body Payload} (hs : s.proc.accepted = true) :
    ∀ t ∈ (w.setSession i s).sessions, t.proc.accepted = true := by
  intro t ht
  rcases List.mem_or_eq_of_mem_set ht with ht | rfl
  · exact hold t ht
  · exact hs

/-- An accepted delivery ends only because of a stored record. -/
theorem Fates.accepted (h : Fates library as w) (haccepts : accepts library w a = true)
    (hold : ∀ s ∈ w.sessions, s.proc.accepted = true)
    (ha : (ingestionProgram library).worldStep w a = some w') :
    ∀ s ∈ w'.sessions, s.proc.accepted = true := by
  cases Program.stepped ha with
  | arrived harr =>
      cases harr
      intro s hs
      rcases List.mem_append.mp hs with hs | hs
      · exact hold s hs
      · obtain rfl := List.mem_singleton.mp hs
        rfl
  | looked hs =>
      have hproc := hold _ (List.mem_of_getElem? hs)
      exact accepted_moved hold _ hproc
  | aborted hs => cases haccepts
  | @locked i input s key next hs hp =>
      obtain ⟨p, pending, locks, views⟩ := s
      cases deliveryStepped hp
  | @wrote i input s ws next hs hp =>
      obtain ⟨p, pending, locks, views⟩ := s
      cases deliveryStepped hp <;> exact accepted_moved hold _ rfl
  | @raised i input s ws next hs hp hbad =>
      obtain ⟨d, hd⟩ := h.delivery hs
      have hview := (h.fate i d s hd hs).view
      obtain ⟨p, pending, locks, views⟩ := s
      cases deliveryStepped hp with
      | parsed => cases hbad
      | inserted hnew =>
          rw [(hview rfl).1] at hbad hnew
          simp only [accepts, hs, Option.map_some, Bool.and_eq_true, Bool.not_eq_true'] at haccepts
          rw [IngestionStore.not_violatesAny hnew haccepts.1 haccepts.2] at hbad
          cases hbad
  | @called i input s effect next hs hp =>
      obtain ⟨p, pending, locks, views⟩ := s
      cases deliveryStepped hp
  | @committed i input s next hs hp =>
      obtain ⟨p, pending, locks, views⟩ := s
      cases deliveryStepped hp with
      | committed => exact accepted_moved hold _ rfl
  | @rolledBack i input s next hs hp =>
      obtain ⟨p, pending, locks, views⟩ := s
      refine accepted_moved hold _ ?_
      cases deliveryStepped hp with
      | refused hparse => simp [accepts, hs, hparse] at haccepts
      | ignored hparse => simp [accepts, hs, hparse] at haccepts
      | known hparse hfind =>
          simp only [accepts, hs, Option.map_some, hparse] at haccepts
          unfold onExisting
          split
          · split
            · rfl
            · rename_i err herr
              rw [herr] at haccepts
              cases haccepts
          · exact accepted_resolveExisting _ _
      | unnormalized hparse hrows =>
          simp only [accepts, hs, Option.map_some, hparse] at haccepts
          simp only [ParsedDelivery.rows, bind, Except.bind] at hrows
          split at hrows
          · rename_i err herr
            rw [herr] at haccepts
            cases haccepts
          · cases hrows
      | lost =>
          unfold onConflict
          split <;> rfl
      | resolved => exact accepted_resolveExisting _ _
      | unresolved => rfl

/-- An accepted delivery of a run has not ended for another reason than a stored record. -/
theorem accepted_exec (hrun : ingestionRun library as = some w)
    (hread : ReadsNoConflict library as)
    (hwins : Run.Guarded (ingestionProgram library).worldStep (fun w a => winsInserts w a = true)
      ⟨{}, [], []⟩ as)
    (haccepts : Run.Guarded (ingestionProgram library).worldStep
      (fun w a => accepts library w a = true) ⟨{}, [], []⟩ as) :
    ∀ s ∈ w.sessions, s.proc.accepted = true := by
  have hfates : Run.Guarded (ingestionProgram library).worldStep
      (fun w _ => ∃ as, Fates library as w) ⟨{}, [], []⟩ as := by
    refine Run.guarded_of_forall fun as₁ a as₂ t has hrun₁ => ⟨as₁, ?_⟩
    subst has
    have hread₁ : ReadsNoConflict library as₁ := fun d i input hmem =>
      hread d i input (List.mem_append_left _ hmem)
    exact Fates.exec hrun₁ hread₁ (Run.guarded_append hrun₁ hwins).1
  have hstep : ∀ (u : IngestionWorld Body Payload) a u',
      (∀ s ∈ u.sessions, s.proc.accepted = true) →
      (accepts library u a = true ∧ ∃ as, Fates library as u) →
      (ingestionProgram library).worldStep u a = some u' →
      ∀ s ∈ u'.sessions, s.proc.accepted = true := by
    rintro u a u' hold ⟨haccepts, as, h⟩ ha
    exact h.accepted haccepts hold ha
  exact Run.invariant_guarded hstep (by simp) (haccepts.and hfates) hrun

end Accepted

/-! ## Progress -/

section Progress
variable {as : List (IngestionAction Body)} {w w' : IngestionWorld Body Payload}
  {a : IngestionAction Body}

/-- How many steps of its own a delivery can still take. -/
def DeliveryProc.remaining : DeliveryProc Body Payload → ℕ
  | .received _ => 3
  | .saving .. => 2
  | .saved .. | .resolving _ => 1
  | .stored .. | .duplicate | .ignored | .failed _ => 0

/-- The same of session `i`, which may have still to arrive. -/
def stepsLeft (w : IngestionWorld Body Payload) (i : ℕ) : ℕ :=
  (w.sessions[i]?).elim 3 fun s => s.proc.remaining

theorem remaining_onError (p : DeliveryProc Body Payload) : p.onError.remaining ≤ p.remaining := by
  cases p <;> exact Nat.zero_le _

/-- A step, and an error in its place, bring a delivery nearer to its end. -/
theorem DeliveryStepped.remaining {input : DeliveryInput} {reads : ℕ → IngestionStore Payload}
    {now : IngestionStore Payload} {p : DeliveryProc Body Payload}
    {o : IngestionOutcome Body Payload} (h : DeliveryStepped library input reads now p o) :
    o.next.remaining + 1 ≤ p.remaining ∧ p.onError.remaining + 1 ≤ p.remaining := by
  cases h with
  | known =>
      simp only [Outcome.next, onExisting, resolveExisting]
      split
      · split <;> simp [DeliveryProc.remaining, DeliveryProc.onError]
      · split <;> simp [DeliveryProc.remaining, DeliveryProc.onError]
  | lost =>
      simp only [Outcome.next, onConflict]
      split <;> simp [DeliveryProc.remaining, DeliveryProc.onError]
  | resolved =>
      simp only [Outcome.next, resolveExisting]
      split <;> simp [DeliveryProc.remaining, DeliveryProc.onError]
  | _ => simp [Outcome.next, DeliveryProc.remaining, DeliveryProc.onError]

theorem stepsLeft_setSession {i j : ℕ} {s t : IngestionSession Body Payload} {k : ℕ}
    (ht : w.sessions[j]? = some t) (h : s.proc.remaining + k ≤ t.proc.remaining) :
    stepsLeft (w.setSession j s) i + (if j == i then k else 0) ≤ stepsLeft w i := by
  unfold stepsLeft
  by_cases hij : j = i
  · subst hij
    obtain ⟨hlt, rfl⟩ := List.getElem?_eq_some_iff.mp ht
    simpa [hlt] using h
  · simp [hij, List.getElem?_set_ne hij]

theorem stepsLeft_step (ha : (ingestionProgram library).worldStep w a = some w') (i : ℕ) :
    stepsLeft w' i + (if advancesSession i a then 1 else 0) ≤ stepsLeft w i := by
  cases Program.stepped ha with
  | arrived harr =>
      cases harr
      unfold stepsLeft
      rcases Nat.lt_trichotomy i w.sessions.length with hlt | rfl | hgt
      · simp [advancesSession, List.getElem?_append_left hlt]
      · simp [advancesSession, DeliveryProc.remaining]
      · simp [advancesSession, List.getElem?_append_right hgt.le, Nat.sub_ne_zero_of_lt hgt, hgt.le]
  | @looked j s hs =>
      have hsame : ((ingestionProgram library).looked w.db s).proc.remaining + 0 ≤
          s.proc.remaining := le_rfl
      simpa [advancesSession] using stepsLeft_setSession hs hsame
  | aborted hs => simpa [advancesSession] using stepsLeft_setSession (k := 0) hs (remaining_onError _)
  | locked hs hp => exact stepsLeft_setSession hs (deliveryStepped hp).remaining.1
  | wrote hs hp => exact stepsLeft_setSession hs (deliveryStepped hp).remaining.1
  | raised hs hp => exact stepsLeft_setSession hs (deliveryStepped hp).remaining.2
  | called hs hp => exact stepsLeft_setSession hs (deliveryStepped hp).remaining.1
  | committed hs hp => exact stepsLeft_setSession hs (deliveryStepped hp).remaining.1
  | rolledBack hs hp => exact stepsLeft_setSession hs (deliveryStepped hp).remaining.1

/-- A delivery takes at most three steps of its own. -/
theorem countP_advances_le (hrun : ingestionRun library as = some w) (i : ℕ) :
    as.countP (advancesSession i) ≤ 3 := by
  have hleft := Run.invariant_history
    (fun as (w : IngestionWorld Body Payload) => as.countP (advancesSession i) + stepsLeft w i ≤ 3)
    (fun as u a u' hu (_ : True) ha => by
      have hstep := stepsLeft_step ha i
      rw [List.countP_append, List.countP_singleton]
      lia)
    (by simp [stepsLeft]) (Run.guarded_of_forall fun _ _ _ _ _ _ => trivial) hrun
  exact (Nat.le_add_right _ _).trans hleft

/-- As long as a delivery has not ended, it can take a step, or another one can commit the
rows it waits for. -/
theorem Fates.progress (h : Fates library as w) {i : ℕ} {s : IngestionSession Body Payload}
    (hs : w.sessions[i]? = some s) (hended : s.proc.ended = false) (input : DeliveryInput) :
    ∃ j, ((ingestionProgram library).worldStep w (.advance j input)).isSome = true := by
  by_cases hfree : ∀ (j : ℕ) (t : IngestionSession Body Payload),
      w.sessions[j]? = some t → t.proc.saved? = none
  · -- No session has uncommitted rows, so nothing blocks this one.
    have hblocked : ∀ ws, (ingestionProgram library).blocked w i ws = false := by
      intro ws
      refine List.any_eq_false.mpr fun t ht => ?_
      have hj := List.mem_zipIdx_iff_getElem?.mp ht
      obtain ⟨d, hd⟩ := h.delivery hj
      have hpending := (h.fate _ d _ hd hj).pending
      rw [DeliveryProc.writes_of_saved?_eq_none (hfree _ _ hj)] at hpending
      simp [hpending]
    have hperform : ∀ o, (ingestionProgram library).outcome w.db s input = some o →
        ((ingestionProgram library).perform w i s o).isSome = true := by
      intro o ho
      cases o with
      | lock key next =>
          obtain ⟨p, pending, locks, views⟩ := s
          cases deliveryStepped ho
      | write ws next =>
          simp only [Program.perform, hblocked ws, Bool.false_eq_true, if_false]
          split <;> rfl
      | call => rfl
      | commit => rfl
      | rollback => rfl
    have houtcome : ((ingestionProgram library).outcome w.db s input).isSome = true := by
      obtain ⟨p, pending, locks, views⟩ := s
      cases p with
      | received d =>
          simp only [Program.outcome, ingestionProgram, ingestionStep]
          repeat' split
          all_goals rfl
      | saving =>
          simp only [Program.outcome, ingestionProgram, ingestionStep]
          split <;> rfl
      | saved => rfl
      | resolving =>
          simp only [Program.outcome, ingestionProgram, ingestionStep]
          split <;> rfl
      | stored | duplicate | ignored | failed => cases hended
    obtain ⟨o, ho⟩ := Option.isSome_iff_exists.mp houtcome
    exact ⟨i, by simp only [Program.worldStep, hs, ho, hperform o ho]⟩
  · -- Another session can commit its rows.
    simp only [not_forall] at hfree
    obtain ⟨j, t, hj, hsaved⟩ := hfree
    obtain ⟨p, pending, locks, views⟩ := t
    cases p with
    | saved => exact ⟨j, by simp only [Program.worldStep, hj]; rfl⟩
    | _ => exact absurd rfl hsaved

end Progress

/-! ## What the parsers raise -/

section Parsers
variable {Body : Type} {parts : WebhookParts Body} {secret : String}

theorem refundedCaptureId_error {urlparse : String → Option SplitUrl} {links : List PayPalLink}
    {err : IngestionError} (h : refundedCaptureId urlparse links = .error err) :
    err = .unexpected ∨ err = .schemaValidation := by
  unfold refundedCaptureId at h
  rcases mapM_url_cases urlparse (links.filter (·.rel = "up")) with ⟨urls, hok, -⟩ | ⟨herror, -⟩
  · simp only [hok, bind, Except.bind, pure, Except.pure, throw, throwThe,
      MonadExceptOf.throw] at h
    grind
  · simp only [herror, bind, Except.bind] at h
    grind

theorem parsePaypalEvent_ne_conflict {urlparse : String → Option SplitUrl} {event : Json} :
    parsePaypalEvent urlparse event ≠ .error .duplicateEventConflict := by
  intro h
  simp only [parsePaypalEvent, bind, Except.bind] at h
  cases hvalid : validatePaypalEvent event with
  | error err =>
      rw [hvalid] at h
      rcases validatePaypalEvent_error hvalid with rfl | rfl | rfl <;> cases h
  | ok validated =>
      obtain ⟨envelope, resource⟩ := validated
      simp only [hvalid] at h
      cases resource with
      | capture => cases h
      | order => cases h
      | refund id status amount links orderId =>
          simp only [paypalEventOf, bind, Except.bind, pure, Except.pure] at h
          split at h
          · rename_i err herr
            cases h
            rcases refundedCaptureId_error herr with hkind | hkind <;> cases hkind
          · cases h

theorem verifyRazorpaySignature_ne_conflict {body : Body} {signature : String} :
    verifyRazorpaySignature parts secret body signature ≠ .error .duplicateEventConflict := by
  unfold verifyRazorpaySignature
  split_ifs
  · exact nofun
  · exact nofun
  · split <;> exact nofun

theorem parseRazorpayEvent_ne_conflict {body : Body} :
    parseRazorpayEvent parts body ≠ .error .duplicateEventConflict := by
  unfold parseRazorpayEvent
  split
  · exact nofun
  · exact nofun
  · split <;> exact nofun

theorem library_hash_ne_conflict {payload : Json} :
    (parts.library secret).generateDeterministicHash payload ≠
      .error .duplicateEventConflict := by
  simp only [WebhookParts.library]
  split <;> exact nofun

theorem library_loads_ne_conflict {body : Body} :
    (parts.library secret).loads body ≠ .error .duplicateEventConflict := by
  simp only [WebhookParts.library]
  cases parts.loads body <;> exact nofun

theorem library_loadsObject_ne_conflict {body : Body} :
    (parts.library secret).loadsObject body ≠ .error .duplicateEventConflict := by
  simp only [WebhookParts.library]
  split
  · exact nofun
  · split_ifs <;> exact nofun

private theorem bind_ne_error {α β : Type} {x : Except IngestionError α}
    {f : α → Except IngestionError β} {err : IngestionError} (hx : x ≠ .error err)
    (hf : ∀ a, f a ≠ .error err) : (x >>= f) ≠ .error err := by
  cases x with
  | error err' => exact fun h => hx (by simpa [bind, Except.bind] using h)
  | ok a => exact hf a

/-- Reading a delivery with the parsers raises no conflict. -/
theorem library_readsNoConflict {as : List (IngestionAction Body)}
    (hverified : ∀ i input, .advance i input ∈ as →
      input.verification ≠ .error .duplicateEventConflict) :
    ReadsNoConflict (parts.library secret) as := by
  intro d i input hmem
  cases d with
  | razorpay body signature sourceEventId =>
      refine bind_ne_error verifyRazorpaySignature_ne_conflict fun _ => ?_
      refine bind_ne_error parseRazorpayEvent_ne_conflict fun _ => ?_
      refine bind_ne_error library_loads_ne_conflict fun _ => ?_
      exact bind_ne_error library_hash_ne_conflict fun _ => nofun
  | paypal body =>
      refine bind_ne_error (hverified i input hmem) fun verified => ?_
      cases verified with
      | false => exact nofun
      | true =>
          refine bind_ne_error library_loadsObject_ne_conflict fun payload => ?_
          cases hparsed : parsePaypalEvent parts.urlparse payload with
          | error err =>
              have hne : err ≠ .duplicateEventConflict := fun h =>
                parsePaypalEvent_ne_conflict (h ▸ hparsed)
              simp only [WebhookParts.library, hparsed]
              cases err <;> simp_all [throw, throwThe, MonadExceptOf.throw, pure, Except.pure]
          | ok event =>
              have hread : (parts.library secret).parsePaypalEvent payload = .ok event := hparsed
              simp only [hread]
              exact bind_ne_error library_hash_ne_conflict fun _ => nofun

end Parsers

/-! ## Redeliveries -/

/-- In every run in which no Razorpay delivery loses its insert to another one, a conflict is
reported only for a stored payload that differs from the delivered one. Accepted deliveries
of one payload for each source identity end stored or as duplicates; each of them ends after
at most three steps, and some step is possible until all have ended. -/
theorem redelivered {as : List (IngestionAction Body)} {w : IngestionWorld Body Payload}
    (hrun : ingestionRun library as = some w) (hread : ReadsNoConflict library as)
    (hwins : Run.Guarded (ingestionProgram library).worldStep (fun w a => winsInserts w a = true)
      ⟨{}, [], []⟩ as)
    {i : ℕ} {d : Delivery Body} {s : IngestionSession Body Payload}
    (hd : (arrivals as)[i]? = some d) (hs : w.sessions[i]? = some s) :
    (s.proc = .failed (some .duplicateEventConflict) →
      ∃ input parsed, d.parse library input = .ok (some parsed) ∧
        ∃ r ∈ w.db.rawRecords, r.identity = parsed.identity ∧ r.rawPayload ≠ parsed.rawPayload) ∧
    (Run.Guarded (ingestionProgram library).worldStep (fun w a => accepts library w a = true)
        ⟨{}, [], []⟩ as → SameBodies library as → s.proc.ended = true →
      (∃ record event, s.proc = .stored d record event ∧ record ∈ w.db.rawRecords) ∨
        s.proc = .duplicate) ∧
    as.countP (advancesSession i) ≤ 3 ∧
    (s.proc.ended = false → ∀ input, ∃ j,
      ((ingestionProgram library).worldStep w (.advance j input)).isSome = true) := by
  have hfates := Fates.exec hrun hread hwins
  have hknows := (hfates.fate i d s hd hs).knows
  refine ⟨fun hconflict => ?_, fun haccepts hbodies hended => ?_, countP_advances_le hrun i,
    fun hended input => hfates.progress hs hended input⟩
  · rw [hconflict] at hknows
    obtain ⟨input, parsed, hparse, r, hr, hidentity, hhash⟩ := hknows
    refine ⟨input, parsed, hparse, r, hr, hidentity, fun hpayload => hhash ?_⟩
    obtain ⟨d', -, e, input', parsed', hparse', hrows'⟩ := hfates.own r hr
    obtain ⟨rfl, -⟩ := ParsedDelivery.rows_ok hrows'
    have hhash := (Delivery.parsed_of_parse hparse).hash
    have hhash' := (Delivery.parsed_of_parse hparse').hash
    rw [← hpayload] at hhash
    exact Except.ok.inj (hhash'.symm.trans hhash)
  · have haccepted := accepted_exec hrun hread hwins haccepts s (List.mem_of_getElem? hs)
    cases hproc : s.proc with
    | stored d' record event =>
        rw [hproc] at hknows
        obtain ⟨rfl, hmem⟩ := hknows
        exact .inl ⟨record, event, rfl, hmem⟩
    | duplicate => exact .inr rfl
    | failed err =>
        rw [hproc] at haccepted hknows
        obtain rfl : err = some .duplicateEventConflict := by
          cases err with
          | none => cases haccepted
          | some err => exact congrArg some (of_decide_eq_true haccepted)
        obtain ⟨input, parsed, hparse, r, hr, hidentity, hhash⟩ := hknows
        obtain ⟨d', hd', e, input', parsed', hparse', hrows'⟩ := hfates.own r hr
        obtain ⟨rfl, -⟩ := ParsedDelivery.rows_ok hrows'
        have hbody := hbodies d' hd' d (List.mem_of_getElem? hd) _ _ _ _ hparse' hparse hidentity
        exact absurd ((Delivery.parsed_of_parse hparse').payloadHash_eq
          (Delivery.parsed_of_parse hparse) hidentity hbody) hhash
    | ignored =>
        rw [hproc] at haccepted
        cases haccepted
    | received | saving | saved | resolving =>
        rw [hproc] at hended
        cases hended

namespace RedeliveryExample
open ContainmentExample

/-- A capture of 100 rupees. -/
def razorpayBody : String :=
  "\x7b\"account_id\":\"acc_1\",\"contains\":[\"payment\"],\"created_at\":1767607200," ++
    "\"entity\":\"event\",\"event\":\"payment.captured\",\"payload\":\x7b\"payment\":" ++
    "\x7b\"entity\":\x7b\"amount\":10000,\"created_at\":1767607200,\"currency\":\"INR\"," ++
    "\"entity\":\"payment\",\"id\":\"pay_1\",\"status\":\"captured\"\x7d\x7d\x7d\x7d"

/-- Its signature under the secret `whsec`. -/
def razorpaySignature : String :=
  "88f6e9703085ab9ae476a711d734b20363f775d74f729d0f9a51b32ae19242e0"

/-- A capture of 12.50 dollars, for an order. -/
def paypalBody : String :=
  "\x7b\"create_time\":\"2026-01-05T10:00:00Z\",\"event_type\":\"PAYMENT.CAPTURE.COMPLETED\"," ++
    "\"id\":\"WH-1\",\"resource\":\x7b\"amount\":\x7b\"currency_code\":\"USD\",\"value\":\"12.50\"\x7d," ++
    "\"id\":\"CAP-1\",\"status\":\"COMPLETED\",\"supplementary_data\":\x7b\"related_ids\":" ++
    "\x7b\"order_id\":\"O-1\"\x7d\x7d\x7d,\"resource_type\":\"capture\",\"resource_version\":\"2.0\"\x7d"

/-- What the two bodies decode to. -/
def decoded (body : String) : Option Json :=
  if body = razorpayBody then some <| object
    [("account_id", text "acc_1"), ("contains", .arr [text "payment"]),
      ("created_at", .int 1767607200), ("entity", text "event"),
      ("event", text "payment.captured"),
      ("payload", object [("payment", object [("entity", object
        [("amount", .int 10000), ("created_at", .int 1767607200), ("currency", text "INR"),
          ("entity", text "payment"), ("id", text "pay_1"), ("status", text "captured")])])])]
  else if body = paypalBody then some <| object
    [("create_time", text "2026-01-05T10:00:00Z"),
      ("event_type", text "PAYMENT.CAPTURE.COMPLETED"), ("id", text "WH-1"),
      ("resource", object
        [("amount", object [("currency_code", text "USD"), ("value", text "12.50")]),
          ("id", text "CAP-1"), ("status", text "COMPLETED"),
          ("supplementary_data", object [("related_ids", object [("order_id", text "O-1")])])]),
      ("resource_type", text "capture"), ("resource_version", text "2.0")]
  else none

/-- What is used of Python, on the two bodies and what they decode to. -/
def webhookParts {Body : Type} (textOf : Body → Option String) : WebhookParts Body where
  upper := String.toUpper
  fromIsoFormat s := if s = "2026-01-05T10:00:00Z" then some ⟨Time.seconds 1767607200, 0⟩ else none
  hmacSha256Hex secret body :=
    if secret = "whsec" ∧ textOf body = some razorpayBody then razorpaySignature
    else "30b8ae759085dd8ae9890354d6a941d37f53008e834e2e4a819d9fc155e99438"
  hmacSha256Hex_ascii secret body := by
    split <;> decide +kernel
  loads body := ((textOf body).bind decoded).elim (.error .jsonDecodeError) .ok
  loadsStandard body := ((textOf body).bind decoded).elim (.error .jsonDecodeError) .ok
  laxInt := Json.strictInt
  urlparse _ := none
  canonicalHash payload := some <|
    if (payload.get? "event_type").isSome then
      "3980683741e8517aa8ca7e56c06435d9f4dde18f9ae7e1d05ecce4bf5755483d"
    else "12893f45af528bca4826286d8f6b78ead207465ca699c37e9cafccd806a0432c"

def webhookLibrary : WebhookLibrary String Json := (webhookParts some).library "whsec"

/-- What its body and its signature yield. -/
def razorpayWebhooks : WebhookLibrary String String where
  upper := String.toUpper
  fromIsoFormat _ := none
  verifyRazorpaySignature body signature :=
    if body = razorpayBody ∧ signature = razorpaySignature then .ok ()
    else .error .invalidWebhookSignature
  loads body := .ok body
  loadsObject body := .ok body
  parseRazorpayEvent body :=
    if body = razorpayBody then
      .ok { event := "payment.captured",
            payment := { id := "pay_1", amount := 10000, currency := "INR", status := "captured" },
            createdAt := 1767607200 }
    else .error .schemaValidation
  parsePaypalEvent _ := .error .schemaValidation
  generateDeterministicHash _ :=
    .ok "12893f45af528bca4826286d8f6b78ead207465ca699c37e9cafccd806a0432c"

def capture : Delivery String := .razorpay razorpayBody razorpaySignature "evt_1"

/-- Two deliveries of the PayPal capture overlap, and two of the Razorpay capture follow one
another. -/
def overlap : List (IngestionAction String) :=
  [.arrive (.paypal paypalBody), .arrive (.paypal paypalBody), .arrive capture, .arrive capture,
    .advance 0 { recordId := 1, eventId := 1 }, .advance 1 { recordId := 2, eventId := 2 },
    .advance 0 {}, .advance 0 {}, .advance 1 {}, .advance 1 {},
    .advance 2 { recordId := 3, eventId := 3 }, .advance 2 {}, .advance 2 {},
    .advance 3 { recordId := 4, eventId := 4 }]

/-- The capture is delivered twice at once: both look it up before either inserts it. -/
def race : List (IngestionAction String) :=
  [.arrive capture, .arrive capture, .advance 0 { recordId := 1, eventId := 1 },
    .advance 1 { recordId := 2, eventId := 2 }, .advance 0 {}, .advance 0 {}, .advance 1 {}]

/-- The delivery has ended with a conflict. -/
def conflicted (p : DeliveryProc String String) : Bool :=
  match p with
  | .failed (some .duplicateEventConflict) => true
  | _ => false

end RedeliveryExample

open RedeliveryExample in
theorem redelivered_overlap : ∃ w s s', ingestionRun webhookLibrary overlap = some w ∧
    w.sessions[1]? = some s ∧ ((∃ record event,
      s.proc = .stored (.paypal paypalBody) record event ∧ record ∈ w.db.rawRecords) ∨
        s.proc = .duplicate) ∧
    w.sessions[3]? = some s' ∧ ((∃ record event,
      s'.proc = .stored capture record event ∧ record ∈ w.db.rawRecords) ∨
        s'.proc = .duplicate) := by
  have hrun : ((Run.execGuarded (ingestionProgram webhookLibrary).worldStep
      (fun w a => winsInserts w a = true ∧ accepts webhookLibrary w a = true)
      ⟨{}, [], []⟩ overlap).map fun w => w.sessions.map (·.proc.ended)) =
        some [true, true, true, true] := by decide +kernel
  obtain ⟨w, hw, hended⟩ := Option.map_eq_some_iff.mp hrun
  obtain ⟨hguarded, hexec⟩ := Run.execGuarded_eq_some.mp hw
  have hread : ReadsNoConflict webhookLibrary overlap := by
    refine library_readsNoConflict fun i input hmem => ?_
    have hverified : input.verification = .ok true := by
      simp only [overlap, List.mem_cons, reduceCtorEq, false_or, Action.advance.injEq,
        List.not_mem_nil, or_false] at hmem
      rcases hmem with ⟨-, rfl⟩ | ⟨-, rfl⟩ | ⟨-, rfl⟩ | ⟨-, rfl⟩ | ⟨-, rfl⟩ | ⟨-, rfl⟩ |
        ⟨-, rfl⟩ | ⟨-, rfl⟩ | ⟨-, rfl⟩ | ⟨-, rfl⟩ <;> rfl
    rw [hverified]
    exact nofun
  have hbodies : SameBodies webhookLibrary overlap := by
    have hdeliveries : ∀ d ∈ arrivals overlap, d = .paypal paypalBody ∨ d = capture := by
      rw [show arrivals overlap = [.paypal paypalBody, .paypal paypalBody, capture, capture]
        from rfl]
      simp
    intro d hd d' hd' input input' p p' hparse hparse' hidentity
    have hparsed := Delivery.parsed_of_parse hparse
    have hparsed' := Delivery.parsed_of_parse hparse'
    rcases hdeliveries d hd with rfl | rfl <;> rcases hdeliveries d' hd' with rfl | rfl
    · rfl
    · cases hparsed
      cases hparsed'
      exact absurd (congrArg Prod.fst hidentity).symm razorpay_ne_paypal
    · cases hparsed
      cases hparsed'
      exact absurd (congrArg Prod.fst hidentity) razorpay_ne_paypal
    · rfl
  have hsession : ∀ i < 4, ∃ s, w.sessions[i]? = some s ∧ s.proc.ended = true := by
    intro i hi
    have hlength : w.sessions.length = 4 := by simpa using congrArg List.length hended
    refine ⟨w.sessions[i], List.getElem?_eq_getElem (hlength ▸ hi), ?_⟩
    have hall : ∀ b ∈ w.sessions.map (·.proc.ended), b = true := by rw [hended]; decide
    exact hall _ (List.mem_map_of_mem (List.getElem_mem _))
  obtain ⟨s, hs, hsended⟩ := hsession 1 (by decide)
  obtain ⟨s', hs', hsended'⟩ := hsession 3 (by decide)
  have hwins := hguarded.mono fun _ _ h => h.1
  have haccepts := hguarded.mono fun _ _ h => h.2
  have hends := (redelivered hexec hread hwins
    (show (arrivals overlap)[1]? = some (.paypal paypalBody) from rfl) hs).2.1
  have hends' := (redelivered hexec hread hwins
    (show (arrivals overlap)[3]? = some capture from rfl) hs').2.1
  exact ⟨w, s, s', hexec, hs, hends haccepts hbodies hsended, hs',
    hends' haccepts hbodies hsended'⟩

open RedeliveryExample in
/-- A Razorpay delivery that loses the race of two deliveries of one accepted payload reports
a conflict, although the stored payload is its own. -/
theorem redelivered_race : ∃ w, ingestionRun razorpayWebhooks race = some w ∧
    Run.Guarded (ingestionProgram razorpayWebhooks).worldStep
      (fun w a => accepts razorpayWebhooks w a = true) ⟨{}, [], []⟩ race ∧
    arrivals race = [capture, capture] ∧ w.sessions.map (conflicted ·.proc) = [false, true] ∧
    w.db.rawRecords.map (·.rawPayload) = [razorpayBody] := by
  have hrun : ((Run.execGuarded (ingestionProgram razorpayWebhooks).worldStep
      (fun w a => accepts razorpayWebhooks w a = true) ⟨{}, [], []⟩ race).map fun w =>
        decide (w.sessions.map (conflicted ·.proc) = [false, true] ∧
          w.db.rawRecords.map (·.rawPayload) = [razorpayBody])) = some true := by decide +kernel
  obtain ⟨w, hw, hfacts⟩ := Option.map_eq_some_iff.mp hrun
  obtain ⟨hguarded, hexec⟩ := Run.execGuarded_eq_some.mp hw
  obtain ⟨hconflict, hpayload⟩ := of_decide_eq_true hfacts
  exact ⟨w, hexec, hguarded, rfl, hconflict, hpayload⟩

end RevenueRecovery
