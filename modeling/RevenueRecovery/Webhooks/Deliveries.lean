import RevenueRecovery.Webhooks
import RevenueRecovery.Ingestion.Redelivery

/-!
# What a delivery can account for

Whatever other deliveries do meanwhile, a delivery that is stored has its rows in the store,
and a duplicate has a record of its source identity and its payload there.

## Main definitions
* `Account` : what holds of a session of a delivery, wherever it stands.
* `Account.worldStep` : it holds in every run.
-/
namespace RevenueRecovery

open Transaction

variable {Body Payload : Type} {library : WebhookLibrary Body Payload}
  {db db' : IngestionStore Payload} {d : Delivery Body} {s : IngestionSession Body Payload}

/-- A raw record has the identity and the digest that are read from the delivery. -/
def AlreadyStored (library : WebhookLibrary Body Payload) (db : IngestionStore Payload)
    (d : Delivery Body) : Prop :=
  ∃ input parsed, d.parse library input = .ok (some parsed) ∧
    ∃ r ∈ db.rawRecords, r.identity = parsed.identity ∧ r.payloadHash = parsed.payloadHash

/-- What a delivery knows where it stands. -/
def Accounts (library : WebhookLibrary Body Payload) (db : IngestionStore Payload)
    (d : Delivery Body) : DeliveryProc Body Payload → Prop
  | .received d' => d' = d
  | .saving d' record event => d' = d ∧ StoredDelivery.IsOwn library ⟨d, record, event⟩
  | .saved d' record event => d' = d ∧ StoredDelivery.IsOwn library ⟨d, record, event⟩
  | .stored d' record event => d' = d ∧ StoredDelivery.IsOwn library ⟨d, record, event⟩ ∧
      record ∈ db.rawRecords ∧ event ∈ db.events
  | .resolving record => ∃ event, StoredDelivery.IsOwn library ⟨d, record, event⟩
  | .duplicate => AlreadyStored library db d
  | .ignored => ∃ input, d.parse library input = .ok none
  | .failed _ => True

/-- The session has written its own rows at most, and has read records that are stored. -/
structure Account (library : WebhookLibrary Body Payload) (db : IngestionStore Payload)
    (d : Delivery Body) (s : IngestionSession Body Payload) : Prop where
  accounts : Accounts library db d s.proc
  pending : s.pending = s.proc.writes
  views : s.proc.saved? = none → ∀ v ∈ s.views, v.rawRecords ⊆ db.rawRecords

/-- Rows are added. -/
structure IngestionStore.Grows (db db' : IngestionStore Payload) : Prop where
  records : db.rawRecords ⊆ db'.rawRecords
  events : db.events ⊆ db'.events

theorem IngestionStore.Grows.refl (db : IngestionStore Payload) : db.Grows db :=
  ⟨List.Subset.refl _, List.Subset.refl _⟩

theorem Accounts.mono {p : DeliveryProc Body Payload} (h : Accounts library db d p)
    (hdb : db.Grows db') : Accounts library db' d p := by
  cases p with
  | stored d' record event =>
      obtain ⟨hd, hown, hrecord, hevent⟩ := h
      exact ⟨hd, hown, hdb.records hrecord, hdb.events hevent⟩
  | duplicate =>
      obtain ⟨input, parsed, hparse, r, hr, hsame⟩ := h
      exact ⟨input, parsed, hparse, r, hdb.records hr, hsame⟩
  | _ => exact h

theorem Account.mono (h : Account library db d s) (hdb : db.Grows db') :
    Account library db' d s where
  accounts := h.accounts.mono hdb
  pending := h.pending
  views hsaved v hv := List.Subset.trans (h.views hsaved v hv) hdb.records

theorem Account.fresh {p : DeliveryProc Body Payload} (h : Accounts library db d p)
    (hwrites : p.writes = []) : Account library db d (.fresh p) := ⟨h, hwrites.symm, by simp⟩

theorem Account.onError (h : Account library db d s) :
    Account library db d (.fresh s.proc.onError) := by
  obtain ⟨p, pending, locks, views⟩ := s
  cases p with
  | received | saving | saved | resolving => exact .fresh trivial rfl
  | stored | duplicate | ignored | failed => exact .fresh h.accounts rfl

theorem Account.view (h : Account library db d s) (hsaved : s.proc.saved? = none) :
    (ingestionProgram library).view db s = db := by
  rw [Program.view, h.pending, DeliveryProc.writes_of_saved?_eq_none hsaved]
  rfl

theorem Account.reads (h : Account library db d s) (hsaved : s.proc.saved? = none) (k : ℕ) :
    ((ingestionProgram library).reads db s k).rawRecords ⊆ db.rawRecords := by
  rcases (ingestionProgram library).reads_cases db s k with hview | hview
  · exact h.views hsaved _ hview
  · rw [hview, h.view hsaved]
    exact List.Subset.refl _

theorem Account.looked (h : Account library db d s) :
    Account library db d ((ingestionProgram library).looked db s) where
  accounts := h.accounts
  pending := h.pending
  views hsaved v hv := by
    rcases List.mem_append.mp hv with hv | hv
    · exact h.views hsaved v hv
    · obtain rfl := List.mem_singleton.mp hv
      rw [h.view hsaved]
      exact List.Subset.refl _

/-- A stored record decides about a delivery of its identity. -/
theorem accounts_resolveExisting {parsed : ParsedDelivery Payload} {input : DeliveryInput}
    {r : RawIngestionRecord Payload} (hparse : d.parse library input = .ok (some parsed))
    (hr : r ∈ db.rawRecords) (hidentity : r.identity = parsed.identity) :
    Accounts library db d (resolveExisting r parsed.payloadHash) ∧
      (resolveExisting r parsed.payloadHash : DeliveryProc Body Payload).writes = [] := by
  unfold resolveExisting
  split
  · rename_i hhash
    exact ⟨⟨input, parsed, hparse, r, hr, hidentity, hhash⟩, rfl⟩
  · exact ⟨trivial, rfl⟩

theorem accounts_onExisting {parsed : ParsedDelivery Payload} {input : DeliveryInput}
    {r : RawIngestionRecord Payload} (hparse : d.parse library input = .ok (some parsed))
    (hr : r ∈ db.rawRecords) (hidentity : r.identity = parsed.identity) :
    Accounts library db d (onExisting library d parsed input r) ∧
      (onExisting library d parsed input r).writes = [] := by
  unfold onExisting
  split
  · rename_i hsame
    obtain ⟨-, hhash⟩ : d.isPaypal = false ∧ r.payloadHash = parsed.payloadHash := by
      simpa using hsame
    split
    · exact ⟨⟨input, parsed, hparse, r, hr, hidentity, hhash⟩, rfl⟩
    · exact ⟨trivial, rfl⟩
  · exact accounts_resolveExisting hparse hr hidentity

/-- What a delivery that rolls back accounts for. -/
theorem Account.rolledBack {input : DeliveryInput} {next : DeliveryProc Body Payload}
    (h : Account library db d s)
    (hp : (ingestionProgram library).outcome db s input = some (.rollback next)) :
    Accounts library db d next ∧ next.writes = [] := by
  have hreads := h.reads
  obtain ⟨p, pending, locks, views⟩ := s
  have hknows : Accounts library db d p := h.accounts
  cases deliveryStepped hp with
  | refused => exact ⟨trivial, rfl⟩
  | ignored hparse =>
      obtain rfl := hknows
      exact ⟨⟨input, hparse⟩, rfl⟩
  | known hparse hfind =>
      obtain rfl := hknows
      obtain ⟨hmem, hidentity⟩ := IngestionStore.getRawRecord_some hfind
      exact accounts_onExisting hparse (hreads rfl 0 hmem) hidentity
  | unnormalized => exact ⟨trivial, rfl⟩
  | @lost d' record event hconflict =>
      obtain ⟨rfl, hown⟩ := hknows
      unfold onConflict
      split
      · exact ⟨⟨event, hown⟩, rfl⟩
      · exact ⟨trivial, rfl⟩
  | resolved hfind =>
      obtain ⟨event, input', parsed, hparse, hrows⟩ := hknows
      obtain ⟨rfl, -⟩ := ParsedDelivery.rows_ok hrows
      obtain ⟨hmem, hidentity⟩ := IngestionStore.getRawRecord_some hfind
      exact accounts_resolveExisting hparse (hreads rfl 0 hmem) hidentity
  | unresolved => exact ⟨trivial, rfl⟩

/-- What a delivery that goes on within its transaction accounts for. -/
theorem Account.wrote {input : DeliveryInput} {ws : List (IngestionWrite Payload)}
    {next : DeliveryProc Body Payload} (h : Account library db d s)
    (hp : (ingestionProgram library).outcome db s input = some (.write ws next)) :
    Account library db d (s.wrote ws next) := by
  obtain ⟨p, pending, locks, views⟩ := s
  have hknows : Accounts library db d p := h.accounts
  obtain rfl : pending = p.writes := h.pending
  cases deliveryStepped hp with
  | parsed hparse hrows =>
      obtain rfl := hknows
      exact ⟨⟨rfl, input, _, hparse, hrows⟩, rfl, by simp [Session.wrote]⟩
  | inserted =>
      obtain ⟨rfl, hown⟩ := hknows
      exact ⟨⟨rfl, hown⟩, rfl, by simp [Session.wrote]⟩

/-- A commit adds the rows of its delivery. -/
theorem Account.committed {input : DeliveryInput} {next : DeliveryProc Body Payload}
    (h : Account library db d s)
    (hp : (ingestionProgram library).outcome db s input = some (.commit next)) :
    ∃ record event, s.proc = .saved d record event ∧ next = .stored d record event ∧
      StoredDelivery.IsOwn library ⟨d, record, event⟩ ∧
      ((ingestionProgram library).view db s).rawRecords = db.rawRecords ++ [record] ∧
      ((ingestionProgram library).view db s).events = db.events ++ [event] := by
  obtain ⟨p, pending, locks, views⟩ := s
  have hknows : Accounts library db d p := h.accounts
  obtain rfl : pending = p.writes := h.pending
  cases deliveryStepped hp with
  | @committed d' record event =>
      obtain ⟨rfl, hown⟩ := hknows
      exact ⟨record, event, rfl, rfl, hown, rfl, rfl⟩

section World
variable {w w' : IngestionWorld Body Payload} {a : IngestionAction Body} {k : ℕ}

/-- Rows stay. -/
theorem ingestion_grows (ha : (ingestionProgram library).worldStep w a = some w')
    (hold : ∀ s ∈ w.sessions, ∃ d, Account library w.db d s) : w.db.Grows w'.db := by
  cases Program.stepped ha with
  | arrived harr =>
      cases harr
      exact .refl _
  | @committed i input s next hs hp =>
      obtain ⟨d, hd⟩ := hold s (List.mem_of_getElem? hs)
      obtain ⟨record, event, -, -, -, hrecords, hevents⟩ := hd.committed hp
      exact ⟨hrecords ▸ List.subset_append_left _ _, hevents ▸ List.subset_append_left _ _⟩
  | _ => exact .refl _

/-- A session keeps accounting for its delivery. -/
theorem Account.worldStep (ha : (ingestionProgram library).worldStep w a = some w')
    (hold : ∀ s ∈ w.sessions, ∃ d, Account library w.db d s)
    (hs : w.sessions[k]? = some s) (h : Account library w.db d s) :
    ∃ s', w'.sessions[k]? = some s' ∧ Account library w'.db d s' := by
  have hgrows := ingestion_grows ha hold
  have hset : ∀ {i : ℕ} {t t' : IngestionSession Body Payload}, w.sessions[i]? = some t →
      (Account library w.db d t → Account library w'.db d t') →
      ∃ s', (w.sessions.set i t')[k]? = some s' ∧ Account library w'.db d s' := by
    intro i t t' ht hnext
    by_cases hik : i = k
    · subst hik
      obtain rfl : s = t := Option.some.inj (hs.symm.trans ht)
      exact ⟨t', by simp [(List.getElem?_eq_some_iff.mp hs).1], hnext h⟩
    · exact ⟨s, by rw [List.getElem?_set_ne hik, hs], h.mono hgrows⟩
  cases Program.stepped ha with
  | arrived harr =>
      have hlt : k < w.sessions.length := (List.getElem?_eq_some_iff.mp hs).1
      exact ⟨s, by rw [List.getElem?_append_left hlt, hs], h.mono hgrows⟩
  | looked ht => exact hset ht fun hd => hd.looked
  | aborted ht => exact hset ht fun hd => hd.onError
  | @locked i input t key next ht hp =>
      obtain ⟨p, pending, locks, views⟩ := t
      cases deliveryStepped hp
  | wrote ht hp => exact hset ht fun hd => hd.wrote hp
  | raised ht => exact hset ht fun hd => hd.onError
  | @called i input t effect next ht hp =>
      obtain ⟨p, pending, locks, views⟩ := t
      cases deliveryStepped hp
  | committed ht hp =>
      refine hset ht fun hd => ?_
      obtain ⟨record, event, -, rfl, hown, hrecords, hevents⟩ := hd.committed hp
      refine .fresh ⟨rfl, hown, ?_, ?_⟩ rfl
      · exact hrecords ▸ List.mem_append_right _ (List.mem_singleton_self _)
      · exact hevents ▸ List.mem_append_right _ (List.mem_singleton_self _)
  | rolledBack ht hp =>
      refine hset ht fun hd => ?_
      obtain ⟨hnext, hwrites⟩ := hd.rolledBack hp
      exact .fresh hnext hwrites

end World

end RevenueRecovery
