import RevenueRecovery.Analytics
import RevenueRecovery.Lib.Transaction

/-!
# Stage 2: concurrent recalculations

The statements of a recalculation of one window: the events are read, the baseline of each
snapshot is read, the snapshots are upserted row by row, and the transaction commits.
Events are committed at any time. The upsert is unconditional, so a recalculation that
read the events early and commits late overwrites the figures of one that read more. As
long as none commits after one that had read more, the stored figures end up those of
all events.

## Main definitions
* `WindowProc`, `windowStep` : a recalculation, one statement a step.
* `windowProgram`, `windowRun` : any interleaving of recalculations and new events.
* `UpToDate` : the snapshots of the window carry the figures of all its events.
* `NotStale` : a recalculation commits no figures of fewer events than one before it.
-/
namespace RevenueRecovery

open Transaction

/-! ## The program -/

/-- The events and the snapshots. -/
structure WindowTables where
  events : List PaymentEvent := []
  snapshots : List PaymentHealthSnapshot := []
deriving DecidableEq

inductive WindowWrite
  | insertEvent (row : PaymentEvent)
  | upsertSnapshot (row : PaymentHealthSnapshot)
deriving DecidableEq

/-- Where a recalculation stands, with the events it read. -/
inductive WindowProc
  | start
  | baselines (events : List PaymentEvent) (done todo : List PaymentHealthSnapshot)
  | upsert (events : List PaymentEvent) (queue : List PaymentHealthSnapshot)
  | finished (events : List PaymentEvent)
  | failed
deriving DecidableEq

/-- New events are committed; recalculations start. -/
inductive WindowArrival
  | event (e : PaymentEvent)
  | recalculate
deriving DecidableEq

abbrev WindowOutcome := Outcome WindowWrite Unit Unit WindowProc
abbrev WindowSession := Session WindowTables WindowWrite Unit WindowProc
abbrev WindowWorld := World WindowTables WindowWrite Unit Unit WindowProc
abbrev WindowAction := Action Unit WindowArrival

def WindowTables.apply (tables : WindowTables) : WindowWrite → WindowTables
  | .insertEvent row => { tables with events := tables.events ++ [row] }
  | .upsertSnapshot row => { tables with snapshots := upsertSnapshots tables.snapshots [row] }

/-- The keys of `payment_events`; an upsert violates nothing. -/
def WindowTables.violates (tables : WindowTables) : WindowWrite → Bool
  | .insertEvent row => tables.events.any row.sameIdentity
  | .upsertSnapshot _ => false

/-- Upserts of one segment compete for its row. -/
def WindowWrite.clashes : WindowWrite → WindowWrite → Bool
  | .insertEvent a, .insertEvent b => a.sameIdentity b
  | .upsertSnapshot a, .upsertSnapshot b => a.identity == b.identity
  | _, _ => false

theorem WindowWrite.clashes_symm (a b : WindowWrite) : a.clashes b = b.clashes a := by
  cases a <;> cases b <;> simp only [clashes]
  · exact PaymentEvent.sameIdentity_comm _ _
  · exact Bool.beq_comm

section Program
variable (windowStart windowEnd : Time)

/-- The next statement of a recalculation. -/
def windowStep (now : WindowTables) : WindowProc → Option WindowOutcome
  | .start =>
      let events := getEventsInWindow now.events windowStart windowEnd
      some (.write [] (.baselines events [] (calculateHealthMetricsForWindow events windowStart
        windowEnd minTransactionThreshold)))
  | .baselines events done (s :: todo) =>
      some (.write [] (.baselines events (done ++ [withBaseline now.snapshots s]) todo))
  | .baselines events done [] => some (.write [] (.upsert events done))
  | .upsert events (s :: queue) => some (.write [.upsertSnapshot s] (.upsert events queue))
  | .upsert events [] => some (.commit (.finished events))
  | .finished _ => none
  | .failed => none

/-- A recalculation that dies is rolled back. -/
def WindowProc.onError : WindowProc → WindowProc
  | .finished events => .finished events
  | _ => .failed

def windowProgram : Program WindowTables WindowWrite Unit Unit WindowProc Unit WindowArrival where
  apply := WindowTables.apply
  violates := WindowTables.violates
  clashes := WindowWrite.clashes
  clashes_symm := WindowWrite.clashes_symm
  step p _ _ now := windowStep windowStart windowEnd now p
  onError := WindowProc.onError
  arrive
    | .event e, _ => some ([.insertEvent e], [])
    | .recalculate, _ => some ([], [.start])

/-- Any interleaving of recalculations of the window and new events, from empty tables. -/
def windowRun (as : List WindowAction) : Option WindowWorld :=
  Run.exec (windowProgram windowStart windowEnd).worldStep ⟨{}, [], []⟩ as

end Program

/-! ## What the recalculations should do -/

/-- The figures of a snapshot, without its baseline. -/
def PaymentHealthSnapshot.figures (s : PaymentHealthSnapshot) : PaymentHealthSnapshot :=
  { s with baselineSuccessRate := none }

@[simp] theorem PaymentHealthSnapshot.identity_figures (s : PaymentHealthSnapshot) :
    s.figures.identity = s.identity := rfl

/-- The snapshot table holds the figures of the events: one row for each segment, with
their counts, rates and amounts. -/
def Counted (snapshots : List PaymentHealthSnapshot) (events : List PaymentEvent)
    (windowStart windowEnd : Time) : Prop :=
  ∀ expected ∈ calculateHealthMetricsForWindow events windowStart windowEnd
      minTransactionThreshold,
    (∃ s ∈ snapshots, s.identity = expected.identity) ∧
      ∀ s ∈ snapshots, s.identity = expected.identity → s.figures = expected

/-- When the window has events, the snapshot of every segment present in it carries the
figures computed from all of them. -/
def UpToDate (tables : WindowTables) (windowStart windowEnd : Time) : Prop :=
  getEventsInWindow tables.events windowStart windowEnd ≠ [] →
    Counted tables.snapshots (getEventsInWindow tables.events windowStart windowEnd)
      windowStart windowEnd

/-- The event is one Stage 2 counts in the window. -/
def InWindow (windowStart windowEnd : Time) (e : PaymentEvent) : Prop :=
  windowStart ≤ e.timestamp ∧ e.timestamp < windowEnd ∧ e.inRazorpayPipeline = true

instance (windowStart windowEnd : Time) (e : PaymentEvent) :
    Decidable (InWindow windowStart windowEnd e) :=
  inferInstanceAs (Decidable (_ ∧ _ ∧ _))

theorem mem_getEventsInWindow {events : List PaymentEvent} {windowStart windowEnd : Time}
    {e : PaymentEvent} : e ∈ getEventsInWindow events windowStart windowEnd ↔
      e ∈ events ∧ InWindow windowStart windowEnd e := by
  simp [getEventsInWindow, InWindow]

/-- Every commit of an event of the window is followed by a recalculation. -/
def Followed (windowStart windowEnd : Time) : List WindowAction → Prop
  | [] => True
  | .arrive (.event e) :: as =>
      (InWindow windowStart windowEnd e → .arrive .recalculate ∈ as) ∧
        Followed windowStart windowEnd as
  | _ :: as => Followed windowStart windowEnd as

theorem Followed.of_append {windowStart windowEnd : Time} {as₁ as₂ : List WindowAction}
    (h : Followed windowStart windowEnd (as₁ ++ as₂)) : Followed windowStart windowEnd as₂ := by
  induction as₁ with
  | nil => exact h
  | cons a as₁ ih =>
      rw [List.cons_append] at h
      unfold Followed at h
      split at h
      · contradiction
      · rename_i heq
        obtain ⟨-, rfl⟩ := List.cons.inj heq
        exact ih h.2
      · rename_i heq
        obtain ⟨-, rfl⟩ := List.cons.inj heq
        exact ih h

/-- The events of a recalculation that is about to commit. -/
def WindowProc.committing? : WindowProc → Option (List PaymentEvent)
  | .upsert events [] => some events
  | _ => none

/-- The events of a recalculation that has committed. -/
def WindowProc.finished? : WindowProc → Option (List PaymentEvent)
  | .finished events => some events
  | _ => none

@[simp] theorem WindowProc.finished?_eq_some {p : WindowProc} {events : List PaymentEvent} :
    p.finished? = some events ↔ p = .finished events := by
  cases p <;> simp [finished?]

/-- Every recalculation has finished. -/
def AllFinished (w : WindowWorld) : Prop := ∀ s ∈ w.sessions, s.proc.finished?.isSome

instance (w : WindowWorld) : Decidable (AllFinished w) :=
  inferInstanceAs (Decidable (∀ s ∈ w.sessions, _))

/-- The step commits no figures that miss an event which a finished recalculation read. -/
def NotStale (w : WindowWorld) : WindowAction → Prop
  | .advance i _ => ∀ s ∈ w.sessions[i]?, ∀ events ∈ s.proc.committing?,
      ∀ t ∈ w.sessions, ∀ earlier ∈ t.proc.finished?, earlier ⊆ events
  | _ => True

instance (w : WindowWorld) (a : WindowAction) : Decidable (NotStale w a) :=
  match a with
  | .advance i _ => inferInstanceAs (Decidable (∀ s ∈ w.sessions[i]?,
      ∀ events ∈ s.proc.committing?, ∀ t ∈ w.sessions, ∀ earlier ∈ t.proc.finished?,
        earlier ⊆ events))
  | .arrive _ | .look _ | .abort _ => inferInstanceAs (Decidable True)

/-! ## Steps -/

section Steps
variable {windowStart windowEnd : Time}

/-- What one step of a recalculation can be. -/
inductive WindowStepped (windowStart windowEnd : Time) (now : WindowTables) :
    WindowProc → WindowOutcome → Prop
  | read : WindowStepped windowStart windowEnd now .start
      (.write [] (.baselines (getEventsInWindow now.events windowStart windowEnd) []
        (calculateHealthMetricsForWindow (getEventsInWindow now.events windowStart windowEnd)
          windowStart windowEnd minTransactionThreshold)))
  | baseline {events done s todo} :
      WindowStepped windowStart windowEnd now (.baselines events done (s :: todo))
        (.write [] (.baselines events (done ++ [withBaseline now.snapshots s]) todo))
  | calculated {events done} :
      WindowStepped windowStart windowEnd now (.baselines events done [])
        (.write [] (.upsert events done))
  | upserted {events s queue} :
      WindowStepped windowStart windowEnd now (.upsert events (s :: queue))
        (.write [.upsertSnapshot s] (.upsert events queue))
  | committed {events} :
      WindowStepped windowStart windowEnd now (.upsert events []) (.commit (.finished events))

theorem windowStepped {db : WindowTables} {s : WindowSession} {input : Unit} {o : WindowOutcome}
    (h : (windowProgram windowStart windowEnd).outcome db s input = some o) :
    WindowStepped windowStart windowEnd ((windowProgram windowStart windowEnd).view db s)
      s.proc o := by
  have hstep : windowStep windowStart windowEnd
    ((windowProgram windowStart windowEnd).view db s) s.proc = some o := h
  cases hp : s.proc with
  | start =>
      simp only [hp, windowStep, Option.some.injEq] at hstep
      subst hstep
      exact .read
  | baselines events done todo =>
      cases todo <;> simp only [hp, windowStep, Option.some.injEq] at hstep <;> subst hstep
      · exact .calculated
      · exact .baseline
  | upsert events queue =>
      cases queue <;> simp only [hp, windowStep, Option.some.injEq] at hstep <;> subst hstep
      · exact .committed
      · exact .upserted
  | finished events => simp [hp, windowStep] at hstep
  | failed => simp [hp, windowStep] at hstep

theorem applyAll_upsertSnapshot (db : WindowTables) (rows : List PaymentHealthSnapshot) :
    (windowProgram windowStart windowEnd).applyAll db (rows.map .upsertSnapshot) =
      { db with snapshots := upsertSnapshots db.snapshots rows } := by
  induction rows generalizing db with
  | nil => rfl
  | cons row rows ih =>
      rw [List.map_cons, Program.applyAll_cons, ih]
      rfl

/-! ## The state of a recalculation -/

theorem figures_calculateHealthMetricsForWindow (events : List PaymentEvent) :
    (calculateHealthMetricsForWindow events windowStart windowEnd
      minTransactionThreshold).map (·.figures) =
    calculateHealthMetricsForWindow events windowStart windowEnd minTransactionThreshold := by
  conv_rhs => rw [← List.map_id (calculateHealthMetricsForWindow _ _ _ _)]
  refine List.map_congr_left fun s hs => ?_
  simp only [calculateHealthMetricsForWindow, List.mem_flatMap, List.mem_map] at hs
  obtain ⟨dimension, -, value, -, rfl⟩ := hs
  rfl

/-- What holds of a recalculation by where it stands: the events it read are the first ones
of the window, and its snapshots have their figures. -/
def WindowState (windowStart windowEnd : Time) (db : WindowTables) (s : WindowSession) : Prop :=
  match s.proc with
  | .start | .failed => s.pending = []
  | .baselines events done todo => s.pending = [] ∧
      events <+: getEventsInWindow db.events windowStart windowEnd ∧
      (done ++ todo).map (·.figures) =
        calculateHealthMetricsForWindow events windowStart windowEnd minTransactionThreshold
  | .upsert events queue => ∃ upserted, s.pending = upserted.map .upsertSnapshot ∧
      events <+: getEventsInWindow db.events windowStart windowEnd ∧
      (upserted ++ queue).map (·.figures) =
        calculateHealthMetricsForWindow events windowStart windowEnd minTransactionThreshold
  | .finished events => s.pending = [] ∧
      events <+: getEventsInWindow db.events windowStart windowEnd

theorem WindowState.view_events {db : WindowTables} {s : WindowSession}
    (h : WindowState windowStart windowEnd db s) :
    ((windowProgram windowStart windowEnd).view db s).events = db.events := by
  have hnil : s.pending = [] →
      ((windowProgram windowStart windowEnd).view db s).events = db.events := by
    intro hpending
    rw [Program.view, hpending]
    rfl
  unfold WindowState at h
  cases hp : s.proc with
  | start => exact hnil (by simpa [hp] using h)
  | failed => exact hnil (by simpa [hp] using h)
  | baselines events done todo =>
      simp only [hp] at h
      exact hnil h.1
  | finished events =>
      simp only [hp] at h
      exact hnil h.1
  | upsert events queue =>
      simp only [hp] at h
      obtain ⟨upserted, hpending, -⟩ := h
      rw [Program.view, hpending, applyAll_upsertSnapshot]

/-- Further events, and other snapshots, keep the state of a recalculation. -/
theorem WindowState.mono {db db' : WindowTables} {s : WindowSession}
    (h : WindowState windowStart windowEnd db s) (hevents : db.events <+: db'.events) :
    WindowState windowStart windowEnd db' s := by
  have hwindow : getEventsInWindow db.events windowStart windowEnd <+:
      getEventsInWindow db'.events windowStart windowEnd := hevents.filter _
  unfold WindowState at h ⊢
  cases hp : s.proc with
  | start => simpa [hp] using h
  | failed => simpa [hp] using h
  | baselines events done todo =>
      simp only [hp] at h ⊢
      exact ⟨h.1, h.2.1.trans hwindow, h.2.2⟩
  | finished events =>
      simp only [hp] at h ⊢
      exact ⟨h.1, h.2.trans hwindow⟩
  | upsert events queue =>
      simp only [hp] at h ⊢
      obtain ⟨upserted, hpending, hread, hfigures⟩ := h
      exact ⟨upserted, hpending, hread.trans hwindow, hfigures⟩

/-- The obligations: events are stored once, and each recalculation keeps its state. -/
theorem windowInvariant : (windowProgram windowStart windowEnd).Invariant (fun _ _ _ => True)
    (fun db => db.events.Nodup) (WindowState windowStart windowEnd) where
  arrive {db x ws ps} hG harr hok := by
    cases x with
    | recalculate =>
        obtain ⟨rfl, rfl⟩ := Prod.mk.inj (Option.some.inj harr).symm
        refine ⟨hG, fun s hs _ => hs, fun p hp => ?_⟩
        obtain rfl := List.mem_singleton.mp hp
        rfl
    | event e =>
        obtain ⟨rfl, rfl⟩ := Prod.mk.inj (Option.some.inj harr).symm
        have hfresh : e ∉ db.events := by
          intro he
          have hany : db.events.any e.sameIdentity = true :=
            List.any_eq_true.mpr ⟨e, he, by simp [PaymentEvent.sameIdentity]⟩
          have hnone : db.events.any e.sameIdentity = false := (Bool.or_eq_false_iff.mp hok).1
          simp [hany] at hnone
        refine ⟨List.nodup_append.mpr ⟨hG, by simp, ?_⟩, fun s hs _ => ?_, by simp⟩
        · intro a ha b hb
          obtain rfl := List.mem_singleton.mp hb
          exact fun hab => hfresh (hab ▸ ha)
        · exact hs.mono (List.prefix_append _ _)
  look _ hL := hL
  abort {db s} _ hL := by
    cases hp : s.proc <;> simp only [windowProgram, WindowProc.onError, WindowState,
      Session.proc_fresh, Session.pending_fresh]
    simp only [WindowState, hp] at hL
    exact ⟨trivial, hL.2⟩
  lock {db s input key next} _ _ _ ho := by
    have hstep := windowStepped ho
    generalize hlock : Outcome.lock key next = o at hstep
    generalize s.proc = p at hstep
    cases hstep <;> cases hlock
  write {db s input ws next} _ hL _ ho _ := by
    have hstep := windowStepped ho
    have hevents := hL.view_events
    generalize hwrite : Outcome.write ws next = o at hstep
    generalize hproc : s.proc = p at hstep
    unfold WindowState at hL
    rw [hproc] at hL
    cases hstep with
    | read =>
        cases hwrite
        refine ⟨by simpa [Session.wrote] using hL, ?_, ?_⟩
        · exact hevents ▸ List.prefix_rfl
        · exact figures_calculateHealthMetricsForWindow _
    | @baseline events done snapshot todo =>
        cases hwrite
        obtain ⟨hpending, hread, hfigures⟩ := hL
        refine ⟨by simpa [Session.wrote] using hpending, hread, ?_⟩
        rw [← hfigures]
        simp [PaymentHealthSnapshot.figures, withBaseline]
    | @calculated events done =>
        cases hwrite
        obtain ⟨hpending, hread, hfigures⟩ := hL
        exact ⟨[], by simpa [Session.wrote] using hpending, hread, by simpa using hfigures⟩
    | @upserted events snapshot queue =>
        cases hwrite
        obtain ⟨upserted, hpending, hread, hfigures⟩ := hL
        exact ⟨upserted ++ [snapshot], by simp [Session.wrote, hpending], hread,
          by simpa using hfigures⟩
    | _ => cases hwrite
  call {db s input effect next} _ _ _ ho := by
    have hstep := windowStepped ho
    generalize hcall : Outcome.call effect next = o at hstep
    generalize s.proc = p at hstep
    cases hstep <;> cases hcall
  rollback {db s input next} _ _ _ ho := by
    have hstep := windowStepped ho
    generalize hrollback : Outcome.rollback next = o at hstep
    generalize s.proc = p at hstep
    cases hstep <;> cases hrollback
  commit {db s input next} hG hL _ ho := by
    have hstep := windowStepped ho
    have hevents := hL.view_events
    generalize hcommit : Outcome.commit next = o at hstep
    generalize hproc : s.proc = p at hstep
    refine ⟨by rw [hevents]; exact hG, ?_, fun t ht _ => ht.mono (hevents ▸ List.prefix_refl _)⟩
    unfold WindowState at hL
    rw [hproc] at hL
    cases hstep with
    | @committed events =>
        cases hcommit
        obtain ⟨upserted, hpending, hread, hfigures⟩ := hL
        exact ⟨rfl, by rw [hevents]; exact hread⟩
    | _ => cases hcommit

/-- The invariant of a world of recalculations. -/
abbrev WindowGood (windowStart windowEnd : Time) (w : WindowWorld) : Prop :=
  (windowProgram windowStart windowEnd).Good (fun db => db.events.Nodup)
    (WindowState windowStart windowEnd) w

theorem WindowGood.step {w w' : WindowWorld} {a : WindowAction}
    (h : WindowGood windowStart windowEnd w)
    (hstep : (windowProgram windowStart windowEnd).worldStep w a = some w') :
    WindowGood windowStart windowEnd w' :=
  windowInvariant.step h (by cases a <;> simp [Program.worldGuard]) hstep

theorem windowRun_good {as : List WindowAction} {w : WindowWorld}
    (h : windowRun windowStart windowEnd as = some w) : WindowGood windowStart windowEnd w := by
  have hempty : ([] : List PaymentEvent).Nodup := .nil
  exact windowInvariant.exec_true (.empty hempty) h

/-! ## The latest figures -/

/-- A recalculation that read the events has finished. -/
def Finished (w : WindowWorld) (events : List PaymentEvent) : Prop :=
  ∃ s ∈ w.sessions, s.proc = .finished events

/-- Once a recalculation has finished, the stored figures are those of one that read all
that any finished one read. -/
def Latest (windowStart windowEnd : Time) (w : WindowWorld) : Prop :=
  ∀ earlier, Finished w earlier → ∃ events, Finished w events ∧
    (∀ other, Finished w other → other ⊆ events) ∧
      Counted w.db.snapshots events windowStart windowEnd

theorem Latest.congr {w w' : WindowWorld} (h : Latest windowStart windowEnd w)
    (hfinished : ∀ events, Finished w' events ↔ Finished w events)
    (hsnapshots : w'.db.snapshots = w.db.snapshots) : Latest windowStart windowEnd w' := by
  unfold Latest at *
  simp only [hfinished, hsnapshots]
  exact h

/-- The recalculations that have finished after session `i` was replaced. -/
theorem finished_set {w w' : WindowWorld} {i : ℕ} {s s' : WindowSession}
    (hs : w.sessions[i]? = some s) (hw : w'.sessions = w.sessions.set i s')
    (events : List PaymentEvent) :
    (∀ events, s.proc ≠ .finished events) →
      (Finished w' events ↔ s'.proc = .finished events ∨ Finished w events) := by
  intro hrunning
  have hlt : i < w.sessions.length := (List.getElem?_eq_some_iff.mp hs).1
  unfold Finished
  rw [hw]
  constructor
  · rintro ⟨t, ht, hproc⟩
    rcases List.mem_or_eq_of_mem_set ht with ht | rfl
    · exact .inr ⟨t, ht, hproc⟩
    · exact .inl hproc
  · rintro (hproc | ⟨t, ht, hproc⟩)
    · exact ⟨s', List.mem_set hlt s', hproc⟩
    · obtain ⟨j, hj⟩ := List.mem_iff_getElem?.mp ht
      have hne : i ≠ j := by
        rintro rfl
        obtain rfl : s = t := Option.some.inj (hs.symm.trans hj)
        exact hrunning events hproc
      refine ⟨t, List.mem_iff_getElem?.mpr ⟨j, ?_⟩, hproc⟩
      rw [List.getElem?_set_ne hne, hj]

/-- Replacing a session by one at the same place keeps what has finished. -/
theorem finished_set_same {w w' : WindowWorld} {i : ℕ} {s s' : WindowSession}
    (hs : w.sessions[i]? = some s) (hw : w'.sessions = w.sessions.set i s')
    (hproc : ∀ events, s'.proc = .finished events ↔ s.proc = .finished events)
    (events : List PaymentEvent) : Finished w' events ↔ Finished w events := by
  have hlt : i < w.sessions.length := (List.getElem?_eq_some_iff.mp hs).1
  unfold Finished
  rw [hw]
  constructor
  · rintro ⟨t, ht, ht'⟩
    rcases List.mem_or_eq_of_mem_set ht with ht | rfl
    · exact ⟨t, ht, ht'⟩
    · exact ⟨s, List.mem_of_getElem? hs, (hproc events).mp ht'⟩
  · rintro ⟨t, ht, ht'⟩
    obtain ⟨j, hj⟩ := List.mem_iff_getElem?.mp ht
    by_cases hij : i = j
    · subst hij
      obtain rfl : s = t := Option.some.inj (hs.symm.trans hj)
      exact ⟨s', List.mem_set hlt s', (hproc events).mpr ht'⟩
    · exact ⟨t, List.mem_iff_getElem?.mpr ⟨j, by rw [List.getElem?_set_ne hij, hj]⟩, ht'⟩

/-- Upserting snapshots with the figures of some events stores these figures. -/
theorem counted_upsertSnapshots {stored upserted : List PaymentHealthSnapshot}
    {events : List PaymentEvent}
    (h : upserted.map (·.figures) = calculateHealthMetricsForWindow events windowStart windowEnd
      minTransactionThreshold) :
    Counted (upsertSnapshots stored upserted) events windowStart windowEnd := by
  have hnodup : (upserted.map PaymentHealthSnapshot.identity).Nodup := by
    have hidentity : upserted.map PaymentHealthSnapshot.identity =
        (upserted.map (·.figures)).map PaymentHealthSnapshot.identity := by
      rw [List.map_map]
      rfl
    rw [hidentity, h]
    exact nodup_calculateHealthMetricsForWindow _ _ _ _
  intro expected hexpected
  rw [← h] at hexpected
  obtain ⟨u, hu, rfl⟩ := List.mem_map.mp hexpected
  refine ⟨⟨u, (Table.mem_foldl_upsert hnodup).mpr (.inl hu), rfl⟩, fun s hs hidentity => ?_⟩
  rcases (Table.mem_foldl_upsert hnodup).mp hs with hs | ⟨-, hnot⟩
  · rw [List.inj_on_of_nodup_map hnodup hs hu hidentity]
  · exact absurd (List.mem_map.mpr ⟨u, hu, hidentity.symm⟩) hnot

/-- A step that commits no stale figures keeps the latest ones. -/
theorem Latest.step {w w' : WindowWorld} {a : WindowAction}
    (hgood : WindowGood windowStart windowEnd w)
    (h : Latest windowStart windowEnd w) (hfresh : NotStale w a)
    (hstep : (windowProgram windowStart windowEnd).worldStep w a = some w') :
    Latest windowStart windowEnd w' := by
  -- a session that takes a step was running, and only a commit lets it finish
  have hother : ∀ {i s s' u}, w.sessions[i]? = some s → u.sessions = w.sessions.set i s' →
      u.db.snapshots = w.db.snapshots → (∀ events, s.proc ≠ .finished events) →
      (∀ events, s'.proc ≠ .finished events) → Latest windowStart windowEnd u := by
    intro i s s' u hs hu hdb hrunning hrunning'
    refine h.congr (fun events => ?_) hdb
    rw [finished_set hs hu events hrunning]
    exact or_iff_right (hrunning' events)
  cases Program.stepped hstep with
  | @arrived x ws ps harr hok hfree =>
      refine h.congr (fun events => ?_) ?_
      · unfold Finished
        constructor
        · rintro ⟨s, hs, hproc⟩
          rcases List.mem_append.mp hs with hs | hs
          · exact ⟨s, hs, hproc⟩
          · obtain ⟨p, hp, rfl⟩ := List.mem_map.mp hs
            cases x <;> obtain ⟨rfl, rfl⟩ := Prod.mk.inj (Option.some.inj harr).symm
            · cases hp
            · obtain rfl := List.mem_singleton.mp hp
              cases hproc
        · rintro ⟨s, hs, hproc⟩
          exact ⟨s, List.mem_append_left _ hs, hproc⟩
      · cases x <;> obtain ⟨rfl, rfl⟩ := Prod.mk.inj (Option.some.inj harr).symm <;> rfl
  | looked hs => exact h.congr (finished_set_same hs rfl fun _ => Iff.rfl) rfl
  | @aborted i s hs =>
      refine h.congr (finished_set_same hs rfl fun events => ?_) rfl
      cases hp : s.proc <;> simp [windowProgram, WindowProc.onError]
  | @locked i input s key next hs ho =>
      have hstep := windowStepped ho
      generalize hlock : Outcome.lock key next = o at hstep
      generalize s.proc = p at hstep
      cases hstep <;> cases hlock
  | @wrote i input s ws next hs ho =>
      have hstep := windowStepped ho
      generalize hwrite : Outcome.write ws next = o at hstep
      generalize hproc : s.proc = p at hstep
      refine hother hs rfl rfl ?_ ?_ <;> intro events <;>
        simp only [Session.proc_wrote, hproc] <;> cases hstep <;> cases hwrite <;> simp
  | @raised i input s ws next hs ho =>
      have hstep := windowStepped ho
      generalize hwrite : Outcome.write ws next = o at hstep
      generalize hproc : s.proc = p at hstep
      refine hother hs rfl rfl ?_ ?_ <;> intro events <;>
        simp only [windowProgram, Session.proc_fresh, hproc] <;> cases hstep <;> cases hwrite <;>
        simp [WindowProc.onError]
  | @called i input s effect next hs ho =>
      have hstep := windowStepped ho
      generalize hcall : Outcome.call effect next = o at hstep
      generalize s.proc = p at hstep
      cases hstep <;> cases hcall
  | @rolledBack i input s next hs ho =>
      have hstep := windowStepped ho
      generalize hrollback : Outcome.rollback next = o at hstep
      generalize s.proc = p at hstep
      cases hstep <;> cases hrollback
  | @committed i input s next hs ho =>
      have hstep := windowStepped ho
      generalize hcommit : Outcome.commit next = o at hstep
      generalize hproc : s.proc = p at hstep
      cases hstep with
      | @committed events =>
          cases hcommit
          have hstate := hgood.session s (List.mem_of_getElem? hs)
          simp only [WindowState, hproc] at hstate
          obtain ⟨upserted, hpending, -, hfigures⟩ := hstate
          have hfinished : ∀ other, Finished { w.setSession i (.fresh (.finished events)) with
                db := (windowProgram windowStart windowEnd).view w.db s } other ↔
              (Session.fresh (.finished events) : WindowSession).proc = .finished other ∨
                Finished w other :=
            fun other => finished_set hs rfl other (by simp [hproc])
          intro _ _
          refine ⟨events, (hfinished events).mpr (.inl rfl), fun other hother => ?_, ?_⟩
          · rcases (hfinished other).mp hother with heq | ⟨t, ht, htproc⟩
            · cases heq
              exact List.Subset.refl _
            · exact hfresh s hs events (by rw [hproc]; rfl) t ht other (by simpa using htproc)
          · rw [Program.view, hpending, applyAll_upsertSnapshot]
            exact counted_upsertSnapshots (by simpa using hfigures)
      | _ => cases hcommit

/-! ## Events and the recalculations that follow them -/

/-- Only the arrival of an event changes the stored events. -/
theorem events_step {w w' : WindowWorld} {a : WindowAction}
    (hgood : WindowGood windowStart windowEnd w)
    (hstep : (windowProgram windowStart windowEnd).worldStep w a = some w') :
    (∃ e, a = .arrive (.event e) ∧ w'.db.events = w.db.events ++ [e]) ∨
      w'.db.events = w.db.events := by
  cases Program.stepped hstep with
  | @arrived x ws ps harr =>
      cases x <;> obtain ⟨rfl, rfl⟩ := Prod.mk.inj (Option.some.inj harr).symm
      · exact .inl ⟨_, rfl, rfl⟩
      · exact .inr rfl
  | committed hs => exact .inr (hgood.session _ (List.mem_of_getElem? hs)).view_events
  | _ => exact .inr rfl

/-- A stored event arrived in the run. -/
theorem event_arrived {w₀ w : WindowWorld} {as : List WindowAction}
    (hgood : WindowGood windowStart windowEnd w₀)
    (h : Run.exec (windowProgram windowStart windowEnd).worldStep w₀ as = some w)
    {e : PaymentEvent} (he : e ∈ w.db.events) :
    e ∈ w₀.db.events ∨ ∃ as₁ as₂, as = as₁ ++ .arrive (.event e) :: as₂ := by
  induction as generalizing w₀ with
  | nil => cases h; exact .inl he
  | cons a as ih =>
      obtain ⟨w₁, ha, hrest⟩ := Option.bind_eq_some_iff.mp h
      have hgood₁ := hgood.step ha
      rcases ih hgood₁ hrest with hmem | ⟨as₁, as₂, rfl⟩
      · rcases events_step hgood ha with ⟨e', rfl, hevents⟩ | hevents
        · rw [hevents, List.mem_append, List.mem_singleton] at hmem
          rcases hmem with hmem | rfl
          · exact .inl hmem
          · exact .inr ⟨[], as, rfl⟩
        · exact .inl (hevents ▸ hmem)
      · exact .inr ⟨a :: as₁, as₂, rfl⟩

/-- The events a recalculation has read. -/
def WindowProc.read? : WindowProc → Option (List PaymentEvent)
  | .baselines events .. | .upsert events _ | .finished events => some events
  | .start | .failed => none

/-- Session `n` reads the event, if it reads. -/
def Sees (windowStart windowEnd : Time) (e : PaymentEvent) (n : ℕ) (w : WindowWorld) : Prop :=
  e ∈ getEventsInWindow w.db.events windowStart windowEnd ∧
    ∃ s, w.sessions[n]? = some s ∧ ∀ events, s.proc.read? = some events → e ∈ events

theorem Sees.step {e : PaymentEvent} {n : ℕ} {w w' : WindowWorld} {a : WindowAction}
    (hgood : WindowGood windowStart windowEnd w)
    (h : Sees windowStart windowEnd e n w)
    (hstep : (windowProgram windowStart windowEnd).worldStep w a = some w') :
    Sees windowStart windowEnd e n w' := by
  obtain ⟨he, s, hs, hread⟩ := h
  refine ⟨?_, ?_⟩
  · rcases events_step hgood hstep with ⟨e', -, hevents⟩ | hevents
    · rw [hevents, mem_getEventsInWindow]
      obtain ⟨hmem, hwindow⟩ := mem_getEventsInWindow.mp he
      exact ⟨List.mem_append_left _ hmem, hwindow⟩
    · rw [hevents]
      exact he
  · obtain ⟨s', hs', hproc⟩ := Program.session_step hstep hs
    refine ⟨s', hs', fun events hevents => ?_⟩
    rcases hproc with hproc | hproc | ⟨input, o, ho, hproc⟩
    · exact hread events (hproc ▸ hevents)
    · rw [hproc] at hevents
      refine hread events ?_
      cases hp : s.proc <;> simp_all [windowProgram, WindowProc.onError, WindowProc.read?]
    · have hview := (hgood.session s (List.mem_of_getElem? hs)).view_events
      have hstepped := windowStepped ho
      rw [hproc] at hevents
      generalize hp : s.proc = p at hstepped hread
      cases hstepped <;> simp only [Outcome.next, WindowProc.read?, Option.some.injEq] at hevents
      · rw [← hevents, hview]
        exact he
      all_goals exact hread events (by simp [WindowProc.read?, hevents])

theorem Sees.exec {e : PaymentEvent} {n : ℕ} {w w' : WindowWorld} {as : List WindowAction}
    (hgood : WindowGood windowStart windowEnd w)
    (h : Sees windowStart windowEnd e n w)
    (hrun : Run.exec (windowProgram windowStart windowEnd).worldStep w as = some w') :
    Sees windowStart windowEnd e n w' := by
  have hkeep : ∀ u a u',
      (WindowGood windowStart windowEnd u ∧ Sees windowStart windowEnd e n u) →
      (windowProgram windowStart windowEnd).worldStep u a = some u' →
      (WindowGood windowStart windowEnd u' ∧ Sees windowStart windowEnd e n u') :=
    fun u a u' hu hstep => ⟨hu.1.step hstep, hu.2.step hu.1 hstep⟩
  exact (Run.invariant_exec hkeep ⟨hgood, h⟩ hrun).2

/-- A stored event stays stored. -/
theorem events_exec {w w' : WindowWorld} {as : List WindowAction}
    (hgood : WindowGood windowStart windowEnd w)
    (h : Run.exec (windowProgram windowStart windowEnd).worldStep w as = some w') :
    WindowGood windowStart windowEnd w' ∧ w.db.events ⊆ w'.db.events := by
  have hkeep : ∀ u a u',
      (WindowGood windowStart windowEnd u ∧ w.db.events ⊆ u.db.events) →
      (windowProgram windowStart windowEnd).worldStep u a = some u' →
      (WindowGood windowStart windowEnd u' ∧ w.db.events ⊆ u'.db.events) := by
    intro u a u' ⟨hu, hsubset⟩ hstep
    refine ⟨hu.step hstep, ?_⟩
    rcases events_step hu hstep with ⟨e, -, hevents⟩ | hevents
    · exact fun x hx => hevents ▸ List.mem_append_left _ (hsubset hx)
    · exact hevents ▸ hsubset
  exact Run.invariant_exec hkeep ⟨hgood, List.Subset.refl _⟩ h

/-- When every event is followed by a recalculation and all have finished, some finished
recalculation read it. -/
theorem Followed.read {as : List WindowAction} {w : WindowWorld}
    (hfollowed : Followed windowStart windowEnd as)
    (h : windowRun windowStart windowEnd as = some w) (hfinished : AllFinished w)
    {e : PaymentEvent} (he : e ∈ getEventsInWindow w.db.events windowStart windowEnd) :
    ∃ events, Finished w events ∧ e ∈ events := by
  obtain ⟨hmem, hwindow⟩ := mem_getEventsInWindow.mp he
  have hempty : windowRun windowStart windowEnd [] = some ⟨{}, [], []⟩ := rfl
  obtain ⟨as₁, as₂, rfl⟩ := (event_arrived (windowRun_good hempty) h hmem).resolve_left (by simp)
  obtain ⟨bs₁, bs₂, rfl⟩ := List.append_of_mem (hfollowed.of_append.1 hwindow)
  -- up to the arrival of the event, on to the recalculation that follows it, and to the end
  rw [windowRun, Run.exec_append] at h
  obtain ⟨w₁, h₁, hrest⟩ := Option.bind_eq_some_iff.mp h
  obtain ⟨w₂, harrive, hrest⟩ := Option.bind_eq_some_iff.mp hrest
  rw [Run.exec_append] at hrest
  obtain ⟨w₃, h₃, hrest⟩ := Option.bind_eq_some_iff.mp hrest
  obtain ⟨w₄, hrecalculate, hlast⟩ := Option.bind_eq_some_iff.mp hrest
  have hgood₁ := windowRun_good h₁
  have hgood₂ := hgood₁.step harrive
  have hstored : e ∈ w₂.db.events := by
    cases Program.stepped harrive with
    | arrived harr =>
        obtain ⟨rfl, rfl⟩ := Prod.mk.inj (Option.some.inj harr).symm
        exact List.mem_append_right _ (List.mem_singleton_self e)
  obtain ⟨hgood₃, hsubset⟩ := events_exec hgood₂ h₃
  have hsees : Sees windowStart windowEnd e w₃.sessions.length w₄ := by
    cases Program.stepped hrecalculate with
    | arrived harr =>
        obtain ⟨rfl, rfl⟩ := Prod.mk.inj (Option.some.inj harr).symm
        refine ⟨mem_getEventsInWindow.mpr ⟨hsubset hstored, hwindow⟩, .fresh .start, ?_, ?_⟩
        · simp
        · intro events hevents
          cases hevents
  obtain ⟨-, s, hs, hread⟩ := hsees.exec (hgood₃.step hrecalculate) hlast
  obtain ⟨events, hfound⟩ := Option.isSome_iff_exists.mp (hfinished s (List.mem_of_getElem? hs))
  have hproc := WindowProc.finished?_eq_some.mp hfound
  exact ⟨events, ⟨s, List.mem_of_getElem? hs, hproc⟩, hread events (by rw [hproc]; rfl)⟩

/-- A prefix of a list that has all its members is the list. -/
private theorem eq_of_prefix_subset {xs ys : List PaymentEvent} (h : xs <+: ys) (hys : ys.Nodup)
    (hsubset : ys ⊆ xs) : xs = ys := by
  have hlength : ys.length ≤ xs.length := (List.subperm_of_subset hys hsubset).length_le
  exact h.eq_of_length_le hlength

/-- While no recalculation overwrites the figures of one that read more, the snapshots
carry the figures of all events once every event was followed by a recalculation and all
recalculations have finished. -/
theorem windowRun_upToDate {as : List WindowAction} {w : WindowWorld}
    (h : windowRun windowStart windowEnd as = some w)
    (hfollowed : Followed windowStart windowEnd as) (hfinished : AllFinished w)
    (hfresh : Run.Guarded (windowProgram windowStart windowEnd).worldStep NotStale
      ⟨{}, [], []⟩ as) :
    UpToDate w.db windowStart windowEnd := by
  intro hne
  have hlatest : WindowGood windowStart windowEnd w ∧ Latest windowStart windowEnd w := by
    have hempty : windowRun windowStart windowEnd [] = some ⟨{}, [], []⟩ := rfl
    have hstart : Latest windowStart windowEnd ⟨{}, [], []⟩ := by
      rintro earlier ⟨s, hs, -⟩
      cases hs
    have hkeep : ∀ u a u', WindowGood windowStart windowEnd u ∧ Latest windowStart windowEnd u →
        NotStale u a → (windowProgram windowStart windowEnd).worldStep u a = some u' →
        WindowGood windowStart windowEnd u' ∧ Latest windowStart windowEnd u' :=
      fun u a u' hu hguard hstep => ⟨hu.1.step hstep, hu.2.step hu.1 hguard hstep⟩
    exact Run.invariant_guarded hkeep ⟨windowRun_good hempty, hstart⟩ hfresh h
  obtain ⟨hgood, hlatest⟩ := hlatest
  obtain ⟨e, he⟩ := List.exists_mem_of_ne_nil _ hne
  obtain ⟨earlier, hearlier, -⟩ := hfollowed.read h hfinished he
  obtain ⟨events, ⟨s, hs, hproc⟩, hmost, hcounted⟩ := hlatest earlier hearlier
  have hprefix : events <+: getEventsInWindow w.db.events windowStart windowEnd := by
    have hstate := hgood.session s hs
    simp only [WindowState, hproc] at hstate
    exact hstate.2
  have hall : getEventsInWindow w.db.events windowStart windowEnd ⊆ events := by
    intro x hx
    obtain ⟨other, hother, hmem⟩ := hfollowed.read h hfinished hx
    exact hmost other hother hmem
  have hnodup : (getEventsInWindow w.db.events windowStart windowEnd).Nodup :=
    hgood.store.filter _
  rw [← eq_of_prefix_subset hprefix hnodup hall]
  exact hcounted

end Steps

/-! ## An older recalculation overwrites a newer one -/

namespace WindowExample

def windowEnd : Time := Time.minutes 5

/-- A captured payment of 100 rupees. -/
def event (i : ℕ) : PaymentEvent :=
  { eventId := i, sourceSystem := razorpaySourceSystem, sourceEventId := toString i,
    paymentId := toString i, timestamp := 60, eventType := capturedEventType, currency := "INR",
    amountMinorUnits := 10000, paymentStatus := "captured", ingestedAt := 60 + i }

def advances (i n : ℕ) : List WindowAction := List.replicate n (.advance i ())

/-- The first recalculation commits before the second event arrives. -/
def serial : List WindowAction :=
  [.arrive (.event (event 1)), .arrive .recalculate] ++ advances 0 15 ++
    [.arrive (.event (event 2)), .arrive .recalculate] ++ advances 1 15

/-- The first recalculation reads one event, and commits after the second has read both. -/
def racing : List WindowAction :=
  [.arrive (.event (event 1)), .arrive .recalculate] ++ advances 0 1 ++
    [.arrive (.event (event 2)), .arrive .recalculate] ++ advances 1 15 ++ advances 0 14

theorem serial_followed : Followed 0 windowEnd serial := by
  simp [serial, advances, Followed]

theorem racing_followed : Followed 0 windowEnd racing := by
  simp [racing, advances, Followed]

theorem serial_finished : ((Run.execGuarded (windowProgram 0 windowEnd).worldStep NotStale
    ⟨{}, [], []⟩ serial).map fun w => decide (AllFinished w)) = some true := by
  decide +kernel

/-- Both recalculations finish, and the snapshots count one of the two events. -/
theorem racing_facts : ((windowRun 0 windowEnd racing).map fun w =>
    decide (AllFinished w) && (getEventsInWindow w.db.events 0 windowEnd == [event 1, event 2]) &&
      w.db.snapshots.all fun s => s.transactionCount == 1) = some true := by
  decide +kernel

end WindowExample

open WindowExample in
theorem windowRun_upToDate_serial :
    ∃ w, windowRun 0 windowEnd serial = some w ∧ UpToDate w.db 0 windowEnd := by
  obtain ⟨w, hw, hfinished⟩ := Option.map_eq_some_iff.mp serial_finished
  obtain ⟨hfresh, hrun⟩ := Run.execGuarded_eq_some.mp hw
  exact ⟨w, hrun, windowRun_upToDate hrun serial_followed (of_decide_eq_true hfinished) hfresh⟩

open WindowExample in
/-- The recalculation that read first commits last, and the later event is lost. -/
theorem windowRun_not_upToDate : ∃ w, windowRun 0 windowEnd racing = some w ∧
    Followed 0 windowEnd racing ∧ AllFinished w ∧ ¬UpToDate w.db 0 windowEnd := by
  obtain ⟨w, hw, hfacts⟩ := Option.map_eq_some_iff.mp racing_facts
  simp only [Bool.and_eq_true, beq_iff_eq, List.all_eq_true] at hfacts
  obtain ⟨⟨hfinished, hevents⟩, hcounts⟩ := hfacts
  refine ⟨w, hw, racing_followed, of_decide_eq_true hfinished, fun h => ?_⟩
  rw [UpToDate, hevents] at h
  have hsome : ∃ expected ∈ calculateHealthMetricsForWindow [event 1, event 2] 0 windowEnd
      minTransactionThreshold, expected.transactionCount = 2 := by decide +kernel
  obtain ⟨expected, hexpected, htwo⟩ := hsome
  obtain ⟨⟨s, hs, hidentity⟩, hfigures⟩ := h (by simp) expected hexpected
  have hone : s.figures.transactionCount = 1 := hcounts s hs
  rw [hfigures s hs hidentity, htwo] at hone
  cases hone

end RevenueRecovery
