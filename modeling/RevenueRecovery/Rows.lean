import RevenueRecovery.Store

/-!
# Where rows come from

A row is justified when it was written by a step that could write it in the store that the
step saw. When justifications last, every row of every store a transactional program
commits is justified by that store, and so is every row a transaction has yet to commit
(`Justification.invariant`).

## Main definitions
* `Justification` : what justifies a write, in the store of the session and ever after.
* `Justified` : every row of the store is.
* `Justification.Informed`, `Justification.Respected` : programs whose steps write justified
  rows.
* `EventsArrive` : the programs whose sessions insert no events.
-/
namespace RevenueRecovery

open Transaction

/-- What justifies a write in a store. It keeps doing so in later stores. -/
structure Justification where
  holds : Database → Write → Prop
  lasting : ∀ {db db' w}, Keeps db db' → holds db w → holds db' w

/-- Every row of the store is justified; a command as it was inserted. -/
structure Justified (J : Justification) (db : Database) : Prop where
  events : ∀ e ∈ db.events, J.holds db (.insertEvent e)
  predictions : ∀ p ∈ db.predictions, J.holds db (.appendPrediction p)
  decisions : ∀ d ∈ db.decisions, J.holds db (.appendDecision d)
  commands : ∀ c ∈ db.commands, ∃ c₀, c₀.SamePayload c ∧ J.holds db (.insertCommand c₀)
  executionAttempts : ∀ a ∈ db.executionAttempts, J.holds db (.insertExecutionAttempt a)
  observations : ∀ o ∈ db.observations, J.holds db (.insertObservation o)
  attributions : ∀ a ∈ db.attributions, J.holds db (.appendAttribution a)

theorem Justified.empty (J : Justification) : Justified J {} := by constructor <;> simp

/-- Justified writes lead to a store with justified rows. -/
theorem Justified.foldl {J : Justification} {db : Database} {ws : List Write}
    (h : Justified J db) (hws : ∀ w ∈ ws, J.holds (ws.foldl Database.apply db) w) :
    Justified J (ws.foldl Database.apply db) := by
  have hadds := Adds.foldl db ws
  have hkeeps := Keeps.foldl db ws
  refine ⟨fun e he => ?_, fun p hp => ?_, fun d hd => ?_, fun c hc => ?_, fun a ha => ?_,
    fun o ho => ?_, fun a ha => ?_⟩
  · exact (hadds.events e he).elim (fun h' => J.lasting hkeeps (h.events e h')) (hws _)
  · exact (hadds.predictions p hp).elim (fun h' => J.lasting hkeeps (h.predictions p h')) (hws _)
  · exact (hadds.decisions d hd).elim (fun h' => J.lasting hkeeps (h.decisions d h')) (hws _)
  · rcases hadds.commands c hc with ⟨c₁, hc₁, hsame⟩ | ⟨c₀, hc₀, hsame⟩
    · obtain ⟨c₀, hsame₀, hJ⟩ := h.commands c₁ hc₁
      exact ⟨c₀, hsame₀.trans hsame, J.lasting hkeeps hJ⟩
    · exact ⟨c₀, hsame, hws _ hc₀⟩
  · rw [Database.executionAttempts_foldl] at ha
    rcases List.mem_append.mp ha with ha | ha
    · exact J.lasting hkeeps (h.executionAttempts a ha)
    · exact hws _ (mem_filterMap_executionAttempt?.mp ha)
  · exact (hadds.observations o ho).elim (fun h' => J.lasting hkeeps (h.observations o h')) (hws _)
  · exact (hadds.attributions a ha).elim (fun h' => J.lasting hkeeps (h.attributions a h')) (hws _)

section Invariant
variable {Lock Effect Proc Input Arrival : Type}
  {P : Program Database Write Lock Effect Proc Input Arrival}
  {guard : Database → Session Database Write Lock Proc → Input → Prop} {db db' : Database}
  {s : Session Database Write Lock Proc}

/-- What a session has read is part of its view, and its view justifies what it has written. -/
structure JustifiedSession (P : Program Database Write Lock Effect Proc Input Arrival)
    (J : Justification) (db : Database) (s : Session Database Write Lock Proc) : Prop where
  views : ∀ v ∈ s.views, Keeps v (P.view db s)
  pending : ∀ w ∈ s.pending, J.holds (P.view db s) w

variable {J : Justification}

theorem applyAll_eq_foldl (ha : P.apply = Database.apply) (db : Database) (ws : List Write) :
    P.applyAll db ws = ws.foldl Database.apply db := by
  rw [Program.applyAll, ha]

theorem view_eq_foldl (ha : P.apply = Database.apply) (db : Database)
    (s : Session Database Write Lock Proc) :
    P.view db s = s.pending.foldl Database.apply db := applyAll_eq_foldl ha db s.pending

theorem view_wrote_eq_foldl (ha : P.apply = Database.apply) (db : Database)
    (s : Session Database Write Lock Proc) (ws : List Write) (next : Proc) :
    P.view db (s.wrote ws next) = ws.foldl Database.apply (P.view db s) := by
  rw [Program.view_wrote, applyAll_eq_foldl ha]

/-- A session sees no less after its writes. -/
theorem keeps_view_wrote (ha : P.apply = Database.apply) (db : Database)
    (s : Session Database Write Lock Proc) (ws : List Write) (next : Proc) :
    Keeps (P.view db s) (P.view db (s.wrote ws next)) := by
  rw [view_wrote_eq_foldl ha]
  exact .foldl _ _

theorem JustifiedSession.fresh (p : Proc) : JustifiedSession P J db (.fresh p) := by
  constructor <;> simp

/-- A later committed store keeps what a session has read and written justified. -/
theorem JustifiedSession.mono (h : JustifiedSession P J db s) (ha : P.apply = Database.apply)
    (hkeeps : Keeps db db') : JustifiedSession P J db' s := by
  have hview : Keeps (P.view db s) (P.view db' s) := by
    rw [view_eq_foldl ha, view_eq_foldl ha]
    exact hkeeps.foldl_mono _
  exact ⟨fun v hv => (h.views v hv).trans hview, fun w hw => J.lasting hview (h.pending w hw)⟩

/-- Every statement of a step reads a part of the session's view. -/
theorem JustifiedSession.reads (h : JustifiedSession P J db s) (k : ℕ) :
    Keeps (P.reads db s k) (P.view db s) := by
  rcases P.reads_cases db s k with hmem | heq
  · exact h.views _ hmem
  · rw [heq]
    exact .refl _

/-- A session that only moves on stays justified. -/
theorem JustifiedSession.moved (h : JustifiedSession P J db s)
    {s' : Session Database Write Lock Proc} (hpending : s'.pending = s.pending)
    (hviews : s'.views = []) : JustifiedSession P J db s' := by
  refine ⟨by simp [hviews], ?_⟩
  rw [Program.view, hpending]
  exact h.pending

theorem JustifiedSession.view (h : JustifiedSession P J db s) (ha : P.apply = Database.apply)
    (hdb : Justified J db) : Justified J (P.view db s) := by
  have hpending := h.pending
  rw [view_eq_foldl ha] at hpending ⊢
  exact hdb.foldl hpending

/-- Every step of a program writes what its view justifies, given what the session knows of
its view and of its own writes. -/
structure Justification.Informed (J : Justification)
    (P : Program Database Write Lock Effect Proc Input Arrival)
    (guard : Database → Session Database Write Lock Proc → Input → Prop)
    (knows : Database → List Write → Proc → Prop) : Prop where
  apply : P.apply = Database.apply
  lasting : ∀ {db db' ws p}, Keeps db db' → knows db ws p → knows db' ws p
  arrive : ∀ {db x ws ps}, P.arrive x db = some (ws, ps) →
    (∀ w ∈ ws, J.holds (P.applyAll db ws) w) ∧ ∀ p ∈ ps, ∀ db', knows db' [] p
  error : ∀ db p, knows db [] (P.onError p)
  step : ∀ {db s input o}, Justified J (P.view db s) →
    (∀ k, Keeps (P.reads db s k) (P.view db s)) → knows (P.view db s) s.pending s.proc →
    guard db s input → P.outcome db s input = some o →
    match o with
    | .write ws next => (∀ w ∈ ws, J.holds (P.view db (s.wrote ws next)) w) ∧
        knows (P.view db (s.wrote ws next)) (s.pending ++ ws) next
    | .lock _ next | .call _ next => knows (P.view db s) s.pending next
    | .commit next | .rollback next => ∀ db', knows db' [] next

/-- Committed rows and pending ones are justified, and sessions know what they know. -/
theorem Justification.Informed.invariant {knows : Database → List Write → Proc → Prop}
    (hJ : J.Informed P guard knows) : P.Invariant guard (Justified J) fun db s =>
      JustifiedSession P J db s ∧ knows (P.view db s) s.pending s.proc where
  arrive {db x ws ps} hG harr _ := by
    obtain ⟨hws, hps⟩ := hJ.arrive harr
    rw [applyAll_eq_foldl hJ.apply] at hws ⊢
    refine ⟨hG.foldl hws, fun s hs _ => ⟨hs.1.mono hJ.apply (.foldl db ws), hJ.lasting ?_ hs.2⟩,
      fun p hp => ⟨.fresh p, hps p hp _⟩⟩
    rw [view_eq_foldl hJ.apply, view_eq_foldl hJ.apply]
    exact (Keeps.foldl db ws).foldl_mono _
  look {db s} _ h := by
    refine ⟨⟨fun v hv => ?_, h.1.pending⟩, h.2⟩
    rcases List.mem_append.mp hv with hv | hv
    · exact h.1.views v hv
    · obtain rfl := List.mem_singleton.mp hv
      exact .refl _
  abort _ _ := ⟨.fresh _, hJ.error _ _⟩
  lock hG h hg ho := ⟨h.1.moved rfl rfl, hJ.step (h.1.view hJ.apply hG) h.1.reads h.2 hg ho⟩
  write {db s input ws next} hG h hg ho _ := by
    have hview := keeps_view_wrote hJ.apply db s ws next
    obtain ⟨hws, hknows⟩ := hJ.step (h.1.view hJ.apply hG) h.1.reads h.2 hg ho
    refine ⟨⟨by simp [Session.wrote], fun w hw => ?_⟩, hknows⟩
    rcases List.mem_append.mp hw with hw | hw
    · exact J.lasting hview (h.1.pending w hw)
    · exact hws w hw
  call hG h hg ho := ⟨h.1.moved rfl rfl, hJ.step (h.1.view hJ.apply hG) h.1.reads h.2 hg ho⟩
  rollback hG h hg ho := ⟨.fresh _, hJ.step (h.1.view hJ.apply hG) h.1.reads h.2 hg ho _⟩
  commit {db s input next} hG h hg ho := by
    have hkeeps : Keeps db (P.view db s) := by
      rw [view_eq_foldl hJ.apply]
      exact .foldl db s.pending
    have hview : ∀ t : Session Database Write Lock Proc,
        Keeps (P.view db t) (P.view (P.view db s) t) := by
      intro t
      simp only [view_eq_foldl hJ.apply]
      exact (Keeps.foldl db s.pending).foldl_mono _
    exact ⟨h.1.view hJ.apply hG,
      ⟨.fresh _, hJ.step (h.1.view hJ.apply hG) h.1.reads h.2 hg ho _⟩, fun t ht _ =>
        ⟨ht.1.mono hJ.apply hkeeps, hJ.lasting (hview t) ht.2⟩⟩

/-- Every step of a program over the tables writes what its view justifies. -/
structure Justification.Respected (J : Justification)
    (P : Program Database Write Lock Effect Proc Input Arrival)
    (guard : Database → Session Database Write Lock Proc → Input → Prop) : Prop where
  apply : P.apply = Database.apply
  arrive : ∀ {db x ws ps}, P.arrive x db = some (ws, ps) →
    ∀ w ∈ ws, J.holds (P.applyAll db ws) w
  write : ∀ {db s input ws next}, (∀ k, Keeps (P.reads db s k) (P.view db s)) →
    guard db s input → P.outcome db s input = some (.write ws next) →
    ∀ w ∈ ws, J.holds (P.view db (s.wrote ws next)) w

/-- Justifications that the steps of a program respect hold of every committed row and of
every pending one. -/
theorem Justification.Respected.invariant (hJ : J.Respected P guard) :
    P.Invariant guard (Justified J) (JustifiedSession P J) := by
  have hinformed : J.Informed P guard fun _ _ _ => True :=
    { apply := hJ.apply
      lasting := fun _ _ => trivial
      arrive := fun harr => ⟨hJ.arrive harr, fun _ _ _ => trivial⟩
      error := fun _ _ => trivial
      step := fun {db s input o} _ hreads _ hg ho => by
        cases o with
        | write ws next => exact ⟨hJ.write hreads hg ho, trivial⟩
        | commit => exact fun _ => trivial
        | rollback => exact fun _ => trivial
        | _ => trivial }
  simpa using hinformed.invariant

end Invariant

/-! ## Events -/

section Events
variable {Lock Effect Proc Input Arrival : Type}
  {P : Program Database Write Lock Effect Proc Input Arrival} {db : Database}
  {s : Session Database Write Lock Proc}

/-- Events are inserted from outside only. -/
structure EventsArrive (P : Program Database Write Lock Effect Proc Input Arrival) : Prop where
  apply : P.apply = Database.apply
  write : ∀ {db s input ws next}, P.outcome db s input = some (.write ws next) →
    ws.filterMap Write.event? = []

/-- A session has inserted no event, and has read committed ones. -/
structure EventsSession (db : Database) (s : Session Database Write Lock Proc) : Prop where
  views : ∀ v ∈ s.views, v.events <+: db.events
  pending : s.pending.filterMap Write.event? = []

theorem EventsSession.fresh (p : Proc) :
    EventsSession db (.fresh p : Session Database Write Lock Proc) := ⟨by simp, rfl⟩

theorem EventsSession.view (h : EventsSession db s) (ha : P.apply = Database.apply) :
    (P.view db s).events = db.events := by
  rw [view_eq_foldl ha, Database.events_foldl, h.pending, List.append_nil]

/-- Every statement reads the events committed by some earlier moment. -/
theorem EventsSession.reads (h : EventsSession db s) (ha : P.apply = Database.apply) (k : ℕ) :
    (P.reads db s k).events <+: db.events := by
  rcases P.reads_cases db s k with hmem | heq
  · exact h.views _ hmem
  · rw [heq]
    exact h.view ha ▸ List.prefix_rfl

theorem EventsSession.mono (h : EventsSession db s) {db' : Database}
    (hdb : db.events <+: db'.events) : EventsSession db' s :=
  ⟨fun v hv => (h.views v hv).trans hdb, h.pending⟩

theorem EventsArrive.invariant (hP : EventsArrive P) :
    P.Invariant (fun _ _ _ => True) (fun _ => True) EventsSession where
  arrive {db x ws ps} _ _ _ := by
    refine ⟨trivial, fun s hs _ => hs.mono ?_, fun p _ => .fresh p⟩
    rw [applyAll_eq_foldl hP.apply, Database.events_foldl]
    exact List.prefix_append _ _
  look {db s} _ h := by
    refine ⟨fun v hv => ?_, h.pending⟩
    rcases List.mem_append.mp hv with hv | hv
    · exact h.views v hv
    · obtain rfl := List.mem_singleton.mp hv
      exact h.view hP.apply ▸ List.prefix_rfl
  abort _ _ := .fresh _
  lock _ h _ _ := ⟨by simp [Session.locked], h.pending⟩
  write {db s input ws next} _ h _ hstep _ := by
    refine ⟨by simp [Session.wrote], ?_⟩
    rw [Session.wrote, List.filterMap_append, h.pending, hP.write hstep, List.append_nil]
  call _ h _ _ := ⟨by simp [Session.moved], h.pending⟩
  rollback _ _ _ _ := .fresh _
  commit {db s input next} _ h _ _ := by
    refine ⟨trivial, .fresh _, fun t ht _ => ht.mono ?_⟩
    exact h.view hP.apply ▸ List.prefix_rfl

/-- Committed rows stay: the store after a run keeps the store before it. -/
theorem exec_keeps [DecidableEq Lock] (ha : P.apply = Database.apply)
    {w w' : World Database Write Lock Effect Proc} {as : List (Action Input Arrival)}
    (h : Run.exec P.worldStep w as = some w') : Keeps w.db w'.db := by
  have hstep : ∀ (u : World Database Write Lock Effect Proc) a u', Keeps w.db u.db →
      P.worldStep u a = some u' → Keeps w.db u'.db := by
    intro u a u' hu hstep
    cases Program.stepped hstep with
    | arrived =>
        rw [applyAll_eq_foldl ha]
        exact hu.trans (.foldl _ _)
    | committed =>
        rw [view_eq_foldl ha]
        exact hu.trans (.foldl _ _)
    | _ => exact hu
  exact Run.invariant_exec hstep (.refl _) h

end Events

end RevenueRecovery
