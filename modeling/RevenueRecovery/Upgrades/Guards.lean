import RevenueRecovery.Lib.Traverse
import RevenueRecovery.Upgrades.Alembic

/-!
# What the guards keep

Whatever is done to the databases in whatever order, only the disposable test database is
ever left at Revision A, and a database loses or gains nothing by migrations, scripts and
truncations that its guards do not name.

## Main definitions
* `Leads` : moves that lead from a revision to another.
* `Script.Guarded` : a script as an offline run renders it.
* `Operation.Allows` : operations that may change a database.
-/
namespace RevenueRecovery.Migration

open Traverse

/-! ## Moves -/

/-- The moves follow each other from `start` to `target`. -/
def Leads (start : Option Revision) : List Move → Option Revision → Prop
  | [], target => start = target
  | m :: moves, target => m.source = start ∧ Leads m.destination moves target

theorem Leads.append {start middle target : Option Revision} {moves moves' : List Move}
    (h : Leads start moves middle) (h' : Leads middle moves' target) :
    Leads start (moves ++ moves') target := by
  induction moves generalizing start with
  | nil =>
      obtain rfl : start = middle := h
      exact h'
  | cons m moves ih => exact ⟨h.1, ih h.2⟩

theorem leads_downgrade {fuel : ℕ} {upper lower : Option Revision} {revisions : List Revision}
    (h : revisionsBetween fuel upper lower = some revisions) :
    Leads upper (revisions.map (⟨.downgrade, ·⟩)) lower := by
  induction fuel generalizing upper revisions with
  | zero =>
      unfold revisionsBetween at h
      split_ifs at h with heq
      · obtain rfl := Option.some.inj h
        exact heq
  | succ fuel ih =>
      unfold revisionsBetween at h
      split_ifs at h with heq
      · obtain rfl := Option.some.inj h
        exact heq
      · cases upper with
        | none => cases h
        | some r =>
            obtain ⟨rest, hrest, rfl⟩ := Option.map_eq_some_iff.mp h
            exact ⟨rfl, ih hrest⟩

theorem leads_upgrade {fuel : ℕ} {upper lower : Option Revision} {revisions : List Revision}
    (h : revisionsBetween fuel upper lower = some revisions) :
    Leads lower (revisions.reverse.map (⟨.upgrade, ·⟩)) upper := by
  induction fuel generalizing upper revisions with
  | zero =>
      unfold revisionsBetween at h
      split_ifs at h with heq
      · obtain rfl := Option.some.inj h
        exact heq.symm
  | succ fuel ih =>
      unfold revisionsBetween at h
      split_ifs at h with heq
      · obtain rfl := Option.some.inj h
        exact heq.symm
      · cases upper with
        | none => cases h
        | some r =>
            obtain ⟨rest, hrest, rfl⟩ := Option.map_eq_some_iff.mp h
            rw [List.reverse_cons, List.map_append]
            exact (ih hrest).append ⟨rfl, rfl⟩

theorem leads_of_plan {direction : Direction} {start target : Option Revision}
    {moves : List Move} (h : plan direction start target = some moves) :
    Leads start moves target := by
  cases direction with
  | upgrade =>
      obtain ⟨revisions, hrevisions, rfl⟩ := Option.map_eq_some_iff.mp h
      exact leads_upgrade hrevisions
  | downgrade =>
      obtain ⟨revisions, hrevisions, rfl⟩ := Option.map_eq_some_iff.mp h
      exact leads_downgrade hrevisions

theorem Leads.finalRevision_eq {start target : Option Revision} {moves : List Move}
    (h : Leads start moves target) : finalRevision start moves = target := by
  induction moves generalizing start with
  | nil => exact h
  | cons m moves ih =>
      rw [← ih h.2, finalRevision, finalRevision]
      cases moves with
      | nil => rfl
      | cons m' moves => rfl

section Versions
variable {ε : Type}

/-- A script leaves the version alone, or at its own end. -/
theorem Leads.foldlM_moveVersion {start target version version' : Option Revision}
    {moves : List Move} (h : Leads start moves target)
    (hmove : moves.foldlM (moveVersion (ε := ε)) version = .ok version') :
    (version = start → version' = target) ∧ (version' = version ∨ version' = target) := by
  induction moves generalizing start version with
  | nil =>
      obtain rfl := Except.ok.inj hmove
      obtain rfl : start = target := h
      exact ⟨fun heq => heq, .inl rfl⟩
  | cons m moves ih =>
      obtain ⟨rfl, hrest⟩ := h
      rw [List.foldlM_cons] at hmove
      unfold moveVersion at hmove
      by_cases heq : version = m.source
      · rw [if_pos heq] at hmove
        have hend := (ih hrest hmove).1 rfl
        exact ⟨fun _ => hend, .inr hend⟩
      · rw [if_neg heq] at hmove
        split_ifs at hmove
        · cases hmove
        · exact ⟨fun h => absurd h heq, (ih hrest hmove).2⟩

theorem Leads.scriptVersion_cases {start target version version' : Option Revision}
    {moves : List Move} (h : Leads start moves target)
    (hscript : scriptVersion (ε := ε) version moves = .ok version') :
    (version = start → version' = target) ∧
      (version' = version ∨ (moves ≠ [] ∧ version' = target)) := by
  unfold scriptVersion at hscript
  cases hmove : moves.foldlM (moveVersion (ε := ε)) version with
  | error e =>
      rw [hmove] at hscript
      cases hscript
  | ok moved =>
      rw [hmove] at hscript
      obtain ⟨hstart, hcases⟩ := h.foldlM_moveVersion hmove
      have hresult : (if finalRevision moved moves = none then none else moved) = version' :=
        Except.ok.inj hscript
      cases moves with
      | nil =>
          obtain rfl := Except.ok.inj hmove
          have hsame : version' = version := by
            rw [← hresult]
            split_ifs with hnone
            · exact hnone.symm
            · rfl
          exact ⟨fun heq => hsame.trans (heq.trans h), .inl hsame⟩
      | cons m moves =>
          have hfinal : finalRevision moved (m :: moves) = target := by
            rw [← h.finalRevision_eq]
            rfl
          rw [hfinal] at hresult
          split_ifs at hresult with hnone
          · have hend : version' = target := hresult.symm.trans hnone.symm
            exact ⟨fun _ => hend, .inr ⟨List.cons_ne_nil _ _, hend⟩⟩
          · subst hresult
            exact ⟨hstart, hcases.imp_right fun hend => ⟨List.cons_ne_nil _ _, hend⟩⟩

end Versions

/-! ## Runs -/

section Runs
variable {σ ε : Type} {lib : UrlLibrary} {ops : TableOperations σ ε}

theorem require_eq_ok {condition : Bool} {message : String} {u : Unit}
    (h : require condition message = .ok u) : condition = true := by
  unfold require at h
  split_ifs at h with hc
  exact hc

/-- The only intermediate revision is Revision A. -/
theorem heads_intermediate (version : Option Revision) :
    (heads version).filter (alembicIntermediateRevisions.contains ·) = [] ↔
      version ≠ some .providerIdentityExpand := by
  cases version with
  | none => decide
  | some r => cases r <;> decide

/-- A run that ends at Revision A asks for the assertion, or is refused. -/
theorem asked_of_intermediate {target : Url} {offline asked : Bool}
    (h : finalStateRequiresAssertion lib (heads (some .providerIdentityExpand)) target offline =
      .ok asked) : asked = true := by
  unfold finalStateRequiresAssertion at h
  rw [if_neg fun hnil => (heads_intermediate _).mp hnil rfl] at h
  obtain ⟨u, -, hasked⟩ := bind_eq_ok h
  exact (Except.ok.inj hasked).symm

theorem assertDatabase_eq_ok {asked : Bool} {name : String} {u : Unit}
    (h : assertDatabase (ε := ε) asked name = .ok u) (hasked : asked = true) :
    name = disposableTestDatabase := by
  unfold assertDatabase at h
  split_ifs at h with hname
  simpa [hasked] using hname

/-- What an online run that commits has checked and done. -/
structure RanOnline (lib : UrlLibrary) (ops : TableOperations σ ε)
    (environ : String → Option String) (direction : Direction) (target : Option Revision)
    (db db' : Database σ) (url : Url) (moves : List Move) : Prop where
  validated : validateAlembicTarget lib environ false = .ok url
  connected : url.database = some db.name
  planned : plan direction db.version target = some moves
  content : applyMoves ops moves db.content = .ok db'.content
  name : db'.name = db.name
  version : db'.version = target
  disposable : target = some .providerIdentityExpand → db.name = disposableTestDatabase

theorem runOnline_eq_ok {environ : String → Option String} {direction : Direction}
    {target : Option Revision} {db db' : Database σ}
    (h : db.runOnline lib ops environ direction target = .ok db') :
    ∃ url moves, RanOnline lib ops environ direction target db db' url moves := by
  obtain ⟨url, hurl, h⟩ := bind_eq_ok h
  obtain ⟨_, hconnected, h⟩ := bind_eq_ok h
  obtain ⟨moves, hmoves, h⟩ := bind_eq_ok h
  obtain ⟨content, hcontent, h⟩ := bind_eq_ok h
  obtain ⟨asked, hasked, h⟩ := bind_eq_ok h
  obtain ⟨_, hasserted, h⟩ := bind_eq_ok h
  obtain rfl := Except.ok.inj h
  have hplan := elim_eq_ok hmoves
  have hleads := leads_of_plan hplan
  refine ⟨url, moves, mapError_eq_ok.mp hurl, ?_, hplan, mapError_eq_ok.mp hcontent, rfl,
    hleads.finalRevision_eq, fun htarget => ?_⟩
  · have hname := require_eq_ok (mapError_eq_ok.mp hconnected)
    exact (beq_iff_eq.mp hname).symm
  · rw [hleads.finalRevision_eq, htarget] at hasked
    exact assertDatabase_eq_ok hasserted (asked_of_intermediate (mapError_eq_ok.mp hasked))

/-- A script as an offline run renders it: its moves lead somewhere, and it asserts its
database when they lead to Revision A. -/
def Script.Guarded (script : Script) : Prop :=
  ∃ start target, Leads start script.moves target ∧
    (script.moves ≠ [] → target = some .providerIdentityExpand → script.assertsDatabase = true)

theorem renderOffline_eq_ok {environ : String → Option String} {direction : Direction}
    {start target : Option Revision} {script : Script}
    (h : renderOffline (ε := ε) lib environ direction start target = .ok script) :
    plan direction start target = some script.moves ∧ script.Guarded := by
  obtain ⟨url, -, h⟩ := bind_eq_ok h
  obtain ⟨moves, hmoves, h⟩ := bind_eq_ok h
  obtain ⟨asked, hasked, h⟩ := bind_eq_ok h
  obtain rfl := Except.ok.inj h
  have hplan := elim_eq_ok hmoves
  have hleads := leads_of_plan hplan
  refine ⟨hplan, start, target, hleads, fun hne htarget => ?_⟩
  have hfinal := hleads.finalRevision_eq
  obtain ⟨last, hlast⟩ := Option.isSome_iff_exists.mp (List.getLast?_isSome.mpr hne)
  rw [finalRevision, hlast, htarget] at hfinal
  have hdestination : last.destination = some .providerIdentityExpand := hfinal
  have hask := mapError_eq_ok.mp hasked
  dsimp only at hlast hask
  rw [hlast, Option.elim_some, hdestination] at hask
  exact asked_of_intermediate hask

/-- What a script that commits has done. -/
theorem execute_eq_ok {script : Script} {db db' : Database σ}
    (h : db.execute ops script = .ok db') :
    applyMoves ops script.moves db.content = .ok db'.content ∧ db'.name = db.name ∧
      scriptVersion (ε := ε) db.version script.moves = .ok db'.version ∧
      (script.assertsDatabase = true → db.name = disposableTestDatabase) := by
  obtain ⟨content, hcontent, h⟩ := bind_eq_ok h
  obtain ⟨version, hversion, h⟩ := bind_eq_ok h
  obtain ⟨_, hasserted, h⟩ := bind_eq_ok h
  obtain rfl := Except.ok.inj h
  exact ⟨mapError_eq_ok.mp hcontent, rfl, hversion, assertDatabase_eq_ok hasserted⟩

/-! ## Revision A -/

/-- Not left at Revision A, unless it is the disposable test database. -/
def Database.NotIntermediate (db : Database σ) : Prop :=
  db.name ≠ disposableTestDatabase → db.version ≠ some .providerIdentityExpand

theorem Database.NotIntermediate.runOnline {environ : String → Option String}
    {direction : Direction} {target : Option Revision} {db db' : Database σ}
    (h : db.runOnline lib ops environ direction target = .ok db') : db'.NotIntermediate := by
  obtain ⟨url, moves, hran⟩ := runOnline_eq_ok h
  intro hname hversion
  exact hname (hran.name.trans (hran.disposable (hran.version.symm.trans hversion)))

theorem Database.NotIntermediate.execute {script : Script} {db db' : Database σ}
    (hdb : db.NotIntermediate) (hscript : script.Guarded)
    (h : db.execute ops script = .ok db') : db'.NotIntermediate := by
  obtain ⟨-, hsame, hversion, hasserted⟩ := execute_eq_ok h
  obtain ⟨start, target, hleads, hguard⟩ := hscript
  intro hname hintermediate
  rw [hsame] at hname
  rcases (hleads.scriptVersion_cases hversion).2 with hold | ⟨hne, hend⟩
  · exact hdb hname (hold.symm.trans hintermediate)
  · exact hname (hasserted (hguard hne (hend.symm.trans hintermediate)))

/-! ## Operations -/

theorem getElem?_update (fleet : Fleet σ) (k j : ℕ)
    (change : Database σ → Except (RunError ε) (Database σ)) :
    (fleet.update k change).databases[j]? = if k = j then
      fleet.databases[j]?.map fun db => (change db).toOption.getD db
    else fleet.databases[j]? := by
  rw [Fleet.update, List.getElem?_modify]
  split_ifs with heq <;> simp

/-- A property that every change of a database keeps. -/
theorem forall_update {P : Database σ → Prop} {fleet : Fleet σ} {k : ℕ}
    {change : Database σ → Except (RunError ε) (Database σ)} (h : ∀ db ∈ fleet.databases, P db)
    (hchange : ∀ db db', fleet.databases[k]? = some db → P db → change db = .ok db' → P db') :
    ∀ db ∈ (fleet.update k change).databases, P db := by
  intro db hdb
  obtain ⟨j, hj⟩ := List.mem_iff_getElem?.mp hdb
  rw [getElem?_update] at hj
  split_ifs at hj with hk
  · subst hk
    obtain ⟨old, hold, rfl⟩ := Option.map_eq_some_iff.mp hj
    have hP := h old (List.mem_of_getElem? hold)
    cases hresult : change old with
    | error e => exact hP
    | ok db' => exact hchange old db' hold hP hresult
  · exact h db (List.mem_of_getElem? hj)

theorem parse_eq_ok {text : String} {url : Url} (h : parse lib text = .ok url) :
    lib.makeUrl text = some url := by
  unfold parse at h
  cases hparsed : lib.makeUrl text with
  | none =>
      rw [hparsed] at h
      cases h
  | some parsed =>
      rw [hparsed] at h
      exact congrArg some (Except.ok.inj h)

theorem assertConnectedDatabase_eq_ok {name : String} {url : Url} {u : Unit}
    (h : assertConnectedDatabase name url = .ok u) : url.database = some name :=
  (beq_iff_eq.mp (require_eq_ok h)).symm

/-- An online run has an explicit target, off the development port, and for any but the
disposable test database, at its own host and port, an opt-in. -/
theorem validateAlembicTarget_eq_ok {environ : String → Option String} {url : Url}
    (h : validateAlembicTarget lib environ false = .ok url) :
    lib.makeUrl ((environ databaseUrlEnv).getD "") = some url ∧
      url.port ≠ some devDatabasePort ∧ environ alembicTargetDatabaseEnv = url.database ∧
      (isDisposableTestIdentity lib url = true ∨
        environ alembicAllowNonTestDatabaseEnv = some alembicAllowNonTestDatabaseValue) := by
  obtain ⟨parsed, hparsed, h⟩ := bind_eq_ok h
  obtain ⟨_, htarget, h⟩ := bind_eq_ok h
  obtain ⟨_, hoptIn, h⟩ := bind_eq_ok h
  obtain rfl := Except.ok.inj h
  obtain ⟨_, -, hparsed⟩ := bind_eq_ok hparsed
  obtain ⟨parsed', hparse, hparsed⟩ := bind_eq_ok hparsed
  obtain ⟨_, -, hparsed⟩ := bind_eq_ok hparsed
  obtain ⟨_, -, hparsed⟩ := bind_eq_ok hparsed
  obtain ⟨_, -, hparsed⟩ := bind_eq_ok hparsed
  obtain ⟨_, hport, hparsed⟩ := bind_eq_ok hparsed
  obtain rfl := Except.ok.inj hparsed
  refine ⟨parse_eq_ok hparse, bne_iff_ne.mp (require_eq_ok hport),
    beq_iff_eq.mp (require_eq_ok htarget), ?_⟩
  unfold requireOptIn at hoptIn
  split_ifs at hoptIn with hdisposable
  · exact .inl hdisposable
  · exact .inr (beq_iff_eq.mp (require_eq_ok hoptIn))

/-- A truncation keeps the name and the revision. -/
theorem truncate_eq_ok {existingTablesOnly : Bool} {db db' : Database σ}
    (h : db.truncate ops existingTablesOnly = .ok db') :
    ∃ content, ops.truncate existingTablesOnly db.content = .ok content ∧
      db' = { db with content := content } := by
  unfold Database.truncate at h
  cases hcontent : ops.truncate existingTablesOnly db.content with
  | error e =>
      rw [hcontent] at h
      cases h
  | ok content =>
      rw [hcontent] at h
      exact ⟨content, rfl, (Except.ok.inj h).symm⟩

/-- A demo resets a database of its list, by its URL. -/
theorem reset_eq_ok {databaseUrl : String} {db db' : Database σ}
    (h : db.reset lib ops databaseUrl = .ok db') :
    (∃ url, lib.makeUrl databaseUrl = some url ∧ url.database = some db.name) ∧
      db.name ∈ demoResetAllowedDatabases ∧ db.truncate ops false = .ok db' := by
  obtain ⟨expected, hexpected, h⟩ := bind_eq_ok h
  obtain ⟨_, hconnected, htruncate⟩ := bind_eq_ok h
  obtain ⟨parsed, hparsed, hexpected⟩ := bind_eq_ok (mapError_eq_ok.mp hexpected)
  obtain ⟨_, hallowed, hexpected⟩ := bind_eq_ok hexpected
  obtain rfl := Except.ok.inj hexpected
  have hname := assertConnectedDatabase_eq_ok (mapError_eq_ok.mp hconnected)
  have hmem := require_eq_ok hallowed
  rw [hname, List.contains_iff_mem] at hmem
  exact ⟨⟨parsed, parse_eq_ok hparsed, hname⟩, hmem, htruncate⟩

/-- Tests truncate the disposable test database, on its own host and port. -/
theorem verifyAndTruncate_eq_ok {url : Option String} {protectedUrls : List (Option String)}
    {existingTablesOnly : Bool} {db db' : Database σ}
    (h : db.verifyAndTruncate lib ops url protectedUrls existingTablesOnly = .ok db') :
    (∃ parsed, lib.makeUrl (url.getD "") = some parsed ∧
      isDisposableTestIdentity lib parsed = true) ∧ db.name = disposableTestDatabase ∧
      db.truncate ops existingTablesOnly = .ok db' := by
  obtain ⟨expected, hexpected, h⟩ := bind_eq_ok h
  obtain ⟨_, -, h⟩ := bind_eq_ok h
  obtain ⟨_, hname, htruncate⟩ := bind_eq_ok h
  obtain ⟨parsed, hparsed, hexpected⟩ := bind_eq_ok (mapError_eq_ok.mp hexpected)
  obtain ⟨_, hhost, hexpected⟩ := bind_eq_ok hexpected
  obtain ⟨_, hport, hexpected⟩ := bind_eq_ok hexpected
  obtain ⟨_, hdatabase, hexpected⟩ := bind_eq_ok hexpected
  obtain rfl := Except.ok.inj hexpected
  obtain ⟨_, -, hparsed⟩ := bind_eq_ok hparsed
  obtain ⟨parsed', hparse, hparsed⟩ := bind_eq_ok hparsed
  obtain ⟨_, -, hparsed⟩ := bind_eq_ok hparsed
  obtain ⟨_, -, hparsed⟩ := bind_eq_ok hparsed
  obtain ⟨_, -, hparsed⟩ := bind_eq_ok hparsed
  obtain ⟨_, -, hparsed⟩ := bind_eq_ok hparsed
  obtain rfl := Except.ok.inj hparsed
  refine ⟨⟨parsed', parse_eq_ok hparse, ?_⟩,
    beq_iff_eq.mp (require_eq_ok (mapError_eq_ok.mp hname)), htruncate⟩
  rw [isDisposableTestIdentity, require_eq_ok hhost, require_eq_ok hport,
    require_eq_ok hdatabase]
  rfl

/-! ## Databases under operation -/

namespace FleetExample

def testUrl : String := "postgresql+asyncpg://postgres@localhost:5434/payment_recovery_test"

def productionUrl : String := "postgresql+asyncpg://postgres@db.internal:5432/payments"

/-- A library that knows two URLs. -/
def urls : UrlLibrary where
  makeUrl text :=
    if text = testUrl then
      some ⟨"postgresql+asyncpg", some "localhost", some 5434, some "payment_recovery_test"⟩
    else if text = productionUrl then
      some ⟨"postgresql+asyncpg", some "db.internal", some 5432, some "payments"⟩
    else none
  redacted url := url.database.getD ""
  lower text := text

/-- Statements that count what they did. -/
def counting : TableOperations ℕ Unit where
  migrate _ n := .ok (n + 1)
  truncate _ _ := .ok 0

def production : Database ℕ := ⟨"payments", some .counterfactualAttributions, 0⟩

def test : Database ℕ := ⟨"payment_recovery_test", some .counterfactualAttributions, 0⟩

/-- The environment of a run on production, with or without the opt-in. -/
def environ (optIn : Option String) (name : String) : Option String :=
  if name = databaseUrlEnv then some productionUrl
  else if name = alembicTargetDatabaseEnv then some "payments"
  else if name = alembicAllowNonTestDatabaseEnv then optIn
  else none

/-- A run to Revision A that ends there, and its script on both databases. -/
def operations : List (Operation ℕ) :=
  [.online (environ (some "yes")) .upgrade (some .providerIdentityExpand) 0,
    .render (environ none) .upgrade (some .counterfactualAttributions)
      (some .providerIdentityExpand),
    .execute 0 0, .execute 0 1]

/-- The script leaves the test database at Revision A. -/
example : ((⟨[production, test], []⟩ : Fleet ℕ).run urls counting operations).databases.map
    (fun db => (db.name, db.version, db.content)) =
      [("payments", some .counterfactualAttributions, 0),
        ("payment_recovery_test", some .providerIdentityExpand, 1)] := by decide +kernel

end FleetExample

/-- No database but the disposable one is at Revision A, and no script can take one there. -/
structure Fleet.Guarded (fleet : Fleet σ) : Prop where
  databases : ∀ db ∈ fleet.databases, db.NotIntermediate
  scripts : ∀ script ∈ fleet.scripts, script.Guarded

theorem Fleet.Guarded.perform {fleet : Fleet σ} (h : fleet.Guarded) (operation : Operation σ) :
    (fleet.perform lib ops operation).Guarded := by
  cases operation with
  | online environ direction target k =>
      exact { databases := forall_update h.databases fun _ _ _ _ hrun => .runOnline hrun
              scripts := h.scripts }
  | render environ direction start target =>
      refine { databases := h.databases, scripts := fun script hscript => ?_ }
      rcases List.mem_append.mp hscript with hold | hnew
      · exact h.scripts script hold
      · cases hrender : renderOffline (ε := ε) lib environ direction start target with
        | error e =>
            rw [hrender] at hnew
            exact absurd hnew List.not_mem_nil
        | ok rendered =>
            rw [hrender] at hnew
            obtain rfl := List.mem_singleton.mp hnew
            exact (renderOffline_eq_ok hrender).2
  | execute script k =>
      dsimp only [Fleet.perform]
      cases hscript : fleet.scripts[script]? with
      | none => exact h
      | some script =>
          have hguarded := h.scripts script (List.mem_of_getElem? hscript)
          exact { databases := forall_update h.databases fun _ _ _ hdb hrun =>
                    hdb.execute hguarded hrun
                  scripts := h.scripts }
  | reset databaseUrl k =>
      refine { databases := forall_update h.databases fun db db' _ hdb hreset => ?_
               scripts := h.scripts }
      obtain ⟨-, -, htruncate⟩ := reset_eq_ok hreset
      obtain ⟨_, -, rfl⟩ := truncate_eq_ok htruncate
      exact hdb
  | verifyAndTruncate url protectedUrls existingTablesOnly k =>
      refine { databases := forall_update h.databases fun db db' _ hdb htruncate => ?_
               scripts := h.scripts }
      obtain ⟨-, -, htruncate⟩ := verifyAndTruncate_eq_ok htruncate
      obtain ⟨_, -, rfl⟩ := truncate_eq_ok htruncate
      exact hdb
  | write content k =>
      refine { databases := forall_update h.databases fun db db' _ hdb hwrite => ?_
               scripts := h.scripts }
      obtain rfl := Except.ok.inj hwrite
      exact hdb

theorem Fleet.Guarded.run {fleet : Fleet σ} (h : fleet.Guarded)
    (operations : List (Operation σ)) :
    (fleet.run lib ops operations).Guarded := by
  induction operations generalizing fleet with
  | nil => exact h
  | cons operation operations ih => exact ih (h.perform operation)

/-- No sequence of migration runs, rendered scripts, truncations and writes leaves a database
other than the disposable test database at Revision A. -/
theorem never_left_intermediate {databases : List (Database σ)}
    (h : ∀ db ∈ databases, db.NotIntermediate) (operations : List (Operation σ)) :
    ∀ db ∈ ((⟨databases, []⟩ : Fleet σ).run lib ops operations).databases,
      db.name ≠ disposableTestDatabase → db.version ≠ some .providerIdentityExpand := by
  have hstart : (⟨databases, []⟩ : Fleet σ).Guarded :=
    { databases := h, scripts := fun _ hmem => absurd hmem List.not_mem_nil }
  exact (hstart.run operations).databases

open FleetExample in
/-- The run is refused, and the script leaves the test database at Revision A alone. -/
theorem never_left_intermediate_example :
    ∃ db ∈ ((⟨[production, test], []⟩ : Fleet ℕ).run urls counting operations).databases,
      db.name = "payments" ∧ db.version ≠ some .providerIdentityExpand := by
  have hmem : production ∈
      ((⟨[production, test], []⟩ : Fleet ℕ).run urls counting operations).databases := by
    decide +kernel
  refine ⟨production, hmem, rfl,
    never_left_intermediate (fun db hdb _ => ?_) operations production hmem (by decide)⟩
  rcases List.mem_cons.mp hdb with rfl | hdb
  · exact fun heq => by cases heq
  · obtain rfl := List.mem_singleton.mp hdb
    exact fun heq => by cases heq

/-- An operation that may change the database `k`, by its name: an online run that names it as
its target, with a URL off the development port that is the disposable test database's or an
opt-in; somebody's script; a reset or a truncation of a database for that; or a write of the
application. -/
def Operation.Allows (lib : UrlLibrary) (k : ℕ) (name : String) : Operation σ → Prop
  | .online environ _ _ k' => k' = k ∧ environ alembicTargetDatabaseEnv = some name ∧
      ∃ url, lib.makeUrl ((environ databaseUrlEnv).getD "") = some url ∧
        url.database = some name ∧ url.port ≠ some devDatabasePort ∧
        (isDisposableTestIdentity lib url = true ∨
          environ alembicAllowNonTestDatabaseEnv = some alembicAllowNonTestDatabaseValue)
  | .render _ _ _ _ => False
  | .execute _ k' => k' = k
  | .reset databaseUrl k' => k' = k ∧ name ∈ demoResetAllowedDatabases ∧
      ∃ url, lib.makeUrl databaseUrl = some url ∧ url.database = some name
  | .verifyAndTruncate url _ _ k' => k' = k ∧ name = disposableTestDatabase ∧
      ∃ parsed, lib.makeUrl (url.getD "") = some parsed ∧
        isDisposableTestIdentity lib parsed = true
  | .write _ k' => k' = k

/-- A change that never succeeds on a database leaves it as it is. -/
theorem getElem?_update_of_not {fleet : Fleet σ} {k j : ℕ} {db : Database σ}
    {change : Database σ → Except (RunError ε) (Database σ)} (hdb : fleet.databases[k]? = some db)
    (h : ∀ db', change db = .ok db' → j ≠ k) :
    (fleet.update j change).databases[k]? = some db := by
  rw [getElem?_update]
  split_ifs with heq
  · rw [hdb, Option.map_some]
    cases hresult : change db with
    | error e => rfl
    | ok db' => exact absurd heq (h db' hresult)
  · exact hdb

theorem Fleet.perform_unchanged {fleet : Fleet σ} {k : ℕ} {db : Database σ}
    (hdb : fleet.databases[k]? = some db) {operation : Operation σ}
    (h : ¬ operation.Allows lib k db.name) :
    (fleet.perform lib ops operation).databases[k]? = some db := by
  cases operation with
  | online environ direction target j =>
      refine getElem?_update_of_not hdb fun db' hrun heq => h ⟨heq, ?_⟩
      obtain ⟨url, moves, hran⟩ := runOnline_eq_ok hrun
      obtain ⟨hurl, hport, htarget, hoptIn⟩ := validateAlembicTarget_eq_ok hran.validated
      rw [hran.connected] at htarget
      exact ⟨htarget, url, hurl, hran.connected, hport, hoptIn⟩
  | render environ direction start target => exact hdb
  | execute script j =>
      dsimp only [Fleet.perform]
      cases fleet.scripts[script]? with
      | none => exact hdb
      | some script => exact getElem?_update_of_not hdb fun _ _ heq => h heq
  | reset databaseUrl j =>
      refine getElem?_update_of_not hdb fun db' hreset heq => ?_
      obtain ⟨hurl, hname, -⟩ := reset_eq_ok hreset
      exact h ⟨heq, hname, hurl⟩
  | verifyAndTruncate url protectedUrls existingTablesOnly j =>
      refine getElem?_update_of_not hdb fun db' htruncate heq => ?_
      obtain ⟨hurl, hname, -⟩ := verifyAndTruncate_eq_ok htruncate
      exact h ⟨heq, hname, hurl⟩
  | write content j => exact getElem?_update_of_not hdb fun _ _ heq => h heq

/-- A database stays as it is, rows and revision, unless an operation that its guards allow is
performed on it. -/
theorem unchanged_unless_allowed {fleet : Fleet σ} {k : ℕ} {db : Database σ}
    (hdb : fleet.databases[k]? = some db) {operations : List (Operation σ)}
    (h : ∀ operation ∈ operations, ¬ operation.Allows lib k db.name) :
    (fleet.run lib ops operations).databases[k]? = some db := by
  induction operations generalizing fleet with
  | nil => exact hdb
  | cons operation operations ih =>
      exact ih (Fleet.perform_unchanged hdb (h operation List.mem_cons_self))
        fun later hlater => h later (List.mem_cons_of_mem _ hlater)

open FleetExample in
/-- Without the opt-in, nothing happens to production. -/
theorem unchanged_unless_allowed_example :
    ((⟨[production, test], []⟩ : Fleet ℕ).run urls counting
      [.online (environ none) .upgrade (some .providerIdentityContract) 0,
        .reset productionUrl 0, .execute 0 1]).databases[0]? = some production := by
  refine unchanged_unless_allowed rfl fun operation hmem hallows => ?_
  simp only [List.mem_cons, List.not_mem_nil, or_false] at hmem
  rcases hmem with rfl | rfl | rfl
  · obtain ⟨-, -, url, hurl, hname, -, hdisposable | hoptIn⟩ := hallows
    · simp only [isDisposableTestIdentity, Bool.and_eq_true, beq_iff_eq] at hdisposable
      exact absurd (hname.symm.trans hdisposable.2) (by decide)
    · exact absurd hoptIn (by decide)
  · obtain ⟨-, hname, -⟩ := hallows
    exact absurd hname (by decide)
  · have hother : 1 = 0 := hallows
    exact absurd hother (by decide)

end Runs

end RevenueRecovery.Migration
