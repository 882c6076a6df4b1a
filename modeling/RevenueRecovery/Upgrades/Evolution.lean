import RevenueRecovery.Upgrades.Downgrade
import RevenueRecovery.Upgrades.Guards

/-!
# The schema over the life of a database

Migration runs with the two provider-identity revisions in place. Whatever is done to a
database, its tables keep the constraints of the revision it is at, so a downgrade always
succeeds; and a database that is upgraded and taken back has the rows it had.

The revisions before `8b9c0d1e2f3a` are a parameter, and runs stay at or above it.

## Main definitions
* `tableOperations` : what the revisions and `TRUNCATE` do to the tables.
* `SchemaAt` : the constraints of a revision.
* `Operation.Respects`, `Fleet.Respected` : runs among the modelled revisions, scripts
  that start where their database is, and writes that the constraints let through.
-/
namespace RevenueRecovery.Migration

open Relational Traverse

variable {ρ : Type}

/-! ## Tables -/

def emptyLegacy : LegacyTables ρ := ⟨[], [], [], [], [], [], []⟩

def emptyExpanded : ExpandedTables ρ := ⟨[], [], [], [], [], [], [], []⟩

/-- What a move does to the tables; `other` is what it does in any other case. -/
def migrateTables (other : Move → Content ρ → Except MigrationError (Content ρ)) (m : Move)
    (content : Content ρ) : Except MigrationError (Content ρ) :=
  match m.direction, m.revision, content with
  | .upgrade, .providerIdentityExpand, .legacy db => (Expand.upgrade db).map .expanded
  | .upgrade, .providerIdentityContract, .expanded db => (Contract.upgrade db).map .expanded
  | .downgrade, .providerIdentityContract, .expanded db => (Contract.downgrade db).map .expanded
  | .downgrade, .providerIdentityExpand, .expanded db => .ok (.legacy (Expand.downgrade db))
  | _, _, _ => other m content

/-- `TRUNCATE` of every table of the application fails before there is a registry. -/
def truncateTables (existingTablesOnly : Bool) (content : Content ρ) :
    Except MigrationError (Content ρ) :=
  match content with
  | .legacy _ =>
      if existingTablesOnly then .ok (.legacy emptyLegacy)
      else .error (.constraint "payment_attempts")
  | .expanded _ => .ok (.expanded emptyExpanded)

def tableOperations (other : Move → Content ρ → Except MigrationError (Content ρ)) :
    TableOperations (Content ρ) MigrationError where
  migrate := migrateTables other
  truncate := truncateTables

/-! ## Schemas -/

/-- The constraints of the tables at a revision; earlier revisions are not modelled. -/
def SchemaAt (version : Option Revision) (content : Content ρ) : Prop :=
  match version, content with
  | some .counterfactualAttributions, .legacy db => LegacySchema db
  | some .providerIdentityExpand, .expanded db => ExpandedSchema db
  | some .providerIdentityContract, .expanded db => ContractedSchema db
  | _, _ => False

/-- The revisions whose tables are modelled. -/
def modelledRevisions : List (Option Revision) :=
  [some .counterfactualAttributions, some .providerIdentityExpand,
    some .providerIdentityContract]

theorem SchemaAt.modelled {version : Option Revision} {content : Content ρ}
    (h : SchemaAt version content) : version ∈ modelledRevisions := by
  cases version with
  | none => exact h.elim
  | some r =>
      cases r with
      | counterfactualAttributions => decide
      | providerIdentityExpand => decide
      | providerIdentityContract => decide
      | _ => exact h.elim

theorem legacySchema_empty : LegacySchema (emptyLegacy : LegacyTables ρ) := by
  constructor <;> first
    | exact List.nodup_nil
    | exact fun _ hmem => absurd hmem List.not_mem_nil

theorem registrySchema_empty : RegistrySchema (emptyExpanded : ExpandedTables ρ) where
  uq_payment_event_provider := List.nodup_nil
  registry := by
    simp only [registryConstraints, List.forall_mem_cons, constraint_passes]
    refine ⟨?_, ?_, ?_, ?_, ?_, ?_, ?_, ?_, ?_, ?_, fun _ hmem => absurd hmem List.not_mem_nil⟩ <;>
      first
        | exact List.nodup_nil
        | exact fun _ hmem => absurd hmem List.not_mem_nil

theorem contractedSchema_empty : ContractedSchema (emptyExpanded : ExpandedTables ρ) where
  toRegistrySchema := registrySchema_empty
  kept := legacySchema_empty.kept
  enforced := by
    simp only [newConstraints, List.forall_mem_cons, constraint_passes]
    refine ⟨?_, ?_, ?_, ?_, ?_, ?_, ?_, ?_, ?_, ?_, ?_, ?_, ?_, ?_, ?_, ?_, ?_, ?_, ?_, ?_, ?_, ?_,
      fun _ hmem => absurd hmem List.not_mem_nil⟩ <;>
      first
        | exact List.nodup_nil
        | exact fun _ hmem => absurd hmem List.not_mem_nil

section Evolution
variable {other : Move → Content ρ → Except MigrationError (Content ρ)}

/-- A truncation leaves no row, and so the constraints. -/
theorem SchemaAt.truncate {version : Option Revision} {content content' : Content ρ}
    {existingTablesOnly : Bool} (h : SchemaAt version content)
    (htruncate : truncateTables existingTablesOnly content = .ok content') :
    SchemaAt version content' := by
  have hmodelled := h.modelled
  simp only [modelledRevisions, List.mem_cons, List.not_mem_nil, or_false] at hmodelled
  cases content with
  | legacy db =>
      unfold truncateTables at htruncate
      split_ifs at htruncate
      obtain rfl := Except.ok.inj htruncate
      rcases hmodelled with rfl | rfl | rfl
      · exact legacySchema_empty
      · exact h.elim
      · exact h.elim
  | expanded db =>
      obtain rfl := Except.ok.inj htruncate
      rcases hmodelled with rfl | rfl | rfl
      · exact h.elim
      · exact { toRegistrySchema := registrySchema_empty, legacy := legacySchema_empty }
      · exact contractedSchema_empty

/-- The moves between modelled revisions. -/
theorem move_cases {m : Move} (hsource : m.source ∈ modelledRevisions)
    (hdestination : m.destination ∈ modelledRevisions) :
    m = ⟨.upgrade, .providerIdentityExpand⟩ ∨ m = ⟨.upgrade, .providerIdentityContract⟩ ∨
      m = ⟨.downgrade, .providerIdentityContract⟩ ∨ m = ⟨.downgrade, .providerIdentityExpand⟩ := by
  obtain ⟨direction, revision⟩ := m
  revert hsource hdestination
  cases direction <;> cases revision <;> decide

/-- A move between modelled revisions takes the schema of its source to that of its
destination. -/
theorem SchemaAt.migrate {m : Move} {content content' : Content ρ}
    (h : SchemaAt m.source content) (hdestination : m.destination ∈ modelledRevisions)
    (hmove : migrateTables other m content = .ok content') : SchemaAt m.destination content' := by
  rcases move_cases h.modelled hdestination with rfl | rfl | rfl | rfl
  · cases content with
    | expanded db => exact h.elim
    | legacy db =>
        cases hup : Expand.upgrade db with
        | error e =>
            simp only [migrateTables, hup, Except.map] at hmove
            cases hmove
        | ok db' =>
            simp only [migrateTables, hup, Except.map] at hmove
            obtain rfl := Except.ok.inj hmove
            exact (expandedSchema_of_upgrade h hup).1
  · cases content with
    | legacy db => exact h.elim
    | expanded db =>
        cases hup : Contract.upgrade db with
        | error e =>
            simp only [migrateTables, hup, Except.map] at hmove
            cases hmove
        | ok db' =>
            simp only [migrateTables, hup, Except.map] at hmove
            obtain rfl := Except.ok.inj hmove
            exact (contractedSchema_of_upgrade h hup).1
  · cases content with
    | legacy db => exact h.elim
    | expanded db =>
        obtain ⟨hok, hschema⟩ := contract_downgrade_eq_ok h
        simp only [migrateTables, hok, Except.map] at hmove
        obtain rfl := Except.ok.inj hmove
        exact hschema
  · cases content with
    | legacy db => exact h.elim
    | expanded db =>
        obtain rfl := Except.ok.inj hmove
        exact h.legacy

/-! ## Runs of moves -/

/-- Moves that stay among the modelled revisions. -/
def StaysModelled (moves : List Move) : Prop :=
  ∀ m ∈ moves, m.destination ∈ modelledRevisions

theorem SchemaAt.applyMoves {start target : Option Revision} {moves : List Move}
    {content content' : Content ρ} (h : SchemaAt start content) (hleads : Leads start moves target)
    (hstays : StaysModelled moves)
    (hmoves : applyMoves (tableOperations other) moves content = .ok content') :
    SchemaAt target content' := by
  induction moves generalizing start content with
  | nil =>
      obtain rfl : start = target := hleads
      obtain rfl := Except.ok.inj hmoves
      exact h
  | cons m moves ih =>
      obtain ⟨rfl, hrest⟩ := hleads
      obtain ⟨middle, hmiddle, hmoves⟩ := bind_eq_ok hmoves
      exact ih (h.migrate (hstays m List.mem_cons_self) hmiddle) hrest
        (fun m' hm' => hstays m' (List.mem_cons_of_mem m hm')) hmoves

/-- A plan between modelled revisions stays among them. -/
theorem staysModelled_of_plan {direction : Direction} {start target : Option Revision}
    {moves : List Move} (hstart : start ∈ modelledRevisions) (htarget : target ∈ modelledRevisions)
    (h : plan direction start target = some moves) : StaysModelled moves := by
  have hall : ∀ start ∈ modelledRevisions, ∀ target ∈ modelledRevisions,
      ∀ moves ∈ plan direction start target, ∀ m ∈ moves,
        m.destination ∈ modelledRevisions := by
    cases direction <;> decide +kernel
  exact hall start hstart target htarget moves h

/-! ## Databases under operation -/

/-- The operation keeps to the modelled revisions; a script starts where its database is, and
the constraints let a write through. -/
def Operation.Respects (fleet : Fleet (Content ρ)) : Operation (Content ρ) → Prop
  | .online _ _ target _ => target ∈ modelledRevisions
  | .render _ _ start target => start ∈ modelledRevisions ∧ target ∈ modelledRevisions
  | .execute script k => ∀ s db, fleet.scripts[script]? = some s →
      fleet.databases[k]? = some db → ∃ target, Leads db.version s.moves target
  | .write content k => ∀ db, fleet.databases[k]? = some db → SchemaAt db.version content
  | .reset _ _ => True
  | .verifyAndTruncate _ _ _ _ => True

/-- Each operation respects the databases as it finds them. -/
def Fleet.Respected (lib : UrlLibrary)
    (other : Move → Content ρ → Except MigrationError (Content ρ)) (fleet : Fleet (Content ρ)) :
    List (Operation (Content ρ)) → Prop
  | [] => True
  | operation :: operations => operation.Respects fleet ∧
      (fleet.perform lib (tableOperations other) operation).Respected lib other operations

/-- The tables have the constraints of their revision, and scripts keep to the modelled ones. -/
structure Fleet.Sound (fleet : Fleet (Content ρ)) : Prop where
  databases : ∀ db ∈ fleet.databases, SchemaAt db.version db.content
  scripts : ∀ script ∈ fleet.scripts, StaysModelled script.moves

theorem SchemaAt.of_truncate {db db' : Database (Content ρ)} {existingTablesOnly : Bool}
    (h : SchemaAt db.version db.content)
    (htruncate : db.truncate (tableOperations other) existingTablesOnly = .ok db') :
    SchemaAt db'.version db'.content := by
  obtain ⟨content, hcontent, rfl⟩ := truncate_eq_ok htruncate
  exact h.truncate hcontent

theorem SchemaAt.settled {version : Option Revision} {content : Content ρ}
    (h : SchemaAt version content) (hsettled : version ≠ some .providerIdentityExpand) :
    (∃ tables, content = .legacy tables ∧ LegacySchema tables) ∨
      ∃ tables, content = .expanded tables ∧ ContractedSchema tables := by
  have hmodelled := h.modelled
  simp only [modelledRevisions, List.mem_cons, List.not_mem_nil, or_false] at hmodelled
  rcases hmodelled with rfl | rfl | rfl
  · cases content with
    | legacy tables => exact .inl ⟨tables, rfl, h⟩
    | expanded tables => exact h.elim
  · exact absurd rfl hsettled
  · cases content with
    | legacy tables => exact h.elim
    | expanded tables => exact .inr ⟨tables, rfl, h⟩

theorem Fleet.Sound.perform {lib : UrlLibrary} {fleet : Fleet (Content ρ)} (h : fleet.Sound)
    {operation : Operation (Content ρ)} (hrespects : operation.Respects fleet) :
    (fleet.perform lib (tableOperations other) operation).Sound := by
  cases operation with
  | online environ direction target k =>
      refine { databases := forall_update h.databases fun db db' _ hdb hrun => ?_
               scripts := h.scripts }
      obtain ⟨url, moves, hran⟩ := runOnline_eq_ok hrun
      rw [hran.version]
      exact hdb.applyMoves (leads_of_plan hran.planned)
        (staysModelled_of_plan hdb.modelled hrespects hran.planned) hran.content
  | render environ direction start target =>
      refine { databases := h.databases, scripts := fun script hscript => ?_ }
      rcases List.mem_append.mp hscript with hold | hnew
      · exact h.scripts script hold
      · cases hrender : renderOffline (ε := MigrationError) lib environ direction start target with
        | error e =>
            rw [hrender] at hnew
            exact absurd hnew List.not_mem_nil
        | ok rendered =>
            rw [hrender] at hnew
            obtain rfl := List.mem_singleton.mp hnew
            exact staysModelled_of_plan hrespects.1 hrespects.2 (renderOffline_eq_ok hrender).1
  | execute script k =>
      dsimp only [Fleet.perform]
      cases hscript : fleet.scripts[script]? with
      | none => exact h
      | some s =>
          refine { databases := forall_update h.databases fun db db' hk hdb hrun => ?_
                   scripts := h.scripts }
          obtain ⟨target, hleads⟩ := hrespects s db hscript hk
          obtain ⟨hcontent, -, hversion, -⟩ := execute_eq_ok hrun
          rw [(hleads.scriptVersion_cases hversion).1 rfl]
          exact hdb.applyMoves hleads (h.scripts s (List.mem_of_getElem? hscript)) hcontent
  | reset databaseUrl k =>
      refine { databases := forall_update h.databases fun db db' _ hdb hreset => ?_
               scripts := h.scripts }
      exact hdb.of_truncate (reset_eq_ok hreset).2.2
  | verifyAndTruncate url protectedUrls existingTablesOnly k =>
      refine { databases := forall_update h.databases fun db db' _ hdb htruncate => ?_
               scripts := h.scripts }
      exact hdb.of_truncate (verifyAndTruncate_eq_ok htruncate).2.2
  | write content k =>
      refine { databases := forall_update h.databases fun db db' hk hdb hwrite => ?_
               scripts := h.scripts }
      obtain rfl := Except.ok.inj hwrite
      exact hrespects db hk

theorem Fleet.Sound.run {lib : UrlLibrary} {fleet : Fleet (Content ρ)} (h : fleet.Sound)
    {operations : List (Operation (Content ρ))}
    (hrespected : fleet.Respected lib other operations) :
    (fleet.run lib (tableOperations other) operations).Sound := by
  induction operations generalizing fleet with
  | nil => exact h
  | cons operation operations ih => exact ih (h.perform hrespected.1) hrespected.2

namespace EvolutionExample

open MigrationExample FleetExample

def legacyProduction : Database (Content Unit) :=
  ⟨"payments", some .counterfactualAttributions, .legacy tables⟩

theorem schemaAt_legacyProduction :
    SchemaAt legacyProduction.version legacyProduction.content := by
  have hschema : LegacySchema tables := by constructor <;> decide +kernel
  exact hschema

/-- No run here reaches another revision. -/
def unmodelled (_ : Move) (_ : Content Unit) : Except MigrationError (Content Unit) :=
  .error (.constraint "revision")

def roundTrip : List (Operation (Content Unit)) :=
  [.online (environ (some "yes")) .upgrade (some .providerIdentityContract) 0,
    .online (environ (some "yes")) .downgrade (some .counterfactualAttributions) 0,
    .render (environ none) .upgrade (some .counterfactualAttributions)
      (some .providerIdentityContract)]

def upgradeScript : Script :=
  { moves := [⟨.upgrade, .providerIdentityExpand⟩, ⟨.upgrade, .providerIdentityContract⟩]
    assertsDatabase := false }

/-- The upgrade of production commits. -/
theorem upgrade_commits : (legacyProduction.runOnline urls (tableOperations unmodelled)
    (environ (some "yes")) .upgrade (some .providerIdentityContract)).toBool = true := by
  decide +kernel

end EvolutionExample

/-- Whatever migration runs among the modelled revisions, scripts executed at the revision they
start from, truncations and admitted writes there are, each database has the tables of its
revision with the constraints of that revision, and unless it is the disposable test database,
Revisions A and B are both applied or neither is. -/
theorem tables_match_revision {lib : UrlLibrary} {databases : List (Database (Content ρ))}
    (hschema : ∀ db ∈ databases, SchemaAt db.version db.content)
    (hguarded : ∀ db ∈ databases, db.NotIntermediate)
    {operations : List (Operation (Content ρ))}
    (h : (⟨databases, []⟩ : Fleet (Content ρ)).Respected lib other operations) :
    ∀ db ∈ ((⟨databases, []⟩ : Fleet (Content ρ)).run lib (tableOperations other)
        operations).databases,
      SchemaAt db.version db.content ∧ (db.name ≠ disposableTestDatabase →
        (∃ tables, db.content = .legacy tables ∧ LegacySchema tables) ∨
          ∃ tables, db.content = .expanded tables ∧ ContractedSchema tables) := by
  have hsound : (⟨databases, []⟩ : Fleet (Content ρ)).Sound :=
    { databases := hschema, scripts := fun _ hmem => absurd hmem List.not_mem_nil }
  have hstart : (⟨databases, []⟩ : Fleet (Content ρ)).Guarded :=
    { databases := hguarded, scripts := fun _ hmem => absurd hmem List.not_mem_nil }
  intro db hdb
  have hdbSchema := (hsound.run h).databases db hdb
  have hdbGuarded := (hstart.run operations).databases db hdb
  exact ⟨hdbSchema, fun hname => hdbSchema.settled (hdbGuarded hname)⟩

open EvolutionExample FleetExample in
/-- A fleet of one database; the run upgrades it, takes it back, and upgrades it once more by a
script. -/
theorem tables_match_revision_example :
    ∃ db ∈ ((⟨[legacyProduction], []⟩ : Fleet (Content Unit)).run urls
        (tableOperations unmodelled) (roundTrip ++ [.execute 0 0])).databases,
      db.version = some .providerIdentityContract ∧ SchemaAt db.version db.content := by
  have hversions : ((⟨[legacyProduction], []⟩ : Fleet (Content Unit)).run urls
      (tableOperations unmodelled) (roundTrip ++ [.execute 0 0])).databases.map (·.version) =
        [some .providerIdentityContract] := by decide +kernel
  obtain ⟨db, hdb, hversion⟩ := List.mem_map.mp (hversions ▸ List.mem_singleton_self _)
  refine ⟨db, hdb, hversion, (tables_match_revision (fun db hdb => ?_) (fun db hdb _ => ?_) ?_
    db hdb).1⟩
  · obtain rfl := List.mem_singleton.mp hdb
    exact schemaAt_legacyProduction
  · obtain rfl := List.mem_singleton.mp hdb
    exact fun heq => by cases heq
  · have hcontract : some Revision.providerIdentityContract ∈ modelledRevisions := by decide
    have hlegacy : some Revision.counterfactualAttributions ∈ modelledRevisions := by decide
    refine ⟨hcontract, hlegacy, ⟨hlegacy, hcontract⟩, fun script db hscript hdb => ?_, trivial⟩
    have hrendered : ((⟨[legacyProduction], []⟩ : Fleet (Content Unit)).run urls
        (tableOperations unmodelled) roundTrip).scripts[0]? = some upgradeScript := by
      decide +kernel
    have hback : (((⟨[legacyProduction], []⟩ : Fleet (Content Unit)).run urls
        (tableOperations unmodelled) roundTrip).databases[0]?).map (·.version) =
          some (some .counterfactualAttributions) := by decide +kernel
    obtain rfl := Option.some.inj (hrendered.symm.trans hscript)
    obtain ⟨db', hdb', hversion'⟩ := Option.map_eq_some_iff.mp hback
    obtain rfl := Option.some.inj (hdb.symm.trans hdb')
    exact ⟨some .providerIdentityContract, hversion'.symm, rfl, rfl⟩

/-! ## The way back -/

/-- The moves of an upgrade to Revision B and of the downgrade. -/
theorem plan_upgrade : plan .upgrade (some .counterfactualAttributions)
    (some .providerIdentityContract) =
      some [⟨.upgrade, .providerIdentityExpand⟩, ⟨.upgrade, .providerIdentityContract⟩] := by
  decide +kernel

theorem plan_downgrade : plan .downgrade (some .providerIdentityContract)
    (some .counterfactualAttributions) =
      some [⟨.downgrade, .providerIdentityContract⟩, ⟨.downgrade, .providerIdentityExpand⟩] := by
  decide +kernel

/-- The downgrade of what Revision B admits. -/
theorem applyMoves_downgrade {tables : ExpandedTables ρ} (h : ContractedSchema tables) :
    applyMoves (tableOperations other)
      [⟨.downgrade, .providerIdentityContract⟩, ⟨.downgrade, .providerIdentityExpand⟩]
      (.expanded tables) = .ok (.legacy tables.legacy) := by
  have hcontract : migrateTables other ⟨.downgrade, .providerIdentityContract⟩
      (.expanded tables) = .ok (.expanded tables) := by
    simp only [migrateTables, (contract_downgrade_eq_ok h).1, Except.map]
  unfold applyMoves
  rw [List.foldlM_cons]
  simp only [tableOperations, hcontract, bind, Except.bind]
  rfl

/-- The upgrade changes no row of the tables it starts from. -/
theorem applyMoves_upgrade {tables : LegacyTables ρ} {content : Content ρ}
    (h : LegacySchema tables)
    (hmoves : applyMoves (tableOperations other)
      [⟨.upgrade, .providerIdentityExpand⟩, ⟨.upgrade, .providerIdentityContract⟩]
      (.legacy tables) = .ok content) :
    ∃ tables', content = .expanded tables' ∧ tables'.legacy = tables ∧
      ContractedSchema tables' := by
  obtain ⟨middle, hexpand, hmoves⟩ := bind_eq_ok hmoves
  obtain ⟨last, hcontract, hmoves⟩ := bind_eq_ok hmoves
  obtain rfl := Except.ok.inj hmoves
  cases hup : Expand.upgrade tables with
  | error e =>
      simp only [tableOperations, migrateTables, hup, Except.map] at hexpand
      cases hexpand
  | ok expanded =>
      simp only [tableOperations, migrateTables, hup, Except.map] at hexpand
      obtain rfl := Except.ok.inj hexpand
      obtain ⟨hschema, hlegacy⟩ := expandedSchema_of_upgrade h hup
      cases hup' : Contract.upgrade expanded with
      | error e =>
          simp only [tableOperations, migrateTables, hup', Except.map] at hcontract
          cases hcontract
      | ok contracted =>
          simp only [tableOperations, migrateTables, hup', Except.map] at hcontract
          obtain rfl := Except.ok.inj hcontract
          obtain ⟨hcontracted, rfl⟩ := contractedSchema_of_upgrade hschema hup'
          exact ⟨contracted, rfl, hlegacy, hcontracted⟩

/-- An online downgrade from Revision B passes its guards wherever they let a run through. -/
theorem runOnline_downgrade {lib : UrlLibrary} {environ : String → Option String} {url : Url}
    {db : Database (Content ρ)} {tables : ExpandedTables ρ}
    (hversion : db.version = some .providerIdentityContract)
    (hcontent : db.content = .expanded tables) (hschema : ContractedSchema tables)
    (htarget : validateAlembicTarget lib environ false = .ok url)
    (hname : url.database = some db.name) :
    db.runOnline lib (tableOperations other) environ .downgrade
      (some .counterfactualAttributions) =
        .ok ⟨db.name, some .counterfactualAttributions, .legacy tables.legacy⟩ := by
  have hconnected : assertConnectedDatabase db.name url = .ok () := by
    rw [assertConnectedDatabase, hname, beq_self_eq_true]
    rfl
  have hmoves : applyMoves (tableOperations other)
      [⟨.downgrade, .providerIdentityContract⟩, ⟨.downgrade, .providerIdentityExpand⟩]
      (.expanded tables) = .ok (.legacy tables.legacy) := applyMoves_downgrade hschema
  unfold Database.runOnline
  simp only [htarget, hconnected, hversion, hcontent, plan_downgrade, hmoves, bind, Except.bind,
    Except.mapError, Option.elim_some]
  rfl

/-- An upgrade from the last earlier revision to Revision B that commits can be taken back at
any time: at once, which gives the database as it was, and after any writes that the
constraints of Revision B let through, which keeps what was written to the tables there
were. -/
theorem upgrade_can_be_taken_back {lib : UrlLibrary} {environ environ' : String → Option String}
    {url : Url} {db db' : Database (Content ρ)} (hschema : SchemaAt db.version db.content)
    (hversion : db.version = some .counterfactualAttributions)
    (hupgrade : db.runOnline lib (tableOperations other) environ .upgrade
      (some .providerIdentityContract) = .ok db')
    (htarget : validateAlembicTarget lib environ' false = .ok url)
    (hname : url.database = some db.name) :
    db'.runOnline lib (tableOperations other) environ' .downgrade
        (some .counterfactualAttributions) = .ok db ∧
      ∀ written, ContractedSchema written →
        ({ db' with content := .expanded written } : Database (Content ρ)).runOnline lib
            (tableOperations other) environ' .downgrade (some .counterfactualAttributions) =
          .ok { db with content := .legacy written.legacy } ∧ LegacySchema written.legacy := by
  obtain ⟨name, version, content⟩ := db
  obtain rfl : version = some .counterfactualAttributions := hversion
  obtain ⟨url', moves, hran⟩ := runOnline_eq_ok hupgrade
  have hplan := hran.planned
  rw [plan_upgrade] at hplan
  obtain rfl := Option.some.inj hplan
  obtain ⟨name', version', content'⟩ := db'
  obtain rfl : name' = name := hran.name
  obtain rfl : version' = some .providerIdentityContract := hran.version
  cases content with
  | expanded tables => exact hschema.elim
  | legacy tables =>
      obtain ⟨tables', hcontent, hlegacy, hcontracted⟩ := applyMoves_upgrade hschema hran.content
      refine ⟨?_, fun written hwritten =>
        ⟨runOnline_downgrade rfl rfl hwritten htarget hname,
          (contract_downgrade_eq_ok hwritten).2.legacy⟩⟩
      rw [runOnline_downgrade rfl hcontent hcontracted htarget hname, hlegacy]

open EvolutionExample FleetExample in
theorem upgrade_can_be_taken_back_example :
    ∃ db', legacyProduction.runOnline urls (tableOperations unmodelled) (environ (some "yes"))
        .upgrade (some .providerIdentityContract) = .ok db' ∧
      db'.runOnline urls (tableOperations unmodelled) (environ (some "yes")) .downgrade
        (some .counterfactualAttributions) = .ok legacyProduction := by
  cases hupgrade : legacyProduction.runOnline urls (tableOperations unmodelled)
      (environ (some "yes")) .upgrade (some .providerIdentityContract) with
  | error e =>
      have hcommits := upgrade_commits
      rw [hupgrade] at hcommits
      cases hcommits
  | ok db' =>
      have htarget : validateAlembicTarget urls (environ (some "yes")) false =
          .ok ⟨"postgresql+asyncpg", some "db.internal", some 5432, some "payments"⟩ := by
        decide +kernel
      exact ⟨db', rfl,
        (upgrade_can_be_taken_back schemaAt_legacyProduction rfl hupgrade htarget rfl).1⟩

end Evolution

end RevenueRecovery.Migration
