import RevenueRecovery.Upgrades.Safety

/-!
# Migration runs

`migrations/env.py` over the chain of revisions. An online run connects to a database and
runs in one transaction, which rolls back unless the run may end where it does; an offline
run renders a script, with an assertion before its `COMMIT` when it ends at an intermediate
revision, and somebody executes the script on some database. Demos and tests truncate the
databases their guards let through, and the application writes.

What a revision does to the tables is a parameter here.

## Main definitions
* `Revision`, `Move`, `plan` : the chain, and the moves of an upgrade or a downgrade.
* `Database.runOnline`, `renderOffline`, `Database.execute` : online runs and scripts.
* `Operation`, `Fleet.perform`, `Fleet.run` : what is done to databases, in any order.
-/
namespace RevenueRecovery.Migration

/-! ## Revisions -/

/-- The revisions, from the first on. -/
inductive Revision
  | initialSchema
  | paymentSegmentation
  | paymentHealthSnapshots
  | degradationModels
  | rcaModels
  | failurePredictions
  | episodeStateHistory
  | interventionDecisions
  | executionAndObservation
  | counterfactualAttributions
  | providerIdentityExpand
  | providerIdentityContract
deriving DecidableEq, Repr

namespace Revision

def id : Revision → String
  | initialSchema => "ed7e2117b4b1"
  | paymentSegmentation => "5a6ff487fe3c"
  | paymentHealthSnapshots => "151b772aecb9"
  | degradationModels => "abd7b5ce088a"
  | rcaModels => "c9f1e2d3a4b5"
  | failurePredictions => "14693b56ff22"
  | episodeStateHistory => "6b158741b993"
  | interventionDecisions => "0e657951899f"
  | executionAndObservation => "7a8b9c0d1e2f"
  | counterfactualAttributions => "8b9c0d1e2f3a"
  | providerIdentityExpand => "9d2e4f6a8b1c"
  | providerIdentityContract => "e2d3c4b5a6f7"

/-- `down_revision`. -/
def downRevision : Revision → Option Revision
  | initialSchema => none
  | paymentSegmentation => some initialSchema
  | paymentHealthSnapshots => some paymentSegmentation
  | degradationModels => some paymentHealthSnapshots
  | rcaModels => some degradationModels
  | failurePredictions => some rcaModels
  | episodeStateHistory => some failurePredictions
  | interventionDecisions => some episodeStateHistory
  | executionAndObservation => some interventionDecisions
  | counterfactualAttributions => some executionAndObservation
  | providerIdentityExpand => some counterfactualAttributions
  | providerIdentityContract => some providerIdentityExpand

/-- The number of revisions. -/
def count : ℕ := 12

end Revision

inductive Direction
  | upgrade
  | downgrade
deriving DecidableEq, Repr

/-- One revision, applied or taken back. -/
structure Move where
  direction : Direction
  revision : Revision
deriving DecidableEq, Repr

namespace Move

/-- The revision a move starts from; `none` is the base. -/
def source (m : Move) : Option Revision :=
  match m.direction with
  | .upgrade => m.revision.downRevision
  | .downgrade => some m.revision

/-- The revision a move ends at. -/
def destination (m : Move) : Option Revision :=
  match m.direction with
  | .upgrade => some m.revision
  | .downgrade => m.revision.downRevision

end Move

/-- The revisions from `upper` down to `lower`, which is not among them. -/
def revisionsBetween : ℕ → Option Revision → Option Revision → Option (List Revision)
  | fuel, upper, lower =>
      if upper = lower then some []
      else match fuel, upper with
        | fuel + 1, some r => (revisionsBetween fuel r.downRevision lower).map (r :: ·)
        | _, _ => none

/-- The moves of a run; there are none in the other direction. -/
def plan (direction : Direction) (start target : Option Revision) : Option (List Move) :=
  match direction with
  | .upgrade => (revisionsBetween Revision.count target start).map fun revisions =>
      revisions.reverse.map (⟨.upgrade, ·⟩)
  | .downgrade => (revisionsBetween Revision.count start target).map fun revisions =>
      revisions.map (⟨.downgrade, ·⟩)

/-- The end of a run's last move, or where it started. -/
def finalRevision (start : Option Revision) (moves : List Move) : Option Revision :=
  moves.getLast?.elim start Move.destination

/-! ## Runs -/

/-- What a run raises; `ε` is what the statements on the tables raise. -/
inductive RunError (ε : Type)
  | unsafeDatabase (e : UnsafeDatabaseError)
  | unresolvedRevision
  | statement (e : ε)
  | intermediateRevisionAssertion

def alembicIntermediateRevisions : List String := ["9d2e4f6a8b1c"]

/-- The ids of the heads of a database. -/
def heads (version : Option Revision) : List String := (version.map Revision.id).toList

/-- Whether a run that ends at these heads asserts the name of its database before `COMMIT`. -/
def finalStateRequiresAssertion (lib : UrlLibrary) (finalHeads : List String) (target : Url)
    (offline : Bool) : Except UnsafeDatabaseError Bool := do
  let intermediate := finalHeads.filter (alembicIntermediateRevisions.contains ·)
  if intermediate = [] then
    return false
  require (offline || isDisposableTestIdentity lib target)
    ("Refusing to leave " ++ lib.redacted target ++ " at intermediate revision(s) " ++
      ", ".intercalate (intermediate.insertionSort (· ≤ ·)) ++ "; apply " ++
      "Revisions A and B together with alembic upgrade head.")
  return true

/-- A database: its name on the server, its row of `alembic_version`, and its tables. -/
structure Database (σ : Type) where
  name : String
  version : Option Revision
  content : σ
deriving DecidableEq

/-- What the revisions do to the tables, and what `TRUNCATE` does, of the tables there are or of
every table of the application, which has to exist then. -/
structure TableOperations (σ ε : Type) where
  migrate : Move → σ → Except ε σ
  truncate : (existingTablesOnly : Bool) → σ → Except ε σ

/-- A rendered script. -/
structure Script where
  moves : List Move
  assertsDatabase : Bool
deriving DecidableEq

section Runs
variable {σ ε : Type} (lib : UrlLibrary) (ops : TableOperations σ ε)

/-- What the revisions do, one after the other. -/
def applyMoves (moves : List Move) (content : σ) : Except ε σ :=
  moves.foldlM (fun content m => ops.migrate m content) content

/-- `INTERMEDIATE_REVISION_ASSERTION_SQL`, when a run asks for it. -/
def assertDatabase (asked : Bool) (name : String) : Except (RunError ε) Unit :=
  if asked && name != disposableTestDatabase then .error .intermediateRevisionAssertion
  else .ok ()

/-- An online run that has reached the database. -/
def Database.runOnline (environ : String → Option String) (direction : Direction)
    (target : Option Revision) (db : Database σ) : Except (RunError ε) (Database σ) := do
  let url ← (validateAlembicTarget lib environ false).mapError .unsafeDatabase
  (assertConnectedDatabase db.name url).mapError .unsafeDatabase
  let moves ← (plan direction db.version target).elim (.error .unresolvedRevision) .ok
  let content ← (applyMoves ops moves db.content).mapError .statement
  let version := finalRevision db.version moves
  let asked ← (finalStateRequiresAssertion lib (heads version) url false).mapError
    .unsafeDatabase
  assertDatabase asked db.name
  return { db with version := version, content := content }

/-- An offline run, which only knows the heads of the steps it renders. -/
def renderOffline (environ : String → Option String) (direction : Direction)
    (start target : Option Revision) : Except (RunError ε) Script := do
  let url ← (validateAlembicTarget lib environ true).mapError .unsafeDatabase
  let moves ← (plan direction start target).elim (.error .unresolvedRevision) .ok
  let finalHeads := moves.getLast?.elim [] fun m => heads m.destination
  let asked ← (finalStateRequiresAssertion lib finalHeads url true).mapError .unsafeDatabase
  return { moves := moves, assertsDatabase := asked }

/-- The `UPDATE` of `alembic_version` finds its row or does nothing; a script from the base
creates the table. -/
def moveVersion (version : Option Revision) (m : Move) : Except (RunError ε) (Option Revision) :=
  if version = m.source then .ok m.destination
  else if m.source = none then .error .unresolvedRevision
  else .ok version

/-- A script to the base drops `alembic_version` at its end. -/
def scriptVersion (version : Option Revision) (moves : List Move) :
    Except (RunError ε) (Option Revision) := do
  let version ← moves.foldlM moveVersion version
  return if finalRevision version moves = none then none else version

/-- A script in its transaction, on whatever database. -/
def Database.execute (script : Script) (db : Database σ) :
    Except (RunError ε) (Database σ) := do
  let content ← (applyMoves ops script.moves db.content).mapError .statement
  let version ← scriptVersion db.version script.moves
  assertDatabase script.assertsDatabase db.name
  return { db with version := version, content := content }

/-! ## Truncations -/

/-- Truncate the tables of the database. -/
def Database.truncate (existingTablesOnly : Bool) (db : Database σ) :
    Except (RunError ε) (Database σ) :=
  ((ops.truncate existingTablesOnly db.content).mapError .statement).map fun content =>
    { db with content := content }

/-- `reset_database` of the demo, on the database that its URL reaches. -/
def Database.reset (databaseUrl : String) (db : Database σ) :
    Except (RunError ε) (Database σ) := do
  let expected ← (validateDemoResetDatabaseUrl lib databaseUrl).mapError .unsafeDatabase
  (assertConnectedDatabase db.name expected).mapError .unsafeDatabase
  db.truncate ops false

/-- `verify_and_truncate` of the tests. -/
def Database.verifyAndTruncate (url : Option String) (protectedUrls : List (Option String))
    (existingTablesOnly : Bool) (db : Database σ) : Except (RunError ε) (Database σ) := do
  let expected ← (assertDisposableTestTarget lib url protectedUrls).mapError .unsafeDatabase
  (assertConnectedDatabase db.name expected).mapError .unsafeDatabase
  (verifyConnectedDisposable db.name).mapError .unsafeDatabase
  db.truncate ops existingTablesOnly

/-! ## Databases under operation -/

/-- The databases there are, and the scripts rendered so far. -/
structure Fleet (σ : Type) where
  databases : List (Database σ)
  scripts : List Script := []

/-- What is done, and the database it reaches; the application writes what it likes. -/
inductive Operation (σ : Type)
  | online (environ : String → Option String) (direction : Direction)
      (target : Option Revision) (k : ℕ)
  | render (environ : String → Option String) (direction : Direction)
      (start target : Option Revision)
  | execute (script k : ℕ)
  | reset (databaseUrl : String) (k : ℕ)
  | verifyAndTruncate (url : Option String) (protectedUrls : List (Option String))
      (existingTablesOnly : Bool) (k : ℕ)
  | write (content : σ) (k : ℕ)

/-- A change of one database, or none when it raises. -/
def Fleet.update (fleet : Fleet σ) (k : ℕ)
    (change : Database σ → Except (RunError ε) (Database σ)) : Fleet σ :=
  { fleet with databases := fleet.databases.modify k fun db => (change db).toOption.getD db }

def Fleet.perform (fleet : Fleet σ) : Operation σ → Fleet σ
  | .online environ direction target k =>
      fleet.update k (Database.runOnline lib ops environ direction target)
  | .render environ direction start target =>
      { fleet with scripts := fleet.scripts ++
          (renderOffline (ε := ε) lib environ direction start target).toOption.toList }
  | .execute script k =>
      (fleet.scripts[script]?).elim fleet fun script =>
        fleet.update k (Database.execute ops script)
  | .reset databaseUrl k => fleet.update k (Database.reset lib ops databaseUrl)
  | .verifyAndTruncate url protectedUrls existingTablesOnly k =>
      fleet.update k (Database.verifyAndTruncate lib ops url protectedUrls existingTablesOnly)
  | .write content k => fleet.update (ε := ε) k fun db => .ok { db with content := content }

/-- Operations, one after the other. -/
def Fleet.run (fleet : Fleet σ) (operations : List (Operation σ)) : Fleet σ :=
  operations.foldl (Fleet.perform lib ops) fleet

end Runs

end RevenueRecovery.Migration
