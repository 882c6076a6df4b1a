import RevenueRecovery.Verification.Client

/-!
# Guards on database operations

The checks that keep truncations and migrations away from databases that are not disposable.
Each raises with the text of its refusal. The parser of URLs and what it renders, which hides
the password, are parameters, and so is the lower case of Python.

## Main definitions
* `Url`, `UrlLibrary` : URLs, and what reads and renders them.
* `validateTestDatabaseUrl`, `assertDisposableTestTarget` : the database of the tests.
* `validateDemoResetDatabaseUrl` : the databases a demo may reset.
* `validateAlembicUrl`, `validateAlembicTarget` : the target of a migration run.
-/
namespace RevenueRecovery.Migration

/-! ## URLs -/

/-- What the guards read of a URL. -/
structure Url where
  drivername : String
  host : Option String
  port : Option ℕ
  database : Option String
deriving DecidableEq

/-- `make_url`, `render_as_string(hide_password=True)` and `str.lower`. -/
structure UrlLibrary where
  makeUrl : String → Option Url
  redacted : Url → String
  lower : String → String

/-- The text of an `UnsafeDatabaseError`. -/
structure UnsafeDatabaseError where
  message : String
deriving DecidableEq, Repr

def testDatabaseUrlEnv : String := "TEST_DATABASE_URL"

def testDatabaseNameSuffix : String := "_test"

def devDatabasePort : ℕ := 5433

def demoResetAllowedDatabases : List String := ["payment_recovery", "payment_recovery_demo"]

def localHostAliases : List String := ["localhost", "127.0.0.1", "::1", ""]

def databaseUrlEnv : String := "DATABASE_URL"

def devDatabaseName : String := "payment_recovery"

def disposableTestHosts : List String := ["localhost", "127.0.0.1", "::1"]

def disposableTestPort : ℕ := 5434

def disposableTestDatabase : String := "payment_recovery_test"

def alembicTargetDatabaseEnv : String := "ALEMBIC_TARGET_DATABASE"

def alembicAllowNonTestDatabaseEnv : String := "ALEMBIC_ALLOW_NON_TEST_DATABASE"

def alembicAllowNonTestDatabaseValue : String := "yes"

section Guards
variable (lib : UrlLibrary)

/-- Raise unless the condition holds. -/
def require (condition : Bool) (message : String) : Except UnsafeDatabaseError Unit :=
  if condition then .ok () else .error ⟨message⟩

def parse (url : String) : Except UnsafeDatabaseError Url :=
  match lib.makeUrl url with
  | none => .error ⟨"Database URL could not be parsed."⟩
  | some parsed => .ok parsed

/-- `parsed.port or 5432`. -/
def portOr (port : Option ℕ) : ℕ := if port.getD 0 = 0 then 5432 else port.getD 0

/-- `_identity`: the aliases of the local host are one host. -/
def identity (parsed : Url) : String × ℕ × String :=
  let host := lib.lower (parsed.host.getD "")
  (if host ∈ localHostAliases then "localhost" else host, portOr parsed.port,
    parsed.database.getD "")

def isPostgresql (parsed : Url) : Bool := parsed.drivername.startsWith "postgresql"

/-! ## Tests and demos -/

/-- The protected URLs that parse to the same database. -/
def isProtected (protectedUrls : List (Option String)) (parsed : Url) : Bool :=
  protectedUrls.any fun url => url.any fun url => url != "" &&
    (lib.makeUrl url).any fun other => identity lib other == identity lib parsed

/-- The URL of a test database; `protectedUrls` are those of development and demo. -/
def validateTestDatabaseUrl (url : Option String) (protectedUrls : List (Option String)) :
    Except UnsafeDatabaseError Url := do
  require (url.getD "" != "") (testDatabaseUrlEnv ++ " is not set.")
  let parsed ← parse lib (url.getD "")
  require (isPostgresql parsed)
    ("Test database must be PostgreSQL, got driver '" ++ parsed.drivername ++ "'.")
  require ((parsed.database.getD "").endsWith testDatabaseNameSuffix)
    ("Refusing to use " ++ lib.redacted parsed ++ ": test database name must end with '" ++
      testDatabaseNameSuffix ++ "'.")
  require (parsed.port != some devDatabasePort)
    ("Refusing to use " ++ lib.redacted parsed ++ ": port " ++ toString devDatabasePort ++
      " is reserved for the development/demo database.")
  require (!isProtected lib protectedUrls parsed)
    ("Refusing to use " ++ lib.redacted parsed ++ ": it resolves to the same database as " ++
      "the development/demo configuration.")
  return parsed

def validateDemoResetDatabaseUrl (url : String) : Except UnsafeDatabaseError Url := do
  let parsed ← parse lib url
  require (demoResetAllowedDatabases.contains (parsed.database.getD ""))
    ("Refusing to reset " ++ lib.redacted parsed ++ ": database '" ++ parsed.database.getD "" ++
      "' is not in the demo reset allowlist (" ++ ", ".intercalate demoResetAllowedDatabases ++
      ").")
  return parsed

/-- The server reports the database of the URL. -/
def assertConnectedDatabase (actualDatabase : String) (expected : Url) :
    Except UnsafeDatabaseError Unit :=
  require (some actualDatabase == expected.database)
    ("Connected to database '" ++ actualDatabase ++ "' but expected '" ++
      expected.database.getD "None" ++ "'. Refusing to continue.")

/-- The disposable test database, with its port named. -/
def isDisposableTestIdentity (parsed : Url) : Bool :=
  disposableTestHosts.contains (lib.lower (parsed.host.getD "")) &&
    parsed.port == some disposableTestPort && parsed.database == some disposableTestDatabase

/-- The URL of the disposable test database, before any connection. -/
def assertDisposableTestTarget (url : Option String) (protectedUrls : List (Option String)) :
    Except UnsafeDatabaseError Url := do
  let parsed ← validateTestDatabaseUrl lib url protectedUrls
  require (disposableTestHosts.contains (lib.lower (parsed.host.getD "")))
    ("Refusing to use " ++ lib.redacted parsed ++ ": the test database host must be one of " ++
      ", ".intercalate (disposableTestHosts.insertionSort (· ≤ ·)) ++ ".")
  require (parsed.port == some disposableTestPort)
    ("Refusing to use " ++ lib.redacted parsed ++
      ": the test database port must be explicitly " ++ toString disposableTestPort ++ ".")
  require (parsed.database == some disposableTestDatabase)
    ("Refusing to use " ++ lib.redacted parsed ++ ": the test database must be '" ++
      disposableTestDatabase ++ "'.")
  return parsed

def verifyConnectedDisposable (actualDatabase : String) : Except UnsafeDatabaseError Unit :=
  require (actualDatabase == disposableTestDatabase)
    ("Connected to database '" ++ actualDatabase ++ "' but expected '" ++
      disposableTestDatabase ++ "'. Refusing to continue.")

/-! ## Migration runs -/

/-- The URL of a migration run, offline or online. -/
def validateAlembicUrl (rawUrl : Option String) : Except UnsafeDatabaseError Url := do
  require (pyStrip (rawUrl.getD "") != "")
    (databaseUrlEnv ++ " is not set. Alembic has no default database and never falls " ++
      "back to port " ++ toString devDatabasePort ++ ".")
  let parsed ← parse lib (rawUrl.getD "")
  require (isPostgresql parsed)
    ("Alembic requires a PostgreSQL URL, got driver '" ++ parsed.drivername ++ "'.")
  require (parsed.host.getD "" != "" && parsed.port.isSome && parsed.database.getD "" != "")
    ("Refusing " ++ lib.redacted parsed ++ ": the URL must name the host, port and database " ++
      "explicitly.")
  require (identity lib parsed != ("localhost", devDatabasePort, devDatabaseName))
    ("Refusing " ++ lib.redacted parsed ++ ": it is the development database.")
  require (parsed.port != some devDatabasePort)
    ("Refusing " ++ lib.redacted parsed ++ ": port " ++ toString devDatabasePort ++
      " is reserved for the development/demo database and is blocked for Alembic.")
  return parsed

/-- A target other than the disposable test database needs an opt-in. -/
def requireOptIn (environ : String → Option String) (parsed : Url) :
    Except UnsafeDatabaseError Unit :=
  if isDisposableTestIdentity lib parsed then
    (validateTestDatabaseUrl lib (environ databaseUrlEnv) []).map fun _ => ()
  else
    require (environ alembicAllowNonTestDatabaseEnv == some alembicAllowNonTestDatabaseValue)
      ("Refusing " ++ lib.redacted parsed ++ ": it is not the disposable test database " ++
        "(localhost:" ++ toString disposableTestPort ++ "/" ++ disposableTestDatabase ++
        "); set " ++ alembicAllowNonTestDatabaseEnv ++ "=" ++ alembicAllowNonTestDatabaseValue ++
        " to migrate it deliberately.")

/-- The target of a migration run; an online run names its database once more. -/
def validateAlembicTarget (environ : String → Option String) (offline : Bool) :
    Except UnsafeDatabaseError Url := do
  let parsed ← validateAlembicUrl lib (environ databaseUrlEnv)
  if offline then
    return parsed
  require (environ alembicTargetDatabaseEnv == parsed.database)
    ("Refusing " ++ lib.redacted parsed ++ ": " ++ alembicTargetDatabaseEnv ++
      " must be set to the URL's database name exactly.")
  requireOptIn lib environ parsed
  return parsed

end Guards

end RevenueRecovery.Migration
