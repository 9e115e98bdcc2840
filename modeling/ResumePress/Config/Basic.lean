import ResumePress.Config.EnvFile
import ResumePress.Config.Number
import ResumePress.Report
import ResumePress.Surroundings

/-!
The configuration of the press. Every value has a default; variables of the environment can change
it, and only a number that cannot be read is refused.
-/

namespace ResumePress

open Files

/-- Where things are and how long they take. -/
structure Config where
  templates : Path
  thumbnails : Path
  /-- The root of run folders and logs. -/
  temp : Path
  cache : Path
  toolchainLimit : Duration
  compileLimit : Duration
  retryDelay : Duration
  cacheTime : Duration
  runRetention : Duration
  workers : Nat
  logLevel : String
deriving DecidableEq

namespace Config

/-- The default configuration with all folders below a base. -/
def rootedAt (base : Path) : Config where
  templates := base.join "templates/latex"
  thumbnails := base.join "public/templates/thumbnails"
  temp := base.join "temp"
  cache := base.join ".cache/latex-previews"
  toolchainLimit := .ofSecs 10
  compileLimit := .ofSecs 120
  retryDelay := .ofMillis 1000
  cacheTime := .ofSecs 3600
  runRetention := .ofSecs 86400
  workers := 1
  logLevel := "info"

/-- The configuration with all folders below the working folder. -/
def default : Config := rootedAt ⟨"."⟩

/-- The text of a variable, or a default. -/
def textOr (env : Environment) (name fallback : String) : String :=
  (env.get? name).getD fallback

/-- The number in a variable, or a default. -/
def numberOr (env : Environment) (name : String) (fallback : Nat) : Except Report Nat :=
  match env.get? name with
  | none => .ok fallback
  | some raw =>
    match readNumber (Text.trim raw.toList) with
    | .ok n => .ok n
    | .error e =>
      .error ((Report.plain e.message).within (name ++ " must be a number, got '" ++ raw ++ "'"))

/-- The hours in a variable as a length of time, if their seconds fit into 64 bits. -/
def hoursOr (env : Environment) (name : String) (fallback : Nat) : Except Report Duration :=
  match numberOr env name fallback with
  | .error e => .error e
  | .ok hours =>
    if hours * 3600 < numberBound then .ok (.ofSecs (hours * 3600))
    else .error (.plain (name ++ " is too large: " ++ toString hours ++ " hours"))

/-- The configuration of an environment. The variables are read in this order, and the first that
cannot be read is reported. -/
def ofEnvironment (env : Environment) : Except Report Config := do
  let toolchainSecs ← numberOr env "TOOLCHAIN_TIMEOUT_SECS" 10
  let compileSecs ← numberOr env "COMPILE_TIMEOUT_SECS" 120
  let retryMillis ← numberOr env "RETRY_BASE_DELAY_MS" 1000
  let cacheSecs ← numberOr env "CACHE_TTL_SECS" 3600
  let retention ← hoursOr env "RUN_RETENTION_HOURS" 24
  let workers ← numberOr env "PREVIEW_WORKERS" 1
  return {
    templates := ⟨textOr env "TEMPLATES_DIR" "templates/latex"⟩
    thumbnails := ⟨textOr env "THUMBNAILS_DIR" "public/templates/thumbnails"⟩
    temp := ⟨textOr env "TEMP_DIR" "temp"⟩
    cache := ⟨textOr env "CACHE_DIR" ".cache/latex-previews"⟩
    toolchainLimit := .ofSecs toolchainSecs
    compileLimit := .ofSecs compileSecs
    retryDelay := .ofMillis retryMillis
    cacheTime := .ofSecs cacheSecs
    runRetention := retention
    workers := max workers 1
    logLevel := textOr env "RUST_LOG" "info" }

/-- The name of environment files. -/
def envFileName : String := ".env"

/-- The nearest environment file in the first `depth` of a folder and the folders it stands in. An
error other than its absence ends the search. -/
def findEnvFile (tree : Tree) : (depth : Nat) → Place → Option ByteArray
  | 0, _ => none
  | depth + 1, folder =>
    match tree.read ⟨"/" ++ "/".intercalate (folder ++ [envFileName])⟩ with
    | .ok bytes => some bytes
    | .error e =>
      if e = .notFound ∨ e = .isADirectory then
        if folder = [] then none else findEnvFile tree depth folder.dropLast
      else none

variable {σ : Type}

/-- The configuration of an environment and the nearest environment file. -/
def read (env : Environment) : Act σ (Except Report Config) := do
  let file ← Act.look fun tree => findEnvFile tree (tree.home.length + 1) tree.home
  return ofEnvironment (match file with
    | some bytes => EnvFile.load env bytes
    | none => env)

end Config

end ResumePress
