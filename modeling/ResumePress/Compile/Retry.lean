import ResumePress.Compile.Compiler
import ResumePress.Compile.LogKind

/-!
Compilation in several attempts. The first attempt uses the primary engine, and every further one
the alternate of the engine that the failure names. After the n-th failure the next attempt waits n
times the base delay, unless the attempts or the time are used up. All attempts are kept, in order.
-/

namespace ResumePress

open Files

/-- How often and how long a compilation is tried. -/
structure RetryPolicy where
  maxAttempts : Nat
  baseDelay : Duration
  /-- The longest time that may be spent, if it is limited. -/
  budget : Option Duration

namespace RetryPolicy

/-- Three attempts with a base delay and no limit of time. -/
def standard (baseDelay : Duration) : RetryPolicy := ⟨3, baseDelay, none⟩

/-- How many attempts are made at most. -/
def bound (p : RetryPolicy) : Nat := max p.maxAttempts 1

/-- The wait after a failed attempt. -/
def delay (p : RetryPolicy) (attempt : Nat) : Duration := p.baseDelay * attempt

/-- Whether a wait fits into the time, when some of it is spent. -/
def allows (p : RetryPolicy) (spent delay : Duration) : Bool :=
  match p.budget with
  | none => true
  | some budget => spent + delay ≤ budget

end RetryPolicy

/-- One attempt. One that succeeded has no log and no kind. -/
structure Attempt where
  number : Nat
  engine : TexEngine
  log : String
  kind : Option LogKind
deriving DecidableEq, Repr

namespace Attempt

/-- The record as a value. -/
def toJson (a : Attempt) : Json :=
  .obj [("attemptNumber", .int a.number), ("engine", .str a.engine.program),
    ("errorLog", .str a.log), ("classifiedKind", .ofText? (a.kind.map LogKind.code))]

/-- What stands for a log that cannot be read. -/
def logUnavailable : String := "Error log not available"

end Attempt

/-- A compiled document and where it was read. -/
structure Compiled where
  bytes : ByteArray
  path : Path
  engine : TexEngine

/-- The attempts of a compilation, and the document if the last one made it. -/
structure Attempts where
  list : List Attempt
  document : Option Compiled

/-- A document with the attempts that led to it. -/
structure CompiledDocument where
  bytes : ByteArray
  path : Path
  engine : TexEngine
  attempts : List Attempt

/-- The end of a compilation that never succeeded: the kind of the last failure, the number of
attempts, and the file with the last log, if it could be written. -/
structure Exhaustion where
  kind : LogKind
  attempts : Nat
  log : Option Path
deriving DecidableEq, Repr

namespace Attempts

/-- Puts a failed attempt before the others. -/
def after (first : Attempt) (rest : Attempts) : Attempts :=
  { rest with list := first :: rest.list }

variable {σ : Type}

/-- Compiles once and reads the document. -/
def compileOnce (compiler : Compiler σ) (engine : TexEngine) (source folder : Path) :
    Act σ (Except CompileFailure Compiled) := do
  match ← compiler engine source folder with
  | .error failure => return .error failure
  | .ok path =>
    match ← Act.read path with
    | .ok bytes => return .ok ⟨bytes, path, engine⟩
    | .error e => return .error ⟨engine, "document unreadable: " ++ e.message, none⟩

/-- The log of a failure. -/
def readLog (failure : CompileFailure) : Act σ String := do
  match failure.log with
  | none => return Attempt.logUnavailable
  | some path =>
    match ← Act.readText path with
    | .ok log => return log
    | .error _ => return Attempt.logUnavailable

/-- The record of a failed attempt. -/
def failed (number : Nat) (failure : CompileFailure) : Act σ Attempt := do
  let log ← readLog failure
  return ⟨number, failure.engine, log, some (LogKind.ofLog log)⟩

/-- Makes the attempt of a number and at most `more` after it. `started` is the time that had been
waited when the compilation began. -/
def run (compiler : Compiler σ) (policy : RetryPolicy) (source folder : Path) (started : Duration) :
    (more number : Nat) → TexEngine → Act σ Attempts
  | more, number, engine => do
    match ← compileOnce compiler engine source folder with
    | .ok document => return ⟨[⟨number, engine, "", none⟩], some document⟩
    | .error failure =>
      let attempt ← failed number failure
      match more with
      | 0 => return ⟨[attempt], none⟩
      | more + 1 =>
        let delay := policy.delay number
        if policy.allows ((← Act.waited) - started) delay then
          Act.wait delay
          return (← run compiler policy source folder started more (number + 1)
            failure.engine.alternate).after attempt
        else return ⟨[attempt], none⟩

/-- Keeps the log of the last attempt in a file that outlives the compilation. -/
def keepLog (folder : Path) (tag : String) (log : String) : Act σ (Option Path) := do
  let path := folder.join (tag ++ ".log")
  match ← Act.makeFolders folder with
  | .error _ => return none
  | .ok () =>
    match ← Act.write path (Text.encode log) with
    | .error _ => return none
    | .ok () => return some path

end Attempts

/-- Compiles documents with retries; logs of compilations that never succeed go to a folder. -/
structure RetryingCompiler (σ : Type) where
  compiler : Compiler σ
  policy : RetryPolicy
  logFolder : Path

namespace RetryingCompiler

variable {σ : Type}

/-- All attempts at a source. -/
def attempts (c : RetryingCompiler σ) (source folder : Path) : Act σ Attempts := do
  Attempts.run c.compiler c.policy source folder (← Act.waited) (c.policy.bound - 1) 1
    TexEngine.primary

/-- What the last of the attempts says about a compilation that never succeeded. -/
def lastLog (attempts : List Attempt) : LogKind × String :=
  match attempts.getLast? with
  | some last => (last.kind.getD .compilationError, last.log)
  | none => (.compilationError, "")

/-- Compiles a source into a folder; the tag names the file of the last log. -/
def compile (c : RetryingCompiler σ) (source folder : Path) (tag : String) :
    Act σ (Except Exhaustion CompiledDocument) := do
  let made ← c.attempts source folder
  match made.document with
  | some document =>
    return .ok ⟨document.bytes, document.path, document.engine, made.list⟩
  | none =>
    let last := lastLog made.list
    let log ← Attempts.keepLog c.logFolder tag last.2
    return .error ⟨last.1, made.list.length, log⟩

end RetryingCompiler

end ResumePress
