import ResumePress.Compile.TexEngine
import ResumePress.Program

/-!
Compilers of documents. A compiler is asked to use one of the engines on a source and to leave what
it makes in a folder; it answers with the path of the document or says what failed. The compiler of
the system runs the program of the engine so often that references settle, and asks for the
document in the end.
-/

namespace ResumePress

open Files

/-- Why there is no document. -/
structure CompileFailure where
  engine : TexEngine
  reason : String
  /-- The log of the engine, if it came so far as to write one. -/
  log : Option Path
deriving DecidableEq, Repr

/-- The wording of a failure. -/
def CompileFailure.message (f : CompileFailure) : String :=
  f.engine.program ++ " failed: " ++ f.reason

/-- Compiles a source into a folder. -/
abbrev Compiler (σ : Type) :=
  TexEngine → (source folder : Path) → Act σ (Except CompileFailure Path)

/-- The compiler of the system. -/
structure SystemCompiler where
  limit : Duration
  passes : Nat
  xelatex : String
  pdflatex : String

namespace SystemCompiler

/-- The usual programs, run twice. -/
def standard (limit : Duration) : SystemCompiler where
  limit := limit
  passes := 2
  xelatex := TexEngine.program .xelatex
  pdflatex := TexEngine.program .pdflatex

/-- The program of an engine. -/
def program (c : SystemCompiler) : TexEngine → String
  | .xelatex => c.xelatex
  | .pdflatex => c.pdflatex

/-- The file in the folder that has the stem of the source. -/
def sibling (source folder : Path) (extension : String) : Path :=
  folder.join (source.stem?.getD "document" ++ "." ++ extension)

/-- The arguments of a run. -/
def arguments (source folder : Path) : List String :=
  ["-interaction=nonstopmode", "-halt-on-error", "-output-directory", folder.text, source.text]

variable {σ : Type}

/-- Runs the program several times, up to the first run that fails. -/
def runPasses (c : SystemCompiler) (programs : Programs σ) (engine : TexEngine)
    (source folder : Path) : (passes : Nat) → Act σ (Except CompileFailure Unit)
  | 0 => return .ok ()
  | passes + 1 => do
    match ← runProgram programs c.limit (c.program engine) (arguments source folder) with
    | .error e => return .error ⟨engine, e.message, none⟩
    | .ok out =>
      if out.success then runPasses c programs engine source folder passes
      else
        return .error
          ⟨engine, "exited with " ++ exitText out.exit, some (sibling source folder "log")⟩

/-- Compiles a source. A log from before is removed first, so that a log that is there later is one
of these runs. -/
def compiler (c : SystemCompiler) (programs : Programs σ) : Compiler σ :=
  fun engine source folder => do
    let log := sibling source folder "log"
    let document := sibling source folder "pdf"
    let _ ← Act.removeFile log
    match ← c.runPasses programs engine source folder (max c.passes 1) with
    | .error failure => return .error failure
    | .ok () =>
      if ← Act.isThere document then return .ok document
      else return .error ⟨engine, "no document produced at " ++ document.text, some log⟩

end SystemCompiler

end ResumePress
