import ResumePress.Surroundings

/-!
External programs. A run of a program cannot start, hangs, or ends with an exit code, or without one
if it was killed, and what it printed. A run that hangs is given up after a time limit.
-/

namespace ResumePress

open Files

/-- What a run of a program comes to. -/
inductive ProgramRun where
  | cannotStart (cause : Fault)
  | hangs
  | ended (exit : Option Int) (stdout stderr : ByteArray)

/-- The programs: what a name and arguments do. -/
abbrev Programs (σ : Type) := String → List String → Act σ ProgramRun

/-- Why there is no output of a program. -/
inductive ProgramError where
  | cannotStart (program : String) (cause : Fault)
  | timedOut (program : String) (limit : Duration)
deriving DecidableEq, Repr

/-- The wording of an error. -/
def ProgramError.message : ProgramError → String
  | .cannotStart program cause => "failed to start '" ++ program ++ "': " ++ cause.message
  | .timedOut program limit => "'" ++ program ++ "' timed out after " ++ Duration.text limit

/-- The output of a program that ended. -/
structure ProgramOutput where
  exit : Option Int
  stdout : String
  stderr : String
deriving DecidableEq, Repr

namespace ProgramOutput

/-- Whether the program ended well. -/
def success (out : ProgramOutput) : Bool := out.exit == some 0

end ProgramOutput

/-- An exit code as it is shown in messages. -/
def exitText : Option Int → String
  | some code => "Some(" ++ toString code ++ ")"
  | none => "None"

/-- Whether a text can be handed to a program. -/
def isPassable (s : String) : Bool := !s.toList.contains '\x00'

/-- Runs a program with a time limit. -/
def runProgram {σ : Type} (programs : Programs σ) (limit : Duration) (program : String)
    (arguments : List String) : Act σ (Except ProgramError ProgramOutput) := do
  if !isPassable program || !arguments.all isPassable then
    return .error (.cannotStart program .nulInProgram)
  match ← programs program arguments with
  | .cannotStart cause => return .error (.cannotStart program cause)
  | .hangs => return .error (.timedOut program limit)
  | .ended exit stdout stderr =>
    return .ok ⟨exit, Text.decodeLossy stdout, Text.decodeLossy stderr⟩

end ResumePress
