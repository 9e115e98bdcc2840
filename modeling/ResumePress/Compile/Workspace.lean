import ResumePress.Surroundings
import ResumePress.Text.Digits
import ResumePress.Time.Calendar

/-!
Folders of single runs. A run works in a folder of its own, whose name has a random ending, and has
a token that no other run has.
-/

namespace ResumePress

open Files

/-- The folder of a run. -/
structure Workspace where
  folder : Path
  token : String
deriving DecidableEq

namespace Workspace

/-- What the names of all run folders start with. -/
def namePrefix : String := "run-"

/-- The letters and digits of random endings. -/
def alphabet : List Char :=
  "ABCDEFGHIJKLMNOPQRSTUVWXYZabcdefghijklmnopqrstuvwxyz0123456789".toList

/-- Six letters or digits that a number stands for. -/
def ending (n : Nat) : String :=
  String.ofList ((Text.lastDigits 62 6 n).map fun d => alphabet.getD d 'A')

variable {σ : Type}

/-- Makes a folder with a random ending; a name that is taken is given up for another one, at most
`tries` times. -/
def makeFolder (stem : Path) : (tries : Nat) → Act σ (Except Fault Path)
  | 0 => return .error (.atPath .namesTaken stem)
  | tries + 1 => do
    let path := Path.mk (stem.text ++ ending (← Act.draw))
    match ← Act.makeFolder path with
    | .ok () => return .ok path
    | .error .alreadyExists => makeFolder stem tries
    | .error e => return .error (.atPath e path)

/-- Makes the folder of a run under a root. -/
def create (root : Path) (name : String) : Act σ (Except Fault Workspace) := do
  match ← Act.makeFolders root with
  | .error e => return .error e
  | .ok () =>
    let stem := (← Act.absolute root).join (namePrefix ++ name ++ "-")
    match ← makeFolder stem 65536 with
    | .error e => return .error e
    | .ok folder =>
      let token := Instant.compact (← Act.now) ++ "-" ++ (← Act.drawToken)
      return .ok ⟨folder, token⟩

/-- A file in the folder. -/
def file (w : Workspace) (name : String) : Path := w.folder.join name

/-- The source in the folder. -/
def source (w : Workspace) : Path := w.file "preview.tex"

/-- Removes the folder. -/
def close (w : Workspace) : Act σ Unit := do
  let _ ← Act.removeFolder w.folder

end Workspace

end ResumePress
