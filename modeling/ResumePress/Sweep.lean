import ResumePress.Compile.Workspace

/-!
The sweep of what runs leave behind: folders of runs that were given up, and old logs.
-/

namespace ResumePress

open Files

/-- What a sweep removed and what it could not remove. -/
structure SweepReport where
  removed : List String
  failed : List String
deriving DecidableEq, Repr

namespace Sweep

/-- The folder of logs below the root of runs. -/
def logFolder : String := "logs"

/-- Whether a node is older than the retention. -/
def isStale (retention : Duration) (now : Instant) (node : Node) : Bool :=
  retention < Instant.since now node.modified

/-- The report with the outcome of a removal. -/
def record (report : SweepReport) (name : String) :
    Except Fault Unit → SweepReport
  | .ok () => { report with removed := report.removed ++ [name] }
  | .error _ => { report with failed := report.failed ++ [name] }

variable {σ : Type}

/-- Goes through names in a folder and removes those whose nodes are chosen. The nodes are looked up at
the place where the folder was opened, and removed by the path of the folder, which can lead nowhere
by then. -/
def removeChosen (folder : Path) (place : Place) (shown : String → String) (chosen : Node → Bool)
    (remove : Path → Act σ (Except Fault Unit)) :
    List String → SweepReport → Act σ SweepReport
  | [], report => return report
  | name :: rest, report => do
    match ← Act.nodeAt? (place ++ [name]) with
    | none => removeChosen folder place shown chosen remove rest report
    | some node =>
      if chosen node then
        let outcome ← remove (folder.join name)
        removeChosen folder place shown chosen remove rest (record report (shown name) outcome)
      else removeChosen folder place shown chosen remove rest report

/-- Sweeps the root of runs at a time. A root that is not there has nothing to sweep. -/
def runAt (root : Path) (retention : Duration) (now : Instant) :
    Act σ (Except Fault SweepReport) := do
  if !(← Act.isThere root) then return .ok ⟨[], []⟩
  match ← Act.openFolder root with
  | .error e => return .error e
  | .ok (place, names) =>
    let stale := isStale retention now
    let runs ← removeChosen root place id (fun n => n.entry.isFolder && stale n) Act.removeFolder
      (names.filter (·.startsWith Workspace.namePrefix)) ⟨[], []⟩
    let logs := root.join logFolder
    match ← Act.openFolder logs with
    | .error _ => return .ok runs
    | .ok (place, names) =>
      return .ok (← removeChosen logs place (fun name => logFolder ++ "/" ++ name)
        (fun n => n.entry.isFile && stale n) Act.removeFile names runs)

/-- Sweeps the root of runs now. -/
def run (root : Path) (retention : Duration) : Act σ (Except Fault SweepReport) := do
  runAt root retention (← Act.now)

end Sweep

end ResumePress
