import ResumePress.Prerequisite
import ResumePress.Press

/-!
Batches: the previews of all templates at once. A batch asks for its prerequisites, reads the
templates, sweeps, makes the preview of every template that needs one, and writes a report into the
folder of the thumbnails. A template that fails does not keep the others from their previews.
-/

namespace ResumePress

open Files

/-- What a batch did for one template. -/
inductive Outcome where
  | generated (artifacts : PreviewArtifacts) (validationErrors : List String)
  | upToDate
  | failed (error : PressError)
deriving DecidableEq, Repr

namespace Outcome

/-- The outcome as a value. -/
def toJson : Outcome → Json
  | .generated artifacts validationErrors =>
    .obj [("status", .str "generated"), ("standard", .str artifacts.standard.text),
      ("doubleDensity", .str artifacts.doubleDensity.text),
      ("engine", .str artifacts.engine.program), ("attempts", .int artifacts.attempts),
      ("validationErrors", .ofTexts validationErrors)]
  | .upToDate => .obj [("status", .str "upToDate")]
  | .failed error =>
    .obj [("status", .str "failed"), ("code", .str error.code), ("message", .str error.message),
      ("logFile", .ofText? (error.log?.map Path.text))]

end Outcome

/-- The report of a batch. -/
structure BatchReport where
  generatedAt : Instant
  prerequisites : List PrerequisiteCheck
  /-- The outcomes by template id. -/
  templates : List (String × Outcome)

namespace BatchReport

/-- The report as a value. -/
def toJson (r : BatchReport) : Json :=
  .obj [("generatedAt", .str r.generatedAt.zoned),
    ("prerequisites", .arr (r.prerequisites.map PrerequisiteCheck.toJson)),
    ("templates", .obj (r.templates.map fun o => (o.1, o.2.toJson)))]

/-- The name of the file of the report. -/
def fileName : String := "previews.json"

end BatchReport

namespace Batch

variable {σ : Type}

/-- Makes the preview of a template if it needs one. -/
def generateOne (press : Press σ) (t : Template) : Act σ Outcome := do
  let validation ← press.validate t
  if !(← press.needsRefresh t) then return .upToDate
  match ← press.compilePreview t with
  | .ok artifacts => return .generated artifacts validation.errors
  | .error e => return .failed e

/-- Makes the previews of templates, one after the other. -/
def generateAll (press : Press σ) : List Template → Act σ (List (String × Outcome))
  | [] => return []
  | t :: rest => do
    let outcome ← generateOne press t
    return (t.id, outcome) :: (← generateAll press rest)

/-- The templates of the configured folder; the built-in ones if there is no such folder. -/
def loadRegistry (config : Config) : Act σ (Except Report Registry) := do
  match ← Registry.load config.templates Catalog.builtin ProfileTable.builtin with
  | .ok registry => return .ok registry
  | .error (.directoryNotFound _) => return .ok Registry.builtin
  | .error (.unreadable path cause) =>
    return .error ⟨"Failed to load templates",
      [(TemplateError.unreadable path cause).message, cause.message]⟩

/-- Writes the report into the folder of the thumbnails. -/
def writeReport (config : Config) (report : BatchReport) : Act σ (Except Report Unit) := do
  match ← Act.makeFolders config.thumbnails with
  | .error e =>
    return .error ((Report.plain e.message).within ("Failed to create " ++ config.thumbnails.text))
  | .ok () =>
    let path := config.thumbnails.join BatchReport.fileName
    match ← Act.write path (Text.encode report.toJson.write) with
    | .error e => return .error ((Report.plain e.message).within ("Failed to write " ++ path.text))
    | .ok () => return .ok ()

/-- A batch under a configuration. -/
def runWith (programs : Programs σ) (config : Config) : Act σ (Except Report Unit) := do
  let checks ← Prerequisite.checkAll programs config.toolchainLimit Prerequisite.builtin
  if !PrerequisiteCheck.requiredPassed checks then
    return .error
      (.plain "Missing required LaTeX tooling; install a TeX distribution and retry")
  match ← loadRegistry config with
  | .error e => return .error e
  | .ok registry =>
    let press := Press.ofPrograms config registry programs
    let _ ← press.sweep
    let outcomes ← generateAll press registry.templates
    writeReport config ⟨← Act.now, checks, outcomes⟩

/-- A batch under the configuration of the environment. -/
def run (programs : Programs σ) (env : Config.Environment) : Act σ (Except Report Unit) := do
  match ← Config.read env with
  | .error e => return .error e
  | .ok config => runWith programs config

end Batch

end ResumePress
