import ResumePress.Compile.LogKind
import ResumePress.Compile.Raster
import ResumePress.Compile.Retry
import ResumePress.Report
import ResumePress.Template.Registry

/-!
Errors of the press. Only look-ups, the reading of templates and compilations fail this way; what
is wrong with a template or a content is reported in other results.
-/

namespace ResumePress

open Files

/-- Why the press could not do something. -/
inductive PressError where
  | notFound (what : String)
  | template (cause : TemplateError)
  | exhausted (cause : Exhaustion)
  | raster (cause : RasterError)
  | io (cause : Fault)
  | internal (report : Report)
deriving DecidableEq, Repr

namespace PressError

/-- The code that programs tell errors apart by. -/
def code : PressError → String
  | .notFound _ => "NOT_FOUND"
  | .template _ => "TEMPLATE_ERROR"
  | .exhausted cause => cause.kind.code
  | .raster _ => "RASTER_ERROR"
  | .io _ => "IO_ERROR"
  | .internal _ => "INTERNAL_ERROR"

/-- The wording of an error. -/
def message : PressError → String
  | .notFound what => "Not found: " ++ what
  | .template cause => cause.message
  | .exhausted cause =>
    "Compilation failed after " ++ toString cause.attempts ++ " attempts (" ++ cause.kind.code ++
      ")"
  | .raster cause => "Rasterization failed: " ++ cause.message
  | .io cause => "I/O error: " ++ cause.message
  | .internal report => "Internal error: " ++ report.message

/-- Whether something can be installed to mend it. -/
def isActionable : PressError → Bool
  | .exhausted cause => cause.kind.isActionable
  | _ => false

/-- The file with the last log of a compilation. -/
def log? : PressError → Option Path
  | .exhausted cause => cause.log
  | _ => none

/-- The error as a value. -/
def toJson (e : PressError) : Json :=
  .obj [("error", .obj ([("code", .str e.code), ("message", .str e.message)] ++
    match e.log? with
    | some path => [("logFile", .str path.text)]
    | none => []))]

end PressError

end ResumePress
