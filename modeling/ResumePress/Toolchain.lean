import ResumePress.Program
import ResumePress.Text.Blank
import ResumePress.Text.Case
import ResumePress.Text.Find

/-!
What a TeX installation has: fonts and packages. Something counts as available only if a probe
finds it; a probe that could not be made keeps its reason. A probe may also crash.
-/

namespace ResumePress

/-- The answer of a probe. -/
inductive Availability where
  | present
  | absent
  | unchecked (reason : String)
deriving DecidableEq, Repr

/-- Whether the answer lets a thing be used. -/
def Availability.isAvailable : Availability → Bool
  | .present => true
  | _ => false

/-- How a probe ends: with an answer, or by crashing. -/
inductive Probe where
  | answered (a : Availability)
  | crashed (reason : String)
deriving DecidableEq, Repr

/-- Whether a probe found what it looked for. -/
def Probe.isPresent : Probe → Bool
  | .answered a => a.isAvailable
  | .crashed _ => false

/-- Probes for fonts and packages by their names. -/
structure Toolchain (σ : Type) where
  font : String → Act σ Probe
  package : String → Act σ Probe

/-- Whether a listing mentions a font, whatever the case of its letters. -/
def catalogContains (catalog font : String) : Bool :=
  Text.contains (Text.lower font.toList) (Text.lower catalog.toList)

/-- The probes of an installed system: a program that lists the fonts, and one that finds the file
of a package. -/
structure SystemToolchain where
  fontLister : String
  packageResolver : String
  limit : Duration

namespace SystemToolchain

/-- The usual programs. -/
def standard (limit : Duration) : SystemToolchain := ⟨"fc-list", "kpsewhich", limit⟩

variable {σ : Type}

/-- Looks for a font in the listing. -/
def probeFont (t : SystemToolchain) (programs : Programs σ) (name : String) :
    Act σ Availability := do
  match ← runProgram programs t.limit t.fontLister [] with
  | .error e => return .unchecked e.message
  | .ok out =>
    if out.success then
      return if catalogContains out.stdout name then .present else .absent
    else
      return .unchecked (t.fontLister ++ " exited with " ++ exitText out.exit ++ ": " ++
        String.ofList (Text.trim out.stderr.toList))

/-- Looks for the style file of a package. -/
def probePackage (t : SystemToolchain) (programs : Programs σ) (name : String) :
    Act σ Availability := do
  match ← runProgram programs t.limit t.packageResolver [name ++ ".sty"] with
  | .error e => return .unchecked e.message
  | .ok out => return if out.success then .present else .absent

/-- The probes of the system. -/
def toolchain (t : SystemToolchain) (programs : Programs σ) : Toolchain σ where
  font name := do return .answered (← t.probeFont programs name)
  package name := do return .answered (← t.probePackage programs name)

end SystemToolchain

end ResumePress
