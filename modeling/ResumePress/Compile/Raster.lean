import ResumePress.Program
import ResumePress.Text.Blank

/-!
Images of documents. The first page of a document is rendered at two resolutions; each has a suffix
that sets the names of its images apart.
-/

namespace ResumePress

open Files

/-- A resolution of images. -/
structure RasterSpec where
  label : String
  dpi : Nat
  width : Nat
  height : Nat
  /-- What the name of an image has after the stem. -/
  suffix : String
deriving DecidableEq, Repr

namespace RasterSpec

/-- The usual resolution. -/
def standard : RasterSpec := ⟨"standard", 150, 600, 850, ""⟩

/-- Twice the usual resolution. -/
def doubleDensity : RasterSpec := ⟨"double-density", 300, 1200, 1700, "@2x"⟩

/-- The name of an image. -/
def fileName (spec : RasterSpec) (stem : String) : String :=
  stem ++ spec.suffix ++ ".png"

end RasterSpec

/-- Why there is no image. -/
inductive RasterError where
  | program (cause : ProgramError)
  | failed (exit : Option Int) (stderr : String)
  | missing (path : Path)
deriving DecidableEq, Repr

/-- The wording of an error. -/
def RasterError.message : RasterError → String
  | .program cause => "converter could not run: " ++ cause.message
  | .failed exit stderr => "converter exited with " ++ exitText exit ++ ": " ++ stderr
  | .missing path => "converter produced no image at " ++ path.text

/-- Renders the first page of a document at a resolution to an image with the given stem. -/
abbrev Rasterizer (σ : Type) :=
  (document : Path) → RasterSpec → (stem : Path) → Act σ (Except RasterError Path)

/-- The rasterizer of the system. -/
structure SystemRasterizer where
  program : String
  limit : Duration

namespace SystemRasterizer

/-- The usual program. -/
def standard (limit : Duration) : SystemRasterizer := ⟨"pdftoppm", limit⟩

/-- The arguments of a run. -/
def arguments (document : Path) (spec : RasterSpec) (stem : Path) : List String :=
  ["-png", "-r", toString spec.dpi, "-scale-to-x", toString spec.width, "-scale-to-y",
    toString spec.height, "-f", "1", "-l", "1", "-singlefile", document.text, stem.text]

/-- Runs the program and asks for its image. -/
def rasterizer {σ : Type} (r : SystemRasterizer) (programs : Programs σ) : Rasterizer σ :=
  fun document spec stem => do
    match ← runProgram programs r.limit r.program (arguments document spec stem) with
    | .error e => return .error (.program e)
    | .ok out =>
      if !out.success then
        return .error (.failed out.exit (String.ofList (Text.trim out.stderr.toList)))
      let image := stem.withExtension "png"
      if ← Act.isThere image then return .ok image else return .error (.missing image)

end SystemRasterizer

end ResumePress
