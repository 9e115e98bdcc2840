import ResumePress.Cache
import ResumePress.Compile.Workspace
import ResumePress.Config.Basic
import ResumePress.Error
import ResumePress.Sweep
import ResumePress.Template.Preview
import ResumePress.Validation

/-!
The press: templates and the means to compile them. A preview is compiled in a folder of its own,
rendered at two resolutions and published as two thumbnails, both or none. A document is compiled
likewise and kept in the cache. The folder of a run is removed on every way out.
-/

namespace ResumePress

open Files

/-- The thumbnails of a preview, and how its document was made. -/
structure PreviewArtifacts where
  templateId : String
  standard : Path
  doubleDensity : Path
  engine : TexEngine
  attempts : Nat
deriving DecidableEq, Repr

/-- Templates, and what they are validated, compiled and rendered with. -/
structure Press (σ : Type) where
  registry : Registry
  toolchain : Toolchain σ
  compiler : RetryingCompiler σ
  rasterizer : Rasterizer σ
  cache : Cache
  config : Config

namespace Press

variable {σ : Type}

/-- A press of given parts. -/
def ofParts (config : Config) (registry : Registry) (toolchain : Toolchain σ)
    (compiler : Compiler σ) (rasterizer : Rasterizer σ) : Press σ where
  registry := registry
  toolchain := toolchain
  compiler :=
    { compiler := compiler
      policy := .standard config.retryDelay
      logFolder := config.temp.join Sweep.logFolder }
  rasterizer := rasterizer
  cache := ⟨config.cache, config.cacheTime⟩
  config := config

/-- A press that works with the programs of a system. -/
def ofPrograms (config : Config) (registry : Registry) (programs : Programs σ) : Press σ :=
  ofParts config registry
    ((SystemToolchain.standard config.toolchainLimit).toolchain programs)
    ((SystemCompiler.standard config.compileLimit).compiler programs)
    ((SystemRasterizer.standard config.compileLimit).rasterizer programs)

/-- The template of an id. -/
def template (press : Press σ) (id : String) : Except PressError Template :=
  match press.registry.get? id with
  | some t => .ok t
  | none => .error (.notFound ("template '" ++ id ++ "'"))

/-- Validates a template. -/
def validate (press : Press σ) (t : Template) : Act σ Validation :=
  t.validate press.toolchain

/-- Adapts a content to a template. -/
def adapt (press : Press σ) (t : Template) (content : String) : String :=
  t.adapt (press.registry.profile t.id) content

/-- The document of a content in a template. -/
def render (press : Press σ) (t : Template) (content : String) : String :=
  t.render (press.registry.profile t.id) content

/-- The style sheet of a page that shows a template. -/
def styles (press : Press σ) (t : Template) : Option String :=
  (press.registry.profile t.id).styles

/-- Where the image of a stem at a resolution is published. -/
def thumbnail (press : Press σ) (stem : String) (spec : RasterSpec) : Path :=
  press.config.thumbnails.join (spec.fileName stem)

/-! ### Publishing -/

/-- An image and where it is to be published. -/
structure Placement where
  image : Path
  target : Path

/-- Where an image is staged, beside its target. -/
def staging (target : Path) (token : String) : Path :=
  target.withFileName (target.fileName?.getD "" ++ "." ++ token ++ ".tmp")

/-- Removes files, whether they are there or not. -/
def discard : List Path → Act σ Unit
  | [] => return ()
  | path :: rest => do
    let _ ← Act.removeFile path
    discard rest

/-- Copies every image beside its target. If one cannot be copied, what was staged is removed. -/
def stageAll (token : String) : List Placement → (staged : List Path) → Act σ (Except Fault Unit)
  | [], _ => return .ok ()
  | p :: rest, staged => do
    let path := staging p.target token
    match ← Act.copy p.image path with
    | .ok () => stageAll token rest (staged ++ [path])
    | .error e =>
      discard (path :: staged)
      return .error e

/-- Puts staged images in place, up to the first that cannot be. -/
def placeAll (token : String) : List Placement → Act σ (Except Fault Unit)
  | [] => return .ok ()
  | p :: rest => do
    match ← Act.rename (staging p.target token) p.target with
    | .ok () => placeAll token rest
    | .error e => return .error e

/-- Publishes images: all are copied beside their targets before the first is put in place. -/
def publish (placements : List Placement) (token : String) : Act σ (Except Fault Unit) := do
  match ← stageAll token placements [] with
  | .error e => return .error e
  | .ok () => placeAll token placements

/-! ### Compiling -/

/-- Writes a source into the folder of a run and compiles it. -/
def compileIn (press : Press σ) (w : Workspace) (stem source : String) :
    Act σ (Except PressError CompiledDocument) := do
  match ← Act.write w.source (Text.encode source) with
  | .error e => return .error (.io e)
  | .ok () =>
    match ← press.compiler.compile w.source w.folder (stem ++ "-" ++ w.token) with
    | .error e => return .error (.exhausted e)
    | .ok document => return .ok document

/-- Runs something in a folder of its own. -/
def inWorkspace {α : Type} (press : Press σ) (stem : String)
    (body : Workspace → Act σ (Except PressError α)) : Act σ (Except PressError α) := do
  match ← Workspace.create press.config.temp stem with
  | .error e => return .error (.io e)
  | .ok w =>
    let result ← body w
    w.close
    return result

/-- The resolutions of a preview, in the order in which they are rendered. -/
def resolutions : List RasterSpec := [.standard, .doubleDensity]

/-- Renders a document at several resolutions, up to the first that fails. -/
def rasterizeAll (press : Press σ) (w : Workspace) (stem : String) (document : Path) :
    List RasterSpec → Act σ (Except PressError (List Placement))
  | [] => return .ok []
  | spec :: rest => do
    match ← press.rasterizer document spec (w.file (stem ++ spec.suffix)) with
    | .error e => return .error (.raster e)
    | .ok image =>
      match ← rasterizeAll press w stem document rest with
      | .error e => return .error e
      | .ok placements => return .ok (⟨image, press.thumbnail stem spec⟩ :: placements)

/-- The title of a preview: the id with blanks for underscores. -/
def previewTitle (id : String) : String :=
  String.ofList (id.toList.map fun c => if c = '_' then ' ' else c)

/-- The source of the preview of a template. -/
def previewSource (press : Press σ) (t : Template) : String :=
  t.preview (press.registry.profile t.id)
    { Preview.defaults with title := some (previewTitle t.id) }

/-- Compiles and publishes a preview in the folder of a run. -/
def previewIn (press : Press σ) (t : Template) (w : Workspace) :
    Act σ (Except PressError PreviewArtifacts) := do
  match ← press.compileIn w t.stem (press.previewSource t) with
  | .error e => return .error e
  | .ok document =>
    match ← press.rasterizeAll w t.stem document.path resolutions with
    | .error e => return .error e
    | .ok placements =>
      match ← Act.makeFolders press.config.thumbnails with
      | .error e => return .error (.io e)
      | .ok () =>
        match ← publish placements w.token with
        | .error e => return .error (.io e)
        | .ok () =>
          return .ok
            { templateId := t.id
              standard := press.thumbnail t.stem .standard
              doubleDensity := press.thumbnail t.stem .doubleDensity
              engine := document.engine
              attempts := document.attempts.length }

/-- Makes the thumbnails of a template. -/
def compilePreview (press : Press σ) (t : Template) : Act σ (Except PressError PreviewArtifacts) :=
  press.inWorkspace t.stem (press.previewIn t)

/-- Compiles a content in a template, unless the cache has the document. -/
def compileDocument (press : Press σ) (t : Template) (content : String) :
    Act σ (Except PressError ByteArray) := do
  let key := cacheKey t.id t.source content
  match ← press.cache.get key with
  | some bytes => return .ok bytes
  | none =>
    match ← press.inWorkspace t.stem fun w => press.compileIn w t.stem (press.render t content) with
    | .error e => return .error e
    | .ok document =>
      press.cache.put key document.bytes
      return .ok document.bytes

/-! ### Upkeep -/

/-- Whether a thumbnail is missing or older than a source of the given age, if there is one. -/
def isOutdated (press : Press σ) (stem : String) (source : Option Instant) (spec : RasterSpec) :
    Act σ Bool := do
  match ← Act.modified? (press.thumbnail stem spec) with
  | none => return true
  | some image => return source.any fun source => image < source

/-- Whether a thumbnail of a template has to be made anew. A template without a file of its own
needs that only if a thumbnail is missing. -/
def needsRefresh (press : Press σ) (t : Template) : Act σ Bool := do
  let source ← Act.modified? t.path
  if ← press.isOutdated t.stem source .standard then return true
  else press.isOutdated t.stem source .doubleDensity

/-- Sweeps what old runs left behind, and the cache. -/
def sweep (press : Press σ) : Act σ SweepReport := do
  let swept ← Sweep.run press.config.temp press.config.runRetention
  let _ ← press.cache.evict
  match swept with
  | .ok report => return report
  | .error _ => return ⟨[], []⟩

end Press

end ResumePress
