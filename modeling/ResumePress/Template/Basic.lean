import ResumePress.Files.Path
import ResumePress.Json.Record
import ResumePress.Text.Alphanumeric

/-!
Templates of résumés: a source in LaTeX and what is known about it. Images that the source or a
content refers to have substitutes; one without a substitute gets the common placeholder. The stem
of a template is its id in small letters and digits, every run of other characters being one
underscore; it names the files that are made for the template.
-/

namespace ResumePress

/-- The substitute for an image that has none of its own. -/
def placeholderImage : String := "/placeholder-user.jpg"

/-- A template and what it needs. -/
structure Template where
  id : String
  name : String
  /-- Where the source was read. -/
  path : Path
  source : String
  description : Option String
  sourceUrl : Option String
  /-- The substitutes of images, by path. -/
  images : List (String × String)
  fonts : List String
  packages : List String
  previewImage : Option Path
  isDefault : Bool
deriving DecidableEq

/-- Letters and digits in small letters with one underscore for every run of other characters;
`inGap` tells that the character before was one of those. -/
def stemFrom (inGap : Bool) : List Char → List Char
  | [] => []
  | c :: s =>
    if Text.isAsciiAlphanumeric c then c.toLower :: stemFrom false s
    else if inGap then stemFrom true s
    else '_' :: stemFrom true s

/-- The stem of an id. -/
def stemOf (id : String) : String :=
  String.ofList (stemFrom false id.toList)

/-- The pairs without those whose key comes again later. -/
def keepLast : List (String × String) → List (String × String)
  | [] => []
  | pair :: rest =>
    if rest.any (·.1 == pair.1) then keepLast rest else pair :: keepLast rest

namespace Template

/-- The stem of the files made for a template. -/
def stem (t : Template) : String := stemOf t.id

/-- The substitute for an image. -/
def imageFor (t : Template) (path : String) : String :=
  (t.images.lookup path).getD placeholderImage

/-- The members of the record. -/
def fieldNames : List String :=
  ["id", "name", "sourcePath", "latexSource", "description", "sourceURL", "imagePlaceholders",
    "requiredFonts", "customPackages", "previewImagePath", "isDefault"]

/-- The record as a value. -/
def toJson (t : Template) : Json :=
  .obj (fieldNames.zip [
    .str t.id, .str t.name, .str t.path.text, .str t.source, .ofText? t.description,
    .ofText? t.sourceUrl, .obj (t.images.map fun m => (m.1, .str m.2)), .ofTexts t.fonts,
    .ofTexts t.packages, .ofText? (t.previewImage.map Path.text), .bool t.isDefault])

/-- Reads a record. -/
def ofJson? (value : Json) : Option Template :=
  match value.fields? fieldNames with
  | some [id, name, path, source, description, sourceUrl, images, fonts, packages, previewImage,
      isDefault] => do
    return { id := ← Json.required Json.text? id
             name := ← Json.required Json.text? name
             path := ⟨← Json.required Json.text? path⟩
             source := ← Json.required Json.text? source
             description := ← Json.optional Json.text? description
             sourceUrl := ← Json.optional Json.text? sourceUrl
             images := ← Json.required Json.textMap? images
             fonts := ← Json.required Json.texts? fonts
             packages := ← Json.required Json.texts? packages
             previewImage := (← Json.optional Json.text? previewImage).map Path.mk
             isDefault := ← Json.required Json.bool? isDefault }
  | _ => none

end Template

end ResumePress
