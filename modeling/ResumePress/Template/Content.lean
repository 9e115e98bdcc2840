import ResumePress.Latex.Document
import ResumePress.Template.Basic
import ResumePress.Template.Profile

/-!
Contents in templates. A content is adapted to a template in four steps: it is restyled, it gets a
note about glyph names, its images get their substitutes, and a comment is added for every font
that the template requires and the content does not declare. An adapted content is placed where the
source of the template asks for it, or else at the end of its body.
-/

namespace ResumePress

open Latex Text

/-- Why a content could not be adapted: the restyling of a template failed. -/
structure RestyleError where
  templateId : String
  reason : String
deriving DecidableEq, Repr

/-- The wording of the error. -/
def RestyleError.message (e : RestyleError) : String :=
  "rewrite for template '" ++ e.templateId ++ "' failed: " ++ e.reason

namespace Content

/-- What a content that asks for glyph names holds. -/
def glyphInput : List Char := "\\input\x7bglyphtounicode\x7d".toList

/-- The note about glyph names. -/
def glyphNote : List Char :=
  "% Note: glyphtounicode functionality is handled by the PDF generator\n".toList

/-- Puts the note before the body. -/
def noteGlyphs (s : List Char) : List Char :=
  replaceFirst beginDocument (glyphNote ++ beginDocument) s

/-- Whether a substitute can stand between braces: it is not blank and has no brace and no line
feed. -/
def isUsable (substitute : List Char) : Bool :=
  !(trim substitute).isEmpty && substitute.all fun c => c != '\x7b' && c != '\x7d' && c != '\n'

/-- The comment above an image whose substitute cannot be used. -/
def imageNote (path : List Char) : List Char :=
  "% Failed to process image: ".toList ++ path ++ "\n% Using default placeholder\n".toList

/-- An image with its substitute, or with the common placeholder and a comment above it. -/
def substitute (t : Template) (use : Use) : List Char :=
  let fresh := (t.imageFor (String.ofList use.argument)).toList
  if isUsable fresh then image.written { use with argument := fresh }
  else imageNote use.argument ++ image.written { use with argument := placeholderImage.toList }

/-- Gives every image its substitute. -/
def substituteImages (t : Template) (s : List Char) : List Char :=
  image.pattern.replace (fun _ use => substitute t use) s

/-- The comment about a font that is not declared. -/
def fontNote (font : String) : List Char :=
  "% Warning: Template requires ".toList ++ font.toList ++ " font package".toList

/-- The required fonts that a text does not declare as packages. -/
def missingFonts (t : Template) (s : List Char) : List String :=
  let declared := declaredNames s
  t.fonts.filter fun font => !declared.contains font.toList

/-- Puts the comments about missing fonts behind the first line with the document class. -/
def noteFonts (t : Template) (s : List Char) : List Char :=
  match missingFonts t s, classLine.cut? s with
  | [], _ => s
  | _, none => s
  | fonts, some (before, line, after) =>
    before ++ line ++ (fonts.flatMap fun font => fontNote font ++ ['\n']) ++ after

/-- The steps after restyling. Whether the note about glyph names is needed hangs on the content as
it was given. -/
def finish (t : Template) (p : Profile) (given restyled : List Char) : List Char :=
  let noted := if p.notesGlyphs && !contains glyphInput given then noteGlyphs restyled else restyled
  let pictured := if t.images.isEmpty then noted else substituteImages t noted
  noteFonts t pictured

end Content

namespace Template

/-- Adapts a content to a template, unless its restyling fails. -/
def adapt? (t : Template) (p : Profile) (content : String) : Except RestyleError String :=
  let restyled : Except RestyleError String :=
    match p.restyle with
    | none => .ok content
    | some f => (f content).mapError fun reason => ⟨t.id, reason⟩
  restyled.map fun s => String.ofList (Content.finish t p content.toList s.toList)

/-- Adapts a content to a template; one that cannot be restyled stays as it is. -/
def adapt (t : Template) (p : Profile) (content : String) : String :=
  match t.adapt? p content with
  | .ok adapted => adapted
  | .error _ => content

/-- Places a text in a source: at the first placeholder, else on a line before the last end of the
body, else not at all. -/
def place (placeholder source text : List Char) : List Char :=
  match cut? placeholder source with
  | some (before, after) => before ++ text ++ after
  | none =>
    match cutLast? endDocument source with
    | some (before, after) => before ++ text ++ ['\n'] ++ endDocument ++ after
    | none => source

/-- The document of a content: the source of the template with the adapted content in it. -/
def render (t : Template) (p : Profile) (content : String) : String :=
  String.ofList (place p.placeholder.toList t.source.toList (t.adapt p content).toList)

end Template

end ResumePress
