import ResumePress.Latex.Document
import ResumePress.Text.Braces
import ResumePress.Text.Quoted

/-!
Profiles of templates: where the content goes, what a sample of it looks like, and how contents are
restyled. A table of profiles is keyed by the ids of templates, and an id that is not in it has the
plain profile.
-/

namespace ResumePress

/-- How contents are treated for a template. -/
structure Profile where
  /-- The text that marks where the content goes. -/
  placeholder : String
  sample : String
  /-- A change of the content before it is placed, which can fail with a reason. -/
  restyle : Option (String → Except String String)
  /-- Whether a content that does not ask for glyph names gets a note about them. -/
  notesGlyphs : Bool
  /-- The style sheet of a page that shows the template. -/
  styles : Option String

namespace Profile

/-- The profile of templates without one. -/
def plain : Profile where
  placeholder := "%RESUME_CONTENT%"
  sample := "% No specific template configuration found"
  restyle := none
  notesGlyphs := false
  styles := none

/-- A line that describes the profile in short. -/
def summary (p : Profile) : String :=
  "TemplateProfile \x7b content_placeholder: " ++ Text.quoted p.placeholder ++
    ", has_rewrite: " ++ toString p.restyle.isSome ++
    ", requires_glyph_to_unicode: " ++ toString p.notesGlyphs ++ ", .. \x7d"

/-- Turns every section heading into a heading with an icon on its right. -/
def headingsToRight (content : String) : String :=
  String.ofList (Latex.heading.pattern.replace
    (fun _ use => "\\headright".toList ++ Latex.braced use.argument ++
      Latex.braced "\\workIcon".toList)
    content.toList)

end Profile

/-- Profiles by the ids of templates. -/
structure ProfileTable where
  entries : List (String × Profile)

namespace ProfileTable

/-- The table with a profile for an id, in the place of one it has already. -/
def insert (table : ProfileTable) (id : String) (profile : Profile) : ProfileTable :=
  ⟨(id, profile) :: table.entries.filter (·.1 != id)⟩

/-- The profile of exactly this id. -/
def get? (table : ProfileTable) (id : String) : Option Profile :=
  table.entries.lookup id

/-- The profile of an id, or the plain one. -/
def profileFor (table : ProfileTable) (id : String) : Profile :=
  (table.get? id).getD Profile.plain

/-- The sample of the default résumé. -/
def defaultSample : String := Text.withBraces r"\section⟨Work Experience⟩
\entry
  ⟨2020-Present⟩
  ⟨Senior Software Engineer⟩
  ⟨Tech Company⟩
  ⟨
    \begin⟨itemize⟩
      \item Led development of key features
      \item Improved system performance by 50\%
    \end⟨itemize⟩
  ⟩"

/-- The sample of the two-column template. -/
def twoColumnSample : String := Text.withBraces r"\section⟨Work Experience⟩
\textsc⟨Senior Developer⟩ at \textit⟨Tech Corp.⟩  \dates⟨2020--Present⟩ \\
\smaller⟨Led development of key features and improved system performance⟩

\is
\smaller⟨Managed team of 5 developers and implemented new architecture⟩"

/-- The profiles of the built-in templates. -/
def builtin : ProfileTable where
  entries := [
    ("Default_Resume",
      { Profile.plain with
        sample := defaultSample
        styles := some (Text.withBraces
          ".preview-container ⟨\n  font-family: \"Charter\", serif;\n  line-height: 1.5;\n⟩") }),
    ("John_Miller_CV",
      { Profile.plain with
        sample := twoColumnSample
        restyle := some fun content => .ok (Profile.headingsToRight content)
        styles := some (Text.withBraces (".preview-container ⟨\n" ++
          "  font-family: \"Fira Sans\", sans-serif;\n  background: #fff;\n⟩")) })]

end ProfileTable

end ResumePress
