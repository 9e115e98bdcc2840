import ResumePress.Latex.Preamble
import ResumePress.Latex.Resolution
import ResumePress.Template.Content

/-!
Previews of templates: documents that stand for themselves. A preview has the class of the
template, its packages with the common ones added and resolved, its commands, and as its body a
given text or the body of the template with the sample in it.
-/

namespace ResumePress

open Latex Text

/-- What can be chosen for a preview. -/
structure PreviewOptions where
  title : Option String
  author : Option String
  date : Option String
  /-- A body in the place of the body of the template. -/
  content : Option String
  packages : List String
  /-- Whether the commands that suit most templates are added. -/
  commonCommands : Bool

namespace Preview

/-- Nothing is chosen. -/
def defaults : PreviewOptions where
  title := none
  author := none
  date := none
  content := none
  packages := []
  commonCommands := true

/-- Commands that suit most templates. -/
def commonCommands : String := withBraces r"% Common commands and settings
\setlength⟨\parindent⟩⟨0pt⟩
\pagestyle⟨empty⟩
\raggedbottom
\raggedright

% Custom commands for CV/Resume
\newcommand⟨\cvSection⟩[1]⟨\section*⟨#1⟩\vspace⟨-0.5em⟩⟩
\newcommand⟨\cvItem⟩[2]⟨\textbf⟨#1⟩ & #2 \\⟩
\newcommand⟨\cvEntry⟩[4]⟨\textbf⟨#1⟩ & #2 & #3 & #4 \\⟩"

/-- The common packages whose names none of the declarations has. -/
def essentials (declared : List String) : List String :=
  let names := declared.flatMap fun raw => declaredNames raw.toList
  commonPackages.filter fun raw =>
    match Declaration.parse? raw with
    | some d => !names.contains d.name.toList
    | none => false

/-- The resolved packages of a preview. -/
def packageBlock (preamble : Preamble) (additional : List String) : List String :=
  resolve (preamble.packages ++ essentials preamble.packages ++ additional)

/-- The body of the template with the sample in the place of the placeholder. -/
def sampleBody (t : Template) (p : Profile) : List Char :=
  let body := (body? t.source.toList).getD []
  if contains p.placeholder.toList body then
    replaceFirst p.placeholder.toList (t.adapt p p.sample).toList body
  else body

/-- The lines of the title. -/
def titleBlock (o : PreviewOptions) : Option (List Char) :=
  o.title.map fun title =>
    joinWith ['\n'] (["\\title".toList ++ braced title.toList] ++
      (match o.author with
        | some author => ["\\author".toList ++ braced author.toList]
        | none => []) ++
      ["\\date".toList ++ braced (o.date.getD "").toList, "\\maketitle".toList])

/-- Texts one below the other. -/
def stacked (texts : List String) : List Char :=
  joinWith ['\n'] (texts.map String.toList)

end Preview

namespace Template

open Preview

/-- The preview document of a template. -/
def preview (t : Template) (p : Profile) (o : PreviewOptions) : String :=
  let preamble := Preamble.ofSource t.source
  let commands := (if o.commonCommands then [commonCommands] else []) ++ preamble.commands
  let body :=
    match o.content with
    | some content => content.toList
    | none => sampleBody t p
  let title :=
    match titleBlock o with
    | some block => block ++ ['\n']
    | none => []
  String.ofList (preamble.documentClass.toList ++
    "\n\n% Essential packages\n".toList ++ stacked (packageBlock preamble o.packages) ++
    "\n\n% Original preamble commands\n".toList ++ stacked commands ++
    ['\n', '\n'] ++ beginDocument ++ ['\n'] ++ title ++ body ++
    ['\n'] ++ endDocument ++ ['\n'])

end Template

end ResumePress
