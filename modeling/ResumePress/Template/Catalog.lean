import ResumePress.Template.Basic
import ResumePress.Text.Braces

/-!
What is known about templates beforehand, by the name of their source file, and the templates that
are there without any file.
-/

namespace ResumePress

/-- What is known about the template of an id. -/
structure CatalogEntry where
  id : String
  name : String
  description : Option String
  sourceUrl : Option String
  /-- Substitutes of images, by path; of two for one path the later counts. -/
  images : List (String × String)
  fonts : List String
  packages : List String
  isDefault : Bool

namespace CatalogEntry

/-- The template of an entry with its source. -/
def template (entry : CatalogEntry) (path : Path) (source : String) : Template where
  id := entry.id
  name := entry.name
  path := path
  source := source
  description := entry.description
  sourceUrl := entry.sourceUrl
  images := keepLast entry.images
  fonts := entry.fonts
  packages := entry.packages
  previewImage := none
  isDefault := entry.isDefault

end CatalogEntry

namespace Catalog

/-- The default résumé. -/
def defaultResume : CatalogEntry where
  id := "Default_Resume"
  name := "Default Resume"
  description := some "Clean and professional resume template with modern typography"
  sourceUrl := none
  images := []
  fonts := ["Charter"]
  packages := []
  isDefault := true

/-- The template with two columns. -/
def twoColumn : CatalogEntry where
  id := "John_Miller_CV"
  name := "John Miller CV"
  description := some "Two-column CV template with a modern design"
  sourceUrl := some "https://www.overleaf.com/latex/templates/jakes-resume/syzfjbzwjncs"
  images := [("joh.png.jpg", placeholderImage)]
  fonts := ["FiraSans"]
  packages := []
  isDefault := false

/-- The template made of modules. -/
def modular : CatalogEntry where
  id := "Modular_professional_CV"
  name := "Modular Professional CV"
  description := some "Highly customizable professional CV template"
  sourceUrl := some
    "https://www.overleaf.com/latex/templates/modular-professional-cv/cffcktvtxxmr"
  images := []
  fonts := ["FiraSans", "FontAwesome"]
  packages := ["fontawesome"]
  isDefault := false

/-- The entries of the built-in catalog. -/
def builtin : List CatalogEntry := [defaultResume, twoColumn, modular]

/-- The source of the default résumé. -/
def defaultResumeSource : String := Text.withBraces r"\documentclass[letterpaper,11pt]⟨article⟩
\usepackage[T1]⟨fontenc⟩
\usepackage[utf8]⟨inputenc⟩
\usepackage⟨charter⟩
\usepackage[margin=0.75in]⟨geometry⟩
\usepackage⟨enumitem⟩
\usepackage⟨titlesec⟩
\usepackage[hidelinks]⟨hyperref⟩

\pagestyle⟨empty⟩
\setlength⟨\parindent⟩⟨0pt⟩
\titleformat⟨\section⟩⟨\large\bfseries⟩⟨⟩⟨0em⟩⟨⟩[\titlerule]
\newcommand⟨\entry⟩[4]⟨\textbf⟨#2⟩ \hfill #1 \\ \textit⟨#3⟩ \\ #4⟩

\begin⟨document⟩

\begin⟨center⟩
  ⟨\LARGE\bfseries Your Name⟩ \\[2pt]
  you@example.com \textbullet⟨⟩ (555) 555-0100 \textbullet⟨⟩ city, state
\end⟨center⟩

%RESUME_CONTENT%

\end⟨document⟩
"

/-- The source of the template with two columns. -/
def twoColumnSource : String := Text.withBraces r"\documentclass[a4paper,10pt]⟨article⟩
\usepackage[T1]⟨fontenc⟩
\usepackage[utf8]⟨inputenc⟩
\usepackage[sfdefault]⟨FiraSans⟩
\usepackage[margin=1.5cm]⟨geometry⟩
\usepackage⟨graphicx⟩
\usepackage[dvipsnames]⟨xcolor⟩
\usepackage⟨fontawesome⟩
\usepackage⟨tabularx⟩

\pagestyle⟨empty⟩
\setlength⟨\parindent⟩⟨0pt⟩
\newcommand⟨\workIcon⟩⟨\faBriefcase⟩
\newcommand⟨\headright⟩[2]⟨\vspace⟨6pt⟩⟨\color⟨NavyBlue⟩\large\textbf⟨#1⟩⟩ \hfill #2 \\[-4pt]\rule⟨\linewidth⟩⟨0.4pt⟩⟩
\newcommand⟨\dates⟩[1]⟨\hfill⟨\small\color⟨Gray⟩#1⟩⟩
\newcommand⟨\is⟩⟨\vspace⟨4pt⟩⟩
\renewcommand⟨\smaller⟩[1]⟨⟨\small #1⟩⟩

\begin⟨document⟩

\begin⟨tabularx⟩⟨\linewidth⟩⟨@⟨⟩lX@⟨⟩⟩
  \includegraphics[width=2.5cm]⟨joh.png.jpg⟩ &
  ⟨\Huge\bfseries John Miller⟩ \\
  & \textcolor⟨Gray⟩⟨Software Engineer⟩
\end⟨tabularx⟩

%RESUME_CONTENT%

\end⟨document⟩
"

/-- The source of the template made of modules. -/
def modularSource : String := Text.withBraces r"\documentclass[11pt]⟨article⟩
\usepackage[T1]⟨fontenc⟩
\usepackage[utf8]⟨inputenc⟩
\usepackage[sfdefault]⟨FiraSans⟩
\usepackage[margin=2cm]⟨geometry⟩
\usepackage⟨fontawesome⟩
\usepackage⟨enumitem⟩
\usepackage[dvipsnames]⟨xcolor⟩
\usepackage⟨titlesec⟩

\pagestyle⟨empty⟩
\setlength⟨\parindent⟩⟨0pt⟩
\definecolor⟨accent⟩⟨RGB⟩⟨32,72,120⟩
\titleformat⟨\section⟩⟨\color⟨accent⟩\Large\scshape⟩⟨⟩⟨0em⟩⟨⟩[⟨\color⟨accent⟩\titlerule⟩]
\newcommand⟨\cvmodule⟩[3]⟨\textbf⟨#1⟩ \hfill ⟨\small #2⟩ \\ #3 \par\medskip⟩

\begin⟨document⟩

⟨\Huge\color⟨accent⟩ First Last⟩ \\[4pt]
\faEnvelope\ first.last@example.com \quad \faPhone\ +1 555 0100 \quad \faLinkedin\ first-last

%RESUME_CONTENT%

\end⟨document⟩
"

/-- The built-in templates. Their paths name the files that they would come from. -/
def templates : List Template :=
  [(defaultResume, defaultResumeSource), (twoColumn, twoColumnSource), (modular, modularSource)].map
    fun pair => pair.1.template ⟨"templates/latex/" ++ pair.1.id ++ ".tex"⟩ pair.2

end Catalog

end ResumePress
