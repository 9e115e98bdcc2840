import ResumePress.Latex.Document
import ResumePress.Text.Lines

/-!
What stands before the body of a document: its class, its packages with those that the text needs
without declaring them, and the commands between the line of the class and the line where the body
begins.
-/

namespace ResumePress.Latex

open Text

/-- What a document needs before its body. -/
structure Preamble where
  documentClass : String
  packages : List String
  commands : List String
deriving DecidableEq, Repr

namespace Preamble

/-- The class of a document that names none. -/
def defaultClass : String := "\\documentclass\x7barticle\x7d"

/-- The packages that uses in the text call for. -/
def impliedPackages (source : List Char) : List String :=
  (if contains "\\begin\x7btabularx\x7d".toList source
    then ["\\usepackage\x7btabularx\x7d"] else []) ++
  (if contains "\\begin\x7blongtable\x7d".toList source
    then ["\\usepackage\x7blongtable\x7d"] else []) ++
  (if colorCommand.occursIn source then ["\\usepackage[dvipsnames]\x7bxcolor\x7d"] else []) ++
  (if contains "\\setmainfont".toList source then ["\\usepackage\x7bfontspec\x7d"] else [])

/-- Whether a trimmed line is a command: it is not empty, no comment and no package. -/
def isCommand (line : List Char) : Bool :=
  !(line.isEmpty || line.head? == some '%' || package.name.isPrefixOf line)

/-- The trimmed commands between the first line that mentions the class directive and the first
line with the marker of the body, if the lines come in this order. -/
def commandLines (source : List Char) : List (List Char) :=
  let all := lines source
  match all.findIdx? (contains className), all.findIdx? (contains beginDocument) with
  | some first, some last =>
    (((all.take last).drop (first + 1)).map trim).filter isCommand
  | _, _ => []

/-- Reads the preamble off a source. -/
def ofSource (source : String) : Preamble :=
  let text := source.toList
  { documentClass :=
      match Latex.documentClass.pattern.first? text with
      | some (written, _) => String.ofList written
      | none => defaultClass
    packages := (declarations text).map String.ofList ++ impliedPackages text
    commands := (commandLines text).map String.ofList }

end Preamble

end ResumePress.Latex
