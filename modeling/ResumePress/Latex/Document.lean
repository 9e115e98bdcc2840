import ResumePress.Latex.Directive
import ResumePress.Text.Blank
import ResumePress.Text.Find

/-!
The shapes that are recognised in a document; all else is opaque text. The directives are package,
image, document class and section. Apart from these there are the line that carries the document
class, the colour commands, and the two markers around the body.
-/

namespace ResumePress.Latex

open Text

/-- The marker before the body. -/
def beginDocument : List Char := "\\begin\x7bdocument\x7d".toList

/-- The marker behind the body. -/
def endDocument : List Char := "\\end\x7bdocument\x7d".toList

/-- The name of the class directive. -/
def className : List Char := "\\documentclass".toList

/-- A package, with options. -/
def package : Directive := ⟨"\\usepackage".toList, by decide, true, false⟩

/-- An image, with options; its path is not empty. -/
def image : Directive := ⟨"\\includegraphics".toList, by decide, true, true⟩

/-- The class of the document, with options. -/
def documentClass : Directive := ⟨className, by decide, true, false⟩

/-- A section heading; its title is not empty. -/
def heading : Directive := ⟨"\\section".toList, by decide, false, true⟩

/-- The part of a line that starts with the class directive, with the end of the line. -/
def classLine : Pattern Unit where
  matchAt s :=
    if className.isPrefixOf s then
      (upTo? '\n' (s.drop className.length)).map fun parts => (className ++ parts.1 ++ ['\n'], ())
    else none
  isPrefix := by
    intro s part a h
    split at h
    · rename_i hp
      obtain ⟨tail, rfl⟩ := List.isPrefixOf_iff_prefix.1 hp
      obtain ⟨parts, hparts, heq⟩ := Option.map_eq_some_iff.1 h
      simp only [Prod.mk.injEq] at heq
      rw [List.drop_left] at hparts
      exact ⟨parts.2, by rw [← heq.1, eq_of_upTo? hparts]; simp⟩
    · simp at h
  ne_nil := by
    intro s part a h
    split at h
    · obtain ⟨parts, _, heq⟩ := Option.map_eq_some_iff.1 h
      simp only [Prod.mk.injEq] at heq
      rw [← heq.1]
      simp
    · simp at h

/-- Where a colour command starts. -/
def colorStarts : List (List Char) := ["\\textcolor\x7b".toList, "\\color\x7b".toList]

/-- The start of a colour command. -/
def colorCommand : Pattern Unit where
  matchAt s := (colorStarts.find? (·.isPrefixOf s)).map fun start => (start, ())
  isPrefix := by
    intro s part a h
    obtain ⟨start, hstart, heq⟩ := Option.map_eq_some_iff.1 h
    simp only [Prod.mk.injEq] at heq
    have := List.find?_some hstart
    exact heq.1 ▸ List.isPrefixOf_iff_prefix.1 this
  ne_nil := by
    intro s part a h
    obtain ⟨start, hstart, heq⟩ := Option.map_eq_some_iff.1 h
    simp only [Prod.mk.injEq] at heq
    have hmem := List.mem_of_find?_eq_some hstart
    rw [← heq.1]
    simp only [colorStarts, List.mem_cons, List.not_mem_nil, or_false] at hmem
    rcases hmem with rfl | rfl <;> decide

/-- The package directives of a text as they are written. -/
def declarations (source : List Char) : List (List Char) :=
  (package.pattern.hits source).map Prod.fst

/-- The names in an argument: it is split at commas, and blank names do not count. -/
def names (argument : List Char) : List (List Char) :=
  ((splitAt ',' argument).map trim).filter (!·.isEmpty)

/-- The names of the packages of a text, in order. -/
def declaredNames (source : List Char) : List (List Char) :=
  (package.pattern.values source).flatMap fun use => names use.argument

/-- Whether a text mentions the class directive. -/
def hasClass (source : List Char) : Bool :=
  contains className source

/-- Whether a text has both markers. -/
def hasEnvironment (source : List Char) : Bool :=
  contains beginDocument source && contains endDocument source

/-- The trimmed text between the first marker of the beginning and the next one of the end. -/
def body? (source : List Char) : Option (List Char) :=
  (cut? beginDocument source).bind fun parts =>
    (cut? endDocument parts.2).map fun inner => trim inner.1

end ResumePress.Latex
