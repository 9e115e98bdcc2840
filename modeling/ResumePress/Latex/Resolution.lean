import ResumePress.Latex.Declaration

/-!
Resolution of package declarations: of the declarations of one name the highest ranked stays, the
first of equals, in the position of the first; a package that another one supersedes goes; the
common packages come first. Texts that declare nothing are skipped and reported.
-/

namespace ResumePress.Latex

/-- The packages that every preview has. -/
def commonPackages : List String := [
  "\\usepackage[T1]\x7bfontenc\x7d",
  "\\usepackage[utf8]\x7binputenc\x7d",
  "\\usepackage\x7bmicrotype\x7d",
  "\\usepackage[margin=1cm]\x7bgeometry\x7d",
  "\\usepackage\x7bfancyhdr\x7d",
  "\\usepackage\x7bgraphicx\x7d",
  "\\usepackage[dvipsnames]\x7bxcolor\x7d",
  "\\usepackage\x7benumitem\x7d",
  "\\usepackage\x7btitlesec\x7d",
  "\\usepackage\x7bhyperref\x7d",
  "\\usepackage\x7bfontawesome\x7d",
  "\\usepackage\x7bcalc\x7d",
  "\\usepackage\x7barray\x7d",
  "\\usepackage\x7betoolbox\x7d"]

/-- The names of the common packages. -/
def commonNames : List String :=
  (commonPackages.filterMap Declaration.parse?).map Declaration.name

/-- Whether a name is that of a common package. -/
def isCommon (name : String) : Bool :=
  commonNames.contains name

/-- Pairs of a package and the package that it supersedes. -/
def supersessions : List (String × String) :=
  [("fontspec", "fontenc"), ("unicode-math", "amsmath")]

/-- The outcome of a resolution. -/
structure Resolution where
  packages : List String
  skipped : List String
deriving DecidableEq, Repr

namespace Resolution

/-- The declarations with one more: a higher rank takes the position of its name, a new name comes
last. -/
def insert (d : Declaration) : List Declaration → List Declaration
  | [] => [d]
  | e :: rest =>
    if e.name = d.name then (if e.priority < d.priority then d :: rest else e :: rest)
    else e :: insert d rest

/-- One declaration for each name, in the order in which the names come first. -/
def merge (declared : List Declaration) : List Declaration :=
  declared.foldl (fun slots d => insert d slots) []

/-- Whether a package of the list supersedes the name. -/
def isSuperseded (slots : List Declaration) (name : String) : Bool :=
  supersessions.any fun pair => pair.2 == name && slots.any (·.name == pair.1)

/-- The declarations that stay, the common ones first. -/
def arrange (slots : List Declaration) : List Declaration :=
  let kept := slots.filter fun d => !isSuperseded slots d.name
  kept.filter (fun d => isCommon d.name) ++ kept.filter (fun d => !isCommon d.name)

/-- Resolves raw declarations. -/
def ofDeclarations (raw : List String) : Resolution where
  packages := (arrange (merge (raw.filterMap Declaration.parse?))).map Declaration.text
  skipped := raw.filter fun r => (Declaration.parse? r).isNone

end Resolution

/-- The resolved declarations alone. -/
def resolve (raw : List String) : List String :=
  (Resolution.ofDeclarations raw).packages

end ResumePress.Latex
