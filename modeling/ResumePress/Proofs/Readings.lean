import ResumePress.Proofs.Coverage

/-!
The readings of package declarations side by side. The names of the packages, the declarations as
they are written, and the record of the first one are all read off the uses of one directive, and
what is written in a use does not depend on the text around it. So the names and the record can be
read off the written declarations as well, and these can be put on lines of their own.
-/

namespace ResumePress.Latex

open Text

variable {s written : List Char} {raw : String} {use : Use}

/-! ### Written declarations -/

theorem declarations_eq (s : List Char) :
    declarations s = (package.pattern.values s).map package.written := by
  rw [declarations, Directive.hits_eq, List.map_map]
  rfl

theorem declaredNames_written (huse : package.IsUse use) :
    declaredNames (package.written use) = names use.argument := by
  rw [declaredNames, Pattern.values, hits_written huse]
  simp

/-- Names are read off the written declarations one by one. -/
theorem declaredNames_eq (s : List Char) :
    declaredNames s = (declarations s).flatMap declaredNames := by
  rw [declarations_eq, List.flatMap_map]
  exact List.flatMap_congr fun use huse =>
    (declaredNames_written (Directive.isUse_of_mem_values huse)).symm

theorem declarations_joinWith (s : List Char) :
    declarations (joinWith ['\n'] (declarations s)) = declarations s := by
  have hwritten : ∀ raw ∈ (declarations s).map String.ofList, IsDirective raw := by
    intro raw hraw
    obtain ⟨written, hwritten, rfl⟩ := List.mem_map.1 hraw
    exact isDirective_of_mem_declarations hwritten
  have hlines := declarations_lines hwritten
  have hback : ((declarations s).map String.ofList).map String.toList = declarations s := by
    simp
  rwa [hback] at hlines

/-! ### Records -/

/-- Whether a written declaration has only blanks between its braces. -/
def HasBlankName (written : List Char) : Prop :=
  ∃ use, package.IsUse use ∧ written = package.written use ∧ ∀ c ∈ use.argument, isBlank c = true

theorem trim_eq_nil : trim s = [] ↔ ∀ c ∈ s, isBlank c = true := by
  constructor
  · intro h
    obtain ⟨u, hu, hstart⟩ := exists_blanks_trimStart s
    obtain ⟨v, hv, hend⟩ := exists_blanks_trimEnd (trimStart s)
    rw [← trim, h, List.nil_append] at hend
    rw [hstart, hend]
    exact List.forall_mem_append.2 ⟨hu, hv⟩
  · intro h
    have hblanks := trim_blanks h (v := []) (List.forall_mem_nil _) []
    rwa [List.append_nil, List.append_nil] at hblanks

namespace Declaration

theorem nonblank?_eq_none : nonblank? s = none ↔ ∀ c ∈ s, isBlank c = true := by
  rw [← trim_eq_nil]
  simp [nonblank?]

/-- The record of a use that was found in a raw text. -/
def ofUse? (raw : String) (use : Use) : Option Declaration :=
  (nonblank? use.argument).map fun name =>
    let options := use.options.bind nonblank?
    { name := name
      options := options
      text := raw
      priority := if options.isSome then optionsPriority else barePriority }

theorem parse?_eq (raw : String) :
    parse? raw = (package.pattern.values raw.toList).head?.bind (ofUse? raw) := by
  unfold parse? Pattern.first?
  rw [Directive.hits_eq]
  cases package.pattern.values raw.toList <;> rfl

theorem parse?_written (huse : package.IsUse use) :
    parse? (String.ofList (package.written use)) =
      ofUse? (String.ofList (package.written use)) use := by
  rw [parse?_eq, String.toList_ofList, Pattern.values, hits_written huse]
  rfl

/-- The raw text is nothing but kept in the record. -/
theorem ofUse?_eq_map (raw other : String) (use : Use) :
    ofUse? raw use = (ofUse? other use).map fun d => { d with text := raw } := by
  unfold ofUse?
  rw [Option.map_map]
  rfl

/-- A raw text has the record of its first declaration. -/
theorem parse?_eq_head (raw : String) :
    parse? raw = ((declarations raw.toList).head?.bind fun first =>
      parse? (String.ofList first)).map fun d => { d with text := raw } := by
  rw [parse?_eq, declarations_eq, List.head?_map]
  cases h : (package.pattern.values raw.toList).head? with
  | none => rfl
  | some use =>
    have huse := Directive.isUse_of_mem_values (List.mem_of_head? h)
    rw [Option.map_some, Option.bind_some, Option.bind_some, parse?_written huse]
    exact ofUse?_eq_map raw _ use

theorem parse?_written_eq_none (huse : package.IsUse use) :
    parse? (String.ofList (package.written use)) = none ↔ HasBlankName (package.written use) := by
  rw [parse?_written huse, ofUse?, Option.map_eq_none_iff, nonblank?_eq_none]
  constructor
  · intro h
    exact ⟨use, huse, rfl, h⟩
  · rintro ⟨use', huse', hwritten, h⟩
    -- a written use is read as itself
    have hsame := hits_written huse
    rw [hwritten, hits_written huse'] at hsame
    obtain rfl : use' = use := by simpa using hsame
    exact h

theorem parse?_eq_none (raw : String) : parse? raw = none ↔
    declarations raw.toList = [] ∨ ∃ first ∈ (declarations raw.toList).head?, HasBlankName first := by
  rw [parse?_eq_head, Option.map_eq_none_iff, declarations_eq]
  cases h : package.pattern.values raw.toList with
  | nil => simp
  | cons use uses =>
    have huse : package.IsUse use :=
      Directive.isUse_of_mem_values (h ▸ List.mem_cons_self)
    simpa using parse?_written_eq_none huse

end Declaration

/-- The names of a text are those of its written declarations, one after the other; these are read
again when each stands on a line of its own; and the record of a text, which there is unless its
first declaration is missing or has a blank name, is that of the first declaration by itself. -/
theorem readings_agree (raw : String) :
    let written := declarations raw.toList
    declaredNames raw.toList = written.flatMap declaredNames ∧
      declarations (joinWith ['\n'] written) = written ∧
      (Declaration.parse? raw = none ↔
        written = [] ∨ ∃ first ∈ written.head?, HasBlankName first) ∧
      ∀ d ∈ Declaration.parse? raw, ∃ first ∈ written.head?,
        ∃ alone ∈ Declaration.parse? (String.ofList first),
          d.name = alone.name ∧ d.options = alone.options ∧ d.priority = alone.priority ∧
            d.text = raw := by
  intro written
  refine ⟨declaredNames_eq _, declarations_joinWith _, Declaration.parse?_eq_none raw, ?_⟩
  intro d hd
  rw [Option.mem_def, Declaration.parse?_eq_head] at hd
  obtain ⟨alone, halone, rfl⟩ := Option.map_eq_some_iff.1 hd
  obtain ⟨first, hfirst, hread⟩ := Option.bind_eq_some_iff.1 halone
  exact ⟨first, hfirst, alone, hread, rfl, rfl, rfl, rfl⟩

-- Options hold what would be a declaration elsewhere, and a bracket that is not closed.
example :
    let s := "\\usepackage[\n[\\usepackage\x7ba\x7d]\x7bb, c\x7d\\usepackage\x7bd\x7d".toList
    declaredNames s = [['b'], ['c'], ['d']] ∧
      declarations s = [s.take 35, "\\usepackage\x7bd\x7d".toList] := by decide +kernel

end ResumePress.Latex
