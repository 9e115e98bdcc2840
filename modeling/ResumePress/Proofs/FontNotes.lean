import ResumePress.Proofs.Coverage
import ResumePress.Proofs.Substitution

/-!
Notes about fonts in contents. They go behind the line of the first class directive, one for each
required font that the content does not declare. A note that has none of the characters that end
options or an argument lets no use come about across it, and splits none that does not run over the
end of the line; so the same packages are declared with the notes, and the same fonts are missing.
-/

namespace ResumePress

open Latex Text

namespace Latex

variable {s before part after : List Char}

/-! ### The line of the class -/

theorem classLine_matchAt (s : List Char) : classLine.matchAt (className ++ s) =
    (upTo? '\n' s).map fun line => (className ++ line.1 ++ ['\n'], ()) := by
  have hstart : className.isPrefixOf (className ++ s) = true := by simp
  simp only [classLine, hstart, if_true, List.drop_left]

theorem classLine_cut?_of_not_mem (h : '\n' ∉ s) : classLine.cut? s = none := by
  rw [Option.eq_none_iff_forall_not_mem]
  rintro ⟨before, part, after⟩ hcut
  obtain ⟨rfl, a, hmatch⟩ := Pattern.eq_of_cut? hcut
  obtain ⟨line, rfl⟩ := Content.exists_of_classLine hmatch
  exact h (by simp)

/-- The line is searched from the first class directive on; if that one has no end of a line behind
it, none has. -/
theorem classLine_cut?_eq (s : List Char) : classLine.cut? s = (cut? className s).bind fun parts =>
    (upTo? '\n' parts.2).map fun line => (parts.1, className ++ line.1 ++ ['\n'], line.2) := by
  induction s with
  | nil => rfl
  | cons c s ih =>
    by_cases hstart : className <+: c :: s
    · obtain ⟨rest, hrest⟩ := hstart
      rw [Pattern.cut?, cut?, if_pos (by simp [← hrest]), ← hrest, classLine_matchAt,
        List.drop_left, Option.bind_some]
      cases hup : upTo? '\n' rest with
      | some line =>
        obtain ⟨rfl, -⟩ := upTo?_eq_some.1 hup
        simp
      | none =>
        have hline : '\n' ∉ c :: s := by
          rw [← hrest, List.mem_append, not_or]
          refine ⟨by decide, fun hin => ?_⟩
          obtain ⟨front, back, rfl, hfront⟩ := List.eq_append_cons_of_mem hin
          rw [upTo?_eq_some.2 ⟨rfl, hfront⟩] at hup
          cases hup
        rw [Option.map_none, Option.map_none,
          classLine_cut?_of_not_mem (List.not_mem_of_not_mem_cons hline)]
        rfl
    · have hnone : classLine.matchAt (c :: s) = none := by
        simp [classLine, hstart]
      rw [Pattern.cut?, hnone, cut?, if_neg (by simpa using hstart), ih]
      cases cut? className s with
      | none => rfl
      | some parts => simp [Option.map_map, Function.comp_def]

/-- Whether the end of a line comes behind a class directive. -/
def HasClassLine (s : List Char) : Prop :=
  ∃ a b, s = a ++ className ++ b ∧ '\n' ∈ b

theorem hasClassLine_of_cut? (h : classLine.cut? s = some (before, part, after)) :
    HasClassLine s := by
  rw [classLine_cut?_eq] at h
  obtain ⟨⟨front, back⟩, hcut, hline⟩ := Option.bind_eq_some_iff.1 h
  obtain ⟨⟨line, rest⟩, hup, -⟩ := Option.map_eq_some_iff.1 hline
  obtain ⟨rfl, -⟩ := upTo?_eq_some.1 hup
  exact ⟨front, _, eq_of_cut? hcut, by simp⟩

/-- Whether two texts together are split behind the line of the first class directive. -/
def SplitsBehindClass (first second : List Char) : Prop :=
  ∃ before line, first = before ++ className ++ line ++ ['\n'] ∧ '\n' ∉ line ∧
    cut? className (first ++ second) = some (before, line ++ '\n' :: second)

theorem SplitsBehindClass.hasClassLine {first second : List Char}
    (h : SplitsBehindClass first second) : HasClassLine (first ++ second) := by
  obtain ⟨before, line, rfl, -, -⟩ := h
  exact ⟨before, line ++ '\n' :: second, by simp, by simp⟩

theorem SplitsBehindClass.classLine_cut? {first second : List Char}
    (h : SplitsBehindClass first second) : ∃ before part, first = before ++ part ∧
      classLine.cut? (first ++ second) = some (before, part, second) := by
  obtain ⟨before, line, rfl, hline, hcut⟩ := h
  refine ⟨before, className ++ line ++ ['\n'], by simp, ?_⟩
  rw [classLine_cut?_eq, hcut, Option.bind_some, upTo?_eq_some.2 ⟨rfl, hline⟩]
  rfl

theorem HasClassLine.exists_split (h : HasClassLine s) :
    ∃ first second, s = first ++ second ∧ SplitsBehindClass first second := by
  obtain ⟨a, b, rfl, hline⟩ := h
  have hinfix : className <:+: a ++ className ++ b := ⟨a, b, rfl⟩
  obtain ⟨before, rest, hcut⟩ := exists_cut? hinfix
  have hsame := eq_of_cut? hcut
  -- what follows a later directive follows the first one
  have hlength : b.length ≤ rest.length := by
    have hbefore := length_le_of_cut? hcut
    have htotal := congrArg List.length hsame
    simp only [List.length_append] at htotal
    omega
  have hbehind : b <:+ rest := List.suffix_of_suffix_length_le (List.suffix_append _ b)
    (hsame ▸ List.suffix_append _ rest) hlength
  obtain ⟨line, second, rfl, hfree⟩ := List.eq_append_cons_of_mem (hbehind.mem hline)
  refine ⟨before ++ className ++ line ++ ['\n'], second, by simp [hsame], before, line, rfl, hfree,
    ?_⟩
  rw [← hcut, hsame]
  simp

/-! ### Texts put in between -/

namespace Directive

variable {d : Directive} {a b n : List Char}

/-- A text that starts no use and ends none is read over. -/
theorem SplitsAt.values_insert (hcommand : d.IsCommand) (hstart : ∀ c ∈ a.getLast?, c = '\n')
    (hbackslash : '\\' ∉ n) (hbracket : ']' ∉ n) (hbrace : '\x7d' ∉ n) (h : d.SplitsAt a b) :
    d.pattern.values (a ++ n ++ b) = d.pattern.values (a ++ b) := by
  have hnote : d.pattern.values (n ++ b) = d.pattern.values b := by
    have hsettled := Settles.note hcommand hbackslash (.nil (d := d))
    rw [List.append_nil] at hsettled
    exact hsettled.values_append b
  rw [List.append_assoc, (h.insert hcommand hstart hbracket hbrace).values_append, hnote,
    h.values_append]

end Directive

end Latex

/-! ### The notes -/

namespace Content

variable {t : Template} {s : List Char}

theorem missingFonts_eq (t : Template) (s : List Char) :
    missingFonts t s = t.fonts.filter fun font => font.toList ∉ declaredNames s := by
  simp [missingFonts]

theorem noteFonts_eq_self (h : missingFonts t s = [] ∨ ¬HasClassLine s) : noteFonts t s = s := by
  unfold noteFonts
  split
  · rfl
  · rfl
  · rename_i hcut hne
    exact absurd (hasClassLine_of_cut? hcut) (h.resolve_left hne)

/-- The notes about fonts, one on a line. -/
def fontNotes (fonts : List String) : List Char :=
  fonts.flatMap fun font => fontNote font ++ ['\n']

theorem noteFonts_of_split {first second : List Char} (h : SplitsBehindClass first second) :
    noteFonts t (first ++ second) =
      first ++ fontNotes (missingFonts t (first ++ second)) ++ second := by
  obtain ⟨before, part, rfl, hcut⟩ := h.classLine_cut?
  unfold noteFonts
  rw [hcut]
  cases missingFonts t (before ++ part ++ second) <;> simp [fontNotes]

theorem not_mem_fontNotes {fonts : List String} {c : Char} (hc : c ∈ ['\\', ']', '\x7d'])
    (hfonts : ∀ font ∈ fonts, c ∉ font.toList) : c ∉ fontNotes fonts := by
  have hfixed : ∀ text ∈ ["% Warning: Template requires ".toList, " font package".toList, ['\n']],
      c ∉ text := by
    simp only [List.mem_cons, List.not_mem_nil, or_false] at hc
    rcases hc with rfl | rfl | rfl <;> decide
  intro hmem
  obtain ⟨font, hfont, hnote⟩ := List.mem_flatMap.1 hmem
  -- a rewriting would look into the literals for appended texts
  rcases List.mem_append.1 hnote with hnote | hin
  · rcases List.mem_append.1 hnote with hnote | hin
    · rcases List.mem_append.1 hnote with hin | hin
      · exact hfixed _ (.head _) hin
      · exact hfonts font hfont hin
    · exact hfixed _ (.tail _ (.head _)) hin
  · exact hfixed _ (.tail _ (.tail _ (.head _))) hin

/-- With notes behind the line of the class the same packages are declared. -/
theorem declaredNames_notes {first second : List Char} {fonts : List String}
    (h : SplitsBehindClass first second) (hsplit : package.SplitsAt first second)
    (hfonts : ∀ font ∈ fonts, ∀ c ∈ ['\\', ']', '\x7d'], c ∉ font.toList) :
    declaredNames (first ++ fontNotes fonts ++ second) = declaredNames (first ++ second) := by
  have hfree : ∀ c ∈ ['\\', ']', '\x7d'], c ∉ fontNotes fonts := fun c hc =>
    not_mem_fontNotes hc fun font hfont => hfonts font hfont c hc
  have hline : ∀ c ∈ first.getLast?, c = '\n' := by
    obtain ⟨before, line, rfl, -⟩ := h
    simp
  unfold declaredNames
  rw [hsplit.values_insert isCommand_package hline (hfree _ (by simp)) (hfree _ (by simp))
    (hfree _ (by simp))]

end Content

namespace Template

theorem toList_adapt_fonts {t : Template} {p : Profile} (himages : t.images = [])
    (hrestyle : p.restyle = none) (hglyphs : p.notesGlyphs = false) (content : String) :
    (t.adapt p content).toList = Content.noteFonts t content.toList := by
  rw [toList_adapt hrestyle, Content.finish]
  simp [himages, hglyphs]

/-- Without restyling, a note about glyph names and images, a content gets a note for each required
font that it does not declare, in order, behind the line of its first class directive; it stays as it
is if it declares all of them or has no end of a line behind a class directive. If no such font has a
character in it that starts a directive or ends options or an argument, and no package directive runs
over the end of that line, the adapted content declares the same packages, so the same fonts are
missing in it. -/
theorem adapt_fonts (t : Template) (p : Profile) (content : String) (himages : t.images = [])
    (hrestyle : p.restyle = none) (hglyphs : p.notesGlyphs = false) :
    let missing := t.fonts.filter fun font => font.toList ∉ declaredNames content.toList
    let adapted := t.adapt p content
    (missing = [] ∨ ¬HasClassLine content.toList → adapted = content) ∧
      (HasClassLine content.toList ↔
        ∃ first second, content.toList = first ++ second ∧ SplitsBehindClass first second) ∧
      ∀ first second, content.toList = first ++ second → SplitsBehindClass first second →
        adapted.toList = first ++ (missing.flatMap fun font =>
          "% Warning: Template requires ".toList ++ font.toList ++ " font package".toList ++
            ['\n']) ++ second ∧
        ((∀ font ∈ missing, ∀ c ∈ ['\\', ']', '\x7d'], c ∉ font.toList) →
          package.SplitsAt first second →
            declaredNames adapted.toList = declaredNames content.toList ∧
              t.fonts.filter (fun font => font.toList ∉ declaredNames adapted.toList) = missing) := by
  intro missing adapted
  have hmissing : Content.missingFonts t content.toList = missing :=
    Content.missingFonts_eq t content.toList
  have hadapted : adapted.toList = Content.noteFonts t content.toList :=
    toList_adapt_fonts himages hrestyle hglyphs content
  refine ⟨fun h => ?_, ⟨HasClassLine.exists_split, ?_⟩, fun first second hcontent hsplits => ?_⟩
  · rw [← String.toList_inj, hadapted, Content.noteFonts_eq_self (hmissing ▸ h)]
  · rintro ⟨first, second, hcontent, hsplits⟩
    exact hcontent ▸ hsplits.hasClassLine
  · have hnoted : adapted.toList = first ++ Content.fontNotes missing ++ second := by
      rw [hadapted, hcontent, Content.noteFonts_of_split hsplits, ← hcontent, hmissing]
    refine ⟨hnoted, fun hfonts hsplit => ?_⟩
    have hsame : declaredNames adapted.toList = declaredNames content.toList := by
      rw [hnoted, Content.declaredNames_notes hsplits hsplit hfonts, hcontent]
    exact ⟨hsame, by rw [hsame]⟩

end Template

-- The line of the class leaves a directive open, which the notes do not complete, and a font is
-- required twice.
theorem adapt_fonts_behind_open :
    let t := { Template.ofSource "" with fonts := ["Charter", "FiraSans", "Charter"] }
    let first := "% \\documentclass\x7bcv\x7d \\usepackage[\n".toList
    let second := "\\documentclass\x7bcv\x7d\n\\usepackage\x7bFiraSans, calc\x7d".toList
    let note := "% Warning: Template requires Charter font package\n".toList
    let adapted := t.adapt .plain (String.ofList (first ++ second))
    t.images = [] ∧ Profile.plain.restyle = none ∧ Profile.plain.notesGlyphs = false ∧
      SplitsBehindClass first second ∧ package.SplitsAt first second ∧
      adapted.toList = first ++ (note ++ note) ++ second ∧
      declaredNames adapted.toList = ["FiraSans".toList, "calc".toList] ∧
      t.fonts.filter (fun font => font.toList ∉ declaredNames adapted.toList) =
        ["Charter", "Charter"] := by
  intro t first second note adapted
  have hcontent : (String.ofList (first ++ second)).toList = first ++ second :=
    String.toList_ofList
  have hsplits : SplitsBehindClass first second :=
    ⟨"% ".toList, "\x7bcv\x7d \\usepackage[".toList, by decide +kernel, by decide +kernel,
      by decide +kernel⟩
  have hsplit : package.SplitsAt first second := by decide +kernel
  have hmissing : t.fonts.filter (fun font => font.toList ∉
      declaredNames (String.ofList (first ++ second)).toList) = ["Charter", "Charter"] := by
    decide +kernel
  obtain ⟨-, -, hadapt⟩ := Template.adapt_fonts t .plain (String.ofList (first ++ second)) rfl rfl
    rfl
  obtain ⟨hnoted, hstable⟩ := hadapt first second hcontent hsplits
  rw [hmissing] at hnoted hstable
  have hfonts : ∀ font ∈ ["Charter", "Charter"], ∀ c ∈ ['\\', ']', '\x7d'], c ∉ font.toList := by
    simp
  obtain ⟨hsame, hmissing'⟩ := hstable hfonts hsplit
  refine ⟨rfl, rfl, rfl, hsplits, hsplit, hnoted, ?_, hmissing'⟩
  rw [hsame]
  decide +kernel

end ResumePress
