import ResumePress.Proofs.Images
import ResumePress.Proofs.Latex.Borders
import ResumePress.Proofs.Latex.Groups

/-!
Groups of contents. Restyling and notes leave a content as balanced as it is, and so does an image
that gets its substitute, unless its path opens a group: a path ends at the first closing brace, and
what it opens goes with it.
-/

namespace ResumePress

open Latex Text Content

namespace Latex

/-- Uses may be replaced one by one. -/
theorem keepsGroups_replace {d : Directive} {f : List Char → Use → List Char} {s : List Char}
    (h : ∀ use ∈ d.pattern.values s, d.IsUse use →
      KeepsGroups (d.written use) (f (d.written use) use)) :
    KeepsGroups s (d.pattern.replace f s) := by
  have hall : KeepsGroups ((d.pattern.scan s).flatMap Piece.text) (d.pattern.replace f s) := by
    apply KeepsGroups.flatMap
    intro piece hpiece
    cases piece with
    | plain c => exact .refl [c]
    | hit part use =>
      obtain ⟨rfl, huse⟩ := Directive.of_mem_scan hpiece
      exact h use (Pattern.mem_values.2 ⟨_, hpiece⟩) huse
  rwa [Pattern.flatMap_text_scan] at hall

/-- Uses that open fewer groups make the text open fewer. -/
theorem height_replace_lt {d : Directive} {f : List Char → Use → List Char} {s : List Char}
    (hle : ∀ use, d.IsUse use → height (f (d.written use) use) ≤ height (d.written use))
    (hlt : ∃ use ∈ d.pattern.values s,
      height (f (d.written use) use) < height (d.written use)) :
    height (d.pattern.replace f s) < height s := by
  have hsum : height s = ((d.pattern.scan s).map fun piece => height piece.text).sum := by
    rw [← height_flatMap, Pattern.flatMap_text_scan]
  rw [Pattern.replace, height_flatMap, hsum]
  apply List.sum_lt_sum
  · intro piece hpiece
    cases piece with
    | plain c => exact Int.le_refl _
    | hit part use =>
      obtain ⟨rfl, huse⟩ := Directive.of_mem_scan hpiece
      exact hle use huse
  · obtain ⟨use, hmem, hless⟩ := hlt
    obtain ⟨part, hpiece⟩ := Pattern.mem_values.1 hmem
    obtain ⟨rfl, -⟩ := Directive.of_mem_scan hpiece
    exact ⟨_, hpiece, hless⟩

end Latex

namespace Profile

theorem keepsGroups_headingsToRight (content : String) :
    KeepsGroups content.toList (headingsToRight content).toList := by
  rw [headingsToRight, String.toList_ofList]
  apply keepsGroups_replace
  intro use _ huse
  have hname : KeepsGroups heading.name "\\headright".toList :=
    keepsGroups_of_not_mem (by decide) (by decide) (by decide) (by decide)
  have hicon : Balanced (braced "\\workIcon".toList) := by decide
  have hnone : use.options = none :=
    Classical.byContradiction fun h => absurd (huse.takesOptions h) (by decide)
  have hall := (hname.append (.refl (braced use.argument))).append hicon.keepsGroups
  simpa [Directive.written, bracketed, hnone] using hall

/-- The content after restyling; one that cannot be restyled stays as it is. -/
def restyled (p : Profile) (content : String) : String :=
  match p.restyle with
  | none => content
  | some f => (f content).toOption.getD content

/-- The restyled content with the note about glyph names, if there is to be one. -/
def noted (p : Profile) (content : String) : List Char :=
  if p.notesGlyphs && !contains Content.glyphInput content.toList then
    Content.noteGlyphs (p.restyled content).toList
  else (p.restyled content).toList

end Profile

namespace Content

variable {t : Template} {s : List Char}

theorem keepsGroups_noteGlyphs (s : List Char) : KeepsGroups s (noteGlyphs s) := by
  unfold noteGlyphs replaceFirst
  split
  · rename_i before after hcut
    have hnote : Balanced glyphNote := balanced_of_not_mem (by decide) (by decide)
    have hall := (hnote.insert before beginDocument).append (.refl after)
    rwa [← eq_of_cut? hcut] at hall
  · exact .refl s

theorem keepsGroups_noteFonts (hfonts : ∀ font ∈ t.fonts, Balanced font.toList) (s : List Char) :
    KeepsGroups s (noteFonts t s) := by
  have hnotes : ∀ fonts ⊆ t.fonts,
      Balanced (fonts.flatMap fun font => fontNote font ++ ['\n']) := by
    intro fonts hsubset
    induction fonts with
    | nil => exact balanced_of_not_mem List.not_mem_nil List.not_mem_nil
    | cons font fonts ih =>
      obtain ⟨hfont, hsubset⟩ := List.cons_subset.1 hsubset
      have hstart : Balanced "% Warning: Template requires ".toList := by decide
      have hend : Balanced " font package".toList := by decide
      have hline : Balanced ['\n'] := by decide
      rw [List.flatMap_cons]
      exact (((hstart.append (hfonts font hfont)).append hend).append hline).append (ih hsubset)
  unfold noteFonts
  split
  · exact .refl s
  · exact .refl s
  · rename_i before part after hcut _
    obtain ⟨rfl, -⟩ := Pattern.eq_of_cut? hcut
    have hmissing : missingFonts t (before ++ (part ++ after)) ⊆ t.fonts :=
      fun font hfont => (List.mem_filter.1 hfont).1
    have hall := (hnotes _ hmissing).insert (before ++ part) after
    simpa using hall

/-- The paths that give way to a substitute open no group. -/
def OpensNoPath (t : Template) (s : List Char) : Prop :=
  ∀ path ∈ imagePaths s,
    isUsable (t.imageFor (String.ofList path)).toList = true → '\x7b' ∉ path

instance (t : Template) (s : List Char) : Decidable (OpensNoPath t s) :=
  inferInstanceAs (Decidable (∀ path ∈ imagePaths s, _))

theorem not_close_mem_imageNote {path : List Char} (h : '\x7d' ∉ path) :
    '\x7d' ∉ imageNote path := by
  have hstart : '\x7d' ∉ "% Failed to process image: ".toList := by decide
  have hend : '\x7d' ∉ "\n% Using default placeholder\n".toList := by decide
  unfold imageNote
  rw [List.mem_append, List.mem_append]
  rintro ((hin | hin) | hin)
  · exact hstart hin
  · exact h hin
  · exact hend hin

theorem height_imageNote (path : List Char) : height (imageNote path) = height path := by
  have hstart : height "% Failed to process image: ".toList = 0 :=
    height_of_not_mem (by decide) (by decide)
  have hend : height "\n% Using default placeholder\n".toList = 0 :=
    height_of_not_mem (by decide) (by decide)
  unfold imageNote
  rw [height_append, height_append, hstart, hend]
  omega

theorem height_pictureFor (t : Template) (path : List Char) : height (t.pictureFor path) = 0 := by
  have hfree := (pictureFor_usable t path).2
  apply height_of_not_mem
  · exact fun hin => (hfree _ hin).1 rfl
  · exact fun hin => (hfree _ hin).2.1 rfl

theorem height_substitute (t : Template) (use : Use) :
    height (image.written use) = height (substitute t use) +
      (if isUsable (t.imageFor (String.ofList use.argument)).toList then height use.argument
        else 0) := by
  have hpicture := height_pictureFor t use.argument
  rw [substitute_eq]
  cases isUsable (t.imageFor (String.ofList use.argument)).toList
  · simp only [pictured, Directive.written, height_append, height_braced, height_imageNote,
      Bool.false_eq_true, if_false]
    omega
  · simp only [pictured, Directive.written, height_append, height_braced, height_nil, if_true]
    omega

theorem keepsGroups_substitute {use : Use} (huse : image.IsUse use)
    (h : isUsable (t.imageFor (String.ofList use.argument)).toList = true →
      '\x7b' ∉ use.argument) : KeepsGroups (image.written use) (substitute t use) := by
  have hfree := (pictureFor_usable t use.argument).2
  have hpicture := height_pictureFor t use.argument
  rw [substitute_eq]
  cases husable : isUsable (t.imageFor (String.ofList use.argument)).toList
  · apply keepsGroups_argument (not_close_mem_imageNote huse.argument)
    · exact fun hin => (hfree _ hin).2.1 rfl
    · rw [height_imageNote]
      omega
  · apply keepsGroups_argument List.not_mem_nil
    · exact fun hin => (hfree _ hin).2.1 rfl
    · rw [height_nil, height_of_not_mem (h husable) huse.argument]
      omega

end Content

namespace Template

variable {t : Template} {p : Profile} {content : String}

theorem toList_adapt_noted (h : ∀ f ∈ p.restyle, ∃ s, f content = .ok s) :
    (t.adapt p content).toList = noteFonts t
      (if t.images.isEmpty then p.noted content else substituteImages t (p.noted content)) := by
  have hrestyled : t.adapt p content =
      String.ofList (finish t p content.toList (p.restyled content).toList) := by
    unfold adapt adapt? Profile.restyled
    cases hrestyle : p.restyle with
    | none => rfl
    | some f =>
      obtain ⟨s, hs⟩ := h f hrestyle
      simp [hs, Except.map, Except.mapError, Except.toOption]
  rw [hrestyled, String.toList_ofList]
  rfl

theorem keepsGroups_noted (hrestyle : p.restyle = none ∨
      p.restyle = some fun content => .ok (Profile.headingsToRight content)) :
    KeepsGroups content.toList (p.noted content) := by
  have hrestyled : KeepsGroups content.toList (p.restyled content).toList := by
    unfold Profile.restyled
    rcases hrestyle with h | h
    · rw [h]
      exact .refl _
    · rw [h]
      exact Profile.keepsGroups_headingsToRight content
  unfold Profile.noted
  split
  · exact hrestyled.trans (keepsGroups_noteGlyphs _)
  · exact hrestyled

/-- An adapted content is balanced if no path that gives way to a substitute opens a group, and only
then. -/
theorem balanced_adapt_iff (t : Template) (p : Profile) (content : String)
    (hrestyle : p.restyle = none ∨
      p.restyle = some fun content => .ok (Profile.headingsToRight content))
    (hfonts : ∀ font ∈ t.fonts, Balanced font.toList) (hcontent : Balanced content.toList) :
    Balanced (t.adapt p content).toList ↔
      (t.images ≠ [] → OpensNoPath t (p.noted content)) := by
  have hnoted := (keepsGroups_noted hrestyle).balanced hcontent
  have hrestyles : ∀ f ∈ p.restyle, ∃ s, f content = .ok s := by
    rcases hrestyle with h | h
    · simp [h]
    · simp [h]
  rw [toList_adapt_noted hrestyles]
  generalize p.noted content = noted at hnoted ⊢
  by_cases himages : t.images = []
  · rw [himages, List.isEmpty_nil, if_pos rfl]
    exact iff_of_true ((keepsGroups_noteFonts hfonts noted).balanced hnoted) fun h => absurd rfl h
  · have hsome : t.images.isEmpty = false := List.isEmpty_eq_false_iff.2 himages
    rw [hsome, if_neg Bool.false_ne_true]
    constructor
    · intro hbalanced _ path hpath husable hopen
      -- an open group that goes with a path is missed at the end
      obtain ⟨use, huse, rfl⟩ := List.mem_map.1 hpath
      have hless : height (substituteImages t noted) < height noted := by
        apply height_replace_lt
        · intro use huse
          have hsum := height_substitute t use
          have hnonneg := height_nonneg huse.argument
          split at hsum <;> omega
        · refine ⟨use, huse, ?_⟩
          have hsum := height_substitute t use
          have hpos := height_of_open_mem (Directive.isUse_of_mem_values huse).argument hopen
          rw [if_pos husable] at hsum
          omega
      have hfonts' := (keepsGroups_noteFonts hfonts (substituteImages t noted)).height_eq
      have hstart := (balanced_iff.1 hnoted).2
      have hend := (balanced_iff.1 hbalanced).2
      omega
    · intro h
      have hpictured : KeepsGroups noted (substituteImages t noted) := by
        apply keepsGroups_replace
        intro use hmem huse
        exact keepsGroups_substitute huse (h himages _ (List.mem_map_of_mem hmem))
      exact (keepsGroups_noteFonts hfonts _).balanced (hpictured.balanced hnoted)

end Template

-- Titles and a quoted path with groups in them; the path is not mapped to anything usable.
theorem balanced_adapt_of_groups :
    let t := { Template.ofSource "" with
      images := [("me.png", "anon.png"), ("\x7bme", "\x7b")], fonts := ["Lato\x7bLight\x7d"] }
    let p := { Profile.plain with
      restyle := some fun content => .ok (Profile.headingsToRight content), notesGlyphs := true }
    let content := "\\documentclass\x7bcv\x7d\n\\begin\x7bdocument\x7d" ++
      "\\section\x7bA \x7bbig\x7d B\x7d\\includegraphics[\x7b2cm\x7d]\x7bme.png\x7d" ++
      "\\includegraphics\x7b\x7bme\x7d.png\x7d"
    Balanced content.toList ∧ Balanced (t.adapt p content).toList := by
  intro t p content
  have hcontent : Balanced content.toList := by decide +kernel
  have hpaths : OpensNoPath t (p.noted content) := by
    simp only [Profile.noted, Profile.restyled, Profile.headingsToRight, p]
    decide +kernel
  exact ⟨hcontent, (Template.balanced_adapt_iff t p content (.inr rfl) (by decide) hcontent).2
    fun _ => hpaths⟩

-- A group that a path opens, and one that the name of a font opens.
theorem groups_left_open :
    let path := "\\includegraphics\x7b\x7bme\x7d.png\x7d"
    let source := "\\documentclass\x7bcv\x7d\n"
    let t := { Template.ofSource "" with images := [("me.png", "anon.png")] }
    (Balanced path.toList ∧ ¬Balanced (t.adapt .plain path).toList) ∧
      Balanced source.toList ∧
        ¬Balanced ({ t with fonts := ["\x7b"] }.adapt .plain source).toList := by
  intro path source t
  refine ⟨⟨by decide +kernel, ?_⟩, by decide +kernel, ?_⟩ <;>
    rw [Template.toList_adapt (p := .plain) rfl] <;>
    decide +kernel

end ResumePress
