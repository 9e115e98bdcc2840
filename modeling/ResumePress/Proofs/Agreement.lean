import ResumePress.Proofs.Comments
import ResumePress.Proofs.Placement
import ResumePress.Proofs.Resolution
import ResumePress.Proofs.Text.Margins
import ResumePress.Template.Preview

/-!
Previews and documents side by side. A preview is put together from pieces of the template, with the
sample in the trimmed body; the document of the sample is the whole source with the sample in it.
Nothing that a preview has before its body brings a beginning of a body with it, so both have the
same body.
-/

namespace ResumePress

open Latex Text

theorem Latex.isMarker_beginDocument : IsMarker beginDocument :=
  ⟨'\\', _, rfl, by decide⟩

theorem Latex.isMarker_endDocument : IsMarker endDocument :=
  ⟨'\\', _, rfl, by decide⟩

/-- A text between the markers of a body is the body. -/
theorem Latex.body?_of_markers {front text : List Char} (hfront : ¬beginDocument <:+: front)
    (htext : ¬endDocument <:+: text) (back : List Char) :
    body? (front ++ beginDocument ++ text ++ endDocument ++ back) = some (trim text) := by
  have hbegin := isMarker_beginDocument.cut?_append hfront (text ++ endDocument ++ back)
  have hend := isMarker_endDocument.cut?_append htext back
  simp only [← List.append_assoc] at hbegin
  rw [body?, hbegin, Option.bind_some, hend]
  rfl

/-! ### What a preview has before its body -/

theorem Latex.Preamble.not_infix_of_mem_between {starts : List Char → Bool}
    {needle line : List Char} {all : List (List Char)}
    (h : line ∈ between starts (contains needle) all) :
    ¬needle <:+: line := by
  unfold between at h
  split at h
  · rename_i first last _ hlast
    obtain ⟨i, hi, rfl⟩ := List.mem_take_iff_getElem.1 (List.mem_of_mem_drop h)
    rw [← contains_iff_isInfix, Bool.not_eq_true]
    exact Bool.eq_false_iff.2 ((List.findIdx?_eq_some_iff_getElem.1 hlast).2.2 i (by omega))
  · cases h

theorem Latex.Preamble.not_infix_of_mem_commandLines {source line : List Char}
    (h : line ∈ commandLines source) : ¬beginDocument <:+: line := by
  rw [commandLines_eq] at h
  obtain ⟨line, hmem, rfl⟩ := List.mem_map.1 h
  exact fun hin =>
    not_infix_of_mem_between (List.mem_filter.1 hmem).1 (hin.trans (trim_isInfix line))

theorem Latex.Preamble.not_infix_of_mem_impliedPackages {source : List Char} {raw : String}
    (h : raw ∈ impliedPackages source) : ¬beginDocument <:+: raw.toList := by
  have hnone : ∀ group ∈ implied, ¬beginDocument <:+: group.2.toList := by decide +kernel
  rw [impliedPackages_eq] at h
  obtain ⟨group, hmem, rfl⟩ := List.mem_map.1 h
  exact hnone group (List.mem_filter.1 hmem).1

theorem Preview.not_infix_of_mem_essentials {declared : List String} {raw : String}
    (h : raw ∈ essentials declared) : ¬beginDocument <:+: raw.toList := by
  have hnone : ∀ raw ∈ commonPackages, ¬beginDocument <:+: raw.toList := by decide +kernel
  exact hnone raw (List.mem_filter.1 h).1

theorem Preview.not_infix_commonCommands : ¬beginDocument <:+: commonCommands.toList := by
  rw [commonCommands, withBraces, String.toList_ofList]
  -- the kernel reads a long literal off as a list much faster than it decodes it
  rw [String.toList_ofList]
  decide +kernel

namespace Template

/-- What the class and package declarations of a source look like. -/
def writtenDeclarations (source : List Char) : List (List Char) :=
  [documentClass, package].flatMap fun d => (d.pattern.hits source).map Prod.fst

variable {t : Template} {p : Profile} {o : PreviewOptions}

theorem not_infix_documentClass
    (h : ∀ written ∈ writtenDeclarations t.source.toList, ¬beginDocument <:+: written) :
    ¬beginDocument <:+: (Preamble.ofSource t.source).documentClass.toList := by
  have hdefault : ¬beginDocument <:+: Preamble.defaultClass.toList := by decide +kernel
  unfold Preamble.ofSource
  dsimp only
  split
  · rename_i written use hfirst
    rw [String.toList_ofList]
    refine h written (List.mem_flatMap.2 ⟨documentClass, by simp, ?_⟩)
    exact List.mem_map_of_mem (f := Prod.fst) (List.mem_of_head? hfirst)
  · exact hdefault

theorem not_infix_of_mem_packageBlock
    (h : ∀ written ∈ writtenDeclarations t.source.toList, ¬beginDocument <:+: written)
    {raw : String} (hraw : raw ∈ Preview.packageBlock (Preamble.ofSource t.source) []) :
    ¬beginDocument <:+: raw.toList := by
  have hmem := Resolution.mem_of_mem_resolve hraw
  simp only [Preamble.ofSource, List.append_nil, List.mem_append] at hmem
  rcases hmem with (hmem | hmem) | hmem
  · obtain ⟨written, hwritten, rfl⟩ := List.mem_map.1 hmem
    rw [String.toList_ofList]
    exact h written (List.mem_flatMap.2 ⟨package, by simp, hwritten⟩)
  · exact Preamble.not_infix_of_mem_impliedPackages hmem
  · exact Preview.not_infix_of_mem_essentials hmem

/-- The texts that a preview without further packages has before its body, one below the other. -/
def previewFront (t : Template) (o : PreviewOptions) : List (List Char) :=
  let preamble := Preamble.ofSource t.source
  [preamble.documentClass.toList, [], "% Essential packages".toList,
    Preview.stacked (Preview.packageBlock preamble []), [],
    "% Original preamble commands".toList,
    Preview.stacked ((if o.commonCommands then [Preview.commonCommands] else []) ++
      preamble.commands), [], []]

theorem toList_preview_untitled (htitle : o.title = none) (hcontent : o.content = none)
    (hpackages : o.packages = []) :
    (t.preview p o).toList =
      joinWith ['\n'] (t.previewFront o) ++ beginDocument ++
        (['\n'] ++ Preview.sampleBody t p ++ ['\n']) ++ endDocument ++ ['\n'] := by
  unfold preview previewFront Preview.titleBlock
  rw [String.toList_ofList, htitle, hcontent, hpackages]
  simp [joinWith]

/-- The declarations alone can bring a beginning of a body with them. -/
theorem not_infix_previewFront
    (h : ∀ written ∈ writtenDeclarations t.source.toList, ¬beginDocument <:+: written)
    (o : PreviewOptions) : ¬beginDocument <:+: joinWith ['\n'] (t.previewFront o) := by
  have hplain : beginDocument ≠ [] ∧ '\n' ∉ beginDocument ∧ ¬beginDocument <:+: [] ∧
      ¬beginDocument <:+: "% Essential packages".toList ∧
      ¬beginDocument <:+: "% Original preamble commands".toList := by decide +kernel
  obtain ⟨hne, hline, hempty, hpackages, hcommands⟩ := hplain
  have hstacked : ∀ texts : List String, (∀ raw ∈ texts, ¬beginDocument <:+: raw.toList) →
      ¬beginDocument <:+: Preview.stacked texts := fun texts hall =>
    not_infix_joinWith hne hline (by simpa using hall)
  have hown : ∀ raw ∈ (Preamble.ofSource t.source).commands, ¬beginDocument <:+: raw.toList := by
    intro raw hraw
    obtain ⟨line, hmem, rfl⟩ := List.mem_map.1 hraw
    rw [String.toList_ofList]
    exact Preamble.not_infix_of_mem_commandLines hmem
  refine not_infix_joinWith hne hline ?_
  simp only [previewFront, List.forall_mem_cons]
  refine ⟨not_infix_documentClass h, hempty, hpackages,
    hstacked _ fun raw hraw => not_infix_of_mem_packageBlock h hraw, hempty, hcommands,
    hstacked _ ?_, hempty, hempty, nofun⟩
  intro raw hraw
  rcases List.mem_append.1 hraw with hraw | hraw
  · split at hraw
    · rw [List.mem_singleton.1 hraw]
      exact Preview.not_infix_commonCommands
    · cases hraw
  · exact hown raw hraw

/-! ### The body -/

/-- The sample takes the place that the placeholder has in the trimmed body. -/
theorem sampleBody_eq {front before after back : List Char}
    (hseat : cut? p.placeholder.toList t.source.toList =
      some (front ++ beginDocument ++ before, after ++ endDocument ++ back))
    (hne : p.placeholder.toList ≠ []) (htrim : trim p.placeholder.toList = p.placeholder.toList)
    (hfront : ¬beginDocument <:+: front)
    (hbody : ¬endDocument <:+: before ++ p.placeholder.toList ++ after) :
    Preview.sampleBody t p =
      trimStart before ++ (t.adapt p p.sample).toList ++ trimEnd after := by
  obtain ⟨blanks, -, hbefore⟩ := exists_blanks_trimStart before
  obtain ⟨tail, -, hafter⟩ := exists_blanks_trimEnd after
  have hsource := eq_of_cut? hseat
  have hown : body? t.source.toList =
      some (trimStart before ++ p.placeholder.toList ++ trimEnd after) := by
    rw [← trim_around hne htrim, ← body?_of_markers hfront hbody back, hsource]
    simp only [List.append_assoc]
  have hcut : cut? p.placeholder.toList
      (trimStart before ++ p.placeholder.toList ++ trimEnd after) =
        some (trimStart before, trimEnd after) := by
    have hahead : front ++ beginDocument ++ blanks ++ trimStart before =
        front ++ beginDocument ++ before := by
      rw [List.append_assoc, ← hbefore]
    have hbehind : trimEnd after ++ (tail ++ endDocument ++ back) =
        after ++ endDocument ++ back := by
      rw [← List.append_assoc, ← List.append_assoc, ← hafter]
    refine cut?_part (u := front ++ beginDocument ++ blanks) (v := tail ++ endDocument ++ back) ?_
    rw [hahead, hbehind, ← hseat, hsource, ← hahead, ← hbehind]
    simp only [List.append_assoc]
  simp only [Preview.sampleBody, hown, Option.getD_some, contains, hcut, Option.isSome_some,
    if_true, replaceFirst]

/-- A preview without a title, a body of its own and further packages has the body that the document
of the sample has: the body of the template with the sample in it. -/
theorem preview_body_eq_render_body (t : Template) (p : Profile) (o : PreviewOptions)
    {front before after back : List Char}
    (htitle : o.title = none) (hcontent : o.content = none) (hpackages : o.packages = [])
    (hseat : cut? p.placeholder.toList t.source.toList =
      some (front ++ beginDocument ++ before, after ++ endDocument ++ back))
    (hne : p.placeholder.toList ≠ []) (htrim : trim p.placeholder.toList = p.placeholder.toList)
    (hfront : ¬beginDocument <:+: front)
    (hbody : ¬endDocument <:+: before ++ p.placeholder.toList ++ after)
    (hdeclared : ∀ written ∈ writtenDeclarations t.source.toList, ¬beginDocument <:+: written)
    (hsample : ¬endDocument <:+: before ++ (t.adapt p p.sample).toList ++ after) :
    body? (t.preview p o).toList = body? (t.render p p.sample).toList ∧
      body? (t.render p p.sample).toList =
        some (trim (before ++ (t.adapt p p.sample).toList ++ after)) := by
  have hrender : body? (t.render p p.sample).toList =
      some (trim (before ++ (t.adapt p p.sample).toList ++ after)) := by
    have hplace : seat? p.placeholder.toList t.source.toList =
        some (front ++ beginDocument ++ before, after ++ endDocument ++ back) := by
      rw [seat?, hseat]
    rw [toList_render t p p.sample hplace, ← body?_of_markers hfront hsample back]
    simp only [List.append_assoc]
  obtain ⟨u, hu, hstart⟩ := exists_blanks_trimStart before
  obtain ⟨v, hv, hend⟩ := exists_blanks_trimEnd after
  have hbodies : before ++ (t.adapt p p.sample).toList ++ after =
      u ++ Preview.sampleBody t p ++ v := by
    rw [sampleBody_eq hseat hne htrim hfront hbody]
    conv_lhs => rw [hstart, hend]
    simp only [List.append_assoc]
  have hpreview : ¬endDocument <:+: ['\n'] ++ Preview.sampleBody t p ++ ['\n'] := by
    have hplain : '\n' ∉ endDocument ∧ ¬endDocument <:+: [] := by decide
    have hpart : ¬endDocument <:+: Preview.sampleBody t p :=
      fun hin => hsample (hin.trans ⟨u, v, hbodies.symm⟩)
    rw [List.append_assoc, List.singleton_append, ← List.nil_append ('\n' :: _),
      infix_separated_iff hplain.1, infix_separated_iff hplain.1]
    simp [hplain.2, hpart]
  have hlines : ∀ c ∈ ['\n'], isBlank c = true := List.forall_mem_singleton.2 rfl
  refine ⟨?_, hrender⟩
  rw [toList_preview_untitled htitle hcontent hpackages,
    body?_of_markers (not_infix_previewFront hdeclared o) hpreview, hrender, hbodies,
    trim_blanks hlines hlines, trim_blanks hu hv]

end Template

-- Blanks stand around the placeholder, a command before the body and both markers in comments behind
-- it; the sample has a beginning of a body in it.
theorem preview_body_of_greeting :
    let t := Template.ofSource ("\\documentclass\x7bcv\x7d\n\\name\x7bMe\x7d\n" ++
      "\\begin\x7bdocument\x7d\n\n %RESUME_CONTENT% \n\n\\end\x7bdocument\x7d\n" ++
      "% %RESUME_CONTENT% \\end\x7bdocument\x7d\n")
    let p := { Profile.plain with sample := " Hi \\begin\x7bdocument\x7d " }
    body? (t.preview p Preview.defaults).toList = body? (t.render p p.sample).toList ∧
      body? (t.render p p.sample).toList =
        some (trim ("\n\n ".toList ++ (t.adapt p p.sample).toList ++ " \n\n".toList)) := by
  intro t p
  have hseat : cut? p.placeholder.toList t.source.toList =
      some ("\\documentclass\x7bcv\x7d\n\\name\x7bMe\x7d\n".toList ++ beginDocument ++
          "\n\n ".toList,
        " \n\n".toList ++ endDocument ++
          "\n% %RESUME_CONTENT% \\end\x7bdocument\x7d\n".toList) := by
    decide +kernel
  exact Template.preview_body_eq_render_body t p Preview.defaults rfl rfl rfl hseat
    (by decide +kernel) (by decide +kernel) (by decide +kernel) (by decide +kernel)
    (by decide +kernel) (by decide +kernel)

end ResumePress
