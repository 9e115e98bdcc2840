import ResumePress.Proofs.Images
import ResumePress.Proofs.Latex.Borders

/-!
Arguments that are exchanged in any text, also in one that leaves uses open. If neither the old
arguments nor the fresh ones have a closing bracket, the fresh text has a use exactly where the old
one has: what cannot be read as a use cannot be read as one with fresh arguments behind it. So the
images of a content get their substitutes, and the text around them stays.
-/

namespace ResumePress

open Latex Text

namespace Text.Pattern

variable {α : Type} {p : Pattern α} {s : List Char}

/-! ### The text around matches -/

/-- The texts before, between and behind the matches of a scan. -/
def gapsOf : List (Piece α) → List (List Char)
  | [] => [[]]
  | .plain c :: pieces => (gapsOf pieces).modifyHead (c :: ·)
  | .hit _ _ :: pieces => [] :: gapsOf pieces

/-- The texts before, between and behind the matches in a text. -/
def gaps (p : Pattern α) (s : List Char) : List (List Char) :=
  gapsOf (p.scan s)

/-- Puts a part behind each gap but the last. -/
def weave : List (List Char) → List (List Char) → List Char
  | gap :: gaps, part :: parts => gap ++ part ++ weave gaps parts
  | gaps, _ => gaps.flatten

theorem length_gaps (p : Pattern α) (s : List Char) :
    (p.gaps s).length = (p.hits s).length + 1 := by
  unfold gaps
  induction s using p.scan_induction with
  | nil => rfl
  | plain c s hnone ih =>
    rw [scan_cons_of_none p hnone, hits_cons_of_none hnone, gapsOf, List.length_modifyHead, ih]
  | hit part a rest hmatch ih =>
    rw [scan_append_of_matchAt hmatch, hits_append_of_matchAt hmatch, gapsOf, List.length_cons, ih,
      List.length_cons]

/-- A text consists of its matches and of what stands around them. -/
theorem weave_gaps (p : Pattern α) (s : List Char) :
    weave (p.gaps s) ((p.hits s).map Prod.fst) = s := by
  have hcons : ∀ (c : Char) (gaps parts : List (List Char)), gaps ≠ [] →
      weave (gaps.modifyHead (c :: ·)) parts = c :: weave gaps parts := by
    intro c gaps parts hne
    obtain ⟨gap, gaps, rfl⟩ := List.exists_cons_of_ne_nil hne
    cases parts <;> rfl
  induction s using p.scan_induction with
  | nil => rfl
  | plain c s hnone ih =>
    have hne : p.gaps s ≠ [] := List.length_pos_iff.1 (by rw [length_gaps]; omega)
    rw [gaps, scan_cons_of_none p hnone, hits_cons_of_none hnone, gapsOf, ← gaps, hcons c _ _ hne,
      ih]
  | hit part a rest hmatch ih =>
    rw [gaps, scan_append_of_matchAt hmatch, hits_append_of_matchAt hmatch, gapsOf, List.map_cons,
      weave, List.nil_append, ← gaps, ih]

end Text.Pattern

namespace Latex

/-- A use with a fresh argument in the place of its own. -/
def Use.renamed (fresh : List Char → List Char) (use : Use) : Use :=
  { use with argument := fresh use.argument }

namespace Directive

variable {d : Directive} {fresh : List Char → List Char} {use : Use} {s t : List Char} {c : Char}

/-- Facts about a text follow the uses in it. -/
@[elab_as_elim]
theorem use_induction (d : Directive) {motive : List Char → Prop} (nil : motive [])
    (plain : ∀ c s, d.read? (c :: s) = none → motive s → motive (c :: s))
    (use : ∀ use s, d.IsUse use → motive s → motive (d.written use ++ s)) (s : List Char) :
    motive s := by
  induction s using d.pattern.scan_induction with
  | nil => exact nil
  | plain c s hnone ih => exact plain c s (Option.map_eq_none_iff.1 hnone) ih
  | hit part u rest hmatch ih =>
    obtain ⟨huse, rfl, -⟩ := matchAt_eq_some.1 hmatch
    exact use u rest huse ih

/-- Gives every use in a text a fresh argument. -/
def rename (d : Directive) (fresh : List Char → List Char) (s : List Char) : List Char :=
  d.pattern.replace (fun _ use => d.written (use.renamed fresh)) s

/-- A text in which fresh arguments can be read: they can be written, and no argument ends options,
neither before nor after. -/
structure Renames (d : Directive) (fresh : List Char → List Char) (s : List Char) : Prop where
  isUse : ∀ use ∈ d.pattern.values s, d.IsUse (use.renamed fresh)
  bracket : ∀ use ∈ d.pattern.values s, ']' ∉ use.argument ∧ ']' ∉ fresh use.argument

theorem rename_cons (h : d.read? (c :: s) = none) :
    d.rename fresh (c :: s) = c :: d.rename fresh s :=
  replace_cons_of_none h _

theorem rename_written (h : d.IsUse use) (rest : List Char) :
    d.rename fresh (d.written use ++ rest) =
      d.written (use.renamed fresh) ++ d.rename fresh rest :=
  replace_written h _ rest

theorem read?_cons_of_ne (hcommand : d.IsCommand) (hc : c ≠ '\\') (s : List Char) :
    d.read? (c :: s) = none := by
  have hnone := read?_of_blocks (blocks_cons_of_ne hcommand hc s) []
  rwa [List.append_nil] at hnone

theorem renames_cons_iff (h : d.read? (c :: s) = none) :
    d.Renames fresh (c :: s) ↔ d.Renames fresh s := by
  constructor
  · rintro ⟨huse, hbracket⟩
    rw [values_cons_of_none h] at huse hbracket
    exact ⟨huse, hbracket⟩
  · rintro ⟨huse, hbracket⟩
    rw [← values_cons_of_none h] at huse hbracket
    exact ⟨huse, hbracket⟩

theorem Renames.written (huse : d.IsUse use) (h : d.Renames fresh (d.written use ++ s)) :
    (d.IsUse (use.renamed fresh) ∧ ']' ∉ use.argument ∧ ']' ∉ fresh use.argument) ∧
      d.Renames fresh s := by
  obtain ⟨hisUse, hbracket⟩ := h
  rw [values_written huse, List.forall_mem_cons] at hisUse hbracket
  exact ⟨⟨hisUse.1, hbracket.1⟩, hisUse.2, hbracket.2⟩

/-! ### Where a use stands among fresh arguments -/

/-- Characters other than those that start commands are as in the old text. -/
theorem eq_cons_of_rename (hcommand : d.IsCommand) (hc : c ≠ '\\')
    (h : d.rename fresh s = c :: t) : ∃ rest, s = c :: rest ∧ d.rename fresh rest = t := by
  induction s using d.use_induction with
  | nil => cases h
  | plain c' s hnone _ =>
    rw [rename_cons hnone] at h
    obtain ⟨rfl, htail⟩ := List.cons.inj h
    exact ⟨s, rfl, htail⟩
  | use use s huse _ =>
    obtain ⟨word, hname, -⟩ := hcommand
    rw [rename_written huse, written, hname] at h
    exact absurd (List.cons.inj h).1.symm hc

theorem eq_append_of_rename (hcommand : d.IsCommand) {word : List Char} (hword : '\\' ∉ word)
    (h : d.rename fresh s = word ++ t) (hs : d.Renames fresh s) :
    ∃ rest, s = word ++ rest ∧ d.rename fresh rest = t ∧ d.Renames fresh rest := by
  induction word generalizing s with
  | nil => exact ⟨s, rfl, h, hs⟩
  | cons c word ih =>
    rw [List.mem_cons, not_or] at hword
    obtain ⟨tail, rfl, htail⟩ := eq_cons_of_rename hcommand (Ne.symm hword.1) h
    have hnone := read?_cons_of_ne hcommand (Ne.symm hword.1) tail
    obtain ⟨rest, rfl, hrest⟩ := ih hword.2 htail ((renames_cons_iff hnone).1 hs)
    exact ⟨rest, rfl, hrest⟩

/-- A text without closing braces has no uses. -/
theorem rename_of_not_mem (h : '\x7d' ∉ s) : d.rename fresh s = s := by
  induction s using d.use_induction with
  | nil => rfl
  | plain c s hnone ih =>
    rw [List.mem_cons, not_or] at h
    rw [rename_cons hnone, ih h.2]
  | use use s _ _ => exact absurd h (by simp [written, braced])

/-- Where an argument can be read among fresh ones, one can be read in the old text. -/
theorem eq_braced_of_rename (hcommand : d.IsCommand) {argument rest : List Char}
    (h : d.rename fresh s = braced argument ++ rest) (hclose : '\x7d' ∉ argument) :
    ∃ argument' rest', s = braced argument' ++ rest' ∧ '\x7d' ∉ argument' ∧
      (argument' = [] → argument = []) := by
  have hbraced : braced argument ++ rest = '\x7b' :: (argument ++ '\x7d' :: rest) := by
    simp [braced]
  rw [hbraced] at h
  obtain ⟨inner, rfl, hinner⟩ := eq_cons_of_rename hcommand (by decide) h
  have hmem : '\x7d' ∈ inner := by
    refine Decidable.not_not.1 fun hnot => ?_
    rw [rename_of_not_mem hnot] at hinner
    exact hnot (by simp [hinner])
  obtain ⟨argument', rest', rfl, hclose'⟩ := List.eq_append_cons_of_mem hmem
  refine ⟨argument', rest', by simp [braced], hclose', ?_⟩
  rintro rfl
  -- the brace stands first in the fresh text as well
  have hnone := read?_cons_of_ne hcommand (by decide : '\x7d' ≠ '\\') rest'
  rw [List.nil_append, rename_cons hnone] at hinner
  cases argument with
  | nil => rfl
  | cons c argument =>
    obtain ⟨rfl, -⟩ := List.cons.inj hinner
    exact absurd List.mem_cons_self hclose

/-- Where options can end and an argument can be read among fresh arguments, they can in the old
text. -/
theorem eq_bracket_of_rename (hcommand : d.IsCommand) {options argument rest : List Char}
    (hs : d.Renames fresh s)
    (h : d.rename fresh s = options ++ ']' :: (braced argument ++ rest)) (hopen : ']' ∉ options)
    (hclose : '\x7d' ∉ argument) (hneeded : d.needsArgument = true → argument ≠ []) :
    ∃ options' argument' rest', s = options' ++ ']' :: (braced argument' ++ rest') ∧
      ']' ∉ options' ∧ '\x7d' ∉ argument' ∧ (d.needsArgument = true → argument' ≠ []) := by
  induction s using d.use_induction generalizing options with
  | nil => exact absurd h (by simp [rename, Pattern.replace])
  | plain c s hnone ih =>
    rw [rename_cons hnone] at h
    cases options with
    | nil =>
      obtain ⟨rfl, htail⟩ := List.cons.inj h
      obtain ⟨argument', rest', rfl, hclose', hne⟩ := eq_braced_of_rename hcommand htail hclose
      exact ⟨[], argument', rest', rfl, List.not_mem_nil, hclose',
        fun hneeds hnil => hneeded hneeds (hne hnil)⟩
    | cons c' options =>
      obtain ⟨rfl, htail⟩ := List.cons.inj h
      rw [List.mem_cons, not_or] at hopen
      obtain ⟨options', argument', rest', rfl, hopen', hargument⟩ :=
        ih ((renames_cons_iff hnone).1 hs) htail hopen.2
      exact ⟨c :: options', argument', rest', rfl, by simp [hopen.1, hopen'], hargument⟩
  | use use s huse ih =>
    obtain ⟨⟨-, hold, hnew⟩, hrest⟩ := hs.written huse
    have hname : ']' ∉ d.name := by
      obtain ⟨word, hname, hword⟩ := hcommand
      rw [hname, List.mem_cons, not_or]
      exact ⟨by decide, fun hmem => (hword _ hmem).2.2.2 rfl⟩
    cases hoptions : use.options with
    | none =>
      -- the options go on behind the use
      have hfree : ∀ argument, ']' ∉ argument → ']' ∉ d.written ⟨none, argument⟩ := by
        intro argument hargument
        simp [written, bracketed, braced, hname, hargument]
      have hwritten : ∀ argument, d.written ⟨use.options, argument⟩ = d.written ⟨none, argument⟩ :=
        fun argument => by rw [hoptions]
      rw [rename_written huse, Use.renamed, hwritten] at h
      obtain ⟨more, rfl, hmore⟩ := exists_append_of_not_mem (hfree _ hnew) h
      rw [List.mem_append, not_or] at hopen
      obtain ⟨options', argument', rest', rfl, hopen', hargument⟩ := ih hrest hmore hopen.2
      refine ⟨d.written use ++ options', argument', rest', by simp, ?_, hargument⟩
      have huse' : d.written use = d.written ⟨none, use.argument⟩ := hwritten use.argument
      rw [huse', List.mem_append, not_or]
      exact ⟨hfree _ hold, hopen'⟩
    | some old =>
      -- the options end in those of the use
      refine ⟨d.name ++ '[' :: old, use.argument, s, ?_, ?_, huse.argument, huse.ne_nil⟩
      · simp [written, bracketed, hoptions]
      · simp [hname, huse.options old hoptions]

theorem read?_rename (hcommand : d.IsCommand) (hs : d.Renames fresh s)
    (h : d.read? (c :: s) = none) : d.read? (c :: d.rename fresh s) = none := by
  rw [Option.eq_none_iff_forall_not_mem] at h ⊢
  rintro ⟨use, rest⟩ hread
  obtain ⟨huse, hwritten⟩ := read?_eq_some.1 hread
  have hnot : ∀ use' rest', d.IsUse use' → c :: s ≠ d.written use' ++ rest' :=
    fun use' rest' huse' heq => h (use', rest') (read?_eq_some.2 ⟨huse', heq⟩)
  obtain ⟨word, hname, hword⟩ := id hcommand
  rw [written, hname, List.append_assoc, List.append_assoc, List.cons_append] at hwritten
  obtain ⟨rfl, hbehind⟩ := List.cons.inj hwritten
  obtain ⟨tail, rfl, htail, hrenames⟩ :=
    eq_append_of_rename hcommand (fun hmem => (hword _ hmem).1 rfl) hbehind hs
  cases hoptions : use.options with
  | none =>
    rw [hoptions] at htail
    obtain ⟨argument, rest', rfl, hclose, hne⟩ := eq_braced_of_rename hcommand htail huse.argument
    refine hnot ⟨none, argument⟩ rest' ⟨nofun, nofun, hclose, ?_⟩ ?_
    · exact fun hneeds hnil => huse.ne_nil hneeds (hne hnil)
    · simp [written, hname, bracketed]
  | some old =>
    have hsplit : d.rename fresh tail =
        ['['] ++ (old ++ ']' :: (braced use.argument ++ rest)) := by
      simp [htail, hoptions, bracketed]
    obtain ⟨inner, rfl, hinner, hrenames'⟩ :=
      eq_append_of_rename hcommand (by decide) hsplit hrenames
    obtain ⟨options, argument, rest', rfl, hopen, hclose, hne⟩ := eq_bracket_of_rename hcommand
      hrenames' hinner (huse.options old hoptions) huse.argument huse.ne_nil
    refine hnot ⟨some options, argument⟩ rest' ⟨?_, ?_, hclose, hne⟩ ?_
    · exact fun _ => huse.takesOptions (by simp [hoptions])
    · rintro o ⟨⟩
      exact hopen
    · simp [written, hname, bracketed]

/-- A piece of a text with a fresh argument. -/
def renamedPiece (d : Directive) (fresh : List Char → List Char) : Piece Use → Piece Use
  | .plain c => .plain c
  | .hit _ use => .hit (d.written (use.renamed fresh)) (use.renamed fresh)

/-- The pieces of a text with fresh arguments are its own, but for the uses. -/
theorem scan_rename (hcommand : d.IsCommand) (hs : d.Renames fresh s) :
    d.pattern.scan (d.rename fresh s) = (d.pattern.scan s).map (d.renamedPiece fresh) := by
  induction s using d.use_induction with
  | nil => rfl
  | plain c s hnone ih =>
    have hs := (renames_cons_iff hnone).1 hs
    rw [rename_cons hnone,
      Pattern.scan_cons_of_none _ (matchAt_eq_none (read?_rename hcommand hs hnone)),
      Pattern.scan_cons_of_none _ (matchAt_eq_none hnone), List.map_cons, ih hs]
    rfl
  | use use s huse ih =>
    obtain ⟨⟨huse', -⟩, hs⟩ := hs.written huse
    rw [rename_written huse, Pattern.scan_append_of_matchAt (matchAt_written huse' _),
      Pattern.scan_append_of_matchAt (matchAt_written huse _), List.map_cons, ih hs]
    rfl

theorem values_rename (hcommand : d.IsCommand) (hs : d.Renames fresh s) :
    d.pattern.values (d.rename fresh s) = (d.pattern.values s).map (Use.renamed fresh) := by
  unfold Pattern.values Pattern.hits
  rw [scan_rename hcommand hs]
  induction d.pattern.scan s with
  | nil => rfl
  | cons piece pieces ih =>
    cases piece with
    | plain c => simpa [renamedPiece] using ih
    | hit part use => simpa [renamedPiece] using ih

theorem gaps_rename (hcommand : d.IsCommand) (hs : d.Renames fresh s) :
    d.pattern.gaps (d.rename fresh s) = d.pattern.gaps s := by
  unfold Pattern.gaps
  rw [scan_rename hcommand hs]
  induction d.pattern.scan s with
  | nil => rfl
  | cons piece pieces ih =>
    cases piece with
    | plain c => simp [renamedPiece, Pattern.gapsOf, ih]
    | hit part use => simp [renamedPiece, Pattern.gapsOf, ih]

end Directive

end Latex

namespace Template

variable {t : Template} {p : Profile}

/-- Whether every substitute of a template can be used and ends no options. -/
def SubstitutesFit (t : Template) : Prop :=
  ∀ path, ∀ substitute ∈ t.images.lookup path,
    Content.isUsable substitute.toList = true ∧ ']' ∉ substitute.toList

theorem SubstitutesFit.imageFor (h : t.SubstitutesFit) (path : String) :
    Content.isUsable (t.imageFor path).toList = true ∧ ']' ∉ (t.imageFor path).toList := by
  have hplaceholder : Content.isUsable placeholderImage.toList = true ∧
      ']' ∉ placeholderImage.toList := by decide
  unfold Template.imageFor
  cases hfound : t.images.lookup path with
  | none => exact hplaceholder
  | some substitute => exact h path substitute hfound

theorem SubstitutesFit.pictureFor (h : t.SubstitutesFit) (path : List Char) :
    t.pictureFor path = (t.imageFor (String.ofList path)).toList :=
  if_pos (h.imageFor _).1

theorem SubstitutesFit.substituteImages (h : t.SubstitutesFit) (s : List Char) :
    Content.substituteImages t s = image.rename t.pictureFor s := by
  have hsubstitute : Content.substitute t = fun use => image.written (use.renamed t.pictureFor) := by
    funext use
    rw [Content.substitute_eq, if_pos (h.imageFor _).1]
    rfl
  rw [Content.substituteImages, hsubstitute]
  rfl

/-- The substitutes can stand in the place of paths that end no options. -/
theorem SubstitutesFit.renames (h : t.SubstitutesFit) {s : List Char}
    (hpaths : ∀ path ∈ imagePaths s, ']' ∉ path) : image.Renames t.pictureFor s where
  isUse use huse := by
    obtain ⟨hne, hfree⟩ := Content.pictureFor_usable t use.argument
    exact (Directive.isUse_of_mem_values huse).withArgument hne fun hmem => (hfree _ hmem).2.1 rfl
  bracket use huse := by
    refine ⟨hpaths _ (List.mem_map_of_mem huse), ?_⟩
    rw [h.pictureFor]
    exact (h.imageFor _).2

/-- Without fonts, restyling and notes, images are all that is adapted. -/
theorem toList_adapt_images (hfonts : t.fonts = []) (himages : t.images ≠ [])
    (hrestyle : p.restyle = none) (hglyphs : p.notesGlyphs = false) (content : String) :
    (t.adapt p content).toList = Content.substituteImages t content.toList := by
  have himages : t.images.isEmpty = false := by simpa using himages
  rw [toList_adapt hrestyle, Content.finish, himages]
  simp [hglyphs, Content.noteFonts, Content.missingFonts, hfonts]

/-- The images of an adapted content are those of the content, with the same options and each with
its substitute, and the text around them is not touched: whatever the content leaves open, if all
substitutes can be used, and neither they nor the paths of the content end options. -/
theorem adapt_images (t : Template) (p : Profile) (content : String) (hfonts : t.fonts = [])
    (himages : t.images ≠ []) (hfit : t.SubstitutesFit) (hrestyle : p.restyle = none)
    (hglyphs : p.notesGlyphs = false) (hpaths : ∀ path ∈ imagePaths content.toList, ']' ∉ path) :
    let uses := (image.pattern.values content.toList).map fun use =>
      { options := use.options
        argument := ((t.images.lookup (String.ofList use.argument)).getD placeholderImage).toList }
    let gaps := image.pattern.gaps content.toList
    image.pattern.values (t.adapt p content).toList = uses ∧
      image.pattern.gaps (t.adapt p content).toList = gaps ∧
      (t.adapt p content).toList = Pattern.weave gaps (uses.map image.written) := by
  intro uses gaps
  have hrenames := hfit.renames hpaths
  have hadapt : (t.adapt p content).toList = image.rename t.pictureFor content.toList := by
    rw [toList_adapt_images hfonts himages hrestyle hglyphs, hfit.substituteImages]
  have hvalues : image.pattern.values (t.adapt p content).toList = uses := by
    rw [hadapt, Directive.values_rename isCommand_image hrenames]
    refine List.map_congr_left fun use _ => ?_
    rw [Use.renamed, hfit.pictureFor]
    rfl
  have hgaps : image.pattern.gaps (t.adapt p content).toList = gaps := by
    rw [hadapt, Directive.gaps_rename isCommand_image hrenames]
  refine ⟨hvalues, hgaps, ?_⟩
  have hwoven := image.pattern.weave_gaps (t.adapt p content).toList
  rw [hgaps, Directive.hits_eq, hvalues, List.map_map] at hwoven
  exact hwoven.symm

end Template

-- Behind an image with a path that has a substitute, one is left open, and in its options stands
-- another one.
theorem adapt_images_open :
    let t := { Template.ofSource "" with images := [("me.png", "anon.png")] }
    let content := "a\\includegraphics[width=2cm]\x7bme.png\x7db" ++
      "\\includegraphics[\\includegraphics\x7bx\x7d[\\includegraphics\x7b\x7dc"
    t.fonts = [] ∧ t.images ≠ [] ∧ t.SubstitutesFit ∧
      (∀ path ∈ imagePaths content.toList, ']' ∉ path) ∧
      image.pattern.values (t.adapt .plain content).toList =
        [⟨some "width=2cm".toList, "anon.png".toList⟩, ⟨none, placeholderImage.toList⟩] ∧
      image.pattern.gaps (t.adapt .plain content).toList =
        ["a".toList, "b\\includegraphics[".toList, "[\\includegraphics\x7b\x7dc".toList] := by
  intro t content
  have hfit : t.SubstitutesFit := by
    intro path substitute hfound
    obtain ⟨before, after, himages, -⟩ := List.lookup_eq_some_iff.1 hfound
    have hmem : (path, substitute) ∈ t.images := by simp [himages]
    obtain ⟨-, rfl⟩ := Prod.mk.inj (List.mem_singleton.1 hmem)
    decide
  have hpaths : ∀ path ∈ imagePaths content.toList, ']' ∉ path := by decide +kernel
  obtain ⟨hvalues, hgaps, -⟩ :=
    Template.adapt_images t .plain content rfl (by decide) hfit rfl rfl hpaths
  refine ⟨rfl, by decide, hfit, hpaths, hvalues.trans ?_, hgaps.trans ?_⟩
  · decide +kernel
  · decide +kernel

end ResumePress
