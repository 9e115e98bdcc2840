import ResumePress.Proofs.Latex.Amendments
import ResumePress.Proofs.Placement
import ResumePress.Template.Preview

/-!
Images in documents. Adapting a content gives each of its images a substitute and leaves no other
image in it; where the content is placed, the text around it is not touched. So an image for which
there is a substitute is found in a document only if it stands in the template's own text.
-/

namespace ResumePress

open Latex Text

theorem Latex.isCommand_image : image.IsCommand := by
  have hword : '\\' ∉ "includegraphics".toList ∧ '\n' ∉ "includegraphics".toList ∧
      '%' ∉ "includegraphics".toList ∧ ']' ∉ "includegraphics".toList := by decide
  refine ⟨"includegraphics".toList, rfl, fun c hc => ⟨?_, ?_, ?_, ?_⟩⟩
  · exact fun h => hword.1 (h ▸ hc)
  · exact fun h => hword.2.1 (h ▸ hc)
  · exact fun h => hword.2.2.1 (h ▸ hc)
  · exact fun h => hword.2.2.2 (h ▸ hc)

/-- The paths of the images of a text. -/
def imagePaths (s : List Char) : List (List Char) :=
  (image.pattern.values s).map Use.argument

theorem imagePaths_append {s : List Char} {uses : List Use} (h : image.Settles s uses)
    (rest : List Char) : imagePaths (s ++ rest) = uses.map Use.argument ++ imagePaths rest := by
  rw [imagePaths, h.values_append, List.map_append]
  rfl

namespace Template

/-- The picture that takes the place of an image: its substitute, or the common placeholder if that
cannot be used. -/
def pictureFor (t : Template) (path : List Char) : List Char :=
  let fresh := (t.imageFor (String.ofList path)).toList
  if Content.isUsable fresh then fresh else placeholderImage.toList

/-- Whether an image has a substitute other than itself. -/
def Redirects (t : Template) (path : List Char) : Prop :=
  ∃ substitute ∈ t.images.lookup (String.ofList path), substitute.toList ≠ path

instance (t : Template) (path : List Char) : Decidable (t.Redirects path) :=
  inferInstanceAs (Decidable (∃ substitute ∈ t.images.lookup (String.ofList path), _))

/-- A content whose images get pictures for good. -/
structure Suits (t : Template) (p : Profile) (content : List Char) : Prop where
  /-- No image is left open at the end. -/
  closes : image.closes content = true
  bracket : ∀ path ∈ imagePaths content, ']' ∉ path
  /-- No path that is quoted in a note has a command in it. -/
  quoted : ∀ path ∈ imagePaths content,
    Content.isUsable (t.imageFor (String.ofList path)).toList = false → '\\' ∉ path
  /-- The note about glyph names goes into no path. -/
  noted : p.notesGlyphs = true → ∀ path ∈ imagePaths content, ¬beginDocument.dropLast <:+ path
  /-- No picture has a substitute itself. -/
  final : ∀ path ∈ imagePaths content, ¬t.Redirects (t.pictureFor path)

end Template

namespace Content

variable {t : Template} {s : List Char} {uses : List Use}

theorem of_isUsable {fresh : List Char} (h : isUsable fresh = true) :
    fresh ≠ [] ∧ ∀ c ∈ fresh, c ≠ '\x7b' ∧ c ≠ '\x7d' ∧ c ≠ '\n' := by
  obtain ⟨hblank, hall⟩ := Bool.and_eq_true_iff.1 h
  refine ⟨?_, fun c hc => ?_⟩
  · rintro rfl
    exact absurd hblank (by decide)
  · simpa [and_assoc] using List.all_eq_true.1 hall c hc

theorem pictureFor_usable (t : Template) (path : List Char) :
    t.pictureFor path ≠ [] ∧ ∀ c ∈ t.pictureFor path, c ≠ '\x7b' ∧ c ≠ '\x7d' ∧ c ≠ '\n' := by
  have hplaceholder : isUsable placeholderImage.toList = true := by decide
  dsimp only [Template.pictureFor]
  split
  · rename_i h
    exact of_isUsable h
  · exact of_isUsable hplaceholder

/-- An image with its picture. -/
def pictured (t : Template) (use : Use) : Use :=
  { use with argument := t.pictureFor use.argument }

theorem isNote_imageNote {path : List Char} (hbackslash : '\\' ∉ path) (hbracket : ']' ∉ path) :
    IsNote (imageNote path) := by
  have hstart : IsNote "% Failed to process image: ".toList :=
    ⟨by decide, by decide, by decide⟩
  have hend : '\\' ∉ "\n% Using default placeholder\n".toList ∧
      ']' ∉ "\n% Using default placeholder\n".toList := by decide
  exact (hstart.extend (by decide) hbackslash hbracket).extend (by simp) hend.1 hend.2

theorem substitute_eq (t : Template) (use : Use) :
    substitute t use =
      (if isUsable (t.imageFor (String.ofList use.argument)).toList then []
        else imageNote use.argument) ++ image.written (pictured t use) := by
  dsimp only [substitute, pictured, Template.pictureFor]
  split <;> rfl

/-- The pictures take the place of the images if no path ends options, and none that a note quotes
has a command in it. -/
theorem amends_substituteImages (h : image.Settles s uses)
    (hbracket : ∀ path ∈ uses.map Use.argument, ']' ∉ path)
    (hquoted : ∀ path ∈ uses.map Use.argument,
      isUsable (t.imageFor (String.ofList path)).toList = false → '\\' ∉ path) :
    image.Amends s uses (substituteImages t s) (uses.map (pictured t)) := by
  refine h.amends_replace fun use hmem huse => ?_
  have hpath := List.mem_map_of_mem (f := Use.argument) hmem
  obtain ⟨hne, hfree⟩ := pictureFor_usable t use.argument
  refine ⟨_, ?_, substitute_eq t use, huse.withArgument hne ?_, id,
    .inr ⟨?_, fun hin => absurd hin (hbracket _ hpath)⟩⟩
  · split
    · exact isNote_nil
    · rename_i husable
      exact isNote_imageNote (hquoted _ hpath (Bool.eq_false_iff.2 husable)) (hbracket _ hpath)
  · exact fun hin => (hfree _ hin).2.1 rfl
  · exact fun hin => (hfree _ hin).1 rfl

/-- The marker of the body is in no argument up to its closing brace, unless the argument ends in
the rest of the marker. -/
theorem not_prefix_beginDocument {path front back after : List Char} (hclose : '\x7d' ∉ path)
    (hpath : ¬beginDocument.dropLast <:+ path) (hback : path = front ++ '\\' :: back) :
    ¬(back ++ ['\x7d']) <+: "begin\x7bdocument".toList ++ ['\x7d'] ++ after := by
  rintro ⟨rest, hrest⟩
  have hclosed : '\x7d' ∉ back := fun hin => hclose (by simp [hback, hin])
  have hup : upTo? '\x7d' (back ++ '\x7d' :: rest) = some (back, rest) :=
    upTo?_eq_some.2 ⟨rfl, hclosed⟩
  have hsame : back ++ '\x7d' :: rest = "begin\x7bdocument".toList ++ '\x7d' :: after := by
    simpa using hrest
  rw [hsame, upTo?_eq_some.2 ⟨rfl, by decide⟩] at hup
  obtain ⟨rfl, -⟩ := Prod.mk.inj (Option.some.inj hup)
  exact hpath ⟨front, hback.symm⟩

theorem isNote_glyphNote : IsNote glyphNote :=
  ⟨by decide, by decide, by decide⟩

/-- The note about glyph names leaves the paths if none of them ends in the marker before which the
note is put. -/
theorem amends_noteGlyphs (h : image.Settles s uses)
    (hpaths : ∀ path ∈ uses.map Use.argument, ¬beginDocument.dropLast <:+ path) :
    ∃ uses', image.Amends s uses (noteGlyphs s) uses' ∧
      uses'.map Use.argument = uses.map Use.argument := by
  unfold noteGlyphs replaceFirst
  split
  · rename_i before after hcut
    have hs := eq_of_cut? hcut
    have hmarker : beginDocument = '\\' :: ("begin\x7bdocument".toList ++ ['\x7d']) := rfl
    rw [hmarker, List.append_assoc, List.cons_append] at hs
    subst hs
    have := h.amends_at isCommand_image isNote_glyphNote isNote_nil (fun _ => rfl)
      (fun h => absurd rfl h) (.inl rfl) fun use hmem front back hback =>
        not_prefix_beginDocument (h.isUse use hmem).argument (hpaths _ (List.mem_map_of_mem hmem))
          hback
    simpa [hmarker] using this
  · exact ⟨uses, .refl h, rfl⟩

theorem isNote_fontNote {font : String} (hbackslash : '\\' ∉ font.toList)
    (hbracket : ']' ∉ font.toList) : IsNote (fontNote font) := by
  have hstart : IsNote "% Warning: Template requires ".toList :=
    ⟨by decide, by decide, by decide⟩
  have hend : '\\' ∉ " font package".toList ∧ ']' ∉ " font package".toList := by decide
  exact (hstart.extend (by decide) hbackslash hbracket).extend (by simp) hend.1 hend.2

theorem isNote_fontNotes {fonts : List String}
    (hfonts : ∀ font ∈ fonts, '\\' ∉ font.toList ∧ ']' ∉ font.toList) :
    IsNote (fonts.flatMap fun font => fontNote font ++ ['\n']) := by
  induction fonts with
  | nil => exact isNote_nil
  | cons font fonts ih =>
    obtain ⟨hbackslash, hbracket⟩ := hfonts font List.mem_cons_self
    have hne : fontNote font ≠ [] := by
      unfold fontNote
      simp
    have hfont := (isNote_fontNote hbackslash hbracket).extend hne
      (by decide : '\\' ∉ ['\n']) (by decide)
    rw [List.flatMap_cons]
    exact hfont.append (ih fun font hmem => hfonts font (List.mem_cons_of_mem _ hmem))

theorem exists_of_classLine {part : List Char} {a : Unit}
    (h : classLine.matchAt s = some (part, a)) : ∃ line, part = line ++ ['\n'] := by
  simp only [classLine] at h
  split at h
  · obtain ⟨parts, -, heq⟩ := Option.map_eq_some_iff.1 h
    cases heq
    exact ⟨_, rfl⟩
  · cases h

theorem amends_noteFonts (h : image.Settles s uses)
    (hfonts : ∀ font ∈ t.fonts, '\\' ∉ font.toList ∧ ']' ∉ font.toList)
    (hpaths : ∀ path ∈ uses.map Use.argument, '\n' ∉ path) :
    ∃ uses', image.Amends s uses (noteFonts t s) uses' ∧
      uses'.map Use.argument = uses.map Use.argument := by
  unfold noteFonts
  split
  · exact ⟨uses, .refl h, rfl⟩
  · exact ⟨uses, .refl h, rfl⟩
  · rename_i before part after hcut _
    obtain ⟨rfl, a, hmatch⟩ := Pattern.eq_of_cut? hcut
    obtain ⟨line, rfl⟩ := exists_of_classLine hmatch
    have hnotes : IsNote ((missingFonts t (before ++ (line ++ ['\n'] ++ after))).flatMap
        fun font => fontNote font ++ ['\n']) :=
      isNote_fontNotes fun font hmem => hfonts font (List.mem_filter.1 hmem).1
    have hs : before ++ (line ++ ['\n'] ++ after) = before ++ line ++ '\n' :: after := by simp
    rw [hs] at h ⊢
    rw [hs] at hnotes
    have := h.amends_at isCommand_image isNote_nil hnotes (fun h => absurd rfl h) (fun _ => rfl)
      (.inr rfl) fun use hmem front back hargument _ =>
        hpaths _ (List.mem_map_of_mem hmem) (by simp [hargument])
    simpa using this

/-- An adapted text is settled, and its images are the pictures. -/
theorem settles_finish {p : Profile} (himages : t.images ≠ [])
    (hfonts : ∀ font ∈ t.fonts, '\\' ∉ font.toList ∧ ']' ∉ font.toList) (hs : t.Suits p s)
    (given : List Char) :
    ∃ uses, image.Settles (finish t p given s) uses ∧
      uses.map Use.argument = (imagePaths s).map t.pictureFor := by
  have h := image.settles_of_closes s hs.closes
  -- the notes leave the paths; in between these become the pictures, which have no line feed
  obtain ⟨noted, hnoted, hsame⟩ : ∃ uses,
      image.Settles (if p.notesGlyphs && !contains glyphInput given then noteGlyphs s else s)
        uses ∧ uses.map Use.argument = imagePaths s := by
    split
    · rename_i hnotes
      obtain ⟨uses, hamends, hsame⟩ :=
        amends_noteGlyphs h (hs.noted (Bool.and_eq_true_iff.1 hnotes).1)
      exact ⟨uses, hamends.settles isCommand_image, hsame⟩
    · exact ⟨_, h, rfl⟩
  have hpictured := (amends_substituteImages (t := t) hnoted (hsame ▸ hs.bracket)
    (hsame ▸ hs.quoted)).settles isCommand_image
  have harguments : (noted.map (pictured t)).map Use.argument =
      (imagePaths s).map t.pictureFor := by
    rw [← hsame, List.map_map, List.map_map]
    rfl
  have hlines : ∀ path ∈ (noted.map (pictured t)).map Use.argument, '\n' ∉ path := by
    rw [harguments]
    intro path hmem hline
    obtain ⟨path, -, rfl⟩ := List.mem_map.1 hmem
    exact ((pictureFor_usable t path).2 _ hline).2.2 rfl
  obtain ⟨uses, hamends, hsame'⟩ := amends_noteFonts hpictured hfonts hlines
  refine ⟨uses, ?_, hsame'.trans harguments⟩
  have himages' : t.images.isEmpty = false := by simpa using himages
  simp only [finish, himages', Bool.false_eq_true, if_false]
  exact hamends.settles isCommand_image

end Content

namespace Template

/-- What a preview for which nothing is chosen has before its body. -/
def previewHead (t : Template) : List Char :=
  let preamble := Preamble.ofSource t.source
  preamble.documentClass.toList ++ "\n\n% Essential packages\n".toList ++
    Preview.stacked (Preview.packageBlock preamble []) ++
    "\n\n% Original preamble commands\n".toList ++
    Preview.stacked (Preview.commonCommands :: preamble.commands) ++ ['\n', '\n'] ++
    beginDocument ++ ['\n']

/-- What stands before and behind the sample in such a preview, if the body of the template has a
place for it. -/
def previewSeat? (t : Template) (p : Profile) : Option (List Char × List Char) :=
  (cut? p.placeholder.toList ((body? t.source.toList).getD [])).map fun parts =>
    (t.previewHead ++ parts.1, parts.2 ++ (['\n'] ++ endDocument ++ ['\n']))

variable {t : Template} {p : Profile} {before after : List Char}

theorem toList_preview_defaults (t : Template) (p : Profile) :
    (t.preview p Preview.defaults).toList =
      t.previewHead ++ Preview.sampleBody t p ++ (['\n'] ++ endDocument ++ ['\n']) := by
  unfold preview previewHead Preview.titleBlock Preview.defaults
  rw [String.toList_ofList]
  simp only [Option.map_none, if_true, List.append_assoc, List.nil_append, List.cons_append]

theorem toList_preview (hseat : t.previewSeat? p = some (before, after)) :
    (t.preview p Preview.defaults).toList =
      before ++ (t.adapt p p.sample).toList ++ after := by
  obtain ⟨parts, hcut, heq⟩ := Option.map_eq_some_iff.1 hseat
  obtain ⟨hfront, hback⟩ := Prod.mk.inj heq
  have hcontains : contains p.placeholder.toList ((body? t.source.toList).getD []) = true := by
    simp [contains, hcut]
  have hbody : Preview.sampleBody t p = parts.1 ++ (t.adapt p p.sample).toList ++ parts.2 := by
    simp only [Preview.sampleBody, hcontains, if_true, replaceFirst, hcut]
  rw [toList_preview_defaults, hbody, ← hfront, ← hback]
  simp only [List.append_assoc]

theorem toList_adapt (hrestyle : p.restyle = none) (content : String) :
    (t.adapt p content).toList = Content.finish t p content.toList content.toList := by
  simp [adapt, adapt?, hrestyle, Except.map]

/-- Around a content the images of a text stay, and those of the content are the pictures. -/
theorem imagePaths_around (himages : t.images ≠ []) (hrestyle : p.restyle = none)
    (hfonts : ∀ font ∈ t.fonts, '\\' ∉ font.toList ∧ ']' ∉ font.toList) {content : String}
    (hcontent : t.Suits p content.toList) (hbefore : image.closes before = true) :
    imagePaths (before ++ (t.adapt p content).toList ++ after) =
      imagePaths before ++ (imagePaths content.toList).map t.pictureFor ++ imagePaths after := by
  obtain ⟨uses, hsettles, hpictures⟩ :=
    Content.settles_finish himages hfonts hcontent content.toList
  rw [toList_adapt hrestyle, List.append_assoc,
    imagePaths_append (image.settles_of_closes before hbefore), imagePaths_append hsettles,
    hpictures, List.append_assoc]
  rfl

/-- The images of a text that have a substitute. -/
def redirected (t : Template) (s : List Char) : List (List Char) :=
  (imagePaths s).filter fun path => t.Redirects path

theorem redirected_around_sublist {content : String} (himages : t.images ≠ [])
    (hrestyle : p.restyle = none)
    (hfonts : ∀ font ∈ t.fonts, '\\' ∉ font.toList ∧ ']' ∉ font.toList)
    (hcontent : t.Suits p content.toList) (hbefore : image.closes before = true) :
    (t.redirected (before ++ (t.adapt p content).toList ++ after)).Sublist
      (imagePaths before ++ imagePaths after) := by
  have hpictures : ((imagePaths content.toList).map t.pictureFor).filter
      (fun path => t.Redirects path) = [] := by
    refine List.filter_eq_nil_iff.2 fun path hmem => ?_
    obtain ⟨path, hpath, rfl⟩ := List.mem_map.1 hmem
    simpa using hcontent.final path hpath
  rw [redirected, imagePaths_around himages hrestyle hfonts hcontent hbefore, List.filter_append,
    List.filter_append, hpictures, List.append_nil]
  exact List.filter_sublist.append List.filter_sublist

/-- The images of the text around a place, or of the whole text if there is no place. -/
def ownImages (seat : Option (List Char × List Char)) (whole : List Char) : List (List Char) :=
  match seat with
  | some (before, after) => imagePaths before ++ imagePaths after
  | none => imagePaths whole

/-- Of the images that have a substitute, the document of a content and a preview for which nothing
is chosen have no others than those of the template's own text. -/
theorem redirected_sublist_ownImages (t : Template) (p : Profile) (content : String)
    (himages : t.images ≠ []) (hrestyle : p.restyle = none)
    (hfonts : ∀ font ∈ t.fonts, '\\' ∉ font.toList ∧ ']' ∉ font.toList) :
    (t.Suits p content.toList →
      (∀ seat ∈ seat? p.placeholder.toList t.source.toList, image.closes seat.1 = true) →
      (t.redirected (t.render p content).toList).Sublist
        (ownImages (seat? p.placeholder.toList t.source.toList) t.source.toList)) ∧
    (t.Suits p p.sample.toList → (∀ seat ∈ t.previewSeat? p, image.closes seat.1 = true) →
      (t.redirected (t.preview p Preview.defaults).toList).Sublist
        (ownImages (t.previewSeat? p) (t.preview p Preview.defaults).toList)) := by
  constructor
  · intro hcontent hbefore
    cases hseat : seat? p.placeholder.toList t.source.toList with
    | none =>
      rw [render, String.toList_ofList, place_eq, hseat]
      exact List.filter_sublist
    | some seat =>
      rw [toList_render t p content hseat]
      exact redirected_around_sublist himages hrestyle hfonts hcontent (hbefore seat hseat)
  · intro hsample hbefore
    cases hseat : t.previewSeat? p with
    | none => exact List.filter_sublist
    | some seat =>
      rw [toList_preview hseat]
      exact redirected_around_sublist himages hrestyle hfonts hsample (hbefore seat hseat)

end Template

-- The image of the template stays, and both the content and the sample have the same one.
theorem redirected_sublist_of_portrait :
    let t := { Template.ofSource ("\\begin\x7bdocument\x7d\n\\includegraphics\x7bme.png\x7d\n" ++
        "%RESUME_CONTENT%\n\\end\x7bdocument\x7d\n") with
      images := [("me.png", "anon.png"), ("bad.png", "")]
      fonts := ["Charter"] }
    let content := "\\documentclass\x7bcv\x7d\n\\begin\x7bdocument\x7d\n" ++
      "\\includegraphics[width=2cm]\x7bme.png\x7d\\includegraphics\x7bbad.png\x7d\n"
    let p := { Profile.plain with sample := content, notesGlyphs := true }
    let seat := Template.seat? p.placeholder.toList t.source.toList
    t.redirected content.toList = ["me.png".toList, "bad.png".toList] ∧
      (t.redirected (t.render p content).toList).Sublist
        (Template.ownImages seat t.source.toList) ∧
      (t.redirected (t.preview p Preview.defaults).toList).Sublist
        (Template.ownImages (t.previewSeat? p) (t.preview p Preview.defaults).toList) := by
  intro t content p seat
  have hsuits : t.Suits p content.toList :=
    ⟨by decide +kernel, by decide +kernel, by decide +kernel, by decide +kernel,
      by decide +kernel⟩
  have hpreamble : Preamble.ofSource t.source = ⟨Preamble.defaultClass, [], []⟩ := by
    decide +kernel
  have hpackages : Preview.packageBlock ⟨Preamble.defaultClass, [], []⟩ [] = commonPackages := by
    decide +kernel
  have hbefore : ∀ seat ∈ t.previewSeat? p, image.closes seat.1 = true := by
    simp only [Template.previewSeat?, Template.previewHead, hpreamble, hpackages,
      Preview.stacked, List.map_cons, List.map_nil, joinWith, Preview.commonCommands, withBraces,
      String.toList_ofList]
    -- the kernel reads long literals off as lists much faster than it decodes them
    repeat rw [String.toList_ofList]
    decide +kernel
  obtain ⟨hrender, hpreview⟩ := Template.redirected_sublist_ownImages t p content (by decide) rfl
    (by decide +kernel)
  exact ⟨by decide +kernel, hrender hsuits (by decide +kernel), hpreview hsuits hbefore⟩

-- An image of the template itself stays. And there are left, though they are no images of the
-- template: a picture that has a substitute, an image that the source opens, one that the content
-- leaves open, one whose options no longer end in the path of another image, one whose options end
-- behind a path that a note quotes, one in whose path the note about glyph names stands, and what the
-- names of required fonts bring with them.
theorem redirected_images_left :
    (let t := { Template.ofSource "\\includegraphics\x7bm\x7d%RESUME_CONTENT%" with
        images := [("m", "n")] };
      ['m'] ∈ t.redirected (t.render .plain "x").toList) ∧
    ∀ case ∈ [
        ("%RESUME_CONTENT%", ("a", "m"), "F", "\\includegraphics\x7ba\x7d"),
        ("\\includegraphics%RESUME_CONTENT%", ("a", "b"), "F", "\x7bm\x7d"),
        ("%RESUME_CONTENT%\x7bm\x7d", ("a", "b"), "F", "\\includegraphics"),
        ("%RESUME_CONTENT%", ("a]", "b"), "F",
          "\\includegraphics[\\includegraphics\x7ba]\x7d]\x7bm\x7d"),
        ("%RESUME_CONTENT%", ("\\includegraphics[", ""), "F",
          "\\includegraphics\x7b\\includegraphics[\x7d]\x7bm\x7d"),
        ("%RESUME_CONTENT%", (String.ofList (Content.glyphNote ++ beginDocument.dropLast), "m"), "F",
          "\\includegraphics\x7b\\begin\x7bdocument\x7d"),
        ("%RESUME_CONTENT%", ("a", "b"), "\\includegraphics\x7bm\x7d", "\\documentclass\n"),
        ("%RESUME_CONTENT%", ("a", "b"), "]\x7bm\x7d",
          "\\includegraphics[\\documentclass\n]\x7ba\x7d")],
      let t := { Template.ofSource case.1 with
        images := [("m", "n"), case.2.1], fonts := [case.2.2.1] };
      let p := { Profile.plain with notesGlyphs := true };
      let seat := Template.seat? p.placeholder.toList t.source.toList;
      ¬(t.redirected (t.render p case.2.2.2).toList).Sublist
        (Template.ownImages seat t.source.toList) := by
  decide +kernel

end ResumePress
