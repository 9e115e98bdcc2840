import ResumePress.Proofs.CleanUp
import ResumePress.Proofs.Compile.Verdicts

/-!
Pictures that go by their documents. What a rasterizer draws is told by the bytes of the document and
the resolution, and only the length of a name decides whether there is a file for it. What is drawn is
published as it is unless a name is too long, and then no thumbnail is touched.
-/

namespace ResumePress

open Files Files.Tree

variable {σ : Type}

/-- The error without the paths of a run. -/
def RasterError.anonymous : RasterError → RasterError
  | .missing _ => .missing ⟨""⟩
  | cause => cause

/-- What rasterizers make of the bytes of a document at a resolution. They may also go by the stem of
the image and by whether a file of its name can be opened at all. -/
abbrev RasterVerdict :=
  ByteArray → RasterSpec → (stem : String) → (fits : Bool) → Except RasterError ByteArray

namespace Files.Tree

variable {t t' : Tree} {altered places : Place → Prop} {path : Path} {bytes : ByteArray}

/-- Nothing is at the end of a path. -/
def IsVacant (t : Tree) (path : Path) (place : Place) : Prop :=
  t.locate true path = .ok place ∧ t.get? place = none

/-- A path leads to a file with some bytes, which is at one of certain places. -/
def HasAt (t : Tree) (path : Path) (bytes : ByteArray) (places : Place → Prop) : Prop :=
  ∃ place modified, t.locate true path = .ok place ∧
    t.leaf? place = some ⟨.file bytes, modified⟩ ∧ places place

theorem HasAt.read (h : t.HasAt path bytes places) : t.read path = .ok bytes := by
  obtain ⟨place, modified, hlocate, hleaf, -⟩ := h
  exact read_eq_ok.2 ⟨place, modified, hlocate, hleaf⟩

theorem HasAt.mono (h : t.HasAt path bytes places) {more : Place → Prop}
    (hmore : ∀ place, places place → more place) : t.HasAt path bytes more := by
  obtain ⟨place, modified, hlocate, hleaf, hplace⟩ := h
  exact ⟨place, modified, hlocate, hleaf, hmore place hplace⟩

theorem HasAt.of_edits (h : t.HasAt path bytes places) (hedits : Edits altered t t')
    (hplaces : ∀ place, altered place → ¬places place)
    (hlink : ∀ place, altered place → t.link? place = none) : t'.HasAt path bytes places := by
  obtain ⟨place, modified, hlocate, hleaf, hplace⟩ := h
  exact ⟨place, modified,
    (locate_iff hedits.home hedits.folderAt (hedits.link?_eq hlink)).2 hlocate,
    (hedits.leaf place fun haltered => hplaces place haltered hplace).trans hleaf, hplace⟩

theorem IsVacant.link? {place : Place} (h : t.IsVacant path place) : t.link? place = none := by
  rw [Tree.link?, (get?_eq_none.1 h.2).1]
  rfl

theorem IsVacant.of_edits {place : Place} (h : t.IsVacant path place) (hedits : Edits altered t t')
    (hnot : ¬altered place) (hlink : ∀ place, altered place → t.link? place = none) :
    t'.IsVacant path place := by
  refine ⟨(locate_iff hedits.home hedits.folderAt (hedits.link?_eq hlink)).2 h.1, get?_eq_none.2 ?_⟩
  rw [hedits.leaf place hnot, hedits.folderAt]
  exact get?_eq_none.1 h.2

end Files.Tree

/-- A rasterizer that writes one image and answers by the bytes of the document. If the image has no
stem, nothing is at its path before. -/
structure Rasterizer.GoesBy (rasterizer : Rasterizer σ) (verdict : RasterVerdict) : Prop where
  writesImage : rasterizer.WritesImage
  answers : ∀ (document : Path) (spec : RasterSpec) (w : Workspace) (folder : Place) (name : String)
    (bytes : ByteArray) (s : Surroundings σ), s.files.HoldsFiles w.folder folder →
    s.files.read document = .ok bytes → Path.IsProper (name ++ ".png") → '.' ∉ name.toList →
      (name = "" → ∃ place, s.files.IsVacant (w.image "") place) →
      match rasterizer document spec (w.file name) s with
      | (.ok image, s') => image = w.image name ∧
        ∃ picture, verdict bytes spec name (!w.folder.overlong (name ++ ".png")) = .ok picture ∧
          s'.files.read image = .ok picture
      | (.error cause, _) =>
        verdict bytes spec name (!w.folder.overlong (name ++ ".png")) = .error cause.anonymous

namespace Press

/-- The pictures of a document at several resolutions, up to the first that cannot be drawn. -/
def draw (verdict : RasterVerdict) (document : ByteArray) (fits : String → Bool) (stem : String) :
    List RasterSpec → Except RasterError (List (RasterSpec × ByteArray))
  | [] => .ok []
  | spec :: rest =>
    match verdict document spec (stem ++ spec.suffix) (fits (spec.fileName stem)) with
    | .error cause => .error cause
    | .ok picture =>
      match draw verdict document fits stem rest with
      | .error cause => .error cause
      | .ok pictures => .ok ((spec, picture) :: pictures)

/-- What is published of a picture in the folder of a run. -/
def placement (press : Press σ) (w : Workspace) (stem : String) (spec : RasterSpec) : Placement :=
  ⟨w.image (stem ++ spec.suffix), press.thumbnail stem spec⟩

theorem map_fst_draw {verdict : RasterVerdict} {document : ByteArray} {fits : String → Bool}
    {stem : String} {specs : List RasterSpec} {pictures : List (RasterSpec × ByteArray)}
    (h : draw verdict document fits stem specs = .ok pictures) : pictures.map Prod.fst = specs := by
  induction specs generalizing pictures with
  | nil =>
    cases h
    rfl
  | cons spec rest ih =>
    rw [draw] at h
    cases hfirst : verdict document spec (stem ++ spec.suffix) (fits (spec.fileName stem)) with
    | error cause =>
      rw [hfirst] at h
      cases h
    | ok picture =>
      rw [hfirst] at h
      cases hrest : draw verdict document fits stem rest with
      | error cause =>
        rw [hrest] at h
        cases h
      | ok pictures =>
        rw [hrest] at h
        cases h
        rw [List.map_cons, ih hrest]

theorem isProper_fileName (t : Template) {spec : RasterSpec} (hspec : spec ∈ resolutions) :
    Path.IsProper (spec.fileName t.stem) := by
  have hsuffix : ∀ spec ∈ resolutions, '\x00' ∉ spec.suffix.toList := by decide
  refine ⟨isPlain_fileName t hspec, ?_⟩
  simp only [RasterSpec.fileName, String.toList_append, List.mem_append, not_or]
  exact ⟨⟨t.not_mem_stem (by decide) (by decide), hsuffix spec hspec⟩, by decide⟩

/-- The places of the images of a stem that are drawn in the folder of a run: in the folder and, without
a stem, beside it. -/
def IsDrawn (folder beside : Place) (stem : String) (place : Place) : Prop :=
  place = folder ++ [stem ++ ".png"] ∨ (stem = "" ∧ place = beside)

variable {press : Press σ} {t : Template} {w : Workspace} {folder beside : Place}

/-- Images of different stems are drawn at different places. -/
theorem eq_of_isDrawn (hbeside : ¬Below folder beside) {a b : String} {place : Place}
    (ha : IsDrawn folder beside a place) (hb : IsDrawn folder beside b place) : a = b := by
  rcases ha with rfl | ⟨rfl, rfl⟩ <;> rcases hb with heq | ⟨rfl, heq⟩
  · have hnames := List.singleton_inj.1 (List.append_cancel_left heq)
    simpa [← String.toList_inj] using hnames
  · exact absurd (heq ▸ below_snoc _ _) hbeside
  · exact absurd (heq ▸ below_snoc _ _) hbeside
  · rfl

theorem eq_of_stem_append (t : Template) {spec other : RasterSpec} (hspec : spec ∈ resolutions)
    (hother : other ∈ resolutions) (h : t.stem ++ spec.suffix = t.stem ++ other.suffix) :
    spec = other :=
  ((fileName_inj (t := t) (u := t) hspec hother).1 (congrArg (· ++ ".png") h)).2

/-- The path of an image leads to where it is drawn. -/
theorem isDrawn_of_locate {files : Tree} (hfiles : files.HoldsFiles w.folder folder) {stem : String}
    (hslash : '/' ∉ stem.toList) (hdot : '.' ∉ stem.toList)
    (hbeside : stem = "" → files.locate true (w.image "") = .ok beside) {place : Place}
    (hlocate : files.locate true (w.image stem) = .ok place) : IsDrawn folder beside stem place := by
  by_cases hstem : stem = ""
  · subst hstem
    exact .inr ⟨rfl, Except.ok.inj (hlocate.symm.trans (hbeside rfl))⟩
  · rw [w.image_of_stem (mt String.toList_eq_nil_iff.1 hstem) hslash hdot] at hlocate
    exact .inl (locate_join hfiles.isRooted (.append hslash (by decide) (by decide)) hfiles.locate
      hfiles.isFolder (.inl (hfiles.link? _ (below_snoc _ _))) hlocate)

/-- What is rendered of a document is what the verdicts say, and can be read afterwards. The induction
is on the resolutions: later images have other stems than earlier ones. -/
theorem rasterizeAll_drawn {verdict : RasterVerdict} (hgoes : press.rasterizer.GoesBy verdict)
    {name : String} (hname : '/' ∉ name.toList) {document : ByteArray}
    {specs : List RasterSpec} (hspecs : specs ⊆ resolutions) (hdistinct : specs.Nodup)
    {s : Surroundings σ} (hs : s.files.HoldsFiles w.folder folder)
    (hdocument : s.files.read (w.file (name ++ ".pdf")) = .ok document)
    (hbeside : ¬Below folder beside)
    (hvacant : ∀ spec ∈ specs, t.stem ++ spec.suffix = "" → s.files.IsVacant (w.image "") beside) :
    match press.rasterizeAll w t.stem (w.file (name ++ ".pdf")) specs s with
    | (.error e, _) => ∃ cause, e = .raster cause ∧
      draw verdict document (!w.folder.overlong ·) t.stem specs = .error cause.anonymous
    | (.ok placements, s') => placements = specs.map (press.placement w t.stem) ∧
      s'.files.HoldsFiles w.folder folder ∧
      Edits (fun place => ∃ spec ∈ specs, IsDrawn folder beside (t.stem ++ spec.suffix) place) s.files
        s'.files ∧
      ∃ pictures, draw verdict document (!w.folder.overlong ·) t.stem specs = .ok pictures ∧
        ∀ picture ∈ pictures, s'.files.HasAt (w.image (t.stem ++ picture.1.suffix)) picture.2
          (IsDrawn folder beside (t.stem ++ picture.1.suffix)) := by
  induction specs generalizing s with
  | nil => exact ⟨rfl, hs, .refl _ _, [], rfl, List.forall_mem_nil _⟩
  | cons spec rest ih =>
    obtain ⟨hspec, hrest⟩ := List.cons_subset.1 hspecs
    obtain ⟨hnew, hdistinct⟩ := List.nodup_cons.1 hdistinct
    obtain ⟨hfree, hvacant⟩ := List.forall_mem_cons.1 hvacant
    have hproper := isProper_fileName t hspec
    have hslash := not_slash_mem_suffix t hspec
    have hdot := not_point_mem_suffix t hspec
    have hedits : Edits (IsDrawn folder beside (t.stem ++ spec.suffix)) s.files
        (press.rasterizer (w.file (name ++ ".pdf")) spec (w.file (t.stem ++ spec.suffix)) s).2.files := by
      refine (image_edits hgoes.writesImage hs.toIsPlainFolder hslash hdot _ spec).mono ?_
      rintro place (heq | ⟨hnone, hlocate⟩)
      · exact .inl heq
      · exact .inr ⟨hnone, Except.ok.inj (hlocate.symm.trans (hfree hnone).1)⟩
    have hlinks : ∀ place, IsDrawn folder beside (t.stem ++ spec.suffix) place →
        s.files.link? place = none := by
      rintro place (rfl | ⟨hnone, rfl⟩)
      · exact hs.link? _ (below_snoc _ _)
      · exact (hfree hnone).link?
    have hothers : ∀ other ∈ rest, t.stem ++ spec.suffix ≠ t.stem ++ other.suffix :=
      fun other hother heq => hnew (eq_of_stem_append t hspec (hrest hother) heq ▸ hother)
    have hanswer := hgoes.answers (w.file (name ++ ".pdf")) spec w folder (t.stem ++ spec.suffix)
      document s hs hdocument hproper hdot fun hnone => ⟨beside, hfree hnone⟩
    rw [rasterizeAll, Act.bind_apply, draw,
      show spec.fileName t.stem = t.stem ++ spec.suffix ++ ".png" from rfl]
    generalize press.rasterizer (w.file (name ++ ".pdf")) spec (w.file (t.stem ++ spec.suffix)) s =
      drawn at hanswer hedits ⊢
    obtain ⟨cause | image, s₁⟩ := drawn
    · exact ⟨cause, rfl, by rw [hanswer]⟩
    · obtain ⟨himage, picture, hverdict, hread⟩ := hanswer
      rw [himage] at hread ⊢
      have hs₁ := hs.of_edits hedits hlinks
      have hdocument₁ := hs.read_of_edits hedits hlinks (.append hname (by decide) (by decide)) (by
        rintro (heq | ⟨-, heq⟩)
        · exact not_isOwn_fileName t.stem spec
            ⟨name, ".pdf", by simp, (List.singleton_inj.1 (List.append_cancel_left heq)).symm⟩
        · exact hbeside (heq ▸ below_snoc _ _)) hdocument
      have hvacant₁ : ∀ other ∈ rest, t.stem ++ other.suffix = "" →
          s₁.files.IsVacant (w.image "") beside := fun other hother hnone =>
        (hvacant other hother hnone).of_edits hedits
          (fun hdrawn => hothers other hother (eq_of_isDrawn hbeside hdrawn (.inr ⟨hnone, rfl⟩))) hlinks
      have hthere : s₁.files.HasAt (w.image (t.stem ++ spec.suffix)) picture
          (IsDrawn folder beside (t.stem ++ spec.suffix)) := by
        obtain ⟨place, modified, hlocate, hleaf⟩ := read_eq_ok.1 hread
        refine ⟨place, modified, hlocate, hleaf, isDrawn_of_locate hs₁ hslash hdot (fun hnone => ?_) hlocate⟩
        exact (locate_iff hedits.home hedits.folderAt (hedits.link?_eq hlinks)).2 (hfree hnone).1
      have hlater := ih hrest hdistinct hs₁ hdocument₁ hvacant₁
      rw [hverdict]
      dsimp only
      rw [Act.bind_apply]
      generalize press.rasterizeAll w t.stem (w.file (name ++ ".pdf")) rest s₁ = done at hlater ⊢
      obtain ⟨e | placements, s₂⟩ := done
      · obtain ⟨cause, rfl, hcause⟩ := hlater
        exact ⟨cause, rfl, by rw [hcause]⟩
      · obtain ⟨rfl, hs₂, hlaterEdits, pictures, hpictures, himages⟩ := hlater
        rw [hpictures]
        refine ⟨rfl, hs₂, ?_, _, rfl, List.forall_mem_cons.2 ⟨hthere.of_edits hlaterEdits ?_ ?_, himages⟩⟩
        · refine (hedits.mono fun place hdrawn => ⟨spec, List.mem_cons_self, hdrawn⟩).trans
            (hlaterEdits.mono ?_)
          rintro place ⟨other, hother, hdrawn⟩
          exact ⟨other, List.mem_cons_of_mem _ hother, hdrawn⟩
        · rintro place ⟨other, hother, hdrawn⟩ hfirst
          exact hothers other hother (eq_of_isDrawn hbeside hfirst hdrawn)
        · rintro place ⟨other, hother, rfl | ⟨hnone, rfl⟩⟩
          · exact hs₁.link? _ (below_snoc _ _)
          · exact (hvacant₁ other hother hnone).link?

end Press

/-! ### Publication -/

/-- The place of a thumbnail. -/
def spot (root : Place) (t : Template) (spec : RasterSpec) : Place :=
  root ++ Config.thumbnailWay ++ [spec.fileName t.stem]

theorem inFolder_spot (root : Place) (t : Template) (spec : RasterSpec) :
    InFolder root Config.thumbnailWay (spot root t spec) :=
  ⟨_, rfl⟩

/-- The place where the image for a thumbnail is staged. -/
def stagingSpot (root : Place) (t : Template) (token : String) (spec : RasterSpec) : Place :=
  root ++ Config.thumbnailWay ++ [Press.stagingName (spec.fileName t.stem) token]

theorem inFolder_stagingSpot (root : Place) (t : Template) (token : String) (spec : RasterSpec) :
    InFolder root Config.thumbnailWay (stagingSpot root t token spec) :=
  ⟨_, rfl⟩

namespace Config

theorem isProper_ways : ∀ names ∈ ways, ∀ name ∈ names, Path.IsProper name := by
  have hnul : ∀ names ∈ ways, ∀ name ∈ names, '\x00' ∉ name.toList := by decide
  exact fun names hnames name hname =>
    ⟨(isPlain_ways names hnames name hname).1, hnul names hnames name hname⟩

theorem size_ways : ∀ names ∈ ways, ∀ name ∈ names, name.utf8ByteSize ≤ 255 :=
  fun names hnames name hname => (isPlain_ways names hnames name hname).2

end Config

namespace Files.Tree

variable {t t' : Tree} {altered : Place → Prop} {base : Path} {root : Place} {tmpl : Template}
  {token : String}

/-- A tree with a folder for thumbnails, in which no folders are where those of a template or what is
staged for them would be. -/
structure IsGallery (t : Tree) (base : Path) (root : Place) (tmpl : Template) (token : String) :
    Prop where
  folder : t.HasFolder base root Config.thumbnailWay
  isFolder : t.folderAt (root ++ Config.thumbnailWay) = true
  target : ∀ spec ∈ Press.resolutions, t.folderAt (spot root tmpl spec) = false
  staging : ∀ spec ∈ Press.resolutions, t.folderAt (stagingSpot root tmpl token spec) = false

theorem IsGallery.locate (h : t.IsGallery base root tmpl token) {name : String}
    (hname : Path.IsProper name) (hshort : (base.below Config.thumbnailWay).overlong name = false)
    (followLast : Bool) : t.locate followLast ((base.below Config.thumbnailWay).join name) =
      .ok (root ++ Config.thumbnailWay ++ [name]) := by
  rw [h.folder.locate_in (Config.isProper_ways _ Config.thumbnailWay_mem) (Config.size_ways _ Config.thumbnailWay_mem) h.isFolder hname
    (.inl (h.folder.inside name)), hshort, if_neg Bool.false_ne_true]

theorem IsGallery.of_edits (h : t.IsGallery base root tmpl token) (hedits : Edits altered t t')
    (haltered : ∀ place, altered place → InFolder root Config.thumbnailWay place) :
    t'.IsGallery base root tmpl token where
  folder := by
    have hchanges : Changes (fun _ => False) altered (fun _ => False) t t' := by
      refine hedits.changes fun place hplace => ?_
      obtain ⟨name, rfl⟩ := haltered place hplace
      exact h.folder.inside name
    exact h.folder.of_spares hchanges.toSpares nofun
  isFolder := by
    rw [hedits.folderAt]
    exact h.isFolder
  target := by
    rw [hedits.folderAt]
    exact h.target
  staging := by
    rw [hedits.folderAt]
    exact h.staging

end Files.Tree

namespace Press

section Publication

variable {press : Press σ} {t : Template} {w : Workspace} {base : Path} {root : Place}
  {pictures : List (RasterSpec × ByteArray)} {s : Surroundings σ}

theorem not_mem_token {token : String} (htoken : ∀ c ∈ token.toList, c.isAlphanum = true ∨ c = '-')
    {c : Char} (hc : c.isAlphanum = false) (hne : c ≠ '-') : c ∉ token.toList := by
  intro hmem
  rcases htoken c hmem with halpha | rfl
  · rw [hc] at halpha
    cases halpha
  · exact hne rfl

theorem isProper_stagingName (t : Template) {spec : RasterSpec} (hspec : spec ∈ resolutions)
    {token : String} (htoken : ∀ c ∈ token.toList, c.isAlphanum = true ∨ c = '-') :
    Path.IsProper (stagingName (spec.fileName t.stem) token) := by
  have hname := isProper_fileName t hspec
  refine ⟨isPlain_stagingName hname.noSlash (not_mem_token htoken (by decide) (by decide)), ?_⟩
  simp only [stagingName, String.toList_append, List.mem_append, not_or]
  exact ⟨⟨⟨hname.noNul, by decide⟩, not_mem_token htoken (by decide) (by decide)⟩, by decide⟩

theorem overlong_of_stagingName {p : Path} {name token : String}
    (hname : '/' ∉ (stagingName name token).toList) (hshort : p.overlong (stagingName name token) = false) :
    p.overlong name = false := by
  have heq : stagingName name token = name ++ ("." ++ token ++ ".tmp") := by
    simp only [stagingName, String.append_assoc]
  rw [heq] at hname hshort
  exact Path.overlong_of_append hname hshort

theorem stagingSpot_inj {token : String} {spec other : RasterSpec} (hspec : spec ∈ resolutions)
    (hother : other ∈ resolutions) (h : stagingSpot root t token spec = stagingSpot root t token other) :
    spec = other := by
  have hnames := List.singleton_inj.1 (List.append_cancel_left h)
  simp only [stagingName, ← String.toList_inj, String.toList_append, List.append_left_inj] at hnames
  exact ((fileName_inj hspec hother).1 (String.toList_inj.1 hnames)).2

theorem spot_inj {spec other : RasterSpec} (hspec : spec ∈ resolutions)
    (hother : other ∈ resolutions) (h : spot root t spec = spot root t other) : spec = other :=
  ((fileName_inj hspec hother).1 (List.singleton_inj.1 (List.append_cancel_left h))).2

theorem spot_ne_stagingSpot (t u : Template) (token : String) (spec other : RasterSpec) :
    spot root t spec ≠ stagingSpot root u token other := fun h =>
  not_isOwn_fileName t.stem spec
    (List.singleton_inj.1 (List.append_cancel_left h) ▸ isOwn_stagingName _ token)

/-- Paths are those of the thumbnails of a template, which are staged beside them. -/
structure Publishes (target : RasterSpec → Path) (t : Template) (base : Path) (token : String) :
    Prop where
  chars : ∀ c ∈ token.toList, c.isAlphanum = true ∨ c = '-'
  thumbnail : ∀ spec ∈ resolutions,
    target spec = (base.below Config.thumbnailWay).join (spec.fileName t.stem)
  staged : ∀ spec ∈ resolutions, staging (target spec) token =
    (base.below Config.thumbnailWay).join (stagingName (spec.fileName t.stem) token)

variable {image target : RasterSpec → Path} {token : String}
  (hpaths : Publishes target t base token)
  (hspecs : ∀ picture ∈ pictures, picture.1 ∈ resolutions)
  (hdistinct : (pictures.map Prod.fst).Nodup)
include hpaths hspecs hdistinct

/-- All pictures are staged unless the name of one is too long. The induction is on the pictures. -/
theorem stageAll_drawn (hs : s.files.IsGallery base root t token)
    (himages : ∀ picture ∈ pictures,
      s.files.HasAt (image picture.1) picture.2 fun place => ¬InFolder root Config.thumbnailWay place)
    (staged : List Path) :
    (∃ s', stageAll token (pictures.map fun picture => ⟨image picture.1, target picture.1⟩) staged s =
        (.error .nameTooLong, s') ∧
      ∃ picture ∈ pictures, (base.below Config.thumbnailWay).overlong
        (stagingName (picture.1.fileName t.stem) token) = true) ∨
    (∃ s', stageAll token (pictures.map fun picture => ⟨image picture.1, target picture.1⟩) staged s =
        (.ok (), s') ∧
      (∀ picture ∈ pictures, (base.below Config.thumbnailWay).overlong
        (stagingName (picture.1.fileName t.stem) token) = false) ∧
      Edits (fun place => ∃ picture ∈ pictures, place = stagingSpot root t token picture.1)
        s.files s'.files ∧
      ∀ picture ∈ pictures, ∃ modified,
        s'.files.leaf? (stagingSpot root t token picture.1) = some ⟨.file picture.2, modified⟩) := by
  induction pictures generalizing s staged with
  | nil => exact .inr ⟨s, rfl, nofun, .refl _ _, nofun⟩
  | cons picture rest ih =>
    obtain ⟨hspec, hrest⟩ := List.forall_mem_cons.1 hspecs
    obtain ⟨hnew, hdistinct⟩ := List.nodup_cons.1 hdistinct
    obtain ⟨himage, himages⟩ := List.forall_mem_cons.1 himages
    have hcases := hs.folder.write_cases (Config.isProper_ways _ Config.thumbnailWay_mem) (Config.size_ways _ Config.thumbnailWay_mem)
      hs.isFolder (isProper_stagingName t hspec hpaths.chars) (hs.staging _ hspec) s.now picture.2
    rw [← hpaths.staged _ hspec] at hcases
    rw [List.map_cons, stageAll_cons_apply, copy_of_read himage.read]
    rcases hcases with ⟨hlong, hwrite⟩ | ⟨hlong, files, hwrite, hsets⟩ <;> rw [hwrite]
    · exact .inl ⟨_, rfl, picture, List.mem_cons_self, hlong⟩
    · have hedits : Edits (· = stagingSpot root t token picture.1) s.files files :=
        hsets.edits rfl (by simp [Entry.target?])
      have hin : ∀ place, place = stagingSpot root t token picture.1 →
          InFolder root Config.thumbnailWay place := fun place heq => ⟨_, heq⟩
      have himagesNext : ∀ other ∈ rest, files.HasAt (image other.1) other.2
          (fun place => ¬InFolder root Config.thumbnailWay place) := fun other hother =>
        (himages other hother).of_edits hedits (fun place heq hnot => hnot (hin place heq)) (by
          rintro place rfl
          exact hs.folder.inside _)
      rcases ih hrest hdistinct (s := { s with files := files }) (hs.of_edits hedits hin) himagesNext
        (staged ++ [staging (target picture.1) token]) with
        ⟨s', hdone, other, hother, hlong⟩ | ⟨s', hdone, hshort, hothers, hstaged⟩
      · exact .inl ⟨s', hdone, other, List.mem_cons_of_mem _ hother, hlong⟩
      · refine .inr ⟨s', hdone, List.forall_mem_cons.2 ⟨hlong, hshort⟩, ?_,
          List.forall_mem_cons.2 ⟨⟨s.now, ?_⟩, hstaged⟩⟩
        · refine (hedits.mono fun place heq => ⟨picture, List.mem_cons_self, heq⟩).trans
            (hothers.mono ?_)
          rintro place ⟨other, hother, heq⟩
          exact ⟨other, List.mem_cons_of_mem _ hother, heq⟩
        · refine (hothers.leaf _ ?_).trans hsets.leaf_self
          rintro ⟨other, hother, heq⟩
          exact hnew (stagingSpot_inj hspec (hrest other hother) heq ▸ List.mem_map_of_mem hother)

omit hspecs hdistinct in
/-- A picture that is staged is put in place. -/
theorem rename_drawn {spec : RasterSpec} (hspec : spec ∈ resolutions)
    (hs : s.files.IsGallery base root t token)
    (hshort : (base.below Config.thumbnailWay).overlong (stagingName (spec.fileName t.stem) token) = false)
    {bytes : ByteArray} {modified : Instant}
    (hstaged : s.files.leaf? (stagingSpot root t token spec) = some ⟨.file bytes, modified⟩) :
    ∃ files, s.files.rename s.now (staging (target spec) token) (target spec) = .ok files ∧
      Edits (fun place => place = spot root t spec ∨ place = stagingSpot root t token spec)
        s.files files ∧
      files.leaf? (spot root t spec) = some ⟨.file bytes, modified⟩ := by
  have hproper := isProper_stagingName t hspec hpaths.chars
  have hold := hs.locate hproper hshort false
  have htarget := hs.locate (isProper_fileName t hspec)
    (overlong_of_stagingName hproper.noSlash hshort) false
  rw [← hpaths.staged _ hspec] at hold
  rw [← hpaths.thumbnail _ hspec] at htarget
  obtain ⟨files, hrename⟩ := rename_isOk s.now hold hstaged htarget (hs.target _ hspec)
  obtain ⟨old, node, new, hfound, hnode, hplaced, hmoved⟩ := rename_sets hs.folder.isRooted hrename
  obtain rfl := Except.ok.inj (hold.symm.trans hfound)
  obtain rfl := Except.ok.inj (htarget.symm.trans hplaced)
  obtain rfl := Option.some.inj (hstaged.symm.trans hnode)
  obtain ⟨-, mid, hgone, hput⟩ := hmoved.resolve_left fun hsame =>
    spot_ne_stagingSpot t t token spec spec hsame.1
  exact ⟨files, hrename, (hgone.edits (.inr rfl) (by simp)).trans
    (hput.edits (.inl rfl) (by simp [Entry.target?])), hput.leaf_self⟩

/-- All pictures that are staged are put in place. The induction is on the pictures: each is moved from
its own staging place to its own place. -/
theorem placeAll_drawn (hs : s.files.IsGallery base root t token)
    (hshort : ∀ picture ∈ pictures, (base.below Config.thumbnailWay).overlong
      (stagingName (picture.1.fileName t.stem) token) = false)
    (hstaged : ∀ picture ∈ pictures, ∃ modified,
      s.files.leaf? (stagingSpot root t token picture.1) = some ⟨.file picture.2, modified⟩) :
    ∃ s', placeAll token (pictures.map fun picture => ⟨image picture.1, target picture.1⟩) s =
        (.ok (), s') ∧
      Edits (fun place => ∃ picture ∈ pictures,
        place = spot root t picture.1 ∨ place = stagingSpot root t token picture.1)
        s.files s'.files ∧
      ∀ picture ∈ pictures, ∃ modified,
        s'.files.leaf? (spot root t picture.1) = some ⟨.file picture.2, modified⟩ := by
  induction pictures generalizing s with
  | nil => exact ⟨s, rfl, .refl _ _, nofun⟩
  | cons picture rest ih =>
    obtain ⟨hspec, hrest⟩ := List.forall_mem_cons.1 hspecs
    obtain ⟨hnew, hdistinct⟩ := List.nodup_cons.1 hdistinct
    obtain ⟨hfits, hshort⟩ := List.forall_mem_cons.1 hshort
    obtain ⟨⟨modified, hleaf⟩, hstaged⟩ := List.forall_mem_cons.1 hstaged
    obtain ⟨files, hrename, hedits, hshown⟩ := rename_drawn hpaths hspec hs hfits hleaf
    have hapart : ∀ other ∈ rest, picture.1 ≠ other.1 := fun other hother heq =>
      hnew (heq ▸ List.mem_map_of_mem hother)
    have hin : ∀ place, place = spot root t picture.1 ∨ place = stagingSpot root t token picture.1 →
        InFolder root Config.thumbnailWay place := by
      rintro place (heq | heq) <;> exact ⟨_, heq⟩
    have hstagedNext : ∀ other ∈ rest, ∃ modified,
        files.leaf? (stagingSpot root t token other.1) = some ⟨.file other.2, modified⟩ := by
      intro other hother
      obtain ⟨modified, hthere⟩ := hstaged other hother
      refine ⟨modified, (hedits.leaf _ ?_).trans hthere⟩
      rintro (heq | heq)
      · exact spot_ne_stagingSpot t t token picture.1 other.1 heq.symm
      · exact hapart other hother (stagingSpot_inj hspec (hrest other hother) heq.symm)
    obtain ⟨s', hdone, hothers, hshownLater⟩ := ih hrest hdistinct (s := { s with files := files })
      (hs.of_edits hedits hin) hshort hstagedNext
    rw [List.map_cons, placeAll_cons_apply, hrename]
    refine ⟨s', hdone, ?_, List.forall_mem_cons.2 ⟨⟨modified, ?_⟩, hshownLater⟩⟩
    · refine (hedits.mono fun place heq => ⟨picture, List.mem_cons_self, heq⟩).trans (hothers.mono ?_)
      rintro place ⟨other, hother, heq⟩
      exact ⟨other, List.mem_cons_of_mem _ hother, heq⟩
    · refine (hothers.leaf _ ?_).trans hshown
      rintro ⟨other, hother, heq | heq⟩
      · exact hapart other hother (spot_inj hspec (hrest other hother) heq)
      · exact spot_ne_stagingSpot t t token picture.1 other.1 heq

variable (image) in
/-- The pictures of a template are published, or the name of one is too long and its thumbnails stay
what they are. -/
theorem publish_drawn (hs : s.files.IsGallery base root t token)
    (himages : ∀ picture ∈ pictures,
      s.files.HasAt (image picture.1) picture.2 fun place => ¬InFolder root Config.thumbnailWay place) :
    (∃ s', publish (pictures.map fun picture => ⟨image picture.1, target picture.1⟩) token s =
        (.error .nameTooLong, s') ∧
      (∃ picture ∈ pictures, (base.below Config.thumbnailWay).overlong
        (stagingName (picture.1.fileName t.stem) token) = true) ∧
      ∀ spec, s'.files.leaf? (spot root t spec) = s.files.leaf? (spot root t spec)) ∨
    (∃ s', publish (pictures.map fun picture => ⟨image picture.1, target picture.1⟩) token s =
        (.ok (), s') ∧
      (∀ picture ∈ pictures, (base.below Config.thumbnailWay).overlong
        (stagingName (picture.1.fileName t.stem) token) = false) ∧
      ∀ picture ∈ pictures, ∃ modified,
        s'.files.leaf? (spot root t picture.1) = some ⟨.file picture.2, modified⟩) := by
  rw [publish_apply]
  rcases stageAll_drawn hpaths hspecs hdistinct hs himages [] with
    ⟨s', hdone, hlong⟩ | ⟨staged, hdone, hshort, hedits, hstaged⟩
  · have hstaging : ∀ p ∈ pictures.map fun picture => Placement.mk (image picture.1) (target picture.1),
        ∀ place, s.files.locate false (staging p.target token) = .ok place →
          (∃ spec, place = stagingSpot root t token spec) ∧ s.files.link? place = none := by
      intro p hp place hplace
      obtain ⟨picture, hpicture, rfl⟩ := List.mem_map.1 hp
      rw [hpaths.staged _ (hspecs picture hpicture)] at hplace
      obtain rfl := hs.folder.locate_eq
        (isProper_stagingName t (hspecs picture hpicture) hpaths.chars).toIsPlain hplace
      exact ⟨⟨picture.1, rfl⟩, hs.folder.inside _⟩
    have hedits := stageAll_keeps (σ := σ) hs.folder.isRooted hstaging (List.forall_mem_nil _) s
      (.refl _ _)
    rw [hdone] at hedits ⊢
    refine .inl ⟨s', rfl, hlong, fun spec => hedits.leaf _ ?_⟩
    rintro ⟨other, heq⟩
    exact spot_ne_stagingSpot t t token spec other heq
  · have hin : ∀ place, (∃ picture ∈ pictures, place = stagingSpot root t token picture.1) →
        InFolder root Config.thumbnailWay place := by
      rintro place ⟨picture, -, heq⟩
      exact ⟨_, heq⟩
    obtain ⟨s', hplaced, -, hshown⟩ := placeAll_drawn hpaths hspecs hdistinct
      (hs.of_edits hedits hin) hshort hstaged
    rw [hdone]
    exact .inr ⟨s', hplaced, hshort, hshown⟩

end Publication

end Press

end ResumePress
