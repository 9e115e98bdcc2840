import ResumePress.Proofs.Files.Spots
import ResumePress.Proofs.Thumbnails

/-!
What calls leave behind. In the usual layout of its folders the press removes the folder of every
run, on every way out; beside it stays at most the log that the error names and, of a template
without an id, an image. A call that fails leaves the cache as it is, and a document leaves the
thumbnails as they are.
-/

namespace ResumePress

open Files Files.Tree

variable {σ : Type}

/-! ### The layout -/

namespace Config

-- The ways from the base to the folders of runs, of logs, of thumbnails and of cached documents.
def tempWay : List String := ["temp"]

def logWay : List String := ["temp", "logs"]

def thumbnailWay : List String := ["public", "templates", "thumbnails"]

def cacheWay : List String := [".cache", "latex-previews"]

/-- The ways to the folders that files are written to outside of runs. -/
def ways : List (List String) := [logWay, thumbnailWay, cacheWay]

theorem logWay_mem : logWay ∈ ways := by simp [ways]

theorem thumbnailWay_mem : thumbnailWay ∈ ways := by simp [ways]

theorem cacheWay_mem : cacheWay ∈ ways := by simp [ways]

theorem isPlain_ways : ∀ names ∈ ways, ∀ name ∈ names,
    Path.IsPlain name ∧ name.utf8ByteSize ≤ 255 := by
  have hall : ∀ names ∈ ways, ∀ name ∈ names, '/' ∉ name.toList ∧
      Path.isVoid name.toList = false ∧ name.toList ≠ ['.', '.'] ∧ name.utf8ByteSize ≤ 255 := by
    decide
  intro names hnames name hname
  obtain ⟨hslash, hvoid, hup, hshort⟩ := hall names hnames name hname
  exact ⟨⟨hslash, hvoid, hup⟩, hshort⟩

theorem thumbnails_rootedAt (base : Path) : (rootedAt base).thumbnails = base.below thumbnailWay := by
  have hpublic := (isPlain_ways _ thumbnailWay_mem "public" (by simp [thumbnailWay])).1
  have htemplates := (isPlain_ways _ thumbnailWay_mem "templates" (by simp [thumbnailWay])).1
  change base.join ("public" ++ "/" ++ "templates/thumbnails") =
    ((base.join "public").join "templates").join "thumbnails"
  rw [← Path.join_join hpublic (by decide), Path.join_join htemplates (by decide)]
  rfl

theorem cache_rootedAt (base : Path) : (rootedAt base).cache = base.below cacheWay := by
  have hcache := (isPlain_ways _ cacheWay_mem ".cache" (by simp [cacheWay])).1
  exact (Path.join_join (b := "latex-previews") hcache (by decide)).symm

end Config

/-- A press whose folders are those below a base. -/
structure Press.IsLaidOut (press : Press σ) (base : Path) : Prop where
  temp : press.config.temp = (Config.rootedAt base).temp
  logs : press.compiler.logFolder = (Config.rootedAt base).temp.join Sweep.logFolder
  thumbnails : press.config.thumbnails = (Config.rootedAt base).thumbnails
  cache : press.cache.folder = (Config.rootedAt base).cache

/-- A tree with a folder at the base, from which no links are on the ways to the folders that the
press writes files to, and none in these. -/
structure Files.Tree.IsSite (t : Tree) (base : Path) (root : Place) : Prop where
  isRooted : t.IsRooted
  locate : t.locate true base = .ok root
  isFolder : t.folderAt root = true
  link? : ∀ names ∈ Config.ways, ∀ passed, passed <+: names → t.link? (root ++ passed) = none
  inside : ∀ names ∈ Config.ways, ∀ name, t.link? (root ++ names ++ [name]) = none

namespace Files.Tree.IsSite

variable {t t' : Tree} {base : Path} {root : Place} {region altered : Place → Prop}

theorem hasFolder (h : t.IsSite base root) {names : List String} (hnames : names ∈ Config.ways) :
    t.HasFolder base root names where
  isRooted := h.isRooted
  locate := h.locate
  isFolder := h.isFolder
  isPlain := fun name hname => (Config.isPlain_ways names hnames name hname).1
  link? := h.link? names hnames
  nonempty := by
    rintro rfl
    revert hnames
    decide
  inside := h.inside names hnames

theorem of_spares (h : t.IsSite base root) (hs : Spares region altered t t')
    (hempty : ∀ place, region place → t.get? place = none) : t'.IsSite base root where
  isRooted := hs.isRooted h.isRooted
  locate := ((h.hasFolder Config.logWay_mem).of_spares hs hempty).locate
  isFolder := ((h.hasFolder Config.logWay_mem).of_spares hs hempty).isFolder
  link? := fun names hnames passed hpassed => hs.link?_eq_none (h.link? names hnames passed hpassed)
  inside := fun names hnames name => hs.link?_eq_none (h.inside names hnames name)

end Files.Tree.IsSite

/-- A tree with a folder at the base, from which no links are on the ways to the folders of logs and of
thumbnails, and none in these. -/
structure Files.Tree.IsWorkplace (t : Tree) (base : Path) (root : Place) : Prop where
  logs : t.HasFolder base root Config.logWay
  thumbnails : t.HasFolder base root Config.thumbnailWay

theorem Files.Tree.IsSite.isWorkplace {t : Tree} {base : Path} {root : Place} (h : t.IsSite base root) :
    t.IsWorkplace base root :=
  ⟨h.hasFolder Config.logWay_mem, h.hasFolder Config.thumbnailWay_mem⟩

namespace Files.Tree.IsWorkplace

variable {t t' : Tree} {base : Path} {root : Place} {region altered : Place → Prop}

theorem isRooted (h : t.IsWorkplace base root) : t.IsRooted := h.logs.isRooted

theorem of_spares (h : t.IsWorkplace base root) (hs : Spares region altered t t')
    (hempty : ∀ place, region place → t.get? place = none) : t'.IsWorkplace base root :=
  ⟨h.logs.of_spares hs hempty, h.thumbnails.of_spares hs hempty⟩

theorem of_within (h : t.IsWorkplace base root) (hwithin : Within region t t')
    (hempty : ∀ place, region place → t.get? place = none) : t'.IsWorkplace base root :=
  h.of_spares (hwithin.spares : Spares region (fun _ => False) t t') hempty

theorem of_grown (h : t.IsWorkplace base root) (hgrown : Grown t t') : t'.IsWorkplace base root :=
  h.of_spares (hgrown.spares : Spares (fun _ => False) (fun _ => False) t t') nofun

end Files.Tree.IsWorkplace

/-- A rasterizer that changes no more than the image of the stem it is given. -/
def Rasterizer.WritesImage (rasterizer : Rasterizer σ) : Prop :=
  ∀ (document : Path) (spec : RasterSpec) (stem : Path) (s : Surroundings σ), s.files.IsRooted →
    Edits (fun place => ∃ image ∈ [Path.mk (stem.text ++ ".png"), stem.withExtension "png"],
      s.files.locate true image = .ok place) s.files (rasterizer document spec stem s).2.files

/-- The log of a result, if it is an error that names one. -/
def Press.log? {α : Type} : Except PressError α → Option Path
  | .ok _ => none
  | .error e => e.log?

/-- The place of a log that is kept in the folder of logs. -/
def IsLog (base : Path) (root : Place) (log : Option Path) (place : Place) : Prop :=
  ∃ name, log = some ((base.below Config.logWay).join name) ∧
    place = root ++ Config.logWay ++ [name]

theorem IsLog.inFolder {base : Path} {root : Place} {log : Option Path} {place : Place}
    (h : IsLog base root log place) : InFolder root Config.logWay place := by
  obtain ⟨name, -, rfl⟩ := h
  exact ⟨name, rfl⟩

/-- The place of a thumbnail of a template, or of what is staged for one. -/
def IsImage (root : Place) (t : Template) (place : Place) : Prop :=
  ∃ spec ∈ Press.resolutions, ∃ name, place = root ++ Config.thumbnailWay ++ [name] ∧
    (name = spec.fileName t.stem ∨ ∃ token, name = Press.stagingName (spec.fileName t.stem) token)

theorem IsImage.inFolder {root : Place} {t : Template} {place : Place} (h : IsImage root t place) :
    InFolder root Config.thumbnailWay place := by
  obtain ⟨spec, -, name, heq, -⟩ := h
  exact ⟨name, heq⟩

/-- The path of the image of a stem in the folder of a run. Without a stem it is beside the folder. -/
def Workspace.image (w : Workspace) (stem : String) : Path :=
  (w.file stem).withExtension "png"

/-- The places of images beside the folders of runs. -/
def IsBeside (root place : Place) : Prop :=
  ∃ name, place = root ++ Config.tempWay ++ [name ++ ".png"]

theorem IsBeside.isOff_thumbnails {root place : Place} (h : IsBeside root place) :
    IsOff root Config.thumbnailWay place := by
  obtain ⟨name, rfl⟩ := h
  have hruns : root ++ Config.tempWay <+: root ++ Config.tempWay ++ [name ++ ".png"] :=
    List.prefix_append _ _
  exact isOff_of_inside (by decide) hruns

theorem IsBeside.not_onWay_logs {root place : Place} (h : IsBeside root place) :
    ¬OnWay root Config.logWay place := by
  obtain ⟨name, rfl⟩ := h
  rintro ⟨passed, -, hpassed, heq⟩
  rw [List.append_assoc] at heq
  obtain rfl := List.append_cancel_left heq
  have hlast : name ++ ".png" = "logs" := by
    simpa [Config.tempWay, Config.logWay] using hpassed
  have hends := congrArg (fun text => text.toList.getLast?) hlast
  simp at hends

/-- The place of an image that a run of a template without an id leaves behind. -/
def IsStray (root : Place) (t : Template) (place : Place) : Prop :=
  t.id = "" ∧ IsBeside root place

/-- The folder of a run is one of the folders of runs, and no image is beside it. -/
structure Workspace.LeavesRoom (w : Workspace) (above : Path) (root : Place) (name : String)
    (t : Tree) : Prop where
  way : t.HasWay above root Config.tempWay
  folder : w.folder = (above.below Config.tempWay).join name
  isProper : Path.IsProper name
  noPoint : '.' ∉ name.toList
  short : (name ++ ".png").utf8ByteSize ≤ 255
  free : t.get? (root ++ Config.tempWay ++ [name ++ ".png"]) = none

/-! ### In the folder of a run -/

section Run

variable {press : Press σ} {w : Workspace} {folder root : Place} {base above : Path} {t : Tree}
  {name : String}

theorem Workspace.image_of_stem (w : Workspace) (hname : name.toList ≠ [])
    (hslash : '/' ∉ name.toList) (hdot : '.' ∉ name.toList) : w.image name = w.file (name ++ ".png") := by
  rw [image, file, Path.withExtension_join hname hslash hdot (by decide), String.append_assoc]
  rfl

namespace Workspace.LeavesRoom

variable (h : w.LeavesRoom above root name t)
include h

theorem isProper_image : Path.IsProper (name ++ ".png") := by
  refine ⟨.append h.isProper.noSlash (by decide) (by decide), ?_⟩
  simp only [String.toList_append, List.mem_append, not_or]
  exact ⟨h.isProper.noNul, by decide⟩

theorem image_eq : w.image "" = (above.below Config.tempWay).join (name ++ ".png") := by
  rw [image, file, h.folder, Path.withExtension_join_slash h.isProper.ne_nil h.isProper.noSlash h.noPoint
    (by decide), String.append_assoc]
  rfl

/-- An image without a stem is beside the folder, whatever has been done in the folder. -/
theorem place_eq {region altered : Place → Prop} {t' : Tree} (hs : Spares region altered t t')
    (hempty : ∀ place, region place → t.get? place = none) {place : Place}
    (hlocate : t'.locate true (w.image "") = .ok place) :
    place = root ++ Config.tempWay ++ [name ++ ".png"] ∧ t'.link? place = none := by
  have hlink : t'.link? (root ++ Config.tempWay ++ [name ++ ".png"]) = none := by
    refine hs.link?_eq_none ?_
    rw [Tree.link?, (get?_eq_none.1 h.free).1]
    rfl
  have hway := (h.way.of_spares hs hempty).snoc h.isProper_image.toIsPlain hlink
  rw [h.image_eq, ← Path.below_snoc] at hlocate
  obtain rfl := hway.locate_eq (List.concat_ne_nil _ _) hlocate
  rw [← List.append_assoc]
  exact ⟨rfl, hlink⟩

end Workspace.LeavesRoom

/-- An image that is drawn in a folder without links is the one file that changes, but for one of its
name in the folder if it is drawn beside the folder. -/
theorem image_edits {rasterizer : Rasterizer σ} (hrasterizer : rasterizer.WritesImage)
    {s : Surroundings σ} (hplain : s.files.IsPlainFolder w.folder folder)
    (hslash : '/' ∉ name.toList) (hdot : '.' ∉ name.toList) (document : Path) (spec : RasterSpec) :
    Edits (fun place => place = folder ++ [name ++ ".png"] ∨
        (name = "" ∧ s.files.locate true (w.image "") = .ok place))
      s.files (rasterizer document spec (w.file name) s).2.files := by
  have hinside : ∀ place, s.files.locate true (w.file (name ++ ".png")) = .ok place →
      place = folder ++ [name ++ ".png"] := fun place hlocate =>
    locate_join hplain.isRooted (.append hslash (by decide) (by decide)) hplain.locate hplain.isFolder
      (.inl (hplain.link? _ (below_snoc _ _))) hlocate
  refine (hrasterizer document spec (w.file name) s hplain.isRooted).mono ?_
  rintro place ⟨image, himage, hlocate⟩
  rcases List.mem_pair.1 himage with rfl | rfl
  · rw [Workspace.file, Path.mk_text_append hslash (by decide)] at hlocate
    exact .inl (hinside place hlocate)
  · by_cases hname : name = ""
    · subst hname
      exact .inr ⟨rfl, hlocate⟩
    · have himage : (w.file name).withExtension "png" = w.file (name ++ ".png") :=
        w.image_of_stem (mt String.toList_eq_nil_iff.1 hname) hslash hdot
      exact .inl (hinside place (himage ▸ hlocate))

theorem image_keeps (hopen : w.IsOpen folder t) {rasterizer : Rasterizer σ}
    (hrasterizer : rasterizer.WritesImage) {tmpl : Template}
    (hroom : tmpl.id = "" → ∃ above name, w.LeavesRoom above root name t) {spec : RasterSpec}
    (hspec : spec ∈ Press.resolutions) (document : Path) :
    Act.Keeps (Changes (Below folder) (IsStray root tmpl) (fun _ => False) t)
      (rasterizer document spec (w.file (tmpl.stem ++ spec.suffix))) := by
  intro s hs
  have hedits := image_edits hrasterizer (isPlainFolder_of_spares hopen hs.toSpares)
    (Press.not_slash_mem_suffix tmpl hspec) (Press.not_point_mem_suffix tmpl hspec) document spec
  refine hs.trans (hedits.changes_of ?_)
  rintro place (rfl | ⟨hname, hlocate⟩)
  · exact .inl (below_snoc _ _)
  · have hid := tmpl.id_eq_empty hname
    obtain ⟨above, name, hroom⟩ := hroom hid
    obtain ⟨rfl, hlink⟩ := hroom.place_eq hs.toSpares hopen.empty hlocate
    exact .inr ⟨⟨hid, name, rfl⟩, hlink⟩

/-- A log that is kept is the one new file in the folder of logs. -/
theorem keepLog_changes {s : Surroundings σ} (h : s.files.HasFolder base root Config.logWay)
    {tag : String} (hname : Path.IsPlain (tag ++ ".log")) (log : String) (region : Place → Prop) :
    Changes region (fun place => IsLog base root
        (Attempts.keepLog (base.below Config.logWay) tag log s).1 place ∧
          place = root ++ Config.logWay ++ [tag ++ ".log"])
      (OnWay root Config.logWay) s.files
      (Attempts.keepLog (base.below Config.logWay) tag log s).2.files := by
  have hmade : Changes region (fun _ => False) (OnWay root Config.logWay) s.files
      (s.files.makeFolders s.now (base.below Config.logWay)).2 :=
    h.makeFolders_changes h.nonempty
      (fun name hname => (Config.isPlain_ways _ Config.logWay_mem name hname).2) s.now
  have hgrown := makeFolders_grown h.isRooted s.now (base.below Config.logWay)
  rw [Attempts.keepLog, Act.bind_apply, Act.makeFolders_apply]
  generalize s.files.makeFolders s.now (base.below Config.logWay) = made at hmade hgrown
  obtain ⟨e | _, ready⟩ := made
  · exact hmade.mono (fun _ => False.elim) fun _ => id
  · simp only [Act.bind_apply, Act.write_apply]
    cases hwrite : ready.write s.now ((base.below Config.logWay).join (tag ++ ".log"))
        (Text.encode log) with
    | error e => exact hmade.mono (fun _ => False.elim) fun _ => id
    | ok files =>
      have hready := h.of_grown hgrown
      have hsets := hready.sets_write hname hwrite
      refine (hmade.mono (fun _ => False.elim) fun _ => id).trans (Edits.changes
        (hsets.edits ⟨⟨_, rfl, rfl⟩, rfl⟩ (by simp [Entry.target?])) ?_)
      rintro place ⟨⟨name, -, rfl⟩, -⟩
      exact hready.inside name

/-- A compilation in the folder of a run changes nothing outside but the log that its error
names. -/
theorem compileIn_changes (hopen : w.IsOpen folder t) (hsite : t.IsWorkplace base root)
    (hlaid : press.IsLaidOut base) (hcompiler : press.compiler.compiler.StaysIn) {stem : String}
    (hname : Path.IsPlain (stem ++ "-" ++ w.token ++ ".log")) (source : String) {s : Surroundings σ}
    (hs : Within (Below folder) t s.files) :
    match press.compileIn w stem source s with
    | (.ok _, s') => Within (Below folder) t s'.files
    | (.error e, s') =>
      Changes (Below folder) (fun place => IsLog base root e.log? place ∧
          place = root ++ Config.logWay ++ [stem ++ "-" ++ w.token ++ ".log"])
        (OnWay root Config.logWay) t s'.files := by
  have hends := compileIn_ends (bears_within hopen) hcompiler stem source hs
  generalize press.compileIn w stem source s = compiled at hends
  obtain ⟨e | document, s'⟩ := compiled
  · rcases hends with ⟨hs', -⟩ | ⟨s₁, log, hs₁, hkept⟩
    · exact hs'.changes
    · have hfolder := (hsite.of_within hs₁ hopen.empty).logs
      have hchanges := keepLog_changes hfolder hname log (Below folder)
      have hlogs : press.compiler.logFolder = base.below Config.logWay := hlaid.logs
      rw [hlogs] at hkept
      rw [hkept] at hchanges
      exact hs₁.changes.trans hchanges
  · exact hends

theorem prepare_changes (hopen : w.IsOpen folder t) (hsite : t.IsWorkplace base root)
    (hlaid : press.IsLaidOut base) (hcompiler : press.compiler.compiler.StaysIn)
    (hrasterizer : press.rasterizer.WritesImage) {tmpl : Template}
    (hroom : tmpl.id = "" → ∃ above name, w.LeavesRoom above root name t)
    (htoken : '/' ∉ w.token.toList) {s : Surroundings σ} (hs : Within (Below folder) t s.files) :
    match press.prepare tmpl w s with
    | (.error e, s') =>
      Changes (Below folder) (fun place => IsLog base root e.log? place ∨ IsStray root tmpl place)
        (fun place => OnWay root Config.logWay place ∨ OnWay root Config.thumbnailWay place) t
        s'.files
    | (.ok (_, placements), s') =>
      Changes (Below folder) (IsStray root tmpl) (OnWay root Config.thumbnailWay) t s'.files ∧
        placements.map Press.Placement.target =
          Press.resolutions.map (press.thumbnail tmpl.stem) := by
  have hcompiled := compileIn_changes hopen hsite hlaid hcompiler (Press.isPlain_logName tmpl htoken)
    (press.previewSource tmpl) hs
  rw [Press.prepare, Act.bind_apply]
  generalize press.compileIn w tmpl.stem (press.previewSource tmpl) s = compiled at hcompiled
  obtain ⟨e | document, s₁⟩ := compiled
  · exact hcompiled.mono (fun _ hlog => .inl hlog.1) fun _ => .inl
  · have hrendered := rasterizeAll_closed (Act.Keeps.isClosed _) document.path
      (fun spec hspec => image_keeps hopen hrasterizer hroom hspec document.path) s₁ hcompiled.changes
    dsimp only
    rw [Act.bind_apply]
    rcases hdone : press.rasterizeAll w tmpl.stem document.path Press.resolutions s₁
      with ⟨e | placements, s₂⟩ <;> rw [hdone] at hrendered
    · exact hrendered.mono (fun _ => .inr) fun _ => False.elim
    · have hfolder := (hsite.of_spares hrendered.toSpares hopen.empty).thumbnails
      have hmade : Changes (Below folder) (IsStray root tmpl) (OnWay root Config.thumbnailWay) s₂.files
          (s₂.files.makeFolders s₂.now (base.below Config.thumbnailWay)).2 :=
        hfolder.makeFolders_changes hfolder.nonempty
          (fun name hname => (Config.isPlain_ways _ Config.thumbnailWay_mem name hname).2) s₂.now
      have hall := (hrendered.mono (fun _ => id) fun _ => False.elim).trans hmade
      have htargets := Press.targets_rasterizeAll hdone
      rw [hlaid.thumbnails, Config.thumbnails_rootedAt]
      dsimp only
      rw [Act.bind_apply, Act.makeFolders_apply]
      generalize s₂.files.makeFolders s₂.now (base.below Config.thumbnailWay) = made at hall
      obtain ⟨e | _, files⟩ := made
      · exact hall.mono (fun _ => .inr) fun _ => .inr
      · exact ⟨hall, htargets⟩

theorem thumbnail_laidOut (hlaid : press.IsLaidOut base) (stem : String) (spec : RasterSpec) :
    press.thumbnail stem spec = (base.below Config.thumbnailWay).join (spec.fileName stem) := by
  rw [Press.thumbnail, hlaid.thumbnails, Config.thumbnails_rootedAt]

theorem staging_laidOut (hlaid : press.IsLaidOut base) (tmpl : Template) {spec : RasterSpec}
    (hspec : spec ∈ Press.resolutions) (token : String) :
    Press.staging (press.thumbnail tmpl.stem spec) token =
      (base.below Config.thumbnailWay).join (Press.stagingName (spec.fileName tmpl.stem) token) := by
  have hname := Press.isPlain_fileName tmpl hspec
  have hlast := (Config.isPlain_ways _ Config.thumbnailWay_mem "thumbnails"
    (by simp [Config.thumbnailWay])).1
  rw [thumbnail_laidOut hlaid, Press.staging, Path.fileName?_join hname]
  exact Path.withFileName_join (p := base.below ["public", "templates"]) hlast hname _

theorem leadsInto_thumbnails (hsite : t.IsWorkplace base root) (hlaid : press.IsLaidOut base)
    {tmpl : Template} (htoken : '/' ∉ w.token.toList) {placements : List Press.Placement}
    (htargets : placements.map Press.Placement.target =
      Press.resolutions.map (press.thumbnail tmpl.stem)) :
    ∀ p ∈ placements, p.LeadsInto w.token (IsImage root tmpl) t := by
  intro p hp
  have htarget : p.target ∈ Press.resolutions.map (press.thumbnail tmpl.stem) :=
    htargets ▸ List.mem_map_of_mem hp
  obtain ⟨spec, hspec, heq⟩ := List.mem_map.1 htarget
  have hfolder := hsite.thumbnails
  have hname := Press.isPlain_fileName tmpl hspec
  have hstagingName := Press.isPlain_stagingName hname.noSlash htoken
  refine ⟨fun place hplace => ?_, fun place hplace => ?_, fun place hplace => ?_⟩
  · rw [← heq, staging_laidOut hlaid tmpl hspec] at hplace
    exact ⟨spec, hspec, _, hfolder.locate_eq hstagingName hplace, .inr ⟨_, rfl⟩⟩
  · rw [← heq, staging_laidOut hlaid tmpl hspec] at hplace
    rw [hfolder.locate_eq hstagingName hplace]
    exact hfolder.inside _
  · rw [← heq, thumbnail_laidOut hlaid] at hplace
    exact ⟨spec, hspec, _, hfolder.locate_eq hname hplace, .inl rfl⟩

theorem previewIn_changes (hopen : w.IsOpen folder t) (hsite : t.IsWorkplace base root)
    (hlaid : press.IsLaidOut base) (hcompiler : press.compiler.compiler.StaysIn)
    (hrasterizer : press.rasterizer.WritesImage) {tmpl : Template}
    (hroom : tmpl.id = "" → ∃ above name, w.LeavesRoom above root name t)
    (htoken : '/' ∉ w.token.toList) {s : Surroundings σ} (hs : Within (Below folder) t s.files) :
    Changes (Below folder)
      (fun place => (IsLog base root (Press.log? (press.previewIn tmpl w s).1) place ∨
        IsImage root tmpl place) ∨ IsStray root tmpl place)
      (fun place => OnWay root Config.logWay place ∨ OnWay root Config.thumbnailWay place)
      t (press.previewIn tmpl w s).2.files := by
  have hprepared := prepare_changes hopen hsite hlaid hcompiler hrasterizer hroom htoken hs
  rw [Press.previewIn_apply]
  generalize press.prepare tmpl w s = made at hprepared ⊢
  obtain ⟨e | ⟨document, placements⟩, prepared⟩ := made
  · exact hprepared.mono (fun _ => .imp .inl id) fun _ => id
  · obtain ⟨hchanges, htargets⟩ := hprepared
    have hready := hsite.of_spares hchanges.toSpares hopen.empty
    have hedits := Press.publish_keeps hready.isRooted
      (leadsInto_thumbnails hready hlaid htoken htargets) prepared (.refl _ _)
    have hpublished : Changes (Below folder)
        (fun place => IsImage root tmpl place ∨ IsStray root tmpl place)
        (fun place => OnWay root Config.logWay place ∨ OnWay root Config.thumbnailWay place)
        prepared.files (Press.publish placements w.token prepared).2.files := by
      refine hedits.changes_of fun place himage => .inr ⟨.inl himage, ?_⟩
      obtain ⟨name, rfl⟩ := himage.inFolder
      exact hready.thumbnails.inside name
    have hall := (hchanges.mono (fun _ => .inr) fun _ => .inr).trans hpublished
    dsimp only
    rcases hdone : Press.publish placements w.token prepared with ⟨e | _, published⟩ <;>
      rw [hdone] at hall
    · exact hall.mono (fun _ => .imp .inr id) fun _ => id
    · exact hall.mono (fun _ => .imp .inr id) fun _ => id

/-- The end of a run takes its folder away, so the tree it was opened in differs only by what was
done outside of it. -/
theorem close_changes {altered new : Place → Prop} {s : Surroundings σ} {m : Tree}
    (hroot : m.IsRooted) (hadds : Adds m t folder) (hopen : w.IsOpen folder t)
    (hs : Changes (Below folder) altered new t s.files) :
    Changes (fun _ => False) altered new m (w.close s).2.files := by
  have hdrops := w.drops_close hopen hs.toSpares
  -- nothing was at the folder or in it before the run, and nothing is there after it
  have hbare : ∀ place, folder <+: place → t.leaf? place = none ∧ m.folderAt place = false := by
    intro place hinside
    by_cases heq : place = folder
    · exact ⟨heq ▸ leaf?_of_folderAt hopen.isFolder, heq ▸ (get?_eq_none.1 hadds.free).2⟩
    · have hnone := get?_eq_none.1 (hopen.empty place ⟨hinside, heq⟩)
      rw [hadds.folderAt, Function.update_of_ne heq] at hnone
      exact hnone
  refine ⟨⟨fun place _ hplace => ?_, fun place _ => ?_, fun place _ hfolder => ?_,
    fun place target hlink => ?_, ?_, fun _ => ?_⟩, fun place _ => ?_⟩
  · rw [close_leaf hopen hs.toSpares hplace, hadds.leaf]
  · rw [← hadds.grown.link?, Tree.link?, Tree.link?, hdrops.leaf]
    split
    · rw [(hbare place ‹_›).1]
    · exact hs.link? place fun hbelow => ‹¬folder <+: place› hbelow.1
  · have houtside : ¬folder <+: place := fun hinside => by
      rw [(hbare place hinside).2] at hfolder
      cases hfolder
    rw [hdrops.folderAt, if_neg houtside]
    exact hs.folderAt place (fun hbelow => houtside hbelow.1) (hadds.grown.folderAt place hfolder)
  · rw [Tree.link?, hdrops.leaf] at hlink
    split at hlink
    · cases hlink
    · rw [← hadds.grown.link?]
      exact hs.link place target hlink
  · rw [hdrops.home, hs.home, hadds.home]
  · refine hdrops.isRooted (hs.isRooted hopen.isRooted) fun hinside => ?_
    rw [hs.home, hadds.home] at hinside
    have hhome := hroot.home
    rw [(hbare _ hinside).2] at hhome
    cases hhome
  · rw [hdrops.folderAt]
    split
    · exact .inl (hbare place ‹_›).2.symm
    · rename_i houtside
      have hrun := hs.folders place fun hbelow => houtside hbelow.1
      have hother : place ≠ folder := by
        rintro rfl
        exact houtside List.prefix_rfl
      rwa [hadds.folderAt, Function.update_of_ne hother] at hrun

end Run

/-! ### Calls -/

section Calls

variable {press : Press σ} {base : Path} {root : Place} {t : Template} {s : Surroundings σ}

/-- A run changes what is done in it outside of its folder, and brings the folder of runs. -/
theorem inWorkspace_changes {α : Type} (hsite : s.files.IsWorkplace base root)
    (hlaid : press.IsLaidOut base) (altered : Except PressError α → Place → Prop)
    (new : Place → Prop) (stem : String) (body : Workspace → Act σ (Except PressError α))
    (hbody : ∀ w folder opened, Workspace.create press.config.temp stem s = (.ok w, opened) →
      w.IsOpen folder opened.files → opened.files.IsWorkplace base root → '/' ∉ w.token.toList →
      Changes (Below folder) (altered (body w opened).1) new opened.files
        (body w opened).2.files) :
    Changes (fun _ => False) (altered (press.inWorkspace stem body s).1)
      (fun place => new place ∨ OnWay root Config.tempWay place)
      s.files (press.inWorkspace stem body s).2.files := by
  have htemp : press.config.temp = base.below Config.tempWay := hlaid.temp
  have hway : s.files.HasWay base root Config.tempWay :=
    hsite.logs.toHasWay.of_prefix (by simp [Config.tempWay, Config.logWay])
  have hmade : Changes (fun _ => False) (fun _ => False) (OnWay root Config.tempWay) s.files
      (s.files.makeFolders s.now (base.below Config.tempWay)).2 :=
    hway.makeFolders_changes (by simp [Config.tempWay]) (by decide) s.now
  have hgrown := makeFolders_grown hsite.isRooted s.now (base.below Config.tempWay)
  have hcreated := Workspace.create_cases hsite.isRooted press.config.temp stem
  rw [Press.inWorkspace_apply]
  rcases hcreate : Workspace.create press.config.temp stem s with ⟨e | w, opened⟩ <;>
    rw [hcreate, htemp] at hcreated
  · dsimp only at hcreated ⊢
    rw [hcreated]
    exact hmade.mono (fun _ => False.elim) fun _ => .inr
  · obtain ⟨folder, hopen, hadds⟩ := hcreated
    have hrun := hbody w folder opened hcreate hopen (hsite.of_grown (hgrown.trans hadds.grown))
      (Workspace.create_token hcreate)
    exact (hmade.mono (fun _ => False.elim) fun _ => .inr).trans
      ((close_changes (hgrown.isRooted hsite.isRooted) hadds hopen hrun).mono (fun _ => id)
        fun _ => .inl)

/-- A preview changes no files but the log that its error names, its own thumbnails and what is staged
for them. -/
theorem preview_changes (hplace : s.files.IsWorkplace base root) (hlaid : press.IsLaidOut base)
    (hcompiler : press.compiler.compiler.StaysIn) (hrasterizer : press.rasterizer.WritesImage)
    (hid : t.id ≠ "") :
    Changes (fun _ => False)
      (fun place => IsLog base root (Press.log? (press.compilePreview t s).1) place ∨
        IsImage root t place)
      (fun place => (OnWay root Config.logWay place ∨ OnWay root Config.thumbnailWay place) ∨
        OnWay root Config.tempWay place)
      s.files (press.compilePreview t s).2.files :=
  inWorkspace_changes hplace hlaid
    (fun result place => IsLog base root (Press.log? result) place ∨ IsImage root t place) _ t.stem _
    fun _ _ _ _ hopen hopened htoken =>
      (previewIn_changes hopen hopened hlaid hcompiler hrasterizer (fun hnone => absurd hnone hid) htoken
        (.refl _ _)).mono (fun _ hplace => hplace.resolve_right fun hstray => hid hstray.1) fun _ => id

/-! ### Keeping an entry of the cache -/

theorem drawToken_bind_keeps {β : Type} {property : Tree → Prop} {f : String → Act σ β}
    (h : ∀ token, '/' ∉ token.toList → Act.Keeps property (f token)) :
    Act.Keeps property (Act.drawToken >>= f) :=
  fun s hs => h _ (Workspace.not_slash_mem_hexPadded 32 (s.random s.drawn)) _ hs

theorem put_keeps {tree : Tree} (hsite : tree.IsSite base root) (hlaid : press.IsLaidOut base)
    {key : String} (hkey : '/' ∉ key.toList) (bytes : ByteArray) :
    Act.Keeps (Changes (fun _ => False) (InFolder root Config.cacheWay)
      (OnWay root Config.cacheWay) tree) (press.cache.put key bytes : Act σ Unit) := by
  have hfolder := hsite.hasFolder Config.cacheWay_mem
  have hempty : ∀ place, False → tree.get? place = none := fun _ => False.elim
  have hentry : Path.IsPlain (key ++ "." ++ Cache.extension) := Cache.isPlain_entryName hkey
  have hcache : press.cache.folder = base.below Config.cacheWay :=
    hlaid.cache.trans (Config.cache_rootedAt base)
  unfold Cache.put Cache.file
  rw [hcache]
  refine (makeFolders_keeps hfolder hempty fun name hname =>
    (Config.isPlain_ways _ Config.cacheWay_mem name hname).2).bind fun made => ?_
  split
  · exact .pure _
  · refine drawToken_bind_keeps fun token htoken => ?_
    have hstaging : Path.IsPlain (key ++ "." ++ Cache.extension ++ "." ++ token ++ ".tmp") :=
      Cache.isPlain_stagingName hkey htoken
    have hremove := (removeFile_keeps (σ := σ) hfolder hempty hstaging).bind fun _ => .pure ()
    dsimp only
    refine (write_keeps hfolder hempty hstaging bytes).bind fun written => ?_
    split
    · refine (Act.Keeps.pure _).bind fun placed => ?_
      split
      · exact .pure _
      · exact hremove
    · refine (rename_keeps hfolder hempty hstaging hentry).bind fun placed => ?_
      split
      · exact .pure _
      · exact hremove

/-! ### What is left -/

/-- Everything in a folder is the same in two trees, and so is the folder. -/
def Files.Tree.SameIn (folder : Place) (t t' : Tree) : Prop :=
  ∀ place, folder <+: place →
    t'.leaf? place = t.leaf? place ∧ t'.folderAt place = t.folderAt place

/-- The folder of runs holds what it held before, but for a folder of logs, which may be new, and
the one log of a result. -/
structure CleansUp (base : Path) (root : Place) (log : Option Path) (t t' : Tree) : Prop where
  leaf : ∀ place, root ++ Config.tempWay <+: place →
    t'.leaf? place = t.leaf? place ∨ IsLog base root log place
  folderAt : ∀ place, root ++ Config.tempWay <+: place →
    t'.folderAt place = t.folderAt place ∨
      ((place = root ++ Config.tempWay ∨ place = root ++ Config.logWay) ∧ t'.folderAt place = true)

section Changed

variable {u u' : Tree} {altered new : Place → Prop} (h : Changes (fun _ => False) altered new u u')
include h

theorem sameIn_of_changes {folder : Place}
    (hnone : ∀ place, folder <+: place → ¬altered place ∧ ¬new place) : u.SameIn folder u' :=
  fun place hplace => ⟨h.leaf place id (hnone place hplace).1,
    (h.folders place id).resolve_right fun hnew => (hnone place hplace).2 hnew.1⟩

theorem cleansUp_of_changes {log : Option Path}
    (hlogs : ∀ place, root ++ Config.tempWay <+: place →
      (altered place → IsLog base root log place) ∧ (new place → OnWay root Config.logWay place)) :
    CleansUp base root log u u' where
  leaf := fun place hplace => by
    by_cases hthere : altered place
    · exact .inr ((hlogs place hplace).1 hthere)
    · exact .inl (h.leaf place id hthere)
  folderAt := fun place hplace => (h.folders place id).imp id fun ⟨hthere, htrue⟩ => by
    obtain ⟨passed, hne, hprefix, rfl⟩ := (hlogs place hplace).2 hthere
    simp only [Config.logWay, List.prefix_cons_iff, List.prefix_nil] at hprefix
    rcases hprefix with rfl | ⟨rest, rfl, rfl | ⟨more, rfl, rfl⟩⟩
    · exact absurd rfl hne
    · exact ⟨.inl rfl, htrue⟩
    · exact ⟨.inr rfl, htrue⟩

end Changed

variable (hsite : s.files.IsSite base root) (hlaid : press.IsLaidOut base)
  (hcompiler : press.compiler.compiler.StaysIn)
include hsite hlaid hcompiler

theorem compilePreview_changes (hrasterizer : press.rasterizer.WritesImage) (hid : t.id ≠ "") :
    Changes (fun _ => False)
      (fun place => IsLog base root (Press.log? (press.compilePreview t s).1) place ∨
        InFolder root Config.thumbnailWay place)
      (fun place => (OnWay root Config.logWay place ∨ OnWay root Config.thumbnailWay place) ∨
        OnWay root Config.tempWay place)
      s.files (press.compilePreview t s).2.files :=
  (preview_changes hsite.isWorkplace hlaid hcompiler hrasterizer hid).mono
    (fun _ => .imp id IsImage.inFolder) fun _ => id

theorem compileDocument_changes (content : String) :
    Changes (fun _ => False)
      (fun place => IsLog base root (Press.log? (press.compileDocument t content s).1) place ∨
        ((press.compileDocument t content s).1.isOk = true ∧ InFolder root Config.cacheWay place))
      (fun place => (OnWay root Config.logWay place ∨ OnWay root Config.tempWay place) ∨
        ((press.compileDocument t content s).1.isOk = true ∧ OnWay root Config.cacheWay place))
      s.files (press.compileDocument t content s).2.files := by
  have hkey := not_slash_mem_cacheKey t.id t.source content
  have hrun := inWorkspace_changes hsite.isWorkplace hlaid (fun result => IsLog base root (Press.log? result))
    (OnWay root Config.logWay) t.stem (press.compileIn · t.stem (press.render t content))
    fun w folder opened _ hopen hopened htoken => by
      have hcompiled := compileIn_changes hopen hopened hlaid hcompiler
        (Press.isPlain_logName t htoken) (press.render t content) (.refl _ _)
      generalize press.compileIn w t.stem (press.render t content) opened = compiled at hcompiled
      obtain ⟨e | document, s'⟩ := compiled
      · exact hcompiled.mono (fun _ => And.left) fun _ => id
      · exact hcompiled.changes
  rw [Press.compileDocument]
  generalize cacheKey t.id t.source content = key at *
  rw [Act.bind_apply, press.cache.get_same]
  cases (press.cache.get key s).1 with
  | some bytes => exact .refl _ _ _ _
  | none =>
    dsimp only
    rw [Act.bind_apply]
    generalize press.inWorkspace t.stem (press.compileIn · t.stem (press.render t content)) s = ran
      at hrun ⊢
    obtain ⟨e | document, s₁⟩ := ran
    · exact hrun.mono (fun _ => .inl) fun _ => .inl
    · -- the entry is kept when the folder of the run is gone
      have hput := put_keeps (hsite.of_spares hrun.toSpares fun _ => False.elim) hlaid hkey
        document.bytes s₁ (.refl _ _ _ _)
      exact (hrun.mono (fun _ => .inl) fun _ => .inl).trans
        (hput.mono (fun _ hentry => .inr ⟨rfl, hentry⟩) fun _ hway => .inr ⟨rfl, hway⟩)

end Calls

/-! ### A press in its usual layout -/

theorem Press.isLaidOut_ofParts (base : Path) (registry : Registry) (toolchain : Toolchain σ)
    (compiler : Compiler σ) (rasterizer : Rasterizer σ) :
    (ofParts (Config.rootedAt base) registry toolchain compiler rasterizer).IsLaidOut base :=
  ⟨rfl, rfl, rfl, rfl⟩

theorem Rasterizer.blank_writesImage : (blank : Rasterizer σ).WritesImage := by
  intro document spec stem s hroot
  rw [blank, Act.bind_apply, Act.write_apply]
  cases hwrite : s.files.write s.now (stem.withExtension "png") .empty with
  | error e => exact .refl _ _
  | ok files =>
    obtain ⟨place, hlocate, hsets⟩ := write_sets hroot hwrite
    exact hsets.edits ⟨_, by simp, hlocate⟩ (by simp [Entry.target?])

theorem Surroundings.link?_bare (place : Place) : bare.files.link? place = none := by
  rw [Tree.link?, leaf?_bare]
  rfl

theorem Surroundings.isSite_bare : bare.files.IsSite ⟨"/run"⟩ ["run"] where
  isRooted := isRooted_bare
  locate := by decide +kernel
  isFolder := by decide
  link? := fun _ _ _ _ => link?_bare _
  inside := fun _ _ _ => link?_bare _

end ResumePress
