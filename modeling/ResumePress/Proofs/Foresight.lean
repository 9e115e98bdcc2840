import ResumePress.Proofs.Openings
import ResumePress.Proofs.Pictures

/-!
Previews that can be foreseen. With tools that go by the text, what a preview comes to is told before
it starts: by its template, by what stands in the way of the folders of the press and by how long the
names are that it draws. Which names these are shows in no more than the paths of an error.
-/

namespace ResumePress

open Files Files.Tree

variable {σ : Type}

theorem Path.parent?_below {p : Path} {names : List String} {name : String} (hne : names ≠ [])
    (hplain : ∀ name ∈ names, IsPlain name) (hname : IsPlain name) :
    ((p.below names).join name).parent? = some (p.below names) := by
  obtain ⟨before, last, rfl⟩ := (List.eq_nil_or_concat names).resolve_left hne
  rw [List.concat_eq_append] at *
  rw [below_snoc, parent?_join (hplain last (by simp)) hname]

/-- The error without the names that a run draws. -/
def PressError.anonymous : PressError → PressError
  | .exhausted cause => .exhausted { cause with log := cause.log.bind Path.parent? }
  | .raster cause => .raster cause.anonymous
  | .io cause => .io cause.anonymous
  | e => e

/-- What tools can go by: the name that is looked for, the engine and the source, the document and the
resolution. -/
structure Rules where
  probe : Validation.Kind → String → Probe
  compile : Verdict
  render : RasterVerdict

/-- The tools of a press answer by the text alone, and probes leave the files alone. The time that
compilations take does not end them. -/
structure Press.GoesBy (press : Press σ) (rules : Rules) : Prop where
  probe : ∀ kind name s, (Validation.Kind.probe press.toolchain kind name s).1 = rules.probe kind name
  probeLooks : ∀ (kind : Validation.Kind) (name : String) (s : Surroundings σ),
    (kind.probe press.toolchain name s).2.files = s.files
  compiler : press.compiler.compiler.GoesBy rules.compile
  rasterizer : press.rasterizer.GoesBy rules.render
  untimed : press.compiler.policy.budget = none

/-- The folder of thumbnails is apart from that of the logs. -/
theorem isOff_logs {root place : Place} (h : InFolder root Config.thumbnailWay place) :
    IsOff root Config.logWay place := by
  obtain ⟨name, rfl⟩ := h
  have hthumbnails : root ++ Config.thumbnailWay <+: root ++ Config.thumbnailWay ++ [name] :=
    List.prefix_append _ _
  exact isOff_of_inside (by decide) hthumbnails

/-- If a file can be opened in a folder, one can be opened beside the folder whose name is no longer. -/
theorem Path.overlong_beside {p : Path} {a b more : String} (ha : IsPlain a) (hb : '/' ∉ b.toList)
    (hmore : '/' ∉ more.toList) (hshort : (a ++ more).utf8ByteSize ≤ 255)
    (hless : more.utf8ByteSize ≤ b.utf8ByteSize) (hfits : (p.join a).overlong b = false) :
    p.overlong (a ++ more) = false := by
  have hboth : '/' ∉ (a ++ more).toList := by simp [ha.noSlash, hmore]
  rw [overlong, Bool.or_eq_false_iff, decide_eq_false_iff_not, decide_eq_false_iff_not] at hfits ⊢
  rw [size_join hb, if_neg (not_or.2 (ends_join ha)), size_join ha.noSlash] at hfits
  rw [size_join hboth, String.utf8ByteSize_append] at *
  omega

namespace Workspace.LeavesRoom

variable {w : Workspace} {above : Path} {root : Place} {name : String} {t t' : Tree}

theorem not_below (root : Place) (name : String) :
    ¬Below (root ++ Config.tempWay ++ [name]) (root ++ Config.tempWay ++ [name ++ ".png"]) :=
  fun hbelow => hbelow.2 (hbelow.1.eq_of_length (by simp)).symm

/-- Where a source can be opened in the folder of a run, an image can be drawn beside the folder. -/
theorem isVacant (h : w.LeavesRoom above root name t)
    (hopen : w.IsOpen (root ++ Config.tempWay ++ [name]) t)
    (hfits : w.folder.overlong "preview.tex" = false)
    (hs : Within (Below (root ++ Config.tempWay ++ [name])) t t') :
    t'.IsVacant (w.image "") (root ++ Config.tempWay ++ [name ++ ".png"]) := by
  have hshorter : ¬Below (root ++ Config.tempWay ++ [name]) (root ++ Config.tempWay) := fun hbelow => by
    have hlength := hbelow.1.length_le
    rw [List.length_append, List.length_singleton] at hlength
    omega
  have hvacant : t'.get? (root ++ Config.tempWay ++ [name ++ ".png"]) = none := by
    rw [get?_eq_none, hs.leaf _ (not_below root name), hs.folderAt _ (not_below root name)]
    exact get?_eq_none.1 h.free
  have hthere : t'.folderAt (root ++ Config.tempWay) = true := by
    rw [hs.folderAt _ hshorter]
    exact hopen.isRooted.above (List.cons_ne_nil name []) (get?_ne_none.2 (.inr hopen.isFolder))
  have hlink : t'.link? (root ++ Config.tempWay ++ [name ++ ".png"]) = none := by
    rw [Tree.link?, (get?_eq_none.1 hvacant).1]
    rfl
  have hway := h.way.of_spares (hs.spares : Spares _ (fun _ => False) t t') hopen.empty
  have hsubset : Config.tempWay ⊆ Config.logWay := by simp [Config.tempWay, Config.logWay]
  refine ⟨?_, hvacant⟩
  rw [h.image_eq, hway.locate_in
    (fun name hname => Config.isProper_ways _ Config.logWay_mem name (hsubset hname))
    (fun name hname => Config.size_ways _ Config.logWay_mem name (hsubset hname)) hthere
    h.isProper_image (.inl hlink), if_neg]
  rw [h.folder] at hfits
  rw [Path.overlong_beside h.isProper.toIsPlain (by decide) (by decide) h.short (by decide) hfits]
  exact Bool.false_ne_true

end Workspace.LeavesRoom

namespace Press

/-! ### Compilations -/

/-- What a compilation in the folder of a run comes to: a document, its engine and the number of
attempts, or an error. -/
def judged (press : Press σ) (rules : Rules) (base : Path) (root : Place) (files : Tree)
    (w : Workspace) (stem source : String) : Except PressError (ByteArray × TexEngine × Nat) :=
  if w.folder.overlong "preview.tex" then .error (.io .nameTooLong)
  else
    match Attempts.judge rules.compile (Text.encode source) (press.compiler.policy.bound - 1) 1
      .primary with
    | (list, some (document, engine)) => .ok (document, engine, list.length)
    | (list, none) => .error <| .exhausted
      { kind := (RetryingCompiler.lastLog list).1
        attempts := list.length
        log := if (files.wayFault? base root Config.logWay).isSome ||
            (base.below Config.logWay).overlong (logName stem w) then none
          else some (base.below Config.logWay) }

/-- What the preparation of a preview comes to: the engine, the number of attempts and the pictures,
or an error. -/
def prepared (press : Press σ) (rules : Rules) (base : Path) (root : Place) (files : Tree)
    (t : Template) (w : Workspace) :
    Except PressError (TexEngine × Nat × List (RasterSpec × ByteArray)) :=
  match press.judged rules base root files w t.stem (press.previewSource t) with
  | .error e => .error e
  | .ok (document, engine, attempts) =>
    match draw rules.render document (!w.folder.overlong ·) t.stem resolutions with
    | .error cause => .error (.raster cause)
    | .ok pictures =>
      match files.wayFault? base root Config.thumbnailWay with
      | some e => .error (.io e)
      | none => .ok (engine, attempts, pictures)

/-- Whether a name is too long under which an image of a template is to be staged. -/
def stagesOverlong (base : Path) (t : Template) (token : String) : Bool :=
  resolutions.any fun spec =>
    (base.below Config.thumbnailWay).overlong (stagingName (spec.fileName t.stem) token)

theorem stagesOverlong_iff {base : Path} {t : Template} {token : String}
    {pictures : List (RasterSpec × ByteArray)} (hspecs : pictures.map Prod.fst = resolutions) :
    stagesOverlong base t token = true ↔ ∃ picture ∈ pictures, (base.below Config.thumbnailWay).overlong
      (stagingName (picture.1.fileName t.stem) token) = true := by
  rw [stagesOverlong, ← hspecs, List.any_map]
  simp only [List.any_eq_true, Function.comp_apply]

/-- What a preview in the folder of a run comes to: how it was made and its pictures, or an error. -/
def foreseen (press : Press σ) (rules : Rules) (base : Path) (root : Place) (files : Tree)
    (t : Template) (w : Workspace) :
    Except PressError (PreviewArtifacts × List (RasterSpec × ByteArray)) :=
  match press.prepared rules base root files t w with
  | .error e => .error e
  | .ok (engine, attempts, pictures) =>
    if stagesOverlong base t w.token then .error (.io .nameTooLong)
    else
      .ok ({ templateId := t.id
             standard := press.thumbnail t.stem .standard
             doubleDensity := press.thumbnail t.stem .doubleDensity
             engine := engine
             attempts := attempts }, pictures)

theorem compileIn_apply (press : Press σ) (w : Workspace) (stem source : String)
    (s : Surroundings σ) : press.compileIn w stem source s =
      match s.files.write s.now w.source (Text.encode source) with
      | .error e => (.error (.io e), s)
      | .ok files =>
        match Attempts.run press.compiler.compiler press.compiler.policy w.source w.folder s.waited
          (press.compiler.policy.bound - 1) 1 .primary { s with files := files } with
        | (⟨list, some document⟩, s) =>
          (.ok ⟨document.bytes, document.path, document.engine, list⟩, s)
        | (⟨list, none⟩, s) =>
          let last := RetryingCompiler.lastLog list
          let log := Attempts.keepLog press.compiler.logFolder (stem ++ "-" ++ w.token) last.2 s
          (.error (.exhausted ⟨last.1, list.length, log.1⟩), log.2) := by
  rw [compileIn, Act.bind_apply, Act.write_apply]
  cases s.files.write s.now w.source (Text.encode source) with
  | error e => rfl
  | ok files =>
    unfold Act.changed
    dsimp only
    rw [Act.bind_apply, RetryingCompiler.compile_apply]
    dsimp only
    rcases Attempts.run press.compiler.compiler press.compiler.policy w.source w.folder s.waited
      (press.compiler.policy.bound - 1) 1 .primary { s with files := files } with
      ⟨⟨list, _ | document⟩, s₁⟩ <;> rfl

theorem fits_of_judged {press : Press σ} {rules : Rules} {base : Path} {root : Place} {files : Tree}
    {w : Workspace} {stem source : String} {made : ByteArray × TexEngine × Nat}
    (h : press.judged rules base root files w stem source = .ok made) :
    w.folder.overlong "preview.tex" = false := by
  unfold judged at h
  split at h
  · cases h
  · exact Bool.eq_false_iff.2 ‹_›

/-- A run of a template in a workplace, with names that no folders have. -/
structure IsRun (base : Path) (root : Place) (t : Template) (w : Workspace) (folder : Place)
    (opened : Tree) : Prop where
  isOpen : w.IsOpen folder opened
  workplace : opened.IsWorkplace base root
  room : t.id = "" → ∃ above name, folder = root ++ Config.tempWay ++ [name] ∧
    w.LeavesRoom above root name opened
  folder : ∃ n, folder = root ++ Config.tempWay ++ [Workspace.folderName t n]
  chars : ∀ c ∈ w.token.toList, c.isAlphanum = true ∨ c = '-'
  log : opened.folderAt (root ++ Config.logWay ++ [logName t.stem w]) = false
  target : ∀ spec ∈ resolutions, opened.folderAt (spot root t spec) = false
  staging : ∀ spec ∈ resolutions, opened.folderAt (stagingSpot root t w.token spec) = false

namespace IsRun

variable {t : Template} {w : Workspace} {folder place : Place} {base : Path} {root : Place}
  {opened : Tree} (h : IsRun base root t w folder opened)
include h

theorem isProper_logName : Path.IsProper (logName t.stem w) := by
  refine ⟨isPlain_logName t (not_mem_token h.chars (by decide) (by decide)), ?_⟩
  simp only [logName, String.toList_append, List.mem_append, not_or]
  exact ⟨⟨⟨t.not_mem_stem (by decide) (by decide), by decide⟩,
    not_mem_token h.chars (by decide) (by decide)⟩, by decide⟩

theorem holdsFiles : opened.HoldsFiles w.folder folder where
  toIsPlainFolder := isPlainFolder_of_spares h.isOpen (.refl _ (fun _ => False) _)
  flat := fun place hplace => (get?_eq_none.1 (h.isOpen.empty place hplace)).2

/-- The folder of the run is apart from that of the logs. -/
theorem not_inside_logs (hplace : OnWay root Config.logWay place ∨ InFolder root Config.logWay place) :
    ¬folder <+: place := by
  obtain ⟨n, rfl⟩ := h.folder
  have hname : Workspace.folderName t n ≠ "logs" := by
    intro heq
    have hhead := congrArg (fun s => s.toList.head?) heq
    simp [Workspace.folderName, Workspace.namePrefix] at hhead
  intro hinside
  have hway : ∃ rest, place = root ++ rest ∧ (rest <+: Config.logWay ∨ Config.logWay <+: rest) := by
    rcases hplace with ⟨passed, -, hprefix, rfl⟩ | ⟨name, rfl⟩
    · exact ⟨passed, rfl, .inl hprefix⟩
    · exact ⟨Config.logWay ++ [name], by rw [List.append_assoc], .inr (List.prefix_append _ _)⟩
  obtain ⟨rest, rfl, hrest⟩ := hway
  rw [List.append_assoc, List.prefix_append_right_inj] at hinside
  have hlogs : Config.tempWay ++ [Workspace.folderName t n] <+: Config.logWay := by
    rcases hrest with hrest | hrest
    · exact hinside.trans hrest
    · exact List.prefix_of_prefix_length_le hinside hrest (by simp [Config.tempWay, Config.logWay])
  simp [Config.tempWay, Config.logWay, hname] at hlogs

/-- It is apart from that of the thumbnails. -/
theorem not_inside_thumbnails
    (hplace : OnWay root Config.thumbnailWay place ∨ InFolder root Config.thumbnailWay place) :
    ¬folder <+: place := by
  obtain ⟨n, rfl⟩ := h.folder
  intro hinside
  have hruns : root ++ Config.tempWay <+: place := (List.prefix_append _ _).trans hinside
  have hoff : IsOff root Config.thumbnailWay place := isOff_of_inside (by decide) hruns
  exact hplace.elim hoff.onWay hoff.inFolder

theorem leavesRoom (hid : t.id = "") : ∃ above name, w.LeavesRoom above root name opened := by
  obtain ⟨above, name, -, hroom⟩ := h.room hid
  exact ⟨above, name, hroom⟩

/-- A place beside the folder of the run, to which the path of an image without a stem leads as long as
only the folder has been worked in. -/
theorem exists_beside (hfits : w.folder.overlong "preview.tex" = false) {t' : Tree}
    (hs : Within (Below folder) opened t') :
    ∃ beside, ¬Below folder beside ∧ (t.id = "" → IsBeside root beside ∧
      t'.IsVacant (w.image "") beside) := by
  by_cases hid : t.id = ""
  · obtain ⟨above, name, rfl, hroom⟩ := h.room hid
    exact ⟨_, Workspace.LeavesRoom.not_below root name, fun _ => ⟨⟨name, rfl⟩, hroom.isVacant h.isOpen hfits hs⟩⟩
  · exact ⟨folder, not_below_self folder, fun hnone => absurd hnone hid⟩

end IsRun

section Foreseen

variable {press : Press σ} {rules : Rules} {t : Template} {w : Workspace} {folder : Place}
  {base : Path} {root : Place} {s : Surroundings σ} (h : IsRun base root t w folder s.files)
  (hlaid : press.IsLaidOut base) (hgoes : press.GoesBy rules)
include h hlaid hgoes

/-- What a compilation comes to is foreseen. -/
theorem compileIn_judged (source : String) :
    (∃ e s', press.compileIn w t.stem source s = (.error e, s') ∧
      press.judged rules base root s.files w t.stem source = .error e.anonymous) ∨
    (∃ document s', press.compileIn w t.stem source s = (.ok document, s') ∧
      press.judged rules base root s.files w t.stem source =
        .ok (document.bytes, document.engine, document.attempts.length) ∧
      s'.files.HoldsFiles w.folder folder ∧ Within (Below folder) s.files s'.files ∧
      (∃ name, '/' ∉ name.toList ∧ document.path = w.file (name ++ ".pdf")) ∧
      s'.files.read document.path = .ok document.bytes) := by
  have hsource : Path.IsProper "preview.tex" := ⟨⟨by decide, by decide, by decide⟩, by decide⟩
  have hwithin := source_keeps (bears_within h.isOpen) source s (.refl _ _)
  rw [Act.write_apply] at hwithin
  rw [compileIn_apply, judged]
  rcases h.holdsFiles.write_cases hsource s.now (Text.encode source) with
    ⟨hlong, hwrite⟩ | ⟨hshort, files, hwrite, hfiles, hread⟩ <;>
    rw [show w.folder.join "preview.tex" = w.source from rfl] at hwrite <;>
    rw [hwrite] at hwithin ⊢
  · exact .inl ⟨_, _, rfl, by rw [if_pos hlong]; rfl⟩
  · have hrun := Attempts.run_closed (Act.Keeps.isClosed _)
      (fun engine => compiler_keeps (bears_within h.isOpen) hgoes.compiler.staysIn engine w.source)
      press.compiler.policy s.waited (press.compiler.policy.bound - 1) 1 .primary
      { s with files := files } hwithin
    obtain ⟨starts, hcourse⟩ := Attempts.run_course press.compiler.compiler press.compiler.policy
      w.source w.folder s.waited (press.compiler.policy.bound - 1) 1 .primary
      { s with files := files }
    have hjudged := hcourse.judged hgoes.compiler hgoes.untimed hfiles hread
    rw [if_neg (by simp [hshort])]
    dsimp only
    generalize Attempts.run press.compiler.compiler press.compiler.policy w.source w.folder s.waited
      (press.compiler.policy.bound - 1) 1 .primary { s with files := files } = made at *
    generalize Attempts.judge rules.compile (Text.encode source) (press.compiler.policy.bound - 1) 1
      .primary = tried at *
    obtain ⟨⟨list, _ | document⟩, s₁⟩ := made
    · obtain ⟨-, hlist, hnone⟩ := hjudged
      obtain ⟨triedList, triedDocument⟩ := tried
      obtain rfl : list = triedList := hlist
      obtain rfl : triedDocument = none := hnone
      have hlogs : press.compiler.logFolder = base.below Config.logWay := hlaid.logs
      have hfree : s₁.files.folderAt (root ++ Config.logWay ++ [logName t.stem w]) = false := by
        rw [hrun.folderAt _ fun hbelow => h.not_inside_logs (.inr ⟨_, rfl⟩) hbelow.1, h.log]
      have hway : s₁.files.wayFault? base root Config.logWay =
          s.files.wayFault? base root Config.logWay :=
        wayFault?_congr (by simp [Config.logWay]) fun place hplace =>
          hrun.leaf place fun hbelow => h.not_inside_logs (.inl hplace) hbelow.1
      have hfolder := (h.workplace.of_within hrun h.isOpen.empty).logs
      have hparent := Path.parent?_below (p := base) hfolder.nonempty hfolder.isPlain
        h.isProper_logName.toIsPlain
      have hkept : (Attempts.keepLog (base.below Config.logWay) (t.stem ++ "-" ++ w.token)
          (RetryingCompiler.lastLog list).2 s₁).1 =
            if (s₁.files.wayFault? base root Config.logWay).isSome ||
              (base.below Config.logWay).overlong (logName t.stem w) then none
            else some ((base.below Config.logWay).join (logName t.stem w)) :=
        Attempts.keepLog_foreseen hfolder (Config.isProper_ways _ Config.logWay_mem)
          (Config.size_ways _ Config.logWay_mem) h.isProper_logName hfree _
      refine .inl ⟨_, _, rfl, ?_⟩
      dsimp only
      rw [hlogs, hkept, hway, PressError.anonymous]
      split
      · rfl
      · rw [Option.bind_some, hparent]
    · obtain ⟨hfiles₁, hlist, hsome, hname, hread₁⟩ := hjudged
      obtain ⟨triedList, triedDocument⟩ := tried
      obtain rfl : list = triedList := hlist
      obtain rfl : triedDocument = some (document.bytes, document.engine) := hsome
      exact .inr ⟨_, s₁, rfl, rfl, hfiles₁, hrun, hname, hread₁⟩

/-- What a preview is up to the moment when it is published: how its document was made, and its
pictures. -/
theorem prepare_foreseen :
    (∃ e s', press.prepare t w s = (.error e, s') ∧
      press.prepared rules base root s.files t w = .error e.anonymous) ∨
    (∃ document pictures s', press.prepare t w s =
        (.ok (document, resolutions.map (press.placement w t.stem)), s') ∧
      press.prepared rules base root s.files t w =
        .ok (document.engine, document.attempts.length, pictures) ∧
      pictures.map Prod.fst = resolutions ∧ s'.files.IsGallery base root t w.token ∧
      ∀ picture ∈ pictures, s'.files.HasAt (w.image (t.stem ++ picture.1.suffix)) picture.2
        fun place => ¬InFolder root Config.thumbnailWay place) := by
  rw [prepare, Act.bind_apply, prepared]
  rcases compileIn_judged h hlaid hgoes (press.previewSource t) with
    ⟨e, s₁, hrun, hjudged⟩ |
      ⟨document, s₁, hrun, hjudged, hfiles, hwithin, ⟨name, hname, hpath⟩, hread⟩ <;>
    rw [hrun, hjudged]
  · exact .inl ⟨e, s₁, rfl, rfl⟩
  · rw [hpath] at hread
    obtain ⟨beside, hbelow, hbeside⟩ := h.exists_beside (fits_of_judged hjudged) hwithin
    have hdrawn := rasterizeAll_drawn (t := t) hgoes.rasterizer hname (List.Subset.refl resolutions)
      (by decide) hfiles hread hbelow fun spec _ hnone => (hbeside (t.id_eq_empty hnone)).2
    dsimp only
    rw [Act.bind_apply, hpath]
    generalize press.rasterizeAll w t.stem (w.file (name ++ ".pdf")) resolutions s₁ = done
      at hdrawn ⊢
    obtain ⟨e | placements, s₂⟩ := done
    · obtain ⟨cause, rfl, hcause⟩ := hdrawn
      rw [hcause]
      exact .inl ⟨_, s₂, rfl, rfl⟩
    · obtain ⟨rfl, hfiles₂, hedits, pictures, hpictures, himages⟩ := hdrawn
      have hplaces : ∀ (spec : RasterSpec) (place : Place),
          IsDrawn folder beside (t.stem ++ spec.suffix) place →
            Below folder place ∨ (IsStray root t place ∧ s₁.files.link? place = none) := by
        rintro spec place (rfl | ⟨hnone, rfl⟩)
        · exact .inl (below_snoc _ _)
        · have hid := t.id_eq_empty hnone
          exact .inr ⟨⟨hid, (hbeside hid).1⟩, (hbeside hid).2.link?⟩
      have hapart : ∀ place, OnWay root Config.thumbnailWay place ∨
          InFolder root Config.thumbnailWay place → ¬Below folder place ∧ ¬IsStray root t place :=
        fun place hplace => ⟨h.not_inside_thumbnails hplace ∘ And.left, fun hstray =>
          hplace.elim hstray.2.isOff_thumbnails.onWay hstray.2.isOff_thumbnails.inFolder⟩
      have hrendered : Changes (Below folder) (IsStray root t) (fun _ => False) s.files s₂.files := by
        refine hwithin.changes.trans (hedits.changes_of ?_)
        rintro place ⟨spec, -, hplace⟩
        exact hplaces spec place hplace
      have hfolder := (h.workplace.of_spares hrendered.toSpares h.isOpen.empty).thumbnails
      have hproper := Config.isProper_ways _ Config.thumbnailWay_mem
      have hshort := Config.size_ways _ Config.thumbnailWay_mem
      obtain ⟨hmade, hready⟩ := hfolder.makeFolders_result hfolder.nonempty hproper hshort s₂.now
      have hgrown := makeFolders_grown hfolder.isRooted s₂.now (base.below Config.thumbnailWay)
      have hchanges : Changes (Below folder) (IsStray root t) (OnWay root Config.thumbnailWay) s.files
          (s₂.files.makeFolders s₂.now (base.below Config.thumbnailWay)).2 :=
        (hrendered.mono (fun _ => id) fun _ => False.elim).trans
          (hfolder.makeFolders_changes hfolder.nonempty hshort s₂.now)
      have hway : s₂.files.wayFault? base root Config.thumbnailWay =
          s.files.wayFault? base root Config.thumbnailWay :=
        wayFault?_congr hfolder.nonempty fun place hplace =>
          hrendered.leaf place (hapart place (.inl hplace)).1 (hapart place (.inl hplace)).2
      rw [hway] at hmade hready
      rw [hpictures, hlaid.thumbnails, Config.thumbnails_rootedAt]
      dsimp only
      rw [Act.bind_apply, Act.makeFolders_apply]
      generalize s₂.files.makeFolders s₂.now (base.below Config.thumbnailWay) = made at *
      obtain ⟨result, files⟩ := made
      cases hfault : s.files.wayFault? base root Config.thumbnailWay with
      | some e =>
        rw [hfault] at hmade
        cases hmade
        refine .inl ⟨_, _, rfl, ?_⟩
        rw [PressError.anonymous, anonymous_of_wayFault? hfault]
      | none =>
        rw [hfault] at hmade
        cases hmade
        refine .inr ⟨document, pictures, _, rfl, rfl, map_fst_draw hpictures, ?_, ?_⟩
        · have hkept : ∀ place, InFolder root Config.thumbnailWay place →
              files.folderAt place = s.files.folderAt place := fun place hplace =>
            (hchanges.folders place (hapart place (.inr hplace)).1).resolve_right fun hnew =>
              hplace.not_onWay hnew.1
          exact
            { folder := hfolder.of_grown hgrown
              isFolder := hready hfault
              target := fun spec hspec => (hkept _ (inFolder_spot root t spec)).trans (h.target spec hspec)
              staging := fun spec hspec =>
                (hkept _ (inFolder_stagingSpot root t w.token spec)).trans (h.staging spec hspec) }
        · intro picture hpicture
          have hplace : ∀ place, IsDrawn folder beside (t.stem ++ picture.1.suffix) place →
              ¬InFolder root Config.thumbnailWay place := fun place hthere hin =>
            (hplaces picture.1 place hthere).elim (hapart place (.inr hin)).1 fun hstray =>
              (hapart place (.inr hin)).2 hstray.1
          obtain ⟨place, modified, hlocate, hleaf, hthere⟩ := (himages picture hpicture).mono hplace
          have hspares : Spares (fun _ => False) (fun _ => False) s₂.files files := hgrown.spares
          exact ⟨place, modified, hspares.locate (fun _ => False.elim) hlocate id,
            by rw [hgrown.leaf, hleaf], hthere⟩

/-- What a preview comes to is foreseen, and so are its thumbnails. -/
theorem previewIn_foreseen :
    (∃ e s', press.previewIn t w s = (.error e, s') ∧
      press.foreseen rules base root s.files t w = .error e.anonymous ∧
      ∀ spec, s'.files.leaf? (spot root t spec) = s.files.leaf? (spot root t spec)) ∨
    (∃ artifacts pictures s', press.previewIn t w s = (.ok artifacts, s') ∧
      press.foreseen rules base root s.files t w = .ok (artifacts, pictures) ∧
      pictures.map Prod.fst = resolutions ∧ ∀ picture ∈ pictures, ∃ modified,
        s'.files.leaf? (spot root t picture.1) = some ⟨.file picture.2, modified⟩) := by
  have hchanges := prepare_changes h.isOpen h.workplace hlaid hgoes.compiler.staysIn
    hgoes.rasterizer.writesImage h.leavesRoom (not_mem_token h.chars (by decide) (by decide)) (.refl _ _)
  have hnotRun : ∀ spec, ¬Below folder (spot root t spec) := fun spec hbelow =>
    h.not_inside_thumbnails (.inr (inFolder_spot root t spec)) hbelow.1
  have hnotStray : ∀ spec, ¬IsStray root t (spot root t spec) := fun spec hstray =>
    hstray.2.isOff_thumbnails.inFolder (inFolder_spot root t spec)
  rw [previewIn_apply, foreseen]
  rcases prepare_foreseen h hlaid hgoes with
    ⟨e, s₁, hrun, hprepared⟩ |
      ⟨document, pictures, s₁, hrun, hprepared, hspecs, hgallery, himages⟩ <;>
    rw [hrun] at hchanges ⊢ <;> rw [hprepared]
  · exact .inl ⟨e, s₁, rfl, rfl, fun spec => hchanges.leaf _ (hnotRun spec) fun haltered =>
      haltered.elim (fun hlog => (isOff_logs (inFolder_spot root t spec)).inFolder hlog.inFolder)
        (hnotStray spec)⟩
  · have hpublishes : Publishes (press.thumbnail t.stem) t base w.token :=
      { chars := h.chars
        thumbnail := fun spec _ => thumbnail_laidOut hlaid t.stem spec
        staged := fun spec hspec => staging_laidOut hlaid t hspec w.token }
    have hplacements : resolutions.map (press.placement w t.stem) = pictures.map fun picture =>
        ⟨w.image (t.stem ++ picture.1.suffix), press.thumbnail t.stem picture.1⟩ := by
      rw [← hspecs, List.map_map]
      rfl
    have hmem : ∀ picture ∈ pictures, picture.1 ∈ resolutions := fun picture hpicture =>
      hspecs ▸ List.mem_map_of_mem hpicture
    have hdistinct : (pictures.map Prod.fst).Nodup := by
      rw [hspecs]
      decide
    dsimp only
    rw [hplacements]
    have hlongest : stagesOverlong base t w.token = true ↔ _ := stagesOverlong_iff hspecs
    rcases publish_drawn (fun spec => w.image (t.stem ++ spec.suffix)) hpublishes hmem hdistinct hgallery
      himages with
      ⟨s₂, hpublished, hlong, hkept⟩ | ⟨s₂, hpublished, hshort, hshown⟩ <;> rw [hpublished]
    · refine .inl ⟨_, s₂, rfl, if_pos (hlongest.2 hlong), fun spec => ?_⟩
      rw [hkept, hchanges.1.leaf _ (hnotRun spec) (hnotStray spec)]
    · have hnone : ¬stagesOverlong base t w.token = true := by
        rw [hlongest]
        rintro ⟨picture, hpicture, hlong⟩
        rw [hshort picture hpicture] at hlong
        cases hlong
      rw [if_neg hnone]
      exact .inr ⟨_, pictures, s₂, rfl, rfl, hspecs, hshown⟩

end Foreseen

end Press

end ResumePress
