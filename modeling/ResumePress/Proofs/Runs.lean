import ResumePress.Press
import ResumePress.Proofs.Compile.Calls
import ResumePress.Proofs.Compile.Workspaces

/-!
What runs change. Compilers and rasterizers that keep to the folder they are given leave the rest of
the tree alone, and so does everything the press does around them, but for the log of a compilation
that never succeeded and the images it publishes.
-/

namespace ResumePress

open Files Files.Tree

variable {σ : Type}

/-- A path leads to a folder in which no links are. -/
structure Files.Tree.IsPlainFolder (t : Tree) (path : Path) (folder : Place) : Prop where
  isRooted : t.IsRooted
  locate : t.locate true path = .ok folder
  isFolder : t.folderAt folder = true
  link? : ∀ place, Below folder place → t.link? place = none

/-- A file that is written into the folder is the one of its name. -/
theorem Files.Tree.IsPlainFolder.sets_write {t t' : Tree} {path : Path} {folder : Place}
    {now : Instant} {name : String} {bytes : ByteArray} (h : t.IsPlainFolder path folder)
    (hname : Path.IsPlain name) (hwrite : t.write now (path.join name) bytes = .ok t') :
    Sets t t' (folder ++ [name]) (some ⟨.file bytes, now⟩) := by
  obtain ⟨place, hlocate, hsets⟩ := write_sets h.isRooted hwrite
  rwa [locate_join h.isRooted hname h.locate h.isFolder (.inl (h.link? _ (below_snoc _ _))) hlocate]
    at hsets

/-- A compiler that changes files only in the folder it is given and makes no links. -/
def Compiler.StaysIn (compiler : Compiler σ) : Prop :=
  ∀ (engine : TexEngine) (source folder : Path) (s : Surroundings σ) (place : Place),
    s.files.IsPlainFolder folder place →
      Within (Below place) s.files (compiler engine source folder s).2.files

/-- A rasterizer that changes files only in the folder of the stem it is given and makes no
links. -/
def Rasterizer.StaysIn (rasterizer : Rasterizer σ) : Prop :=
  ∀ (document : Path) (spec : RasterSpec) (folder : Path) (name : String) (s : Surroundings σ)
    (place : Place), '/' ∉ name.toList → s.files.IsPlainFolder folder place →
      Within (Below place) s.files (rasterizer document spec (folder.join name) s).2.files

/-- A place of a name. -/
def Named (name : String) (place : Place) : Prop :=
  ∃ folder, place = folder ++ [name]

namespace Attempts

variable {property : (α : Type) → Act σ α → Prop} (hclosed : Act.IsClosed property)
  {compiler : Compiler σ} {source folder : Path}
include hclosed

theorem compileOnce_closed {engine : TexEngine}
    (h : property _ (compiler engine source folder)) :
    property _ (compileOnce compiler engine source folder) := by
  refine hclosed.bind h fun result => ?_
  split
  · exact hclosed.pure _
  · refine hclosed.bind (hclosed.look _) fun bytes => ?_
    split <;> exact hclosed.pure _

theorem failed_closed (number : Nat) (failure : CompileFailure) :
    property _ (failed number failure) := by
  refine hclosed.bind ?_ fun _ => hclosed.pure _
  unfold readLog
  split
  · exact hclosed.pure _
  · refine hclosed.bind (hclosed.bind (hclosed.look _) fun bytes => ?_) fun log => ?_
    · split
      · exact hclosed.pure _
      · split <;> exact hclosed.pure _
    · split <;> exact hclosed.pure _

/-- What holds of every single compilation holds of all attempts together. -/
theorem run_closed (h : ∀ engine, property _ (compiler engine source folder))
    (policy : RetryPolicy) (started : Duration) (more number : Nat) (engine : TexEngine) :
    property _ (run compiler policy source folder started more number engine) := by
  induction more generalizing number engine with
  | zero =>
    rw [run.eq_def]
    refine hclosed.bind (compileOnce_closed hclosed (h engine)) fun result => ?_
    split
    · exact hclosed.pure _
    · exact hclosed.bind (failed_closed hclosed _ _) fun _ => hclosed.pure _
  | succ more ih =>
    rw [run.eq_def]
    refine hclosed.bind (compileOnce_closed hclosed (h engine)) fun result => ?_
    split
    · exact hclosed.pure _
    · refine hclosed.bind (failed_closed hclosed _ _) fun _ =>
        hclosed.bind hclosed.waited fun _ => ?_
      split
      · exact hclosed.bind (hclosed.wait _) fun _ => hclosed.bind (ih _ _) fun _ => hclosed.pure _
      · exact hclosed.pure _

omit hclosed

/-- A log that is kept is a file of its own name. -/
theorem keepLog_spares {s : Surroundings σ} (logFolder : Path) {tag : String} (log : String)
    (hroot : s.files.IsRooted) (hname : Path.IsPlain (tag ++ ".log"))
    (hlink : ∀ place, Named (tag ++ ".log") place → s.files.link? place = none)
    (region : Place → Prop) :
    Spares region (Named (tag ++ ".log")) s.files (keepLog logFolder tag log s).2.files := by
  have hgrown := makeFolders_grown hroot s.now logFolder
  rw [keepLog, Act.bind_apply, Act.makeFolders_apply]
  generalize s.files.makeFolders s.now logFolder = made at hgrown
  obtain ⟨e | _, t⟩ := made
  · exact hgrown.spares
  · simp only [Act.bind_apply, Act.write_apply]
    cases hwrite : t.write s.now (logFolder.join (tag ++ ".log")) (Text.encode log) with
    | error e => exact hgrown.spares
    | ok files =>
      obtain ⟨place, hlocate, hsets⟩ := write_sets (hgrown.isRooted hroot) hwrite
      have hnamed : Named (tag ++ ".log") place := by
        refine name_of_locate_join hname (.inr fun folder => ?_) hlocate
        rw [hgrown.link?]
        exact hlink _ ⟨folder, rfl⟩
      refine hgrown.spares.trans (hsets.spares (.inr hnamed) ?_ (by simp [Entry.target?]))
      rw [hgrown.link?]
      exact hlink place hnamed

end Attempts

/-- A property of trees in which the folder of a run stands with no links in it, and which bears
whatever is changed in the folder. -/
structure Workspace.Bears (w : Workspace) (folder : Place) (property : Tree → Prop) : Prop where
  isPlainFolder : ∀ t, property t → t.IsPlainFolder w.folder folder
  within : ∀ t t', property t → Within (Below folder) t t' → property t'

section Bears

variable {w : Workspace} {folder : Place} {property : Tree → Prop} (hbears : w.Bears folder property)
include hbears

theorem compiler_keeps {compiler : Compiler σ} (h : compiler.StaysIn) (engine : TexEngine)
    (source : Path) : Act.Keeps property (compiler engine source w.folder) :=
  fun s hs => hbears.within _ _ hs
    (h engine source w.folder s folder (hbears.isPlainFolder _ hs))

theorem rasterizer_keeps {rasterizer : Rasterizer σ} (h : rasterizer.StaysIn) {name : String}
    (hname : '/' ∉ name.toList) (document : Path) (spec : RasterSpec) :
    Act.Keeps property (rasterizer document spec (w.file name)) :=
  fun s hs => hbears.within _ _ hs
    (h document spec w.folder name s folder hname (hbears.isPlainFolder _ hs))

/-- The source is written into the folder. -/
theorem source_keeps (source : String) :
    Act.Keeps property (Act.write w.source (Text.encode source) : Act σ _) := by
  refine .change fun t now t' ht hwrite => hbears.within _ _ ht ?_
  have hsets := (hbears.isPlainFolder _ ht).sets_write ⟨by decide, by decide, by decide⟩ hwrite
  exact hsets.within (below_snoc _ _) (by simp [Entry.target?])

/-- A compilation that succeeds keeps to the folder, and so does any other up to the moment when its
log is kept. -/
theorem compileIn_ends {press : Press σ} (h : press.compiler.compiler.StaysIn)
    (stem source : String) {s : Surroundings σ} (hs : property s.files) :
    match press.compileIn w stem source s with
    | (.ok _, s') => property s'.files
    | (.error e, s') => (property s'.files ∧ e.log? = none) ∨
      ∃ s₁ log, property s₁.files ∧ Attempts.keepLog press.compiler.logFolder
        (stem ++ "-" ++ w.token) log s₁ = (e.log?, s') := by
  have hwritten := source_keeps hbears source s hs
  rw [Press.compileIn, Act.bind_apply]
  generalize (Act.write w.source (Text.encode source) : Act σ _) s = written at hwritten
  obtain ⟨e | _, s₁⟩ := written
  · exact .inl ⟨hwritten, rfl⟩
  · have hrun := Attempts.run_closed (Act.Keeps.isClosed property) (fun engine => compiler_keeps hbears h engine w.source)
      press.compiler.policy s₁.waited (press.compiler.policy.bound - 1) 1 .primary s₁ hwritten
    dsimp only
    rw [Act.bind_apply, RetryingCompiler.compile_apply]
    generalize Attempts.run press.compiler.compiler press.compiler.policy w.source w.folder
      s₁.waited (press.compiler.policy.bound - 1) 1 .primary s₁ = made at hrun
    obtain ⟨⟨list, _ | document⟩, s₂⟩ := made
    · exact .inr ⟨s₂, _, hrun, rfl⟩
    · exact hrun

end Bears

theorem rasterizeAll_closed {press : Press σ} {w : Workspace}
    {property : (α : Type) → Act σ α → Prop} (hclosed : Act.IsClosed property) {stem : String}
    (document : Path) {specs : List RasterSpec} (h : ∀ spec ∈ specs,
      property _ (press.rasterizer document spec (w.file (stem ++ spec.suffix)))) :
    property _ (press.rasterizeAll w stem document specs) := by
  induction specs with
  | nil => exact hclosed.pure _
  | cons spec specs ih =>
    obtain ⟨hfirst, hrest⟩ := List.forall_mem_cons.1 h
    refine hclosed.bind hfirst fun image => ?_
    split
    · exact hclosed.pure _
    · refine hclosed.bind (ih hrest) fun placements => ?_
      split <;> exact hclosed.pure _

section Frame

variable {w : Workspace} {folder : Place} {t : Tree} (hopen : w.IsOpen folder t)
include hopen

theorem isPlainFolder_of_spares {altered : Place → Prop} {t' : Tree}
    (hs : Spares (Below folder) altered t t') : t'.IsPlainFolder w.folder folder where
  isRooted := hs.isRooted hopen.isRooted
  locate := hopen.locate_of_spares hs true
  isFolder := hopen.isFolder_of_spares hs
  link? := fun _ => hopen.link?_of_spares hs

theorem bears_spares (altered : Place → Prop) :
    w.Bears folder (Spares (Below folder) altered t) where
  isPlainFolder := fun _ => isPlainFolder_of_spares hopen
  within := fun _ _ hs hwithin => hs.trans hwithin.spares

theorem bears_within : w.Bears folder (Within (Below folder) t) where
  isPlainFolder := fun _ hwithin =>
    isPlainFolder_of_spares hopen (hwithin.spares : Spares (Below folder) (fun _ => False) t _)
  within := fun _ _ => Within.trans

/-- A compilation that succeeds changes nothing outside of the folder, and any other no more than
its log. -/
theorem compileIn_spares {press : Press σ} (h : press.compiler.compiler.StaysIn)
    {stem : String} (hname : Path.IsPlain (stem ++ "-" ++ w.token ++ ".log"))
    (hlink : ∀ place, Named (stem ++ "-" ++ w.token ++ ".log") place → t.link? place = none)
    (source : String) {s : Surroundings σ}
    (hs : Spares (Below folder) (fun _ => False) t s.files) :
    ((press.compileIn w stem source s).1.isOk = true →
      Spares (Below folder) (fun _ => False) t (press.compileIn w stem source s).2.files) ∧
    Spares (Below folder) (Named (stem ++ "-" ++ w.token ++ ".log")) t
      (press.compileIn w stem source s).2.files := by
  have hends := compileIn_ends (bears_spares hopen _) h stem source hs
  generalize press.compileIn w stem source s = compiled at hends
  obtain ⟨e | document, s'⟩ := compiled
  · refine ⟨nofun, ?_⟩
    rcases hends with ⟨hs', -⟩ | ⟨s₁, log, hs₁, hkept⟩
    · exact hs'.mono fun _ => False.elim
    · have hspares := Attempts.keepLog_spares press.compiler.logFolder log
        (hs₁.isRooted hopen.isRooted) hname
        (fun place hplace => hs₁.link?_eq_none (hlink place hplace)) (Below folder)
      rw [hkept] at hspares
      exact (hs₁.mono fun _ => False.elim).trans hspares
  · exact ⟨fun _ => hends, hends.mono fun _ => False.elim⟩

/-- Once a run is closed, all is as it was when it was opened, but for the files it altered. -/
theorem close_leaf {altered : Place → Prop} {s : Surroundings σ}
    (hs : Spares (Below folder) altered t s.files) {place : Place} (hplace : ¬altered place) :
    (w.close s).2.files.leaf? place = t.leaf? place := by
  rw [(w.drops_close hopen hs).leaf]
  split
  · rename_i hinside
    by_cases heq : place = folder
    · rw [heq, leaf?_of_folderAt hopen.isFolder]
    · rw [(get?_eq_none.1 (hopen.empty place ⟨hinside, heq⟩)).1]
  · rename_i hinside
    exact hs.leaf place (fun hbelow => hinside hbelow.1) hplace

end Frame

namespace Press

theorem inWorkspace_apply {α : Type} (press : Press σ) (stem : String)
    (body : Workspace → Act σ (Except PressError α)) (s : Surroundings σ) :
    press.inWorkspace stem body s =
      match Workspace.create press.config.temp stem s with
      | (.error e, s) => (.error (.io e), s)
      | (.ok w, s) => ((body w s).1, (w.close (body w s).2).2) := by
  rw [inWorkspace, Act.bind_apply]
  rcases Workspace.create press.config.temp stem s with ⟨e | w, s⟩ <;> rfl

end Press

end ResumePress
