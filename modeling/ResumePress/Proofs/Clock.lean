import ResumePress.Proofs.Preview
import ResumePress.Proofs.Validation

/-!
The clock of the surroundings. Nothing that the press does itself sets it, so it goes back only if a
tool sets it back: if none does, it is never earlier after a call than before.
-/

namespace ResumePress

open Files

variable {σ α β : Type}

/-- An action that does not set the clock back. -/
def Act.Forward (a : Act σ α) : Prop :=
  ∀ s : Surroundings σ, s.now ≤ (a s).2.now

namespace Act.Forward

theorem of_now_eq {a : Act σ α} (h : ∀ s, (a s).2.now = s.now) : Forward a :=
  fun s => Nat.le_of_eq (h s).symm

theorem pure (x : α) : Forward (Pure.pure x : Act σ α) :=
  of_now_eq fun _ => rfl

theorem bind {a : Act σ α} {f : α → Act σ β} (h : Forward a) (hf : ∀ x, Forward (f x)) :
    Forward (a >>= f) :=
  fun s => Nat.le_trans (h s) (hf _ _)

theorem look (f : Tree → α) : Forward (Act.look f : Act σ α) :=
  of_now_eq fun _ => rfl

theorem waited : Forward (Act.waited : Act σ Duration) :=
  of_now_eq fun _ => rfl

theorem wait (d : Duration) : Forward (Act.wait d : Act σ Unit) :=
  of_now_eq fun _ => rfl

theorem draw : Forward (Act.draw : Act σ Nat) :=
  of_now_eq fun _ => rfl

theorem change (f : Tree → Instant → Except Fault Tree) : Forward (Act.change f : Act σ _) := by
  refine of_now_eq fun s => ?_
  rw [change_apply]
  cases f s.files s.now <;> rfl

theorem makeFolders (path : Path) : Forward (Act.makeFolders path : Act σ _) :=
  of_now_eq fun _ => rfl

theorem absolute (path : Path) : Forward (Act.absolute path : Act σ _) := by
  unfold Act.absolute
  split
  · exact .pure _
  · exact (look _).bind fun _ => .pure _

theorem modified? (path : Path) : Forward (Act.modified? path : Act σ _) :=
  (look _).bind fun _ => .pure _

end Act.Forward

theorem Act.Forward.isClosed : Act.IsClosed fun α => (Act.Forward : Act σ α → Prop) :=
  ⟨.pure, .bind, .look, .waited, .wait⟩

/-! ### Runs -/

theorem Attempts.keepLog_forward (logFolder : Path) (tag log : String) :
    Act.Forward (Attempts.keepLog logFolder tag log : Act σ _) := by
  refine .bind (.makeFolders _) fun result => ?_
  split
  · exact .pure _
  · refine .bind (.change _) fun result => ?_
    split <;> exact .pure _

theorem RetryingCompiler.compile_forward {c : RetryingCompiler σ} {source folder : Path}
    (h : ∀ engine, Act.Forward (c.compiler engine source folder)) (tag : String) :
    Act.Forward (c.compile source folder tag) := by
  refine .bind (.bind .waited fun _ => Attempts.run_closed Act.Forward.isClosed h _ _ _ _ _) fun made => ?_
  split
  · exact .pure _
  · exact (Attempts.keepLog_forward _ _ _).bind fun _ => .pure _

namespace Workspace

theorem makeFolder_forward (stem : Path) (tries : Nat) :
    Act.Forward (makeFolder stem tries : Act σ _) := by
  induction tries with
  | zero => exact .pure _
  | succ tries ih =>
    refine .bind .draw fun n => .bind (.change _) fun result => ?_
    split
    · exact .pure _
    · exact ih
    · exact .pure _

theorem create_forward (root : Path) (name : String) :
    Act.Forward (create root name : Act σ _) := by
  unfold create
  generalize 65536 = tries
  refine .bind (.makeFolders _) fun result => ?_
  split
  · exact .pure _
  · refine .bind (.absolute _) fun path => .bind (makeFolder_forward _ _) fun result => ?_
    split
    · exact .pure _
    · exact .bind (.of_now_eq fun _ => rfl) fun _ => .bind (.bind .draw fun _ => .pure _)
        fun _ => .pure _

theorem close_forward (w : Workspace) : Act.Forward (w.close : Act σ Unit) :=
  .bind (.change _) fun _ => .pure _

end Workspace

namespace Press

/-- No tool of the press sets the clock back. -/
structure InTime (press : Press σ) : Prop where
  probe : ∀ (kind : Validation.Kind) (name : String), Act.Forward (kind.probe press.toolchain name)
  compiler : ∀ (engine : TexEngine) (source folder : Path),
    Act.Forward (press.compiler.compiler engine source folder)
  rasterizer : ∀ (document : Path) (spec : RasterSpec) (stem : Path),
    Act.Forward (press.rasterizer document spec stem)

theorem discard_forward (paths : List Path) : Act.Forward (discard paths : Act σ Unit) := by
  induction paths with
  | nil => exact .pure _
  | cons path paths ih => exact .bind (.change _) fun _ => ih

theorem stageAll_forward (token : String) (placements : List Placement) (staged : List Path) :
    Act.Forward (stageAll token placements staged : Act σ _) := by
  induction placements generalizing staged with
  | nil => exact .pure _
  | cons p rest ih =>
    refine .bind (.change _) fun result => ?_
    split
    · exact ih _
    · exact (discard_forward _).bind fun _ => .pure _

theorem placeAll_forward (token : String) (placements : List Placement) :
    Act.Forward (placeAll token placements : Act σ _) := by
  induction placements with
  | nil => exact .pure _
  | cons p rest ih =>
    refine .bind (.change _) fun result => ?_
    split
    · exact ih
    · exact .pure _

theorem publish_forward (placements : List Placement) (token : String) :
    Act.Forward (publish placements token : Act σ _) := by
  refine (stageAll_forward _ _ _).bind fun result => ?_
  split
  · exact .pure _
  · exact placeAll_forward _ _

variable {press : Press σ} (h : press.InTime)
include h

theorem validate_forward (t : Template) : Act.Forward (press.validate t) :=
  Validation.validate_closed Act.Forward.isClosed h.probe t

theorem compileIn_forward (w : Workspace) (stem source : String) :
    Act.Forward (press.compileIn w stem source) := by
  refine .bind (.change _) fun result => ?_
  split
  · exact .pure _
  · refine .bind (RetryingCompiler.compile_forward (h.compiler · _ _) _) fun result => ?_
    split <;> exact .pure _

theorem prepare_forward (t : Template) (w : Workspace) : Act.Forward (press.prepare t w) := by
  refine (compileIn_forward h _ _ _).bind fun result => ?_
  split
  · exact .pure _
  · refine .bind (rasterizeAll_closed Act.Forward.isClosed _ fun _ _ => h.rasterizer _ _ _)
      fun result => ?_
    split
    · exact .pure _
    · refine .bind (.makeFolders _) fun result => ?_
      split <;> exact .pure _

theorem previewIn_forward (t : Template) (w : Workspace) : Act.Forward (press.previewIn t w) := by
  intro s
  have hprepared := prepare_forward h t w s
  rw [previewIn_apply]
  generalize press.prepare t w s = ready at hprepared
  obtain ⟨e | ⟨document, placements⟩, prepared⟩ := ready
  · exact hprepared
  · have hpublished := Nat.le_trans hprepared (publish_forward placements w.token prepared)
    dsimp only
    generalize publish placements w.token prepared = done at hpublished
    obtain ⟨e | _, published⟩ := done <;> exact hpublished

theorem compilePreview_forward (t : Template) : Act.Forward (press.compilePreview t) := by
  refine (Workspace.create_forward _ _).bind fun result => ?_
  split
  · exact .pure _
  · exact (previewIn_forward h _ _).bind fun _ => (Workspace.close_forward _).bind fun _ => .pure _

end Press

end ResumePress
