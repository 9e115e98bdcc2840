import ResumePress.Surroundings

/-!
Actions as functions of the surroundings. An action that leaves the tools alone does the same
whatever the tools keep, so what they keep can be exchanged before or after it.
-/

namespace ResumePress

open Files

namespace Act

variable {σ α β : Type}

@[simp] theorem bind_apply (a : Act σ α) (f : α → Act σ β) (s : Surroundings σ) :
    (a >>= f) s = f (a s).1 (a s).2 := rfl

@[simp] theorem pure_apply (x : α) (s : Surroundings σ) : (pure x : Act σ α) s = (x, s) := rfl

@[simp] theorem look_apply (f : Tree → α) (s : Surroundings σ) : look f s = (f s.files, s) := rfl

@[simp] theorem waited_apply (s : Surroundings σ) : (waited : Act σ _) s = (s.waited, s) := rfl

/-- The outcome of a change, which leaves everything as it is if it fails. -/
def changed (s : Surroundings σ) : Except Fault Tree → Except Fault Unit × Surroundings σ
  | .ok files => (.ok (), { s with files := files })
  | .error e => (.error e, s)

@[simp] theorem changed_ok (s : Surroundings σ) (files : Tree) :
    changed s (.ok files) = (.ok (), { s with files := files }) := rfl

theorem change_apply (f : Tree → Instant → Except Fault Tree) (s : Surroundings σ) :
    change f s = changed s (f s.files s.now) := by
  unfold change changed
  cases f s.files s.now <;> rfl

theorem write_apply (path : Path) (bytes : ByteArray) (s : Surroundings σ) :
    write path bytes s = changed s (s.files.write s.now path bytes) := change_apply _ s

theorem makeFolder_apply (path : Path) (s : Surroundings σ) :
    makeFolder path s = changed s (s.files.makeFolder s.now path) := change_apply _ s

theorem removeFile_apply (path : Path) (s : Surroundings σ) :
    removeFile path s = changed s (s.files.removeFile s.now path) := change_apply _ s

theorem removeFolder_apply (path : Path) (s : Surroundings σ) :
    removeFolder path s = changed s (s.files.removeFolder s.now path) := change_apply _ s

theorem rename_apply (source target : Path) (s : Surroundings σ) :
    rename source target s = changed s (s.files.rename s.now source target) := change_apply _ s

theorem copy_apply (source target : Path) (s : Surroundings σ) :
    copy source target s = changed s (s.files.copy s.now source target) := change_apply _ s

theorem makeFolders_apply (path : Path) (s : Surroundings σ) :
    makeFolders path s = ((s.files.makeFolders s.now path).1,
      { s with files := (s.files.makeFolders s.now path).2 }) := rfl

theorem read_apply (path : Path) (s : Surroundings σ) : read path s = (s.files.read path, s) := rfl

theorem isThere_apply (path : Path) (s : Surroundings σ) :
    isThere path s = ((s.files.stat path).isOk, s) := rfl

end Act

/-- The surroundings at another time. -/
def Surroundings.atTime {σ : Type} (s : Surroundings σ) (time : Instant) : Surroundings σ :=
  { s with now := time }

section Time

variable {σ : Type} (s : Surroundings σ) (time : Instant)

@[simp] theorem Surroundings.files_atTime : (s.atTime time).files = s.files := rfl

@[simp] theorem Surroundings.random_atTime : (s.atTime time).random = s.random := rfl

@[simp] theorem Surroundings.now_atTime : (s.atTime time).now = time := rfl

end Time

/-- The surroundings with other things kept by the tools. -/
def Surroundings.withTools {σ τ : Type} (s : Surroundings σ) (tools : τ) : Surroundings τ :=
  { s with tools := tools }

section Tools

variable {σ τ α β : Type}

@[simp] theorem Surroundings.files_withTools (s : Surroundings σ) (tools : τ) :
    (s.withTools tools).files = s.files := rfl

@[simp] theorem Surroundings.tools_withTools (s : Surroundings σ) (tools : τ) :
    (s.withTools tools).tools = tools := rfl

@[simp] theorem Surroundings.waited_withTools (s : Surroundings σ) (tools : τ) :
    (s.withTools tools).waited = s.waited := rfl

@[simp] theorem Surroundings.withTools_withTools {υ : Type} (s : Surroundings σ) (tools : τ)
    (others : υ) : (s.withTools tools).withTools others = s.withTools others := rfl

@[simp] theorem Surroundings.withTools_self (s : Surroundings σ) :
    s.withTools s.tools = s := rfl

/-- Two actions do the same, but for what the tools keep, which neither of them touches. -/
def Act.Agree (a : Act σ α) (b : Act τ α) : Prop :=
  ∀ (s : Surroundings σ) (tools : τ),
    b (s.withTools tools) = ((a s).1, (a s).2.withTools tools) ∧ (a s).2.tools = s.tools

namespace Act.Agree

theorem pure (x : α) : Agree (Pure.pure x : Act σ α) (Pure.pure x : Act τ α) :=
  fun _ _ => ⟨rfl, rfl⟩

theorem bind {a : Act σ α} {b : Act τ α} {f : α → Act σ β} {g : α → Act τ β} (h : Agree a b)
    (hf : ∀ x, Agree (f x) (g x)) : Agree (a >>= f) (b >>= g) := by
  intro s tools
  have ha := h s tools
  have hr := hf (a s).1 (a s).2 tools
  rw [bind_apply, bind_apply, ha.1]
  exact ⟨hr.1, hr.2.trans ha.2⟩

theorem look (f : Tree → α) : Agree (Act.look f : Act σ α) (Act.look f : Act τ α) :=
  fun _ _ => ⟨rfl, rfl⟩

theorem wait (d : Duration) : Agree (Act.wait d : Act σ Unit) (Act.wait d : Act τ Unit) :=
  fun _ _ => ⟨rfl, rfl⟩

theorem makeFolders (path : Path) :
    Agree (Act.makeFolders path : Act σ _) (Act.makeFolders path : Act τ _) :=
  fun _ _ => ⟨rfl, rfl⟩

theorem change (f : Tree → Instant → Except Fault Tree) :
    Agree (Act.change f : Act σ _) (Act.change f : Act τ _) := by
  intro s tools
  simp only [Act.change, Surroundings.withTools]
  split <;> exact ⟨rfl, rfl⟩

end Act.Agree

end Tools

/-- Whatever holds of the files before the action holds after it. -/
def Act.Keeps {σ α : Type} (property : Tree → Prop) (a : Act σ α) : Prop :=
  ∀ s : Surroundings σ, property s.files → property (a s).2.files

namespace Act.Keeps

variable {σ α β : Type} {property : Tree → Prop}

theorem pure (x : α) : Keeps property (Pure.pure x : Act σ α) :=
  fun _ => id

theorem bind {a : Act σ α} {f : α → Act σ β} (h : Keeps property a)
    (hf : ∀ x, Keeps property (f x)) : Keeps property (a >>= f) :=
  fun s hs => hf _ _ (h s hs)

theorem look (f : Tree → α) : Keeps property (Act.look f : Act σ α) :=
  fun _ => id

/-- What goes on after a look may count on what was seen in a tree with the property. -/
theorem look_bind {f : Tree → α} {g : α → Act σ β}
    (h : ∀ t, property t → Keeps property (g (f t))) : Keeps property (Act.look f >>= g) :=
  fun s hs => h s.files hs s hs

theorem change {f : Tree → Instant → Except Fault Tree}
    (h : ∀ t now t', property t → f t now = .ok t' → property t') :
    Keeps property (Act.change f : Act σ _) := by
  intro s hs
  rw [change_apply]
  cases hf : f s.files s.now with
  | error e => exact hs
  | ok files => exact h _ _ _ hs hf

theorem waited : Keeps property (Act.waited : Act σ Duration) :=
  fun _ => id

theorem wait (d : Duration) : Keeps property (Act.wait d : Act σ Unit) :=
  fun _ => id

end Act.Keeps

/-- A property of actions that those have which only look or wait, and that a composition has if its
parts do. -/
structure Act.IsClosed {σ : Type} (property : (α : Type) → Act σ α → Prop) : Prop where
  pure : ∀ {α : Type} (x : α), property α (Pure.pure x)
  bind : ∀ {α β : Type} {a : Act σ α} {f : α → Act σ β}, property α a → (∀ x, property β (f x)) →
    property β (a >>= f)
  look : ∀ {α : Type} (f : Tree → α), property α (Act.look f)
  waited : property Duration Act.waited
  wait : ∀ d : Duration, property Unit (Act.wait d)

theorem Act.Keeps.isClosed {σ : Type} (property : Tree → Prop) :
    Act.IsClosed fun α => (Act.Keeps property : Act σ α → Prop) :=
  ⟨.pure, .bind, .look, .waited, .wait⟩

/-- Surroundings with one folder, in which nothing is. -/
def Surroundings.bare : Surroundings Unit where
  files := ⟨[(["run"], ⟨.folder, 0⟩)], []⟩
  now := 0
  waited := 0
  random := id
  drawn := 0
  tools := ()

end ResumePress
