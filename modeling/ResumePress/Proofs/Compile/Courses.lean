import ResumePress.Compile.Retry
import ResumePress.Proofs.Surroundings

/-!
Courses of compilations. A course says which engines a compilation asks, what the surroundings are
each time, and how it ends, with one rule for each way in which an attempt can go on. Every
compilation has one, and a compiler that writes something down about its calls does so along it.
-/

namespace ResumePress

open Files

variable {σ α : Type}

/-- The compiler that writes something down about every call and does what it did. -/
def Compiler.noting (compiler : Compiler σ)
    (note : TexEngine → (source folder : Path) → Surroundings σ → α) : Compiler (σ × List α) :=
  fun engine source folder s =>
    let done := compiler engine source folder (s.withTools s.tools.1)
    (done.1, done.2.withTools
      (done.2.tools, s.tools.2 ++ [note engine source folder (s.withTools s.tools.1)]))

namespace Attempts

/-! ### One attempt -/

/-- Something is written down, and the attempt comes out as it would have. -/
theorem compileOnce_noting (compiler : Compiler σ)
    (note : TexEngine → (source folder : Path) → Surroundings σ → α) (engine : TexEngine)
    (source folder : Path) (s : Surroundings σ) (notes : List α) :
    compileOnce (compiler.noting note) engine source folder (s.withTools (s.tools, notes)) =
      ((compileOnce compiler engine source folder s).1,
        (compileOnce compiler engine source folder s).2.withTools
          ((compileOnce compiler engine source folder s).2.tools,
            notes ++ [note engine source folder s])) := by
  simp only [compileOnce, Act.bind_apply, Compiler.noting, Surroundings.withTools_withTools,
    Surroundings.tools_withTools, Surroundings.withTools_self]
  cases (compiler engine source folder s).1 with
  | error failure => rfl
  | ok path =>
    simp only [Act.bind_apply, Act.read_apply, Surroundings.files_withTools]
    cases (compiler engine source folder s).2.files.read path <;> rfl

/-- Reading the document changes nothing. -/
theorem compileOnce_snd (compiler : Compiler σ) (engine : TexEngine) (source folder : Path)
    (s : Surroundings σ) :
    (compileOnce compiler engine source folder s).2 = (compiler engine source folder s).2 := by
  simp only [compileOnce, Act.bind_apply]
  cases (compiler engine source folder s).1 with
  | error failure => rfl
  | ok path =>
    simp only [Act.bind_apply, Act.read_apply]
    cases (compiler engine source folder s).2.files.read path <;> rfl

theorem readLog_apply (failure : CompileFailure) (s : Surroundings σ) :
    readLog failure s =
      (((failure.log.bind fun path => (s.files.read path).toOption).bind Text.decode?).getD
        Attempt.logUnavailable, s) := by
  rcases failure with ⟨engine, reason, _ | path⟩
  · rfl
  · simp only [readLog, Act.readText, Act.bind_apply, Act.read_apply, Option.bind_some]
    cases s.files.read path with
    | error e => rfl
    | ok bytes =>
      cases hdecoded : Text.decode? bytes <;> simp [hdecoded, Except.toOption]

/-- The record of an attempt that failed. -/
def record (number : Nat) (failure : CompileFailure) (files : Tree) : Attempt :=
  let log := ((failure.log.bind fun path => (files.read path).toOption).bind Text.decode?).getD
    Attempt.logUnavailable
  ⟨number, failure.engine, log, some (LogKind.ofLog log)⟩

theorem failed_apply (number : Nat) (failure : CompileFailure) (s : Surroundings σ) :
    failed number failure s = (record number failure s.files, s) := by
  simp only [failed, Act.bind_apply, readLog_apply]
  rfl

/-! ### The whole compilation -/

variable (compiler : Compiler σ) (policy : RetryPolicy) (source folder : Path) (started : Duration)

theorem run_apply (more number : Nat) (engine : TexEngine) (s : Surroundings σ) :
    run compiler policy source folder started more number engine s =
      match compileOnce compiler engine source folder s with
      | (.ok document, s) => (⟨[⟨number, engine, "", none⟩], some document⟩, s)
      | (.error failure, s) =>
        match more, failed number failure s with
        | 0, (attempt, s) => (⟨[attempt], none⟩, s)
        | more + 1, (attempt, s) =>
          bif policy.allows (s.waited - started) (policy.delay number) then
            let rest := run compiler policy source folder started more (number + 1)
              failure.engine.alternate (Act.wait (policy.delay number) s).2
            (rest.1.after attempt, rest.2)
          else (⟨[attempt], none⟩, s) := by
  rw [run.eq_def]
  simp only [Act.bind_apply]
  rcases compileOnce compiler engine source folder s with ⟨failure | document, s⟩
  · cases more with
    | zero => rfl
    | succ more =>
      simp only [Act.bind_apply]
      rcases failed number failure s with ⟨attempt, s⟩
      change (ite (policy.allows (s.waited - started) (policy.delay number) = true) _ _ : Act σ _) s =
        bif policy.allows (s.waited - started) (policy.delay number) then _ else _
      cases policy.allows (s.waited - started) (policy.delay number) <;> rfl
  · rfl

/-- How a compilation goes on that asks an engine next, with the attempt of a number, and may make
`more` further attempts: the engines it asks with the surroundings at the time, and the end. -/
inductive Course : (more number : Nat) → TexEngine → Surroundings σ →
    List (TexEngine × Surroundings σ) → Attempts × Surroundings σ → Prop
  | found {more number engine s s' document} :
      compileOnce compiler engine source folder s = (.ok document, s') →
      Course more number engine s [(engine, s)] (⟨[⟨number, engine, "", none⟩], some document⟩, s')
  | gaveUp {more number engine s s' failure} :
      compileOnce compiler engine source folder s = (.error failure, s') →
      (more = 0 ∨ policy.allows (s'.waited - started) (policy.delay number) = false) →
      Course more number engine s [(engine, s)] (⟨[record number failure s'.files], none⟩, s')
  | retried {more number engine s s' failure starts made} :
      compileOnce compiler engine source folder s = (.error failure, s') →
      policy.allows (s'.waited - started) (policy.delay number) = true →
      Course more (number + 1) failure.engine.alternate (Act.wait (policy.delay number) s').2
        starts made →
      Course (more + 1) number engine s ((engine, s) :: starts)
        (made.1.after (record number failure s'.files), made.2)

/-- The induction is on the attempts that may follow. -/
theorem run_course (more number : Nat) (engine : TexEngine) (s : Surroundings σ) :
    ∃ starts, Course compiler policy source folder started more number engine s starts
      (run compiler policy source folder started more number engine s) := by
  induction more generalizing number engine s with
  | zero =>
    rw [run_apply]
    rcases hc : compileOnce compiler engine source folder s with ⟨failure | document, s'⟩
    · simp only [failed_apply]
      exact ⟨_, .gaveUp hc (.inl rfl)⟩
    · exact ⟨_, .found hc⟩
  | succ more ih =>
    rw [run_apply]
    rcases hc : compileOnce compiler engine source folder s with ⟨failure | document, s'⟩
    · simp only [failed_apply]
      cases hallows : policy.allows (s'.waited - started) (policy.delay number) with
      | false => exact ⟨_, .gaveUp hc (.inr hallows)⟩
      | true =>
        obtain ⟨starts, hrest⟩ := ih (number + 1) failure.engine.alternate
          (Act.wait (policy.delay number) s').2
        exact ⟨_, .retried hc hallows hrest⟩
    · exact ⟨_, .found hc⟩

variable {compiler policy source folder started}

/-- A compiler that writes something down does so at every call of the course, in order. -/
theorem Course.run_noting {more number : Nat} {engine : TexEngine} {s : Surroundings σ}
    {starts : List (TexEngine × Surroundings σ)} {made : Attempts × Surroundings σ}
    (h : Course compiler policy source folder started more number engine s starts made)
    (note : TexEngine → (source folder : Path) → Surroundings σ → α) (before : List α) :
    run (compiler.noting note) policy source folder started more number engine
        (s.withTools (s.tools, before)) =
      (made.1, made.2.withTools (made.2.tools,
        before ++ starts.map fun start => note start.1 source folder start.2)) := by
  induction h generalizing before with
  | found hc => rw [run_apply, compileOnce_noting, hc]; rfl
  | @gaveUp more number engine s s' failure hc hstop =>
    rw [run_apply, compileOnce_noting, hc]
    simp only [failed_apply]
    cases more with
    | zero => rfl
    | succ more =>
      have hspent := hstop.resolve_left (Nat.succ_ne_zero more)
      simp only [Surroundings.waited_withTools, hspent]
      rfl
  | @retried more number engine s s' failure starts made hc hallows _ ih =>
    have hwait := Act.Agree.wait (σ := σ) (policy.delay number) s'
      (s'.tools, before ++ [note engine source folder s])
    rw [run_apply, compileOnce_noting, hc]
    simp only [failed_apply, Surroundings.waited_withTools, hallows, cond_true]
    rw [hwait.1, ← hwait.2, ih]
    simp

end Attempts

end ResumePress
