import Mathlib.Data.List.Chain
import ResumePress.Proofs.Compile.Courses

/-!
The calls of a compilation. A compiler that is watched does what it did and writes down every call:
the engine it was asked for, its answer, and the files as it left them. What a compilation calls is
described by `Trail`, one rule for each way in which an attempt can go on; the rules of the retry
policy are read off it.
-/

namespace ResumePress

open Files

/-- A call of a compiler: the engine asked for, the answer, and the files as the call left them. -/
structure Call where
  asked : TexEngine
  answer : Except CompileFailure Path
  files : Tree

namespace Call

/-- The bytes of the document, if the call returned one that can be read. -/
def document? (call : Call) : Option ByteArray :=
  match call.answer with
  | .ok path => (call.files.read path).toOption
  | .error _ => none

theorem document?_eq_some {call : Call} {bytes : ByteArray} : call.document? = some bytes ↔
    ∃ path, call.answer = .ok path ∧ call.files.read path = .ok bytes := by
  unfold document?
  cases call.answer with
  | error failure => simp
  | ok path => cases hread : call.files.read path <;> simp [Except.toOption, hread]

/-- The engine that a failed call is put down to: the one that the failure names, or the one that
was asked if the document cannot be read. -/
def named (call : Call) : TexEngine :=
  match call.answer with
  | .ok _ => call.asked
  | .error failure => failure.engine

variable {σ : Type}

/-- What is written down about a call. -/
def ofRun (compiler : Compiler σ) (asked : TexEngine) (source folder : Path) (s : Surroundings σ) :
    Call :=
  ⟨asked, (compiler asked source folder s).1, (compiler asked source folder s).2.files⟩

/-- Whether the call is one of a compiler, in some surroundings. -/
def IsOf (compiler : Compiler σ) (source folder : Path) (call : Call) : Prop :=
  ∃ s, call = ofRun compiler call.asked source folder s

end Call

variable {σ : Type}

/-- The compiler that writes down its calls. -/
def Compiler.watched (compiler : Compiler σ) : Compiler (σ × List Call) :=
  fun engine source folder s =>
    let done := compiler engine source folder (s.withTools s.tools.1)
    (done.1, done.2.withTools
      (done.2.tools, s.tools.2 ++ [.ofRun compiler engine source folder (s.withTools s.tools.1)]))

/-- Whether every failure of a compiler names the engine that was asked. -/
def Compiler.NamesAsked (compiler : Compiler σ) : Prop :=
  ∀ engine source folder s failure,
    (compiler engine source folder s).1 = .error failure → failure.engine = engine

/-- The same with a compiler that writes down its calls. -/
def RetryingCompiler.watched (c : RetryingCompiler σ) : RetryingCompiler (σ × List Call) :=
  ⟨c.compiler.watched, c.policy, c.logFolder⟩

theorem Call.IsOf.named_eq_asked {compiler : Compiler σ} {source folder : Path} {call : Call}
    (h : call.IsOf compiler source folder) (hc : compiler.NamesAsked) :
    call.named = call.asked := by
  obtain ⟨s, hs⟩ := h
  unfold Call.named
  split
  · rfl
  · next failure hf =>
    rw [hs] at hf
    exact hc _ _ _ _ _ hf

/-! ### One attempt -/

namespace Attempts

/-- A call that is watched is written down, and the attempt comes out as it would have. -/
theorem compileOnce_watched (compiler : Compiler σ) (engine : TexEngine) (source folder : Path)
    (s : Surroundings σ) (calls : List Call) :
    compileOnce compiler.watched engine source folder (s.withTools (s.tools, calls)) =
      ((compileOnce compiler engine source folder s).1,
        (compileOnce compiler engine source folder s).2.withTools
          ((compileOnce compiler engine source folder s).2.tools,
            calls ++ [.ofRun compiler engine source folder s])) :=
  compileOnce_noting compiler (Call.ofRun compiler) engine source folder s calls

/-- An attempt makes a document exactly if its call returned one that can be read; else the failure
names the engine that the call is put down to. -/
theorem compileOnce_result (compiler : Compiler σ) (engine : TexEngine) (source folder : Path)
    (s : Surroundings σ) :
    match (compileOnce compiler engine source folder s).1 with
    | .ok document =>
      (Call.ofRun compiler engine source folder s).document? = some document.bytes
    | .error failure =>
      (Call.ofRun compiler engine source folder s).document? = none ∧
        (Call.ofRun compiler engine source folder s).named = failure.engine := by
  simp only [compileOnce, Act.bind_apply, Call.ofRun, Call.document?, Call.named]
  cases hc : (compiler engine source folder s).1 with
  | error failure => exact ⟨rfl, rfl⟩
  | ok path =>
    simp only [Act.bind_apply, Act.read_apply]
    cases hr : (compiler engine source folder s).2.files.read path with
    | error e => exact ⟨rfl, rfl⟩
    | ok bytes => rfl

theorem keepLog_agree {τ : Type} (folder : Path) (tag log : String) :
    Act.Agree (keepLog folder tag log : Act σ _) (keepLog folder tag log : Act τ _) := by
  refine .bind (.makeFolders folder) fun made => ?_
  split
  · exact .pure _
  · refine .bind (.change _) fun written => ?_
    split <;> exact .pure _

end Attempts

/-! ### The whole compilation -/

/-- How a compilation goes on that asks an engine next and may make `more` further attempts: the
calls it makes, and the document in the end. -/
inductive Trail (compiler : Compiler σ) (source folder : Path) :
    (more : Nat) → TexEngine → List Call → Option ByteArray → Prop
  | found {more engine call bytes} : call.IsOf compiler source folder → call.asked = engine →
      call.document? = some bytes → Trail compiler source folder more engine [call] (some bytes)
  | gaveUp {more engine call} : call.IsOf compiler source folder → call.asked = engine →
      call.document? = none → Trail compiler source folder more engine [call] none
  | retried {more engine call calls result} : call.IsOf compiler source folder →
      call.asked = engine → call.document? = none →
      Trail compiler source folder more call.named.alternate calls result →
      Trail compiler source folder (more + 1) engine (call :: calls) result

namespace Trail

variable {compiler : Compiler σ} {source folder : Path} {more : Nat} {engine : TexEngine}
  {calls : List Call} {result : Option ByteArray}

theorem ne_nil (h : Trail compiler source folder more engine calls result) : calls ≠ [] := by
  cases h <;> exact List.cons_ne_nil _ _

theorem length_le (h : Trail compiler source folder more engine calls result) :
    calls.length ≤ more + 1 := by
  induction h with
  | found | gaveUp => simp
  | retried _ _ _ _ ih => simpa using ih

theorem head? (h : Trail compiler source folder more engine calls result) :
    calls.head?.map Call.asked = some engine := by
  cases h with
  | found _ ha _ | gaveUp _ ha _ | retried _ ha _ _ => simp [ha]

theorem isOf (h : Trail compiler source folder more engine calls result) :
    ∀ call ∈ calls, call.IsOf compiler source folder := by
  induction h with
  | found ho _ _ | gaveUp ho _ _ => simpa using ho
  | retried ho _ _ _ ih => simpa using ⟨ho, ih⟩

/-- Every call asks for the alternate of the engine that the failure before it is put down to. -/
theorem isChain (h : Trail compiler source folder more engine calls result) :
    calls.IsChain fun call next => next.asked = call.named.alternate := by
  induction h with
  | found | gaveUp => exact .singleton _
  | retried _ _ _ hrest ih =>
    refine List.isChain_cons.2 ⟨fun next hnext => ?_, ih⟩
    simpa [Option.mem_def.1 hnext] using hrest.head?

theorem dropLast (h : Trail compiler source folder more engine calls result) :
    ∀ call ∈ calls.dropLast, call.document? = none := by
  induction h with
  | found | gaveUp => simp
  | retried _ _ hd hrest ih =>
    rw [List.dropLast_cons_of_ne_nil hrest.ne_nil]
    simpa using ⟨hd, ih⟩

/-- Every call but the last one failed. -/
theorem document?_getElem (h : Trail compiler source folder more engine calls result) {k : Nat}
    (hk : k + 1 < calls.length) : calls[k].document? = none := by
  refine h.dropLast _ (List.mem_iff_getElem.2 ⟨k, ?_, List.getElem_dropLast ..⟩)
  rw [List.length_dropLast]
  omega

theorem getLast? (h : Trail compiler source folder more engine calls result) :
    calls.getLast?.bind Call.document? = result := by
  induction h with
  | found _ _ hd | gaveUp _ _ hd => simpa using hd
  | retried _ _ _ hrest ih => simpa [List.getLast?_cons_of_ne_nil hrest.ne_nil] using ih

end Trail

namespace Attempts

variable {compiler : Compiler σ} {policy : RetryPolicy} {source folder : Path} {started : Duration}
  {more number : Nat} {engine : TexEngine}

/-- The calls of a course make a trail. -/
theorem Course.trail {s : Surroundings σ} {starts : List (TexEngine × Surroundings σ)}
    {made : Attempts × Surroundings σ}
    (h : Course compiler policy source folder started more number engine s starts made) :
    Trail compiler source folder more engine
      (starts.map fun start => .ofRun compiler start.1 source folder start.2)
      (made.1.document.map Compiled.bytes) := by
  induction h with
  | @found more number engine s s' document hc =>
    have hresult := compileOnce_result compiler engine source folder s
    rw [hc] at hresult
    exact .found ⟨s, rfl⟩ rfl hresult
  | @gaveUp more number engine s s' failure hc hstop =>
    have hresult := compileOnce_result compiler engine source folder s
    rw [hc] at hresult
    exact .gaveUp ⟨s, rfl⟩ rfl hresult.1
  | @retried more number engine s s' failure starts made hc _ _ ih =>
    have hresult := compileOnce_result compiler engine source folder s
    rw [hc] at hresult
    rw [← hresult.2] at ih
    exact .retried ⟨s, rfl⟩ rfl hresult.1 ih

theorem run_watched (compiler : Compiler σ) (policy : RetryPolicy) (source folder : Path)
    (started : Duration) (more number : Nat) (engine : TexEngine) (s : Surroundings σ)
    (before : List Call) :
    let made := run compiler policy source folder started more number engine s
    ∃ calls,
      run compiler.watched policy source folder started more number engine
          (s.withTools (s.tools, before)) =
        (made.1, made.2.withTools (made.2.tools, before ++ calls)) ∧
      Trail compiler source folder more engine calls (made.1.document.map Compiled.bytes) := by
  obtain ⟨starts, hcourse⟩ := run_course compiler policy source folder started more number engine s
  exact ⟨_, hcourse.run_noting (Call.ofRun compiler) before, hcourse.trail⟩

end Attempts

/-- What a retry policy admits: some calls, as many as it bounds; the first asks for XeLaTeX and each
later one for the alternate of the engine that the failure before it is put down to; all but the
last failed. -/
structure RetryPolicy.Admits (policy : RetryPolicy) (calls : List Call) : Prop where
  one_le_length : 1 ≤ calls.length
  length_le : calls.length ≤ max 1 policy.maxAttempts
  first : calls.head?.map Call.asked = some .xelatex
  alternate : calls.IsChain fun call next => next.asked = call.named.alternate
  failed : ∀ call ∈ calls.dropLast, call.document? = none

theorem Trail.admits {compiler : Compiler σ} {source folder : Path} {calls : List Call}
    {result : Option ByteArray} (policy : RetryPolicy)
    (h : Trail compiler source folder (policy.bound - 1) .primary calls result) :
    policy.Admits calls where
  one_le_length := List.length_pos_of_ne_nil h.ne_nil
  length_le := by
    have hlength := h.length_le
    unfold RetryPolicy.bound at hlength
    omega
  first := h.head?
  alternate := h.isChain
  failed := h.dropLast

theorem asked_of_isChain {calls : List Call} {engine : TexEngine}
    (hhead : calls.head?.map Call.asked = some engine)
    (hchain : calls.IsChain fun call next => next.asked = call.asked.alternate) (k : Nat)
    (hk : k < calls.length) :
    calls[k].asked = if k % 2 = 0 then engine else engine.alternate := by
  induction calls generalizing engine k with
  | nil => simp at hk
  | cons call rest ih =>
    obtain rfl : call.asked = engine := by simpa using hhead
    cases k with
    | zero => rfl
    | succ k =>
      obtain ⟨hnext, hrest⟩ := List.isChain_cons.1 hchain
      have hk' : k < rest.length := by simpa using hk
      have hlast : rest.head?.map Call.asked = some call.asked.alternate := by
        rw [List.head?_eq_getElem?, List.getElem?_eq_getElem (by omega)] at hnext ⊢
        simpa using hnext
      rw [List.getElem_cons_succ, ih hlast hrest k hk', TexEngine.alternate_alternate]
      split <;> split <;> first | rfl | omega

theorem RetryingCompiler.compile_apply (c : RetryingCompiler σ) (source folder : Path)
    (tag : String) (s : Surroundings σ) :
    c.compile source folder tag s =
      match Attempts.run c.compiler c.policy source folder s.waited (c.policy.bound - 1) 1 .primary s
        with
      | (⟨list, some document⟩, s) =>
        (.ok ⟨document.bytes, document.path, document.engine, list⟩, s)
      | (⟨list, none⟩, s) =>
        let log := Attempts.keepLog c.logFolder tag (lastLog list).2 s
        (.error ⟨(lastLog list).1, list.length, log.1⟩, log.2) := by
  simp only [compile, attempts, Act.bind_apply, Act.waited_apply]
  rcases Attempts.run c.compiler c.policy source folder s.waited (c.policy.bound - 1) 1 .primary s
    with ⟨⟨list, _ | document⟩, s⟩ <;> rfl

/-- A compiler that writes something down in the attempts does so in the whole compilation. -/
theorem RetryingCompiler.compile_noting {α : Type} (c : RetryingCompiler σ)
    (noting : Compiler (σ × List α)) (source folder : Path) (tag : String) (s : Surroundings σ)
    {notes : List α}
    (hrun : Attempts.run noting c.policy source folder s.waited (c.policy.bound - 1) 1 .primary
        (s.withTools (s.tools, [])) =
      let made := Attempts.run c.compiler c.policy source folder s.waited (c.policy.bound - 1) 1
        .primary s
      (made.1, made.2.withTools (made.2.tools, notes))) :
    let made := c.compile source folder tag s
    compile ⟨noting, c.policy, c.logFolder⟩ source folder tag (s.withTools (s.tools, [])) =
      (made.1, made.2.withTools (made.2.tools, notes)) := by
  intro made
  subst made
  rw [compile_apply, compile_apply]
  simp only [Surroundings.waited_withTools, hrun]
  rcases Attempts.run c.compiler c.policy source folder s.waited (c.policy.bound - 1) 1 .primary s
    with ⟨⟨list, _ | document⟩, s₁⟩
  · have hkeep := Attempts.keepLog_agree (τ := σ × List α) c.logFolder tag (lastLog list).2 s₁
      (s₁.tools, notes)
    simp only [hkeep.1, hkeep.2]
  · rfl

end ResumePress
