import Mathlib.Order.Bounds.Basic
import Mathlib.Tactic.Ring
import ResumePress.Proofs.Compile.Calls

/-!
Waits between attempts. When the compiler itself takes no time, the waits alone decide how much of
the time is spent at an attempt, so the rules of the retry policy say beforehand after how many
failures a compilation gives up and how long it has waited by then.
-/

namespace ResumePress

open Files

variable {σ : Type}

/-! ### The waits of a policy -/

namespace RetryPolicy

variable (p : RetryPolicy)

/-- How long the waits after the first attempts are together, if so many fail. -/
def paused : Nat → Duration
  | 0 => 0
  | n + 1 => paused n + min (p.delay (n + 1)) Act.longestWait

/-- Whether there is no time left for the wait after a failed attempt. -/
def IsSpent (number : Nat) : Prop :=
  ∃ budget ∈ p.budget, budget < p.paused (number - 1) + p.delay number

/-- Whether an attempt is the last one, when all before it failed; `succeeds` says which attempts
would succeed. -/
def Ends (succeeds : Nat → Prop) (number : Nat) : Prop :=
  succeeds number ∨ max 1 p.maxAttempts ≤ number ∨ p.IsSpent number

theorem allows_eq_false (spent delay : Duration) :
    p.allows spent delay = false ↔ ∃ budget ∈ p.budget, budget < spent + delay := by
  unfold allows
  cases p.budget <;> simp

theorem paused_le_of_not_isSpent {n : Nat} (h : ¬p.IsSpent (n + 1)) :
    ∀ budget ∈ p.budget, p.paused (n + 1) ≤ budget := by
  intro budget hbudget
  by_contra hlate
  refine h ⟨budget, hbudget, (not_le.1 hlate).trans_le ?_⟩
  exact Nat.add_le_add_left (min_le_left _ _) _

theorem delay_le_of_le {m n : Nat} (h : m ≤ n) : p.delay m ≤ p.delay n :=
  Nat.mul_le_mul_left _ h

theorem two_mul_paused {n : Nat} (h : p.delay n ≤ Act.longestWait) :
    2 * p.paused n = p.baseDelay * (n + 1) * n := by
  induction n with
  | zero => rfl
  | succ n ih =>
    rw [paused, min_eq_left h, Nat.mul_add, ih ((p.delay_le_of_le n.le_succ).trans h), delay]
    ring

/-- Waits none of which is cut short are together half the base delay times `n * (n - 1)`. -/
theorem paused_eq {n : Nat} (hn : 0 < n) (h : p.delay (n - 1) ≤ Act.longestWait) :
    p.paused (n - 1) = p.baseDelay * n * (n - 1) / 2 := by
  obtain ⟨n, rfl⟩ := Nat.exists_eq_succ_of_ne_zero hn.ne'
  refine (Nat.div_eq_of_eq_mul_right two_pos ?_).symm
  exact (p.two_mul_paused h).symm

theorem isSpent_iff {n : Nat} (hn : 0 < n) (h : p.delay (n - 1) ≤ Act.longestWait) :
    p.IsSpent n ↔ ∃ budget ∈ p.budget, budget < p.baseDelay * n * (n + 1) / 2 := by
  obtain ⟨n, rfl⟩ := Nat.exists_eq_succ_of_ne_zero hn.ne'
  have hsum : p.paused n + p.delay (n + 1) = p.baseDelay * (n + 1) * (n + 1 + 1) / 2 := by
    refine (Nat.div_eq_of_eq_mul_right two_pos ?_).symm
    have htotal : 2 * p.paused n = p.baseDelay * (n + 1) * n := p.two_mul_paused h
    rw [Nat.mul_add 2, htotal, delay]
    ring
  exact exists_congr fun budget => and_congr_right fun _ => by rw [← hsum]; rfl

end RetryPolicy

/-! ### Compilers that take no time -/

/-- A compiler that spends no time waiting. -/
def Compiler.TakesNoTime (compiler : Compiler σ) : Prop :=
  ∀ engine source folder s, (compiler engine source folder s).2.waited = s.waited

/-- The compiler that writes down its calls, each with the time spent waiting before it. -/
def Compiler.timed (compiler : Compiler σ) : Compiler (σ × List (Call × Duration)) :=
  compiler.noting fun engine source folder s => (.ofRun compiler engine source folder s, s.waited)

/-- The same with a compiler that writes down its calls and their times. -/
def RetryingCompiler.timed (c : RetryingCompiler σ) :
    RetryingCompiler (σ × List (Call × Duration)) :=
  ⟨c.compiler.timed, c.policy, c.logFolder⟩

namespace Attempts

variable {compiler : Compiler σ} {policy : RetryPolicy} {source folder : Path} {started : Duration}
  {more number : Nat} {engine : TexEngine} {s : Surroundings σ}
  {starts : List (TexEngine × Surroundings σ)} {made : Attempts × Surroundings σ}

theorem waited_compileOnce (hc : compiler.TakesNoTime) (engine : TexEngine)
    (s : Surroundings σ) :
    (compileOnce compiler engine source folder s).2.waited = s.waited := by
  rw [compileOnce_snd]
  exact hc engine source folder s

/-- How long a course has waited at each call and in the end, which waits fit into the time, and
why it ends without a document, if it does. -/
structure Course.Paced (policy : RetryPolicy) (started : Duration) (more before : Nat)
    (starts : List (TexEngine × Surroundings σ)) (made : Attempts × Surroundings σ) : Prop where
  waited : ∀ k (hk : k < starts.length), starts[k].2.waited = started + policy.paused (before + k)
  total : made.2.waited = started + policy.paused (before + (starts.length - 1))
  fits : ∀ k, k + 1 < starts.length → ¬policy.IsSpent (before + k + 1)
  ends : made.1.document = none →
    starts.length = more + 1 ∨ policy.IsSpent (before + starts.length)

/-- The induction is along the course, whose first attempt comes after `before` others. -/
theorem Course.paced (hc : compiler.TakesNoTime) (before : Nat)
    (h : Course compiler policy source folder started more number engine s starts made)
    (hnumber : number = before + 1) (hs : s.waited = started + policy.paused before) :
    Course.Paced policy started more before starts made := by
  have hspent : ∀ {s s' : Surroundings σ} {engine : TexEngine}
      {result : Except CompileFailure Compiled} {before : Nat},
      s.waited = started + policy.paused before →
      compileOnce compiler engine source folder s = (result, s') →
      s'.waited = started + policy.paused before ∧
      (policy.allows (s'.waited - started) (policy.delay (before + 1)) = false ↔
        policy.IsSpent (before + 1)) := by
    intro s s' engine result before hs honce
    have hsame : s'.waited = s.waited := by
      rw [← waited_compileOnce hc engine s, honce]
    rw [hsame, hs, Nat.add_sub_cancel_left, RetryPolicy.allows_eq_false]
    exact ⟨rfl, Iff.rfl⟩
  induction h generalizing before with
  | found honce =>
    exact ⟨by simpa using hs, (hspent hs honce).1, fun k hk => by simp at hk, nofun⟩
  | gaveUp honce hstop =>
    subst hnumber
    refine ⟨by simpa using hs, (hspent hs honce).1, fun k hk => by simp at hk, fun _ => ?_⟩
    exact hstop.imp (fun hmore => by rw [hmore]; rfl) (hspent hs honce).2.1
  | @retried more number engine s s' failure starts made honce hallows hrest ih =>
    subst hnumber
    obtain ⟨hafter, hspent⟩ := hspent hs honce
    have hfits : ¬policy.IsSpent (before + 1) := by
      rw [← hspent, hallows]
      decide
    have hwaited : (Act.wait (policy.delay (before + 1)) s').2.waited =
        started + policy.paused (before + 1) := by
      change s'.waited + _ = _
      rw [hafter, RetryPolicy.paused, Nat.add_assoc]
    have hlater := ih (before + 1) rfl hwaited
    have hpos : 0 < starts.length := List.length_pos_iff.2 fun hnil => by
      rw [hnil] at hrest
      cases hrest
    refine ⟨fun k hk => ?_, ?_, fun k hk => ?_, fun hnone => ?_⟩
    · cases k with
      | zero => exact hs
      | succ k =>
        rw [List.getElem_cons_succ, hlater.waited, Nat.add_right_comm, Nat.add_assoc before]
    · rw [hlater.total, List.length_cons]
      congr 2
      omega
    · cases k with
      | zero => exact hfits
      | succ k =>
        have hnext := hlater.fits k (by simpa using hk)
        rwa [Nat.add_right_comm before 1 k] at hnext
    · refine (hlater.ends hnone).imp (fun hlength => by simp [hlength]) fun hlast => ?_
      rwa [List.length_cons, Nat.add_comm starts.length, ← Nat.add_assoc]

/-- The waits of a course are together within the time. -/
theorem Course.Paced.paused_le (h : Course.Paced policy started more 0 starts made) :
    ∀ budget ∈ policy.budget, policy.paused (starts.length - 1) ≤ budget := by
  intro budget hbudget
  cases hn : starts.length - 1 with
  | zero => exact Nat.zero_le budget
  | succ n =>
    refine policy.paused_le_of_not_isSpent (fun hspent => ?_) budget hbudget
    exact h.fits n (by omega) (by simpa using hspent)

/-- A course makes calls until one of them succeeds or the policy ends it. -/
theorem Course.isLeast_length
    (h : Course compiler policy source folder started more number engine s starts made)
    (hpaced : Course.Paced policy started more 0 starts made)
    (hbound : more + 1 = max 1 policy.maxAttempts) {succeeds : Nat → Prop}
    (hsucceeds : ∀ k (hk : k < starts.length), succeeds (k + 1) ↔
      (Call.ofRun compiler starts[k].1 source folder starts[k].2).document?.isSome) :
    IsLeast {k | 1 ≤ k ∧ policy.Ends succeeds k} starts.length := by
  have htrail := h.trail
  have hpos : 0 < starts.length := by
    simpa using List.length_pos_of_ne_nil htrail.ne_nil
  have hlimit : starts.length ≤ more + 1 := by
    simpa using htrail.length_le
  refine ⟨⟨hpos, ?_⟩, fun k ⟨hk, hends⟩ => ?_⟩
  · cases hdocument : made.1.document with
    | none =>
      refine .inr ((hpaced.ends hdocument).imp (fun hmore => ?_) fun hspent => ?_)
      · rw [hmore, hbound]
      · rwa [Nat.zero_add] at hspent
    | some document =>
      have hlast := htrail.getLast?
      rw [hdocument, List.getLast?_eq_getElem?, List.length_map, List.getElem?_map,
        List.getElem?_eq_getElem (by omega)] at hlast
      have hcall := (hsucceeds (starts.length - 1) (by omega)).2
        (Option.isSome_iff_exists.2 ⟨_, hlast⟩)
      rw [Nat.sub_add_cancel hpos] at hcall
      exact .inl hcall
  · by_contra hlt
    obtain ⟨k, rfl⟩ := Nat.exists_eq_succ_of_ne_zero (Nat.one_le_iff_ne_zero.1 hk)
    rw [not_le, Nat.succ_eq_add_one] at hlt
    rcases hends with hcall | hcalls | hspent
    · have hnone := htrail.document?_getElem (k := k) (by simpa using hlt)
      rw [List.getElem_map] at hnone
      rw [hsucceeds k (by omega), hnone] at hcall
      cases hcall
    · omega
    · exact hpaced.fits k hlt (by simpa using hspent)

end Attempts

/-- Keeping the log takes no time. -/
theorem Attempts.waited_keepLog (folder : Path) (tag log : String) (s : Surroundings σ) :
    (keepLog folder tag log s).2.waited = s.waited := by
  simp only [keepLog, Act.bind_apply, Act.makeFolders_apply]
  cases (s.files.makeFolders s.now folder).1 with
  | error e => rfl
  | ok made =>
    simp only [Act.bind_apply, Act.write_apply]
    cases (s.files.makeFolders s.now folder).2.write s.now (folder.join (tag ++ ".log"))
      (Text.encode log) <;> rfl

theorem RetryingCompiler.waited_compile (c : RetryingCompiler σ) (source folder : Path)
    (tag : String) (s : Surroundings σ) :
    (c.compile source folder tag s).2.waited =
      (Attempts.run c.compiler c.policy source folder s.waited (c.policy.bound - 1) 1 .primary
        s).2.waited := by
  rw [compile_apply]
  rcases Attempts.run c.compiler c.policy source folder s.waited (c.policy.bound - 1) 1 .primary s
    with ⟨⟨list, _ | document⟩, s₁⟩
  · exact Attempts.waited_keepLog ..
  · rfl

/-- When the compiler takes no time, a compilation makes as many calls as it takes until one of them
succeeds, the attempts are used up, or the next wait does not fit into the time. The call after `k`
failures is made when the waits after these are over; the waits are together within the time; and as
long as none is cut short, those of `n` calls sum up to half the base delay times `n * (n - 1)`. -/
theorem RetryingCompiler.compile_paced (c : RetryingCompiler σ) (hc : c.compiler.TakesNoTime)
    (source folder : Path) (tag : String) (s : Surroundings σ) :
    let made := c.compile source folder tag s
    ∃ calls : List (Call × Duration),
      c.timed.compile source folder tag (s.withTools (s.tools, [])) =
        (made.1, made.2.withTools (made.2.tools, calls)) ∧
      (∀ succeeds : Nat → Prop,
        (∀ k (hk : k < calls.length), succeeds (k + 1) ↔ calls[k].1.document?.isSome) →
        IsLeast {k | 1 ≤ k ∧ c.policy.Ends succeeds k} calls.length) ∧
      (∀ k (hk : k < calls.length), calls[k].2 = s.waited + c.policy.paused k) ∧
      made.2.waited = s.waited + c.policy.paused (calls.length - 1) ∧
      (∀ budget ∈ c.policy.budget, c.policy.paused (calls.length - 1) ≤ budget) ∧
      ∀ n, 0 < n → c.policy.delay (n - 1) ≤ Act.longestWait →
        c.policy.paused (n - 1) = c.policy.baseDelay * n * (n - 1) / 2 ∧
        (c.policy.IsSpent n ↔
          ∃ budget ∈ c.policy.budget, budget < c.policy.baseDelay * n * (n + 1) / 2) := by
  intro made
  obtain ⟨starts, hcourse⟩ := Attempts.run_course c.compiler c.policy source folder s.waited
    (c.policy.bound - 1) 1 .primary s
  have hpaced := hcourse.paced hc 0 rfl rfl
  have hbound : c.policy.bound - 1 + 1 = max 1 c.policy.maxAttempts := by
    rw [RetryPolicy.bound]
    omega
  have htotal : made.2.waited = s.waited + c.policy.paused (starts.length - 1) := by
    rw [c.waited_compile, hpaced.total, Nat.zero_add]
  have hrun := hcourse.run_noting (fun engine source folder s =>
    (Call.ofRun c.compiler engine source folder s, s.waited)) []
  refine ⟨_, c.compile_noting c.compiler.timed source folder tag s hrun, ?_⟩
  simp only [List.nil_append, List.length_map, List.getElem_map]
  refine ⟨fun succeeds hsucceeds => hcourse.isLeast_length hpaced hbound hsucceeds,
    fun k hk => ?_, htotal, hpaced.paused_le, fun n hn hshort =>
      ⟨c.policy.paused_eq hn hshort, c.policy.isSpent_iff hn hshort⟩⟩
  rw [hpaced.waited k hk, Nat.zero_add]

/-- A compiler that never makes a document. -/
def Compiler.broken : Compiler Unit := fun engine _ _ =>
  return .error ⟨engine, "exited with 1", none⟩

theorem Compiler.broken_takesNoTime : broken.TakesNoTime :=
  fun _ _ _ _ => rfl

-- After the fourth failure one millisecond is missing.
theorem broken_paced :
    let c : RetryingCompiler Unit :=
      ⟨.broken, ⟨9, .ofMillis 10, some (.ofMillis 99)⟩, ⟨"logs"⟩⟩
    let made := c.compile ⟨"a.tex"⟩ ⟨"run"⟩ "a" .bare
    Compiler.broken.TakesNoTime ∧ made.2.waited = .ofMillis 60 ∧
      ∃ calls : List (Call × Duration),
        c.timed.compile ⟨"a.tex"⟩ ⟨"run"⟩ "a" (Surroundings.bare.withTools ((), [])) =
          (made.1, made.2.withTools ((), calls)) ∧
        calls.map Prod.snd = [0, .ofMillis 10, .ofMillis 30, .ofMillis 60] ∧
        IsLeast {k | 1 ≤ k ∧ c.policy.Ends (fun _ => False) k} calls.length := by
  intro c made
  obtain ⟨calls, hrun, hends, -⟩ := c.compile_paced Compiler.broken_takesNoTime ⟨"a.tex"⟩ ⟨"run"⟩
    "a" .bare
  have hcalls : calls =
      (c.timed.compile ⟨"a.tex"⟩ ⟨"run"⟩ "a" (Surroundings.bare.withTools ((), []))).2.tools.2 := by
    rw [hrun]
    rfl
  refine ⟨Compiler.broken_takesNoTime, by decide +kernel, calls, hrun, ?_, hends _ ?_⟩
  · rw [hcalls]
    decide +kernel
  · subst hcalls
    decide +kernel

-- Waits of more than thirty years are cut short, so three calls wait less than three times the base
-- delay.
theorem wait_cut_short :
    let c : RetryingCompiler Unit := ⟨.broken, ⟨3, .ofMillis (10 ^ 12), none⟩, ⟨"logs"⟩⟩
    let made := c.watched.compile ⟨"a.tex"⟩ ⟨"run"⟩ "a" (Surroundings.bare.withTools ((), []))
    Compiler.broken.TakesNoTime ∧ made.2.tools.2.length = 3 ∧
      made.2.waited = .ofMillis 1892160000000 ∧
      made.2.waited ≠ c.policy.baseDelay * 3 * (3 - 1) / 2 :=
  ⟨Compiler.broken_takesNoTime, by decide +kernel⟩

end ResumePress
