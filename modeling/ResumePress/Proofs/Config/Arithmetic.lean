import ResumePress.Press
import ResumePress.Proofs.Compile.Counters
import ResumePress.Proofs.Compile.Logs
import ResumePress.Proofs.Compile.Pacing
import ResumePress.Proofs.Config.Numerals

/-!
The arithmetic behind a configuration. A configuration that could be read holds the numbers of its
environment as they are written there, and the waits of a compilation fit into the range of lengths
of time. The counters of a compilation never come to the end of 32 bits.
-/

namespace ResumePress

open Files Config

variable {σ : Type}

/-- A length of time whose seconds fit into 64 bits. -/
def Duration.Fits (d : Duration) : Prop := d < UInt64.size * 1000000000

theorem Duration.fits_ofSecs {n : Nat} (h : n < UInt64.size) : (ofSecs n).Fits :=
  Nat.mul_lt_mul_of_pos_right h (by decide)

theorem Duration.fits_ofMillis {n : Nat} (h : n < UInt64.size) : (ofMillis n).Fits :=
  Nat.lt_of_lt_of_le (Nat.mul_lt_mul_of_pos_right h (by decide))
    (Nat.mul_le_mul_left _ (by decide))

namespace Config

/-- The variables that hold numbers. -/
def numericNames : List String :=
  ["TOOLCHAIN_TIMEOUT_SECS", "COMPILE_TIMEOUT_SECS", "RETRY_BASE_DELAY_MS", "CACHE_TTL_SECS",
    "RUN_RETENTION_HOURS", "PREVIEW_WORKERS"]

/-- The environment with the assignments of the nearest environment file. -/
def Environment.loaded (env : Environment) (files : Tree) : Environment :=
  match findEnvFile files (files.home.length + 1) files.home with
  | some bytes => EnvFile.load env bytes
  | none => env

theorem read_apply (env : Environment) (s : Surroundings σ) :
    Config.read env s = (ofEnvironment (env.loaded s.files), s) := rfl

theorem bind_eq_ok {ε α β : Type} {x : Except ε α} {f : α → Except ε β} {b : β} :
    x >>= f = .ok b ↔ ∃ a, x = .ok a ∧ f a = .ok b := by
  cases x <;> simp [bind, Except.bind]

theorem exists_error_iff {ε α : Type} {x : Except ε α} : (∃ e, x = .error e) ↔ ¬∃ a, x = .ok a := by
  cases x <;> simp

/-- The numbers of a configuration are those of an environment. -/
structure Holds (c : Config) (env : Environment) : Prop where
  toolchain : ∃ n < UInt64.size, env.Gives "TOOLCHAIN_TIMEOUT_SECS" 10 n ∧ c.toolchainLimit = .ofSecs n
  compile : ∃ n < UInt64.size, env.Gives "COMPILE_TIMEOUT_SECS" 120 n ∧ c.compileLimit = .ofSecs n
  retry : ∃ n < UInt64.size, env.Gives "RETRY_BASE_DELAY_MS" 1000 n ∧ c.retryDelay = .ofMillis n
  cache : ∃ n < UInt64.size, env.Gives "CACHE_TTL_SECS" 3600 n ∧ c.cacheTime = .ofSecs n
  retention : ∃ hours, env.Gives "RUN_RETENTION_HOURS" 24 hours ∧ hours * 3600 < UInt64.size ∧
    c.runRetention = .ofSecs (hours * 3600)
  workers : ∃ n < UInt64.size, env.Gives "PREVIEW_WORKERS" 1 n ∧ c.workers = max n 1

theorem holds_of_ofEnvironment {env : Environment} {c : Config} (h : ofEnvironment env = .ok c) :
    c.Holds env := by
  simp only [ofEnvironment, bind_eq_ok, numberOr_eq_ok, hoursOr_eq_ok] at h
  obtain ⟨toolchain, h1, compile, h2, retry, h3, cache, h4, _, ⟨hours, h5, hfit, rfl⟩, workers, h6,
    h⟩ := h
  cases h
  exact ⟨⟨_, h1.lt (by decide), h1, rfl⟩, ⟨_, h2.lt (by decide), h2, rfl⟩,
    ⟨_, h3.lt (by decide), h3, rfl⟩, ⟨_, h4.lt (by decide), h4, rfl⟩, ⟨_, h5, hfit, rfl⟩,
    ⟨_, h6.lt (by decide), h6, rfl⟩⟩

theorem Holds.not_isMalformed {c : Config} {env : Environment} (h : c.Holds env) {name : String}
    (hname : name ∈ numericNames) : ¬env.IsMalformed name := by
  obtain ⟨n1, -, h1, -⟩ := h.toolchain
  obtain ⟨n2, -, h2, -⟩ := h.compile
  obtain ⟨n3, -, h3, -⟩ := h.retry
  obtain ⟨n4, -, h4, -⟩ := h.cache
  obtain ⟨hours, h5, -⟩ := h.retention
  obtain ⟨n6, -, h6, -⟩ := h.workers
  simp only [numericNames, List.mem_cons, List.not_mem_nil, or_false] at hname
  rcases hname with rfl | rfl | rfl | rfl | rfl | rfl
  exacts [(exists_gives_iff _).1 ⟨_, h1⟩, (exists_gives_iff _).1 ⟨_, h2⟩,
    (exists_gives_iff _).1 ⟨_, h3⟩, (exists_gives_iff _).1 ⟨_, h4⟩,
    (exists_gives_iff _).1 ⟨_, h5⟩, (exists_gives_iff _).1 ⟨_, h6⟩]

theorem exists_ofEnvironment {env : Environment}
    (hnames : ∀ name ∈ numericNames, ¬env.IsMalformed name)
    (hhours : ∀ hours, env.Gives "RUN_RETENTION_HOURS" 24 hours → hours * 3600 < UInt64.size) :
    ∃ c, ofEnvironment env = .ok c := by
  have hgiven : ∀ name ∈ numericNames, ∀ fallback, ∃ n, env.Gives name fallback n :=
    fun name hname fallback => (exists_gives_iff fallback).2 (hnames name hname)
  obtain ⟨n1, h1⟩ := hgiven "TOOLCHAIN_TIMEOUT_SECS" (by decide) 10
  obtain ⟨n2, h2⟩ := hgiven "COMPILE_TIMEOUT_SECS" (by decide) 120
  obtain ⟨n3, h3⟩ := hgiven "RETRY_BASE_DELAY_MS" (by decide) 1000
  obtain ⟨n4, h4⟩ := hgiven "CACHE_TTL_SECS" (by decide) 3600
  obtain ⟨hours, h5⟩ := hgiven "RUN_RETENTION_HOURS" (by decide) 24
  obtain ⟨n6, h6⟩ := hgiven "PREVIEW_WORKERS" (by decide) 1
  simp only [ofEnvironment, bind_eq_ok, numberOr_eq_ok, hoursOr_eq_ok]
  exact ⟨_, n1, h1, n2, h2, n3, h3, n4, h4, _, ⟨hours, h5, hhours hours h5, rfl⟩, n6, h6, rfl⟩

/-- Reading fails exactly if a variable is no number or the hours are too many. -/
theorem ofEnvironment_error_iff {env : Environment} :
    (∃ e, ofEnvironment env = .error e) ↔ (∃ name ∈ numericNames, env.IsMalformed name) ∨
      ∃ hours, env.Gives "RUN_RETENTION_HOURS" 24 hours ∧ UInt64.size ≤ hours * 3600 := by
  rw [exists_error_iff, ← not_iff_not, not_not, not_or]
  constructor
  · rintro ⟨c, h⟩
    have hc := holds_of_ofEnvironment h
    refine ⟨fun ⟨name, hname, hmalformed⟩ => hc.not_isMalformed hname hmalformed, ?_⟩
    rintro ⟨more, hmore, hlarge⟩
    obtain ⟨hours, hhours, hfit, -⟩ := hc.retention
    rw [hmore.eq hhours] at hlarge
    exact Nat.not_le_of_lt hfit hlarge
  · rintro ⟨hnames, hhours⟩
    exact exists_ofEnvironment (fun name hname hmalformed => hnames ⟨name, hname, hmalformed⟩)
      fun hours hgives => Nat.lt_of_not_le fun hlarge => hhours ⟨hours, hgives, hlarge⟩

/-- Any wait of three attempts with the base delay of an environment is a length of time. -/
theorem Holds.fits_delay {c : Config} {env : Environment} (h : c.Holds env) {number : Nat}
    (hnumber : number ≤ 3) : ((RetryPolicy.standard c.retryDelay).delay number).Fits := by
  obtain ⟨n, hn, -, hdelay⟩ := h.retry
  have hle : n * 1000000 * number ≤ n * 1000000 * 3 := Nat.mul_le_mul_left _ hnumber
  rw [RetryPolicy.delay, RetryPolicy.standard, hdelay]
  exact Nat.lt_of_le_of_lt hle (show n * 1000000 * 3 < UInt64.size * 1000000000 by omega)

/-- The lengths of time in a configuration. -/
def lengths (c : Config) : List Duration :=
  [c.toolchainLimit, c.compileLimit, c.retryDelay, c.cacheTime, c.runRetention]

theorem Holds.fits_lengths {c : Config} {env : Environment} (h : c.Holds env) :
    ∀ d ∈ c.lengths, d.Fits := by
  obtain ⟨n1, h1, -, htoolchain⟩ := h.toolchain
  obtain ⟨n2, h2, -, hcompile⟩ := h.compile
  obtain ⟨n3, h3, -, hretry⟩ := h.retry
  obtain ⟨n4, h4, -, hcache⟩ := h.cache
  obtain ⟨hours, -, h5, hretention⟩ := h.retention
  simp only [lengths, List.forall_mem_cons, htoolchain, hcompile, hretry, hcache, hretention]
  exact ⟨Duration.fits_ofSecs h1, Duration.fits_ofSecs h2, Duration.fits_ofMillis h3,
    Duration.fits_ofSecs h4, Duration.fits_ofSecs h5, nofun⟩

theorem Holds.one_le_workers {c : Config} {env : Environment} (h : c.Holds env) : 1 ≤ c.workers := by
  obtain ⟨n, -, -, hworkers⟩ := h.workers
  rw [hworkers]
  exact Nat.le_max_right n 1

/-- Reading an environment fails exactly if a variable that is set to a text is no number of 64 bits,
or the hours are too many. A configuration that was read holds the numbers as they are written, has a
worker, and its compilations wait for lengths of time that fit. Under any policy whose bound fits
into 32 bits the number behind an attempt that is repeated fits too, and so does the number of all
attempts. -/
theorem arithmetic_exact (env : Environment) (s : Surroundings σ) :
    ((∃ e, (Config.read env s).1 = .error e) ↔
        (∃ name ∈ numericNames, (env.loaded s.files).IsMalformed name) ∨
          ∃ hours, (env.loaded s.files).Gives "RUN_RETENTION_HOURS" 24 hours ∧
            UInt64.size ≤ hours * 3600) ∧
      (∀ c, (Config.read env s).1 = .ok c →
        c.Holds (env.loaded s.files) ∧ 1 ≤ c.workers ∧ (∀ d ∈ c.lengths, d.Fits) ∧
          ∀ (registry : Registry) (toolchain : Toolchain σ) (compiler : Compiler σ)
            (rasterizer : Rasterizer σ),
            let retrying := (Press.ofParts c registry toolchain compiler rasterizer).compiler
            retrying.policy = ⟨3, c.retryDelay, none⟩ ∧
              ∀ source folder (s : Surroundings σ),
                ∀ attempt ∈ (retrying.attempts source folder s).1.list,
                  (retrying.policy.delay attempt.number).Fits) ∧
      ∀ c : RetryingCompiler σ, c.policy.maxAttempts < UInt32.size →
        ∀ source folder tag (s : Surroundings σ),
          let list := (c.attempts source folder s).1.list
          (∀ attempt ∈ list.dropLast,
              (UInt32.ofNat attempt.number + 1).toNat = attempt.number + 1) ∧
            (UInt32.ofNat list.length).toNat = list.length ∧
              ∀ e, (c.compile source folder tag s).1 = .error e → e.attempts = list.length := by
  refine ⟨ofEnvironment_error_iff, ?_, ?_⟩
  · intro c hc
    have hholds : c.Holds (env.loaded s.files) := holds_of_ofEnvironment hc
    refine ⟨hholds, hholds.one_le_workers, hholds.fits_lengths, ?_⟩
    intro registry toolchain compiler rasterizer retrying
    refine ⟨rfl, fun source folder s attempt hattempt => ?_⟩
    exact hholds.fits_delay (retrying.number_le_bound source folder s hattempt)
  · intro c hc source folder tag s list
    have hbound : c.policy.bound < UInt32.size := Nat.max_lt.2 ⟨hc, by decide⟩
    have hlength : list.length ≤ c.policy.bound := c.length_attempts_le source folder s
    refine ⟨fun attempt hattempt => ?_, ?_, fun e he => c.attempts_of_compile source folder s he⟩
    · have hnumber := c.number_lt_bound source folder s hattempt
      rw [UInt32.toNat_add, UInt32.toNat_ofNat_of_lt' (Nat.lt_trans hnumber hbound)]
      exact Nat.mod_eq_of_lt (Nat.lt_of_le_of_lt hnumber hbound)
    · exact UInt32.toNat_ofNat_of_lt' (Nat.lt_of_le_of_lt hlength hbound)

end Config

/-- The longest delay and the longest retention that can be read, and no workers. -/
def Config.Environment.utmost : Environment where
  values := [("RETRY_BASE_DELAY_MS", Text.encode " +18446744073709551615\t"),
    ("RUN_RETENTION_HOURS", Text.encode "5124095576030431"), ("PREVIEW_WORKERS", Text.encode "0")]

/-- What is read there. -/
def Config.utmost : Config where
  templates := ⟨"templates/latex"⟩
  thumbnails := ⟨"public/templates/thumbnails"⟩
  temp := ⟨"temp"⟩
  cache := ⟨".cache/latex-previews"⟩
  toolchainLimit := .ofSecs 10
  compileLimit := .ofSecs 120
  retryDelay := .ofMillis (UInt64.size - 1)
  cacheTime := .ofSecs 3600
  runRetention := .ofSecs (UInt64.size - 16)
  workers := 1
  logLevel := "info"

/-- A press that never makes a document. -/
def Press.broken (c : Config) : Press Unit :=
  .ofParts c (.ofTemplates [] ⟨[]⟩)
    ⟨fun _ => return .answered .absent, fun _ => return .answered .absent⟩ .broken
    fun _ _ stem => return .ok stem

-- The second compilation has the highest bound there is, and its time is used up after two attempts.
theorem arithmetic_exact_utmost :
    (Config.read Environment.utmost .bare).1 = .ok .utmost ∧ 1 ≤ Config.utmost.workers ∧
      Config.utmost.retryDelay.Fits ∧
      (let compiler := (Press.broken .utmost).compiler
        ∃ attempt ∈ (compiler.attempts ⟨"a.tex"⟩ ⟨"run"⟩ .bare).1.list,
          attempt.number = 3 ∧ (compiler.policy.delay attempt.number).Fits) ∧
      let compiler : RetryingCompiler Unit :=
        ⟨.broken, ⟨4294967295, .ofMillis 10, some (.ofMillis 15)⟩, ⟨"logs"⟩⟩
      let list := (compiler.attempts ⟨"a.tex"⟩ ⟨"run"⟩ .bare).1.list
      compiler.policy.maxAttempts < UInt32.size ∧
        (∃ attempt ∈ list.dropLast, (UInt32.ofNat attempt.number + 1).toNat = attempt.number + 1) ∧
        (UInt32.ofNat list.length).toNat = list.length ∧
        ∃ e, (compiler.compile ⟨"a.tex"⟩ ⟨"run"⟩ "a" .bare).1 = .error e ∧
          e.attempts = list.length := by
  obtain ⟨-, hread, hcounters⟩ := arithmetic_exact Environment.utmost .bare
  have hutmost : (Config.read Environment.utmost .bare).1 = .ok .utmost := by decide +kernel
  obtain ⟨-, hworkers, hfits, hpress⟩ := hread .utmost hutmost
  refine ⟨hutmost, hworkers, hfits _ (.tail _ (.tail _ (.head _))), ?_, ?_⟩
  · intro compiler
    have hlast : ∃ attempt ∈ (compiler.attempts ⟨"a.tex"⟩ ⟨"run"⟩ .bare).1.list,
        attempt.number = 3 := by decide +kernel
    obtain ⟨attempt, hattempt, hnumber⟩ := hlast
    exact ⟨attempt, hattempt, hnumber, (hpress _ _ _ _).2 _ _ _ attempt hattempt⟩
  · intro compiler list
    have hlimit : compiler.policy.maxAttempts < UInt32.size := by decide
    obtain ⟨hnext, hlength, hreported⟩ := hcounters compiler hlimit ⟨"a.tex"⟩ ⟨"run"⟩ "a" .bare
    have hfirst : ∃ attempt ∈ list.dropLast, attempt.number = 1 := by decide +kernel
    obtain ⟨attempt, hattempt, -⟩ := hfirst
    have hfails : (compiler.compile ⟨"a.tex"⟩ ⟨"run"⟩ "a" .bare).1.toBool = false := by
      decide +kernel
    cases he : (compiler.compile ⟨"a.tex"⟩ ⟨"run"⟩ "a" .bare).1 with
    | ok document =>
      rw [he] at hfails
      cases hfails
    | error e =>
      exact ⟨hlimit, ⟨attempt, hattempt, hnext attempt hattempt⟩, hlength, e, rfl, hreported e he⟩

/-- A number of workers that is set to a byte which is no text. -/
def Config.Environment.unreadable : Environment where
  values := [("PREVIEW_WORKERS", ⟨#[0xFF]⟩)]

theorem unreadable_number_ignored :
    "PREVIEW_WORKERS" ∈ numericNames ∧
      Environment.unreadable.values.lookup "PREVIEW_WORKERS" = some ⟨#[0xFF]⟩ ∧
      (∀ raw n, Text.encode raw = ⟨#[0xFF]⟩ → ¬IsNumeral (Text.trim raw.toList) n) ∧
      ((Config.read Environment.unreadable .bare).1.map Config.workers) = .ok 1 := by
  refine ⟨by decide, rfl, fun raw n hraw => ?_, by decide +kernel⟩
  have hread := Text.decode?_encode raw
  rw [hraw] at hread
  have hnone : Text.decode? ⟨#[0xFF]⟩ = none := by decide +kernel
  rw [hnone] at hread
  cases hread

end ResumePress
