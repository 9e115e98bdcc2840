import Mathlib.Data.List.Infix
import ResumePress.Proofs.CacheKey
import ResumePress.Proofs.Compile.Calls
import ResumePress.Proofs.Files.Changes

/-!
The log of a compilation that never succeeded. The words that tell what a log is about are ASCII,
so they stand in the bytes of a log exactly where they stand in its text. A log is kept by way of
its text: it survives if it is text at all, and a stand-in takes its place if it is not.
-/

namespace ResumePress

open Files

namespace Text

/-- Whether the bytes of a word stand somewhere in some bytes in one piece. -/
def Mentions (bytes : ByteArray) (word : String) : Prop :=
  (encode word).data.toList <:+: bytes.data.toList

instance (bytes : ByteArray) (word : String) : Decidable (Mentions bytes word) :=
  inferInstanceAs (Decidable (_ <:+: _))

/-- A byte below 128 is a character of its own: the longer forms set the highest bit of each byte. -/
theorem utf8EncodeChar_eq_of_mem {c : Char} {b : UInt8} (hmem : b ∈ String.utf8EncodeChar c)
    (hb : b.toNat < 128) : String.utf8EncodeChar c = [b] ∧ b.toNat = c.toNat := by
  have hhigh : ∀ n, 128 ≤ n → n < 256 → UInt8.ofNat n ≠ b := by
    rintro n hlow hn rfl
    rw [UInt8.toNat_ofNat_of_lt' hn] at hb
    omega
  revert hmem
  fun_cases String.utf8EncodeChar c with
  | case1 v h1 =>
    intro hmem
    obtain rfl := List.mem_singleton.1 hmem
    exact ⟨rfl, UInt8.toNat_ofNat_of_lt' (show v < 256 by omega)⟩
  | case2 v =>
    intro hmem
    simp only [List.mem_cons, List.not_mem_nil, or_false] at hmem
    rcases hmem with h | h
    all_goals exact absurd h.symm (hhigh _ (by omega) (by omega))
  | case3 v =>
    intro hmem
    simp only [List.mem_cons, List.not_mem_nil, or_false] at hmem
    rcases hmem with h | h | h
    all_goals exact absurd h.symm (hhigh _ (by omega) (by omega))
  | case4 v =>
    intro hmem
    simp only [List.mem_cons, List.not_mem_nil, or_false] at hmem
    rcases hmem with h | h | h | h
    all_goals exact absurd h.symm (hhigh _ (by omega) (by omega))

theorem utf8EncodeChar_ascii {w : Char} (hw : w.toNat < 128) :
    String.utf8EncodeChar w = [UInt8.ofNat w.toNat] := by
  rw [String.utf8EncodeChar]
  exact if_pos (Nat.le_of_lt_succ hw)

theorem eq_of_byte_mem {w c : Char} (hw : w.toNat < 128)
    (h : UInt8.ofNat w.toNat ∈ String.utf8EncodeChar c) : w = c := by
  have hnat : (UInt8.ofNat w.toNat).toNat = w.toNat :=
    UInt8.toNat_ofNat_of_lt' (show _ < 256 by omega)
  have hc := (utf8EncodeChar_eq_of_mem h (by omega)).2
  exact Char.toNat_inj.1 (hnat.symm.trans hc)

/-- A text begins with an ASCII word if its bytes begin with the word's. -/
theorem prefix_of_encoded {word s : List Char} (hword : ∀ c ∈ word, c.toNat < 128)
    (h : word.flatMap String.utf8EncodeChar <+: s.flatMap String.utf8EncodeChar) : word <+: s := by
  induction word generalizing s with
  | nil => exact List.nil_prefix
  | cons w word ih =>
    obtain ⟨hw, hword⟩ := List.forall_mem_cons.1 hword
    cases s with
    | nil => simp [String.utf8EncodeChar_ne_nil] at h
    | cons c s =>
      obtain ⟨b, bytes, hcode⟩ :=
        List.exists_cons_of_ne_nil (String.utf8EncodeChar_ne_nil (c := c))
      have hbyte : UInt8.ofNat w.toNat = b := by
        simp only [List.flatMap_cons, utf8EncodeChar_ascii hw, hcode, List.cons_append,
          List.cons_prefix_cons] at h
        exact h.1
      obtain rfl : w = c := eq_of_byte_mem hw (by simp [hcode, hbyte])
      rw [List.flatMap_cons, List.flatMap_cons, List.prefix_append_right_inj] at h
      exact List.cons_prefix_cons.2 ⟨rfl, ih hword h⟩

/-- What begins with something that the first part is without stands in the second part. -/
theorem infix_of_not_mem {α : Type} {x : α} {a b l : List α} (hx : x ∉ a)
    (h : x :: l <:+: a ++ b) : x :: l <:+: b := by
  induction a with
  | nil => exact h
  | cons y a ih =>
    refine ih (fun ha => hx (by simp [ha]))
      ((List.infix_cons_iff.1 h).resolve_left fun hprefix => hx ?_)
    simp [(List.cons_prefix_cons.1 hprefix).1]

/-- An ASCII word stands in a text if its bytes stand in the bytes of the text: none of them is a
later byte of a character. -/
theorem infix_of_encoded {word s : List Char} (hword : ∀ c ∈ word, c.toNat < 128)
    (h : word.flatMap String.utf8EncodeChar <:+: s.flatMap String.utf8EncodeChar) :
    word <:+: s := by
  cases word with
  | nil => exact List.nil_infix
  | cons w word =>
    have hcode := utf8EncodeChar_ascii (hword w (by simp))
    induction s with
    | nil => simp [String.utf8EncodeChar_ne_nil] at h
    | cons c s ih =>
      obtain ⟨b, bytes, hcode'⟩ :=
        List.exists_cons_of_ne_nil (String.utf8EncodeChar_ne_nil (c := c))
      have hlater : UInt8.ofNat w.toNat ∉ bytes := by
        intro hmem
        obtain rfl : w = c := eq_of_byte_mem (hword w (by simp)) (by simp [hcode', hmem])
        rw [hcode, List.cons.injEq] at hcode'
        simp [← hcode'.2] at hmem
      simp only [List.flatMap_cons, hcode, hcode', List.cons_append] at h
      rcases List.infix_cons_iff.1 h with hstart | hrest
      · refine (prefix_of_encoded hword ?_).isInfix
        simpa only [List.flatMap_cons, hcode, hcode', List.cons_append] using hstart
      · refine (ih ?_).trans (List.suffix_cons c s).isInfix
        simpa only [List.flatMap_cons, hcode, List.cons_append] using infix_of_not_mem hlater hrest

theorem mentions_encode {word : String} (hword : ∀ c ∈ word.toList, c.toNat < 128) (s : String) :
    Mentions (encode s) word ↔ contains word.toList s.toList = true := by
  rw [Mentions, contains_iff_isInfix, ← toList_eq_data, ← toList_eq_data, toList_encode,
    toList_encode]
  refine ⟨infix_of_encoded hword, ?_⟩
  rintro ⟨before, after, h⟩
  rw [← h, List.flatMap_append, List.flatMap_append]
  exact List.infix_append _ _ _

end Text

/-- The kind of a log by the words that its bytes mention. -/
def LogKind.ofBytes (log : ByteArray) : LogKind :=
  if Text.Mentions log "not found" ∧ Text.Mentions log "Package" then .packageError
  else if Text.Mentions log "not found" ∧ Text.Mentions log "Font" then .fontError
  else .compilationError

/-- A log that is text is of the same kind by its bytes. -/
theorem LogKind.ofBytes_encode (log : String) : ofBytes (Text.encode log) = ofLog log := by
  have hlow : ∀ word ∈ ["not found", "Package", "Font"], ∀ c ∈ word.toList, c.toNat < 128 := by simp
  have hmentions : ∀ word ∈ ["not found", "Package", "Font"],
      (Text.Mentions (Text.encode log) word ↔ Text.contains word.toList log.toList = true) :=
    fun word hword => Text.mentions_encode (hlow word hword) log
  simp only [List.forall_mem_cons] at hmentions
  obtain ⟨hfound, hpackage, hfont, -⟩ := hmentions
  simp only [ofBytes, ofLog, hfound, hpackage, hfont, Bool.and_eq_true]

variable {σ : Type}

namespace Call

/-- The bytes of the log that a failed call names, if they can be read. -/
def log? (call : Call) : Option ByteArray :=
  match call.answer with
  | .ok _ => none
  | .error failure => failure.log.bind fun path => (call.files.read path).toOption

/-- The text that stands for the log of a call. -/
def logText (call : Call) : String :=
  (call.log?.bind Text.decode?).getD Attempt.logUnavailable

end Call

namespace Attempts

variable (compiler : Compiler σ) (policy : RetryPolicy) (source folder : Path) (started : Duration)

/-- An attempt that makes no document leaves the files as its call did, and its log is the call's. -/
theorem readLog_compileOnce {engine : TexEngine} {s s' : Surroundings σ} {failure : CompileFailure}
    (h : compileOnce compiler engine source folder s = (.error failure, s')) :
    s'.files = (Call.ofRun compiler engine source folder s).files ∧
      readLog failure s' = ((Call.ofRun compiler engine source folder s).logText, s') := by
  simp only [compileOnce, Act.bind_apply] at h
  rw [readLog_apply]
  unfold Call.logText Call.log? Call.ofRun
  cases hanswer : (compiler engine source folder s).1 with
  | error failure =>
    rw [hanswer] at h
    cases h
    exact ⟨rfl, rfl⟩
  | ok path =>
    rw [hanswer] at h
    simp only [Act.bind_apply, Act.read_apply] at h
    cases hread : (compiler engine source folder s).2.files.read path with
    | error e =>
      rw [hread] at h
      cases h
      exact ⟨rfl, rfl⟩
    | ok bytes =>
      rw [hread] at h
      cases h

/-- Attempts that make no document end with a call, after which nothing changes and whose log is
that of the last attempt. The induction is on the attempts that may follow. -/
theorem run_last (more number : Nat) (engine : TexEngine) (s : Surroundings σ)
    (hnone : (run compiler policy source folder started more number engine s).1.document = none) :
    let made := run compiler policy source folder started more number engine s
    ∃ asked t attempt, made.2 = (compileOnce compiler asked source folder t).2 ∧
      made.2.files = (Call.ofRun compiler asked source folder t).files ∧
      made.1.list.getLast? = some attempt ∧
      attempt.log = (Call.ofRun compiler asked source folder t).logText ∧
      attempt.kind = some (.ofLog attempt.log) := by
  induction more using Nat.strongRecOn generalizing number engine s with
  | ind more ih =>
    rw [run_apply] at hnone ⊢
    rcases hc : compileOnce compiler engine source folder s with ⟨failure | document, s₁⟩
    · obtain ⟨hfiles, hlog⟩ := readLog_compileOnce compiler source folder hc
      have hfailed : failed number failure s₁ = (⟨number, failure.engine,
          (Call.ofRun compiler engine source folder s).logText,
          some (.ofLog (Call.ofRun compiler engine source folder s).logText)⟩, s₁) := by
        simp only [failed, Act.bind_apply, hlog]
        rfl
      have hhere : s₁ = (compileOnce compiler engine source folder s).2 := by rw [hc]
      rw [hc] at hnone
      simp only [hfailed] at hnone ⊢
      cases more with
      | zero => exact ⟨engine, s, _, hhere, hfiles, rfl, rfl, rfl⟩
      | succ more =>
        simp only at hnone ⊢
        cases hallows : policy.allows (s₁.waited - started) (policy.delay number) with
        | false => exact ⟨engine, s, _, hhere, hfiles, rfl, rfl, rfl⟩
        | true =>
          rw [hallows] at hnone
          obtain ⟨asked, t, attempt, hsame, hfiles, hlast, hattempt⟩ :=
            ih more (Nat.lt_succ_self more) _ _ _ hnone
          refine ⟨asked, t, attempt, hsame, hfiles, ?_, hattempt⟩
          simp only [cond_true, after, List.getLast?_cons, hlast, Option.getD_some]
    · rw [hc] at hnone
      cases hnone

/-- A log that is kept can be read, as the bytes of its text. -/
theorem read_keepLog {folder : Path} {tag log : String} {s : Surroundings σ} {path : Path}
    (h : (keepLog folder tag log s).1 = some path) :
    (keepLog folder tag log s).2.files.read path = .ok (Text.encode log) := by
  simp only [keepLog, Act.bind_apply, Act.makeFolders_apply] at h ⊢
  cases hmade : (s.files.makeFolders s.now folder).1 with
  | error e =>
    rw [hmade] at h
    cases h
  | ok made =>
    rw [hmade] at h
    simp only [Act.bind_apply, Act.write_apply] at h ⊢
    cases hwritten : (s.files.makeFolders s.now folder).2.write s.now
        (folder.join (tag ++ ".log")) (Text.encode log) with
    | error e =>
      rw [hwritten] at h
      cases h
    | ok files =>
      rw [hwritten] at h
      cases h
      exact Tree.read_write hwritten

end Attempts

namespace Text

theorem decode?_encode (s : String) : decode? (encode s) = some s :=
  dif_pos s.isValidUTF8

theorem eq_encode_of_decode? {bytes : ByteArray} {s : String} (h : decode? bytes = some s) :
    bytes = encode s := by
  unfold decode? String.fromUTF8? at h
  split at h
  · cases h
    rfl
  · cases h

end Text

/-- The text that stands for a log has its bytes exactly if they are text. -/
theorem Call.encode_logText {call : Call} {log : ByteArray} (h : call.log? = some log) :
    (Text.encode call.logText = log ↔ (Text.decode? log).isSome) ∧
      LogKind.ofLog call.logText =
        if (Text.decode? log).isSome then .ofBytes log else .compilationError := by
  rw [logText, h, Option.bind_some]
  cases hdecoded : Text.decode? log with
  | some text =>
    obtain rfl := Text.eq_encode_of_decode? hdecoded
    exact ⟨by simp, (LogKind.ofBytes_encode text).symm⟩
  | none =>
    refine ⟨⟨fun hsame => ?_, nofun⟩, rfl⟩
    rw [← hsame, Text.decode?_encode] at hdecoded
    cases hdecoded

namespace RetryingCompiler

/-- What is kept of the log that the last call of a compilation left: the bytes themselves exactly
if they are text, and then the kind is theirs as well. -/
theorem log_kept_iff (c : RetryingCompiler σ) (source folder : Path) (tag : String)
    (s : Surroundings σ) :
    let made := c.compile source folder tag s
    ∃ calls : List Call,
      c.watched.compile source folder tag (s.withTools (s.tools, [])) =
        (made.1, made.2.withTools (made.2.tools, calls)) ∧
      ∀ e, made.1 = .error e → ∃ call, calls.getLast? = some call ∧
        ∀ kept log, e.log = some kept → call.log? = some log →
          (made.2.files.read kept = .ok log ↔ (Text.decode? log).isSome) ∧
          e.kind = if (Text.decode? log).isSome then .ofBytes log else .compilationError := by
  obtain ⟨calls, hrun, -⟩ := Attempts.run_watched c.compiler c.policy source folder s.waited
    (c.policy.bound - 1) 1 .primary s []
  have hends := Attempts.run_last c.compiler.watched c.policy source folder s.waited
    (c.policy.bound - 1) 1 .primary (s.withTools (s.tools, []))
  rw [List.nil_append] at hrun
  rw [hrun] at hends
  intro made
  subst made
  rw [RetryingCompiler.compile_apply, RetryingCompiler.compile_apply]
  simp only [RetryingCompiler.watched, Surroundings.waited_withTools, hrun]
  revert hends
  rcases Attempts.run c.compiler c.policy source folder s.waited (c.policy.bound - 1) 1 .primary s
    with ⟨⟨list, _ | document⟩, s₁⟩
  · intro hends
    have hkeep := Attempts.keepLog_agree (τ := σ × List Call) c.logFolder tag
      (lastLog list).2 s₁ (s₁.tools, calls)
    simp only [hkeep.1, hkeep.2]
    refine ⟨calls, rfl, fun e he => ?_⟩
    obtain ⟨asked, t, attempt, hsame, hfiles, hlast, hlog, hkind⟩ := hends rfl
    -- The last call is the one that the watched compiler wrote down last.
    have hcalls : calls = t.tools.2 ++ [.ofRun c.compiler asked source folder
        (t.withTools t.tools.1)] := by
      have hwatched := Attempts.compileOnce_watched c.compiler asked source folder
        (t.withTools t.tools.1) t.tools.2
      exact congrArg (·.tools.2) (hsame.trans (congrArg Prod.snd hwatched))
    have hlastLog : lastLog list = (.ofLog attempt.log, attempt.log) := by
      simp only [lastLog, hlast, hkind, Option.getD_some]
    refine ⟨.ofRun c.compiler asked source folder (t.withTools t.tools.1), by simp [hcalls],
      fun kept log hkept hlogged => ?_⟩
    cases he
    have hread := Attempts.read_keepLog hkept
    rw [hread, hlastLog, Except.ok.injEq, hlog]
    exact Call.encode_logText hlogged
  · intro _
    refine ⟨calls, rfl, fun e he => ?_⟩
    cases he

end RetryingCompiler

/-- A compiler that fails and leaves some bytes as the log of the source. -/
def Compiler.leaving (log : ByteArray) : Compiler Unit := fun engine source folder => do
  let path := SystemCompiler.sibling source folder "log"
  let _ ← Act.write path log
  return .error ⟨engine, "stopped", some path⟩

/-- One attempt with such a compiler. -/
def RetryingCompiler.leaving (log : ByteArray) : RetryingCompiler Unit where
  compiler := .leaving log
  policy := ⟨1, .ofSecs 0, none⟩
  logFolder := ⟨"/logs"⟩

theorem eq_error_of_map {ε α : Type} {x : Except ε α} {e : ε}
    (h : x.map (fun _ => ()) = .error e) : x = .error e := by
  cases x with
  | error _ => exact congrArg Except.error (Except.error.inj h)
  | ok _ => cases h

theorem text_log_kept :
    let log := Text.encode "Package a.sty not found"
    let made := (RetryingCompiler.leaving log).compile ⟨"/run/cv.tex"⟩ ⟨"/run"⟩ "cv" .bare
    ∃ e kept, made.1 = .error e ∧ e.log = some kept ∧ made.2.files.read kept = .ok log ∧
      e.kind = .ofBytes log := by
  intro log made
  have hfailed : made.1 = .error ⟨.packageError, 1, some ⟨"/logs/cv.log"⟩⟩ :=
    eq_error_of_map (by decide +kernel)
  obtain ⟨calls, hwatched, hlast⟩ := RetryingCompiler.log_kept_iff (.leaving log)
    ⟨"/run/cv.tex"⟩ ⟨"/run"⟩ "cv" .bare
  obtain ⟨call, hcall, hkept⟩ := hlast _ hfailed
  have hmade := congrArg (·.2.tools.2.getLast?) hwatched
  dsimp only [Surroundings.tools_withTools] at hmade
  rw [hcall] at hmade
  have hlog : call.log? = some log := by
    refine (congrArg (Option.bind · Call.log?) hmade.symm).trans ?_
    decide +kernel
  obtain ⟨hbytes, hkind⟩ := hkept _ log rfl hlog
  have htext : (Text.decode? log).isSome := by simp [log, Text.decode?_encode]
  exact ⟨_, _, hfailed, rfl, hbytes.2 htext, hkind.trans (if_pos htext)⟩

-- One byte that is no text, and neither the log nor its kind is kept.
theorem log_with_other_bytes_lost :
    let log : ByteArray := ⟨#[0xFF] ++ (Text.encode "Package a.sty not found").data⟩
    let c := RetryingCompiler.leaving log
    let made := c.compile ⟨"/run/cv.tex"⟩ ⟨"/run"⟩ "cv" .bare
    let calls := (c.watched.compile ⟨"/run/cv.tex"⟩ ⟨"/run"⟩ "cv"
      (Surroundings.bare.withTools ((), []))).2.tools.2
    calls.getLast?.bind Call.log? = some log ∧
      ∃ e kept, made.1 = .error e ∧ e.log = some kept ∧ made.2.files.read kept ≠ .ok log ∧
        e.kind ≠ .ofBytes log := by
  refine ⟨by decide +kernel, ⟨.compilationError, 1, some ⟨"/logs/cv.log"⟩⟩, _, eq_error_of_map ?_,
    rfl, ?_, ?_⟩
  all_goals decide +kernel

end ResumePress
