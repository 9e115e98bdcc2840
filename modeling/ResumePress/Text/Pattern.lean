/-!
Patterns over text. A pattern is tried at a position and takes a non-empty initial part of what
stands there. Scanning goes from the left, takes the first position that matches, and goes on
behind the match, so matches never overlap; what lies between them is kept.
-/

namespace ResumePress.Text

/-- A recogniser of a non-empty initial part of a text, with the value it reads off that part. -/
structure Pattern (α : Type) where
  /-- The part taken at the start of a text, and its value. -/
  matchAt : List Char → Option (List Char × α)
  isPrefix : ∀ {s part : List Char} {a : α}, matchAt s = some (part, a) → part <+: s
  ne_nil : ∀ {s part : List Char} {a : α}, matchAt s = some (part, a) → part ≠ []

/-- A scanned text is a sequence of single characters and matches. -/
inductive Piece (α : Type) where
  | plain (c : Char)
  | hit (part : List Char) (value : α)

/-- The text of a piece. -/
def Piece.text {α : Type} : Piece α → List Char
  | .plain c => [c]
  | .hit part _ => part

namespace Pattern

variable {α : Type}

/-- Scans the text after its first `skip` characters. -/
def scanFrom (p : Pattern α) : (skip : Nat) → List Char → List (Piece α)
  | _, [] => []
  | skip + 1, _ :: s => scanFrom p skip s
  | 0, c :: s =>
    match p.matchAt (c :: s) with
    | some (part, a) => .hit part a :: scanFrom p (part.length - 1) s
    | none => .plain c :: scanFrom p 0 s

/-- The characters and matches that make up a text. -/
def scan (p : Pattern α) (s : List Char) : List (Piece α) :=
  p.scanFrom 0 s

/-- All matches, from left to right. -/
def hits (p : Pattern α) (s : List Char) : List (List Char × α) :=
  (p.scan s).filterMap fun
    | .plain _ => none
    | .hit part a => some (part, a)

/-- The values of all matches, from left to right. -/
def values (p : Pattern α) (s : List Char) : List α :=
  (p.hits s).map Prod.snd

/-- The first match. -/
def first? (p : Pattern α) (s : List Char) : Option (List Char × α) :=
  (p.hits s).head?

/-- The text before the first match, the match, and the text behind it. -/
def cut? (p : Pattern α) : List Char → Option (List Char × List Char × List Char)
  | [] => none
  | c :: s =>
    match p.matchAt (c :: s) with
    | some (part, _) => some ([], part, (c :: s).drop part.length)
    | none => (cut? p s).map fun parts => (c :: parts.1, parts.2)

/-- Whether the pattern matches anywhere. -/
def occursIn (p : Pattern α) (s : List Char) : Bool :=
  (p.first? s).isSome

/-- Puts `f part value` in the place of every match. -/
def replace (p : Pattern α) (f : List Char → α → List Char) (s : List Char) : List Char :=
  (p.scan s).flatMap fun
    | .plain c => [c]
    | .hit part a => f part a

/-- The pattern that takes one fixed text. -/
def literal (word : List Char) (h : word ≠ []) : Pattern Unit where
  matchAt s := if word.isPrefixOf s then some (word, ()) else none
  isPrefix := by
    intro s part a hm
    split at hm
    · rename_i hp
      simp only [Option.some.injEq, Prod.mk.injEq] at hm
      exact hm.1 ▸ List.isPrefixOf_iff_prefix.1 hp
    · simp at hm
  ne_nil := by
    intro s part a hm
    split at hm
    · simp only [Option.some.injEq, Prod.mk.injEq] at hm
      exact hm.1 ▸ h
    · simp at hm

theorem scanFrom_eq_drop (p : Pattern α) (skip : Nat) (s : List Char) :
    p.scanFrom skip s = p.scan (s.drop skip) := by
  induction s generalizing skip with
  | nil => cases skip <;> rfl
  | cons c s ih =>
    cases skip with
    | zero => rfl
    | succ n => simpa [scanFrom] using ih n

@[simp] theorem scan_nil (p : Pattern α) : p.scan [] = [] := rfl

/-- At a match the scan goes on behind it. -/
theorem scan_of_matchAt (p : Pattern α) {s part : List Char} {a : α}
    (h : p.matchAt s = some (part, a)) :
    p.scan s = .hit part a :: p.scan (s.drop part.length) := by
  obtain ⟨rest, rfl⟩ := p.isPrefix h
  match part, p.ne_nil h with
  | d :: part, _ =>
    show p.scanFrom 0 (d :: (part ++ rest)) = _
    rw [List.cons_append] at h
    rw [scanFrom, h]
    simp [scanFrom_eq_drop]

/-- A character at which nothing matches stands alone. -/
theorem scan_cons_of_none (p : Pattern α) {c : Char} {s : List Char}
    (h : p.matchAt (c :: s) = none) : p.scan (c :: s) = .plain c :: p.scan s := by
  simp [scan, scanFrom, h]

/-- The pieces of a scan are the text itself. -/
theorem flatMap_text_scan (p : Pattern α) (s : List Char) :
    (p.scan s).flatMap Piece.text = s := by
  match s with
  | [] => rfl
  | c :: s =>
    match h : p.matchAt (c :: s) with
    | none =>
      rw [scan_cons_of_none p h]
      simp [Piece.text, flatMap_text_scan p s]
    | some (part, a) =>
      rw [scan_of_matchAt p h]
      obtain ⟨rest, hr⟩ := p.isPrefix h
      have hlen : 0 < part.length := List.length_pos_iff.2 (p.ne_nil h)
      have ih := flatMap_text_scan p ((c :: s).drop part.length)
      simp only [List.flatMap_cons, Piece.text, ih]
      rw [← hr]
      simp
termination_by s.length
decreasing_by
  · simp
  · simp only [List.length_drop, List.length_cons]
    omega

end Pattern

/-- Puts `fresh` in the place of every occurrence of `needle`; an empty needle occurs at every
boundary between characters and at both ends. -/
def replaceAll (needle fresh s : List Char) : List Char :=
  if h : needle = [] then fresh ++ s.flatMap (fun c => c :: fresh)
  else (Pattern.literal needle h).replace (fun _ _ => fresh) s

end ResumePress.Text
