import ResumePress.Text.Pattern

/-!
Directives: a command name, options between brackets if the directive takes them, and an argument
between braces. Options end at the first closing bracket and an argument at the first closing
brace; both may run over several lines. `read?` reads the written form of a use and nothing else.
-/

namespace ResumePress.Latex

/-- The text before the first `close`, and the text behind it. -/
def upTo? (close : Char) : List Char → Option (List Char × List Char)
  | [] => none
  | c :: s =>
    if c = close then some ([], s)
    else (upTo? close s).map fun parts => (c :: parts.1, parts.2)

/-- A kind of directive. -/
structure Directive where
  name : List Char
  name_ne_nil : name ≠ []
  /-- Whether options may stand before the argument. -/
  takesOptions : Bool
  /-- Whether the argument must not be empty. -/
  needsArgument : Bool

/-- What a use of a directive says. -/
structure Use where
  options : Option (List Char)
  argument : List Char
deriving DecidableEq

/-- Options between brackets, if there are any. -/
def bracketed : Option (List Char) → List Char
  | some options => '[' :: options ++ [']']
  | none => []

/-- An argument between braces. -/
def braced (argument : List Char) : List Char :=
  '\x7b' :: argument ++ ['\x7d']

namespace Directive

/-- The written form of a use. -/
def written (d : Directive) (use : Use) : List Char :=
  d.name ++ bracketed use.options ++ braced use.argument

/-- Reads options between brackets at the start of a text. -/
def readOptions? : List Char → Option (Option (List Char) × List Char)
  | '[' :: s => (upTo? ']' s).map fun parts => (some parts.1, parts.2)
  | s => some (none, s)

/-- Reads an argument between braces at the start of a text. -/
def readArgument? : List Char → Option (List Char × List Char)
  | '\x7b' :: s => upTo? '\x7d' s
  | _ => none

/-- Reads a use at the start of a text and returns it with the rest of the text. -/
def read? (d : Directive) (s : List Char) : Option (Use × List Char) :=
  if d.name.isPrefixOf s then
    let rest := s.drop d.name.length
    match if d.takesOptions then readOptions? rest else some (none, rest) with
    | none => none
    | some (options, rest) =>
      match readArgument? rest with
      | none => none
      | some (argument, rest) =>
        if d.needsArgument && argument.isEmpty then none else some (⟨options, argument⟩, rest)
  else none

end Directive

theorem eq_of_upTo? {close : Char} {s before after : List Char}
    (h : upTo? close s = some (before, after)) : s = before ++ close :: after := by
  induction s generalizing before with
  | nil => simp [upTo?] at h
  | cons c s ih =>
    unfold upTo? at h
    split at h
    · rename_i hc
      simp only [Option.some.injEq, Prod.mk.injEq] at h
      simp [← h.1, ← h.2, hc]
    · obtain ⟨parts, hp, heq⟩ := Option.map_eq_some_iff.1 h
      simp only [Prod.mk.injEq] at heq
      obtain ⟨rfl, rfl⟩ := heq
      simp [ih hp]

namespace Directive

theorem eq_of_readOptions? {s rest : List Char} {options : Option (List Char)}
    (h : readOptions? s = some (options, rest)) : s = bracketed options ++ rest := by
  unfold readOptions? at h
  split at h
  · obtain ⟨parts, hp, heq⟩ := Option.map_eq_some_iff.1 h
    simp only [Prod.mk.injEq] at heq
    obtain ⟨rfl, rfl⟩ := heq
    simp [bracketed, eq_of_upTo? hp]
  · simp only [Option.some.injEq, Prod.mk.injEq] at h
    obtain ⟨rfl, rfl⟩ := h
    simp [bracketed]

theorem eq_of_readArgument? {s argument rest : List Char}
    (h : readArgument? s = some (argument, rest)) : s = braced argument ++ rest := by
  unfold readArgument? at h
  split at h
  · simp [braced, eq_of_upTo? h]
  · simp at h

/-- What is read is the written form of the use, at the start of the text. -/
theorem eq_of_read? {d : Directive} {s rest : List Char} {use : Use}
    (h : d.read? s = some (use, rest)) : s = d.written use ++ rest := by
  unfold read? at h
  split at h
  · rename_i hp
    obtain ⟨tail, rfl⟩ := List.isPrefixOf_iff_prefix.1 hp
    simp only [List.drop_left] at h
    split at h
    · simp at h
    · rename_i options rest' ho
      have hoptions : tail = bracketed options ++ rest' := by
        split at ho
        · exact eq_of_readOptions? ho
        · simp only [Option.some.injEq, Prod.mk.injEq] at ho
          obtain ⟨rfl, rfl⟩ := ho
          simp [bracketed]
      split at h
      · simp at h
      · rename_i argument rest'' ha
        split at h
        · simp at h
        · simp only [Option.some.injEq, Prod.mk.injEq] at h
          obtain ⟨rfl, rfl⟩ := h
          simp [written, hoptions, eq_of_readArgument? ha]
  · simp at h

/-- The pattern of the uses of a directive. -/
def pattern (d : Directive) : Text.Pattern Use where
  matchAt s := (d.read? s).map fun r => (d.written r.1, r.1)
  isPrefix := by
    intro s part use h
    obtain ⟨r, hr, heq⟩ := Option.map_eq_some_iff.1 h
    simp only [Prod.mk.injEq] at heq
    exact ⟨r.2, by rw [← heq.1, ← eq_of_read? hr]⟩
  ne_nil := by
    intro s part use h
    obtain ⟨r, hr, heq⟩ := Option.map_eq_some_iff.1 h
    simp only [Prod.mk.injEq] at heq
    rw [← heq.1]
    simp [written, d.name_ne_nil]

end Directive

end ResumePress.Latex
