/-!
Occurrences of one text in another. `cut?` splits at the first occurrence and `cutLast?` at the
last; containment and replacement are read off them. The empty text occurs everywhere.
-/

namespace ResumePress.Text

/-- The text before and after the first occurrence of `needle`. -/
def cut? (needle : List Char) : List Char → Option (List Char × List Char)
  | [] => if needle.isEmpty then some ([], []) else none
  | c :: s =>
    if needle.isPrefixOf (c :: s) then some ([], (c :: s).drop needle.length)
    else (cut? needle s).map fun parts => (c :: parts.1, parts.2)

/-- The text before and after the last occurrence of `needle`. -/
def cutLast? (needle s : List Char) : Option (List Char × List Char) :=
  (cut? needle.reverse s.reverse).map fun parts => (parts.2.reverse, parts.1.reverse)

/-- Whether `needle` occurs in the text. -/
def contains (needle s : List Char) : Bool :=
  (cut? needle s).isSome

/-- Puts `fresh` in the place of the first occurrence of `needle`. -/
def replaceFirst (needle fresh s : List Char) : List Char :=
  match cut? needle s with
  | some (before, after) => before ++ fresh ++ after
  | none => s

/-- Splits at every `sep`; a text without one is a single part. -/
def splitAt (sep : Char) : List Char → List (List Char)
  | [] => [[]]
  | c :: s =>
    if c = sep then [] :: splitAt sep s
    else
      match splitAt sep s with
      | [] => [[c]]
      | part :: parts => (c :: part) :: parts

/-- A cut loses nothing: the parts stand around the needle. -/
theorem eq_of_cut? {needle s before after : List Char} (h : cut? needle s = some (before, after)) :
    s = before ++ needle ++ after := by
  induction s generalizing before with
  | nil =>
    cases needle with
    | nil => simp_all [cut?]
    | cons _ _ => simp [cut?] at h
  | cons c s ih =>
    unfold cut? at h
    split at h
    · rename_i hp
      obtain ⟨rest, hr⟩ := List.isPrefixOf_iff_prefix.1 hp
      simp only [Option.some.injEq, Prod.mk.injEq] at h
      obtain ⟨rfl, rfl⟩ := h
      rw [← hr]
      simp
    · obtain ⟨parts, hparts, heq⟩ := Option.map_eq_some_iff.1 h
      simp only [Prod.mk.injEq] at heq
      obtain ⟨rfl, rfl⟩ := heq
      rw [ih hparts]
      simp

/-- A text contains exactly the needles that stand somewhere in it in one piece. -/
theorem contains_iff_isInfix {needle s : List Char} : contains needle s = true ↔ needle <:+: s := by
  constructor
  · intro h
    obtain ⟨⟨before, after⟩, hcut⟩ := Option.isSome_iff_exists.1 h
    exact ⟨before, after, (eq_of_cut? hcut).symm⟩
  · intro h
    induction s with
    | nil => simp [contains, cut?, List.eq_nil_of_infix_nil h]
    | cons c s ih =>
      by_cases hp : needle.isPrefixOf (c :: s) = true
      · simp [contains, cut?, hp]
      · have hs : needle <:+: s :=
          (List.infix_cons_iff.1 h).resolve_left fun hq => hp (List.isPrefixOf_iff_prefix.2 hq)
        simpa [contains, cut?, hp] using ih hs

@[simp] theorem cut?_nil_left (s : List Char) : cut? [] s = some ([], s) := by
  cases s <;> simp [cut?]

end ResumePress.Text
