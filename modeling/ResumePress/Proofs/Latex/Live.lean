import ResumePress.Proofs.Text.Occurrences

/-!
What of a text is not in comments. A comment starts at a percent sign that is not escaped and goes
on to the end of the line. A comment line that is put into a text changes nothing of the rest if a
comment can start where it is put; anywhere else it brings text to light.
-/

namespace ResumePress.Latex

open Text

/-- The start of a line up to its comment; an odd number of backslashes may stand before it. -/
def liveLineFrom (odd : Bool) : List Char → List Char
  | [] => []
  | c :: s => if c = '%' ∧ odd = false then [] else c :: liveLineFrom (c = '\\' ∧ odd = false) s

/-- The lines of a text, each up to its first percent sign with an even number of backslashes before
it. -/
def live (s : List Char) : List Char :=
  (splitAt '\n' s).flatMap (liveLineFrom false)

/-! ### Live text in one pass -/

/-- Where a text stops: in open text, behind a backslash that escapes what follows, or in a
comment. -/
inductive Mode where
  | text
  | escape
  | comment
deriving DecidableEq

namespace Mode

/-- The mode behind a character. -/
def next : Mode → Char → Mode
  | .comment, c => if c = '\n' then .text else .comment
  | .escape, _ => .text
  | .text, c => if c = '%' then .comment else if c = '\\' then .escape else .text

/-- The mode behind a text. -/
def after (m : Mode) (s : List Char) : Mode :=
  s.foldl next m

/-- A character as far as it is live. -/
def shown : Mode → Char → List Char
  | .comment, _ => []
  | .escape, c => if c = '\n' then [] else [c]
  | .text, c => if c = '\n' ∨ c = '%' then [] else [c]

/-- What is live of a text that goes on in a mode. -/
def live : Mode → List Char → List Char
  | _, [] => []
  | m, c :: s => m.shown c ++ live (m.next c) s

variable (m : Mode) (c : Char) (s u : List Char)

theorem after_append : m.after (s ++ u) = (m.after s).after u :=
  List.foldl_append

theorem live_cons : m.live (c :: s) = m.shown c ++ (m.next c).live s := rfl

theorem live_append : m.live (s ++ u) = m.live s ++ (m.after s).live u := by
  induction s generalizing m with
  | nil => rfl
  | cons c s ih => rw [List.cons_append, live_cons, live_cons, ih, List.append_assoc]; rfl

@[simp] theorem next_line : m.next '\n' = .text := by
  cases m <;> rfl

@[simp] theorem shown_line : m.shown '\n' = [] := by
  cases m <;> rfl

theorem after_line : m.after (s ++ ['\n']) = .text := by
  rw [after_append]
  exact next_line _

theorem length_comment_live_le : (comment.live s).length ≤ (m.live s).length := by
  induction s generalizing m with
  | nil => exact Nat.zero_le _
  | cons c s ih =>
    rw [live_cons, live_cons, List.length_append, List.length_append]
    by_cases hc : c = '\n'
    · simp only [hc, next_line, shown_line, Nat.le_refl]
    · have hcomment : comment.next c = .comment := by simp [next, hc]
      rw [hcomment]
      exact Nat.add_le_add (Nat.zero_le _) (ih _)

end Mode

/-- The lines of a text are read off it in one pass, in whatever mode the first of them starts. -/
theorem live_lines {s first : List Char} {rest : List (List Char)}
    (h : splitAt '\n' s = first :: rest) :
    Mode.text.live s = liveLineFrom false first ++ rest.flatMap (liveLineFrom false) ∧
      Mode.escape.live s = liveLineFrom true first ++ rest.flatMap (liveLineFrom false) ∧
      Mode.comment.live s = rest.flatMap (liveLineFrom false) := by
  -- the modes go together, as a character may lead from any of them to any other
  induction s generalizing first rest with
  | nil =>
    cases h
    exact ⟨rfl, rfl, rfl⟩
  | cons c s ih =>
    obtain ⟨next, later, hlines⟩ := List.exists_cons_of_ne_nil (splitAt_ne_nil '\n' s)
    obtain ⟨htext, hescape, hcomment⟩ := ih hlines
    rw [splitAt, hlines] at h
    simp only [Mode.live_cons]
    by_cases hc : c = '\n'
    · rw [if_pos hc] at h
      cases h
      subst hc
      simp [htext, liveLineFrom]
    · rw [if_neg hc] at h
      cases h
      by_cases hpercent : c = '%'
      · subst hpercent
        simp [Mode.next, Mode.shown, liveLineFrom, htext, hcomment]
      · by_cases hbackslash : c = '\\'
        · subst hbackslash
          simp [Mode.next, Mode.shown, liveLineFrom, htext, hescape, hcomment]
        · simp [Mode.next, Mode.shown, liveLineFrom, hc, hpercent, hbackslash, htext, hcomment]

theorem live_eq (s : List Char) : live s = Mode.text.live s := by
  obtain ⟨first, rest, h⟩ := List.exists_cons_of_ne_nil (splitAt_ne_nil '\n' s)
  rw [(live_lines h).1, live, h, List.flatMap_cons]

/-! ### Notes -/

/-- Whether a comment can start behind a text. -/
def EndsOpen (s : List Char) : Prop :=
  Mode.text.after s = .text

instance (s : List Char) : Decidable (EndsOpen s) :=
  inferInstanceAs (Decidable (_ = _))

/-- A text that starts with a percent sign and ends with its line. -/
def IsComment (n : List Char) : Prop :=
  ∃ line, n = '%' :: (line ++ ['\n'])

/-- A text that starts with a command of letters. -/
def StartsCommand (s : List Char) : Prop :=
  ∃ c rest, s = '\\' :: c :: rest ∧ c ≠ '\\' ∧ c ≠ '%' ∧ c ≠ '\n'

variable {n a s : List Char}

/-- A comment of a single line is all comment. -/
theorem live_comment {line : List Char} (h : '\n' ∉ line) :
    live ('%' :: (line ++ ['\n'])) = [] := by
  have hline : ∀ s : List Char, '\n' ∉ s → Mode.comment.live (s ++ ['\n']) = [] := by
    intro s hs
    induction s with
    | nil => rfl
    | cons c s ih =>
      rw [List.mem_cons, not_or] at hs
      simp [Mode.live_cons, Mode.next, Mode.shown, Ne.symm hs.1, ih hs.2]
  rw [live_eq, Mode.live_cons]
  exact hline line h

theorem IsComment.after (h : IsComment n) (m : Mode) : m.after n = .text := by
  obtain ⟨line, rfl⟩ := h
  exact m.after_line ('%' :: line)

/-- In open text a note without live text goes unnoticed. -/
theorem live_note (hn : IsComment n) (hopen : EndsOpen a) (hdead : live n = []) (s : List Char) :
    live (a ++ (n ++ s)) = live (a ++ s) := by
  rw [live_eq] at hdead
  simp only [live_eq, Mode.live_append, hn.after]
  rw [hopen, hdead, List.nil_append]

namespace StartsCommand

variable (h : StartsCommand s)
include h

theorem escape_live : Mode.escape.live s = Mode.text.live s := by
  obtain ⟨c, rest, rfl, hbackslash, hpercent, hline⟩ := h
  simp [Mode.live_cons, Mode.next, Mode.shown, hbackslash, hpercent, hline]

theorem length_comment_live_lt : (Mode.comment.live s).length < (Mode.text.live s).length := by
  obtain ⟨c, rest, rfl, hbackslash, hpercent, hline⟩ := h
  have hrest := Mode.text.length_comment_live_le rest
  simp [Mode.live_cons, Mode.next, Mode.shown, hline]
  omega

end StartsCommand

/-- Any other note shows, or shows what follows. -/
theorem length_live_note (hn : IsComment n) (hs : StartsCommand s)
    (h : ¬(EndsOpen a ∧ live n = [])) :
    (live (a ++ s)).length < (live (a ++ (n ++ s))).length := by
  have hafter := hn.after
  obtain ⟨line, rfl⟩ := hn
  simp only [live_eq, Mode.live_append, hafter, List.length_append] at h ⊢
  unfold EndsOpen at h
  cases hmode : Mode.text.after a with
  | text =>
    have hshown := List.length_pos_iff.2 (not_and.1 h hmode)
    omega
  | escape =>
    rw [hs.escape_live, Mode.live_cons]
    simp only [Mode.shown, List.length_append, Char.reduceEq, if_false, List.length_singleton]
    omega
  | comment =>
    have hless := hs.length_comment_live_lt
    omega

/-! ### Texts with notes -/

/-- A part of a text, and a note that may stand before it. -/
structure Segment where
  note : List Char
  text : List Char

/-- The text with its notes. -/
def annotated (segments : List Segment) : List Char :=
  segments.flatMap fun segment => segment.note ++ segment.text

/-- The text without its notes. -/
def bare (segments : List Segment) : List Char :=
  segments.flatMap Segment.text

/-- The notes are comments, each before a command. -/
def AreNoted : List Segment → Prop
  | [] => True
  | segment :: rest =>
    (segment.note ≠ [] →
      IsComment segment.note ∧ StartsCommand (segment.text ++ annotated rest)) ∧ AreNoted rest

/-- Behind a text, every note stands in open text and has no live text itself. -/
def Unnoticed : (before : List Char) → List Segment → Prop
  | _, [] => True
  | before, segment :: rest =>
    (segment.note ≠ [] → EndsOpen before ∧ live segment.note = []) ∧
      Unnoticed (before ++ segment.text) rest

instance Unnoticed.decide (before : List Char) (segments : List Segment) :
    Decidable (Unnoticed before segments) :=
  match segments with
  | [] => .isTrue trivial
  | segment :: rest =>
    have := Unnoticed.decide (before ++ segment.text) rest
    inferInstanceAs (Decidable ((segment.note ≠ [] → EndsOpen before ∧ live segment.note = []) ∧ _))

variable {segments : List Segment}

/-- The notes of a text change its live text if they are noticed, and only then. -/
theorem live_annotated (h : AreNoted segments) (before : List Char) :
    live (before ++ annotated segments) = live (before ++ bare segments) ∧
        Unnoticed before segments ∨
      (live (before ++ bare segments)).length < (live (before ++ annotated segments)).length ∧
        ¬Unnoticed before segments := by
  -- the first note is judged by the bare text before it, whatever notes follow
  induction segments generalizing before with
  | nil => exact .inl ⟨rfl, trivial⟩
  | cons segment rest ih =>
    obtain ⟨hnote, hrest⟩ := h
    have hlater := ih hrest (before ++ segment.text)
    simp only [List.append_assoc] at hlater
    simp only [annotated, bare, List.flatMap_cons, List.append_assoc, Unnoticed] at hlater hnote ⊢
    by_cases hnone : segment.note = []
    · simpa [hnone] using hlater
    · obtain ⟨hcomment, hcommand⟩ := hnote hnone
      by_cases hfine : EndsOpen before ∧ live segment.note = []
      · rw [live_note hcomment hfine.1 hfine.2]
        simpa [hnone, hfine] using hlater
      · have hmore := length_live_note hcomment hcommand hfine
        refine .inr ⟨?_, fun hall => hfine (hall.1 hnone)⟩
        rcases hlater with ⟨hsame, -⟩ | ⟨hless, -⟩
        · rwa [hsame] at hmore
        · exact Nat.lt_trans hless hmore

theorem live_annotated_iff (h : AreNoted segments) (before : List Char) :
    live (before ++ annotated segments) = live (before ++ bare segments) ↔
      Unnoticed before segments := by
  rcases live_annotated h before with ⟨hsame, hall⟩ | ⟨hless, hnot⟩
  · exact iff_of_true hsame hall
  · exact iff_of_false (fun hsame => by simp [hsame] at hless) hnot

end ResumePress.Latex
