import Mathlib
import ResumePress.Proofs.Latex.Uses

/-!
Groups of a text, which braces open and close. A text is balanced if no group is closed before it is
opened and all are closed at the end. A part of a text may be changed without harm if the new part
closes no more groups than the old one at its worst, and leaves as many open.
-/

namespace ResumePress.Latex

open Text

/-- No group is closed that is not open, and all are closed in the end. -/
structure Balanced (s : List Char) : Prop where
  count_le : ∀ part, part <+: s → part.count '\x7d' ≤ part.count '\x7b'
  count_eq : s.count '\x7b' = s.count '\x7d'

instance (s : List Char) : Decidable (Balanced s) :=
  decidable_of_iff ((∀ part ∈ s.inits, part.count '\x7d' ≤ part.count '\x7b') ∧
      s.count '\x7b' = s.count '\x7d')
    ⟨fun h => ⟨fun part hpart => h.1 part ((List.mem_inits _ _).2 hpart), h.2⟩,
      fun h => ⟨fun part hpart => h.count_le part ((List.mem_inits _ _).1 hpart), h.count_eq⟩⟩

/-- How many more groups a text opens than it closes. -/
def height (s : List Char) : Int :=
  s.count '\x7b' - s.count '\x7d'

variable {s s' a a' b b' n : List Char}

@[simp] theorem height_nil : height [] = 0 := rfl

@[simp] theorem height_append (s u : List Char) : height (s ++ u) = height s + height u := by
  simp only [height, List.count_append, Int.natCast_add]
  omega

@[simp] theorem height_open : height ['\x7b'] = 1 := rfl

@[simp] theorem height_close : height ['\x7d'] = -1 := rfl

theorem height_of_not_mem (hopen : '\x7b' ∉ s) (hclose : '\x7d' ∉ s) : height s = 0 := by
  simp [height, List.count_eq_zero_of_not_mem, hopen, hclose]

theorem height_of_not_close (h : '\x7d' ∉ s) : height s = s.count '\x7b' := by
  simp [height, List.count_eq_zero_of_not_mem h]

theorem height_of_open_mem (hclose : '\x7d' ∉ s) (hopen : '\x7b' ∈ s) : 0 < height s := by
  have := List.count_pos_iff.2 hopen
  rw [height_of_not_close hclose]
  omega

theorem height_nonneg (h : '\x7d' ∉ s) : 0 ≤ height s := by
  rw [height_of_not_close h]
  omega

theorem height_flatMap {α : Type} (f : α → List Char) (items : List α) :
    height (items.flatMap f) = (items.map fun x => height (f x)).sum := by
  induction items with
  | nil => rfl
  | cons x items ih => simp [ih]

theorem balanced_iff : Balanced s ↔ (∀ part, part <+: s → 0 ≤ height part) ∧ height s = 0 := by
  unfold height
  constructor
  · intro h
    refine ⟨fun part hpart => ?_, ?_⟩
    · have := h.count_le part hpart
      omega
    · have := h.count_eq
      omega
  · rintro ⟨hle, heq⟩
    refine ⟨fun part hpart => ?_, ?_⟩
    · have := hle part hpart
      omega
    · omega

theorem prefix_append_split {part : List Char} (h : part <+: a ++ b) :
    part <+: a ∨ ∃ rest, rest <+: b ∧ part = a ++ rest := by
  rcases List.prefix_or_prefix_of_prefix h (List.prefix_append a b) with hin | ⟨rest, rfl⟩
  · exact .inl hin
  · exact .inr ⟨rest, (List.prefix_append_right_inj a).1 h, rfl⟩

/-! ### Changes that keep the balance -/

/-- Whether a text can be put in the place of another one: it reaches no lower and ends as high. -/
structure KeepsGroups (s s' : List Char) : Prop where
  height_eq : height s' = height s
  low : ∀ part', part' <+: s' → ∃ part, part <+: s ∧ height part ≤ height part'

namespace KeepsGroups

theorem refl (s : List Char) : KeepsGroups s s :=
  ⟨rfl, fun part h => ⟨part, h, Int.le_refl _⟩⟩

theorem trans {s'' : List Char} (h : KeepsGroups s s') (h' : KeepsGroups s' s'') :
    KeepsGroups s s'' := by
  refine ⟨h'.height_eq.trans h.height_eq, fun part'' hpart'' => ?_⟩
  obtain ⟨part', hpart', hle'⟩ := h'.low part'' hpart''
  obtain ⟨part, hpart, hle⟩ := h.low part' hpart'
  exact ⟨part, hpart, Int.le_trans hle hle'⟩

theorem append (ha : KeepsGroups a a') (hb : KeepsGroups b b') :
    KeepsGroups (a ++ b) (a' ++ b') := by
  refine ⟨by simp [ha.height_eq, hb.height_eq], fun part' h => ?_⟩
  rcases prefix_append_split h with hin | ⟨rest', hrest, rfl⟩
  · obtain ⟨part, hpart, hle⟩ := ha.low part' hin
    exact ⟨part, hpart.trans (List.prefix_append a b), hle⟩
  · obtain ⟨rest, hpart, hle⟩ := hb.low rest' hrest
    refine ⟨a ++ rest, (List.prefix_append_right_inj a).2 hpart, ?_⟩
    have := ha.height_eq
    simp only [height_append]
    omega

theorem flatMap {α : Type} {f g : α → List Char} {items : List α}
    (h : ∀ x ∈ items, KeepsGroups (f x) (g x)) :
    KeepsGroups (items.flatMap f) (items.flatMap g) := by
  induction items with
  | nil => exact refl []
  | cons x items ih =>
    obtain ⟨hx, hitems⟩ := List.forall_mem_cons.1 h
    rw [List.flatMap_cons, List.flatMap_cons]
    exact hx.append (ih hitems)

theorem balanced (h : KeepsGroups s s') (hs : Balanced s) : Balanced s' := by
  rw [balanced_iff] at hs ⊢
  refine ⟨fun part' hpart' => ?_, h.height_eq.trans hs.2⟩
  obtain ⟨part, hpart, hle⟩ := h.low part' hpart'
  have := hs.1 part hpart
  omega

end KeepsGroups

theorem balanced_of_not_mem (hopen : '\x7b' ∉ s) (hclose : '\x7d' ∉ s) : Balanced s := by
  rw [balanced_iff, height_of_not_mem hopen hclose]
  exact ⟨fun part hpart => height_nonneg fun h => hclose (hpart.mem h), rfl⟩

theorem keepsGroups_of_not_mem (hopen : '\x7b' ∉ s) (hclose : '\x7d' ∉ s) (hopen' : '\x7b' ∉ s')
    (hclose' : '\x7d' ∉ s') : KeepsGroups s s' := by
  refine ⟨by rw [height_of_not_mem hopen hclose, height_of_not_mem hopen' hclose'], ?_⟩
  intro part' hpart'
  exact ⟨[], List.nil_prefix, height_nonneg fun h => hclose' (hpart'.mem h)⟩

/-- A balanced text may be put in anywhere. -/
theorem Balanced.keepsGroups (h : Balanced n) : KeepsGroups [] n := by
  obtain ⟨hle, heq⟩ := balanced_iff.1 h
  exact ⟨heq, fun part hpart => ⟨[], List.prefix_rfl, hle part hpart⟩⟩

theorem Balanced.append (ha : Balanced a) (hb : Balanced b) : Balanced (a ++ b) :=
  (ha.keepsGroups.append hb.keepsGroups).balanced
    (balanced_of_not_mem List.not_mem_nil List.not_mem_nil)

theorem Balanced.insert (h : Balanced n) (a b : List Char) : KeepsGroups (a ++ b) (a ++ (n ++ b)) :=
  (KeepsGroups.refl a).append (h.keepsGroups.append (KeepsGroups.refl b))

/-! ### Arguments and options -/

theorem height_braced (argument : List Char) : height (braced argument) = height argument := by
  have hparts : braced argument = ['\x7b'] ++ argument ++ ['\x7d'] := rfl
  rw [hparts, height_append, height_append, height_open, height_close]
  omega

theorem height_nonneg_of_prefix_braced {argument part : List Char} (h : '\x7d' ∉ argument)
    (hpart : part <+: braced argument) : 0 ≤ height part := by
  rcases prefix_append_split hpart with hin | ⟨rest, hrest, rfl⟩
  · refine height_nonneg fun hclose => ?_
    have := hin.mem hclose
    simp [h] at this
  · have hargument := height_nonneg h
    have hopen : height ('\x7b' :: argument) = 1 + height argument :=
      height_append ['\x7b'] argument
    rw [height_append, hopen]
    rcases List.prefix_cons_iff.1 hrest with rfl | ⟨_, rfl, hnil⟩
    · simp only [height_nil]
      omega
    · rw [List.prefix_nil.1 hnil, height_close]
      omega

/-- Other arguments, with a text before the use that makes up for what they lack. -/
theorem keepsGroups_argument {d : Directive} {use : Use} {note fresh : List Char}
    (hnote : '\x7d' ∉ note) (hfresh : '\x7d' ∉ fresh)
    (hsum : height note + height fresh = height use.argument) :
    KeepsGroups (d.written use) (note ++ d.written { use with argument := fresh }) := by
  have hnonneg := height_nonneg hnote
  refine ⟨?_, fun part' hpart' => ?_⟩
  · simp only [Directive.written, height_append, height_braced]
    omega
  · rcases prefix_append_split hpart' with hin | ⟨rest, hrest, rfl⟩
    · exact ⟨[], List.nil_prefix, height_nonneg fun h => hnote (hin.mem h)⟩
    · rcases prefix_append_split hrest with hin | ⟨last, hlast, rfl⟩
      · refine ⟨rest, hin.trans (List.prefix_append _ _), ?_⟩
        rw [height_append]
        omega
      · refine ⟨d.name ++ bracketed use.options, List.prefix_append _ _, ?_⟩
        have := height_nonneg_of_prefix_braced hfresh hlast
        simp only [height_append]
        omega

end ResumePress.Latex
