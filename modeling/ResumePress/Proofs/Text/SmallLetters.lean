import ResumePress.Text.Case
import ResumePress.Text.Find

/-!
The small letters of a part of a text. All characters but the capital sigma are mapped on their own,
so a part has the letters it has by itself as far as the forms of its sigmas are the same. A sigma is
loose if its form goes by what stands around the part; a part without one has the same letters in
every text, and a part with one has other letters in some text.
-/

namespace ResumePress.Text.Case

/-- Whether a capital sigma between the two sides, the first from its end, is at the end of a word. -/
def isFinal (before after : List Char) : Bool :=
  meetsCased before && !meetsCased after

/-- The small letters of a character that stands between the two sides. -/
def letters (before : List Char) (c : Char) (after : List Char) : List Char :=
  if c = 'Σ' then if isFinal before after then ['ς'] else ['σ'] else small c

/-- The small letters of a text that stands between `before`, given from its end, and `after`. -/
def lowerAmid (before after : List Char) : List Char → List Char
  | [] => []
  | c :: s => letters before c (s ++ after) ++ lowerAmid (c :: before) after s

variable {before after before' after' s u v : List Char}

theorem lowerFrom_eq_lowerAmid (before s : List Char) :
    lowerFrom before s = lowerAmid before [] s := by
  induction s generalizing before with
  | nil => rfl
  | cons c s ih =>
    rw [lowerFrom, lowerAmid, ih, List.append_nil]
    rfl

theorem lowerAmid_append (before s t after : List Char) :
    lowerAmid before after (s ++ t) =
      lowerAmid before (t ++ after) s ++ lowerAmid (s.reverse ++ before) after t := by
  induction s generalizing before with
  | nil => rfl
  | cons c s ih => simp [lowerAmid, ih]

/-- The small letters of a text, told by the letters of one part of it. -/
theorem lower_around (before s after : List Char) :
    lower (before ++ s ++ after) =
      lowerAmid [] (s ++ after) before ++ lowerAmid before.reverse after s ++
        lowerAmid (s.reverse ++ before.reverse) [] after := by
  rw [lower, lowerFrom_eq_lowerAmid, List.append_assoc, lowerAmid_append, lowerAmid_append]
  simp

/-! ### The sides of a sigma -/

theorem meetsCased_append_of_all (h : s.all isIgnorable = true) (after : List Char) :
    meetsCased (s ++ after) = meetsCased after := by
  rw [meetsCased, meetsCased, List.dropWhile_append_of_pos fun c hc => List.all_eq_true.1 h c hc]

theorem meetsCased_append_of_not_all (h : s.all isIgnorable = false) (after : List Char) :
    meetsCased (s ++ after) = meetsCased s := by
  induction s with
  | nil => cases h
  | cons c s ih =>
    by_cases hc : isIgnorable c = true
    · have hs : s.all isIgnorable = false := by simpa [hc] using h
      simpa [meetsCased, hc] using ih hs
    · simp [meetsCased, hc]

theorem meetsCased_of_all (h : s.all isIgnorable = true) : meetsCased s = false := by
  rw [← List.append_nil s, meetsCased_append_of_all h]
  rfl

theorem meetsCased_append_of_meetsCased (h : meetsCased s = true) (after : List Char) :
    meetsCased (s ++ after) = true := by
  cases hs : s.all isIgnorable with
  | true =>
    rw [meetsCased_of_all hs] at h
    cases h
  | false => rw [meetsCased_append_of_not_all hs, h]

/-- The sigmas of a text have the form that they have without the two sides. -/
def KeepsForms (before after s : List Char) : Prop :=
  ∀ u v, s = u ++ 'Σ' :: v → isFinal (u.reverse ++ before) (v ++ after) = isFinal u.reverse v

/-- The form of a sigma between these parts of a text goes by what stands around the text: nothing
but ignorable characters are on one side, and the other side leaves the form open. -/
def IsLoose (u v : List Char) : Prop :=
  (u.all isIgnorable = true ∧ meetsCased v = false) ∨
    (meetsCased u.reverse = true ∧ v.all isIgnorable = true)

instance (u v : List Char) : Decidable (IsLoose u v) :=
  inferInstanceAs (Decidable (_ ∨ _))

/-- A text with a capital sigma whose form goes by what stands around the text. -/
def HasLooseSigma (s : List Char) : Prop :=
  ∃ u v, s = u ++ 'Σ' :: v ∧ IsLoose u v

theorem hasLooseSigma_iff : HasLooseSigma s ↔ ∃ k ∈ List.range s.length,
    s[k]? = some 'Σ' ∧ IsLoose (s.take k) (s.drop (k + 1)) := by
  constructor
  · rintro ⟨u, v, rfl, hloose⟩
    refine ⟨u.length, by simp, by simp, ?_⟩
    rwa [List.take_left, List.drop_append, List.drop_of_length_le (Nat.le_succ _),
      Nat.add_sub_cancel_left, List.nil_append, List.drop_one, List.tail_cons]
  · rintro ⟨k, _, hk, hloose⟩
    refine ⟨_, _, ?_, hloose⟩
    obtain ⟨hlt, hget⟩ := List.getElem?_eq_some_iff.1 hk
    rw [← hget, ← List.drop_eq_getElem_cons hlt, List.take_append_drop]

instance (s : List Char) : Decidable (HasLooseSigma s) :=
  decidable_of_iff _ hasLooseSigma_iff.symm

theorem isFinal_eq_of_not_loose (h : ¬IsLoose u v) (before after : List Char) :
    isFinal (u.reverse ++ before) (v ++ after) = isFinal u.reverse v := by
  cases hu : u.all isIgnorable with
  | true =>
    have hv : meetsCased v = true := Bool.of_not_eq_false fun hv => h (.inl ⟨hu, hv⟩)
    simp [isFinal, meetsCased_append_of_meetsCased hv, hv]
  | false =>
    have hu' : u.reverse.all isIgnorable = false := by rw [List.all_reverse, hu]
    rw [isFinal, meetsCased_append_of_not_all hu', isFinal]
    cases hcased : meetsCased u.reverse with
    | false => rfl
    | true =>
      have hv : v.all isIgnorable = false :=
        Bool.eq_false_iff.2 fun hv => h (.inr ⟨hcased, hv⟩)
      rw [meetsCased_append_of_not_all hv]

theorem keepsForms_of_not_loose (h : ¬HasLooseSigma s) (before after : List Char) :
    KeepsForms before after s :=
  fun u v hs => isFinal_eq_of_not_loose (fun hloose => h ⟨u, v, hs, hloose⟩) before after

/-- Where no letter with case is met on either side, a text might as well stand by itself. -/
theorem keepsForms_of_not_cased (hbefore : meetsCased before = false)
    (hafter : meetsCased after = false) (s : List Char) : KeepsForms before after s := by
  have hside : ∀ w side, meetsCased side = false → meetsCased (w ++ side) = meetsCased w := by
    intro w side hside
    cases hw : w.all isIgnorable with
    | true => rw [meetsCased_append_of_all hw, hside, meetsCased_of_all hw]
    | false => exact meetsCased_append_of_not_all hw side
  intro u v _
  rw [isFinal, hside _ _ hbefore, hside _ _ hafter, isFinal]

theorem KeepsForms.lowerAmid_eq (h : KeepsForms before after s) :
    lowerAmid before after s = lower s := by
  rw [lower, lowerFrom_eq_lowerAmid]
  suffices hall : ∀ t w, s = t ++ w →
      lowerAmid (t.reverse ++ before) after w = lowerAmid t.reverse [] w from hall [] s rfl
  intro t w
  induction w generalizing t with
  | nil => intros; rfl
  | cons c w ih =>
    intro hs
    have hnext := ih (t ++ [c]) (by simpa using hs)
    have hform : letters (t.reverse ++ before) c (w ++ after) = letters t.reverse c (w ++ []) := by
      rw [letters, letters, List.append_nil]
      split
      · rw [h t w (by simpa [‹c = 'Σ'›] using hs)]
      · rfl
    rw [lowerAmid, lowerAmid, hform]
    simpa using hnext

/-! ### Other letters in another place -/

/-- Every sigma that is final between the first two sides is final between the other two. -/
def MoreFinal (before after before' after' s : List Char) : Prop :=
  ∀ u v, s = u ++ 'Σ' :: v → isFinal (u.reverse ++ before) (v ++ after) = true →
    isFinal (u.reverse ++ before') (v ++ after') = true

theorem MoreFinal.left {t : List Char} (h : MoreFinal before after before' after' (s ++ t)) :
    MoreFinal before (t ++ after) before' (t ++ after') s := by
  intro u v hs hfinal
  have := h u (v ++ t) (by simp [hs]) (by simpa using hfinal)
  simpa using this

theorem MoreFinal.right {t : List Char} (h : MoreFinal before after before' after' (s ++ t)) :
    MoreFinal (s.reverse ++ before) after (s.reverse ++ before') after' t := by
  intro u v ht hfinal
  have := h (s ++ u) v (by simp [ht]) (by simpa using hfinal)
  simpa using this

/-- Where more sigmas are final there are no fewer of the final form and no more of the other. -/
theorem MoreFinal.count_le (h : MoreFinal before after before' after' s) :
    (lowerAmid before' after' s).count 'σ' ≤ (lowerAmid before after s).count 'σ' ∧
      (lowerAmid before after s).count 'ς' ≤ (lowerAmid before' after' s).count 'ς' := by
  induction s generalizing before before' with
  | nil => exact ⟨Nat.le_refl _, Nat.le_refl _⟩
  | cons c s ih =>
    have hrest : MoreFinal (c :: before) after (c :: before') after' s :=
      MoreFinal.right (s := [c]) h
    obtain ⟨hsigma, hfinal⟩ := ih hrest
    have hletter : (letters before' c (s ++ after')).count 'σ' ≤
          (letters before c (s ++ after)).count 'σ' ∧
        (letters before c (s ++ after)).count 'ς' ≤
          (letters before' c (s ++ after')).count 'ς' := by
      unfold letters
      by_cases hc : c = 'Σ'
      · have himp := h [] s (by rw [hc]; rfl)
        simp only [List.reverse_nil, List.nil_append] at himp
        cases h1 : isFinal before (s ++ after) <;> cases h2 : isFinal before' (s ++ after') <;>
          simp_all
      · rw [if_neg hc, if_neg hc]
        exact ⟨Nat.le_refl _, Nat.le_refl _⟩
    rw [lowerAmid, lowerAmid]
    simp only [List.count_append]
    omega

theorem MoreFinal.count_lt (h : MoreFinal before after before' after' (u ++ 'Σ' :: v))
    (hnot : isFinal (u.reverse ++ before) (v ++ after) = false)
    (hfinal : isFinal (u.reverse ++ before') (v ++ after') = true) :
    (lowerAmid before' after' (u ++ 'Σ' :: v)).count 'σ' <
        (lowerAmid before after (u ++ 'Σ' :: v)).count 'σ' ∧
      (lowerAmid before after (u ++ 'Σ' :: v)).count 'ς' <
        (lowerAmid before' after' (u ++ 'Σ' :: v)).count 'ς' := by
  have hleft := h.left.count_le
  have hright := (MoreFinal.right (s := ['Σ']) h.right).count_le
  simp only [List.reverse_singleton, List.singleton_append] at hright
  rw [lowerAmid_append, lowerAmid_append, lowerAmid, lowerAmid, letters, letters, if_pos rfl,
    if_pos rfl, hnot, hfinal]
  simp only [List.count_append, if_true, Bool.false_eq_true, if_false]
  have h1 : List.count 'σ' ['ς'] = 0 := by decide
  have h2 : List.count 'σ' ['σ'] = 1 := by decide
  have h3 : List.count 'ς' ['ς'] = 1 := by decide
  have h4 : List.count 'ς' ['σ'] = 0 := by decide
  omega

theorem meetsCased_letter : meetsCased ['A'] = true := by decide +kernel

/-- A text with a loose sigma gets other letters behind an A or in front of one. Its own letters stand
nowhere there, since too few sigmas are left of the form that was lost. -/
theorem HasLooseSigma.exists_not_infix (h : HasLooseSigma s) :
    ∃ before after, ¬lower s <:+: lower (before ++ s ++ after) := by
  have hsmall : small 'A' = ['a'] := by decide +kernel
  have hletter : ∀ before after, lowerAmid before after ['A'] = ['a'] := fun _ _ => by
    rw [lowerAmid, lowerAmid, letters, if_neg (by decide), hsmall, List.append_nil]
  obtain ⟨u, v, rfl, ⟨hu, hv⟩ | ⟨hu, hv⟩⟩ := h
  · refine ⟨['A'], [], fun hinfix => ?_⟩
    have hmore : MoreFinal [] [] ['A'] [] (u ++ 'Σ' :: v) := by
      intro x y _ hfinal
      simp only [isFinal, List.append_nil, Bool.and_eq_true] at hfinal ⊢
      exact ⟨meetsCased_append_of_meetsCased hfinal.1 _, hfinal.2⟩
    have hlt := (hmore.count_lt (by simp [isFinal, meetsCased_of_all, hu])
      (by simp [isFinal, meetsCased_append_of_all, hu, hv, meetsCased_letter])).1
    have hle := hinfix.sublist.count_le 'σ'
    rw [lower_around, lower, lowerFrom_eq_lowerAmid, hletter] at hle
    simp only [List.count_append, List.reverse_singleton, lowerAmid, List.count_nil] at hle
    have hnone : List.count 'σ' ['a'] = 0 := by decide
    omega
  · refine ⟨[], ['A'], fun hinfix => ?_⟩
    have hmore : MoreFinal [] ['A'] [] [] (u ++ 'Σ' :: v) := by
      intro x y _ hfinal
      simp only [isFinal, List.append_nil, Bool.and_eq_true, Bool.not_eq_true'] at hfinal ⊢
      refine ⟨hfinal.1, Bool.eq_false_iff.2 fun hy => ?_⟩
      rw [meetsCased_append_of_meetsCased hy] at hfinal
      cases hfinal.2
    have hlt := (hmore.count_lt
      (by simp [isFinal, meetsCased_append_of_all, hv, meetsCased_letter])
      (by simp [isFinal, hu, meetsCased_of_all, hv])).2
    have hle := hinfix.sublist.count_le 'ς'
    rw [lower_around, lower, lowerFrom_eq_lowerAmid, hletter] at hle
    simp only [List.count_append, List.reverse_nil, lowerAmid, List.count_nil] at hle
    have hnone : List.count 'ς' ['a'] = 0 := by decide
    omega

end ResumePress.Text.Case
