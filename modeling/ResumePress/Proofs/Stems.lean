import ResumePress.Template.Basic

/-!
Stems. They are the texts of small letters, digits and single underscores, which are just the texts
that are their own stem. How the letters of an id are written does not show in its stem, and nothing
that would mean something in a name or a path gets into it.
-/

namespace ResumePress

variable {inGap : Bool} {s : List Char} {c : Char} {id : String}

/-- What stems are made of. -/
def IsStemChar (c : Char) : Prop :=
  ('a' ≤ c ∧ c ≤ 'z') ∨ ('0' ≤ c ∧ c ≤ '9') ∨ c = '_'

instance : DecidablePred IsStemChar := fun c =>
  inferInstanceAs (Decidable (('a' ≤ c ∧ c ≤ 'z') ∨ ('0' ≤ c ∧ c ≤ '9') ∨ c = '_'))

/-- Small letters, digits and underscores, of which no two stand in a row. -/
structure IsStem (s : List Char) : Prop where
  chars : ∀ c ∈ s, IsStemChar c
  single : ¬['_', '_'] <:+: s

/-! ### Letters and digits -/

/-- What is said of the characters of ASCII can be tried out. -/
theorem forall_ascii {p : Char → Prop} (h : ∀ n < 128, p (Char.ofNat n)) (hc : c.toNat < 128) :
    p c := by
  have hn := h c.toNat hc
  rwa [Char.ofNat_toNat] at hn

theorem toNat_lt_of_isAlphanum (h : c.isAlphanum = true) : c.toNat < 128 := by
  have hlast : c.val ≤ 'z'.val := by
    rcases Bool.or_eq_true_iff.1 h with hletter | hdigit
    · rcases Bool.or_eq_true_iff.1 hletter with hupper | hlower
      · have hz : c.val ≥ 'A'.val ∧ c.val ≤ 'Z'.val := of_decide_eq_true hupper
        exact UInt32.le_trans hz.2 (by decide)
      · exact of_decide_eq_true (Bool.and_eq_true_iff.1 hlower).2
    · have hnine : c.val ≤ '9'.val := of_decide_eq_true (Bool.and_eq_true_iff.1 hdigit).2
      exact UInt32.le_trans hnine (by decide)
  exact Nat.lt_of_le_of_lt (UInt32.le_iff_toNat_le.1 hlast) (by decide)

theorem IsStemChar.toNat_lt (h : IsStemChar c) : c.toNat < 128 := by
  rcases h with ⟨-, hlast⟩ | ⟨-, hlast⟩ | rfl
  · exact Nat.lt_of_le_of_lt (UInt32.le_iff_toNat_le.1 hlast) (by decide)
  · exact Nat.lt_of_le_of_lt (UInt32.le_iff_toNat_le.1 hlast) (by decide)
  · decide

theorem isStemChar_toLower (h : c.isAlphanum = true) : IsStemChar c.toLower ∧ c.toLower ≠ '_' :=
  forall_ascii (p := fun c => c.isAlphanum = true → IsStemChar c.toLower ∧ c.toLower ≠ '_')
    (by decide +kernel) (toNat_lt_of_isAlphanum h) h

/-- A character of a stem stays as it is in a stem. -/
theorem IsStemChar.cases (h : IsStemChar c) :
    (c.isAlphanum = true ∧ c.toLower = c) ∨ (c.isAlphanum = false ∧ c = '_') :=
  forall_ascii (p := fun c => IsStemChar c →
      (c.isAlphanum = true ∧ c.toLower = c) ∨ (c.isAlphanum = false ∧ c = '_'))
    (by decide +kernel) h.toNat_lt h

/-- A small letter is a letter as well, and stays small. -/
theorem toLower_toLower (c : Char) :
    c.toLower.isAlphanum = c.isAlphanum ∧ c.toLower.toLower = c.toLower := by
  cases h : c.isAlphanum with
  | true =>
    exact forall_ascii (p := fun c => c.isAlphanum = true →
        c.toLower.isAlphanum = true ∧ c.toLower.toLower = c.toLower)
      (by decide +kernel) (toNat_lt_of_isAlphanum h) h
  | false =>
    have hsame : c.toLower = c := by
      unfold Char.toLower
      split
      · rename_i hupper
        have hletter : c.isAlpha = true := Bool.or_eq_true_iff.2 (.inl (decide_eq_true hupper))
        rw [Char.isAlphanum, hletter] at h
        cases h
      · rfl
    simp [hsame, h]

/-! ### Stems -/

theorem not_starts_stemFrom (s : List Char) : ¬['_'] <+: stemFrom true s := by
  induction s with
  | nil => nofun
  | cons c s ih =>
    unfold stemFrom
    split
    · rename_i hc
      intro hstart
      exact (isStemChar_toLower hc).2 (List.cons_prefix_cons.1 hstart).1.symm
    · rw [if_pos rfl]
      exact ih

theorem isStem_cons (hc : IsStemChar c) (hs : IsStem s) (hgap : c = '_' → ¬['_'] <+: s) :
    IsStem (c :: s) where
  chars := List.forall_mem_cons.2 ⟨hc, hs.chars⟩
  single hdouble := by
    rcases List.infix_cons_iff.1 hdouble with hstart | hin
    · obtain ⟨hfirst, hnext⟩ := List.cons_prefix_cons.1 hstart
      exact hgap hfirst.symm hnext
    · exact hs.single hin

theorem isStem_stemFrom (inGap : Bool) (s : List Char) : IsStem (stemFrom inGap s) := by
  induction s generalizing inGap with
  | nil => exact ⟨List.forall_mem_nil _, by simp [stemFrom]⟩
  | cons c s ih =>
    unfold stemFrom
    split
    · rename_i hc
      obtain ⟨hchar, hne⟩ := isStemChar_toLower hc
      exact isStem_cons hchar (ih false) fun heq => absurd heq hne
    · split
      · exact ih true
      · exact isStem_cons (by decide) (ih true) fun _ => not_starts_stemFrom s

/-- A stem stays as it is, behind a gap as well if it does not start with an underscore. -/
theorem stemFrom_eq_self (hs : IsStem s) (hgap : inGap = true → ¬['_'] <+: s) :
    stemFrom inGap s = s := by
  induction s generalizing inGap with
  | nil => rfl
  | cons c s ih =>
    have hrest : IsStem s :=
      ⟨(List.forall_mem_cons.1 hs.chars).2, fun hin => hs.single (List.infix_cons hin)⟩
    unfold stemFrom Text.isAsciiAlphanumeric
    rcases (hs.chars c List.mem_cons_self).cases with ⟨hletter, hsmall⟩ | ⟨hother, rfl⟩
    · have hbehind : stemFrom false s = s := ih hrest (by simp)
      rw [if_pos hletter, hsmall, hbehind]
    · have hnext : ¬['_'] <+: s := fun hstart =>
        hs.single (List.cons_prefix_cons.2 ⟨rfl, hstart⟩).isInfix
      have hfree : inGap = false := by
        cases inGap with
        | false => rfl
        | true => exact absurd (List.cons_prefix_cons.2 ⟨rfl, List.nil_prefix⟩) (hgap rfl)
      rw [hother, hfree, if_neg Bool.false_ne_true, if_neg Bool.false_ne_true,
        ih hrest fun _ => hnext]

theorem stemFrom_map_toLower (inGap : Bool) (s : List Char) :
    stemFrom inGap (s.map Char.toLower) = stemFrom inGap s := by
  induction s generalizing inGap with
  | nil => rfl
  | cons c s ih =>
    obtain ⟨hkind, hsmall⟩ := toLower_toLower c
    rw [List.map_cons, stemFrom, stemFrom, Text.isAsciiAlphanumeric, Text.isAsciiAlphanumeric,
      hkind, hsmall, ih, ih]

theorem isStem_stemOf (id : String) : IsStem (stemOf id).toList := by
  rw [stemOf, String.toList_ofList]
  exact isStem_stemFrom false id.toList

/-- Stems are the texts that are their own stem. -/
theorem stemOf_eq_self : stemOf id = id ↔ IsStem id.toList := by
  constructor
  · intro h
    exact h ▸ isStem_stemOf id
  · intro h
    have hsame : stemFrom false id.toList = id.toList := stemFrom_eq_self h (by simp)
    rw [stemOf, hsame, String.ofList_toList]

theorem toList_toLower (s : String) : s.toLower.toList = s.toList.map Char.toLower :=
  String.toList_map

theorem stemOf_toLower (id : String) : stemOf id.toLower = stemOf id := by
  rw [stemOf, toList_toLower, stemFrom_map_toLower, stemOf]

/-! ### Stems of templates -/

namespace Template

/-- Stems have letters, digits and underscores. -/
theorem not_mem_stem (t : Template) {c : Char} (hc : c.isAlphanum = false) (hgap : c ≠ '_') :
    c ∉ t.stem.toList := by
  intro hmem
  rcases ((isStem_stemOf t.id).chars c hmem).cases with ⟨hletter, -⟩ | ⟨-, rfl⟩
  · rw [hc] at hletter
    cases hletter
  · exact hgap rfl

theorem not_slash_mem_stem (t : Template) : '/' ∉ t.stem.toList :=
  t.not_mem_stem (by decide) (by decide)

theorem stem_ne_nil (t : Template) (hid : t.id ≠ "") : t.stem.toList ≠ [] := by
  obtain ⟨c, rest, hname⟩ := List.exists_cons_of_ne_nil (mt String.toList_eq_nil_iff.1 hid)
  rw [stem, stemOf, String.toList_ofList, hname, stemFrom]
  split
  · exact List.cons_ne_nil _ _
  · simp

theorem stem_append_ne_nil (t : Template) (hid : t.id ≠ "") (suffix : String) :
    (t.stem ++ suffix).toList ≠ [] := by
  rw [String.toList_append]
  exact List.append_ne_nil_of_left_ne_nil (t.stem_ne_nil hid) _

/-- Only without an id nothing stands before a suffix. -/
theorem id_eq_empty (t : Template) {suffix : String} (h : t.stem ++ suffix = "") : t.id = "" :=
  Decidable.byContradiction fun hid => t.stem_append_ne_nil hid suffix (String.toList_eq_nil_iff.2 h)

end Template

end ResumePress
