import ResumePress.Proofs.Resolution
import ResumePress.Template.Preview

/-!
Conflicts in the package block of a preview. Resolution compares whole arguments, so declarations of
single packages never conflict with each other; a declaration of a list can conflict with any other
one.
-/

namespace ResumePress

open Latex Latex.Resolution

/-- Pairs of packages that cannot be loaded together. -/
def incompatiblePackages : List (String × String) :=
  [("fontspec", "fontenc"), ("unicode-math", "amsmath")]

/-- Whether a raw declaration declares a package, alone or in a list. -/
def Declares (raw name : String) : Prop :=
  name.toList ∈ declaredNames raw.toList

instance (raw name : String) : Decidable (Declares raw name) :=
  inferInstanceAs (Decidable (_ ∈ _))

/-- Two raw declarations that have no package in common. -/
def Apart (a b : String) : Prop :=
  ∀ name ∈ declaredNames a.toList, name ∉ declaredNames b.toList

instance (a b : String) : Decidable (Apart a b) :=
  inferInstanceAs (Decidable (∀ _ ∈ _, _))

/-- Every package is declared by one entry at most, and none together with one that it cannot be
loaded with. -/
structure ConflictFree (block : List String) : Prop where
  apart : block.Pairwise Apart
  compatible : ∀ pair ∈ incompatiblePackages, ∀ a ∈ block, ∀ b ∈ block,
    Declares a pair.1 → ¬Declares b pair.2

instance (block : List String) : Decidable (ConflictFree block) :=
  decidable_of_iff
    (block.Pairwise Apart ∧ ∀ pair ∈ incompatiblePackages, ∀ a ∈ block, ∀ b ∈ block,
      Declares a pair.1 → ¬Declares b pair.2)
    ⟨fun h => ⟨h.1, h.2⟩, fun h => ⟨h.1, h.2⟩⟩

/-- Two entries that cannot stand in one block. -/
def Clash (a b : String) : Prop :=
  (a ≠ b ∧ ¬Apart a b) ∨
    ∃ pair ∈ incompatiblePackages,
      (Declares a pair.1 ∧ Declares b pair.2) ∨ (Declares b pair.1 ∧ Declares a pair.2)

theorem clash_comm {a b : String} (h : Clash a b) : Clash b a := by
  rcases h with ⟨hne, hshare⟩ | ⟨pair, hpair, hboth⟩
  · exact .inl ⟨hne.symm, fun h => hshare fun name ha hb => h name hb ha⟩
  · exact .inr ⟨pair, hpair, hboth.symm⟩

/-- A raw declaration of one package that is not in a list. -/
def IsSingle (raw : String) : Prop :=
  ∃ d ∈ Declaration.parse? raw, declaredNames raw.toList = [d.name.toList]

instance (raw : String) : Decidable (IsSingle raw) :=
  inferInstanceAs (Decidable (∃ d ∈ Declaration.parse? raw, _))

section
variable {a b name : String} {block raw : List String} {d : Declaration}

instance : Std.Symm Apart where
  symm _ _ h name hb ha := h name ha hb

/-- Entries that differ are free of conflicts if no two of them clash. -/
theorem conflictFree_iff (hnodup : block.Nodup) :
    ConflictFree block ↔ ∀ a ∈ block, ∀ b ∈ block, ¬Clash a b := by
  constructor
  · rintro h a ha b hb (⟨hne, hshare⟩ | ⟨pair, hpair, ⟨h₁, h₂⟩ | ⟨h₁, h₂⟩⟩)
    · exact hshare (h.apart.forall ha hb hne)
    · exact h.compatible pair hpair a ha b hb h₁ h₂
    · exact h.compatible pair hpair b hb a ha h₁ h₂
  · intro h
    constructor
    · refine hnodup.imp_of_mem fun ha hb hne => ?_
      exact Decidable.not_not.1 fun hshare => h _ ha _ hb (.inl ⟨hne, hshare⟩)
    · intro pair hpair a ha b hb h₁ h₂
      exact h a ha b hb (.inr ⟨pair, hpair, .inl ⟨h₁, h₂⟩⟩)

theorem declaredNames_of_single (hd : Declaration.parse? a = some d) (ha : IsSingle a) :
    declaredNames a.toList = [d.name.toList] := by
  obtain ⟨d', hd', hnames⟩ := ha
  rwa [Option.some.inj (hd'.symm.trans hd)] at hnames

theorem declares_of_single (hd : Declaration.parse? a = some d) (ha : IsSingle a) :
    Declares a name ↔ name = d.name := by
  rw [Declares, declaredNames_of_single hd ha, List.mem_singleton, String.toList_inj]

theorem single_of_implied {source : List Char} (h : a ∈ Preamble.impliedPackages source) :
    IsSingle a := by
  have hsingle : ∀ raw ∈ ["\\usepackage\x7btabularx\x7d", "\\usepackage\x7blongtable\x7d",
      "\\usepackage[dvipsnames]\x7bxcolor\x7d", "\\usepackage\x7bfontspec\x7d"],
      IsSingle raw := by decide +kernel
  refine hsingle a ?_
  have himplied : ∀ (p : Prop) [Decidable p] (raw : String),
      a ∈ (if p then [raw] else []) → a = raw := by
    intro p _ raw h
    split at h
    · exact List.mem_singleton.1 h
    · cases h
  simp only [Preamble.impliedPackages, List.mem_append] at h
  rcases h with ((h | h) | h) | h
  all_goals simp [himplied _ _ h]

/-- Resolved declarations of single packages do not clash. -/
theorem not_clash_of_single (ha : a ∈ resolve raw) (hb : b ∈ resolve raw) (hsa : IsSingle a)
    (hsb : IsSingle b) : ¬Clash a b := by
  obtain ⟨d, hd, hread⟩ := exists_of_mem_resolve ha
  obtain ⟨e, he, hread'⟩ := exists_of_mem_resolve hb
  have hsuperseded : ∀ pair ∈ incompatiblePackages, ∀ f g : Declaration,
      f ∈ arrange (merge (raw.filterMap Declaration.parse?)) →
      g ∈ arrange (merge (raw.filterMap Declaration.parse?)) →
      pair.1 = f.name → pair.2 ≠ g.name := by
    intro pair hpair f g hf hg hfirst hsecond
    have hkept := (mem_arrange.1 hg).2
    rw [← hsecond, Bool.eq_false_iff, Ne, isSuperseded_eq_true] at hkept
    exact hkept ⟨pair, hpair, rfl, hfirst ▸ List.mem_map_of_mem (mem_arrange.1 hf).1⟩
  rintro (⟨hne, hshare⟩ | ⟨pair, hpair, ⟨h₁, h₂⟩ | ⟨h₁, h₂⟩⟩)
  · refine hshare fun name hname hname' => hne ?_
    rw [declaredNames_of_single hread hsa, List.mem_singleton] at hname
    rw [declaredNames_of_single hread' hsb, List.mem_singleton] at hname'
    have hde : d = e := List.inj_on_of_nodup_map
      (nodup_names_arrange (nodup_names_merge _)) hd he (String.toList_inj.1 (hname ▸ hname'))
    rw [← Declaration.text_of_parse? hread, ← Declaration.text_of_parse? hread', hde]
  · exact hsuperseded pair hpair d e hd he ((declares_of_single hread hsa).1 h₁)
      ((declares_of_single hread' hsb).1 h₂)
  · exact hsuperseded pair hpair e d he hd ((declares_of_single hread' hsb).1 h₁)
      ((declares_of_single hread hsa).1 h₂)

end

namespace Template

/-- The packages of a preview have no conflict exactly if no declaration of a list clashes with an
entry: with a package that another entry declares, or cannot be loaded with. -/
theorem packageBlock_conflictFree_iff (t : Template) (o : PreviewOptions) :
    let block := Preview.packageBlock (Preamble.ofSource t.source) o.packages
    ConflictFree block ↔ ∀ a ∈ block, ¬IsSingle a → ∀ b ∈ block, ¬Clash a b := by
  intro block
  refine (conflictFree_iff (nodup_resolve _)).trans ?_
  constructor
  · exact fun h a ha _ => h a ha
  · intro h a ha b hb hclash
    by_cases hsa : IsSingle a
    · by_cases hsb : IsSingle b
      · exact not_clash_of_single ha hb hsa hsb hclash
      · exact h b hb hsb a ha (clash_comm hclash)
    · exact h a ha hsa b hb hclash

/-- If the source and the additional packages declare no lists, there is no conflict. -/
theorem packageBlock_conflictFree (t : Template) (o : PreviewOptions)
    (hsource : ∀ raw ∈ declarations t.source.toList, IsSingle (String.ofList raw))
    (hadditional : ∀ raw ∈ o.packages, IsSingle raw) :
    ConflictFree (Preview.packageBlock (Preamble.ofSource t.source) o.packages) := by
  have hcommon : ∀ raw ∈ commonPackages, IsSingle raw := by decide +kernel
  have hsingle : ∀ a ∈ Preview.packageBlock (Preamble.ofSource t.source) o.packages,
      IsSingle a := by
    intro a ha
    have hraw := mem_of_mem_resolve ha
    simp only [List.mem_append, Preamble.ofSource, List.mem_map] at hraw
    rcases hraw with ((⟨raw, hraw, rfl⟩ | himplied) | hessential) | hraw
    · exact hsource raw hraw
    · exact single_of_implied himplied
    · exact hcommon a (List.mem_filter.1 hessential).1
    · exact hadditional a hraw
  exact (conflictFree_iff (nodup_resolve _)).2 fun a ha b hb =>
    not_clash_of_single ha hb (hsingle a ha) (hsingle b hb)

end Template

-- A list that excludes a common package, a list with a package that is declared once more, and a
-- list that excludes a package of the source.
theorem list_conflicts :
    ¬ConflictFree (Preview.packageBlock
        (Preamble.ofSource "\\usepackage\x7bfontspec,xunicode\x7d") []) ∧
      ¬ConflictFree (Preview.packageBlock
        (Preamble.ofSource "\\usepackage\x7bamsmath,amssymb\x7d\\usepackage\x7bamsmath\x7d") []) ∧
      ¬ConflictFree (Preview.packageBlock (Preamble.ofSource
        "\\usepackage\x7bunicode-math,mathtools\x7d\\usepackage\x7bamsmath\x7d") []) := by
  decide +kernel

end ResumePress
