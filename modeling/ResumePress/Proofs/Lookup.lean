import Mathlib.Data.List.TakeWhile
import ResumePress.Proofs.Loading

/-!
Templates looked up by their paths. A path that has a file name finds the first template with that
name, so the template of exactly this path is only found if no other one shares its name before it.
-/

namespace ResumePress

namespace Path

/-- The name that a component is, if it leads downwards. -/
def Component.name? : Component → Option String
  | .name s => some s
  | _ => none

/-- Whether two paths end in one file name. -/
def SharesName (p q : Path) : Prop :=
  p.fileName?.isSome ∧ p.fileName? = q.fileName?

instance (p q : Path) : Decidable (p.SharesName q) :=
  inferInstanceAs (Decidable (_ ∧ _))

variable {p q : Path}

theorem same_iff : p.same q = true ↔ p.components = q.components :=
  beq_iff_eq

/-- The file name is the last component. -/
theorem fileName?_eq (p : Path) : p.fileName? = p.components.getLast?.bind Component.name? := by
  have hlast : (p.segments.filter fun s => !isVoid s).getLast? = p.backwards.head? := by
    rw [List.getLast?_eq_head?_reverse, ← List.filter_reverse, List.head?_filter,
      List.find?_not_eq_head?_dropWhile, backwards]
  have hinner : ((p.segments.filter fun s => !isVoid s).map component).getLast? =
      p.backwards.head?.map component := by
    rw [List.getLast?_map, hlast]
  unfold fileName? components
  cases hbackwards : p.backwards with
  | nil =>
    rw [hbackwards] at hinner
    have hnil := List.getLast?_eq_none_iff.1 hinner
    simp only [hnil]
    split
    · rfl
    · split <;> rfl
  | cons last before =>
    rw [hbackwards] at hinner
    have hcomponent : (component last).name? =
        if last = ['.', '.'] then none else some (String.ofList last) := by
      unfold component
      split <;> rfl
    dsimp only
    rw [← hcomponent]
    split
    · simp [List.getLast?_cons, hinner]
    · split
      · simp [List.getLast?_cons, hinner]
      · simp [hinner]

theorem fileName?_congr (h : p.same q = true) : p.fileName? = q.fileName? := by
  rw [fileName?_eq, fileName?_eq, same_iff.1 h]

end Path

namespace Registry

variable {r : Registry} {t u : Template} {path : Path} {name : String}

/-! ### What is found -/

/-- The exact path makes no difference where there is a file name. -/
theorem byPath?_of_fileName (h : path.fileName? = some name) :
    r.byPath? path = r.templates.find? fun t => t.path.fileName? == some name := by
  unfold byPath?
  congr 1
  funext t
  rw [h, Option.isSome_some, Bool.true_and, Bool.or_eq_right_iff_imp]
  intro hsame
  rw [Path.fileName?_congr hsame, h, beq_self_eq_true]

theorem byPath?_of_no_fileName (h : path.fileName? = none) :
    r.byPath? path = r.templates.find? fun t => t.path.same path := by
  simp [byPath?, h]

theorem matches_iff : (t.path.same path ||
    (path.fileName?.isSome && t.path.fileName? == path.fileName?)) = true ↔
      t.path.same path = true ∨ t.path.SharesName path := by
  rw [Bool.or_eq_true, Bool.and_eq_true, beq_iff_eq]
  refine or_congr_right ⟨fun h => ⟨h.2 ▸ h.1, h.2⟩, fun h => ⟨h.2 ▸ h.1, h.2⟩⟩

theorem byPath?_eq_some (h : r.byPath? path = some t) :
    t ∈ r.templates ∧ (t.path.same path = true ∨ t.path.SharesName path) := by
  have hfound := List.find?_some h
  exact ⟨List.mem_of_find?_eq_some h, matches_iff.1 hfound⟩

theorem byPath?_eq_none : r.byPath? path = none ↔
    ∀ t ∈ r.templates, ¬(t.path.same path = true ∨ t.path.SharesName path) := by
  rw [byPath?, List.find?_eq_none]
  exact forall₂_congr fun t _ => not_congr matches_iff

theorem exists_byPath? (ht : t ∈ r.templates)
    (h : t.path.same path = true ∨ t.path.SharesName path) :
    ∃ u ∈ r.templates, r.byPath? path = some u ∧
      (u.path.same path = true ∨ u.path.SharesName path) := by
  cases hby : r.byPath? path with
  | none => exact absurd h (byPath?_eq_none.1 hby t ht)
  | some u =>
    obtain ⟨hu, hmatch⟩ := byPath?_eq_some hby
    exact ⟨u, hu, rfl, hmatch⟩

/-! ### What ought to be found -/

/-- Whether a look-up prefers the exact path, then goes by the file name, and so finds every
template by its own path if all paths are different. -/
structure PrefersExact (r : Registry) : Prop where
  exact : ∀ path, (∃ t ∈ r.templates, t.path.same path = true) →
    ∃ t, r.byPath? path = some t ∧ t.path.same path = true
  byName : ∀ path, (∀ t ∈ r.templates, ¬t.path.same path = true) →
    (∃ t ∈ r.templates, t.path.SharesName path) →
      ∃ t, r.byPath? path = some t ∧ t.path.SharesName path
  none : ∀ path, (∀ t ∈ r.templates, ¬t.path.same path = true) →
    (∀ t ∈ r.templates, ¬t.path.SharesName path) → r.byPath? path = none
  own : (∀ t ∈ r.templates, ∀ u ∈ r.templates, t.path.same u.path = true → t = u) →
    ∀ t ∈ r.templates, r.byPath? t.path = some t

/-- Whether templates that share a file name have the same path. -/
def NamesDecide (r : Registry) : Prop :=
  ∀ t ∈ r.templates, ∀ u ∈ r.templates, t.path.SharesName u.path → t.path.same u.path = true

instance (r : Registry) : Decidable r.NamesDecide :=
  inferInstanceAs (Decidable (∀ t ∈ r.templates, ∀ u ∈ r.templates, _))

theorem NamesDecide.byPath? (h : r.NamesDecide) (ht : t ∈ r.templates)
    (hsame : t.path.same path = true) :
    ∃ u ∈ r.templates, r.byPath? path = some u ∧ u.path.same t.path = true := by
  obtain ⟨u, hu, hby, hexact | hname⟩ := exists_byPath? ht (.inl hsame)
  · rw [Path.same_iff] at hsame hexact
    exact ⟨u, hu, hby, Path.same_iff.2 (hexact.trans hsame.symm)⟩
  · exact ⟨u, hu, hby, h u hu t ht ⟨hname.1, hname.2.trans (Path.fileName?_congr hsame).symm⟩⟩

theorem NamesDecide.prefersExact (h : r.NamesDecide) : r.PrefersExact where
  exact := by
    rintro path ⟨t, ht, hsame⟩
    obtain ⟨u, -, hby, hexact⟩ := h.byPath? ht hsame
    rw [Path.same_iff] at hsame hexact
    exact ⟨u, hby, Path.same_iff.2 (hexact.trans hsame)⟩
  byName := by
    rintro path hno ⟨t, ht, hname⟩
    obtain ⟨u, hu, hby, hmatch⟩ := exists_byPath? ht (.inr hname)
    exact ⟨u, hby, hmatch.resolve_left (hno u hu)⟩
  none := fun path hno hnone => byPath?_eq_none.2 fun t ht hmatch =>
    hmatch.elim (hno t ht) (hnone t ht)
  own := by
    intro happart t ht
    obtain ⟨u, hu, hby, hsame⟩ := h.byPath? ht (Path.same_iff.2 rfl)
    rw [hby, happart u hu t ht hsame]

/-- The first template with a file name hides the others. -/
theorem PrefersExact.namesDecide (h : r.PrefersExact) : r.NamesDecide := by
  intro t ht u hu hshares
  obtain ⟨name, hname⟩ := Option.isSome_iff_exists.1 hshares.1
  have hbyt := byPath?_of_fileName (r := r) hname
  have hbyu := byPath?_of_fileName (r := r) (hshares.2 ▸ hname)
  obtain ⟨v, hv, hvt⟩ := h.exact t.path ⟨t, ht, Path.same_iff.2 rfl⟩
  obtain ⟨w, hw, hwu⟩ := h.exact u.path ⟨u, hu, Path.same_iff.2 rfl⟩
  have hsame : v = w := by
    rw [hbyt] at hv
    rw [hbyu, hv] at hw
    exact Option.some.inj hw
  rw [Path.same_iff] at hvt hwu ⊢
  rw [← hvt, hsame, hwu]

/-- In a registry that was read from a folder every file name belongs to one template. -/
theorem Indexes.namesDecide {tree : Files.Tree} {folder : Path} {names : List String}
    {catalog : List CatalogEntry} (h : r.Indexes tree folder names catalog)
    (hplain : ∀ name ∈ names, Path.IsPlain name) : r.NamesDecide := by
  intro t ht u hu hshares
  obtain ⟨⟨-, htname⟩, htread⟩ := h.only t ht
  obtain ⟨⟨-, huname⟩, huread⟩ := h.only u hu
  have heq := hshares.2
  rw [htread.path, huread.path, Path.fileName?_join (hplain _ htname),
    Path.fileName?_join (hplain _ huname)] at heq
  rw [htread.path, huread.path, Option.some.inj heq]
  exact Path.same_iff.2 rfl

theorem namesDecide_builtin : builtin.NamesDecide := by
  decide +kernel

/-- A look-up by path takes the first template with the file name of the path, and goes by the exact
path only where that has no file name. So it prefers the exact path in just those registries in
which templates with one file name have one path. The built-in registry is one of them, and so is every
registry that was read from a folder. -/
theorem prefersExact_iff_namesDecide {σ : Type} :
    (∀ r : Registry, (r.PrefersExact ↔ r.NamesDecide) ∧
      (∀ path name, path.fileName? = some name →
        r.byPath? path = r.templates.find? fun t => t.path.fileName? == some name) ∧
      ∀ path, path.fileName? = none →
        r.byPath? path = r.templates.find? fun t => t.path.same path) ∧
    builtin.PrefersExact ∧
    ∀ (s : Surroundings σ) folder names catalog profiles r,
      s.files.list folder = .ok names → (∀ name ∈ names, Path.IsPlain name) →
      (load folder catalog profiles s).1 = .ok r → r.PrefersExact := by
  refine ⟨fun r => ⟨⟨PrefersExact.namesDecide, NamesDecide.prefersExact⟩,
    fun _ _ => byPath?_of_fileName, fun _ => byPath?_of_no_fileName⟩,
    namesDecide_builtin.prefersExact, ?_⟩
  intro s folder names catalog profiles r hlist hplain hload
  obtain ⟨templates, hread, rfl⟩ := (load_eq_ok hlist).1 hload
  exact ((indexes_ofTemplates hplain hread profiles).namesDecide hplain).prefersExact

-- A folder in which two files with different stems are templates.
theorem prefersExact_mixed :
    ∃ r, (load ⟨"t"⟩ [] ProfileTable.builtin (surroundingsOf mixedNodes)).1 = .ok r ∧
      r.PrefersExact := by
  obtain ⟨r, hr⟩ := exists_ok (x := (load ⟨"t"⟩ [] ProfileTable.builtin
    (surroundingsOf mixedNodes)).1) (by decide +kernel)
  exact ⟨r, hr, prefersExact_iff_namesDecide.2.2 _ _ _ _ _ r list_mixedNodes isPlain_mixedNames hr⟩

/-- Templates in two folders whose files have one name. -/
def namesakes : List Template :=
  [("a", "one/cv.tex"), ("b", "two/cv.tex")].map fun pair =>
    { Catalog.modular with id := pair.1 }.template ⟨pair.2⟩ ""

-- The path of the second template finds the first one.
theorem namesake_hidden :
    let r := ofTemplates namesakes ProfileTable.builtin
    (r.byPath? ⟨"two/cv.tex"⟩).map Template.id = some "a" ∧ ¬r.PrefersExact := by
  intro r
  have hfound : (r.byPath? ⟨"two/cv.tex"⟩).map Template.id = some "a" := by decide +kernel
  refine ⟨hfound, fun hprefers => ?_⟩
  have hexact : ∃ t ∈ r.templates, t.path.same ⟨"two/cv.tex"⟩ = true := by decide +kernel
  obtain ⟨t, ht, hsame⟩ := hprefers.exact _ hexact
  have hfirst : ∀ t ∈ r.templates, t.id = "a" → t.path.same ⟨"two/cv.tex"⟩ = false := by
    decide +kernel
  rw [ht] at hfound
  rw [hfirst t (byPath?_eq_some ht).1 (Option.some.inj hfound)] at hsame
  cases hsame

end Registry
end ResumePress
