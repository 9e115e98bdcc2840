import Mathlib.Data.List.Induction
import Mathlib.Data.List.Pairwise
import Mathlib.Data.List.Sort
import ResumePress.Template.Registry

/-!
Registries as maps from ids to templates. What a registry finds for its ids determines it, so the
order in which templates are added counts only among those of one id.
-/

namespace ResumePress.Registry

variable {r r' : Registry} {t u : Template} {id : String} {templates : List Template}

theorem find?_cons (t : Template) (templates : List Template) (id : String) :
    (t :: templates).find? (·.id == id) =
      if t.id = id then some t else templates.find? (·.id == id) := by
  rw [List.find?_cons]
  by_cases h : t.id = id
  · rw [if_pos h, beq_iff_eq.2 h]
  · rw [if_neg h, beq_eq_false_iff_ne.2 h]

theorem exists_find? (h : t ∈ templates) :
    ∃ u, templates.find? (·.id == t.id) = some u ∧ u ∈ templates ∧ u.id = t.id := by
  obtain ⟨u, hu⟩ := Option.isSome_iff_exists.1
    (List.find?_isSome (p := fun u => u.id == t.id) |>.2 ⟨t, h, by simp⟩)
  exact ⟨u, hu, List.mem_of_find?_eq_some hu, by simpa using List.find?_some hu⟩

theorem find?_insert (t : Template) (templates : List Template) (id : String) :
    (insert t templates).find? (·.id == id) =
      if t.id = id then some t else templates.find? (·.id == id) := by
  induction templates with
  | nil => exact find?_cons t [] id
  | cons u rest ih =>
    unfold insert
    split
    · exact find?_cons t (u :: rest) id
    · split
      · rename_i hlt
        rw [find?_cons, find?_cons, ih]
        by_cases hu : u.id = id
        · have ht : t.id ≠ id := fun ht => String.lt_irrefl id (by rwa [ht, hu] at hlt)
          rw [if_pos hu, if_neg ht, if_pos hu]
        · rw [if_neg hu, if_neg hu]
      · rename_i hge hle
        have heq : t.id = u.id := String.le_antisymm hle hge
        rw [find?_cons, find?_cons, ← heq]
        by_cases ht : t.id = id
        · rw [if_pos ht, if_pos ht]
        · rw [if_neg ht, if_neg ht, if_neg ht]

@[simp] theorem profiles_add (r : Registry) (t : Template) : (r.add t).profiles = r.profiles := rfl

theorem get?_add (r : Registry) (t : Template) (id : String) :
    (r.add t).get? id = if t.id = id then some t else r.get? id :=
  find?_insert t r.templates id

/-- One template for one id. -/
theorem eq_of_id_eq (ht : t ∈ r.templates) (hu : u ∈ r.templates) (h : t.id = u.id) : t = u := by
  have hapart : r.templates.Pairwise fun t u => t.id ≠ u.id := r.sorted.imp fun hlt heq => by
    rw [heq] at hlt
    exact String.lt_irrefl _ hlt
  have : Std.Symm fun t u : Template => t.id ≠ u.id := ⟨fun _ _ => Ne.symm⟩
  by_contra hne
  exact hapart.forall ht hu hne h

theorem get?_eq_some : r.get? id = some t ↔ t ∈ r.templates ∧ t.id = id := by
  constructor
  · intro h
    exact ⟨List.mem_of_find?_eq_some h, by simpa using List.find?_some h⟩
  · rintro ⟨ht, rfl⟩
    obtain ⟨u, hfind, hu, hid⟩ := exists_find? ht
    rw [get?, hfind, eq_of_id_eq hu ht hid]

theorem ext_get? (h : ∀ id, r.get? id = r'.get? id) (hprofiles : r.profiles = r'.profiles) :
    r = r' := by
  have hmem : ∀ t, t ∈ r.templates ↔ t ∈ r'.templates := by
    intro t
    have hget := h t.id
    constructor
    · intro ht
      exact (get?_eq_some.1 (hget ▸ get?_eq_some.2 ⟨ht, rfl⟩)).1
    · intro ht
      exact (get?_eq_some.1 (hget ▸ get?_eq_some.2 ⟨ht, rfl⟩)).1
  have : Std.Irrefl fun t u : Template => t.id < u.id := ⟨fun t => String.lt_irrefl t.id⟩
  have : Std.Antisymm fun t u : Template => t.id < u.id :=
    ⟨fun t u htu hut => absurd (String.lt_trans htu hut) (String.lt_irrefl t.id)⟩
  obtain ⟨templates, profiles, hsorted⟩ := r
  obtain ⟨templates', profiles', hsorted'⟩ := r'
  obtain rfl : templates = templates' := hsorted.eq_of_mem_iff hsorted' hmem
  obtain rfl : profiles = profiles' := hprofiles
  rfl

/-! ### Registries of given templates -/

variable {profiles : ProfileTable}

theorem ofTemplates_snoc (templates : List Template) (t : Template) (profiles : ProfileTable) :
    ofTemplates (templates ++ [t]) profiles = (ofTemplates templates profiles).add t :=
  List.foldl_concat _ _ t templates

@[simp] theorem profiles_ofTemplates (templates : List Template) (profiles : ProfileTable) :
    (ofTemplates templates profiles).profiles = profiles := by
  induction templates using List.reverseRecOn with
  | nil => rfl
  | append_singleton templates t ih => rw [ofTemplates_snoc, profiles_add, ih]

/-- The last template of an id is found. -/
theorem get?_ofTemplates (templates : List Template) (profiles : ProfileTable) (id : String) :
    (ofTemplates templates profiles).get? id = templates.reverse.find? (·.id == id) := by
  induction templates using List.reverseRecOn with
  | nil => rfl
  | append_singleton templates t ih =>
    rw [ofTemplates_snoc, get?_add, ih, List.reverse_concat, find?_cons]

/-- All of them are there, if no two share an id. -/
theorem mem_ofTemplates (h : ∀ t ∈ templates, ∀ u ∈ templates, t.id = u.id → t = u) :
    t ∈ (ofTemplates templates profiles).templates ↔ t ∈ templates := by
  have hget : t ∈ (ofTemplates templates profiles).templates ↔
      templates.reverse.find? (·.id == t.id) = some t := by
    rw [← get?_ofTemplates templates profiles, get?_eq_some, and_iff_left rfl]
  rw [hget]
  constructor
  · intro hfind
    exact List.mem_reverse.1 (List.mem_of_find?_eq_some hfind)
  · intro ht
    obtain ⟨u, hfind, hu, hid⟩ := exists_find? (List.mem_reverse.2 ht)
    rw [hfind, h u (List.mem_reverse.1 hu) t ht hid]

/-- The order of templates does not count if no two share an id. -/
theorem ofTemplates_congr {templates' : List Template}
    (h : ∀ t ∈ templates, ∀ u ∈ templates, t.id = u.id → t = u)
    (hsame : ∀ t, t ∈ templates ↔ t ∈ templates') :
    ofTemplates templates profiles = ofTemplates templates' profiles := by
  have h' : ∀ t ∈ templates', ∀ u ∈ templates', t.id = u.id → t = u := fun t ht u hu =>
    h t ((hsame t).2 ht) u ((hsame u).2 hu)
  refine ext_get? (fun id => Option.ext fun t => ?_) (by simp)
  rw [get?_eq_some, get?_eq_some, mem_ofTemplates h, mem_ofTemplates h', hsame]

end ResumePress.Registry
