import ResumePress.Proofs.Files.Losses
import ResumePress.Proofs.Surroundings
import ResumePress.Sweep

/-!
The names in a folder that a sweep goes through. Each one that is chosen is removed from the folder or is
left, and what is left is told by a tree from which it could not be removed.
-/

namespace ResumePress.Sweep

open Files Files.Tree

variable {σ : Type} {t : Tree} {s s' : Surroundings σ} {path : Path} {folder : Place}
  {shown : String → String} {chosen : Node → Bool} {names : List String} {name : String}
  {report : SweepReport}

/-- An operation that removes what a path leads to. -/
def Removes (remove : Tree → Instant → Path → Except Fault Tree) : Prop :=
  ∀ t now path t', remove t now path = .ok t' → ∃ found, t.locate false path = .ok found ∧
    t.get? found ≠ none ∧ t' = (t.erase found).stamp now found

theorem removes_removeFolder : Removes fun t now path => t.removeFolder now path :=
  fun _ _ _ _ => removeFolder_eq_ok

theorem removes_removeFile : Removes fun t now path => t.removeFile now path :=
  fun _ _ _ _ => removeFile_eq_ok

/-- A name in a folder whose node is chosen. -/
def IsChosen (chosen : Node → Bool) (t : Tree) (folder : Place) (name : String) : Prop :=
  ∃ node, t.get? (folder ++ [name]) = some node ∧ chosen node = true

theorem IsChosen.get?_ne_none (h : IsChosen chosen t folder name) :
    t.get? (folder ++ [name]) ≠ none := by
  obtain ⟨node, hget, -⟩ := h
  rw [hget]
  nofun

/-- What removing the chosen names in a folder did: some of them are gone, and the others could not be
removed from a tree that came up on the way. -/
structure Clears (remove : Tree → Instant → Path → Except Fault Tree) (path : Path) (folder : Place)
    (shown : String → String) (chosen : Node → Bool) (names : List String) (report : SweepReport)
    (s : Surroundings σ) (report' : SweepReport) (s' : Surroundings σ) (gone left : List String) :
    Prop where
  now : s'.now = s.now
  sheds : s.files.Sheds s'.files folder gone s.now
  same : gone = [] → s' = s
  removed : report'.removed = report.removed ++ gone.map shown
  failed : report'.failed = report.failed ++ left.map shown
  nodup : gone.Nodup
  mem : ∀ name, name ∈ gone ∨ name ∈ left ↔ name ∈ names ∧ IsChosen chosen s.files folder name
  able : ∀ name ∈ gone, s.files.locate false (path.join name) = .ok (folder ++ [name])
  unable : ∀ name ∈ left, ∃ u : Tree, u.IsPartOf s.files ∧ s'.files.IsPartOf u ∧
    u.get? (folder ++ [name]) = s.files.get? (folder ++ [name]) ∧
    ∀ u', remove u s.now (path.join name) ≠ .ok u'

theorem removeChosen_cons (remove : Path → Act σ (Except Fault Unit)) (s : Surroundings σ) :
    removeChosen path folder shown chosen remove (name :: names) report s =
      match s.files.get? (folder ++ [name]) with
      | none => removeChosen path folder shown chosen remove names report s
      | some node =>
        if chosen node then
          removeChosen path folder shown chosen remove names
            (record report (shown name) (remove (path.join name) s).1) (remove (path.join name) s).2
        else removeChosen path folder shown chosen remove names report s := by
  rw [removeChosen, Act.nodeAt?, Act.bind_apply, Act.look_apply]
  split
  · rename_i hget
    simp only [hget]
  · rename_i node hget
    simp only [hget]
    split <;> rfl

section Steps

variable {remove : Tree → Instant → Path → Except Fault Tree} {report' : SweepReport}
  {gone left : List String} {u' : Tree}

theorem Clears.nothing (hnone : ∀ name ∈ names, ¬IsChosen chosen s.files folder name) :
    Clears remove path folder shown chosen names report s report s [] [] where
  now := rfl
  sheds := .refl _ _ _
  same _ := rfl
  removed := (List.append_nil _).symm
  failed := (List.append_nil _).symm
  nodup := List.nodup_nil
  mem name := ⟨nofun, fun hname => absurd hname.2 (hnone name hname.1)⟩
  able := nofun
  unable := nofun

/-- A name that is not chosen is passed over. -/
theorem Clears.skip (hnot : ¬IsChosen chosen s.files folder name)
    (h : Clears remove path folder shown chosen names report s report' s' gone left) :
    Clears remove path folder shown chosen (name :: names) report s report' s' gone left := by
  refine { h with mem := fun other => (h.mem other).trans ?_ }
  rw [List.mem_cons]
  constructor
  · exact fun hother => ⟨.inr hother.1, hother.2⟩
  · rintro ⟨rfl | hother, hchosen⟩
    · exact absurd hchosen hnot
    · exact ⟨hother, hchosen⟩

/-- A name that cannot be removed is left. -/
theorem Clears.leave {e : Fault} (hchosen : IsChosen chosen s.files folder name)
    (hfail : remove s.files s.now (path.join name) = .error e)
    (h : Clears remove path folder shown chosen names (record report (shown name) (.error e)) s
      report' s' gone left) :
    Clears remove path folder shown chosen (name :: names) report s report' s' gone
      (name :: left) where
  now := h.now
  sheds := h.sheds
  same := h.same
  removed := h.removed
  failed := by
    rw [h.failed, record, List.map_cons, List.append_assoc]
    rfl
  nodup := h.nodup
  mem other := by
    rw [List.mem_cons, List.mem_cons, or_left_comm, h.mem]
    constructor
    · rintro (rfl | hother)
      · exact ⟨.inl rfl, hchosen⟩
      · exact ⟨.inr hother.1, hother.2⟩
    · rintro ⟨rfl | hother, hchosen⟩
      · exact .inl rfl
      · exact .inr ⟨hother, hchosen⟩
  able := h.able
  unable := by
    refine List.forall_mem_cons.2 ⟨⟨s.files, .refl _, h.sheds.isPartOf, rfl, fun u' => ?_⟩, h.unable⟩
    rw [hfail]
    nofun

/-- A name that is removed is gone, and the others are behind nodes as before. -/
theorem Clears.take (hchosen : IsChosen chosen s.files folder name)
    (hsheds : s.files.Sheds u' folder [name] s.now)
    (hlocate : s.files.locate false (path.join name) = .ok (folder ++ [name]))
    (h : Clears remove path folder shown chosen names (record report (shown name) (.ok ()))
      { s with files := u' } report' s' gone left) :
    Clears remove path folder shown chosen (name :: names) report s report' s' (name :: gone)
      left := by
  have hget : ∀ other, u'.get? (folder ++ [other]) =
      if other = name then none else s.files.get? (folder ++ [other]) := fun other => by
    rw [hsheds.get?_name]
    simp only [List.mem_singleton]
  have hne : ∀ other, other ∈ gone ∨ other ∈ left →
      other ≠ name ∧ u'.get? (folder ++ [other]) ≠ none := by
    intro other hother
    have hthere : u'.get? (folder ++ [other]) ≠ none := ((h.mem other).1 hother).2.get?_ne_none
    refine ⟨?_, hthere⟩
    rintro rfl
    exact hthere (by rw [hget, if_pos rfl])
  refine ⟨h.now, hsheds.trans h.sheds, nofun, ?_, h.failed, ?_, fun other => ?_, ?_,
    fun other hother => ?_⟩
  · rw [h.removed, record, List.map_cons, List.append_assoc]
    rfl
  · exact List.nodup_cons.2 ⟨fun hname => (hne name (.inl hname)).1 rfl, h.nodup⟩
  · rw [List.mem_cons, List.mem_cons, or_assoc, h.mem]
    by_cases hother : other = name
    · subst hother
      simp [hchosen]
    · simp only [hother, false_or, IsChosen]
      rw [hget, if_neg hother]
  · refine List.forall_mem_cons.2 ⟨hlocate, fun other hother => ?_⟩
    exact hsheds.isPartOf.locate (h.able other hother) (hne other (.inl hother)).2
  · obtain ⟨u, hpart, hend, hsame, hfail⟩ := h.unable other hother
    refine ⟨u, hpart.trans hsheds.isPartOf, hend, hsame.trans ?_, hfail⟩
    rw [hget, if_neg (hne other (.inr hother)).1]

end Steps

/-- The names are gone through from a part of a tree in which the path leads to the folder. -/
theorem removeChosen_clears {remove : Tree → Instant → Path → Except Fault Tree}
    (shown : String → String) (chosen : Node → Bool) (report : SweepReport)
    (hremove : Removes remove) (hroot : t.IsRooted) (hpath : t.locate true path = .ok folder)
    (hfolder : t.folderAt folder = true) (hplain : ∀ name ∈ names, Path.IsPlain name)
    (hpart : s.files.IsPartOf t) (hthere : s.files.folderAt folder = true) :
    ∃ report' s' gone left,
      removeChosen path folder shown chosen (fun path => Act.change (remove · · path)) names report s =
        (report', s') ∧
      Clears remove path folder shown chosen names report s report' s' gone left := by
  induction names generalizing s report with
  | nil => exact ⟨report, s, [], [], rfl, .nothing nofun⟩
  | cons name names ih =>
    obtain ⟨hname, hnames⟩ := List.forall_mem_cons.1 hplain
    rw [removeChosen_cons]
    by_cases hchosen : IsChosen chosen s.files folder name
    · obtain ⟨node, hget, hnode⟩ := id hchosen
      rw [hget]
      simp only [hnode, if_true, Act.change_apply]
      cases hremoved : remove s.files s.now (path.join name) with
      | error e =>
        obtain ⟨report', s', gone, left, heq, hclears⟩ := ih _ hnames hpart hthere
        exact ⟨report', s', gone, name :: left, heq, hclears.leave hchosen hremoved⟩
      | ok u' =>
        obtain ⟨found, hlocate, hfound, rfl⟩ := hremove _ _ _ _ hremoved
        obtain rfl := hpart.locate_join hroot hname hpath hfolder (.inr rfl) hlocate hfound
        have hsheds := Sheds.of_erase hthere name s.now
        -- the names behind this one are gone through in what is left
        obtain ⟨report', s', gone, left, heq, hclears⟩ :=
          ih (s := { s with files := (s.files.erase (folder ++ [name])).stamp s.now (folder ++ [name]) }) _
            hnames (hsheds.isPartOf.trans hpart) (hsheds.folderAt_folder hthere)
        exact ⟨report', s', name :: gone, left, heq, hclears.take hchosen hsheds hlocate⟩
    · obtain ⟨report', s', gone, left, heq, hclears⟩ := ih _ hnames hpart hthere
      refine ⟨report', s', gone, left, ?_, hclears.skip hchosen⟩
      rw [← heq]
      split
      · rfl
      · rename_i node hget
        exact if_neg fun hnode => hchosen ⟨node, hget, hnode⟩

end ResumePress.Sweep
