import ResumePress.Proofs.Files.Changes
import ResumePress.Proofs.Files.Names
import ResumePress.Proofs.Files.Questions

/-!
Losses of trees. What is removed from a folder goes with all that is below it, and the folder gets a
new time; so a tree after some removals is told by the names that are gone. Its ways are ways of the
tree before, which is why a name is removed from the folder that was opened, if it is removed.
-/

namespace ResumePress.Files

theorem Entry.isFolder_of_isFile {entry : Entry} (h : entry.isFile = true) : entry.isFolder = false := by
  cases entry with
  | file => rfl
  | _ => cases h

/-- A node that was changed at a time. -/
def Node.touched (clock : Instant) (node : Node) : Node :=
  { node with modified := clock }

@[simp] theorem Node.entry_touched (clock : Instant) (node : Node) :
    (node.touched clock).entry = node.entry := rfl

@[simp] theorem Node.touched_touched (clock clock' : Instant) (node : Node) :
    (node.touched clock).touched clock' = node.touched clock' := rfl

namespace Tree

variable {t t' t'' : Tree} {folder place found : Place} {gone more : List String} {clock : Instant}
  {name : String} {followLast : Bool} {path : Path}

/-- All that stands in the tree stands in folders. -/
def IsGrounded (t : Tree) : Prop :=
  ∀ place name, t.get? (place ++ [name]) ≠ none → t.folderAt place = true

/-- All that stands in a tree stands in another one. -/
structure IsPartOf (t' t : Tree) : Prop where
  home : t'.home = t.home
  agrees : ∀ place, t'.get? place ≠ none → t.AgreesAt t' place

/-- A tree without some names in a folder, and without what was below them. The folder has a new
time, but for the root, which has none. -/
structure Sheds (t t' : Tree) (folder : Place) (gone : List String) (clock : Instant) : Prop where
  isFolder : gone ≠ [] → t.folderAt folder = true
  home : t'.home = t.home
  get : ∀ place, t'.get? place =
    if ∃ name ∈ gone, folder ++ [name] <+: place then none
    else if place = folder ∧ folder ≠ [] ∧ gone ≠ [] then (t.get? place).map (Node.touched clock)
    else t.get? place

-- It makes no difference to places where the home folder is, so it can be thought at the root.
theorem IsGrounded.get?_append (h : t.IsGrounded) (hplace : t.folderAt place = false) {rest : Place}
    (hrest : rest ≠ []) : t.get? (place ++ rest) = none :=
  IsRooted.get?_append (t := { t with home := [] }) ⟨h, rfl⟩ hplace hrest

/-! ### Parts of trees -/

namespace IsPartOf

theorem refl (t : Tree) : t.IsPartOf t :=
  ⟨rfl, fun _ _ => ⟨rfl, rfl⟩⟩

theorem get?_ne_none (h : t'.IsPartOf t) (hthere : t'.get? place ≠ none) : t.get? place ≠ none := by
  obtain ⟨hleaf, hfolder⟩ := h.agrees place hthere
  rwa [Tree.get?_ne_none, ← hleaf, ← hfolder, ← Tree.get?_ne_none]

theorem trans (h' : t''.IsPartOf t') (h : t'.IsPartOf t) : t''.IsPartOf t := by
  refine ⟨h'.home.trans h.home, fun place hthere => ?_⟩
  obtain ⟨hleaf', hfolder'⟩ := h'.agrees place hthere
  obtain ⟨hleaf, hfolder⟩ := h.agrees place (h'.get?_ne_none hthere)
  exact ⟨hleaf'.trans hleaf, hfolder'.trans hfolder⟩

theorem folderAt (h : t'.IsPartOf t) (hfolder : t'.folderAt place = true) :
    t.folderAt place = true := by
  rw [← (h.agrees place (Tree.get?_ne_none.2 (.inr hfolder))).2, hfolder]

/-- The ways in a part of a tree are ways in the tree. -/
theorem locate (h : t'.IsPartOf t) (hlocate : t'.locate followLast path = .ok found)
    (hthere : t'.get? found ≠ none) : t.locate followLast path = .ok found := by
  refine locate_congr hlocate (fun place => t'.get? place ≠ none) h.home.symm ?_ ?_ ?_ hthere
  · exact fun place _ hfolder => h.folderAt hfolder
  · intro place hplace
    rw [link?, link?, (h.agrees place hplace).1]
  · exact fun place hplace => Classical.not_not.1 hplace

end IsPartOf

/-! ### Names that are gone -/

theorem get?_erase (hplace : place ≠ []) (other : Place) :
    (t.erase place).get? other = if place <+: other then none else t.get? other := by
  split
  · rename_i hbelow
    refine get?_erase_of_isPrefixOf t (List.isPrefixOf_iff_prefix.2 hbelow) ?_
    rintro rfl
    exact hplace (List.prefix_nil.1 hbelow)
  · rename_i hbelow
    exact get?_erase_of_not t (by simpa [← List.isPrefixOf_iff_prefix] using hbelow)

theorem get?_stamp (clock : Instant) (place other : Place) :
    (t.stamp clock place).get? other =
      if other = place.dropLast ∧ other ≠ [] then (t.get? other).map (Node.touched clock)
      else t.get? other := by
  unfold stamp
  cases hfolder : place.dropLast with
  | nil => simp +contextual
  | cons first rest =>
    cases hget : t.get? (first :: rest) with
    | none =>
      simp only [hget]
      split
      · rename_i hother
        simp [hother.1, hget]
      · rfl
    | some node =>
      simp only [hget]
      by_cases hother : other = first :: rest
      · subst hother
        simp [get?_put_self, hget, Node.touched]
      · simp [get?_put_of_ne, hother]

theorem not_below_folder (folder : Place) (name : String) : ¬folder ++ [name] <+: folder :=
  fun h => absurd h.length_le (by simp)

namespace Sheds

theorem refl (t : Tree) (folder : Place) (clock : Instant) : t.Sheds t folder [] clock :=
  ⟨nofun, rfl, fun place => by simp⟩

/-- What a removal makes of a tree. -/
theorem of_erase (hfolder : t.folderAt folder = true) (name : String) (clock : Instant) :
    t.Sheds ((t.erase (folder ++ [name])).stamp clock (folder ++ [name])) folder [name] clock := by
  refine ⟨fun _ => hfolder, home_stamp _ _ _, fun place => ?_⟩
  rw [get?_stamp, get?_erase (by simp), List.dropLast_concat]
  by_cases hbelow : folder ++ [name] <+: place
  · have hne : place ≠ folder := fun heq => not_below_folder folder name (heq ▸ hbelow)
    simp [hbelow, hne]
  · by_cases hplace : place = folder
    · subst hplace
      simp [hbelow]
    · simp [hbelow, hplace]

theorem folderAt_folder (h : t.Sheds t' folder gone clock) (hfolder : t.folderAt folder = true) :
    t'.folderAt folder = true := by
  have hnot : ¬∃ name ∈ gone, folder ++ [name] <+: folder :=
    fun ⟨name, _, hbelow⟩ => not_below_folder folder name hbelow
  obtain ⟨node, hget, hisFolder⟩ := folderAt_eq_true.1 hfolder
  rw [folderAt, h.get, if_neg hnot]
  split <;> simp [hget, hisFolder]

/-- A place that is not below a name that is gone has what it had. -/
theorem agreesAt (h : t.Sheds t' folder gone clock)
    (hplace : ∀ name ∈ gone, ¬folder ++ [name] <+: place) : t.AgreesAt t' place := by
  have hnot : ¬∃ name ∈ gone, folder ++ [name] <+: place :=
    fun ⟨name, hname, hbelow⟩ => hplace name hname hbelow
  by_cases htouched : place = folder ∧ folder ≠ [] ∧ gone ≠ []
  · obtain ⟨rfl, -, hgone⟩ := htouched
    have hfolder := h.isFolder hgone
    refine ⟨?_, (h.folderAt_folder hfolder).trans hfolder.symm⟩
    rw [leaf?_of_folderAt (h.folderAt_folder hfolder), leaf?_of_folderAt hfolder]
  · have hget := h.get place
    rw [if_neg hnot, if_neg htouched] at hget
    rw [AgreesAt, leaf?, leaf?, Tree.folderAt, Tree.folderAt, hget]
    exact ⟨rfl, rfl⟩

theorem trans (h : t.Sheds t' folder gone clock) (h' : t'.Sheds t'' folder more clock) :
    t.Sheds t'' folder (gone ++ more) clock := by
  refine ⟨fun hne => ?_, h'.home.trans h.home, fun place => ?_⟩
  · by_cases hgone : gone = []
    · subst hgone
      rw [← (h.agreesAt nofun).2]
      exact h'.isFolder hne
    · exact h.isFolder hgone
  have hor : (∃ name ∈ gone ++ more, folder ++ [name] <+: place) ↔
      (∃ name ∈ gone, folder ++ [name] <+: place) ∨ ∃ name ∈ more, folder ++ [name] <+: place := by
    simp only [List.mem_append, or_and_right, exists_or]
  rw [h'.get, h.get]
  simp only [hor]
  by_cases hgone : ∃ name ∈ gone, folder ++ [name] <+: place
  · simp [hgone]
  · by_cases hmore : ∃ name ∈ more, folder ++ [name] <+: place
    · simp [hmore]
    · simp only [hgone, hmore, or_self, if_false]
      by_cases hplace : place = folder ∧ folder ≠ []
      · cases gone <;> cases more <;> simp [hplace.1, hplace.2, Function.comp_def]
      · have hnot : ∀ p : Prop, ¬(place = folder ∧ folder ≠ [] ∧ p) :=
          fun p hp => hplace ⟨hp.1, hp.2.1⟩
        simp only [if_neg (hnot _)]

theorem get?_of_below (h : t.Sheds t' folder gone clock) (hname : name ∈ gone)
    (hbelow : folder ++ [name] <+: place) : t'.get? place = none := by
  rw [h.get, if_pos ⟨name, hname, hbelow⟩]

theorem isPartOf (h : t.Sheds t' folder gone clock) : t'.IsPartOf t :=
  ⟨h.home, fun _ hthere => h.agreesAt fun _ hname hbelow => hthere (h.get?_of_below hname hbelow)⟩

/-- A part of a tree in which the names are gone too is a part of what is left. -/
theorem isPartOf_of_gone (h : t.Sheds t' folder gone clock) (hpart : t''.IsPartOf t)
    (hgone : ∀ name ∈ gone, ∀ place, folder ++ [name] <+: place → t''.get? place = none) :
    t''.IsPartOf t' := by
  refine ⟨hpart.home.trans h.home.symm, fun place hthere => ?_⟩
  obtain ⟨hleaf, hfolder⟩ := hpart.agrees place hthere
  obtain ⟨hleaf', hfolder'⟩ :=
    h.agreesAt fun name hname hbelow => hthere (hgone name hname place hbelow)
  exact ⟨hleaf.trans hleaf'.symm, hfolder.trans hfolder'.symm⟩

theorem isGrounded (h : t.Sheds t' folder gone clock) (hground : t.IsGrounded) : t'.IsGrounded := by
  intro place name hthere
  have hfolder := hground place name (h.isPartOf.get?_ne_none hthere)
  have hstays : ∀ other ∈ gone, ¬folder ++ [other] <+: place := fun other hother hbelow =>
    hthere (h.get?_of_below hother (hbelow.trans (List.prefix_append place [name])))
  exact (h.agreesAt hstays).2.trans hfolder

/-- The other names in the folder are behind nodes as before. -/
theorem get?_name (h : t.Sheds t' folder gone clock) (name : String) :
    t'.get? (folder ++ [name]) = if name ∈ gone then none else t.get? (folder ++ [name]) := by
  have hsame : (∃ other ∈ gone, folder ++ [other] <+: folder ++ [name]) ↔ name ∈ gone := by
    constructor
    · rintro ⟨other, hother, hbelow⟩
      have heq := hbelow.eq_of_length (by simp)
      obtain rfl : other = name := by simpa using heq
      exact hother
    · exact fun hname => ⟨name, hname, List.prefix_rfl⟩
  have hne : ¬(folder ++ [name] = folder ∧ folder ≠ [] ∧ gone ≠ []) := fun h => by simpa using h.1
  rw [h.get, if_neg hne]
  simp only [hsame]

end Sheds

/-! ### Removals -/

/-- What is removed is removed from where the path leads. -/
theorem removeFolder_eq_ok (h : t.removeFolder clock path = .ok t') :
    ∃ found, t.locate false path = .ok found ∧ t.get? found ≠ none ∧
      t' = (t.erase found).stamp clock found := by
  unfold removeFolder at h
  split at h
  · cases h
  · cases h
  · cases h
  · rename_i found node _ _ hfind
    obtain ⟨hlocate, hget⟩ := find_eq_ok.1 hfind
    exact ⟨found, hlocate, by simp [hget], (Except.ok.inj h).symm⟩

theorem removeFile_eq_ok (h : t.removeFile clock path = .ok t') :
    ∃ found, t.locate false path = .ok found ∧ t.get? found ≠ none ∧
      t' = (t.erase found).stamp clock found := by
  unfold removeFile at h
  split at h
  · cases h
  · cases h
  · rename_i found node _ hfind
    obtain ⟨hlocate, hget⟩ := find_eq_ok.1 hfind
    exact ⟨found, hlocate, by simp [hget], (Except.ok.inj h).symm⟩

/-- In a part of a tree a name is still found in the folder to which the path leads in the tree. -/
theorem IsPartOf.locate_join (h : t'.IsPartOf t) (hroot : t.IsRooted) (hname : Path.IsPlain name)
    (hpath : t.locate true path = .ok folder) (hfolder : t.folderAt folder = true)
    (hlink : t.link? (folder ++ [name]) = none ∨ followLast = false)
    (hlocate : t'.locate followLast (path.join name) = .ok found) (hthere : t'.get? found ≠ none) :
    found = folder ++ [name] :=
  Tree.locate_join hroot hname hpath hfolder hlink (h.locate hlocate hthere)

/-- A path to which a name can be added leads to the name in any tree in which it still leads to the
folder. -/
theorem locate_join_of (hroot : t.IsRooted) (hname : Path.IsPlain name)
    (hjoin : t.locate false (path.join name) = .ok found)
    (hpath : t'.locate true path = .ok folder) (hfolder : t'.folderAt folder = true) :
    t'.locate false (path.join name) = .ok (folder ++ [name]) := by
  obtain ⟨hwalkable, hwayJoin⟩ := locate_eq_ok.1 hjoin
  obtain ⟨before, hsteps, hbefore⟩ := exists_leads_join hname hpath
  rw [hsteps] at hwayJoin
  have hshort := (hwayJoin.unsnoc hroot (hroot.folderAt_start _)).1
  rw [locate_eq_ok, Path.isAbsolute_join hname (locate_eq_ok.1 hpath).1.2.1, hsteps]
  exact ⟨hwalkable, hbefore.snoc hfolder hshort (.inr rfl)⟩

end Tree

end ResumePress.Files
