import ResumePress.Proofs.Files.Changes

/-!
Changes that keep to a region of a tree. What is outside stays as it is, so the paths that lead
there lead there still.
-/

namespace ResumePress.Files

/-- A place inside a folder, at any depth. -/
def Below (folder place : Place) : Prop :=
  folder <+: place ∧ place ≠ folder

theorem not_below_self (folder : Place) : ¬Below folder folder :=
  fun h => h.2 rfl

theorem below_snoc (folder : Place) (name : String) : Below folder (folder ++ [name]) :=
  ⟨List.prefix_append _ _, by simp⟩

namespace Tree

/-- A tree that differs from another one only in what is in a region, and has no other links. -/
structure Within (region : Place → Prop) (t t' : Tree) : Prop where
  leaf : ∀ place, ¬region place → t'.leaf? place = t.leaf? place
  folderAt : ∀ place, ¬region place → t'.folderAt place = t.folderAt place
  link : ∀ place target, t'.link? place = some target → t.link? place = some target
  home : t'.home = t.home
  isRooted : t.IsRooted → t'.IsRooted

/-- A tree in which paths lead to all places outside of a region that they led to in another one,
and in which what is there is the same, up to files at some places. -/
structure Spares (region altered : Place → Prop) (t t' : Tree) : Prop where
  leaf : ∀ place, ¬region place → ¬altered place → t'.leaf? place = t.leaf? place
  link? : ∀ place, ¬region place → t'.link? place = t.link? place
  folderAt : ∀ place, ¬region place → t.folderAt place = true → t'.folderAt place = true
  link : ∀ place target, t'.link? place = some target → t.link? place = some target
  home : t'.home = t.home
  isRooted : t.IsRooted → t'.IsRooted

/-- A tree that spares what is outside of a region in another one, up to files at some places, and has
new folders there at some places only. -/
structure Changes (region altered new : Place → Prop) (t t' : Tree) : Prop
    extends Spares region altered t t' where
  folders : ∀ place, ¬region place →
    t'.folderAt place = t.folderAt place ∨ (new place ∧ t'.folderAt place = true)

/-- A tree that differs from another one only in files, and in those only at some places. -/
structure Edits (altered : Place → Prop) (t t' : Tree) : Prop where
  leaf : ∀ place, ¬altered place → t'.leaf? place = t.leaf? place
  folderAt : t'.folderAt = t.folderAt
  link : ∀ place target, t'.link? place = some target → t.link? place = some target
  home : t'.home = t.home
  isRooted : t.IsRooted → t'.IsRooted

variable {region altered new : Place → Prop} {t t' t'' : Tree} {place found : Place} {path : Path}
  {leaf : Option Node}

namespace Within

theorem refl (region : Place → Prop) (t : Tree) : Within region t t :=
  ⟨fun _ _ => rfl, fun _ _ => rfl, fun _ _ => id, rfl, id⟩

theorem trans (h : Within region t t') (h' : Within region t' t'') : Within region t t'' where
  leaf := fun place hplace => (h'.leaf place hplace).trans (h.leaf place hplace)
  folderAt := fun place hplace => (h'.folderAt place hplace).trans (h.folderAt place hplace)
  link := fun place target hlink => h.link place target (h'.link place target hlink)
  home := h'.home.trans h.home
  isRooted := fun hroot => h'.isRooted (h.isRooted hroot)

theorem link?_of_not (h : Within region t t') (hplace : ¬region place) :
    t'.link? place = t.link? place := by
  simp only [Tree.link?, h.leaf place hplace]

theorem alike (h : Within (fun _ => False) t t') : Alike t t' :=
  ⟨funext fun place => h.leaf place id, funext fun place => h.folderAt place id, h.home⟩

theorem spares (h : Within region t t') : Spares region altered t t' where
  leaf := fun place hplace _ => h.leaf place hplace
  link? := fun _ hplace => h.link?_of_not hplace
  folderAt := fun place hplace hfolder => (h.folderAt place hplace).trans hfolder
  link := h.link
  home := h.home
  isRooted := h.isRooted

end Within

theorem Grown.spares (h : Grown t t') : Spares region altered t t' where
  leaf := fun place _ _ => by rw [h.leaf]
  link? := fun place _ => by rw [h.link?]
  folderAt := fun place _ hfolder => h.folderAt place hfolder
  link := fun place target hlink => by rwa [h.link?] at hlink
  home := h.home
  isRooted := h.isRooted

theorem Sets.link_subset (h : Sets t t' place leaf) (hnew : ∀ node ∈ leaf, node.entry.target? = none)
    {other : Place} {target : Path} (hlink : t'.link? other = some target) :
    t.link? other = some target := by
  by_cases hother : other = place
  · rw [hother, Tree.link?, h.leaf_self] at hlink
    obtain ⟨node, hnode, htarget⟩ := Option.bind_eq_some_iff.1 hlink
    rw [hnew node hnode] at htarget
    cases htarget
  · rwa [Tree.link?, h.leaf_of_ne hother] at hlink

/-- A file changes nothing outside of a region if it is in it. -/
theorem Sets.within (h : Sets t t' place leaf) (hplace : region place)
    (hnew : ∀ node ∈ leaf, node.entry.target? = none) : Within region t t' where
  leaf other hother := h.leaf_of_ne (by rintro rfl; exact hother hplace)
  folderAt other _ := by rw [h.folderAt]
  link _ _ := h.link_subset hnew
  home := h.home
  isRooted := h.isRooted

theorem Sets.edits (h : Sets t t' place leaf) (hplace : altered place)
    (hnew : ∀ node ∈ leaf, node.entry.target? = none) : Edits altered t t' where
  leaf other hother := h.leaf_of_ne (by rintro rfl; exact hother hplace)
  folderAt := h.folderAt
  link _ _ := h.link_subset hnew
  home := h.home
  isRooted := h.isRooted

theorem Sets.spares (h : Sets t t' place leaf) (hplace : region place ∨ altered place)
    (hold : t.link? place = none) (hnew : ∀ node ∈ leaf, node.entry.target? = none) :
    Spares region altered t t' where
  leaf other hregion haltered := h.leaf_of_ne (by
    rintro rfl
    exact hplace.elim hregion haltered)
  link? other _ := by rw [h.link?_eq hold hnew]
  folderAt other _ hfolder := by rwa [h.folderAt]
  link other target hlink := by rwa [h.link?_eq hold hnew] at hlink
  home := h.home
  isRooted := h.isRooted

namespace Edits

theorem refl (altered : Place → Prop) (t : Tree) : Edits altered t t :=
  ⟨fun _ _ => rfl, rfl, fun _ _ => id, rfl, id⟩

theorem trans (h : Edits altered t t') (h' : Edits altered t' t'') : Edits altered t t'' where
  leaf := fun place hplace => (h'.leaf place hplace).trans (h.leaf place hplace)
  folderAt := h'.folderAt.trans h.folderAt
  link := fun place target hlink => h.link place target (h'.link place target hlink)
  home := h'.home.trans h.home
  isRooted := fun hroot => h'.isRooted (h.isRooted hroot)

theorem within (h : Edits altered t t') (hregion : ∀ place, altered place → region place) :
    Within region t t' where
  leaf := fun place hplace => h.leaf place (mt (hregion place) hplace)
  folderAt := fun place _ => by rw [h.folderAt]
  link := h.link
  home := h.home
  isRooted := h.isRooted

theorem mono (h : Edits altered t t') {more : Place → Prop}
    (hmore : ∀ place, altered place → more place) : Edits more t t' :=
  { h with leaf := fun place hplace => h.leaf place (mt (hmore place) hplace) }

/-- Up to its end a path takes no new ways. -/
theorem locate (h : Edits altered t t') (hlocate : t'.locate false path = .ok found) :
    t.locate false path = .ok found := by
  obtain ⟨hwalkable, hway⟩ := locate_eq_ok.1 hlocate
  rw [h.home] at hway
  exact locate_eq_ok.2 ⟨hwalkable, hway.of_links (by simp [h.folderAt]) (by rw [h.folderAt]) h.link⟩

theorem link?_eq_none (h : Edits altered t t') (hlink : t.link? place = none) :
    t'.link? place = none := by
  cases hthere : t'.link? place with
  | none => rfl
  | some target =>
    rw [h.link place target hthere] at hlink
    cases hlink

/-- Where no links are changed the links stay. -/
theorem link?_eq (h : Edits altered t t') (hlink : ∀ place, altered place → t.link? place = none) :
    t'.link? = t.link? := by
  funext place
  by_cases hplace : altered place
  · rw [hlink place hplace, h.link?_eq_none (hlink place hplace)]
  · simp only [Tree.link?, h.leaf place hplace]

end Edits

namespace Spares

theorem refl (region altered : Place → Prop) (t : Tree) : Spares region altered t t :=
  (Within.refl region t).spares

theorem trans (h : Spares region altered t t') (h' : Spares region altered t' t'') :
    Spares region altered t t'' where
  leaf := fun place hplace hother =>
    (h'.leaf place hplace hother).trans (h.leaf place hplace hother)
  link? := fun place hplace => (h'.link? place hplace).trans (h.link? place hplace)
  folderAt := fun place hplace hfolder => h'.folderAt place hplace (h.folderAt place hplace hfolder)
  link := fun place target hlink => h.link place target (h'.link place target hlink)
  home := h'.home.trans h.home
  isRooted := fun hroot => h'.isRooted (h.isRooted hroot)

theorem mono (h : Spares region altered t t') {more : Place → Prop}
    (hmore : ∀ place, altered place → more place) : Spares region more t t' :=
  { h with leaf := fun place hplace hother => h.leaf place hplace (mt (hmore place) hother) }

/-- A path to a place outside of a region in which nothing was leads there still. -/
theorem locate (h : Spares region altered t t') (hempty : ∀ place, region place → t.get? place = none)
    {followLast : Bool} (hlocate : t.locate followLast path = .ok found) (hfound : ¬region found) :
    t'.locate followLast path = .ok found :=
  locate_congr hlocate (fun place => ¬region place) h.home h.folderAt h.link?
    (fun place hplace => hempty place (not_not.1 hplace)) hfound

theorem link?_eq_none (h : Spares region altered t t') (hlink : t.link? place = none) :
    t'.link? place = none := by
  cases hthere : t'.link? place with
  | none => rfl
  | some target =>
    rw [h.link place target hthere] at hlink
    cases hlink

end Spares

theorem Within.changes (h : Within region t t') : Changes region altered new t t' where
  toSpares := h.spares
  folders := fun place hplace => .inl (h.folderAt place hplace)

/-- Outside of a region, files that replace files leave the links as they are. -/
theorem Edits.changes_of (h : Edits altered t t') {more : Place → Prop}
    (hplaces : ∀ place, altered place → region place ∨ (more place ∧ t.link? place = none)) :
    Changes region more new t t' where
  leaf := fun place hregion hmore => h.leaf place fun haltered =>
    (hplaces place haltered).elim hregion fun hother => hmore hother.1
  link? := fun place hregion => by
    by_cases haltered : altered place
    · have hnone := ((hplaces place haltered).resolve_left hregion).2
      rw [hnone, h.link?_eq_none hnone]
    · simp only [Tree.link?, h.leaf place haltered]
  folderAt := fun place _ hfolder => by rwa [h.folderAt]
  link := h.link
  home := h.home
  isRooted := h.isRooted
  folders := fun place _ => .inl (by rw [h.folderAt])

theorem Edits.changes (h : Edits altered t t') (hlink : ∀ place, altered place → t.link? place = none) :
    Changes region altered new t t' :=
  h.changes_of fun place haltered => .inr ⟨haltered, hlink place haltered⟩

namespace Changes

theorem refl (region altered new : Place → Prop) (t : Tree) : Changes region altered new t t :=
  (Within.refl region t).changes

theorem trans (h : Changes region altered new t t') (h' : Changes region altered new t' t'') :
    Changes region altered new t t'' where
  toSpares := h.toSpares.trans h'.toSpares
  folders := fun place hplace => by
    rcases h'.folders place hplace with hsame | hnew
    · rw [hsame]
      exact h.folders place hplace
    · exact .inr hnew

theorem mono (h : Changes region altered new t t') {more others : Place → Prop}
    (hmore : ∀ place, altered place → more place) (hothers : ∀ place, new place → others place) :
    Changes region more others t t' where
  toSpares := h.toSpares.mono hmore
  folders := fun place hplace =>
    (h.folders place hplace).imp id fun ⟨hnew, htrue⟩ => ⟨hothers place hnew, htrue⟩

end Changes

end Tree

end ResumePress.Files
