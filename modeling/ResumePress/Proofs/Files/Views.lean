import Mathlib.Data.List.Induction
import Mathlib.Logic.Function.Basic
import ResumePress.Files.Tree

/-!
What can be seen of a tree at a place: the file or link that stands there, or that a folder does.
A tree is rooted if all that stands in it stands in folders. What a change does to a rooted tree is
said by the views alone, which leave out only the times of folders.
-/

namespace ResumePress.Files

open Function (update)

/-- Where a link leads. -/
def Entry.target? : Entry → Option Path
  | .link target => some target
  | _ => none

namespace Tree

/-- The file or the link at a place. -/
def leaf? (t : Tree) (place : Place) : Option Node :=
  (t.get? place).filter fun node => !node.entry.isFolder

/-- Whether a folder stands at a place. -/
def folderAt (t : Tree) (place : Place) : Bool :=
  (t.get? place).any fun node => node.entry.isFolder

/-- Where the link at a place leads. -/
def link? (t : Tree) (place : Place) : Option Path :=
  (t.leaf? place).bind fun node => node.entry.target?

/-- All that stands in the tree stands in folders, and the home folder is one. -/
structure IsRooted (t : Tree) : Prop where
  parent : ∀ place name, t.get? (place ++ [name]) ≠ none → t.folderAt place = true
  home : t.folderAt t.home = true

/-- Trees that differ at most in the times of folders. -/
structure Alike (t t' : Tree) : Prop where
  leaf : t'.leaf? = t.leaf?
  folderAt : t'.folderAt = t.folderAt
  home : t'.home = t.home

/-- A tree with another file or link at one place where no folder is, or with nothing there. -/
structure Sets (t t' : Tree) (place : Place) (leaf : Option Node) : Prop where
  parent : t.folderAt place.dropLast = true
  noFolder : t.folderAt place = false
  isLeaf : ∀ node ∈ leaf, node.entry.isFolder = false
  leaf : t'.leaf? = update t.leaf? place leaf
  folderAt : t'.folderAt = t.folderAt
  home : t'.home = t.home

variable {t t' t'' : Tree} {place other : Place} {node : Node}

theorem ne_nil_of_folderAt (h : t.folderAt place = false) : place ≠ [] := by
  rintro rfl
  cases h

theorem leaf?_eq_some : t.leaf? place = some node ↔
    t.get? place = some node ∧ node.entry.isFolder = false := by
  simp [leaf?, Option.filter_eq_some_iff]

theorem folderAt_eq_true : t.folderAt place = true ↔
    ∃ node, t.get? place = some node ∧ node.entry.isFolder = true := by
  simp [folderAt, Option.any_eq_true]

theorem leaf?_of_folderAt (h : t.folderAt place = true) : t.leaf? place = none := by
  obtain ⟨node, hget, hfolder⟩ := folderAt_eq_true.1 h
  simp [leaf?, hget, hfolder]

theorem folderAt_of_leaf? (h : t.leaf? place = some node) : t.folderAt place = false := by
  obtain ⟨hget, hfolder⟩ := leaf?_eq_some.1 h
  simp [folderAt, hget, hfolder]

theorem get?_eq_none : t.get? place = none ↔ t.leaf? place = none ∧ t.folderAt place = false := by
  cases hget : t.get? place with
  | none => simp [leaf?, folderAt, hget]
  | some node => cases hfolder : node.entry.isFolder <;> simp [leaf?, folderAt, hget, hfolder]

theorem get?_ne_none : t.get? place ≠ none ↔
    t.leaf? place ≠ none ∨ t.folderAt place = true := by
  rw [Ne, get?_eq_none]
  cases t.folderAt place <;> simp

theorem link?_eq_some {target : Path} : t.link? place = some target ↔
    ∃ modified, t.get? place = some ⟨.link target, modified⟩ := by
  constructor
  · intro h
    obtain ⟨⟨entry, modified⟩, hleaf, htarget⟩ := Option.bind_eq_some_iff.1 h
    cases entry with
    | link => exact ⟨modified, by rw [(leaf?_eq_some.1 hleaf).1]; cases htarget; rfl⟩
    | _ => cases htarget
  · rintro ⟨modified, hget⟩
    have hleaf : t.leaf? place = some ⟨.link target, modified⟩ := leaf?_eq_some.2 ⟨hget, rfl⟩
    rw [link?, hleaf]
    rfl

theorem link?_of_folderAt (h : t.folderAt place = true) : t.link? place = none := by
  simp [link?, leaf?_of_folderAt h]

theorem folderAt_of_link? {target : Path} (h : t.link? place = some target) :
    t.folderAt place = false := by
  obtain ⟨modified, hget⟩ := link?_eq_some.1 h
  simp [folderAt, hget, Entry.isFolder]

/-- The tree lists what stands in it. -/
theorem mem_nodes_of_get? (hplace : place ≠ []) (h : t.get? place = some node) :
    (place, node) ∈ t.nodes := by
  unfold get? at h
  rw [if_neg hplace] at h
  obtain ⟨before, after, hnodes, -⟩ := List.lookup_eq_some_iff.1 h
  simp [hnodes]

theorem childName?_eq_some {folder : Place} {name : String} :
    childName? folder place = some name ↔ place = folder ++ [name] := by
  fun_induction childName? folder place with
  | case1 last => simp
  | case2 first folder place ih => simp [ih]
  | case3 first folder other place hne => simp [Ne.symm hne]
  | case4 folder place hnone hcons =>
    refine ⟨nofun, ?_⟩
    rintro rfl
    cases folder with
    | nil => exact absurd rfl (hnone name rfl)
    | cons first folder => exact absurd rfl (hcons first folder first (folder ++ [name]) rfl)

/-- The names in a folder are those that something stands behind. -/
theorem mem_children {folder : Place} {name : String} :
    name ∈ t.children folder ↔ t.get? (folder ++ [name]) ≠ none := by
  have hne : folder ++ [name] ≠ [] := by simp
  rw [children, List.mem_filterMap, get?, if_neg hne]
  constructor
  · rintro ⟨⟨other, node⟩, hmem, hname⟩
    obtain rfl := childName?_eq_some.1 hname
    rw [Ne, List.lookup_eq_none_iff]
    exact fun hnone => by simpa using hnone _ hmem
  · intro hsome
    obtain ⟨node, hnode⟩ := Option.ne_none_iff_exists'.1 hsome
    obtain ⟨before, after, hnodes, -⟩ := List.lookup_eq_some_iff.1 hnode
    exact ⟨(folder ++ [name], node), by simp [hnodes], childName?_eq_some.2 rfl⟩

theorem mem_nodes_of_leaf? (h : t.leaf? place = some node) : (place, node) ∈ t.nodes :=
  mem_nodes_of_get? (ne_nil_of_folderAt (folderAt_of_leaf? h)) (leaf?_eq_some.1 h).1

/-- A tree that lists no links has none. -/
theorem link?_of_nodes (hnodes : ∀ n ∈ t.nodes, n.2.entry.target? = none) (place : Place) :
    t.link? place = none := by
  cases hleaf : t.leaf? place with
  | none => simp [link?, hleaf]
  | some node => simpa [link?, hleaf] using hnodes _ (mem_nodes_of_leaf? hleaf)

/-! ### Rooted trees -/

namespace IsRooted

theorem above (h : t.IsRooted) {rest : Place} (hrest : rest ≠ [])
    (hbelow : t.get? (place ++ rest) ≠ none) : t.folderAt place = true := by
  induction rest using List.reverseRecOn with
  | nil => exact absurd rfl hrest
  | append_singleton rest name ih =>
    rw [← List.append_assoc] at hbelow
    have hfolder := h.parent _ _ hbelow
    by_cases hnil : rest = []
    · simpa [hnil] using hfolder
    · refine ih hnil (get?_ne_none.2 (.inr hfolder))

theorem get?_append (h : t.IsRooted) (hplace : t.folderAt place = false) {rest : Place}
    (hrest : rest ≠ []) : t.get? (place ++ rest) = none := by
  by_contra hbelow
  rw [h.above hrest hbelow] at hplace
  cases hplace

theorem dropLast (h : t.IsRooted) (hplace : t.get? place ≠ none) :
    t.folderAt place.dropLast = true := by
  cases place using List.reverseRecOn with
  | nil => rfl
  | append_singleton place name => simpa using h.parent place name hplace

/-- It is enough to look at the places that the tree has. -/
theorem of_nodes (hnodes : ∀ n ∈ t.nodes, t.folderAt n.1.dropLast = true)
    (hhome : t.folderAt t.home = true) : t.IsRooted where
  parent place name hget := by
    obtain ⟨node, hnode⟩ := Option.ne_none_iff_exists'.1 hget
    have hlookup : t.nodes.lookup (place ++ [name]) = some node := by simpa [get?] using hnode
    obtain ⟨before, after, hnodesEq, -⟩ := List.lookup_eq_some_iff.1 hlookup
    have hfolder := hnodes (place ++ [name], node) (by simp [hnodesEq])
    simpa using hfolder
  home := hhome

end IsRooted

/-! ### Trees alike -/

theorem Alike.refl (t : Tree) : Alike t t := ⟨rfl, rfl, rfl⟩

theorem leaf?_put (hplace : place ≠ []) (node : Node) : (t.put place node).leaf? =
    update t.leaf? place (if node.entry.isFolder then none else some node) := by
  funext other
  by_cases hother : other = place
  · subst hother
    cases hfolder : node.entry.isFolder <;> simp [leaf?, get?_put_self, hplace, hfolder]
  · simp [leaf?, get?_put_of_ne, hother]

theorem folderAt_put (hplace : place ≠ []) (node : Node) :
    (t.put place node).folderAt = update t.folderAt place node.entry.isFolder := by
  funext other
  by_cases hother : other = place
  · subst hother
    simp [folderAt, get?_put_self, hplace]
  · simp [folderAt, get?_put_of_ne, hother]

theorem leaf?_erase (hplace : place ≠ []) (other : Place) :
    (t.erase place).leaf? other = if place <+: other then none else t.leaf? other := by
  by_cases hother : place <+: other
  · have hne : other ≠ [] := by
      rintro rfl
      exact hplace (List.prefix_nil.1 hother)
    simp [leaf?, get?_erase_of_isPrefixOf t (List.isPrefixOf_iff_prefix.2 hother) hne, hother]
  · have hnot : place.isPrefixOf other = false := by
      simpa [← List.isPrefixOf_iff_prefix] using hother
    simp [leaf?, get?_erase_of_not t hnot, hother]

theorem folderAt_erase (hplace : place ≠ []) (other : Place) :
    (t.erase place).folderAt other = if place <+: other then false else t.folderAt other := by
  by_cases hother : place <+: other
  · have hne : other ≠ [] := by
      rintro rfl
      exact hplace (List.prefix_nil.1 hother)
    simp [folderAt, get?_erase_of_isPrefixOf t (List.isPrefixOf_iff_prefix.2 hother) hne, hother]
  · have hnot : place.isPrefixOf other = false := by
      simpa [← List.isPrefixOf_iff_prefix] using hother
    simp [folderAt, get?_erase_of_not t hnot, hother]

theorem alike_stamp (now : Instant) (place : Place) (hparent : t.folderAt place.dropLast = true) :
    Alike t (t.stamp now place) := by
  unfold stamp
  cases hfolder : place.dropLast with
  | nil => exact .refl t
  | cons name rest =>
    rw [hfolder] at hparent
    obtain ⟨node, hget, hisFolder⟩ := folderAt_eq_true.1 hparent
    simp only [hget]
    refine ⟨?_, ?_, rfl⟩
    · rw [leaf?_put (List.cons_ne_nil _ _), if_pos hisFolder, ← leaf?_of_folderAt hparent,
        Function.update_eq_self]
    · rw [folderAt_put (List.cons_ne_nil _ _)]
      dsimp only
      rw [hisFolder, ← hparent, Function.update_eq_self]

/-! ### Changes of one place -/

namespace Sets

variable {leaf : Option Node}

theorem alike (h : Sets t t' place leaf) (h' : Alike t' t'') : Sets t t'' place leaf :=
  { h with
    leaf := h'.leaf.trans h.leaf
    folderAt := h'.folderAt.trans h.folderAt
    home := h'.home.trans h.home }

theorem leaf_self (h : Sets t t' place leaf) : t'.leaf? place = leaf := by
  simp [h.leaf]

theorem leaf_of_ne (h : Sets t t' place leaf) (hother : other ≠ place) :
    t'.leaf? other = t.leaf? other := by
  simp [h.leaf, hother]

theorem link?_eq (h : Sets t t' place leaf) (hold : t.link? place = none)
    (hnew : ∀ node ∈ leaf, node.entry.target? = none) : t'.link? = t.link? := by
  funext other
  by_cases hother : other = place
  · rw [hother, hold, Tree.link?, h.leaf_self]
    cases leaf with
    | none => rfl
    | some node => exact hnew node rfl
  · simp only [Tree.link?, h.leaf_of_ne hother]

theorem isRooted (h : Sets t t' place leaf) (hroot : t.IsRooted) : t'.IsRooted where
  parent parent name hbelow := by
    rw [h.folderAt]
    by_cases hplace : parent ++ [name] = place
    · have hparent := h.parent
      rw [← hplace, List.dropLast_concat] at hparent
      exact hparent
    · refine hroot.parent parent name (get?_ne_none.2 ?_)
      rw [← h.leaf_of_ne hplace, ← h.folderAt]
      exact get?_ne_none.1 hbelow
  home := by
    rw [h.home, h.folderAt]
    exact hroot.home

end Sets

theorem sets_put (hparent : t.folderAt place.dropLast = true) (hplace : t.folderAt place = false)
    (hnode : node.entry.isFolder = false) : Sets t (t.put place node) place (some node) where
  parent := hparent
  noFolder := hplace
  isLeaf := by simpa using hnode
  leaf := by rw [leaf?_put (ne_nil_of_folderAt hplace), hnode]; rfl
  folderAt := by
    rw [folderAt_put (ne_nil_of_folderAt hplace), hnode, ← hplace, Function.update_eq_self]
  home := rfl

theorem sets_erase (hroot : t.IsRooted) (hleaf : t.leaf? place ≠ none) :
    Sets t (t.erase place) place none := by
  obtain ⟨node, hnode⟩ := Option.ne_none_iff_exists'.1 hleaf
  have hplace := folderAt_of_leaf? hnode
  have hbelow : ∀ other, place <+: other → other ≠ place → t.get? other = none := by
    rintro other ⟨rest, rfl⟩ hother
    exact hroot.get?_append hplace (by simpa using hother)
  refine ⟨hroot.dropLast (get?_ne_none.2 (.inl hleaf)), hplace, by simp, ?_, ?_, rfl⟩
  · funext other
    rw [leaf?_erase (ne_nil_of_folderAt hplace)]
    by_cases hother : other = place
    · simp [hother]
    · rw [Function.update_of_ne hother]
      split
      · exact (get?_eq_none.1 (hbelow other ‹_› hother)).1.symm
      · rfl
  · funext other
    rw [folderAt_erase (ne_nil_of_folderAt hplace)]
    split
    · by_cases hother : other = place
      · rw [hother, hplace]
      · exact (get?_eq_none.1 (hbelow other ‹_› hother)).2.symm
    · rfl

end Tree

end ResumePress.Files
