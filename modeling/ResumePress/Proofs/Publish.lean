import ResumePress.Press
import ResumePress.Proofs.Files.Regions
import ResumePress.Proofs.Surroundings

/-!
Publishing of images. Staging only adds files where nothing was, and takes them away again if it
fails. From then on nothing is taken back: the first image that cannot be put in place stays beside
its target, and those before it have replaced theirs.
-/

namespace ResumePress

open Files

namespace Files.Tree

/-- Neither a file nor a link stands at a path, unless it be a file in a region that does not
count. -/
def IsFree (region : Place → Prop) (t : Tree) (path : Path) : Prop :=
  ∀ place, t.locate false path = .ok place →
    t.link? place = none ∧ (¬region place → t.leaf? place = none)

def HasFile (t : Tree) (place : Place) : Prop :=
  ∃ bytes modified, t.leaf? place = some ⟨.file bytes, modified⟩

/-- A tree that has files at some places where another one has nothing, and is the same elsewhere
outside of a region. -/
structure Staged (region : Place → Prop) (t t' : Tree) (places : Place → Prop) : Prop where
  isRooted : t'.IsRooted
  home : t'.home = t.home
  folderAt : t'.folderAt = t.folderAt
  link : t'.link? = t.link?
  kept : ∀ place, ¬places place → ¬region place → t'.leaf? place = t.leaf? place
  free : ∀ place, places place → ¬region place → t.leaf? place = none
  hasFile : ∀ place, places place → t'.HasFile place

variable {region places : Place → Prop} {t t' t'' : Tree} {place : Place} {path image : Path}
  {now : Instant} {leaf : Option Node}

theorem HasFile.link? (h : t.HasFile place) : t.link? place = none := by
  obtain ⟨bytes, modified, hleaf⟩ := h
  simp [Tree.link?, hleaf, Entry.target?]

theorem HasFile.ne_none (h : t.HasFile place) : t.leaf? place ≠ none := by
  obtain ⟨bytes, modified, hleaf⟩ := h
  simp [hleaf]

theorem Sets.hasFile (h : Sets t t' place leaf) {other : Place} (hother : other ≠ place)
    (hfile : t.HasFile other) : t'.HasFile other := by
  obtain ⟨bytes, modified, hleaf⟩ := hfile
  exact ⟨bytes, modified, by rw [h.leaf_of_ne hother, hleaf]⟩

namespace Staged

theorem refl (region : Place → Prop) (h : t.IsRooted) : Staged region t t fun _ => False :=
  ⟨h, rfl, rfl, rfl, fun _ _ _ => rfl, nofun, nofun⟩

theorem locate_iff (h : Staged region t t' places) {followLast : Bool} :
    t'.locate followLast path = .ok place ↔ t.locate followLast path = .ok place :=
  Tree.locate_iff h.home h.folderAt h.link

theorem within (h : Staged region t t' places) (hnone : ∀ place, ¬places place) :
    Within region t t' where
  leaf place hplace := h.kept place (hnone place) hplace
  folderAt place _ := congrFun h.folderAt place
  link place target hlink := by rwa [h.link] at hlink
  home := h.home
  isRooted _ := h.isRooted

theorem copy (h : Staged region t t' places) (hfree : t.IsFree region path)
    (hcopy : t'.copy now image path = .ok t'') :
    ∃ place, t.locate false path = .ok place ∧
      Staged region t t'' fun other => places other ∨ other = place := by
  obtain ⟨bytes, -, hwrite⟩ := copy_eq_ok hcopy
  obtain ⟨place, hlocate, hsets⟩ := write_sets h.isRooted hwrite
  have hplace : t.locate false path = .ok place :=
    locate_false_of_true (h.locate_iff.1 hlocate) fun link hlink => (hfree link hlink).1
  have hlink : t'.link? place = none := by
    rw [h.link]
    exact (hfree place hplace).1
  refine ⟨place, hplace, hsets.isRooted h.isRooted, hsets.home.trans h.home,
    hsets.folderAt.trans h.folderAt, ?_, ?_, ?_, ?_⟩
  · exact (hsets.link?_eq hlink (by simp [Entry.target?])).trans h.link
  · intro other hother hregion
    rw [not_or] at hother
    rw [hsets.leaf_of_ne hother.2, h.kept other hother.1 hregion]
  · rintro other (hother | rfl) hregion
    · exact h.free other hother hregion
    · exact (hfree _ hplace).2 hregion
  · intro other hother
    by_cases heq : other = place
    · exact ⟨bytes, now, by rw [heq, hsets.leaf_self]⟩
    · exact hsets.hasFile heq (h.hasFile other (hother.resolve_right heq))

theorem removeFile (h : Staged region t t' places) (hfree : t.IsFree region path)
    (now : Instant) :
    Staged region t (match t'.removeFile now path with | .ok t'' => t'' | .error _ => t')
      fun place => places place ∧ t.locate false path ≠ .ok place := by
  cases hremove : t'.removeFile now path with
  | error e =>
    have hnot : ∀ place, places place → t.locate false path ≠ .ok place := by
      intro place hplace hlocate
      obtain ⟨t'', hok⟩ := removeFile_isOk now (h.locate_iff.2 hlocate)
        (h.hasFile place hplace).ne_none
      rw [hremove] at hok
      cases hok
    refine { h with kept := ?_, free := ?_, hasFile := ?_ }
    · intro place hplace hregion
      exact h.kept place (fun hstaged => hplace ⟨hstaged, hnot place hstaged⟩) hregion
    · exact fun place hplace => h.free place hplace.1
    · exact fun place hplace => h.hasFile place hplace.1
  | ok t'' =>
    obtain ⟨place, hlocate, -, hsets⟩ := removeFile_sets h.isRooted hremove
    have hplace := h.locate_iff.1 hlocate
    have hlink : t'.link? place = none := by
      rw [h.link]
      exact (hfree place hplace).1
    refine ⟨hsets.isRooted h.isRooted, hsets.home.trans h.home, hsets.folderAt.trans h.folderAt,
      ?_, ?_, fun other hother => h.free other hother.1, ?_⟩
    · exact (hsets.link?_eq hlink (by simp)).trans h.link
    · intro other hother hregion
      by_cases heq : other = place
      · subst heq
        rw [hsets.leaf_self, (hfree other hplace).2 hregion]
      · rw [hsets.leaf_of_ne heq]
        refine h.kept other (fun hstaged => hother ⟨hstaged, fun hlocated => heq ?_⟩) hregion
        rw [hplace] at hlocated
        cases hlocated
        rfl
    · rintro other ⟨hstaged, hother⟩
      refine hsets.hasFile ?_ (h.hasFile other hstaged)
      rintro rfl
      exact hother hplace

end Staged

end Files.Tree

namespace Press

open Files.Tree

variable {σ : Type} {region places : Place → Prop} {t : Tree} {token : String}
  {placements : List Placement} {s : Surroundings σ} {e : Fault}

theorem discard_staged {paths : List Path} (h : Staged region t s.files places)
    (hfree : ∀ path ∈ paths, t.IsFree region path) :
    Staged region t (discard paths s).2.files
      fun place => places place ∧ ∀ path ∈ paths, t.locate false path ≠ .ok place := by
  induction paths generalizing s places with
  | nil => simpa [discard] using h
  | cons path paths ih =>
    have hfirst : Staged region t (Act.removeFile path s).2.files
        fun place => places place ∧ t.locate false path ≠ .ok place := by
      have hremoved := h.removeFile (hfree path List.mem_cons_self) s.now
      rw [Act.removeFile_apply]
      cases hremove : s.files.removeFile s.now path with
      | error e => rwa [hremove] at hremoved
      | ok files => rwa [hremove] at hremoved
    have hrest := ih hfirst fun path hpath => hfree path (List.mem_cons_of_mem _ hpath)
    simp only [List.forall_mem_cons, ← and_assoc]
    exact hrest

theorem stageAll_cons_apply (p : Placement) (rest : List Placement) (staged : List Path) :
    stageAll token (p :: rest) staged s =
      match s.files.copy s.now p.image (staging p.target token) with
      | .ok files =>
        stageAll token rest (staged ++ [staging p.target token]) { s with files := files }
      | .error e => (.error e, (discard (staging p.target token :: staged) s).2) := by
  rw [stageAll, Act.bind_apply, Act.copy_apply]
  cases s.files.copy s.now p.image (staging p.target token) <;> rfl

theorem placeAll_cons_apply (p : Placement) (rest : List Placement) :
    placeAll token (p :: rest) s =
      match s.files.rename s.now (staging p.target token) p.target with
      | .ok files => placeAll token rest { s with files := files }
      | .error e => (.error e, s) := by
  rw [placeAll, Act.bind_apply, Act.rename_apply]
  cases s.files.rename s.now (staging p.target token) p.target <;> rfl

/-- The paths at which images are staged lead to places that are taken. -/
def AllStaged (t : Tree) (token : String) (placements : List Placement) (places : Place → Prop) :
    Prop :=
  ∀ p ∈ placements, ∃ place, t.locate false (staging p.target token) = .ok place ∧ places place

-- The list of staged paths is what the clean-up relies on: it leads to all places that are taken.
theorem stageAll_staged {staged : List Path} (h : Staged region t s.files places)
    (hfree : ∀ p ∈ placements, t.IsFree region (staging p.target token))
    (hstaged : ∀ path ∈ staged, t.IsFree region path)
    (hplaces : ∀ place, places place → ∃ path ∈ staged, t.locate false path = .ok place) :
    (∃ e, (stageAll token placements staged s).1 = .error e ∧
      Within region t (stageAll token placements staged s).2.files) ∨
    ((stageAll token placements staged s).1 = .ok () ∧
      ∃ later, Staged region t (stageAll token placements staged s).2.files later ∧
        (∀ place, places place → later place) ∧ AllStaged t token placements later) := by
  induction placements generalizing s places staged with
  | nil => exact .inr ⟨rfl, places, h, fun _ => id, nofun⟩
  | cons p rest ih =>
    have hfreeRest := fun q hq => hfree q (List.mem_cons_of_mem _ hq)
    have hfreePath := hfree p List.mem_cons_self
    rw [stageAll_cons_apply]
    cases hcopy : s.files.copy s.now p.image (staging p.target token) with
    | error e =>
      dsimp only
      refine .inl ⟨e, rfl, ?_⟩
      have hfreeAll : ∀ path ∈ staging p.target token :: staged, t.IsFree region path :=
        List.forall_mem_cons.2 ⟨hfreePath, hstaged⟩
      refine (discard_staged h hfreeAll).within ?_
      rintro place ⟨hplace, hgone⟩
      obtain ⟨path, hpath, hlocate⟩ := hplaces place hplace
      exact hgone path (List.mem_cons_of_mem _ hpath) hlocate
    | ok files =>
      obtain ⟨place, hlocate, hnext⟩ := h.copy hfreePath hcopy
      have hstagedNext : ∀ path ∈ staged ++ [staging p.target token], t.IsFree region path := by
        simpa [or_imp, forall_and] using And.intro hstaged hfreePath
      have hplacesNext : ∀ other, places other ∨ other = place →
          ∃ path ∈ staged ++ [staging p.target token], t.locate false path = .ok other := by
        rintro other (hother | rfl)
        · obtain ⟨path, hpath, hlocated⟩ := hplaces other hother
          exact ⟨path, List.mem_append_left _ hpath, hlocated⟩
        · exact ⟨_, List.mem_append_right _ List.mem_cons_self, hlocate⟩
      rcases ih (s := { s with files := files }) hnext hfreeRest hstagedNext hplacesNext with
        hfailed | ⟨hok, later, hlater, hgrow, hall⟩
      · exact .inl hfailed
      · refine .inr ⟨hok, later, hlater, fun other hother => hgrow other (.inl hother), ?_⟩
        exact List.forall_mem_cons.2 ⟨⟨place, hlocate, hgrow place (.inr rfl)⟩, hall⟩

/-- A tree in which some of the staged images may have been put in place: it has no links that were
not there before. -/
structure Placing (t t' : Tree) : Prop where
  isRooted : t'.IsRooted
  home : t'.home = t.home
  folderAt : t'.folderAt = t.folderAt
  link : ∀ place target, t'.link? place = some target → t.link? place = some target

theorem Placing.locate {t t' : Tree} (h : Placing t t') {path : Path} {place : Place}
    (hlocate : t'.locate false path = .ok place) : t.locate false path = .ok place := by
  obtain ⟨hwalkable, hway⟩ := locate_eq_ok.1 hlocate
  rw [h.home] at hway
  exact locate_eq_ok.2 ⟨hwalkable, hway.of_links (by simp [h.folderAt]) (by rw [h.folderAt]) h.link⟩

/-- Putting a staged image in place takes its staging file away and no other file. -/
theorem Placing.rename {t t' t'' : Tree} (h : Placing t t') {now : Instant} {source target : Path}
    {place : Place} (hlocate : t.locate false source = .ok place) (hfile : t'.HasFile place)
    (hrename : t'.rename now source target = .ok t'') :
    Placing t t'' ∧ ∀ other, other ≠ place → t'.HasFile other → t''.HasFile other := by
  obtain ⟨old, node, new, hold, hnode, -, hcases⟩ := rename_sets h.isRooted hrename
  have heq : old = place := by
    have hlocated := h.locate hold
    rw [hlocate] at hlocated
    cases hlocated
    rfl
  subst heq
  obtain ⟨bytes, modified, hleaf⟩ := hfile
  rw [hleaf] at hnode
  cases hnode
  rcases hcases with ⟨-, rfl⟩ | ⟨-, mid, herased, hput⟩
  · exact ⟨h, fun _ _ => id⟩
  · refine ⟨⟨hput.isRooted (herased.isRooted h.isRooted), ?_, ?_, ?_⟩, ?_⟩
    · rw [hput.home, herased.home, h.home]
    · rw [hput.folderAt, herased.folderAt, h.folderAt]
    · intro place target hlink
      by_cases hnew : place = new
      · rw [hnew, HasFile.link? ⟨bytes, modified, hput.leaf_self⟩] at hlink
        cases hlink
      · rw [Tree.link?, hput.leaf_of_ne hnew] at hlink
        by_cases hsame : place = old
        · rw [hsame, herased.leaf_self] at hlink
          cases hlink
        · rw [herased.leaf_of_ne hsame] at hlink
          exact h.link place target hlink
    · rintro other hother ⟨otherBytes, otherModified, hthere⟩
      by_cases hnew : other = new
      · rw [hnew]
        exact ⟨bytes, modified, hput.leaf_self⟩
      · exact ⟨otherBytes, otherModified,
          by rw [hput.leaf_of_ne hnew, herased.leaf_of_ne hother, hthere]⟩

-- Each image that is put in place comes from its own staging file, so the file of the first one
-- that is not, and those after it, are still there.
theorem placeAll_error (h : Placing t s.files)
    (hstaged : AllStaged t token placements s.files.HasFile)
    (hdistinct : placements.Pairwise fun p q => ∀ place,
      t.locate false (staging p.target token) = .ok place →
        t.locate false (staging q.target token) ≠ .ok place)
    (he : (placeAll token placements s).1 = .error e) :
    Placing t (placeAll token placements s).2.files ∧
      ∃ p ∈ placements, ∃ place, t.locate false (staging p.target token) = .ok place ∧
        (placeAll token placements s).2.files.HasFile place := by
  induction placements generalizing s with
  | nil => cases he
  | cons p rest ih =>
    obtain ⟨⟨place, hlocate, hfile⟩, hrest⟩ := List.forall_mem_cons.1 hstaged
    obtain ⟨hfirst, hdistinct⟩ := List.pairwise_cons.1 hdistinct
    rw [placeAll_cons_apply] at he ⊢
    cases hrename : s.files.rename s.now (staging p.target token) p.target with
    | error e =>
      exact ⟨h, p, List.mem_cons_self, place, hlocate, hfile⟩
    | ok files =>
      rw [hrename] at he
      obtain ⟨hplacing, hkept⟩ := h.rename hlocate hfile hrename
      have hstagedNext : AllStaged t token rest files.HasFile := by
        intro q hq
        obtain ⟨other, hother, hthere⟩ := hrest q hq
        refine ⟨other, hother, hkept other ?_ hthere⟩
        rintro rfl
        exact hfirst q hq other hlocate hother
      obtain ⟨hlast, q, hq, hleft⟩ :=
        ih (s := { s with files := files }) hplacing hstagedNext hdistinct he
      exact ⟨hlast, q, List.mem_cons_of_mem _ hq, hleft⟩

theorem publish_apply : publish placements token s =
    match stageAll token placements [] s with
    | (.error e, s) => (.error e, s)
    | (.ok (), s) => placeAll token placements s := by
  rw [publish, Act.bind_apply]
  rcases stageAll token placements [] s with ⟨e | _, s⟩ <;> rfl

/-- If a publication fails in its copies, all is as before; if it fails when images are put in
place, the first that could not be is left beside its target. -/
theorem publish_error (hroot : s.files.IsRooted)
    (hfree : ∀ p ∈ placements, s.files.IsFree region (staging p.target token))
    (he : (publish placements token s).1 = .error e) :
    ((stageAll token placements [] s).1 = .error e ∧
      Within region s.files (publish placements token s).2.files) ∨
    ((stageAll token placements [] s).1 = .ok () ∧
      ((placements.Pairwise fun p q => ∀ place,
        s.files.locate false (staging p.target token) = .ok place →
          s.files.locate false (staging q.target token) ≠ .ok place) →
      Placing s.files (publish placements token s).2.files ∧
        ∃ p ∈ placements, ∃ place, s.files.locate false (staging p.target token) = .ok place ∧
          (¬region place → s.files.leaf? place = none) ∧
          (publish placements token s).2.files.HasFile place)) := by
  rw [publish_apply] at he ⊢
  rcases stageAll_staged (.refl region hroot) hfree (List.forall_mem_nil _) nofun with
    ⟨cause, hfailed, hwithin⟩ | ⟨hok, later, hstaged, -, hall⟩
  · generalize stageAll token placements [] s = done at *
    obtain ⟨result, after⟩ := done
    cases hfailed
    cases he
    exact .inl ⟨rfl, hwithin⟩
  · generalize stageAll token placements [] s = done at *
    obtain ⟨result, after⟩ := done
    cases hok
    refine .inr ⟨rfl, fun hdistinct => ?_⟩
    have hplacing : Placing s.files after.files :=
      ⟨hstaged.isRooted, hstaged.home, hstaged.folderAt, by simp [hstaged.link]⟩
    have hfiles : AllStaged s.files token placements after.files.HasFile := by
      intro p hp
      obtain ⟨place, hlocate, hplace⟩ := hall p hp
      exact ⟨place, hlocate, hstaged.hasFile place hplace⟩
    obtain ⟨hlast, p, hp, place, hlocate, hleft⟩ := placeAll_error hplacing hfiles hdistinct he
    exact ⟨hlast, p, hp, place, hlocate, (hfree p hp place hlocate).2, hleft⟩

/-! ### What a publication can touch -/

section Touched

variable {altered : Place → Prop} {base : Tree} (hroot : base.IsRooted)

/-- The paths under which an image is staged and put in place lead to no other than some places, and
no link is where it is staged. -/
structure Placement.LeadsInto (p : Placement) (token : String) (altered : Place → Prop) (t : Tree) :
    Prop where
  staging : ∀ place, t.locate false (staging p.target token) = .ok place → altered place
  noLink : ∀ place, t.locate false (Press.staging p.target token) = .ok place → t.link? place = none
  target : ∀ place, t.locate false p.target = .ok place → altered place

include hroot

theorem discard_keeps {paths : List Path}
    (h : ∀ path ∈ paths, ∀ place, base.locate false path = .ok place → altered place) :
    Act.Keeps (Edits altered base) (discard paths : Act σ Unit) := by
  induction paths with
  | nil => exact .pure _
  | cons path paths ih =>
    obtain ⟨hfirst, hrest⟩ := List.forall_mem_cons.1 h
    refine .bind (.change fun t now t' ht hremove => ?_) fun _ => ih hrest
    obtain ⟨place, hlocate, -, hsets⟩ := removeFile_sets (ht.isRooted hroot) hremove
    exact ht.trans (hsets.edits (hfirst place (ht.locate hlocate)) (by simp))

/-- Staging changes files where the images are staged and nowhere else, whether it fails or not. -/
theorem stageAll_keeps {staged : List Path}
    (h : ∀ p ∈ placements, ∀ place, base.locate false (staging p.target token) = .ok place →
      altered place ∧ base.link? place = none)
    (hstaged : ∀ path ∈ staged, ∀ place, base.locate false path = .ok place → altered place) :
    Act.Keeps (Edits altered base) (stageAll token placements staged : Act σ _) := by
  induction placements generalizing staged with
  | nil => exact .pure _
  | cons p rest ih =>
    obtain ⟨hfirst, hrest⟩ := List.forall_mem_cons.1 h
    refine .bind (.change fun t now t' ht hcopy => ?_) fun result => ?_
    · obtain ⟨bytes, -, hwrite⟩ := copy_eq_ok hcopy
      obtain ⟨place, hlocate, hsets⟩ := write_sets (ht.isRooted hroot) hwrite
      have hplace := locate_false_of_true hlocate fun link hlink =>
        ht.link?_eq_none (hfirst link (ht.locate hlink)).2
      exact ht.trans (hsets.edits (hfirst place (ht.locate hplace)).1 (by simp [Entry.target?]))
    · have hplaces := fun place hplace => (hfirst place hplace).1
      split
      · refine ih hrest fun path hpath => ?_
        rcases List.mem_append.1 hpath with hpath | hpath
        · exact hstaged path hpath
        · exact List.mem_singleton.1 hpath ▸ hplaces
      · exact (discard_keeps hroot (List.forall_mem_cons.2 ⟨hplaces, hstaged⟩)).bind fun _ => .pure _

theorem placeAll_keeps (h : ∀ p ∈ placements, p.LeadsInto token altered base) :
    Act.Keeps (Edits altered base) (placeAll token placements : Act σ _) := by
  induction placements with
  | nil => exact .pure _
  | cons p rest ih =>
    obtain ⟨hfirst, hrest⟩ := List.forall_mem_cons.1 h
    refine .bind (.change fun t now t' ht hrename => ?_) fun result => ?_
    · obtain ⟨old, node, new, hold, hnode, hnew, hmoved⟩ := rename_sets (ht.isRooted hroot) hrename
      have holdPlace := ht.locate hold
      rcases hmoved with ⟨-, rfl⟩ | ⟨-, mid, hgone, hput⟩
      · exact ht
      · have hnoLink := ht.link?_eq_none (hfirst.noLink old holdPlace)
        rw [Tree.link?, hnode] at hnoLink
        have hmid := ht.trans (hgone.edits (hfirst.staging old holdPlace) (by simp))
        exact hmid.trans (hput.edits (hfirst.target new (ht.locate hnew)) (by simpa using hnoLink))
    · split
      · exact ih hrest
      · exact .pure _

/-- A publication changes files where its paths lead and nowhere else, whether it fails or not. -/
theorem publish_keeps (h : ∀ p ∈ placements, p.LeadsInto token altered base) :
    Act.Keeps (Edits altered base) (publish placements token : Act σ _) := by
  have hstaging := fun p hp place hplace =>
    And.intro ((h p hp).staging place hplace) ((h p hp).noLink place hplace)
  refine (stageAll_keeps hroot hstaging (List.forall_mem_nil _)).bind fun result => ?_
  split
  · exact .pure _
  · exact placeAll_keeps hroot h

end Touched

end Press

end ResumePress
