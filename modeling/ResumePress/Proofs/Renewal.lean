import ResumePress.Proofs.Publish

/-!
How publishing renews images. Whatever file a publication puts in the place of another one is no
older than its beginning, whether it succeeds or not; if it succeeds, such a file is at every target.
-/

namespace ResumePress

open Files

namespace Files.Tree

/-- A file that was written no earlier than at a time stands at a place. -/
def HasFileSince (time : Instant) (t : Tree) (place : Place) : Prop :=
  ∃ bytes modified, t.leaf? place = some ⟨.file bytes, modified⟩ ∧ time ≤ modified

/-- A tree that has at every place what another one has there or a file that is no older than a time,
but for places that are passed. -/
def Renews (time : Instant) (passed : Place → Prop) (t t' : Tree) : Prop :=
  ∀ place, ¬passed place → t'.leaf? place = t.leaf? place ∨ t'.HasFileSince time place

variable {time : Instant} {passed : Place → Prop} {t t' t'' : Tree} {place : Place}
  {leaf : Option Node}

theorem HasFileSince.mono (h : t.HasFileSince time place) {earlier : Instant}
    (hearlier : earlier ≤ time) : t.HasFileSince earlier place := by
  obtain ⟨bytes, modified, hleaf, htime⟩ := h
  exact ⟨bytes, modified, hleaf, Nat.le_trans hearlier htime⟩

namespace Renews

theorem refl (time : Instant) (passed : Place → Prop) (t : Tree) : Renews time passed t t :=
  fun _ _ => .inl rfl

theorem mono (h : Renews time passed t t') {more : Place → Prop}
    (hmore : ∀ place, passed place → more place) : Renews time more t t' :=
  fun place hplace => h place (mt (hmore place) hplace)

theorem earlier (h : Renews time passed t t') {before : Instant} (hbefore : before ≤ time) :
    Renews before passed t t' :=
  fun place hplace => (h place hplace).imp_right fun hnew => hnew.mono hbefore

theorem hasFileSince (h : Renews time passed t t') (hplace : ¬passed place)
    (hfile : t.HasFileSince time place) : t'.HasFileSince time place := by
  rcases h place hplace with hsame | hnew
  · obtain ⟨bytes, modified, hleaf, htime⟩ := hfile
    exact ⟨bytes, modified, hsame.trans hleaf, htime⟩
  · exact hnew

theorem trans (h : Renews time passed t t') (h' : Renews time passed t' t'') :
    Renews time passed t t'' := by
  intro place hplace
  rcases h place hplace with hsame | hnew
  · rw [← hsame]
    exact h' place hplace
  · exact .inr (h'.hasFileSince hplace hnew)

end Renews

theorem Sets.renews_passed (h : Sets t t' place leaf) (hplace : passed place) :
    Renews time passed t t' :=
  fun other hother => .inl <| h.leaf_of_ne <| by
    rintro rfl
    exact hother hplace

theorem Sets.renews {bytes : ByteArray} {modified : Instant}
    (h : Sets t t' place (some ⟨.file bytes, modified⟩)) (htime : time ≤ modified) :
    Renews time passed t t' := by
  intro other _
  by_cases hother : other = place
  · exact .inr ⟨bytes, modified, by rw [hother, h.leaf_self], htime⟩
  · exact .inl (h.leaf_of_ne hother)

end Files.Tree

namespace Press

open Files.Tree

variable {σ : Type} {time : Instant} {passed : Place → Prop} {base : Tree} {token : String}
  {placements : List Placement} {s : Surroundings σ}

/-- The paths under which an image is staged lead to places that are passed, where no links are, and
those under which it is put in place do not. -/
structure Placement.Passes (p : Placement) (token : String) (passed : Place → Prop) (t : Tree) :
    Prop where
  staging : ∀ place, t.locate false (staging p.target token) = .ok place → passed place
  noLink : ∀ place, t.locate false (Press.staging p.target token) = .ok place → t.link? place = none
  target : ∀ place, t.locate false p.target = .ok place → ¬passed place

section Publication

variable (hroot : base.IsRooted)
include hroot

theorem discard_renews {t : Tree} {paths : List Path}
    (h : ∀ path ∈ paths, ∀ place, base.locate false path = .ok place → passed place) :
    Act.Keeps (fun t' => Edits (fun _ => True) base t' ∧ Renews time passed t t')
      (discard paths : Act σ Unit) := by
  induction paths with
  | nil => exact .pure _
  | cons path paths ih =>
    obtain ⟨hfirst, hrest⟩ := List.forall_mem_cons.1 h
    refine .bind (.change fun t₁ now t₂ ht hremove => ?_) fun _ => ih hrest
    obtain ⟨hedits, hrenews⟩ := ht
    obtain ⟨place, hlocate, -, hsets⟩ := removeFile_sets (hedits.isRooted hroot) hremove
    exact ⟨hedits.trans (hsets.edits trivial (by simp)),
      hrenews.trans (hsets.renews_passed (hfirst place (hedits.locate hlocate)))⟩

/-- Until a copy fails nothing is taken away, so what is staged is there when all copies are made. -/
theorem stageAll_renews (h : ∀ p ∈ placements, p.Passes token passed base) {staged : List Path}
    (hs : Edits (fun _ => True) base s.files) (htime : time ≤ s.now)
    (hstaged : ∀ path ∈ staged, ∀ place, base.locate false path = .ok place → passed place) :
    match stageAll token placements staged s with
    | (.error _, s') => Renews time passed s.files s'.files
    | (.ok (), s') => Edits (fun _ => True) base s'.files ∧
      Renews time (fun _ => False) s.files s'.files ∧
      ∀ p ∈ placements, ∃ place, base.locate false (staging p.target token) = .ok place ∧
        s'.files.HasFileSince time place := by
  induction placements generalizing s staged with
  | nil => exact ⟨hs, .refl _ _ _, List.forall_mem_nil _⟩
  | cons p rest ih =>
    obtain ⟨hfirst, hrest⟩ := List.forall_mem_cons.1 h
    have hall : ∀ path ∈ staging p.target token :: staged, ∀ place,
        base.locate false path = .ok place → passed place :=
      List.forall_mem_cons.2 ⟨hfirst.staging, hstaged⟩
    rw [stageAll_cons_apply]
    cases hcopy : s.files.copy s.now p.image (staging p.target token) with
    | error e => exact (discard_renews hroot hall s ⟨hs, .refl _ _ _⟩).2
    | ok files =>
      obtain ⟨bytes, -, hwrite⟩ := copy_eq_ok hcopy
      obtain ⟨place, hlocate, hsets⟩ := write_sets (hs.isRooted hroot) hwrite
      have hplace : base.locate false (staging p.target token) = .ok place :=
        hs.locate <| locate_false_of_true hlocate fun link hlink =>
          hs.link?_eq_none (hfirst.noLink link (hs.locate hlink))
      have hstagedNext : ∀ path ∈ staged ++ [staging p.target token], ∀ place,
          base.locate false path = .ok place → passed place :=
        fun path hpath => hall path (by simpa [or_comm] using hpath)
      have hnext := ih (s := { s with files := files }) hrest
        (hs.trans (hsets.edits trivial (by simp [Entry.target?]))) htime hstagedNext
      dsimp only
      generalize stageAll token rest (staged ++ [staging p.target token]) { s with files := files } =
        done at hnext
      obtain ⟨e | _, s'⟩ := done
      · exact (hsets.renews htime).trans hnext
      · obtain ⟨hedits, hrenews, hothers⟩ := hnext
        have hfile : files.HasFileSince time place := ⟨bytes, s.now, hsets.leaf_self, htime⟩
        exact ⟨hedits, (hsets.renews htime).trans hrenews, List.forall_mem_cons.2
          ⟨⟨place, hplace, hrenews.hasFileSince id hfile⟩, hothers⟩⟩

-- Each image is moved from its own staging place, so those that follow are still there to be moved.
theorem placeAll_renews (h : ∀ p ∈ placements, p.Passes token passed base)
    (hs : Edits (fun _ => True) base s.files)
    (hstaged : ∀ p ∈ placements, ∃ place, base.locate false (staging p.target token) = .ok place ∧
      s.files.HasFileSince time place)
    (hdistinct : placements.Pairwise fun p q => ∀ place,
      base.locate false (staging p.target token) = .ok place →
        base.locate false (staging q.target token) ≠ .ok place) :
    Renews time passed s.files (placeAll token placements s).2.files ∧
      ((placeAll token placements s).1 = .ok () → ∀ p ∈ placements, ∃ place,
        base.locate false p.target = .ok place ∧
          (placeAll token placements s).2.files.HasFileSince time place) := by
  induction placements generalizing s with
  | nil => exact ⟨.refl _ _ _, fun _ => List.forall_mem_nil _⟩
  | cons p rest ih =>
    obtain ⟨hfirst, hrest⟩ := List.forall_mem_cons.1 h
    obtain ⟨⟨place, hplace, bytes, modified, hleaf, htime⟩, hothers⟩ := List.forall_mem_cons.1 hstaged
    obtain ⟨hapart, hdistinct⟩ := List.pairwise_cons.1 hdistinct
    rw [placeAll_cons_apply]
    cases hrename : s.files.rename s.now (staging p.target token) p.target with
    | error e => exact ⟨.refl _ _ _, nofun⟩
    | ok files =>
      obtain ⟨old, node, new, hold, hnode, hnew, hmoved⟩ := rename_sets (hs.isRooted hroot) hrename
      obtain rfl : old = place := Except.ok.inj ((hs.locate hold).symm.trans hplace)
      obtain rfl : node = ⟨.file bytes, modified⟩ := Option.some.inj (hnode.symm.trans hleaf)
      have htarget := hs.locate hnew
      have hpassed := hfirst.staging old hplace
      have hnot := hfirst.target new htarget
      obtain ⟨hne, mid, hgone, hput⟩ := hmoved.resolve_left fun heq => hnot (heq.1 ▸ hpassed)
      have hedits : Edits (fun _ => True) base files :=
        (hs.trans (hgone.edits trivial (by simp))).trans
          (hput.edits trivial (by simp [Entry.target?]))
      have hstagedNext : ∀ q ∈ rest, ∃ place,
          base.locate false (staging q.target token) = .ok place ∧
            files.HasFileSince time place := by
        intro q hq
        obtain ⟨other, hother, otherBytes, otherModified, hthere, hsince⟩ := hothers q hq
        have hkept : mid.leaf? other = s.files.leaf? other := hgone.leaf_of_ne <| by
          rintro rfl
          exact hapart q hq other hplace hother
        have hrenews : Renews time (fun _ => False) mid files := hput.renews htime
        exact ⟨other, hother, hrenews.hasFileSince id
          ⟨otherBytes, otherModified, hkept.trans hthere, hsince⟩⟩
      obtain ⟨hlast, hdone⟩ := ih (s := { s with files := files }) hrest hedits hstagedNext hdistinct
      refine ⟨((hgone.renews_passed hpassed).trans (hput.renews htime)).trans hlast, fun hok => ?_⟩
      exact List.forall_mem_cons.2 ⟨⟨new, htarget,
        hlast.hasFileSince hnot ⟨bytes, modified, hput.leaf_self, htime⟩⟩, hdone hok⟩

end Publication

/-- A publication replaces files by files that are no older than its beginning, and if it succeeds
there is one at every target. -/
theorem publish_renews (hroot : s.files.IsRooted)
    (h : ∀ p ∈ placements, p.Passes token passed s.files)
    (hdistinct : placements.Pairwise fun p q => ∀ place,
      s.files.locate false (staging p.target token) = .ok place →
        s.files.locate false (staging q.target token) ≠ .ok place) :
    Renews s.now passed s.files (publish placements token s).2.files ∧
      ((publish placements token s).1 = .ok () → ∀ p ∈ placements, ∃ place,
        s.files.locate false p.target = .ok place ∧
          (publish placements token s).2.files.HasFileSince s.now place) := by
  have hstaged := stageAll_renews hroot h (.refl _ _) (Nat.le_refl s.now) (List.forall_mem_nil _)
  rw [publish_apply]
  generalize stageAll token placements [] s = done at hstaged
  obtain ⟨e | _, s'⟩ := done
  · exact ⟨hstaged, nofun⟩
  · obtain ⟨hedits, hrenews, hall⟩ := hstaged
    obtain ⟨hplaced, hdone⟩ := placeAll_renews hroot h hedits hall hdistinct
    exact ⟨(hrenews.mono fun _ => False.elim).trans hplaced, hdone⟩

end Press

end ResumePress
