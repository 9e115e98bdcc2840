import ResumePress.Proofs.Files.Views

/-!
The ways that paths take through a tree, as a relation. A way depends on the folders and links it
passes and on nothing else, so it is the same in every tree that has them.
-/

namespace ResumePress.Files

open ResumePress.Path (Step)

namespace Tree

/-- Steps lead from a place to a place, along at most so many links. The last step may lead to a
place where nothing stands. -/
inductive Leads (t : Tree) (followLast : Bool) : Nat → Place → List Step → Place → Prop where
  | done (links : Nat) (place : Place) : Leads t followLast links place [] place
  | here {links : Nat} {place found : Place} {rest : List Step}
      (h : Leads t followLast links place rest found) :
      Leads t followLast links place (.here :: rest) found
  | up {links : Nat} {place found : Place} {rest : List Step}
      (h : Leads t followLast links place.dropLast rest found) :
      Leads t followLast links place (.up :: rest) found
  | down {links : Nat} {place found : Place} {name : String} {rest : List Step}
      (hname : name.utf8ByteSize ≤ 255) (hfolder : t.folderAt (place ++ [name]) = true)
      (h : Leads t followLast links (place ++ [name]) rest found) :
      Leads t followLast links place (.name name :: rest) found
  | last {links : Nat} {place : Place} {name : String} (hname : name.utf8ByteSize ≤ 255)
      (hfolder : t.folderAt (place ++ [name]) = false)
      (hlink : t.link? (place ++ [name]) = none ∨ followLast = false) :
      Leads t followLast links place [.name name] (place ++ [name])
  | jump {links : Nat} {place found : Place} {name : String} {rest : List Step} {target : Path}
      (hname : name.utf8ByteSize ≤ 255) (hlink : t.link? (place ++ [name]) = some target)
      (hrest : rest ≠ [] ∨ followLast = true)
      (h : Leads t followLast links (if target.isAbsolute then [] else place)
        (target.steps ++ rest) found) :
      Leads t followLast (links + 1) place (.name name :: rest) found

variable {t t' : Tree} {followLast : Bool} {links : Nat} {place found : Place} {name : String}
  {steps rest : List Step} {path : Path}

/-- What happens at a link on the way of `follow`. -/
def atLink (t : Tree) (followLast : Bool) :
    (links : Nat) → Place → List Step → Path → Except Fault Place
  | 0, _, _, _ => .error .tooManyLinks
  | links + 1, place, rest, target =>
    follow t followLast links (if target.isAbsolute then [] else place) (target.steps ++ rest)

theorem follow_eq_walk (t : Tree) (followLast : Bool) (links : Nat) :
    t.follow followLast links = t.walk (t.atLink followLast links) followLast := by
  cases links with
  | zero => rfl
  | succ links => rfl

theorem walk_name (jump : Place → List Step → Path → Except Fault Place) :
    t.walk jump followLast place (.name name :: rest) =
      if 255 < name.utf8ByteSize then .error .nameTooLong
      else if t.folderAt (place ++ [name]) then t.walk jump followLast (place ++ [name]) rest
      else
        match t.link? (place ++ [name]) with
        | some target =>
          if rest.isEmpty && !followLast then .ok (place ++ [name]) else jump place rest target
        | none =>
          if rest.isEmpty then .ok (place ++ [name])
          else .error (if (t.leaf? (place ++ [name])).isSome then .notADirectory else .notFound) := by
  rw [walk]
  cases hget : t.get? (place ++ [name]) with
  | none => simp [folderAt, link?, leaf?, hget]
  | some node =>
    obtain ⟨entry, modified⟩ := node
    cases entry with
    | file bytes =>
      simp [folderAt, link?, leaf?, hget, Entry.isFolder, Entry.target?, Option.filter]
    | folder => simp [folderAt, hget, Entry.isFolder]
    | link target =>
      simp [folderAt, link?_eq_some.2 ⟨modified, hget⟩, hget, Entry.isFolder]

-- The walk is by recursion on the steps; what happens at a link is left to the number of links.
theorem walk_eq_ok {jump : Place → List Step → Path → Except Fault Place}
    (hjump : ∀ place rest target, jump place rest target = .ok found ↔
      ∃ less, links = less + 1 ∧ t.Leads followLast less (if target.isAbsolute then [] else place)
        (target.steps ++ rest) found) :
    t.walk jump followLast place steps = .ok found ↔
      t.Leads followLast links place steps found := by
  induction steps generalizing place with
  | nil =>
    constructor
    · intro h
      cases h
      exact .done _ _
    · rintro ⟨⟩
      rfl
  | cons step rest ih =>
    cases step with
    | here => exact ih.trans ⟨.here, fun | .here h => h⟩
    | up => exact ih.trans ⟨.up, fun | .up h => h⟩
    | name name =>
      rw [walk_name]
      constructor
      · intro h
        split at h
        · cases h
        · have hname : name.utf8ByteSize ≤ 255 := by omega
          split at h
          · exact .down hname ‹_› (ih.1 h)
          · rename_i hfolder
            rw [Bool.not_eq_true] at hfolder
            split at h
            · split at h
              · have hlast : rest = [] ∧ followLast = false := by simp_all
                obtain ⟨rfl, hfollow⟩ := hlast
                cases h
                exact .last hname hfolder (.inr hfollow)
              · obtain ⟨less, rfl, hway⟩ := (hjump _ _ _).1 h
                refine .jump hname ‹_› ?_ hway
                by_cases hrest : rest = []
                · exact .inr (by simp_all)
                · exact .inl hrest
            · split at h
              · have hlast : rest = [] := by simpa using ‹rest.isEmpty = true›
                subst hlast
                cases h
                exact .last hname hfolder (.inl ‹_›)
              · cases h
      · intro h
        cases h with
        | down hname hfolder h =>
          rw [if_neg (by omega), if_pos hfolder]
          exact ih.2 h
        | last hname hfolder hlink =>
          rw [if_neg (by omega), if_neg (by simp [hfolder])]
          rcases hlink with hlink | rfl
          · rw [hlink]
            rfl
          · split <;> rfl
        | jump hname hlink hrest h =>
          rw [if_neg (by omega), if_neg (by simp [folderAt_of_link? hlink]), hlink]
          dsimp only
          rw [if_neg (by simpa [or_iff_not_imp_left] using hrest)]
          exact (hjump _ _ _).2 ⟨_, rfl, h⟩

theorem follow_eq_ok : t.follow followLast links place steps = .ok found ↔
    t.Leads followLast links place steps found := by
  induction links generalizing place steps with
  | zero =>
    rw [follow_eq_walk]
    exact walk_eq_ok fun _ _ _ => ⟨nofun, nofun⟩
  | succ links ih =>
    rw [follow_eq_walk]
    refine walk_eq_ok fun _ _ _ => ih.trans ?_
    exact ⟨fun h => ⟨links, rfl, h⟩, fun ⟨_, heq, h⟩ => by cases heq; exact h⟩

/-- The paths that can be walked at all. -/
def Walkable (path : Path) : Prop :=
  '\x00' ∉ path.text.toList ∧ path.text ≠ "" ∧ path.text.utf8ByteSize < 4096

theorem locate_eq_ok : t.locate followLast path = .ok found ↔
    Walkable path ∧
      t.Leads followLast 40 (if path.isAbsolute then [] else t.home) path.steps found := by
  unfold locate Walkable
  split
  · simp_all
  · split
    · simp_all
    · split
      · exact ⟨nofun, fun h => absurd h.1.2.2 (by omega)⟩
      · rw [follow_eq_ok]
        simp_all

namespace Leads

/-- What is found stands in a folder. -/
theorem dropLast (h : t.Leads followLast links place steps found) (hroot : t.IsRooted)
    (hplace : t.folderAt place = true) : t.folderAt found.dropLast = true := by
  have hup : ∀ {place : Place}, t.folderAt place = true → t.folderAt place.dropLast = true :=
    fun hfolder => hroot.dropLast (get?_ne_none.2 (.inr hfolder))
  induction h with
  | done => exact hup hplace
  | here _ ih => exact ih hplace
  | up _ ih => exact ih (hup hplace)
  | down _ hfolder _ ih => exact ih hfolder
  | last => simpa using hplace
  | @jump _ place _ _ _ target _ _ _ _ ih =>
    apply ih
    split
    · rfl
    · exact hplace

/-- Where links are followed to the end no link is found. -/
theorem link?_eq_none (h : t.Leads true links place steps found) (hroot : t.IsRooted)
    (hplace : t.folderAt place = true) : t.link? found = none := by
  induction h with
  | done => exact link?_of_folderAt hplace
  | here _ ih => exact ih hplace
  | up _ ih => exact ih (hroot.dropLast (get?_ne_none.2 (.inr hplace)))
  | down _ hfolder _ ih => exact ih hfolder
  | last _ _ hlink => simpa using hlink
  | @jump _ place _ _ _ target _ _ _ _ ih =>
    apply ih
    split
    · rfl
    · exact hplace

/-- A way through places at which a tree has anything leads through another tree that has the same
folders and links there, up to places that were empty. -/
theorem congr (h : t.Leads followLast links place steps found) (spared : Place → Prop)
    (hfolder : ∀ place, spared place → t.folderAt place = true → t'.folderAt place = true)
    (hlink : ∀ place, spared place → t'.link? place = t.link? place)
    (hspared : ∀ place, ¬spared place → t.get? place = none) (hfound : spared found) :
    t'.Leads followLast links place steps found := by
  have hthere : ∀ {place : Place}, t.get? place ≠ none → spared place :=
    fun hget => by_contra fun hnot => hget (hspared _ hnot)
  induction h with
  | done => exact .done _ _
  | here _ ih => exact .here (ih hfound)
  | up _ ih => exact .up (ih hfound)
  | down hname hdown _ ih =>
    exact .down hname (hfolder _ (hthere (get?_ne_none.2 (.inr hdown))) hdown) (ih hfound)
  | @last _ place name hname _ hnone =>
    rw [← hlink _ hfound] at hnone
    cases hfolder' : t'.folderAt (place ++ [name]) with
    | false => exact .last hname hfolder' hnone
    | true => exact .down hname hfolder' (.done _ _)
  | jump hname hjump hrest _ ih =>
    obtain ⟨modified, hget⟩ := link?_eq_some.1 hjump
    refine .jump hname ?_ hrest (ih hfound)
    rw [hlink _ (hthere (by simp [hget])), hjump]

/-- Without its last link followed, a way ends where it does with it, or at a link. -/
theorem spare (h : t.Leads true links place steps found) :
    t.Leads false links place steps found ∨
      ∃ link, t.Leads false links place steps link ∧ t.link? link ≠ none := by
  induction h with
  | done => exact .inl (.done _ _)
  | here _ ih => exact ih.imp .here fun ⟨link, h, hlink⟩ => ⟨link, .here h, hlink⟩
  | up _ ih => exact ih.imp .up fun ⟨link, h, hlink⟩ => ⟨link, .up h, hlink⟩
  | down hname hfolder _ ih =>
    exact ih.imp (.down hname hfolder) fun ⟨link, h, hlink⟩ => ⟨link, .down hname hfolder h, hlink⟩
  | last hname hfolder hlink => exact .inl (.last hname hfolder (.inr rfl))
  | @jump _ place _ name rest _ hname hlink _ _ ih =>
    by_cases hrest : rest = []
    · subst hrest
      exact .inr ⟨_, .last hname (folderAt_of_link? hlink) (.inr rfl), by simp [hlink]⟩
    · exact ih.imp (.jump hname hlink (.inl hrest))
        fun ⟨link, h, hthere⟩ => ⟨link, .jump hname hlink (.inl hrest) h, hthere⟩

theorem follow (h : t.Leads false links place steps found) (hfound : t.link? found = none) :
    t.Leads true links place steps found := by
  induction h with
  | done => exact .done _ _
  | here _ ih => exact .here (ih hfound)
  | up _ ih => exact .up (ih hfound)
  | down hname hfolder _ ih => exact .down hname hfolder (ih hfound)
  | last hname hfolder _ => exact .last hname hfolder (.inl hfound)
  | jump hname hlink hrest _ ih => exact .jump hname hlink (.inr rfl) (ih hfound)

/-- Steps that end in a name lead to a place of that name if a link there is not followed, or if no
link has the name. -/
theorem name_of_last (h : t.Leads followLast links place (steps ++ [.name name]) found)
    (hlink : followLast = false ∨ ∀ folder, t.link? (folder ++ [name]) = none) :
    ∃ folder, found = folder ++ [name] := by
  generalize heq : steps ++ [.name name] = all at h
  induction h generalizing steps with
  | done => simp at heq
  | here _ ih =>
    cases steps with
    | nil => simp at heq
    | cons _ steps => exact ih (List.cons.inj heq).2
  | up _ ih =>
    cases steps with
    | nil => simp at heq
    | cons _ steps => exact ih (List.cons.inj heq).2
  | @down _ place _ _ _ _ _ h ih =>
    cases steps with
    | nil =>
      cases heq
      cases h
      exact ⟨place, rfl⟩
    | cons _ steps => exact ih (List.cons.inj heq).2
  | @last _ place _ =>
    cases steps with
    | nil =>
      cases heq
      exact ⟨place, rfl⟩
    | cons _ steps => simp at heq
  | @jump _ place _ _ _ target _ hjump hrest _ ih =>
    cases steps with
    | nil =>
      cases heq
      rcases hlink with rfl | hlink
      · simp at hrest
      · rw [hlink] at hjump
        cases hjump
    | cons _ steps =>
      have hrest : steps ++ [.name name] = _ := (List.cons.inj heq).2
      exact @ih (target.steps ++ steps) (by rw [List.append_assoc, hrest])

/-- What comes before a last name leads to a folder, and the name is not too long. -/
theorem unsnoc (h : t.Leads followLast links place (steps ++ [.name name]) found) (hroot : t.IsRooted)
    (hplace : t.folderAt place = true) :
    name.utf8ByteSize ≤ 255 ∧
      ∃ folder, t.folderAt folder = true ∧ t.Leads true links place steps folder := by
  generalize heq : steps ++ [.name name] = all at h
  induction h generalizing steps with
  | done => simp at heq
  | here _ ih =>
    cases steps with
    | nil => simp at heq
    | cons _ steps =>
      cases heq
      obtain ⟨hshort, folder, hfolder, hway⟩ := ih hplace rfl
      exact ⟨hshort, folder, hfolder, .here hway⟩
  | up _ ih =>
    cases steps with
    | nil => simp at heq
    | cons _ steps =>
      cases heq
      obtain ⟨hshort, folder, hfolder, hway⟩ :=
        ih (hroot.dropLast (get?_ne_none.2 (.inr hplace))) rfl
      exact ⟨hshort, folder, hfolder, .up hway⟩
  | down hname hdown _ ih =>
    cases steps with
    | nil =>
      cases heq
      exact ⟨hname, _, hplace, .done _ _⟩
    | cons _ steps =>
      cases heq
      obtain ⟨hshort, folder, hfolder, hway⟩ := ih hdown rfl
      exact ⟨hshort, folder, hfolder, .down hname hdown hway⟩
  | last hname =>
    cases steps with
    | nil =>
      cases heq
      exact ⟨hname, _, hplace, .done _ _⟩
    | cons _ steps => simp at heq
  | @jump _ place _ _ _ target hname hjump _ _ ih =>
    cases steps with
    | nil =>
      cases heq
      exact ⟨hname, place, hplace, .done _ _⟩
    | cons _ steps =>
      cases heq
      have hstart : t.folderAt (if target.isAbsolute then [] else place) = true := by
        split
        · rfl
        · exact hplace
      obtain ⟨hshort, folder, hfolder, hway⟩ := ih hstart (List.append_assoc ..)
      exact ⟨hshort, folder, hfolder, .jump hname hjump (.inr rfl) hway⟩

/-- A way to a folder goes on to what the folder holds. -/
theorem snoc (h : t.Leads true links place steps found) (hfolder : t.folderAt found = true)
    (hname : name.utf8ByteSize ≤ 255)
    (hlink : t.link? (found ++ [name]) = none ∨ followLast = false) :
    t.Leads followLast links place (steps ++ [.name name]) (found ++ [name]) := by
  induction h with
  | done =>
    rename_i place
    cases hdown : t.folderAt (place ++ [name]) with
    | false => exact .last hname hdown hlink
    | true => exact .down hname hdown (.done _ _)
  | here _ ih => exact .here (ih hfolder hlink)
  | up _ ih => exact .up (ih hfolder hlink)
  | down hname' hdown _ ih => exact .down hname' hdown (ih hfolder hlink)
  | last _ hnot =>
    rw [hnot] at hfolder
    cases hfolder
  | jump hname' hjump hrest _ ih =>
    refine .jump hname' hjump (.inl (List.concat_ne_nil _ _)) ?_
    have hway := ih hfolder hlink
    rwa [List.append_assoc] at hway

/-- A tree with fewer folders and links has no new ways. -/
theorem of_links (h : t'.Leads false links place steps found)
    (hfolder : ∀ place, t'.folderAt place = true → t.folderAt place = true)
    (hfound : t.folderAt found = t'.folderAt found)
    (hlink : ∀ place target, t'.link? place = some target → t.link? place = some target) :
    t.Leads false links place steps found := by
  induction h with
  | done => exact .done _ _
  | here _ ih => exact .here (ih hfound)
  | up _ ih => exact .up (ih hfound)
  | down hname hdown _ ih => exact .down hname (hfolder _ hdown) (ih hfound)
  | last hname hnot _ => exact .last hname (hfound.trans hnot) (.inr rfl)
  | jump hname hjump hrest _ ih => exact .jump hname (hlink _ _ hjump) hrest (ih hfound)

/-- A way that begins outside what it leads to ends there by a name, so not at a link. -/
theorem link?_of_outside (h : t.Leads true links place steps found)
    (hfound : t.folderAt found = false) (houtside : ¬found <+: place) : t.link? found = none := by
  induction h with
  | done => exact absurd (List.prefix_refl _) houtside
  | here _ ih => exact ih hfound houtside
  | up _ ih =>
    exact ih hfound fun hinside => houtside (hinside.trans (List.dropLast_prefix _))
  | down _ hdown _ ih =>
    refine ih hfound fun hinside => ?_
    rcases List.prefix_concat_iff.1 hinside with rfl | hinside
    · rw [hdown] at hfound
      cases hfound
    · exact houtside hinside
  | last _ _ hlink => simpa using hlink
  | jump _ _ _ _ ih =>
    refine ih hfound ?_
    split
    · rw [List.prefix_nil]
      exact ne_nil_of_folderAt hfound
    · exact houtside

/-- A way does not change with what stands at its end, if no folder and afterwards no link does. -/
theorem of_ends (h : t.Leads true links place steps found) (hfound : t.folderAt found = false)
    (hfolder : t'.folderAt = t.folderAt)
    (hlink : ∀ place, place ≠ found → t'.link? place = t.link? place)
    (hnone : t'.link? found = none) : t'.Leads true links place steps found := by
  induction h with
  | done => exact .done _ _
  | here _ ih => exact .here (ih hfound hlink hnone)
  | up _ ih => exact .up (ih hfound hlink hnone)
  | down hname hdown _ ih =>
    exact .down hname (by rw [hfolder, hdown]) (ih hfound hlink hnone)
  | last hname hnot _ => exact .last hname (by rw [hfolder, hnot]) (.inl hnone)
  | @jump _ place found name _ target hname hjump hrest h ih =>
    refine .jump hname ?_ hrest (ih hfound hlink hnone)
    -- The way goes on outside the link, so it would not come back to it.
    have hne : place ++ [name] ≠ found := by
      rintro rfl
      have hback := h.link?_of_outside hfound (by
        split
        · simp
        · exact fun hinside => absurd hinside.length_le (by simp))
      rw [hjump] at hback
      cases hback
    rw [hlink _ hne, hjump]

end Leads

/-! ### Paths -/

theorem IsRooted.folderAt_start (hroot : t.IsRooted) (path : Path) :
    t.folderAt (if path.isAbsolute then [] else t.home) = true := by
  split
  · rfl
  · exact hroot.home

theorem IsRooted.dropLast_of_locate (hroot : t.IsRooted) (h : t.locate followLast path = .ok found) :
    t.folderAt found.dropLast = true :=
  (locate_eq_ok.1 h).2.dropLast hroot (hroot.folderAt_start path)

theorem IsRooted.link?_of_locate (hroot : t.IsRooted) (h : t.locate true path = .ok found) :
    t.link? found = none :=
  (locate_eq_ok.1 h).2.link?_eq_none hroot (hroot.folderAt_start path)

theorem locate_congr (h : t.locate followLast path = .ok found) (spared : Place → Prop)
    (hhome : t'.home = t.home)
    (hfolder : ∀ place, spared place → t.folderAt place = true → t'.folderAt place = true)
    (hlink : ∀ place, spared place → t'.link? place = t.link? place)
    (hspared : ∀ place, ¬spared place → t.get? place = none) (hfound : spared found) :
    t'.locate followLast path = .ok found := by
  obtain ⟨hwalkable, hway⟩ := locate_eq_ok.1 h
  refine locate_eq_ok.2 ⟨hwalkable, ?_⟩
  rw [hhome]
  exact hway.congr spared hfolder hlink hspared hfound

/-- Trees with the same folders and links have the same ways. -/
theorem locate_iff (hhome : t'.home = t.home) (hfolder : t'.folderAt = t.folderAt)
    (hlink : t'.link? = t.link?) :
    t'.locate followLast path = .ok found ↔ t.locate followLast path = .ok found := by
  constructor <;> intro h
  · exact locate_congr h (fun _ => True) hhome.symm (by simp [hfolder]) (by simp [hlink])
      (by simp) trivial
  · exact locate_congr h (fun _ => True) hhome (by simp [hfolder]) (by simp [hlink])
      (by simp) trivial

theorem locate_of_ends (h : t.locate true path = .ok found) (hfound : t.folderAt found = false)
    (hhome : t'.home = t.home) (hfolder : t'.folderAt = t.folderAt)
    (hlink : ∀ place, place ≠ found → t'.link? place = t.link? place)
    (hnone : t'.link? found = none) : t'.locate true path = .ok found := by
  obtain ⟨hwalkable, hway⟩ := locate_eq_ok.1 h
  refine locate_eq_ok.2 ⟨hwalkable, ?_⟩
  rw [hhome]
  exact hway.of_ends hfound hfolder hlink hnone

theorem locate_true_of_false (h : t.locate false path = .ok found) (hfound : t.link? found = none) :
    t.locate true path = .ok found := by
  obtain ⟨hwalkable, hway⟩ := locate_eq_ok.1 h
  exact locate_eq_ok.2 ⟨hwalkable, hway.follow hfound⟩

/-- Where no link stands at a path it does not matter whether one would be followed. -/
theorem locate_false_of_true (h : t.locate true path = .ok found)
    (hnone : ∀ place, t.locate false path = .ok place → t.link? place = none) :
    t.locate false path = .ok found := by
  obtain ⟨hwalkable, hway⟩ := locate_eq_ok.1 h
  rcases hway.spare with hway | ⟨link, hway, hlink⟩
  · exact locate_eq_ok.2 ⟨hwalkable, hway⟩
  · exact absurd (hnone link (locate_eq_ok.2 ⟨hwalkable, hway⟩)) hlink

end Tree

end ResumePress.Files
