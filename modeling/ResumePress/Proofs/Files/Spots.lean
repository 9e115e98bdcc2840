import ResumePress.Proofs.Files.Ways

/-!
What a name on a way down from a folder leads to, in closed form. On such a way no links are
followed, so it ends where the folders end: at the name itself if all of them are there, and else in
an error that only tells whether a file stands in the way. The same decides whether the folders of a
way can be made.
-/

namespace ResumePress

open Files

namespace Path

/-- A plain name that files can have. -/
structure IsProper (name : String) : Prop extends IsPlain name where
  noNul : '\x00' ∉ name.toList

/-- A name cannot be opened below a path: it is too long, or the whole path is. -/
def overlong (p : Path) (name : String) : Bool :=
  255 < name.utf8ByteSize || 4096 ≤ (p.join name).text.utf8ByteSize

variable {p : Path} {name : String} {names : List String}

theorem size_join (h : '/' ∉ name.toList) : (p.join name).text.utf8ByteSize =
    p.text.utf8ByteSize + (if p.text = "" ∨ p.text.toList.getLast? = some '/' then 0 else 1) +
      name.utf8ByteSize := by
  unfold join
  rw [not_isAbsolute h, if_neg Bool.false_ne_true]
  have hslash : "/".utf8ByteSize = 1 := rfl
  split <;> simp [String.utf8ByteSize_append, hslash]

/-- Only the length of the name counts. -/
theorem overlong_congr {a b : String} (ha : '/' ∉ a.toList) (hb : '/' ∉ b.toList)
    (hsize : a.utf8ByteSize = b.utf8ByteSize) : p.overlong a = p.overlong b := by
  rw [overlong, overlong, size_join ha, size_join hb, hsize]

theorem overlong_of_append {more : String} (hboth : '/' ∉ (name ++ more).toList)
    (hshort : p.overlong (name ++ more) = false) : p.overlong name = false := by
  have hname : '/' ∉ name.toList := fun hmem => hboth (by simp [hmem])
  rw [overlong, size_join hboth, String.utf8ByteSize_append] at hshort
  rw [overlong, size_join hname]
  simp only [Bool.or_eq_false_iff, decide_eq_false_iff_not] at hshort ⊢
  omega

theorem nul_not_mem_join (hp : '\x00' ∉ p.text.toList) (hslash : '/' ∉ name.toList)
    (hname : '\x00' ∉ name.toList) : '\x00' ∉ (p.join name).text.toList := by
  unfold join
  rw [not_isAbsolute hslash, if_neg Bool.false_ne_true]
  split <;> simp [hp, hname]

theorem below_ne_empty (hp : p.text ≠ "") (hplain : ∀ name ∈ names, IsPlain name) :
    (p.below names).text ≠ "" := by
  induction names using List.reverseRecOn with
  | nil => exact hp
  | append_singleton names name _ =>
    rw [below_snoc]
    exact (ends_join (hplain name (by simp))).1

theorem isAbsolute_below (hp : p.text ≠ "") (hplain : ∀ name ∈ names, IsPlain name) :
    (p.below names).isAbsolute = p.isAbsolute := by
  induction names using List.reverseRecOn with
  | nil => rfl
  | append_singleton names name ih =>
    have hbefore : ∀ name ∈ names, IsPlain name := fun name hname => hplain name (by simp [hname])
    rw [below_snoc, isAbsolute_join (hplain name (by simp)) (below_ne_empty hp hbefore), ih hbefore]

theorem nul_not_mem_below (hp : '\x00' ∉ p.text.toList) (hproper : ∀ name ∈ names, IsProper name) :
    '\x00' ∉ (p.below names).text.toList := by
  induction names using List.reverseRecOn with
  | nil => exact hp
  | append_singleton names name ih =>
    have hname := hproper name (by simp)
    rw [below_snoc]
    exact nul_not_mem_join (ih fun name hname => hproper name (by simp [hname])) hname.noSlash
      hname.noNul

theorem components_join_ne_nil (h : IsPlain name) : (p.join name).components ≠ [] := by
  rw [components_join h]
  simp

theorem steps_below_snoc (hplain : ∀ name ∈ names, IsPlain name) (hname : IsPlain name) :
    ((p.below names).join name).steps =
      p.lead.map step ++ (names.map Step.name ++ [.name name]) := by
  induction names using List.reverseRecOn generalizing name with
  | nil => simp [steps, below, segments_join hname.noSlash, hname.step]
  | append_singleton names last ih =>
    have hlast := hplain last (by simp)
    have hbefore := ih (fun name hname => hplain name (by simp [hname])) hlast
    rw [steps, segments_join hname.noSlash, below_snoc, lead_join hlast, List.map_append]
    rw [steps] at hbefore
    simp [hbefore, hname.step]

end Path

/-- The bytes of a file. -/
def Files.Entry.bytes? : Entry → Option ByteArray
  | .file bytes => some bytes
  | _ => none

namespace Files.Tree

open ResumePress.Path (Step)

variable {t t' : Tree} {followLast : Bool} {links : Nat} {base path : Path} {root place found : Place}
  {steps : List Step} {names : List String} {name : String} {now : Instant}

/-! ### The walk along names -/

theorem follow_name {rest : List Step} : t.follow followLast links place (.name name :: rest) =
    if 255 < name.utf8ByteSize then .error .nameTooLong
    else if t.folderAt (place ++ [name]) then t.follow followLast links (place ++ [name]) rest
    else
      match t.link? (place ++ [name]) with
      | some target =>
        if rest.isEmpty && !followLast then .ok (place ++ [name])
        else t.atLink followLast links place rest target
      | none =>
        if rest.isEmpty then .ok (place ++ [name])
        else .error (if (t.leaf? (place ++ [name])).isSome then .notADirectory else .notFound) := by
  rw [follow_eq_walk]
  exact walk_name _

/-- A way that starts with one to a folder goes on from there. -/
theorem Leads.follow_append (h : t.Leads true links place steps found)
    (hfound : t.folderAt found = true) : ∃ less, ∀ rest ≠ [],
      t.follow followLast links place (steps ++ rest) = t.follow followLast less found rest := by
  induction h with
  | done => exact ⟨_, fun _ _ => rfl⟩
  | here _ ih =>
    obtain ⟨less, hless⟩ := ih hfound
    refine ⟨less, fun rest hrest => ?_⟩
    rw [← hless rest hrest, List.cons_append, follow_eq_walk, walk]
  | up _ ih =>
    obtain ⟨less, hless⟩ := ih hfound
    refine ⟨less, fun rest hrest => ?_⟩
    rw [← hless rest hrest, List.cons_append, follow_eq_walk, walk]
  | down hname hfolder _ ih =>
    obtain ⟨less, hless⟩ := ih hfound
    refine ⟨less, fun rest hrest => ?_⟩
    rw [← hless rest hrest, List.cons_append, follow_name, if_neg (by omega), if_pos hfolder]
  | last _ hnot =>
    rw [hnot] at hfound
    cases hfound
  | jump hname hlink _ _ ih =>
    obtain ⟨less, hless⟩ := ih hfound
    refine ⟨less, fun rest hrest => ?_⟩
    rw [← hless rest hrest, List.cons_append, follow_name, if_neg (by omega),
      if_neg (by simp [folderAt_of_link? hlink]), hlink]
    dsimp only
    rw [if_neg (by simp [hrest]), List.append_assoc]
    rfl

/-- Whether a file or a link stands on the way along names. -/
def blocked (t : Tree) : Place → List String → Bool
  | _, [] => false
  | place, name :: rest =>
    (t.leaf? (place ++ [name])).isSome || t.blocked (place ++ [name]) rest

theorem blocked_append {more : List String} :
    t.blocked place (names ++ more) = (t.blocked place names || t.blocked (place ++ names) more) := by
  induction names generalizing place with
  | nil => simp [blocked]
  | cons name names ih => simp [blocked, ih, Bool.or_assoc]

theorem blocked_congr (h : ∀ place', OnWay place names place' → t'.leaf? place' = t.leaf? place') :
    t'.blocked place names = t.blocked place names := by
  induction names generalizing place with
  | nil => rfl
  | cons name names ih =>
    rw [blocked, blocked, h _ ⟨[name], List.cons_ne_nil _ _, by simp, rfl⟩, ih]
    rintro place' ⟨passed, hne, hprefix, rfl⟩
    exact h _ ⟨name :: passed, List.cons_ne_nil _ _, by simpa using hprefix, by simp⟩

theorem blocked_of_not_folderAt (hroot : t.IsRooted) (hplace : t.folderAt place = false)
    (hleaf : t.leaf? place = none) : t.blocked place names = false := by
  induction names generalizing place with
  | nil => rfl
  | cons name names ih =>
    have hnone := get?_eq_none.1 (hroot.get?_append hplace (List.cons_ne_nil name []))
    rw [blocked, hnone.1, ih hnone.2 hnone.1]
    rfl

theorem blocked_of_folderAt (hroot : t.IsRooted) (hfolder : t.folderAt (place ++ names) = true) :
    t.blocked place names = false := by
  induction names generalizing place with
  | nil => rfl
  | cons name names ih =>
    rw [← List.singleton_append, ← List.append_assoc] at hfolder
    have hfirst : t.folderAt (place ++ [name]) = true := by
      by_cases hnil : names = []
      · simpa [hnil] using hfolder
      · exact hroot.above hnil (get?_ne_none.2 (.inr hfolder))
    rw [blocked, leaf?_of_folderAt hfirst, ih hfolder]
    rfl

/-- The induction is on the names: the walk goes down folder by folder. -/
theorem follow_names (hroot : t.IsRooted) (hplace : t.folderAt place = true)
    (hshort : ∀ name ∈ names, name.utf8ByteSize ≤ 255)
    (hlinks : ∀ passed, passed <+: names → t.link? (place ++ passed) = none)
    (hlink : t.link? (place ++ names ++ [name]) = none ∨ followLast = false) :
    t.follow followLast links place (names.map Step.name ++ [.name name]) =
      if t.folderAt (place ++ names) then
        if 255 < name.utf8ByteSize then .error .nameTooLong else .ok (place ++ names ++ [name])
      else .error (if t.blocked place names then .notADirectory else .notFound) := by
  induction names generalizing place with
  | nil =>
    rw [List.append_nil] at hlink ⊢
    rw [if_pos hplace, List.map_nil, List.nil_append, follow_name]
    congr 1
    split
    · rw [follow_eq_walk, walk]
    · rcases hlink with hlink | rfl
      · rw [hlink]
        rfl
      · split <;> rfl
  | cons first names ih =>
    have hfirst := hshort first List.mem_cons_self
    have hfirstLink := hlinks [first] (by simp)
    rw [List.map_cons, List.cons_append, follow_name, if_neg (by omega), hfirstLink]
    cases hfolder : t.folderAt (place ++ [first]) with
    | true =>
      rw [if_pos rfl, ih hfolder (fun name hname => hshort name (List.mem_cons_of_mem _ hname))
        (fun passed hpassed => by simpa using hlinks (first :: passed) (by simpa using hpassed))
        (by simpa using hlink)]
      simp [blocked, leaf?_of_folderAt hfolder]
    | false =>
      have hbelow : t.folderAt (place ++ first :: names) = false := by
        rcases names with _ | ⟨second, names⟩
        · exact hfolder
        · have hnone := hroot.get?_append hfolder (List.cons_ne_nil second names)
          rw [List.append_assoc, List.singleton_append] at hnone
          exact (get?_eq_none.1 hnone).2
      have hblocked : t.blocked place (first :: names) = (t.leaf? (place ++ [first])).isSome := by
        rw [blocked]
        cases hleaf : t.leaf? (place ++ [first]) with
        | some node => rfl
        | none => rw [blocked_of_not_folderAt hroot hfolder hleaf]; rfl
      rw [if_neg Bool.false_ne_true, hbelow, if_neg Bool.false_ne_true, hblocked]
      dsimp only
      rw [if_neg (by simp)]

namespace HasWay

/-- Where a name below a way leads. -/
theorem locate_join (h : t.HasWay base root names) (hproper : ∀ name ∈ names, Path.IsProper name)
    (hshort : ∀ name ∈ names, name.utf8ByteSize ≤ 255) (hname : Path.IsProper name)
    (hlink : t.link? (root ++ names ++ [name]) = none ∨ followLast = false) :
    t.locate followLast ((base.below names).join name) =
      if 4096 ≤ ((base.below names).join name).text.utf8ByteSize then .error .nameTooLong
      else if t.folderAt (root ++ names) then
        if 255 < name.utf8ByteSize then .error .nameTooLong else .ok (root ++ names ++ [name])
      else .error (if t.blocked root names then .notADirectory else .notFound) := by
  obtain ⟨⟨hnul, hne, -⟩, hway⟩ := locate_eq_ok.1 h.locate
  have hbefore : t.Leads true 40 (if base.isAbsolute then [] else t.home) (base.lead.map Path.step)
      root := by
    rcases Path.segments_eq_lead hne with heq | heq <;> rw [Path.steps, heq] at hway
    · exact hway
    · rw [List.map_append] at hway
      exact hway.of_here
  have honward : ∃ less, ∀ rest ≠ [], t.follow followLast 40 _ (base.lead.map Path.step ++ rest) =
      t.follow followLast less root rest := hbefore.follow_append h.isFolder
  obtain ⟨less, hless⟩ := honward
  have hpath := Path.nul_not_mem_join (Path.nul_not_mem_below hnul hproper) hname.noSlash hname.noNul
  unfold Tree.locate
  rw [if_neg (by simpa using hpath), if_neg (Path.ends_join hname.toIsPlain).1]
  congr 1
  rw [Path.isAbsolute_join hname.toIsPlain (Path.below_ne_empty hne h.isPlain),
    Path.isAbsolute_below hne h.isPlain, Path.steps_below_snoc h.isPlain hname.toIsPlain,
    hless _ (by simp), follow_names h.isRooted h.isFolder hshort h.link? hlink]

/-- In a folder that is there a name leads to what has the name. -/
theorem locate_in (h : t.HasWay base root names) (hproper : ∀ name ∈ names, Path.IsProper name)
    (hshort : ∀ name ∈ names, name.utf8ByteSize ≤ 255) (hthere : t.folderAt (root ++ names) = true)
    (hname : Path.IsProper name)
    (hlink : t.link? (root ++ names ++ [name]) = none ∨ followLast = false) :
    t.locate followLast ((base.below names).join name) =
      if (base.below names).overlong name then .error .nameTooLong
      else .ok (root ++ names ++ [name]) := by
  rw [h.locate_join hproper hshort hname hlink, if_pos hthere, Path.overlong]
  by_cases hlong : 4096 ≤ ((base.below names).join name).text.utf8ByteSize <;>
    by_cases hsize : 255 < name.utf8ByteSize <;> simp [hlong, hsize]

end HasWay

/-! ### Making the folders of a way -/

theorem isFolder_eq (t : Tree) (path : Path) : t.isFolder path =
    match t.locate true path with
    | .ok place => t.folderAt place
    | .error _ => false := by
  unfold isFolder stat find
  cases t.locate true path with
  | error e => rfl
  | ok place =>
    cases hget : t.get? place <;> simp [folderAt, hget, Except.map]

/-- A path to a folder leads, itself or by a link that stands there, to something. -/
theorem exists_locate_of_folder (hlocate : t.locate true path = .ok place)
    (hplace : t.folderAt place = true) :
    ∃ spot, t.locate false path = .ok spot ∧ t.get? spot ≠ none := by
  obtain ⟨hwalkable, hway⟩ := locate_eq_ok.1 hlocate
  rcases hway.spare with hway | ⟨link, hway, hlink⟩
  · exact ⟨place, locate_eq_ok.2 ⟨hwalkable, hway⟩, get?_ne_none.2 (.inr hplace)⟩
  · refine ⟨link, locate_eq_ok.2 ⟨hwalkable, hway⟩, get?_ne_none.2 (.inl fun hnone => hlink ?_)⟩
    rw [link?, hnone]
    rfl

/-- A folder that is there is not made. -/
theorem makeFolders_of_folder (hlocate : t.locate true path = .ok place)
    (hplace : t.folderAt place = true) (hends : path.withoutEndSlashes = path) (now : Instant) :
    t.makeFolders now path = (.ok (), t) := by
  obtain ⟨spot, hspot, hthere⟩ := exists_locate_of_folder hlocate hplace
  obtain ⟨node, hnode⟩ := Option.ne_none_iff_exists'.1 hthere
  have hmake : t.makeFolder now path = .error .alreadyExists := by
    unfold makeFolder
    rw [hends, hspot]
    dsimp only
    rw [hnode]
  have hfolder : t.isFolder path = true := by
    rw [isFolder_eq, hlocate]
    exact hplace
  rw [makeFolders, makeFoldersFrom, hmake]
  dsimp only
  rw [hfolder, if_pos rfl, ite_self]

/-- Why the folders of a way cannot be made. -/
def wayFault? (t : Tree) (base : Path) (root : Place) (names : List String) : Option Fault :=
  if 4096 ≤ (base.below names).text.utf8ByteSize then some .nameTooLong
  else if (t.leaf? (root ++ names)).isSome then some .alreadyExists
  else if t.blocked root names.dropLast then some .notADirectory
  else none

/-- If nothing is in the way to a name, the folder of the name can be made. -/
theorem wayFault?_parent {last : String} (hname : '/' ∉ name.toList)
    (hlong : ¬4096 ≤ (base.below (names ++ [last] ++ [name])).text.utf8ByteSize)
    (hblocked : t.blocked root (names ++ [last]) = false) :
    t.wayFault? base root (names ++ [last]) = none := by
  obtain ⟨after, hafter⟩ := Path.text_join_append (p := base.below (names ++ [last])) hname
  have hsize := congrArg String.utf8ByteSize hafter
  rw [← Path.below_snoc, String.utf8ByteSize_append] at hsize
  rw [blocked_append, Bool.or_eq_false_iff] at hblocked
  obtain ⟨hbefore, hlast⟩ := hblocked
  have hleaf : (t.leaf? (root ++ (names ++ [last]))).isSome = false := by
    simpa [blocked] using hlast
  rw [wayFault?, if_neg (by omega), hleaf, List.dropLast_concat, hbefore]
  rfl

theorem wayFault?_congr (hne : names ≠ [])
    (h : ∀ place, OnWay root names place → t'.leaf? place = t.leaf? place) :
    t'.wayFault? base root names = t.wayFault? base root names := by
  rw [wayFault?, wayFault?, h _ ⟨names, hne, List.prefix_refl _, rfl⟩,
    blocked_congr fun place hplace => h place (hplace.mono (List.dropLast_prefix _))]

namespace HasWay

variable (h : t.HasWay base root (names ++ [name]))
  (hproper : ∀ other ∈ names ++ [name], Path.IsProper other)
  (hshort : ∀ other ∈ names ++ [name], other.utf8ByteSize ≤ 255)
include h hproper hshort

theorem locate_way : t.locate followLast (base.below (names ++ [name])) =
    if 4096 ≤ (base.below (names ++ [name])).text.utf8ByteSize then .error .nameTooLong
    else if t.folderAt (root ++ names) then .ok (root ++ (names ++ [name]))
    else .error (if t.blocked root names then .notADirectory else .notFound) := by
  have hlast := hshort name (by simp)
  rw [Path.below_snoc, (h.of_prefix (List.prefix_append _ _)).locate_join
    (fun other hother => hproper other (by simp [hother]))
    (fun other hother => hshort other (by simp [hother])) (hproper name (by simp))
    (.inl (by simpa using h.link? _ (List.prefix_refl _))), if_neg (Nat.not_lt.2 hlast),
    List.append_assoc]

theorem isFolder_way : t.isFolder (base.below (names ++ [name])) =
    (decide ((base.below (names ++ [name])).text.utf8ByteSize < 4096) &&
      t.folderAt (root ++ (names ++ [name]))) := by
  rw [isFolder_eq, h.locate_way hproper hshort]
  by_cases hlong : 4096 ≤ (base.below (names ++ [name])).text.utf8ByteSize
  · rw [if_pos hlong, decide_eq_false (Nat.not_lt.2 hlong), Bool.false_and]
  · rw [if_neg hlong, decide_eq_true (Nat.not_le.1 hlong), Bool.true_and]
    cases hparent : t.folderAt (root ++ names) with
    | true => rfl
    | false =>
      have hnone := h.isRooted.get?_append hparent (List.cons_ne_nil name [])
      rw [List.append_assoc] at hnone
      rw [(get?_eq_none.1 hnone).2]
      rfl

theorem makeFolder_way (now : Instant) (hparent : t.folderAt (root ++ names) = true)
    (hlong : ¬4096 ≤ (base.below (names ++ [name])).text.utf8ByteSize) :
    (t.get? (root ++ (names ++ [name])) = none ∧
      ∃ t', t.makeFolder now (base.below (names ++ [name])) = .ok t' ∧
        t'.folderAt (root ++ (names ++ [name])) = true) ∨
    (t.get? (root ++ (names ++ [name])) ≠ none ∧
      t.makeFolder now (base.below (names ++ [name])) = .error .alreadyExists) := by
  have hlocate : t.locate false (base.below (names ++ [name])).withoutEndSlashes =
      .ok (root ++ (names ++ [name])) := by
    rw [Path.below_snoc, Path.withoutEndSlashes_join (h.isPlain name (by simp)), ← Path.below_snoc,
      h.locate_way hproper hshort, if_neg hlong, if_pos hparent]
  cases hget : t.get? (root ++ (names ++ [name])) with
  | none =>
    have hmade : t.makeFolder now (base.below (names ++ [name])) =
        .ok ((t.put (root ++ (names ++ [name])) ⟨.folder, now⟩).stamp now
          (root ++ (names ++ [name]))) := by
      unfold Tree.makeFolder
      rw [hlocate]
      dsimp only
      rw [hget]
    have hadds := h.makeFolder_adds (List.concat_ne_nil _ _) hmade
    refine .inl ⟨rfl, _, hmade, ?_⟩
    rw [hadds.folderAt, Function.update_self]
  | some node =>
    refine .inr ⟨Option.some_ne_none _, ?_⟩
    unfold Tree.makeFolder
    rw [hlocate]
    dsimp only
    rw [hget]

/-- The folders of a way can be made if no file stands in the way and its path is not too long. The
induction is on the depth. -/
theorem makeFoldersFrom_result {depth : Nat} (hdepth : (names ++ [name]).length ≤ depth) :
    (makeFoldersFrom now depth t (base.below (names ++ [name]))).1 =
        (match t.wayFault? base root (names ++ [name]) with
        | some e => .error e
        | none => .ok ()) ∧
      (t.wayFault? base root (names ++ [name]) = none →
        (makeFoldersFrom now depth t (base.below (names ++ [name]))).2.folderAt
          (root ++ (names ++ [name])) = true) := by
  induction depth generalizing names name with
  | zero => simp at hdepth
  | succ depth ih =>
    have hcomponents := Path.components_join_ne_nil (p := base.below names) (h.isPlain name (by simp))
    rw [← Path.below_snoc] at hcomponents
    have hfault : t.wayFault? base root (names ++ [name]) =
        if 4096 ≤ (base.below (names ++ [name])).text.utf8ByteSize then some .nameTooLong
        else if (t.leaf? (root ++ (names ++ [name]))).isSome then some .alreadyExists
        else if t.blocked root names then some .notADirectory
        else none := by
      rw [wayFault?, List.dropLast_concat]
    unfold makeFoldersFrom
    rw [if_neg hcomponents, hfault, h.isFolder_way hproper hshort]
    by_cases hlong : 4096 ≤ (base.below (names ++ [name])).text.utf8ByteSize
    · have hmake : t.makeFolder now (base.below (names ++ [name])) = .error .nameTooLong := by
        unfold Tree.makeFolder
        rw [Path.below_snoc, Path.withoutEndSlashes_join (h.isPlain name (by simp)),
          ← Path.below_snoc, h.locate_way hproper hshort, if_pos hlong]
      rw [hmake, if_pos hlong, decide_eq_false (Nat.not_lt.2 hlong)]
      exact ⟨rfl, fun hnone => absurd hnone (Option.some_ne_none _)⟩
    · rw [if_neg hlong, decide_eq_true (Nat.not_le.1 hlong), Bool.true_and]
      cases hparent : t.folderAt (root ++ names) with
      | true =>
        rw [blocked_of_folderAt h.isRooted hparent]
        rcases h.makeFolder_way hproper hshort now hparent hlong with
          ⟨hget, t', hmake, hfolder⟩ | ⟨hget, hmake⟩
        · rw [hmake, (get?_eq_none.1 hget).1]
          exact ⟨rfl, fun _ => hfolder⟩
        · rw [hmake]
          cases hfolder : t.folderAt (root ++ (names ++ [name])) with
          | true =>
            rw [leaf?_of_folderAt hfolder]
            exact ⟨rfl, fun _ => rfl⟩
          | false =>
            have hleaf := (get?_ne_none.1 hget).resolve_right (by simp [hfolder])
            rw [Option.isSome_iff_ne_none.2 hleaf]
            exact ⟨rfl, fun hnone => absurd hnone (Option.some_ne_none _)⟩
      | false =>
        have hnone := h.isRooted.get?_append hparent (List.cons_ne_nil name [])
        rw [List.append_assoc] at hnone
        have hmake : t.makeFolder now (base.below (names ++ [name])) =
            .error (if t.blocked root names then .notADirectory else .notFound) := by
          unfold Tree.makeFolder
          rw [Path.below_snoc, Path.withoutEndSlashes_join (h.isPlain name (by simp)),
            ← Path.below_snoc, h.locate_way hproper hshort, if_neg hlong, hparent]
          rfl
        rw [hmake, (get?_eq_none.1 hnone).1, (get?_eq_none.1 hnone).2]
        cases hblocked : t.blocked root names with
        | true => exact ⟨rfl, fun hnone => absurd hnone (Option.some_ne_none _)⟩
        | false =>
          have hne : names ≠ [] := by
            rintro rfl
            rw [List.append_nil, h.isFolder] at hparent
            cases hparent
          obtain ⟨before, last, rfl⟩ := (List.eq_nil_or_concat names).resolve_left hne
          rw [List.concat_eq_append] at *
          have hlast : Path.IsPlain last := h.isPlain last (by simp)
          have habove : (base.below (before ++ [last] ++ [name])).parent? =
              some (base.below (before ++ [last])) := by
            rw [Path.below_snoc, Path.below_snoc, Path.parent?_join hlast (h.isPlain name (by simp))]
          have hfree := wayFault?_parent (h.isPlain name (by simp)).noSlash hlong hblocked
          obtain ⟨hmade, hready⟩ := ih (h.of_prefix (List.prefix_append _ _))
            (fun other hother => hproper other (List.mem_append_left _ hother))
            (fun other hother => hshort other (List.mem_append_left _ hother))
            (by
              rw [List.length_append] at hdepth
              exact Nat.le_of_succ_le_succ hdepth)
          have hgrown : Grown t (makeFoldersFrom now depth t (base.below (before ++ [last]))).2 :=
            makeFoldersFrom_grown h.isRooted depth
          have hready := hready hfree
          rw [hfree] at hmade
          rw [habove]
          dsimp only
          generalize makeFoldersFrom now depth t (base.below (before ++ [last])) = made at *
          obtain ⟨e | _, above⟩ := made
          · cases hmade
          · have hthere := h.of_grown hgrown
            dsimp only
            rcases hthere.makeFolder_way hproper hshort now hready hlong with
              ⟨-, t', hmake, hfolder⟩ | ⟨hget, hmake⟩
            · rw [hmake]
              exact ⟨rfl, fun _ => hfolder⟩
            · have hfolder : above.folderAt (root ++ (before ++ [last] ++ [name])) = true := by
                refine (get?_ne_none.1 hget).resolve_left (not_not.2 ?_)
                rw [hgrown.leaf, (get?_eq_none.1 hnone).1]
              rw [hmake, hthere.isFolder_way hproper hshort, hfolder,
                decide_eq_true (Nat.not_le.1 hlong)]
              exact ⟨rfl, fun _ => hfolder⟩

omit h hproper hshort in
theorem makeFolders_result (h : t.HasWay base root names) (hne : names ≠ [])
    (hproper : ∀ name ∈ names, Path.IsProper name) (hshort : ∀ name ∈ names, name.utf8ByteSize ≤ 255)
    (now : Instant) :
    (t.makeFolders now (base.below names)).1 =
        (match t.wayFault? base root names with
        | some e => .error e
        | none => .ok ()) ∧
      (t.wayFault? base root names = none →
        (t.makeFolders now (base.below names)).2.folderAt (root ++ names) = true) := by
  obtain ⟨before, name, rfl⟩ := (List.eq_nil_or_concat names).resolve_left hne
  rw [List.concat_eq_append] at *
  have hsteps := congrArg List.length (Path.steps_below_snoc (p := base)
    (fun other hother => h.isPlain other (List.mem_append_left _ hother)) (h.isPlain name (by simp)))
  refine h.makeFoldersFrom_result hproper hshort ?_
  simp only [Path.steps, List.length_map, List.length_append, List.length_singleton,
    ← Path.below_snoc] at hsteps ⊢
  omega

end HasWay

/-! ### Files in a folder -/

theorem stat_toOption (t : Tree) (path : Path) :
    (t.stat path).toOption = (t.locate true path).toOption.bind t.get? := by
  unfold stat find
  cases t.locate true path with
  | error e => rfl
  | ok place => cases hget : t.get? place <;> simp [Except.toOption, Except.map, hget]

/-- What stands behind a name below a way is what stands at its place. -/
theorem HasWay.stat_join (h : t.HasWay base root names)
    (hproper : ∀ name ∈ names, Path.IsProper name) (hshort : ∀ name ∈ names, name.utf8ByteSize ≤ 255)
    (hname : Path.IsProper name) (hlink : t.link? (root ++ names ++ [name]) = none) :
    (t.stat ((base.below names).join name)).toOption =
      if (base.below names).overlong name then none else t.get? (root ++ names ++ [name]) := by
  rw [stat_toOption]
  cases hthere : t.folderAt (root ++ names) with
  | true =>
    rw [h.locate_in hproper hshort hthere hname (.inl hlink)]
    split <;> rfl
  | false =>
    rw [h.locate_join hproper hshort hname (.inl hlink), hthere,
      h.isRooted.get?_append hthere (List.cons_ne_nil name []), ite_self]
    split <;> rfl

theorem read_toOption (t : Tree) (path : Path) :
    (t.read path).toOption = (t.stat path).toOption.bind fun node => node.entry.bytes? := by
  unfold read
  rcases t.stat path with e | ⟨entry, modified⟩
  · rfl
  · cases entry <;> rfl

theorem write_isOk (now : Instant) (bytes : ByteArray) {path : Path}
    (hlocate : t.locate true path = .ok place) (hplace : t.folderAt place = false) :
    ∃ t', t.write now path bytes = .ok t' := by
  unfold write
  rw [hlocate]
  dsimp only
  split
  · exact ⟨_, rfl⟩
  · rename_i hget
    simp [folderAt, hget, Entry.isFolder] at hplace
  · exact ⟨_, rfl⟩

/-- A file can be written in a folder that is there unless its name is too long. -/
theorem HasFolder.write_cases (h : t.HasFolder base root names)
    (hproper : ∀ name ∈ names, Path.IsProper name) (hshort : ∀ name ∈ names, name.utf8ByteSize ≤ 255)
    (hthere : t.folderAt (root ++ names) = true) (hname : Path.IsProper name)
    (hfree : t.folderAt (root ++ names ++ [name]) = false) (now : Instant) (bytes : ByteArray) :
    ((base.below names).overlong name = true ∧
      t.write now ((base.below names).join name) bytes = .error .nameTooLong) ∨
    ((base.below names).overlong name = false ∧
      ∃ t', t.write now ((base.below names).join name) bytes = .ok t' ∧
        Sets t t' (root ++ names ++ [name]) (some ⟨.file bytes, now⟩)) := by
  have hlocate : t.locate true ((base.below names).join name) = _ :=
    h.locate_in hproper hshort hthere hname (.inl (h.inside name))
  cases hlong : (base.below names).overlong name with
  | true =>
    rw [hlong, if_pos rfl] at hlocate
    refine .inl ⟨rfl, ?_⟩
    unfold write
    rw [hlocate]
  | false =>
    rw [hlong, if_neg Bool.false_ne_true] at hlocate
    obtain ⟨t', hwrite⟩ := write_isOk now bytes hlocate hfree
    exact .inr ⟨rfl, t', hwrite, h.sets_write hname.toIsPlain hwrite⟩

theorem copy_of_read {source : Path} {bytes : ByteArray} (h : t.read source = .ok bytes)
    (now : Instant) (target : Path) : t.copy now source target = t.write now target bytes := by
  unfold read at h
  unfold copy
  split at h
  · cases h
  · cases h
    rfl
  · cases h

theorem rename_isOk (now : Instant) {source target : Path} {old new : Place} {node : Node}
    (hold : t.locate false source = .ok old) (hnode : t.leaf? old = some node)
    (hnew : t.locate false target = .ok new) (hplace : t.folderAt new = false) :
    ∃ t', t.rename now source target = .ok t' := by
  obtain ⟨hget, hisLeaf⟩ := leaf?_eq_some.1 hnode
  obtain ⟨entry, modified⟩ := node
  unfold rename
  rw [find_eq_ok.2 ⟨hold, hget⟩]
  cases entry with
  | folder => cases hisLeaf
  | _ =>
    dsimp only
    rw [hnew]
    dsimp only
    split
    · exact ⟨_, rfl⟩
    · split
      · rename_i hthere
        simp [folderAt, hthere, Entry.isFolder] at hplace
      · exact ⟨_, rfl⟩

end Files.Tree

end ResumePress
