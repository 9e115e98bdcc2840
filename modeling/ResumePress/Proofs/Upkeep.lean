import ResumePress.Proofs.CleanUp
import ResumePress.Proofs.Entries
import ResumePress.Proofs.Files.Questions

/-!
The upkeep of the folders. Calls and sweeps leave a tree in order: the folders of the press are still
found where they were, no file has come in their way, and everything in them can be listed and opened
by its name.
-/

namespace ResumePress

open Files Files.Tree

variable {σ : Type}

/-! ### Order -/

/-- The folders for runs, logs and entries, and what is in them. -/
def IsInner (root place : Place) : Prop :=
  root ++ ["temp"] <+: place ∨ root ++ [".cache"] <+: place

/-- A tree in which the folder of the cache is there or can be made, no folder is where an entry is kept
or written aside, and nothing in the folders of runs, logs and entries has a name that a file cannot
have. -/
structure Files.Tree.IsOrderly (t : Tree) (base : Path) (root : Place) : Prop
    extends t.IsSite base root where
  free : t.wayFault? base root Config.cacheWay = none
  unblocked : ∀ key, Cache.IsKey key → ∀ n,
    ∀ name ∈ [Cache.entryName key, Cache.stagingName key (Text.hexPadded 32 n)],
      t.folderAt (root ++ Config.cacheWay ++ [name]) = false
  plain : ∀ names ∈ [Config.tempWay, Config.logWay, Config.cacheWay], ∀ name,
    t.get? (root ++ names ++ [name]) ≠ none → Path.IsPlain name

/-- An orderly tree to start in: the way to the base leads past the folders of runs and entries, and
the press does not run inside of that of runs. -/
structure Files.Tree.IsSetUp (t : Tree) (base : Path) (root : Place) : Prop
    extends t.IsOrderly base root where
  apart : ∀ place, t.AsksFor base place → ¬IsInner root place
  away : ¬root ++ ["temp"] <+: t.home

/-- An orderly tree in which the base is found as at the start. -/
structure Files.Tree.IsTended (start : Tree) (base : Path) (root : Place) (t : Tree) : Prop
    extends t.IsOrderly base root where
  home : t.home = start.home
  agrees : ∀ place, start.AsksFor base place → start.AgreesAt t place

variable {base : Path} {root place : Place} {names : List String} {name : String}
  {start t t' : Tree}

theorem Files.Tree.IsSetUp.isTended (h : t.IsSetUp base root) : t.IsTended base root t where
  toIsOrderly := h.toIsOrderly
  home := rfl
  agrees := fun _ _ => ⟨rfl, rfl⟩

theorem isInner_of_onWay (hnames : names ∈ [Config.logWay, Config.cacheWay])
    (h : OnWay root names place) : IsInner root place := by
  rcases List.mem_pair.1 hnames with rfl | rfl
  · exact .inl h.inside
  · exact .inr h.inside

theorem isInner_of_inFolder (hnames : names ∈ [Config.logWay, Config.cacheWay])
    (h : InFolder root names place) : IsInner root place := by
  rcases List.mem_pair.1 hnames with rfl | rfl
  · exact .inl h.inside
  · exact .inr h.inside

theorem not_isInner_root : ¬IsInner root root := by
  rintro (h | h)
  · exact absurd h.length_le (by simp)
  · exact absurd h.length_le (by simp)

/-- What is in the folders of logs and entries is not on the way to the entries. -/
theorem not_onWay_of_inFolder (hnames : names ∈ [Config.logWay, Config.cacheWay])
    (h : InFolder root names place) : ¬OnWay root Config.cacheWay place := by
  rcases List.mem_pair.1 hnames with rfl | rfl
  · obtain ⟨name, rfl⟩ := h
    have hoff : IsOff root Config.cacheWay (root ++ Config.logWay ++ [name]) :=
      isOff_of_inside (by decide : "temp" ≠ ".cache") (List.prefix_append _ _)
    exact hoff.onWay
  · exact h.not_onWay

theorem not_onWay_of_entry (hnames : names ∈ [Config.logWay, Config.cacheWay]) :
    ¬OnWay root names (root ++ Config.cacheWay ++ [name]) := by
  rcases List.mem_pair.1 hnames with rfl | rfl
  · have hoff : IsOff root Config.logWay (root ++ Config.cacheWay ++ [name]) :=
      isOff_of_inside (by decide : ".cache" ≠ "temp") (List.prefix_append _ _)
    exact hoff.onWay
  · exact Cache.not_onWay_of_concat

namespace Files.Tree.IsTended

variable (h : start.IsTended base root t)
include h

theorem cacheWay : t.HasWay base root Config.cacheWay := (h.hasFolder Config.cacheWay_mem).toHasWay

theorem tempWay : t.HasWay base root Config.tempWay :=
  (h.hasFolder Config.logWay_mem).toHasWay.of_prefix (by simp [Config.tempWay, Config.logWay])

/-- Files with names that files can have may come in the folders of logs and entries, and these may be
made. -/
theorem of_changes (hstart : start.IsSetUp base root) {altered new : Place → Prop}
    (hchanges : Changes (fun _ => False) altered new t t')
    (haltered : ∀ place, altered place → ∃ names ∈ [Config.logWay, Config.cacheWay],
      ∃ name, Path.IsPlain name ∧ place = root ++ names ++ [name])
    (hnew : ∀ place, new place → ∃ names ∈ [Config.logWay, Config.cacheWay], OnWay root names place) :
    start.IsTended base root t' := by
  have hkept : ∀ place, (∀ names ∈ [Config.logWay, Config.cacheWay], ¬InFolder root names place) →
      t'.leaf? place = t.leaf? place := fun place hnot => hchanges.leaf place id fun hplace => by
    obtain ⟨names, hnames, name, -, rfl⟩ := haltered place hplace
    exact hnot names hnames ⟨name, rfl⟩
  have hsame : ∀ place, (∀ names ∈ [Config.logWay, Config.cacheWay], ¬OnWay root names place) →
      t'.folderAt place = t.folderAt place := fun place hnot =>
    (hchanges.folders place id).resolve_right fun hplace => by
      obtain ⟨names, hnames, hway⟩ := hnew place hplace.1
      exact hnot names hnames hway
  refine ⟨⟨h.toIsSite.of_spares hchanges.toSpares nofun, ?_, fun key hkey n name hname => ?_,
      fun names hnames name hthere => ?_⟩,
    hchanges.home.trans h.home, fun place hasked => ?_⟩
  · rw [wayFault?_congr (by decide) fun place hway => ?_, h.free]
    exact hkept place fun names hnames hin => not_onWay_of_inFolder hnames hin hway
  · exact (hsame _ fun names hnames => not_onWay_of_entry hnames).trans (h.unblocked key hkey n name hname)
  · rcases get?_ne_none.1 hthere with hleaf | hfolder
    · by_cases hplace : altered (root ++ names ++ [name])
      · obtain ⟨_, -, other, hother, heq⟩ := haltered _ hplace
        obtain rfl : name = other := by simpa using congrArg List.getLast? heq
        exact hother
      · exact h.plain names hnames name (get?_ne_none.2 (.inl (hchanges.leaf _ id hplace ▸ hleaf)))
    · rcases hchanges.folders (root ++ names ++ [name]) id with hsame | ⟨hplace, -⟩
      · exact h.plain names hnames name (get?_ne_none.2 (.inr (hsame ▸ hfolder)))
      · obtain ⟨others, hothers, passed, -, hahead, heq⟩ := hnew _ hplace
        rw [List.append_assoc, List.append_cancel_left_eq] at heq
        have hways : others ∈ Config.ways := by
          rcases List.mem_pair.1 hothers with rfl | rfl
          · exact Config.logWay_mem
          · exact Config.cacheWay_mem
        exact (Config.isPlain_ways others hways name (hahead.subset (by simp [← heq]))).1
  · have houter := hstart.apart place hasked
    obtain ⟨hleaf, hfolder⟩ := h.agrees place hasked
    exact ⟨(hkept place fun names hnames hin => houter (isInner_of_inFolder hnames hin)).trans hleaf,
      (hsame place fun names hnames hway => houter (isInner_of_onWay hnames hway)).trans hfolder⟩

/-- Things in the folders of runs, logs and entries may go. -/
theorem of_less (hstart : start.IsSetUp base root) (hroot : t'.IsRooted) (hhome : t'.home = t.home)
    (lost : Place → Prop)
    (hleaf : ∀ place, t'.leaf? place = t.leaf? place ∨ (lost place ∧ t'.leaf? place = none))
    (hfolder : ∀ place, t'.folderAt place = t.folderAt place ∨
      (lost place ∧ t'.folderAt place = false))
    (hlost : ∀ place, lost place → IsInner root place ∧ ¬OnWay root Config.cacheWay place) :
    start.IsTended base root t' := by
  have hkept : ∀ place, ¬lost place → t.AgreesAt t' place := fun place hnot =>
    ⟨(hleaf place).resolve_right fun hgone => hnot hgone.1,
      (hfolder place).resolve_right fun hgone => hnot hgone.1⟩
  have hless : ∀ place, t'.get? place ≠ none → t.get? place ≠ none := fun place hthere => by
    rcases get?_ne_none.1 hthere with hnode | hnode
    · refine get?_ne_none.2 (.inl ?_)
      rwa [← (hleaf place).resolve_right fun hgone => hnode hgone.2]
    · refine get?_ne_none.2 (.inr ?_)
      rwa [← (hfolder place).resolve_right fun hgone => by simp [hgone.2] at hnode]
  have hlinks : ∀ place, t.link? place = none → t'.link? place = none := fun place hnone => by
    rcases hleaf place with hsame | ⟨-, hgone⟩
    · rwa [Tree.link?, hsame]
    · rw [Tree.link?, hgone, Option.bind_none]
  have hagrees : ∀ place, start.AsksFor base place → start.AgreesAt t' place := fun place hasked => by
    obtain ⟨hleaf, hfolder⟩ := h.agrees place hasked
    obtain ⟨hleaf', hfolder'⟩ := hkept place fun hgone => hstart.apart place hasked (hlost place hgone).1
    exact ⟨hleaf'.trans hleaf, hfolder'.trans hfolder⟩
  have hhome' := hhome.trans h.home
  refine ⟨⟨⟨hroot, ?_, ?_, fun names hnames passed hpassed => hlinks _ (h.link? names hnames passed hpassed),
    fun names hnames name => hlinks _ (h.inside names hnames name)⟩, ?_, fun key hkey n name hname => ?_,
    fun names hnames name hthere => h.plain names hnames name (hless _ hthere)⟩, hhome', hagrees⟩
  · exact (locate_of_asks hhome' hagrees).trans hstart.locate
  · exact (hkept root fun hgone => not_isInner_root (hlost root hgone).1).2.trans h.isFolder
  · rw [wayFault?_congr (by decide) fun place hway => ?_, h.free]
    exact (hkept place fun hgone => (hlost place hgone).2 hway).1
  · rcases hfolder (root ++ Config.cacheWay ++ [name]) with hsame | ⟨-, hgone⟩
    · exact hsame.trans (h.unblocked key hkey n name hname)
    · exact hgone

end Files.Tree.IsTended

/-! ### Sweeps -/

namespace Sweep

theorem removeChosen_keeps {property : Tree → Prop} {folder : Path} {place : Place}
    {shown : String → String} {chosen : Node → Bool} {remove : Path → Act σ (Except Fault Unit)}
    {names : List String} (h : ∀ name ∈ names, Act.Keeps property (remove (folder.join name)))
    (report : SweepReport) :
    Act.Keeps property (removeChosen folder place shown chosen remove names report) := by
  induction names generalizing report with
  | nil => exact .pure _
  | cons name names ih =>
    obtain ⟨hname, hnames⟩ := List.forall_mem_cons.1 h
    rw [removeChosen]
    refine (Act.Keeps.look _).bind fun entry => ?_
    split
    · exact ih hnames report
    · split
      · exact hname.bind fun _ => ih hnames _
      · exact ih hnames report

/-- A tree that a sweep can have made of another one: it is in order, and the entries are the same. -/
structure IsSwept (start : Tree) (base : Path) (root : Place) (t t' : Tree) : Prop
    extends start.IsTended base root t' where
  entries : ∀ place, root ++ Config.cacheWay <+: place → t'.leaf? place = t.leaf? place

variable {s : Surroundings σ} (hstart : start.IsSetUp base root)
include hstart

omit hstart in
theorem not_entry_of_run {place : Place} (h : root ++ ["temp"] <+: place) :
    ¬root ++ Config.cacheWay <+: place ∧ ¬OnWay root Config.cacheWay place := by
  have hnot : ¬root ++ [".cache"] <+: place := fun hother => absurd
    (List.prefix_of_prefix_length_le h hother (by simp)) (by simp)
  exact ⟨fun hin => hnot (.trans ⟨["latex-previews"], by simp [Config.cacheWay]⟩ hin),
    fun hway => hnot hway.inside⟩

/-- The folder of a run goes with all that is in it. -/
theorem removeRun_keeps (hname : Path.IsPlain name) : Act.Keeps (IsSwept start base root t)
    (Act.removeFolder ((base.below Config.tempWay).join name) : Act σ _) := by
  refine .change fun u now u' hu hremoved => ?_
  obtain ⟨place, hlocate, hdrops⟩ := removeFolder_drops hu.isRooted hremoved
  obtain rfl := hu.tempWay.locate_last (List.cons_ne_nil _ _) hname hlocate
  have hruns : ∀ place, root ++ Config.tempWay ++ [name] <+: place → root ++ ["temp"] <+: place :=
    fun place => .trans (List.prefix_append _ _)
  have haway : ¬root ++ Config.tempWay ++ [name] <+: u.home := fun hin =>
    hstart.away (hu.home ▸ hruns _ hin)
  refine ⟨hu.toIsTended.of_less hstart (hdrops.isRooted hu.isRooted haway) hdrops.home
    (root ++ Config.tempWay ++ [name] <+: ·) (fun place => ?_) (fun place => ?_) fun place hin =>
    ⟨.inl (hruns place hin), (not_entry_of_run (hruns place hin)).2⟩, fun place hin => ?_⟩
  · rw [hdrops.leaf]
    split
    · exact .inr ⟨‹_›, rfl⟩
    · exact .inl rfl
  · rw [hdrops.folderAt]
    split
    · exact .inr ⟨‹_›, rfl⟩
    · exact .inl rfl
  · rw [hdrops.leaf, if_neg fun hrun => (not_entry_of_run (hruns place hrun)).1 hin]
    exact hu.entries place hin

theorem removeLog_keeps (hname : Path.IsPlain name) : Act.Keeps (IsSwept start base root t)
    (Act.removeFile ((base.below Config.logWay).join name) : Act σ _) := by
  refine .change fun u now u' hu hremoved => ?_
  have hlogs := hu.hasFolder Config.logWay_mem
  obtain ⟨place, hlocate, -, hsets⟩ := removeFile_sets hlogs.isRooted hremoved
  obtain rfl := hlogs.locate_eq hname hlocate
  have hrun : root ++ ["temp"] <+: root ++ Config.logWay ++ [name] := by simp [Config.logWay]
  refine ⟨hu.toIsTended.of_less hstart (hsets.isRooted hu.isRooted) hsets.home
    (· = root ++ Config.logWay ++ [name]) (fun place => ?_) (fun place => .inl ?_) ?_,
    fun place hin => ?_⟩
  · by_cases hplace : place = root ++ Config.logWay ++ [name]
    · exact .inr ⟨hplace, hplace ▸ hsets.leaf_self⟩
    · exact .inl (hsets.leaf_of_ne hplace)
  · rw [hsets.folderAt]
  · rintro place rfl
    exact ⟨.inl hrun, (not_entry_of_run hrun).2⟩
  · rw [hsets.leaf_of_ne fun hplace => (not_entry_of_run hrun).1 (hplace ▸ hin)]
    exact hu.entries place hin

omit hstart in
/-- What is listed on the ways to runs and logs has names that files can have. -/
theorem isPlain_of_openFolder (hnames : names ∈ [Config.tempWay, Config.logWay])
    (h : start.IsTended base root t) : ∀ place listed,
      t.openFolder (base.below names) = .ok (place, listed) →
      ∀ name ∈ listed, Path.IsPlain name := by
  intro place listed hopened name hname
  obtain ⟨hlocate, -, rfl⟩ := openFolder_eq_ok.1 hopened
  rcases List.mem_pair.1 hnames with rfl | rfl
  · obtain rfl := h.tempWay.locate_eq (List.cons_ne_nil _ _) hlocate
    exact h.plain _ (by simp) name (mem_children.1 hname)
  · obtain rfl := (h.hasFolder Config.logWay_mem).toHasWay.locate_eq (List.cons_ne_nil _ _) hlocate
    exact h.plain _ (by simp) name (mem_children.1 hname)

/-- What a sweep removes are runs and logs. -/
theorem run_keeps (retention : Duration) : Act.Keeps (IsSwept start base root t)
    (run (base.below Config.tempWay) retention : Act σ _) := by
  unfold run runAt
  refine Act.Keeps.bind (fun _ => id) fun now => Act.Keeps.bind (fun _ => id) fun there => ?_
  split
  · exact .pure _
  · refine Act.Keeps.look_bind fun u hu => ?_
    have hruns := isPlain_of_openFolder (List.mem_cons_self (a := Config.tempWay)) hu.toIsTended
    split
    · exact .pure _
    · rename_i place listed hopened
      refine (removeChosen_keeps (fun name hname => removeRun_keeps hstart
        (hruns place listed hopened name (List.mem_of_mem_filter hname))) _).bind fun runs => ?_
      refine Act.Keeps.look_bind fun u hu => ?_
      have hlogs := isPlain_of_openFolder (List.mem_cons_of_mem _ List.mem_cons_self) hu.toIsTended
      split
      · exact .pure _
      · rename_i place listed hopened
        exact (removeChosen_keeps (fun name hname => removeLog_keeps hstart
          (hlogs place listed hopened name hname)) _).bind fun _ => .pure _

end Sweep

/-- An action that takes no time. -/
def Act.IsInstant {α : Type} (a : Act σ α) : Prop :=
  ∀ s, (a s).2.now = s.now

namespace Act.IsInstant

variable {α β : Type}

theorem bind {a : Act σ α} {f : α → Act σ β} (h : IsInstant a) (hf : ∀ x, IsInstant (f x)) :
    IsInstant (a >>= f) :=
  fun s => (hf _ _).trans (h s)

theorem change (f : Tree → Instant → Except Fault Tree) : IsInstant (Act.change f : Act σ _) := by
  intro s
  rw [change_apply]
  cases f s.files s.now <;> rfl

end Act.IsInstant

namespace Sweep

theorem removeChosen_isInstant {folder : Path} {place : Place} {shown : String → String}
    {chosen : Node → Bool} {remove : Path → Act σ (Except Fault Unit)}
    (h : ∀ path, (remove path).IsInstant) (names : List String) (report : SweepReport) :
    (removeChosen folder place shown chosen remove names report).IsInstant := by
  induction names generalizing report with
  | nil => exact fun _ => rfl
  | cons name names ih =>
    rw [removeChosen]
    refine Act.IsInstant.bind (fun _ => rfl) fun entry => ?_
    split
    · exact ih report
    · split
      · exact (h _).bind fun _ => ih _
      · exact ih report

theorem run_isInstant (folder : Path) (retention : Duration) :
    (run folder retention : Act σ _).IsInstant := by
  unfold run runAt
  refine Act.IsInstant.bind (fun _ => rfl) fun now => Act.IsInstant.bind (fun _ => rfl) fun there => ?_
  split
  · exact fun _ => rfl
  · refine Act.IsInstant.bind (fun _ => rfl) fun listed => ?_
    split
    · exact fun _ => rfl
    · refine (removeChosen_isInstant (fun _ => .change _) _ _).bind fun runs => ?_
      refine Act.IsInstant.bind (fun _ => rfl) fun logs => ?_
      split
      · exact fun _ => rfl
      · exact (removeChosen_isInstant (fun _ => .change _) _ _).bind fun _ _ => rfl

end Sweep

namespace Press

variable {press : Press σ} {s : Surroundings σ}

theorem isAt_cache (hlaid : press.IsLaidOut base) : press.cache.IsAt base Config.cacheWay where
  folder := hlaid.cache.trans (Config.cache_rootedAt base)
  proper := by
    have hnul : ∀ name ∈ Config.cacheWay, '\x00' ∉ name.toList := by decide
    exact fun name hname =>
      ⟨(Config.isPlain_ways _ Config.cacheWay_mem name hname).1, hnul name hname⟩
  short := fun name hname => (Config.isPlain_ways _ Config.cacheWay_mem name hname).2
  ends := nofun

theorem sweep_apply (press : Press σ) (s : Surroundings σ) :
    (press.sweep s).2 = (press.cache.evictAt (Sweep.run press.config.temp press.config.runRetention s).2.now
      (Sweep.run press.config.temp press.config.runRetention s).2).2 := by
  rw [sweep, Act.bind_apply]
  rcases Sweep.run press.config.temp press.config.runRetention s with ⟨e | report, s⟩ <;> rfl

/-- A sweep leaves entries that are fresh as they are. -/
theorem sweep_tended (hstart : start.IsSetUp base root) (hlaid : press.IsLaidOut base)
    (h : start.IsTended base root s.files) :
    start.IsTended base root (press.sweep s).2.files ∧
      ∀ name node, s.files.leaf? (root ++ Config.cacheWay ++ [name]) = some node →
        press.cache.isFresh s.now node = true →
          (press.sweep s).2.files.leaf? (root ++ Config.cacheWay ++ [name]) = some node := by
  have htemp : press.config.temp = base.below Config.tempWay := hlaid.temp
  have hnow := Sweep.run_isInstant press.config.temp press.config.runRetention s
  have hswept := Sweep.run_keeps (σ := σ) hstart press.config.runRetention s ⟨h, fun _ _ => rfl⟩
  rw [sweep_apply, hnow]
  rw [← htemp] at hswept
  generalize (Sweep.run press.config.temp press.config.runRetention s).2 = swept at hswept
  have htidy : ∀ name, swept.files.get? (root ++ Config.cacheWay ++ [name]) ≠ none →
      press.cache.Tidy swept.files (root ++ Config.cacheWay) name := fun name hthere _ =>
    ⟨hswept.plain _ (by simp) name hthere, hswept.inside _ Config.cacheWay_mem name⟩
  obtain ⟨gone, files, heq, -, hloses, hgone⟩ :=
    Cache.evictAt_below s.now (isAt_cache hlaid) hswept.cacheWay htidy
  rw [heq]
  refine ⟨hswept.toIsTended.of_less hstart (hloses.isRooted hswept.isRooted) hloses.home
    (fun place => ∃ name ∈ gone, place = root ++ Config.cacheWay ++ [name]) (fun place => ?_)
    (fun place => .inl (by rw [hloses.folderAt])) ?_, fun name node hleaf hfresh => ?_⟩
  · by_cases hplace : ∃ name ∈ gone, place = root ++ Config.cacheWay ++ [name]
    · obtain ⟨name, hname, rfl⟩ := hplace
      exact .inr ⟨⟨name, hname, rfl⟩, hloses.lost name hname⟩
    · exact .inl (hloses.leaf place hplace)
  · rintro place ⟨name, -, rfl⟩
    exact ⟨isInner_of_inFolder (List.mem_cons_of_mem _ List.mem_cons_self) ⟨name, rfl⟩,
      Cache.not_onWay_of_concat⟩
  · have hsame : swept.files.leaf? (root ++ Config.cacheWay ++ [name]) = some node :=
      (hswept.entries _ (List.prefix_append _ _)).trans hleaf
    have hkept : name ∉ gone := fun hname => by
      obtain ⟨other, hother, hstale⟩ := ((hgone name).1 hname).stale
      obtain rfl := Option.some.inj (hsame.symm.trans hother)
      rw [hfresh] at hstale
      cases hstale
    exact (hloses.leaf_of_not_mem hkept).trans hsame

end Press

end ResumePress
