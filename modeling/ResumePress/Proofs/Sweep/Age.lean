import ResumePress.Proofs.Sweep.Clearing

/-!
What is old in a root of runs, and trees without it. What is old stays so as time goes on; therefore a
tree without what was old at one time and then without what is old later is a tree without the latter.
-/

namespace ResumePress.Sweep

open Files Files.Tree

variable {t t' v : Tree} {place : Place} {chosen : Node → Bool} {name : String}

/-- A folder of a run that is older than the retention. -/
def IsStaleRun (t : Tree) (place : Place) (retention : Duration) (now : Instant) (name : String) :
    Prop :=
  name.startsWith Workspace.namePrefix = true ∧
    IsChosen (fun node => node.entry.isFolder && isStale retention now node) t place name

/-- A log that is older than the retention: a file directly in the folder of logs. -/
def IsStaleLog (t : Tree) (place : Place) (retention : Duration) (now : Instant) (name : String) :
    Prop :=
  IsChosen (fun node => node.entry.isFile && isStale retention now node) t (place ++ [logFolder]) name

/-- What a sweep is to remove: old runs with all that is in them, and old logs. -/
def Goes (t : Tree) (place : Place) (retention : Duration) (now : Instant) (other : Place) : Prop :=
  (∃ name, IsStaleRun t place retention now name ∧ place ++ [name] <+: other) ∨
    ∃ name, IsStaleLog t place retention now name ∧ other = place ++ [logFolder, name]

/-- The folders from which something is to be removed: the root of runs, unless it is the root of the
tree, and the folder of logs. -/
def IsTouched (t : Tree) (place : Place) (retention : Duration) (now : Instant) (other : Place) :
    Prop :=
  (other = place ∧ place ≠ [] ∧ ∃ name, IsStaleRun t place retention now name) ∨
    (other = place ++ [logFolder] ∧ ∃ name, IsStaleLog t place retention now name)

/-- A tree after a sweep at a time: exactly what is old is gone, and nothing else differs but the times
of the folders that it was in, which are some of the times at which it was removed. -/
structure IsSweptAt (t t' : Tree) (place : Place) (retention : Duration) (now : Instant)
    (times : List Instant) : Prop where
  home : t'.home = t.home
  gone : ∀ other, Goes t place retention now other → t'.get? other = none
  touched : ∀ other, IsTouched t place retention now other →
    ∃ time ∈ times, t'.get? other = (t.get? other).map (Node.touched time)
  kept : ∀ other, ¬Goes t place retention now other → ¬IsTouched t place retention now other →
    t'.get? other = t.get? other

/-- Trees with the same entries in every place, and with the same times but for some of the folders. -/
structure AgreesBut (t t' : Tree) (spared : Place → Prop) : Prop where
  home : t'.home = t.home
  entry : ∀ other, (t'.get? other).map Node.entry = (t.get? other).map Node.entry
  get : ∀ other, ¬spared other → t'.get? other = t.get? other

variable {retention : Duration} {now earlier clock clock' : Instant} {times times' : List Instant}
  {gone logs : List String} {mid : Tree}

theorem isStale_mono {node : Node} (hle : earlier ≤ now) (h : isStale retention earlier node = true) :
    isStale retention now node = true := by
  have hage : Instant.since earlier node.modified ≤ Instant.since now node.modified :=
    Nat.sub_le_sub_right hle _
  exact decide_eq_true (Nat.lt_of_lt_of_le (of_decide_eq_true h) hage)

theorem IsChosen.mono {chosen' : Node → Bool} (h : IsChosen chosen t folder name)
    (himp : ∀ node, chosen node = true → chosen' node = true) : IsChosen chosen' t folder name := by
  obtain ⟨node, hget, hnode⟩ := h
  exact ⟨node, hget, himp node hnode⟩

theorem IsStaleRun.mono (hle : earlier ≤ now) (h : IsStaleRun t place retention earlier name) :
    IsStaleRun t place retention now name := by
  refine ⟨h.1, h.2.mono fun node hnode => ?_⟩
  obtain ⟨hfolder, hstale⟩ := Bool.and_eq_true_iff.1 hnode
  exact Bool.and_eq_true_iff.2 ⟨hfolder, isStale_mono hle hstale⟩

theorem IsStaleLog.mono (hle : earlier ≤ now) (h : IsStaleLog t place retention earlier name) :
    IsStaleLog t place retention now name := by
  refine IsChosen.mono h fun node hnode => ?_
  obtain ⟨hfile, hstale⟩ := Bool.and_eq_true_iff.1 hnode
  exact Bool.and_eq_true_iff.2 ⟨hfile, isStale_mono hle hstale⟩

theorem IsStaleLog.leaf? (h : IsStaleLog t place retention now name)
    (hsame : v.get? (place ++ [logFolder] ++ [name]) = t.get? (place ++ [logFolder] ++ [name])) :
    v.leaf? (place ++ [logFolder] ++ [name]) ≠ none := by
  obtain ⟨node, hget, hnode⟩ := h
  have hfile := Entry.isFolder_of_isFile (Bool.and_eq_true_iff.1 hnode).1
  rw [leaf?_eq_some.2 ⟨hsame.trans hget, hfile⟩]
  exact Option.some_ne_none node

theorem IsStaleLog.folderAt (h : IsStaleLog t place retention now name) :
    t.folderAt (place ++ [logFolder] ++ [name]) = false := by
  obtain ⟨node, hleaf⟩ := Option.ne_none_iff_exists'.1 (h.leaf? rfl)
  exact folderAt_of_leaf? hleaf

/-- The folder of logs is not the folder of a run. -/
theorem not_below_logs (hname : name.startsWith Workspace.namePrefix = true) (rest : Place) :
    ¬place ++ [name] <+: place ++ logFolder :: rest := by
  rw [List.prefix_append_right_inj, List.cons_prefix_cons]
  rintro ⟨rfl, -⟩
  have hother : logFolder.startsWith Workspace.namePrefix = false := by decide +kernel
  rw [hother] at hname
  cases hname

/-- What is in the folder of logs stays when runs are removed. -/
theorem get?_logs (hsheds : t.Sheds mid place gone clock)
    (hgone : ∀ name ∈ gone, name.startsWith Workspace.namePrefix = true) (rest : Place) :
    mid.get? (place ++ logFolder :: rest) = t.get? (place ++ logFolder :: rest) := by
  rw [hsheds.get, if_neg, if_neg]
  · exact fun h => by simpa using h.1
  · rintro ⟨name, hname, hbelow⟩
    exact not_below_logs (hgone name hname) rest hbelow

/-- A sweep is done when the old runs and then the old logs are gone. -/
theorem IsSweptAt.of_sheds (hground : t.IsGrounded) (hruns : t.Sheds mid place gone clock)
    (hgone : ∀ name, name ∈ gone ↔ IsStaleRun t place retention now name)
    (hlogs : mid.Sheds t' (place ++ [logFolder]) logs clock)
    (hold : ∀ name, name ∈ logs ↔ IsStaleLog t place retention now name) :
    IsSweptAt t t' place retention now [clock] := by
  have hnamed : ∀ name ∈ gone, name.startsWith Workspace.namePrefix = true :=
    fun name hname => ((hgone name).1 hname).1
  have hget : ∀ other, t'.get? other =
      if ∃ name ∈ logs, place ++ [logFolder] ++ [name] <+: other then none
      else if other = place ++ [logFolder] ∧ logs ≠ [] then
        (mid.get? other).map (Node.touched clock)
      else mid.get? other := fun other => by
    simpa using hlogs.get other
  have hempty : ∀ names : List String, (∃ name, name ∈ names) ↔ names ≠ [] := fun names =>
    ⟨fun ⟨_, hname⟩ => List.ne_nil_of_mem hname, List.exists_mem_of_ne_nil names⟩
  refine ⟨hlogs.home.trans hruns.home, ?_, ?_, ?_⟩
  · rintro other (⟨name, hname, hbelow⟩ | ⟨name, hname, rfl⟩)
    · rw [hget, hruns.get?_of_below ((hgone name).2 hname) hbelow]
      simp
    · rw [hget, if_pos ⟨name, (hold name).2 hname, by simp⟩]
  · refine fun other htouched => ⟨clock, List.mem_singleton_self _, ?_⟩
    rcases htouched with ⟨rfl, hne, hstale⟩ | ⟨rfl, hstale⟩
    · have hsome : gone ≠ [] := (hempty gone).1 (hstale.imp fun name => (hgone name).2)
      have hfree : ¬∃ name ∈ gone, other ++ [name] <+: other :=
        fun ⟨name, _, hbelow⟩ => not_below_folder other name hbelow
      have hfree' : ¬∃ name ∈ logs, other ++ [logFolder] ++ [name] <+: other :=
        fun ⟨name, _, hbelow⟩ => absurd hbelow.length_le (by simp)
      rw [hget, if_neg hfree', if_neg fun h => by simpa using h.1, hruns.get, if_neg hfree,
        if_pos ⟨rfl, hne, hsome⟩]
    · have hsome : logs ≠ [] := (hempty logs).1 (hstale.imp fun name => (hold name).2)
      have hfree : ¬∃ name ∈ logs, place ++ [logFolder] ++ [name] <+: place ++ [logFolder] :=
        fun ⟨name, _, hbelow⟩ => not_below_folder _ name hbelow
      rw [hget, if_neg hfree, if_pos ⟨rfl, hsome⟩, get?_logs hruns hnamed []]
  · intro other hgoes htouched
    have hmid : mid.get? other = t.get? other := by
      rw [hruns.get, if_neg, if_neg]
      · rintro ⟨rfl, hne, hsome⟩
        refine htouched (.inl ⟨rfl, hne, ?_⟩)
        exact ((hempty gone).2 hsome).imp fun name => (hgone name).1
      · rintro ⟨name, hname, hbelow⟩
        exact hgoes (.inl ⟨name, (hgone name).1 hname, hbelow⟩)
    rw [hget]
    split
    · rename_i hbelow
      -- nothing stands below a file
      obtain ⟨name, hname, rest, rfl⟩ := hbelow
      have hrest : rest ≠ [] := by
        rintro rfl
        exact hgoes (.inr ⟨name, (hold name).1 hname, by simp⟩)
      exact (hground.get?_append ((hold name).1 hname).folderAt hrest).symm
    · rw [if_neg, hmid]
      rintro ⟨rfl, hsome⟩
      refine htouched (.inr ⟨rfl, ?_⟩)
      exact ((hempty logs).2 hsome).imp fun name => (hold name).1

/-! ### One sweep after the other -/

theorem goes_run_iff (hname : name.startsWith Workspace.namePrefix = true) :
    Goes t place retention now (place ++ [name]) ↔ IsStaleRun t place retention now name := by
  constructor
  · rintro (⟨other, hother, hbelow⟩ | ⟨other, -, heq⟩)
    · have heq := hbelow.eq_of_length (by simp)
      obtain rfl : other = name := by simpa using heq
      exact hother
    · simp at heq
  · exact fun h => .inl ⟨name, h, List.prefix_rfl⟩

theorem goes_log_iff :
    Goes t place retention now (place ++ [logFolder, name]) ↔
      IsStaleLog t place retention now name := by
  constructor
  · rintro (⟨other, hother, hbelow⟩ | ⟨other, hother, heq⟩)
    · exact absurd hbelow (not_below_logs hother.1 [name])
    · obtain rfl : other = name := by simpa using heq.symm
      exact hother
  · exact fun h => .inr ⟨name, h, rfl⟩

theorem not_goes_root : ¬Goes t place retention now place := by
  rintro (⟨name, -, hbelow⟩ | ⟨name, -, heq⟩)
  · exact not_below_folder place name hbelow
  · simp at heq

theorem not_goes_logs : ¬Goes t place retention now (place ++ [logFolder]) := by
  rintro (⟨name, hname, hbelow⟩ | ⟨name, -, heq⟩)
  · exact not_below_logs hname.1 [] hbelow
  · simp at heq

theorem Goes.mono {other : Place} (hle : earlier ≤ now) (h : Goes t place retention earlier other) :
    Goes t place retention now other :=
  h.imp (fun ⟨name, hname, hbelow⟩ => ⟨name, hname.mono hle, hbelow⟩)
    fun ⟨name, hname, heq⟩ => ⟨name, hname.mono hle, heq⟩

theorem IsTouched.not_goes {other : Place} (h : IsTouched t place retention now other) :
    ¬Goes t place retention earlier other := by
  rcases h with ⟨rfl, -⟩ | ⟨rfl, -⟩
  · exact not_goes_root
  · exact not_goes_logs

theorem not_isTouched_run (hname : name.startsWith Workspace.namePrefix = true) :
    ¬IsTouched t place retention now (place ++ [name]) := by
  rintro (⟨heq, -⟩ | ⟨heq, -⟩)
  · simp at heq
  · exact not_below_logs hname [] ⟨[], by rw [List.append_nil, heq]⟩

theorem not_isTouched_log : ¬IsTouched t place retention now (place ++ [logFolder, name]) := by
  rintro (⟨heq, -⟩ | ⟨heq, -⟩)
  · simp at heq
  · simp at heq

namespace IsSweptAt

variable (h : IsSweptAt t mid place retention earlier times)
include h

theorem get?_eq_none {other : Place} (hnone : t.get? other = none) : mid.get? other = none := by
  by_cases hgoes : Goes t place retention earlier other
  · exact h.gone other hgoes
  · by_cases htouched : IsTouched t place retention earlier other
    · obtain ⟨time, -, hget⟩ := h.touched other htouched
      rw [hget, hnone, Option.map_none]
    · rw [h.kept other hgoes htouched, hnone]

theorem folderAt_eq {other : Place} (hnot : ¬Goes t place retention earlier other) :
    mid.folderAt other = t.folderAt other := by
  rw [Tree.folderAt, Tree.folderAt]
  by_cases htouched : IsTouched t place retention earlier other
  · obtain ⟨time, -, hget⟩ := h.touched other htouched
    rw [hget]
    cases t.get? other <;> rfl
  · rw [h.kept other hnot htouched]

/-- What is old now was old before, or is found now. -/
theorem isStaleRun_iff (hle : earlier ≤ now) : IsStaleRun t place retention now name ↔
    IsStaleRun t place retention earlier name ∨ IsStaleRun mid place retention now name := by
  have hsame : name.startsWith Workspace.namePrefix = true →
      ¬IsStaleRun t place retention earlier name →
        mid.get? (place ++ [name]) = t.get? (place ++ [name]) := fun hname hnot =>
    h.kept _ (mt (goes_run_iff hname).1 hnot) (not_isTouched_run hname)
  constructor
  · rintro ⟨hname, node, hget, hnode⟩
    refine Classical.or_iff_not_imp_left.2 fun hnot => ⟨hname, node, ?_, hnode⟩
    rw [hsame hname hnot, hget]
  · rintro (hstale | ⟨hname, node, hget, hnode⟩)
    · exact hstale.mono hle
    · refine ⟨hname, node, ?_, hnode⟩
      rw [← hsame hname, hget]
      intro hstale
      rw [h.gone _ ((goes_run_iff hname).2 hstale)] at hget
      cases hget

theorem isStaleLog_iff (hle : earlier ≤ now) : IsStaleLog t place retention now name ↔
    IsStaleLog t place retention earlier name ∨ IsStaleLog mid place retention now name := by
  have hplace : place ++ [logFolder] ++ [name] = place ++ [logFolder, name] := by simp
  have hsame : ¬IsStaleLog t place retention earlier name →
      mid.get? (place ++ [logFolder] ++ [name]) = t.get? (place ++ [logFolder] ++ [name]) := by
    intro hnot
    rw [hplace]
    exact h.kept _ (mt goes_log_iff.1 hnot) not_isTouched_log
  constructor
  · rintro ⟨node, hget, hnode⟩
    refine Classical.or_iff_not_imp_left.2 fun hnot => ⟨node, ?_, hnode⟩
    rw [hsame hnot, hget]
  · rintro (hstale | ⟨node, hget, hnode⟩)
    · exact hstale.mono hle
    · refine ⟨node, ?_, hnode⟩
      rw [← hsame, hget]
      intro hstale
      rw [hplace, h.gone _ (goes_log_iff.2 hstale)] at hget
      cases hget

/-- After a sweep nothing is old. -/
theorem not_isStaleRun : ¬IsStaleRun mid place retention earlier name := by
  intro hstale
  have hbefore := (h.isStaleRun_iff (Nat.le_refl earlier)).2 (.inr hstale)
  obtain ⟨-, node, hget, -⟩ := hstale
  rw [h.gone _ ((goes_run_iff hbefore.1).2 hbefore)] at hget
  cases hget

theorem not_isStaleLog : ¬IsStaleLog mid place retention earlier name := by
  intro hstale
  have hbefore := (h.isStaleLog_iff (Nat.le_refl earlier)).2 (.inr hstale)
  obtain ⟨node, hget, -⟩ := hstale
  rw [List.append_assoc, List.singleton_append, h.gone _ (goes_log_iff.2 hbefore)] at hget
  cases hget

theorem goes_iff (hle : earlier ≤ now) (other : Place) : Goes t place retention now other ↔
    Goes t place retention earlier other ∨ Goes mid place retention now other := by
  simp only [Goes, h.isStaleRun_iff hle, h.isStaleLog_iff hle, or_and_right, exists_or]
  exact or_or_or_comm

theorem isTouched_iff (hle : earlier ≤ now) (other : Place) :
    IsTouched t place retention now other ↔
      IsTouched t place retention earlier other ∨ IsTouched mid place retention now other := by
  simp only [IsTouched, h.isStaleRun_iff hle, h.isStaleLog_iff hle, exists_or, and_or_left]
  exact or_or_or_comm

/-- A sweep after an earlier one does what it does alone, but at another time. -/
theorem trans (hle : earlier ≤ now) (h' : IsSweptAt mid t' place retention now times') :
    IsSweptAt t t' place retention now (times ++ times') := by
  refine ⟨h'.home.trans h.home, fun other hgoes => ?_, fun other htouched => ?_,
    fun other hgoes htouched => ?_⟩
  · rcases (h.goes_iff hle other).1 hgoes with hgoes | hgoes
    · exact h'.get?_eq_none (h.gone other hgoes)
    · exact h'.gone other hgoes
  · by_cases hthen : IsTouched mid place retention now other
    · obtain ⟨time, htime, hget⟩ := h'.touched other hthen
      refine ⟨time, List.mem_append_right _ htime, hget.trans ?_⟩
      by_cases hbefore : IsTouched t place retention earlier other
      · obtain ⟨before, -, hmid⟩ := h.touched other hbefore
        rw [hmid, Option.map_map]
        rfl
      · rw [h.kept other htouched.not_goes hbefore]
    · have hgoes : ¬Goes mid place retention now other := fun hgoes =>
        htouched.not_goes ((h.goes_iff hle other).2 (.inr hgoes))
      have hbefore := ((h.isTouched_iff hle other).1 htouched).resolve_right hthen
      obtain ⟨time, htime, hget⟩ := h.touched other hbefore
      exact ⟨time, List.mem_append_left _ htime, (h'.kept other hgoes hthen).trans hget⟩
  · rw [h.goes_iff hle, not_or] at hgoes
    rw [h.isTouched_iff hle, not_or] at htouched
    rw [h'.kept other hgoes.2 htouched.2, h.kept other hgoes.1 htouched.1]

end IsSweptAt

/-- Two ways to sweep a tree differ at most in the times of the folders. -/
theorem IsSweptAt.agreesBut (h : IsSweptAt t t' place retention now [clock])
    (hv : IsSweptAt t v place retention now [clock, clock']) :
    AgreesBut t' v fun other => IsTouched t place retention now other ∧ clock' ≠ clock := by
  refine ⟨hv.home.trans h.home.symm, fun other => ?_, fun other hspared => ?_⟩
  · by_cases hgoes : Goes t place retention now other
    · rw [h.gone other hgoes, hv.gone other hgoes]
    · by_cases htouched : IsTouched t place retention now other
      · obtain ⟨time, -, hget⟩ := h.touched other htouched
        obtain ⟨time', -, hget'⟩ := hv.touched other htouched
        rw [hget, hget', Option.map_map, Option.map_map]
        rfl
      · rw [h.kept other hgoes htouched, hv.kept other hgoes htouched]
  · by_cases hgoes : Goes t place retention now other
    · rw [h.gone other hgoes, hv.gone other hgoes]
    · by_cases htouched : IsTouched t place retention now other
      · have hclock : clock' = clock := Classical.not_not.1 fun hne => hspared ⟨htouched, hne⟩
        subst hclock
        obtain ⟨time, htime, hget⟩ := h.touched other htouched
        obtain ⟨time', htime', hget'⟩ := hv.touched other htouched
        obtain rfl : time = clock' := by simpa using htime
        obtain rfl : time' = time := by simpa using htime'
        rw [hget, hget']
      · rw [h.kept other hgoes htouched, hv.kept other hgoes htouched]

end ResumePress.Sweep
