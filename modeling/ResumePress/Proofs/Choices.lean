import ResumePress.Proofs.Resolution

/-!
What a resolution chooses. The names that are declared stay in the order in which they come first,
without those that another package supersedes; and of the texts that declare a name, the first with
options stands for it, or else the first.
-/

namespace ResumePress.Latex

theorem Declaration.priority_of_parse? {raw : String} {d : Declaration}
    (h : Declaration.parse? raw = some d) :
    d.priority = if d.options.isSome then optionsPriority else barePriority := by
  unfold Declaration.parse? at h
  split at h
  · cases h
  · obtain ⟨name, -, rfl⟩ := Option.map_eq_some_iff.1 h
    rfl

namespace Resolution

variable {d e : Declaration} {slots declared : List Declaration} {name : String} {raw : List String}

/-- The names that raw texts declare, each once, in the order in which they come first. -/
def firstNames (raw : List String) : List String :=
  (names (raw.filterMap Declaration.parse?)).eraseDups

/-- The names without a package that is declared together with one that supersedes it. -/
def keptNames (raw : List String) : List String :=
  let all := firstNames raw
  all.filter fun name =>
    !(name == "fontenc" && all.contains "fontspec" ||
      name == "amsmath" && all.contains "unicode-math")

/-- The text that stands for a name: the first that declares it with options, or else the first that
declares it. -/
def chosen? (raw : List String) (name : String) : Option String :=
  (raw.find? fun r => (Declaration.parse? r).any fun d => d.name == name && d.options.isSome).or
    (raw.find? fun r => (Declaration.parse? r).any fun d => d.name == name)

/-! ### Names -/

theorem names_merge (declared : List Declaration) :
    names (merge declared) = (names declared).eraseDups := by
  induction declared using List.reverseRecOn with
  | nil => rfl
  | append_singleton declared d ih =>
    have hsnoc : names (declared ++ [d]) = names declared ++ [d.name] := List.map_append
    have hmem : d.name ∈ names (merge declared) ↔ d.name ∈ names declared := mem_names_merge
    rw [merge_snoc, names_insert, hsnoc, List.eraseDups_append, ← ih]
    by_cases h : d.name ∈ names declared
    · rw [if_pos (hmem.2 h)]
      simp [List.removeAll, h]
    · rw [if_neg (mt hmem.1 h)]
      simp [List.removeAll, List.eraseDups_cons, h]

theorem names_named (test : String → Bool) (slots : List Declaration) :
    names (named test slots) = (names slots).filter test := by
  rw [names, named, names, List.filter_map]
  rfl

theorem names_arrange (slots : List Declaration) :
    names (arrange slots) =
      ((names slots).filter fun name => !isSuperseded slots name).filter isCommon ++
        ((names slots).filter fun name => !isSuperseded slots name).filter (!isCommon ·) := by
  rw [← names_named, ← names_named, ← names_named]
  exact List.map_append

theorem isSuperseded_merge (raw : List String) (name : String) :
    isSuperseded (merge (raw.filterMap Declaration.parse?)) name =
      (name == "fontenc" && (firstNames raw).contains "fontspec" ||
        name == "amsmath" && (firstNames raw).contains "unicode-math") := by
  rw [Bool.eq_iff_iff, isSuperseded_eq_true, firstNames, ← names_merge]
  simp [supersessions, @eq_comm _ _ name]

theorem names_arrange_merge (raw : List String) :
    names (arrange (merge (raw.filterMap Declaration.parse?))) =
      (keptNames raw).filter isCommon ++ (keptNames raw).filter (!isCommon ·) := by
  rw [names_arrange, keptNames, firstNames, ← names_merge]
  simp only [isSuperseded_merge, firstNames, ← names_merge]

/-! ### One text for each name -/

/-- Of the declarations of a name the first with options, or else the first. -/
def best? (declared : List Declaration) (name : String) : Option Declaration :=
  (declared.find? fun d => d.name == name && d.options.isSome).or
    (declared.find? fun d => d.name == name)

theorem chosen?_eq (raw : List String) (name : String) :
    chosen? raw name = (best? (raw.filterMap Declaration.parse?) name).map Declaration.text := by
  have hfind : ∀ p : Declaration → Bool,
      ((raw.filterMap Declaration.parse?).find? p).map Declaration.text =
        raw.find? fun r => (Declaration.parse? r).any p := by
    intro p
    rw [List.find?_filterMap]
    cases hfound : raw.find? fun r => (Declaration.parse? r).any p with
    | none => rfl
    | some r =>
      have hany := List.find?_some hfound
      obtain ⟨d, hread, -⟩ := (Option.any_eq_true _ _).1 hany
      rw [Option.bind_some, hread, Option.map_some, Declaration.text_of_parse? hread]
  rw [chosen?, best?, Option.map_or, hfind, hfind]

/-- The slot of a name, with one more declaration of the name. -/
def better (slot : Option Declaration) (d : Declaration) : Declaration :=
  match slot with
  | none => d
  | some e => if e.priority < d.priority then d else e

theorem find?_insert (d : Declaration) (slots : List Declaration) (name : String) :
    (insert d slots).find? (·.name == name) =
      if d.name = name then some (better (slots.find? (·.name == name)) d)
      else slots.find? (·.name == name) := by
  induction slots with
  | nil => by_cases h : d.name = name <;> simp [insert, better, h]
  | cons e slots ih =>
    by_cases hslot : e.name = d.name
    · by_cases h : d.name = name <;> by_cases hpriority : e.priority < d.priority <;>
        simp [insert, better, hslot, h, hpriority]
    · by_cases he : e.name = name
      · have h : d.name ≠ name := fun h => hslot (he.trans h.symm)
        have hkept : insert d (e :: slots) = e :: insert d slots := if_neg hslot
        simp [hkept, he, h]
      · simp [insert, hslot, he, ih]

/-- A declaration with options comes before one without, whatever came first. -/
theorem best?_snoc (hranked : ∀ e ∈ declared ++ [d],
      e.priority = if e.options.isSome then Declaration.optionsPriority else Declaration.barePriority)
    (name : String) :
    best? (declared ++ [d]) name =
      if d.name = name then some (better (best? declared name) d) else best? declared name := by
  have hd := hranked d (by simp)
  rw [best?, best?, List.find?_append, List.find?_append]
  by_cases hname : d.name = name
  · cases hfull : declared.find? fun e => e.name == name && e.options.isSome with
    | some e =>
      -- a slot with options is never lost
      have he := hranked e (List.mem_append_left _ (List.mem_of_find?_eq_some hfull))
      have hfound := List.find?_some hfull
      have hoptions : e.options.isSome = true := (Bool.and_eq_true_iff.1 hfound).2
      have hless : ¬e.priority < d.priority := by
        rw [he, hd, hoptions, if_pos rfl, Declaration.optionsPriority, Declaration.barePriority]
        split <;> omega
      simp [better, hname, hless]
    | none =>
      cases hbare : declared.find? fun e => e.name == name with
      | none => cases h : d.options.isSome <;> simp [better, hname, h]
      | some e =>
        have he := hranked e (List.mem_append_left _ (List.mem_of_find?_eq_some hbare))
        have hnone : e.options.isSome = false := by
          have hfree := List.find?_eq_none.1 hfull e (List.mem_of_find?_eq_some hbare)
          have hfound := List.find?_some hbare
          simpa [hfound] using hfree
        rw [hnone, if_neg Bool.false_ne_true] at he
        cases hoptions : d.options.isSome <;> rw [hoptions] at hd <;>
          simp [better, hname, hoptions, he, hd, Declaration.optionsPriority,
            Declaration.barePriority]
  · simp [hname]

theorem find?_merge (hranked : ∀ e ∈ declared,
      e.priority = if e.options.isSome then Declaration.optionsPriority else Declaration.barePriority)
    (name : String) : (merge declared).find? (·.name == name) = best? declared name := by
  induction declared using List.reverseRecOn with
  | nil => rfl
  | append_singleton declared d ih =>
    rw [merge_snoc, find?_insert, best?_snoc hranked,
      ih fun e he => hranked e (List.mem_append_left _ he)]

/-- A declaration is found by its name where no other one has the name. -/
theorem find?_of_nodup (hnodup : (names slots).Nodup) (hd : d ∈ slots) :
    slots.find? (·.name == d.name) = some d := by
  cases hfound : slots.find? (·.name == d.name) with
  | none => exact absurd (List.find?_eq_none.1 hfound d hd) (by simp)
  | some e =>
    have hname : e.name = d.name := by simpa using List.find?_some hfound
    rw [List.inj_on_of_nodup_map hnodup (List.mem_of_find?_eq_some hfound) hd hname]

theorem chosen?_of_mem (hd : d ∈ arrange (merge (raw.filterMap Declaration.parse?))) :
    chosen? raw d.name = some d.text := by
  have hranked : ∀ e ∈ raw.filterMap Declaration.parse?, e.priority =
      if e.options.isSome then Declaration.optionsPriority else Declaration.barePriority := by
    intro e he
    obtain ⟨r, -, hread⟩ := List.mem_filterMap.1 he
    exact Declaration.priority_of_parse? hread
  rw [chosen?_eq, ← find?_merge hranked,
    find?_of_nodup (nodup_names_merge _) (mem_arrange.1 hd).1, Option.map_some]

/-- A resolution reports the texts that declare nothing, and consists of one text for each name that
is kept, the common names first. -/
theorem ofDeclarations_eq (raw : List String) :
    (ofDeclarations raw).skipped = raw.filter (fun r => Declaration.parse? r = none) ∧
      (ofDeclarations raw).packages.map some =
        ((keptNames raw).filter isCommon ++ (keptNames raw).filter (!isCommon ·)).map (chosen? raw) ∧
      names ((ofDeclarations raw).packages.filterMap Declaration.parse?) =
        (keptNames raw).filter isCommon ++ (keptNames raw).filter (!isCommon ·) ∧
      (keptNames raw).Nodup := by
  have hpackages : (ofDeclarations raw).packages =
      (arrange (merge (raw.filterMap Declaration.parse?))).map Declaration.text := rfl
  refine ⟨?_, ?_, ?_, ?_⟩
  · refine List.filter_congr fun r _ => ?_
    cases Declaration.parse? r <;> simp
  · rw [hpackages, ← names_arrange_merge, names, List.map_map, List.map_map]
    exact List.map_congr_left fun d hd => (chosen?_of_mem hd).symm
  · rw [← names_arrange_merge]
    exact congrArg names (filterMap_parse?_resolve raw)
  · have hnodup : (firstNames raw).Nodup := by
      rw [firstNames, ← names_merge]
      exact nodup_names_merge _
    exact hnodup.filter _

end Resolution

end ResumePress.Latex
