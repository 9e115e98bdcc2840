import ResumePress.Proofs.Latex.Uses

/-!
Amendments of settled texts. Uses get other arguments, and notes go before commands, behind line
feeds and into options. As notes start no use and end no options, nothing else is read off the
amended text than the amended uses.
-/

namespace ResumePress.Latex

/-- A text that starts no use and ends no options, and that no options or argument start with. -/
structure IsNote (n : List Char) : Prop where
  head : n ≠ [] → n.head? = some '%'
  backslash : '\\' ∉ n
  bracket : ']' ∉ n

theorem isNote_nil : IsNote [] :=
  ⟨fun h => absurd rfl h, List.not_mem_nil, List.not_mem_nil⟩

theorem IsNote.append {n m : List Char} (hn : IsNote n) (hm : IsNote m) : IsNote (n ++ m) := by
  refine ⟨?_, by simp [hn.backslash, hm.backslash], by simp [hn.bracket, hm.bracket]⟩
  cases n with
  | nil => exact hm.head
  | cons c n => exact fun _ => hn.head (List.cons_ne_nil c n)

/-- Behind its start a note may go on with any text that has no backslash and no bracket in it. -/
theorem IsNote.extend {n s : List Char} (hn : IsNote n) (hne : n ≠ []) (hbackslash : '\\' ∉ s)
    (hbracket : ']' ∉ s) : IsNote (n ++ s) := by
  refine ⟨?_, by simp [hn.backslash, hbackslash], by simp [hn.bracket, hbracket]⟩
  obtain ⟨c, n, rfl⟩ := List.exists_cons_of_ne_nil hne
  exact fun _ => hn.head hne

namespace Directive

/-- The name of a directive is a backslash with a word that has nothing special in it. -/
def IsCommand (d : Directive) : Prop :=
  ∃ word, d.name = '\\' :: word ∧ ∀ c ∈ word, c ≠ '\\' ∧ c ≠ '\n' ∧ c ≠ '%' ∧ c ≠ ']'

/-- Whether an argument may stand in the place of another one behind an open bracket. -/
def Fits (argument fresh : List Char) : Prop :=
  fresh = argument ∨ '\x7b' ∉ fresh ∧ (']' ∈ argument → ']' ∈ fresh)

/-- The amendments of settled texts with what they do to the uses. -/
inductive Amends (d : Directive) : List Char → List Use → List Char → List Use → Prop
  | nil : d.Amends [] [] [] []
  | plain {c : Char} {before after s s' : List Char} {uses uses' : List Use} :
      IsNote before → IsNote after → (before ≠ [] → c = '\\') → (after ≠ [] → c = '\n') →
      d.blocks (c :: s) = true → d.Amends s uses s' uses' →
      d.Amends (c :: s) uses (before ++ c :: (after ++ s')) uses'
  | use {use use' : Use} {before s s' : List Char} {uses uses' : List Use} :
      IsNote before → d.IsUse use → d.IsUse use' → (use.options = none → use'.options = none) →
      Fits use.argument use'.argument → d.Amends s uses s' uses' →
      d.Amends (d.written use ++ s) (use :: uses) (before ++ (d.written use' ++ s'))
        (use' :: uses')

variable {d : Directive} {use use' : Use} {s s' : List Char} {uses uses' : List Use} {c : Char}

theorem Amends.cons (hblocks : d.blocks (c :: s) = true) (h : d.Amends s uses s' uses') :
    d.Amends (c :: s) uses (c :: s') uses' :=
  .plain isNote_nil isNote_nil nofun nofun hblocks h

theorem Amends.written (huse : d.IsUse use) (h : d.Amends s uses s' uses') :
    d.Amends (d.written use ++ s) (use :: uses) (d.written use ++ s') (use :: uses') :=
  .use isNote_nil huse huse id (.inl rfl) h

theorem Amends.refl (h : d.Settles s uses) : d.Amends s uses s uses := by
  induction h with
  | nil => exact .nil
  | plain hblocks _ ih => exact ih.cons hblocks
  | use huse _ ih => exact ih.written huse

theorem blocks_cons_of_ne (hcommand : d.IsCommand) (hc : c ≠ '\\') (s : List Char) :
    d.blocks (c :: s) = true := by
  obtain ⟨word, hname, -⟩ := hcommand
  simp [blocks, hname, List.isPrefixOf, hc, Ne.symm hc]

theorem Settles.note (hcommand : d.IsCommand) {n : List Char} (hn : '\\' ∉ n)
    (h : d.Settles s uses) : d.Settles (n ++ s) uses := by
  induction n with
  | nil => exact h
  | cons c n ih =>
    rw [List.mem_cons, not_or] at hn
    exact .plain (blocks_cons_of_ne hcommand (Ne.symm hn.1) _) (ih hn.2)

namespace Amends

/-! ### The start of an amended text -/

theorem head_note {n : List Char} (hn : IsNote n) (s : List Char) :
    (n ++ '\\' :: s).head? = some '\\' ∨ (n ++ '\\' :: s).head? = some '%' := by
  cases n with
  | nil => exact .inl rfl
  | cons x n => exact .inr (hn.head (List.cons_ne_nil x n))

/-- An amended text starts as before, if not with a note in front of a command. -/
theorem head (hcommand : d.IsCommand) (h : d.Amends s uses s' uses') :
    s'.head? = s.head? ∨ s.head? = some '\\' ∧ s'.head? = some '%' := by
  obtain ⟨word, hname, -⟩ := hcommand
  cases h with
  | nil => exact .inl rfl
  | @plain c before after s s' _ _ hbefore _ hb _ _ _ =>
    cases before with
    | nil => exact .inl rfl
    | cons x before =>
      obtain rfl := hb (List.cons_ne_nil x before)
      exact .inr ⟨rfl, hbefore.head (List.cons_ne_nil x before)⟩
  | @use use use' before s s' _ _ hbefore _ _ _ _ _ =>
    have hstart : ∀ u : Use, ∃ t, d.written u = '\\' :: t := fun u => by
      simp [Directive.written, hname]
    obtain ⟨t, ht⟩ := hstart use
    obtain ⟨t', ht'⟩ := hstart use'
    rw [ht, ht', List.cons_append, List.cons_append]
    exact (head_note hbefore _).imp id fun h => ⟨rfl, h⟩

/-- At a character that takes no notes the amended text goes on as the text does. -/
theorem tail (hcommand : d.IsCommand) (hc : c ≠ '\\') (hline : c ≠ '\n')
    (h : d.Amends (c :: s) uses s' uses') :
    ∃ t, s' = c :: t ∧ d.Amends s uses t uses' := by
  obtain ⟨word, hname, -⟩ := hcommand
  generalize hs : c :: s = text at h
  cases h with
  | nil => cases hs
  | @plain c' before after s₀ s₀' _ _ hbefore hafter hb ha _ hrest =>
    cases hs
    have hbefore : before = [] := Classical.byContradiction fun hne => hc (hb hne)
    have hafter : after = [] := Classical.byContradiction fun hne => hline (ha hne)
    subst hbefore hafter
    exact ⟨s₀', rfl, hrest⟩
  | use =>
    simp only [Directive.written, hname, List.cons_append, List.cons.injEq] at hs
    exact absurd hs.1 hc

theorem blocksArgument (hcommand : d.IsCommand) (h : d.Amends s uses s' uses')
    (hblocks : d.blocksArgument s = true) : d.blocksArgument s' = true := by
  match s, hblocks with
  | c :: s, hblocks =>
    by_cases hc : c = '\x7b'
    · subst hc
      obtain ⟨t, rfl, ht⟩ := h.tail hcommand (by decide) (by decide)
      have hclose : d.needsArgument = true ∧ s.head? = some '\x7d' := by
        simpa [Directive.blocksArgument] using hblocks
      have hhead : t.head? = some '\x7d' := by
        rcases ht.head hcommand with heq | ⟨hstart, -⟩
        · rw [heq, hclose.2]
        · rw [hclose.2] at hstart
          cases hstart
      simp [Directive.blocksArgument, hclose.1, hhead]
    · have hstart : ∃ x t, s' = x :: t ∧ x ≠ '\x7b' := by
        rcases h.head hcommand with heq | ⟨-, heq⟩
        · obtain ⟨t, rfl⟩ := List.head?_eq_some_iff.1 heq
          exact ⟨c, t, rfl, hc⟩
        · obtain ⟨t, rfl⟩ := List.head?_eq_some_iff.1 heq
          exact ⟨'%', t, rfl, by decide⟩
      obtain ⟨x, t, rfl, hx⟩ := hstart
      simp [Directive.blocksArgument, hx]

end Amends

/-! ### Behind an open bracket -/

/-- Whether no use goes on at the start of a text, behind an open bracket, whatever follows. -/
def blocksOptions (d : Directive) (s : List Char) : Bool :=
  match upTo? ']' s with
  | none => false
  | some (_, rest) => d.blocksArgument rest

theorem blocksOptions_append {part : List Char} (h : ']' ∉ part) (s : List Char) :
    d.blocksOptions (part ++ s) = d.blocksOptions s := by
  induction part with
  | nil => rfl
  | cons c part ih =>
    rw [List.mem_cons, not_or] at h
    rw [← ih h.2, List.cons_append, blocksOptions, blocksOptions, upTo?, if_neg (Ne.symm h.1)]
    cases upTo? ']' (part ++ s) <;> rfl

theorem blocksOptions_bracket (d : Directive) (s : List Char) :
    d.blocksOptions (']' :: s) = d.blocksArgument s :=
  rfl

/-- Nothing goes on behind a bracket that is closed by the options of a use. -/
theorem blocksOptions_written_some (hcommand : d.IsCommand) (huse : d.IsUse use)
    {options : List Char} (hoptions : use.options = some options) (s : List Char) :
    d.blocksOptions (d.written use ++ s) = false := by
  obtain ⟨word, hname, hword⟩ := hcommand
  have hsplit : d.written use ++ s =
      (d.name ++ '[' :: options) ++ ']' :: '\x7b' :: (use.argument ++ '\x7d' :: s) := by
    simp [written, bracketed, braced, hoptions]
  have hfree : ']' ∉ d.name ++ '[' :: options := by
    simp only [hname, List.cons_append, List.mem_cons, List.mem_append, not_or]
    exact ⟨by decide, fun h => (hword _ h).2.2.2 rfl, by decide, huse.options options hoptions⟩
  rw [hsplit, blocksOptions_append hfree, blocksOptions_bracket]
  cases hneeds : d.needsArgument
  · simp [Directive.blocksArgument, hneeds]
  · cases hargument : use.argument with
    | nil => exact absurd hargument (huse.ne_nil hneeds)
    | cons c argument =>
      have hc : c ≠ '\x7d' := fun heq => huse.argument (by simp [hargument, heq])
      simp [Directive.blocksArgument, hc]

theorem blocksOptions_written_none (hcommand : d.IsCommand) (hoptions : use.options = none)
    (s : List Char) :
    d.blocksOptions (d.written use ++ s) = d.blocksOptions (use.argument ++ '\x7d' :: s) := by
  obtain ⟨word, hname, hword⟩ := hcommand
  have hsplit : d.written use ++ s =
      (d.name ++ ['\x7b']) ++ (use.argument ++ '\x7d' :: s) := by
    simp [written, bracketed, braced, hoptions]
  have hfree : ']' ∉ d.name ++ ['\x7b'] := by
    simp only [hname, List.cons_append, List.mem_cons, List.mem_append, not_or]
    exact ⟨by decide, fun h => (hword _ h).2.2.2 rfl, by decide, List.not_mem_nil⟩
  rw [hsplit, blocksOptions_append hfree]

theorem blocksArgument_congr (d : Directive) (argument s s' : List Char) :
    d.blocksArgument (argument ++ '\x7d' :: s) = d.blocksArgument (argument ++ '\x7d' :: s') := by
  match argument with
  | [] => rfl
  | [_] => rfl
  | _ :: _ :: _ => rfl

theorem blocksOptions_argument {argument : List Char} (h : ']' ∉ argument) (s : List Char) :
    d.blocksOptions (argument ++ '\x7d' :: s) = d.blocksOptions s := by
  have hfree : ']' ∉ argument ++ ['\x7d'] := by simp [h]
  rw [← blocksOptions_append hfree s, List.append_assoc]
  rfl

/-- A bracket that closes in an argument is followed by that argument. -/
theorem blocksOptions_argument_of_mem {argument : List Char} (h : ']' ∈ argument) :
    ∃ rest, rest <:+ argument ∧
      ∀ s, d.blocksOptions (argument ++ '\x7d' :: s) = d.blocksArgument (rest ++ '\x7d' :: s) := by
  obtain ⟨a, rest, rfl, ha⟩ := List.eq_append_cons_of_mem h
  refine ⟨rest, ⟨a ++ [']'], by simp⟩, fun s => ?_⟩
  rw [List.append_assoc, List.cons_append, blocksOptions_append ha, blocksOptions_bracket]

theorem blocksOptions_fits {argument fresh s s' : List Char} (hfits : Fits argument fresh)
    (hrest : d.blocksOptions s = true → d.blocksOptions s' = true)
    (h : d.blocksOptions (argument ++ '\x7d' :: s) = true) :
    d.blocksOptions (fresh ++ '\x7d' :: s') = true := by
  by_cases hfresh : ']' ∈ fresh
  · obtain ⟨rest, hsuffix, heq⟩ := blocksOptions_argument_of_mem (d := d) hfresh
    rcases hfits with rfl | ⟨hbrace, -⟩
    · rw [heq] at h ⊢
      rwa [blocksArgument_congr d rest s' s]
    · rw [heq]
      cases rest with
      | nil => simp [Directive.blocksArgument]
      | cons c rest =>
        have hc : c ≠ '\x7b' := fun hc => hbrace (hsuffix.mem (by simp [hc]))
        simp [Directive.blocksArgument, hc]
  · have hargument : ']' ∉ argument := by
      rcases hfits with rfl | ⟨-, hin⟩
      · exact hfresh
      · exact fun hmem => hfresh (hin hmem)
    rw [blocksOptions_argument hargument] at h
    rw [blocksOptions_argument hfresh]
    exact hrest h

namespace Amends

theorem blocksOptions (hcommand : d.IsCommand) (h : d.Amends s uses s' uses')
    (hblocks : d.blocksOptions s = true) : d.blocksOptions s' = true := by
  induction h with
  | nil => exact hblocks
  | @plain c before after s s' _ _ hbefore hafter hb ha _ hrest ih =>
    -- the first bracket decides, and notes bring none
    by_cases hc : c = ']'
    · subst hc
      have hbefore : before = [] := Classical.byContradiction fun hne => absurd (hb hne) (by decide)
      have hafter : after = [] := Classical.byContradiction fun hne => absurd (ha hne) (by decide)
      subst hbefore hafter
      rw [blocksOptions_bracket] at hblocks
      exact hrest.blocksArgument hcommand hblocks
    · have hone : ']' ∉ [c] := by simpa using Ne.symm hc
      have hparts : before ++ c :: (after ++ s') = before ++ ([c] ++ (after ++ s')) := rfl
      rw [hparts, blocksOptions_append hbefore.bracket, blocksOptions_append hone,
        blocksOptions_append hafter.bracket]
      exact ih ((blocksOptions_append hone s).symm.trans hblocks)
  | @use use use' before s s' _ _ hbefore huse huse' hshape hfits _ ih =>
    cases hoptions : use.options with
    | some options =>
      rw [blocksOptions_written_some hcommand huse hoptions] at hblocks
      cases hblocks
    | none =>
      rw [blocksOptions_written_none hcommand hoptions] at hblocks
      rw [blocksOptions_append hbefore.bracket,
        blocksOptions_written_none hcommand (hshape hoptions)]
      exact blocksOptions_fits hfits ih hblocks

/-! ### Behind the name of a directive -/

theorem strip (hcommand : d.IsCommand) {word : List Char}
    (hword : ∀ c ∈ word, c ≠ '\\' ∧ c ≠ '\n') (h : d.Amends (word ++ s) uses s' uses') :
    ∃ t, s' = word ++ t ∧ d.Amends s uses t uses' := by
  induction word generalizing s' with
  | nil => exact ⟨s', rfl, h⟩
  | cons c word ih =>
    obtain ⟨hc, hline⟩ := hword c List.mem_cons_self
    obtain ⟨t, rfl, ht⟩ := h.tail hcommand hc hline
    obtain ⟨t, rfl, hrest⟩ := ih (fun c hc => hword c (List.mem_cons_of_mem _ hc)) ht
    exact ⟨t, rfl, hrest⟩

/-- A text that parts from a word still does when it is amended. -/
theorem parts (hcommand : d.IsCommand) {word : List Char}
    (hword : ∀ c ∈ word, c ≠ '\\' ∧ c ≠ '\n' ∧ c ≠ '%') (h : d.Amends s uses s' uses')
    (hword' : ¬word <+: s) (hs : ¬s <+: word) : ¬word <+: s' ∧ ¬s' <+: word := by
  induction word generalizing s s' with
  | nil => exact absurd List.nil_prefix hword'
  | cons y word ih =>
    obtain ⟨hy, hline, hnote⟩ := hword y List.mem_cons_self
    match s, hs with
    | [], hs => exact absurd List.nil_prefix hs
    | c :: s, hs =>
      by_cases hc : c = y
      · subst hc
        obtain ⟨t, rfl, ht⟩ := h.tail hcommand hy hline
        rw [List.prefix_cons_inj] at hword' hs ⊢
        rw [List.prefix_cons_inj]
        exact ih (fun c hc => hword c (List.mem_cons_of_mem _ hc)) ht hword' hs
      · have hstart : ∃ x t, s' = x :: t ∧ x ≠ y := by
          rcases h.head hcommand with heq | ⟨-, heq⟩
          · obtain ⟨t, rfl⟩ := List.head?_eq_some_iff.1 heq
            exact ⟨c, t, rfl, hc⟩
          · obtain ⟨t, rfl⟩ := List.head?_eq_some_iff.1 heq
            exact ⟨'%', t, rfl, Ne.symm hnote⟩
        obtain ⟨x, t, rfl, hx⟩ := hstart
        rw [List.cons_prefix_cons, List.cons_prefix_cons]
        exact ⟨fun h => hx h.1.symm, fun h => hx h.1⟩

theorem blocksTail (hcommand : d.IsCommand) (h : d.Amends s uses s' uses')
    (hblocks : d.blocksTail s = true) : d.blocksTail s' = true := by
  have hplain : ∀ t : List Char, (d.takesOptions = true → t.head? ≠ some '[') →
      d.blocksTail t = d.blocksArgument t := by
    intro t ht
    cases htakes : d.takesOptions
    · simp [Directive.blocksTail, htakes]
    · simp [Directive.blocksTail, htakes, readOptions?_of_ne (ht htakes)]
  have hopen : d.takesOptions = true → ∀ t, d.blocksTail ('[' :: t) = d.blocksOptions t := by
    intro htakes t
    simp only [Directive.blocksTail, htakes, if_true, readOptions?, Directive.blocksOptions]
    cases upTo? ']' t <;> rfl
  by_cases hbracket : d.takesOptions = true ∧ s.head? = some '['
  · obtain ⟨htakes, hs⟩ := hbracket
    obtain ⟨t, rfl⟩ := List.head?_eq_some_iff.1 hs
    obtain ⟨t', rfl, ht⟩ := h.tail hcommand (by decide) (by decide)
    rw [hopen htakes] at hblocks ⊢
    exact ht.blocksOptions hcommand hblocks
  · have hs : d.takesOptions = true → s.head? ≠ some '[' := fun htakes hs =>
      hbracket ⟨htakes, hs⟩
    have hs' : d.takesOptions = true → s'.head? ≠ some '[' := by
      intro htakes
      rcases h.head hcommand with heq | ⟨-, heq⟩
      · rw [heq]
        exact hs htakes
      · rw [heq]
        decide
    rw [hplain s hs] at hblocks
    rw [hplain s' hs']
    exact h.blocksArgument hcommand hblocks

theorem blocks (hcommand : d.IsCommand) (h : d.Amends s uses s' uses')
    (hblocks : d.blocks ('\\' :: s) = true) : d.blocks ('\\' :: s') = true := by
  obtain ⟨word, hname, hword⟩ := id hcommand
  have hcons : ∀ t : List Char, d.blocks ('\\' :: t) =
      if word.isPrefixOf t then d.blocksTail (t.drop word.length) else !t.isPrefixOf word := by
    intro t
    simp [Directive.blocks, hname]
  rw [hcons] at hblocks ⊢
  by_cases hstart : word <+: s
  · obtain ⟨t, rfl⟩ := hstart
    obtain ⟨t', rfl, ht⟩ := h.strip hcommand fun c hc => ⟨(hword c hc).1, (hword c hc).2.1⟩
    rw [if_pos (by simp), List.drop_left] at hblocks ⊢
    exact ht.blocksTail hcommand hblocks
  · rw [if_neg (fun h => hstart (List.isPrefixOf_iff_prefix.1 h))] at hblocks
    have hs : ¬s <+: word := by
      intro hin
      rw [List.isPrefixOf_iff_prefix.2 hin] at hblocks
      cases hblocks
    obtain ⟨hnot, hnot'⟩ := h.parts hcommand
      (fun c hc => ⟨(hword c hc).1, (hword c hc).2.1, (hword c hc).2.2.1⟩) hstart hs
    have hlonger : s'.isPrefixOf word = false :=
      Bool.eq_false_iff.2 fun h => hnot' (List.isPrefixOf_iff_prefix.1 h)
    rw [if_neg (fun h => hnot (List.isPrefixOf_iff_prefix.1 h)), hlonger]
    rfl

/-- What is read off an amended text are the amended uses. -/
theorem settles (hcommand : d.IsCommand) (h : d.Amends s uses s' uses') : d.Settles s' uses' := by
  induction h with
  | nil => exact .nil
  | @plain c before after s s' _ _ hbefore hafter hb ha hblocks hrest ih =>
    refine Settles.note hcommand hbefore.backslash (.plain ?_ (ih.note hcommand hafter.backslash))
    -- only at a backslash does it matter what the text behind has become
    by_cases hc : c = '\\'
    · subst hc
      have hafter : after = [] := Classical.byContradiction fun hne => absurd (ha hne) (by decide)
      subst hafter
      exact hrest.blocks hcommand hblocks
    · exact blocks_cons_of_ne hcommand hc _
  | use hbefore _ huse' _ _ _ ih =>
    exact Settles.note hcommand hbefore.backslash (.use huse' ih)

end Amends

/-- Uses that are replaced by others, each with a note before it, are amended. -/
theorem Settles.amends_replace {f : List Char → Use → List Char} {fresh : Use → Use}
    (h : d.Settles s uses)
    (hf : ∀ use ∈ uses, d.IsUse use → ∃ note, IsNote note ∧
      f (d.written use) use = note ++ d.written (fresh use) ∧ d.IsUse (fresh use) ∧
        (use.options = none → (fresh use).options = none) ∧
          Fits use.argument (fresh use).argument) :
    d.Amends s uses (d.pattern.replace f s) (uses.map fresh) := by
  induction h with
  | nil => exact .nil
  | @plain c s _ hblocks _ ih =>
    have hnone : d.read? (c :: s) = none := by simpa using read?_of_blocks hblocks []
    rw [replace_cons_of_none hnone]
    exact (ih hf).cons hblocks
  | @use use s _ huse _ ih =>
    obtain ⟨note, hnote, heq, hfresh, hoptions, hfits⟩ := hf use List.mem_cons_self huse
    rw [replace_written huse, heq, List.append_assoc]
    exact .use hnote huse hfresh hoptions hfits
      (ih fun use hmem => hf use (List.mem_cons_of_mem _ hmem))

/-! ### Putting notes in -/

theorem name_of_written_eq (hcommand : d.IsCommand) {u x : List Char}
    (hc : c ∈ ['\\', '\n', '%']) (hu : u ≠ []) (h : d.written use = u ++ c :: x) :
    ∃ t, u = d.name ++ t ∧ bracketed use.options ++ braced use.argument = t ++ c :: x := by
  obtain ⟨word, hname, hword⟩ := hcommand
  have hwritten : d.name ++ (bracketed use.options ++ braced use.argument) = u ++ c :: x := by
    rw [← h, written, List.append_assoc]
  rcases List.append_eq_append_iff.1 hwritten with ⟨t, rfl, hrest⟩ | ⟨extra, hextra, hx⟩
  · exact ⟨t, rfl, hrest⟩
  · cases extra with
    | nil => exact ⟨[], by simpa using hextra.symm, hx.symm⟩
    | cons y extra =>
      obtain ⟨z, u, rfl⟩ := List.exists_cons_of_ne_nil hu
      simp only [List.cons_append, List.cons.injEq] at hx
      rw [hname, List.cons_append, List.cons.injEq] at hextra
      have hin : c ∈ word := by simp [hextra.2, hx.1]
      have hplain := hword c hin
      simp [hplain.1, hplain.2.1, hplain.2.2.1] at hc

theorem argument_of_braced_eq {argument t x : List Char} (hopen : c ≠ '\x7b') (hclose : c ≠ '\x7d')
    (h : braced argument = t ++ c :: x) :
    ∃ front back, argument = front ++ c :: back ∧ x = back ++ ['\x7d'] := by
  cases t with
  | nil => exact absurd (List.cons.inj h).1.symm hopen
  | cons y t =>
    obtain ⟨rfl, htail⟩ := List.cons.inj h
    change argument ++ ['\x7d'] = t ++ c :: x at htail
    rcases List.append_eq_append_iff.1 htail with ⟨back, -, hback⟩ | ⟨back, rfl, hback⟩
    · have hin : c ∈ ['\x7d'] := hback ▸ by simp
      exact absurd (List.mem_singleton.1 hin) hclose
    · cases back with
      | nil => exact absurd (List.cons.inj hback).1 hclose
      | cons y back =>
        obtain ⟨rfl, rfl⟩ := List.cons.inj hback
        exact ⟨t, back, rfl, rfl⟩

/-- Inside of a use, a backslash, a line feed or a percent sign is in the options or in the
argument. -/
theorem written_eq_cases (hcommand : d.IsCommand) {u x : List Char}
    (hc : c ∈ ['\\', '\n', '%']) (hu : u ≠ []) (h : d.written use = u ++ c :: x) :
    (∃ front back, use.options = some (front ++ c :: back) ∧ u = d.name ++ '[' :: front ∧
      x = back ++ ']' :: braced use.argument) ∨
    ∃ front back, use.argument = front ++ c :: back ∧ x = back ++ ['\x7d'] := by
  obtain ⟨t, rfl, hrest⟩ := name_of_written_eq hcommand hc hu h
  have hplain : c ≠ '[' ∧ c ≠ ']' ∧ c ≠ '\x7b' ∧ c ≠ '\x7d' := by
    simp only [List.mem_cons, List.not_mem_nil, or_false] at hc
    rcases hc with rfl | rfl | rfl <;> decide
  cases hoptions : use.options with
  | none =>
    rw [hoptions] at hrest
    exact .inr (argument_of_braced_eq hplain.2.2.1 hplain.2.2.2 hrest)
  | some options =>
    simp only [hoptions, bracketed, List.cons_append, List.append_assoc, List.nil_append] at hrest
    cases t with
    | nil => exact absurd (List.cons.inj hrest).1.symm hplain.1
    | cons y t =>
      obtain ⟨rfl, htail⟩ := List.cons.inj hrest
      rcases List.append_eq_append_iff.1 htail with ⟨back, rfl, hback⟩ | ⟨back, rfl, hback⟩
      · cases back with
        | nil => exact absurd (List.cons.inj hback).1.symm hplain.2.1
        | cons y back =>
          exact .inr (argument_of_braced_eq hplain.2.2.1 hplain.2.2.2 (List.cons.inj hback).2)
      · cases back with
        | nil => exact absurd (List.cons.inj hback).1 hplain.2.1
        | cons y back =>
          obtain ⟨rfl, rfl⟩ := List.cons.inj hback
          exact .inl ⟨t, back, rfl, rfl, rfl⟩

/-- A note in front of a command or behind a line feed leaves the arguments of the uses, unless it
stands in one of them. -/
theorem Settles.amends_at (hcommand : d.IsCommand) {before after u v : List Char}
    (hbefore : IsNote before) (hafter : IsNote after) (hb : before ≠ [] → c = '\\')
    (ha : after ≠ [] → c = '\n') (hc : c = '\\' ∨ c = '\n')
    (hargument : ∀ use ∈ uses, ∀ front back, use.argument = front ++ c :: back →
      ¬(back ++ ['\x7d']) <+: v)
    (h : d.Settles (u ++ c :: v) uses) :
    ∃ uses', d.Amends (u ++ c :: v) uses (u ++ (before ++ c :: (after ++ v))) uses' ∧
      uses'.map Use.argument = uses.map Use.argument := by
  generalize htext : u ++ c :: v = text at h
  induction h generalizing u with
  | nil => simp at htext
  | @plain x s uses hblocks hs ih =>
    cases u with
    | nil =>
      obtain ⟨rfl, rfl⟩ := List.cons.inj htext
      exact ⟨uses, .plain hbefore hafter hb ha hblocks (.refl hs), rfl⟩
    | cons y u =>
      obtain ⟨rfl, htail⟩ := List.cons.inj htext
      obtain ⟨uses', hamends, harguments⟩ := ih hargument htail
      exact ⟨uses', hamends.cons hblocks, harguments⟩
  | @use use s uses huse hs ih =>
    have hlater : ∀ t, u = d.written use ++ t → t ++ c :: v = s →
        ∃ uses', d.Amends (d.written use ++ s) (use :: uses)
          (u ++ (before ++ c :: (after ++ v))) uses' ∧
            uses'.map Use.argument = (use :: uses).map Use.argument := by
      rintro t rfl htext
      obtain ⟨uses', hamends, harguments⟩ :=
        ih (fun use h => hargument use (List.mem_cons_of_mem _ h)) htext
      refine ⟨use :: uses', ?_, by simp [harguments]⟩
      simpa using hamends.written huse
    rcases List.append_eq_append_iff.1 htext with ⟨extra, hextra, hs'⟩ | ⟨t, hu, hs'⟩
    · cases extra with
      | nil => exact hlater [] (by simpa using hextra.symm) hs'
      | cons y extra =>
        obtain ⟨rfl, hv⟩ := List.cons.inj hs'
        change v = extra ++ s at hv
        subst hv
        cases u with
        | nil =>
          -- the note goes before the use
          obtain ⟨word, hname, -⟩ := id hcommand
          have hstart : c = '\\' := by
            rw [Directive.written, hname] at hextra
            exact (List.cons.inj hextra).1.symm
          have hnone : after = [] := Classical.byContradiction fun hne =>
            absurd (hstart.symm.trans (ha hne)) (by decide)
          subst hnone
          refine ⟨use :: uses, ?_, rfl⟩
          have := Amends.use hbefore huse huse id (.inl rfl) (.refl hs)
          rw [hextra] at this ⊢
          simpa using this
        | cons z u =>
          -- the note goes into the options of the use
          obtain ⟨front, back, hoptions, hu, hextra'⟩ :=
            (written_eq_cases hcommand (by simpa [or_assoc] using hc.imp_right .inl)
              (List.cons_ne_nil z u) hextra).resolve_right
              fun ⟨front, back, hin, hextra'⟩ =>
                hargument use List.mem_cons_self front back hin ⟨s, by rw [hextra']⟩
          let use' : Use := ⟨some (front ++ (before ++ c :: (after ++ back))), use.argument⟩
          have huse' : d.IsUse use' := by
            refine huse.withOptions hoptions ?_
            have hfree := huse.options _ hoptions
            simp only [List.mem_append, List.mem_cons, not_or] at hfree ⊢
            exact ⟨hfree.1, hbefore.bracket, hfree.2.1, hafter.bracket, hfree.2.2⟩
          refine ⟨use' :: uses, ?_, rfl⟩
          have := Amends.use isNote_nil huse huse' (by simp [hoptions]) (.inl rfl) (.refl hs)
          have hwritten : (z :: u) ++ (before ++ c :: (after ++ (extra ++ s))) =
              [] ++ (d.written use' ++ s) := by
            rw [hu, hextra']
            simp [Directive.written, bracketed, use']
          rwa [hwritten]
    · exact hlater t hu hs'.symm

end Directive

end ResumePress.Latex
