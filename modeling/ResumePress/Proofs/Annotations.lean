import ResumePress.Proofs.Images
import ResumePress.Proofs.Latex.Live

/-!
Annotations of contents. What an adapted content says in comments is put before commands and behind
the line of the document class. Behind that line it changes nothing of the live text. Before a
command it changes nothing if a comment can start there and ends where it was meant to; otherwise
something of it, or of what follows, becomes live.
-/

namespace ResumePress

open Latex Text

namespace Latex.Directive

variable {d : Directive} {use : Use} {n u v : List Char}

theorem eq_append_of_not_mem {a b : Char} (hne : a ≠ b) {front back rest : List Char}
    (hb : b ∉ front) (h : front ++ a :: v = back ++ b :: rest) :
    ∃ more, back = front ++ a :: more ∧ v = more ++ b :: rest := by
  have hfront : b ∉ front ++ [a] := by simp [hb, hne.symm]
  obtain ⟨more, rfl, hmore⟩ := exists_append_of_not_mem hfront (v := v) (by simpa using h)
  exact ⟨more, by simp, hmore⟩

/-- A note before a command brings no use about. -/
theorem read?_note (hcommand : d.IsCommand) (hn : IsNote n) (hbrace : '\x7d' ∉ n) (hu : u ≠ [])
    (h : d.read? (u ++ '\\' :: v) = none) : d.read? (u ++ (n ++ '\\' :: v)) = none := by
  cases n with
  | nil => exact h
  | cons y n =>
    obtain rfl : y = '%' := Option.some.inj (hn.head (List.cons_ne_nil y n))
    have hbracket := List.not_mem_of_not_mem_cons hn.bracket
    have hbrace := List.not_mem_of_not_mem_cons hbrace
    refine Option.eq_none_iff_forall_ne_some.2 fun ⟨use, rest⟩ hread => ?_
    obtain ⟨huse, heq⟩ := read?_eq_some.1 hread
    -- a use that is read with the note is read without it, less what it has of the note
    have hnone : ∀ use : Use, d.IsUse use → ∀ rest, u ++ '\\' :: v ≠ d.written use ++ rest := by
      intro use huse rest heq
      rw [heq, read?_written huse] at h
      cases h
    rcases List.append_eq_append_iff.1 heq with ⟨extra, hextra, hrest⟩ | ⟨more, hmore, hrest⟩
    · cases extra with
      | nil =>
        rw [List.append_nil] at hextra
        exact hnone use huse _ (by rw [hextra])
      | cons c extra =>
        obtain ⟨rfl, htail⟩ := List.cons.inj hrest
        change n ++ '\\' :: v = extra ++ rest at htail
        rcases written_eq_cases hcommand (c := '%') (by decide) hu hextra with
          ⟨front, back, hoptions, hfront, rfl⟩ | ⟨front, back, hargument, rfl⟩
        · rw [List.append_assoc, List.cons_append] at htail
          obtain ⟨more, rfl, rfl⟩ := eq_append_of_not_mem (by decide) hbracket htail
          refine hnone ⟨some (front ++ '\\' :: more), use.argument⟩
            (huse.withOptions hoptions ?_) rest ?_
          · have hfree := huse.options _ hoptions
            simp only [List.mem_append, List.mem_cons, not_or] at hfree ⊢
            exact ⟨hfree.1, by decide, hfree.2.2.2.2⟩
          · simp [hfront, Directive.written, bracketed]
        · rw [List.append_assoc, List.singleton_append] at htail
          obtain ⟨more, rfl, rfl⟩ := eq_append_of_not_mem (by decide) hbrace htail
          have hfront : u = d.name ++ bracketed use.options ++ '\x7b' :: front := by
            refine (List.append_left_inj ('%' :: (n ++ '\\' :: more ++ ['\x7d']))).1 ?_
            rw [← hextra, Directive.written, braced, hargument]
            simp
          refine hnone ⟨use.options, front ++ '\\' :: more⟩
            (huse.withArgument (by simp) ?_) rest ?_
          · have hfree := huse.argument
            rw [hargument] at hfree
            simp only [List.mem_append, List.mem_cons, not_or] at hfree ⊢
            exact ⟨hfree.1, by decide, hfree.2.2.2.2⟩
          · simp [hfront, Directive.written, braced]
    · exact hnone use huse (more ++ '\\' :: v) (by rw [hmore, List.append_assoc])

/-- A text in which no command starts is kept. -/
theorem replace_note (hcommand : d.IsCommand) (hn : '\\' ∉ n) (f : List Char → Use → List Char)
    (s : List Char) : d.pattern.replace f (n ++ s) = n ++ d.pattern.replace f s := by
  induction n with
  | nil => rfl
  | cons c n ih =>
    rw [List.mem_cons, not_or] at hn
    have hnone : d.read? (c :: (n ++ s)) = none := by
      simpa using read?_of_blocks (blocks_cons_of_ne hcommand (Ne.symm hn.1) (n ++ s)) []
    rw [List.cons_append, replace_cons_of_none hnone, ih hn.2, List.cons_append]

end Latex.Directive

namespace Content

/-- Gives every image its picture, without a comment about those that cannot be used. -/
def pictureImages (t : Template) (s : List Char) : List Char :=
  image.pattern.replace (fun _ use => image.written (pictured t use)) s

/-- The pictured text of the first characters of what has been scanned. -/
def picturedUpTo (t : Template) : (count : Nat) → List (Piece Use) → List Char
  | _, [] => []
  | count, .plain c :: rest => if count = 0 then [] else c :: picturedUpTo t (count - 1) rest
  | count, .hit part use :: rest =>
    if part.length ≤ count then
      image.written (pictured t use) ++ picturedUpTo t (count - part.length) rest
    else part.take count

end Content

namespace Template

open Content

/-- What comes of a piece of a text, with the comment before an image that gets the common
placeholder for its own. -/
def segment (t : Template) : Piece Use → Segment
  | .plain c => ⟨[], [c]⟩
  | .hit _ use =>
    ⟨if isUsable (t.imageFor (String.ofList use.argument)).toList then []
      else imageNote use.argument, image.written (pictured t use)⟩

/-- A text whose images get their substitutes. -/
def segments (t : Template) (s : List Char) : List Segment :=
  (image.pattern.scan s).map t.segment

theorem annotated_segments (t : Template) (s : List Char) :
    annotated (t.segments s) = substituteImages t s := by
  rw [annotated, segments, List.flatMap_map, substituteImages, Pattern.replace]
  refine congrArg (fun f => List.flatMap f _) (funext fun piece => ?_)
  cases piece with
  | plain c => rfl
  | hit part use => exact (substitute_eq t use).symm

theorem bare_segments (t : Template) (s : List Char) :
    bare (t.segments s) = pictureImages t s := by
  rw [bare, segments, List.flatMap_map, pictureImages, Pattern.replace]
  refine congrArg (fun f => List.flatMap f _) (funext fun piece => ?_)
  cases piece <;> rfl

variable {t : Template} {use : Use} {c : Char} {s : List Char}

theorem segments_cons_of_none (h : image.read? (c :: s) = none) :
    t.segments (c :: s) = ⟨[], [c]⟩ :: t.segments s := by
  rw [segments, Pattern.scan_cons_of_none _ (Directive.matchAt_eq_none h)]
  rfl

theorem segments_written (h : image.IsUse use) (rest : List Char) :
    t.segments (image.written use ++ rest) =
      t.segment (.hit (image.written use) use) :: t.segments rest := by
  rw [segments, Pattern.scan_of_matchAt _ (Directive.matchAt_written h rest), List.drop_left]
  rfl

/-! ### Comments before images -/

theorem isComment_imageNote (path : List Char) : IsComment (imageNote path) := by
  refine ⟨" Failed to process image: ".toList ++ path ++ "\n% Using default placeholder".toList, ?_⟩
  unfold imageNote
  repeat rw [String.toList_ofList]
  simp

theorem startsCommand_image (rest : List Char) : StartsCommand (image.name ++ rest) := by
  have hname : image.name = '\\' :: 'i' :: "ncludegraphics".toList := rfl
  rw [hname]
  exact ⟨'i', _, rfl, by decide, by decide, by decide⟩

/-- An image may be cut into parts, of which only the first has the comment before it. -/
theorem areNoted_cons (t : Template) (part : List Char) (use : Use) (rest : List Char)
    {noted : List Segment} (h : AreNoted noted) :
    AreNoted (⟨(t.segment (.hit part use)).note, image.name ++ rest⟩ :: noted) := by
  refine ⟨fun hnote => ⟨?_, ?_⟩, h⟩
  · dsimp only [segment] at hnote ⊢
    split
    · rename_i husable
      simp [husable] at hnote
    · exact isComment_imageNote use.argument
  · rw [List.append_assoc]
    exact startsCommand_image _

theorem areNoted_hit (t : Template) (part : List Char) (use : Use) {noted : List Segment}
    (h : AreNoted noted) : AreNoted (t.segment (.hit part use) :: noted) := by
  have := areNoted_cons t part use
    (bracketed use.options ++ braced (t.pictureFor use.argument)) h
  rwa [← List.append_assoc] at this

theorem areNoted_segments (t : Template) (s : List Char) : AreNoted (t.segments s) := by
  unfold segments
  induction image.pattern.scan s with
  | nil => exact trivial
  | cons piece pieces ih =>
    cases piece with
    | plain c => exact ⟨fun hnote => absurd rfl hnote, ih⟩
    | hit part use => exact areNoted_hit t part use ih

/-! ### A note before a command -/

/-- What comes of a text with a note in it, told by what comes of the text: the note stands behind
the pictured text up to its place. -/
structure Carries (t : Template) (n u s : List Char) (noted : List Segment) : Prop where
  areNoted : AreNoted noted
  annotated_eq : annotated noted = substituteImages t (u ++ (n ++ s))
  bare_eq : bare noted = pictureImages t (u ++ s)
  unnoticed_iff : ∀ before, Unnoticed before noted ↔
    EndsOpen (before ++ picturedUpTo t u.length (image.pattern.scan (u ++ s))) ∧
      Unnoticed before (t.segments (u ++ s))

namespace Carries

variable {n u v : List Char} {x : Char} {noted : List Segment}

theorem nil (hn : IsNote n) (hcomment : IsComment n) (hdead : live n = [])
    (hx : x ≠ '\\' ∧ x ≠ '%' ∧ x ≠ '\n') (hread : image.read? ('\\' :: x :: v) = none) :
    t.Carries n [] ('\\' :: x :: v) (⟨n, ['\\']⟩ :: t.segments (x :: v)) := by
  have hnone : image.read? (x :: v) = none := by
    simpa using Directive.read?_of_blocks (Directive.blocks_cons_of_ne isCommand_image hx.1 v) []
  have hne : n ≠ [] := by
    obtain ⟨line, rfl⟩ := hcomment
    exact List.cons_ne_nil _ _
  refine ⟨⟨fun _ => ⟨hcomment, ?_⟩, areNoted_segments t _⟩, ?_, ?_, fun before => ?_⟩
  · rw [segments_cons_of_none hnone]
    exact ⟨x, _, rfl, hx⟩
  · rw [List.nil_append, substituteImages, Directive.replace_note isCommand_image hn.backslash,
      Directive.replace_cons_of_none hread, ← substituteImages, ← annotated_segments]
    simp [annotated]
  · rw [List.nil_append, pictureImages, Directive.replace_cons_of_none hread, ← pictureImages,
      ← bare_segments]
    rfl
  · rw [List.nil_append, segments_cons_of_none hread,
      Pattern.scan_cons_of_none _ (Directive.matchAt_eq_none hread)]
    simp [Unnoticed, picturedUpTo, hne, hdead]

theorem cons (h : t.Carries n u s noted) (hread : image.read? (c :: (u ++ s)) = none)
    (hnote : image.read? (c :: (u ++ (n ++ s))) = none) :
    t.Carries n (c :: u) s (⟨[], [c]⟩ :: noted) where
  areNoted := ⟨fun hnote => absurd rfl hnote, h.areNoted⟩
  annotated_eq := by
    rw [List.cons_append, substituteImages, Directive.replace_cons_of_none hnote,
      ← substituteImages, ← h.annotated_eq]
    rfl
  bare_eq := by
    rw [List.cons_append, pictureImages, Directive.replace_cons_of_none hread, ← pictureImages,
      ← h.bare_eq]
    rfl
  unnoticed_iff before := by
    rw [List.cons_append, segments_cons_of_none hread,
      Pattern.scan_cons_of_none _ (Directive.matchAt_eq_none hread)]
    simp [Unnoticed, picturedUpTo, h.unnoticed_iff]

theorem written (h : t.Carries n u s noted) (huse : image.IsUse use) :
    t.Carries n (image.written use ++ u) s (t.segment (.hit (image.written use) use) :: noted) where
  areNoted := areNoted_hit t _ use h.areNoted
  annotated_eq := by
    rw [List.append_assoc, ← annotated_segments, segments_written huse, annotated,
      List.flatMap_cons, ← annotated, h.annotated_eq, ← annotated_segments]
    rfl
  bare_eq := by
    rw [List.append_assoc, ← bare_segments, segments_written huse, bare, List.flatMap_cons, ← bare,
      h.bare_eq, ← bare_segments]
    rfl
  unnoticed_iff before := by
    rw [List.append_assoc, segments_written huse,
      Pattern.scan_of_matchAt _ (Directive.matchAt_written huse (u ++ s)), List.drop_left]
    simp [Unnoticed, picturedUpTo, h.unnoticed_iff, segment, and_left_comm]

/-- A note in the options of an image. -/
theorem options (hn : IsNote n) (hcomment : IsComment n) (hdead : live n = [])
    {front back : List Char} (huse : image.IsUse use)
    (hoptions : use.options = some (front ++ '\\' :: back))
    (hback : ∀ c ∈ back.head?, c ≠ '\\' ∧ c ≠ '%' ∧ c ≠ '\n') (rest : List Char) :
    t.Carries n (image.name ++ '[' :: front)
      ('\\' :: (back ++ ']' :: (braced use.argument ++ rest)))
      (⟨(t.segment (.hit [] use)).note, image.name ++ '[' :: front⟩ ::
        ⟨n, '\\' :: (back ++ ']' :: braced (t.pictureFor use.argument))⟩ :: t.segments rest) := by
  have hne : n ≠ [] := by
    obtain ⟨line, rfl⟩ := hcomment
    exact List.cons_ne_nil _ _
  have hwritten : image.written use = (image.name ++ '[' :: front) ++
      '\\' :: (back ++ ']' :: braced use.argument) := by
    simp [Directive.written, bracketed, hoptions]
  have hplain : (image.name ++ '[' :: front) ++
      '\\' :: (back ++ ']' :: (braced use.argument ++ rest)) = image.written use ++ rest := by
    simp [hwritten]
  let use' : Use := ⟨some (front ++ (n ++ '\\' :: back)), use.argument⟩
  have huse' : image.IsUse use' := by
    refine huse.withOptions hoptions ?_
    have hfree := huse.options _ hoptions
    simp only [List.mem_append, List.mem_cons, not_or] at hfree ⊢
    exact ⟨hfree.1, hn.bracket, hfree.2⟩
  have hnoted : (image.name ++ '[' :: front) ++
      (n ++ '\\' :: (back ++ ']' :: (braced use.argument ++ rest))) =
        image.written use' ++ rest := by
    simp [Directive.written, bracketed, use']
  refine ⟨areNoted_cons t _ use _ ⟨fun _ => ⟨hcomment, ?_⟩, areNoted_segments t rest⟩, ?_, ?_,
    fun before => ?_⟩
  · cases back with
    | nil => exact ⟨']', _, rfl, by decide, by decide, by decide⟩
    | cons c back => exact ⟨c, _, rfl, hback c rfl⟩
  · rw [hnoted, substituteImages, Directive.replace_written huse', ← substituteImages,
      ← annotated_segments, substitute_eq]
    simp [annotated, segment, Directive.written, bracketed, pictured, use']
  · rw [hplain, pictureImages, Directive.replace_written huse, ← pictureImages, ← bare_segments]
    simp [bare, Directive.written, bracketed, pictured, hoptions]
  · rw [hplain, segments_written huse,
      Pattern.scan_of_matchAt _ (Directive.matchAt_written huse rest), List.drop_left]
    have hshort : ¬(image.written use).length ≤ (image.name ++ '[' :: front).length := by
      rw [hwritten]
      simp
    have htake : (image.written use).take (image.name ++ '[' :: front).length =
        image.name ++ '[' :: front := by
      rw [hwritten, List.take_left]
    rw [picturedUpTo, if_neg hshort, htake]
    simp [Unnoticed, hne, hdead, segment, Directive.written, bracketed, pictured, hoptions,
      and_left_comm]

end Carries

/-- A note before a command is told from the text with it, unless it stands in the path of an
image. -/
theorem exists_carries {n v : List Char} {x : Char} (hn : IsNote n) (hcomment : IsComment n)
    (hbrace : '\x7d' ∉ n) (hdead : live n = []) (hx : x ≠ '\\' ∧ x ≠ '%' ∧ x ≠ '\n')
    (hread : image.read? ('\\' :: x :: v) = none) (u : List Char)
    (hargument : ∀ use ∈ image.pattern.values (u ++ '\\' :: x :: v), image.IsUse use →
      ∀ front back, use.argument = front ++ '\\' :: back → ¬(back ++ ['\x7d']) <+: x :: v) :
    ∃ noted, t.Carries n u ('\\' :: x :: v) noted := by
  -- the text before the note is taken piece by piece; the piece that reaches beyond it is an image
  -- with the note in its options
  match u with
  | [] => exact ⟨_, .nil hn hcomment hdead hx hread⟩
  | c :: u =>
    cases hfirst : image.read? (c :: (u ++ '\\' :: x :: v)) with
    | none =>
      rw [List.cons_append, Directive.values_cons_of_none hfirst] at hargument
      obtain ⟨noted, h⟩ := exists_carries hn hcomment hbrace hdead hx hread u hargument
      exact ⟨_, h.cons hfirst
        (Directive.read?_note isCommand_image hn hbrace (List.cons_ne_nil c u) hfirst)⟩
    | some found =>
      obtain ⟨use, rest⟩ := found
      obtain ⟨huse, heq⟩ := Directive.read?_eq_some.1 hfirst
      rw [← List.cons_append] at heq
      rw [heq, Directive.values_written huse] at hargument
      obtain ⟨hfirst, hlater⟩ := List.forall_mem_cons.1 hargument
      rcases List.append_eq_append_iff.1 heq with ⟨extra, hextra, hrest⟩ | ⟨more, hmore, hrest⟩
      · cases extra with
        | nil =>
          rw [List.append_nil] at hextra
          rw [← hextra, ← List.append_nil (image.written use)]
          exact ⟨_, .written (.nil hn hcomment hdead hx hread) huse⟩
        | cons y extra =>
          obtain ⟨rfl, htail⟩ := List.cons.inj hrest
          change x :: v = extra ++ rest at htail
          rcases Directive.written_eq_cases (c := '\\') isCommand_image (by simp)
            (List.cons_ne_nil c u) hextra with
            ⟨front, back, hoptions, hfront, rfl⟩ | ⟨front, back, hpath, rfl⟩
          · have hback : ∀ c ∈ back.head?, c ≠ '\\' ∧ c ≠ '%' ∧ c ≠ '\n' := by
              intro b hb
              obtain ⟨back, rfl⟩ := List.head?_eq_some_iff.1 hb
              obtain ⟨rfl, -⟩ := List.cons.inj htail
              exact hx
            rw [hfront, htail, List.append_assoc, List.cons_append]
            exact ⟨_, .options hn hcomment hdead huse hoptions hback rest⟩
          · exact absurd ⟨rest, htail.symm⟩ (hfirst huse front back hpath)
      · rw [hrest] at hlater
        have hless : more.length < (c :: u).length := by
          have hpos : 0 < (image.written use).length :=
            List.length_pos_iff.2 (by simp [Directive.written, image.name_ne_nil])
          rw [hmore, List.length_append]
          omega
        obtain ⟨noted, h⟩ := exists_carries hn hcomment hbrace hdead hx hread more hlater
        rw [hmore]
        exact ⟨_, h.written huse⟩
termination_by u.length
decreasing_by
  · simp
  · exact hless

/-! ### Comments about fonts -/

theorem live_noteFonts (hfonts : ∀ font ∈ t.fonts, '\n' ∉ font.toList) (s : List Char) :
    live (noteFonts t s) = live s := by
  have hnotes : ∀ fonts ⊆ t.fonts, ∀ a s : List Char, EndsOpen a →
      live (a ++ ((fonts.flatMap fun font => fontNote font ++ ['\n']) ++ s)) = live (a ++ s) := by
    intro fonts hsubset a s hopen
    induction fonts with
    | nil => rfl
    | cons font fonts ih =>
      obtain ⟨hfont, hsubset⟩ := List.cons_subset.1 hsubset
      have hline : '\n' ∉ " Warning: Template requires ".toList ++ font.toList ++
          " font package".toList := by
        simp [hfonts font hfont]
      have hnote : fontNote font ++ ['\n'] = '%' :: (" Warning: Template requires ".toList ++
          font.toList ++ " font package".toList ++ ['\n']) := by
        unfold fontNote
        repeat rw [String.toList_ofList]
        rfl
      rw [List.flatMap_cons, hnote, List.append_assoc,
        live_note ⟨_, rfl⟩ hopen (live_comment hline), ih hsubset]
  unfold noteFonts
  split
  · rfl
  · rfl
  · rename_i before part after hcut _
    obtain ⟨rfl, a, hmatch⟩ := Pattern.eq_of_cut? hcut
    obtain ⟨line, rfl⟩ := exists_of_classLine hmatch
    have hopen : EndsOpen (before ++ (line ++ ['\n'])) := by
      rw [EndsOpen, ← List.append_assoc]
      exact Mode.text.after_line _
    have hmissing : missingFonts t (before ++ (line ++ ['\n'] ++ after)) ⊆ t.fonts :=
      fun font hfont => (List.mem_filter.1 hfont).1
    rw [List.append_assoc, hnotes _ hmissing _ after hopen, List.append_assoc]

/-! ### The note about glyph names -/

theorem isComment_glyphNote : IsComment glyphNote := by
  refine ⟨" Note: glyphtounicode functionality is handled by the PDF generator".toList, ?_⟩
  unfold glyphNote
  repeat rw [String.toList_ofList]
  rfl

theorem live_glyphNote : live glyphNote = [] := by
  decide +kernel

/-- The note is harmless if a comment can start before the body. -/
theorem live_noteGlyphs_iff (s : List Char) : live (noteGlyphs s) = live s ↔
    ∀ parts ∈ cut? beginDocument s, EndsOpen parts.1 := by
  unfold noteGlyphs replaceFirst
  cases hcut : cut? beginDocument s with
  | none => simp
  | some parts =>
    obtain ⟨before, after⟩ := parts
    have hnoted : AreNoted [⟨[], before⟩, ⟨glyphNote, beginDocument ++ after⟩] := by
      refine ⟨fun hne => absurd rfl hne, fun _ => ⟨isComment_glyphNote, ?_⟩, trivial⟩
      exact ⟨'b', _, rfl, by decide, by decide, by decide⟩
    have hall := live_annotated_iff hnoted []
    have hne : glyphNote ≠ [] := by decide
    simp only [annotated, bare, Unnoticed, List.flatMap_cons, List.flatMap_nil, List.append_nil,
      List.nil_append, live_glyphNote, hne, ne_eq, not_true, not_false_eq_true, false_implies,
      true_implies, true_and, and_true] at hall
    rw [eq_of_cut? hcut]
    simpa using hall

/-- Before a body the note is harmless if a comment can start there in the pictured text. -/
theorem live_pictured_noteGlyphs_iff
    (hpaths : ∀ path ∈ imagePaths s, ¬beginDocument.dropLast <:+ path) :
    live (substituteImages t (noteGlyphs s)) = live (pictureImages t s) ↔
      (∀ parts ∈ cut? beginDocument s,
        EndsOpen (picturedUpTo t parts.1.length (image.pattern.scan s))) ∧
      Unnoticed [] (t.segments s) := by
  unfold noteGlyphs replaceFirst
  cases hcut : cut? beginDocument s with
  | none =>
    simpa [annotated_segments, bare_segments] using live_annotated_iff (areNoted_segments t s) []
  | some parts =>
    obtain ⟨before, after⟩ := parts
    have hmarker : beginDocument = '\\' :: 'b' :: ("egin\x7bdocument".toList ++ ['\x7d']) := rfl
    have hs := eq_of_cut? hcut
    rw [hmarker, List.append_assoc, List.cons_append, List.cons_append] at hs
    have hread : image.read? ('\\' :: 'b' :: ("egin\x7bdocument".toList ++ ['\x7d'] ++ after)) =
        none :=
      Directive.read?_of_blocks (s := ['\\', 'b']) (by decide) _
    obtain ⟨noted, h⟩ := exists_carries (t := t) isNote_glyphNote isComment_glyphNote (by decide)
      live_glyphNote (by decide) hread before (by
        rw [← hs]
        intro use hmem huse front back hback
        exact not_prefix_beginDocument huse.argument (hpaths _ (List.mem_map_of_mem hmem)) hback)
    have hall := live_annotated_iff h.areNoted []
    rw [h.unnoticed_iff, h.annotated_eq, h.bare_eq, ← hs] at hall
    have hsame : before ++ (glyphNote ++ beginDocument) ++ after = before ++ (glyphNote ++
        '\\' :: 'b' :: ("egin\x7bdocument".toList ++ ['\x7d'] ++ after)) := by
      rw [hmarker]
      simp only [List.append_assoc, List.cons_append]
    dsimp only
    rw [hsame]
    simpa using hall

/-! ### Adapted contents -/

/-- A content with its pictures, if the template has any, and without notes. -/
def plainly (t : Template) (s : List Char) : List Char :=
  if t.images.isEmpty then s else pictureImages t s

/-- That text, up to what comes of the first characters of the content. -/
def plainlyUpTo (t : Template) (count : Nat) (s : List Char) : List Char :=
  if t.images.isEmpty then s.take count else picturedUpTo t count (image.pattern.scan s)

/-- Every note before a command stands where a comment can start, and is all comment. -/
structure NotesUnnoticed (t : Template) (p : Profile) (s : List Char) : Prop where
  glyphs : p.notesGlyphs = true → contains glyphInput s = false →
    ∀ parts ∈ cut? beginDocument s, EndsOpen (t.plainlyUpTo parts.1.length s)
  images : t.images ≠ [] → Unnoticed [] (t.segments s)

/-- What is live of an adapted content is what would be live of it without its notes, if these go
unnoticed, and only then. -/
theorem live_adapt_iff {p : Profile} {content : String} (hrestyle : p.restyle = none)
    (hfonts : ∀ font ∈ t.fonts, '\n' ∉ font.toList)
    (hpaths : p.notesGlyphs = true → t.images ≠ [] →
      ∀ path ∈ imagePaths content.toList, ¬beginDocument.dropLast <:+ path) :
    live (t.adapt p content).toList = live (t.plainly content.toList) ↔
      t.NotesUnnoticed p content.toList := by
  rw [toList_adapt hrestyle, finish, live_noteFonts hfonts]
  generalize content.toList = s at hpaths ⊢
  have hparts : t.NotesUnnoticed p s ↔
      ((p.notesGlyphs && !contains glyphInput s) = true →
        ∀ parts ∈ cut? beginDocument s, EndsOpen (t.plainlyUpTo parts.1.length s)) ∧
      (t.images.isEmpty = false → Unnoticed [] (t.segments s)) := by
    rw [Bool.and_eq_true, Bool.not_eq_true', and_imp, List.isEmpty_eq_false_iff]
    exact ⟨fun h => ⟨h.glyphs, h.images⟩, fun h => ⟨h.1, h.2⟩⟩
  rw [hparts, plainly]
  simp only [plainlyUpTo]
  cases himages : t.images.isEmpty with
  | true =>
    cases hnoted : p.notesGlyphs && !contains glyphInput s with
    | false => simp
    | true =>
      have htake : ∀ parts ∈ cut? beginDocument s, s.take parts.1.length = parts.1 := by
        rintro ⟨before, after⟩ hcut
        rw [eq_of_cut? hcut, List.append_assoc, List.take_left]
      simp only [if_true, forall_const, live_noteGlyphs_iff, reduceCtorEq, false_implies, and_true]
      exact forall₂_congr fun parts hcut => by rw [htake parts hcut]
  | false =>
    cases hnoted : p.notesGlyphs && !contains glyphInput s with
    | false =>
      simpa [annotated_segments, bare_segments] using live_annotated_iff (areNoted_segments t s) []
    | true =>
      have hall := live_pictured_noteGlyphs_iff (t := t)
        (hpaths (Bool.and_eq_true_iff.1 hnoted).1 (List.isEmpty_eq_false_iff.1 himages))
      simpa using hall

end Template

-- A content with notes of all three kinds.
theorem live_adapt_portrait :
    let t := { Template.ofSource "" with images := [("me.png", "")], fonts := ["Charter"] }
    let p := { Profile.plain with notesGlyphs := true }
    let content := "\\documentclass\x7bcv\x7d\n\\begin\x7bdocument\x7d\n50\\% of " ++
      "\\includegraphics\x7bme.png\x7d % or so\n"
    (t.adapt p content).toList ≠ t.plainly content.toList ∧
      live (t.adapt p content).toList = live (t.plainly content.toList) := by
  intro t p content
  have hnotes : t.NotesUnnoticed p content.toList :=
    ⟨fun _ _ => by decide +kernel, fun _ => by decide +kernel⟩
  have hnoted : (t.adapt p content).toList ≠ t.plainly content.toList := by
    rw [Template.toList_adapt rfl]
    decide +kernel
  exact ⟨hnoted, (Template.live_adapt_iff rfl (by decide) (by decide +kernel)).2 hnotes⟩

-- A comment before an image that is commented out, one that quotes a path of two lines, a note in a
-- comment and a note behind a backslash.
theorem live_adapt_noticed :
    Profile.plain.restyle = none ∧
      ∀ case ∈ [
        ("me.png", false, "% \\includegraphics\x7bme.png\x7d of me",
          "", "\\includegraphics\x7b/placeholder-user.jpg\x7d of me"),
        ("m\ne", false, "\\includegraphics\x7bm\ne\x7d",
          "\\includegraphics\x7b/placeholder-user.jpg\x7d",
          "e\\includegraphics\x7b/placeholder-user.jpg\x7d"),
        ("me.png", true, "% \\begin\x7bdocument\x7d follows",
          "", "\\begin\x7bdocument\x7d follows"),
        ("me.png", true, "\\\\begin\x7bdocument\x7d",
          "\\\\begin\x7bdocument\x7d",
          "\\% Note: glyphtounicode functionality is handled by the PDF generator" ++
            "\\begin\x7bdocument\x7d")],
      let t := { Template.ofSource "" with images := [(case.1, "")] };
      let p := { Profile.plain with notesGlyphs := case.2.1 };
      (∀ font ∈ t.fonts, '\n' ∉ font.toList) ∧
        live (t.plainly case.2.2.1.toList) = case.2.2.2.1.toList ∧
        live (t.adapt p case.2.2.1).toList = case.2.2.2.2.toList ∧
        case.2.2.2.1 ≠ case.2.2.2.2 := by
  refine ⟨rfl, ?_⟩
  intro case hcase t p
  rw [Template.toList_adapt (p := p) rfl]
  revert case
  decide +kernel

end ResumePress
