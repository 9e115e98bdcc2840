import ResumePress.Toolchain
import ResumePress.Proofs.Surroundings
import ResumePress.Proofs.Compile.Provenance
import ResumePress.Proofs.Text.Decoding
import ResumePress.Proofs.Text.SmallLetters

/-!
Fonts in the listing of a system. The listing and the name are brought to small letters each as a
whole, so a name is found where its sigmas keep their forms. Names without a loose sigma are found
wherever they are listed; any other name is missed in some listing that holds it.
-/

namespace ResumePress

open Text Case

variable {σ : Type}

/-- A name stands in full view in a text: none of its sigmas is loose, or no letter with case is met
on either side of it. -/
def InView (before font after : List Char) : Prop :=
  ¬HasLooseSigma font ∨ (meetsCased before.reverse = false ∧ meetsCased after = false)

instance (before font after : List Char) : Decidable (InView before font after) :=
  inferInstanceAs (Decidable (_ ∨ _))

theorem InView.keepsForms {before font after : List Char} (h : InView before font after) :
    KeepsForms before.reverse after font := by
  rcases h with h | ⟨hbefore, hafter⟩
  · exact keepsForms_of_not_loose h _ _
  · exact keepsForms_of_not_cased hbefore hafter font

theorem catalogContains_iff {catalog font : String} :
    catalogContains catalog font = true ↔ lower font.toList <:+: lower catalog.toList :=
  contains_iff_isInfix

theorem catalogContains_of_inView {catalog font : String} {before after : List Char}
    (h : catalog.toList = before ++ font.toList ++ after)
    (hview : InView before font.toList after) : catalogContains catalog font = true := by
  rw [catalogContains_iff, h, lower_around, hview.keepsForms.lowerAmid_eq]
  exact List.infix_append _ _ _

theorem forall_catalogContains_iff {font : String} :
    (∀ catalog : String, font.toList <:+: catalog.toList → catalogContains catalog font = true) ↔
      ¬HasLooseSigma font.toList := by
  constructor
  · intro hall hloose
    obtain ⟨before, after, hnot⟩ := hloose.exists_not_infix
    refine hnot ?_
    have := hall (String.ofList (before ++ font.toList ++ after))
      (by rw [String.toList_ofList]; exact List.infix_append _ _ _)
    rwa [catalogContains_iff, String.toList_ofList] at this
  · rintro hnot catalog ⟨before, after, h⟩
    exact catalogContains_of_inView h.symm (.inl hnot)

namespace SystemToolchain

theorem probeFont_apply (t : SystemToolchain) (programs : Programs σ) (font : String)
    {s s' : Surroundings σ} {stdout stderr : ByteArray} (hpassable : isPassable t.fontLister = true)
    (h : programs t.fontLister [] s = (.ended (some 0) stdout stderr, s')) :
    t.probeFont programs font s =
      (if catalogContains (decodeLossy stdout) font then .present else .absent, s') := by
  rw [probeFont, Act.bind_apply, runProgram_apply, h, hpassable]
  rfl

/-- A font is found in every listing that holds its name exactly if the name has no loose sigma. A
name with one is still found where no letter with case is met on either side of it. So the probe
answers that a font is present whenever the lister ends well and prints the name in full view. -/
theorem finds_listed (t : SystemToolchain) (programs : Programs σ) (font : String) :
    ((∀ catalog : String, font.toList <:+: catalog.toList → catalogContains catalog font = true) ↔
        ¬HasLooseSigma font.toList) ∧
      (∀ (catalog : String) (before after : List Char),
        catalog.toList = before ++ font.toList ++ after → InView before font.toList after →
          catalogContains catalog font = true) ∧
      ∀ (s s' : Surroundings σ) (stdout stderr : ByteArray) (before after : List UInt8),
        isPassable t.fontLister = true →
        programs t.fontLister [] s = (.ended (some 0) stdout stderr, s') →
        stdout.toList = before ++ (encode font).toList ++ after →
        InView (Utf8.lossyFrom 0 before) font.toList (Utf8.lossyFrom 0 after) →
          t.probeFont programs font s = (.present, s') := by
  refine ⟨forall_catalogContains_iff, fun _ _ _ => catalogContains_of_inView, ?_⟩
  intro s s' stdout stderr before after hpassable hrun hprinted hview
  have hfound : catalogContains (decodeLossy stdout) font = true := by
    by_cases hfont : font = ""
    · subst hfont
      exact forall_catalogContains_iff.2 (by rintro ⟨u, v, h, _⟩; simp at h) _ List.nil_infix
    · exact catalogContains_of_inView (decodeLossy_around hprinted hfont) hview
  rw [probeFont_apply t programs font hpassable hrun, hfound]
  rfl

/-- Programs that print the same bytes in every run. -/
def printing (bytes : List UInt8) : Programs Unit :=
  fun _ _ s => (.ended (some 0) ⟨bytes.toArray⟩ .empty, s)

-- A sigma in front of a small letter, and bytes around the name that are no text.
theorem finds_listed_among_bytes :
    let name := (encode "Σοφία Sans").toList
    let programs := printing ([0x3A, 0xE2, 0x82] ++ name ++ [0xFF, 0x0A])
    ¬HasLooseSigma "Σοφία Sans".toList ∧ isPassable "fc-list" = true ∧
      (standard (.ofSecs 5)).probeFont programs "Σοφία Sans" .bare = (.present, .bare) := by
  intro name programs
  have hclear : ¬HasLooseSigma "Σοφία Sans".toList := by decide +kernel
  have hpassable : isPassable "fc-list" = true := by decide +kernel
  refine ⟨hclear, hpassable, ?_⟩
  exact (finds_listed (standard (.ofSecs 5)) programs "Σοφία Sans").2.2 .bare .bare _ .empty
    [0x3A, 0xE2, 0x82] [0xFF, 0x0A] hpassable rfl (toList_eq_data _) (.inl hclear)

/-- The line of a font whose name ends in a capital sigma. The colon behind the name is ignorable
and the letter after it has case, so the sigma is not at the end of a word. -/
def sigmaListing : String := "/usr/share/fonts/GFS.otf: ΑΣ:style=Regular\n"

theorem listed_font_missed :
    "ΑΣ".toList <:+: sigmaListing.toList ∧ catalogContains sigmaListing "ΑΣ" = false ∧
      (standard (.ofSecs 5)).probeFont (printing (encode sigmaListing).toList) "ΑΣ" .bare =
        (.absent, .bare) := by
  have hmissed : catalogContains sigmaListing "ΑΣ" = false := by decide +kernel
  refine ⟨by decide +kernel, hmissed, ?_⟩
  have hprinted : (⟨(encode sigmaListing).toList.toArray⟩ : ByteArray) = encode sigmaListing := by
    rw [toList_eq_data]
  rw [probeFont_apply _ _ _ (by decide +kernel) rfl, hprinted, decodeLossy_encode, hmissed]
  rfl

end SystemToolchain

end ResumePress
