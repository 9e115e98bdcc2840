import ResumePress.Proofs.CacheKey

/-!
Text among other bytes. The first byte of a character is none of those that go on with a character
before it, so encoded text is read as it was written wherever it stands, and what is in front of it
and behind it is read as if it stood alone.
-/

namespace ResumePress.Text

namespace Utf8

variable {bytes rest : List UInt8} {ranges : List (UInt8 × UInt8)}

/-- Bytes that do not go on with a character that was begun before them. -/
def StartsAnew (bytes : List UInt8) : Prop :=
  ∀ b ∈ bytes.head?, ¬(0x80 ≤ b ∧ b ≤ 0xBF)

theorem followers_subset {lead : UInt8} (h : followers lead = some ranges) :
    ∀ range ∈ ranges, 0x80 ≤ range.1 ∧ range.2 ≤ 0xBF := by
  unfold followers at h
  split_ifs at h <;> cases h <;> simp

theorem fitting_le_length (ranges : List (UInt8 × UInt8)) (bytes : List UInt8) :
    fitting ranges bytes ≤ bytes.length := by
  fun_induction fitting ranges bytes with
  | case1 low high ranges b bytes _ ih => simpa using ih
  | case2 => omega
  | case3 => omega

/-- No byte of text that starts anew completes a character. -/
theorem fitting_append (hranges : ∀ range ∈ ranges, 0x80 ≤ range.1 ∧ range.2 ≤ 0xBF)
    (hrest : StartsAnew rest) (bytes : List UInt8) :
    fitting ranges (bytes ++ rest) = fitting ranges bytes := by
  induction bytes generalizing ranges with
  | nil =>
    cases ranges with
    | nil => simp [fitting]
    | cons range ranges =>
      cases rest with
      | nil => rfl
      | cons b rest =>
        have hb : ¬(range.1 ≤ b ∧ b ≤ range.2) := fun hfit =>
          hrest b rfl ⟨UInt8.le_trans (hranges range List.mem_cons_self).1 hfit.1,
            UInt8.le_trans hfit.2 (hranges range List.mem_cons_self).2⟩
        rw [List.nil_append, fitting, if_neg hb, fitting]
        simp
  | cons b bytes ih =>
    cases ranges with
    | nil => simp [fitting]
    | cons range ranges =>
      rw [List.cons_append, fitting, fitting, ih fun r hr => hranges r (List.mem_cons_of_mem _ hr)]

theorem lossyFrom_append (hrest : StartsAnew rest) {skip : Nat} (hskip : skip ≤ bytes.length) :
    lossyFrom skip (bytes ++ rest) = lossyFrom skip bytes ++ lossyFrom 0 rest := by
  induction bytes generalizing skip with
  | nil =>
    obtain rfl : skip = 0 := Nat.le_zero.1 hskip
    rfl
  | cons lead bytes ih =>
    cases skip with
    | succ skip =>
      rw [List.cons_append, lossyFrom, lossyFrom, ih (Nat.le_of_succ_le_succ hskip)]
    | zero =>
      rw [List.cons_append, lossyFrom, lossyFrom]
      cases hfollowers : followers lead with
      | none => simp [ih]
      | some ranges =>
        have hlength := fitting_le_length ranges bytes
        simp only [fitting_append (followers_subset hfollowers) hrest]
        rw [ih hlength, List.take_append_of_le_length hlength]
        split <;> rfl

/-! ### The bytes of a character -/

theorem lossyFrom_skip (bytes rest : List UInt8) :
    lossyFrom bytes.length (bytes ++ rest) = lossyFrom 0 rest := by
  induction bytes with
  | nil => rfl
  | cons b bytes ih => rw [List.cons_append, List.length_cons, lossyFrom, ih]

/-- A lead byte and the bytes that complete it are read as one character. -/
theorem lossyFrom_character {lead : UInt8} (h : followers lead = some ranges)
    (hfit : fitting ranges (bytes ++ rest) = bytes.length) (hlength : bytes.length = ranges.length) :
    lossyFrom 0 (lead :: bytes ++ rest) =
      Char.ofNat (bytes.foldl (fun n b => n * 64 + b.toNat % 64) (leadBits lead bytes.length)) ::
        lossyFrom 0 rest := by
  rw [List.cons_append, lossyFrom, h]
  simp only [hfit, hlength, if_true]
  rw [← hlength, lossyFrom_skip, List.take_left]

theorem followers_ofNat {n : Nat} (hn : n < 256) :
    followers (UInt8.ofNat n) =
      if n ≤ 0x7F then some []
      else if 0xC2 ≤ n ∧ n ≤ 0xDF then some [(0x80, 0xBF)]
      else if n = 0xE0 then some [(0xA0, 0xBF), (0x80, 0xBF)]
      else if n = 0xED then some [(0x80, 0x9F), (0x80, 0xBF)]
      else if 0xE1 ≤ n ∧ n ≤ 0xEF then some [(0x80, 0xBF), (0x80, 0xBF)]
      else if n = 0xF0 then some [(0x90, 0xBF), (0x80, 0xBF), (0x80, 0xBF)]
      else if 0xF1 ≤ n ∧ n ≤ 0xF3 then some [(0x80, 0xBF), (0x80, 0xBF), (0x80, 0xBF)]
      else if n = 0xF4 then some [(0x80, 0x8F), (0x80, 0xBF), (0x80, 0xBF)]
      else none := by
  simp only [followers, UInt8.le_iff_toNat_le, ← UInt8.toNat_inj, UInt8.toNat_ofNat_of_lt' hn]
  rfl

theorem fitting_cons {n : Nat} {low high : UInt8} (hlow : low.toNat ≤ n) (hhigh : n ≤ high.toNat)
    (ranges : List (UInt8 × UInt8)) (bytes : List UInt8) :
    fitting ((low, high) :: ranges) (UInt8.ofNat n :: bytes) = fitting ranges bytes + 1 := by
  have hn : (UInt8.ofNat n).toNat = n :=
    UInt8.toNat_ofNat_of_lt' (Nat.lt_of_le_of_lt hhigh high.toNat_lt)
  rw [fitting, if_pos]
  simp only [UInt8.le_iff_toNat_le, hn]
  exact ⟨hlow, hhigh⟩

/-- A byte that carries the next six bits of a code point fits the usual range. -/
theorem fitting_cons_bits (n : Nat) (ranges : List (UInt8 × UInt8)) (bytes : List UInt8) :
    fitting ((0x80, 0xBF) :: ranges) (UInt8.ofNat (n % 0x40 + 0x80) :: bytes) =
      fitting ranges bytes + 1 :=
  fitting_cons (Nat.le_add_left _ _) (show n % 0x40 + 0x80 ≤ 0xBF by omega) ranges bytes

theorem fitting_nil (bytes : List UInt8) : fitting [] bytes = 0 := by
  cases bytes <;> rfl

/-- Encoded characters are read as they were written. -/
theorem lossyFrom_encode_append (c : Char) (rest : List UInt8) :
    lossyFrom 0 (String.utf8EncodeChar c ++ rest) = c :: lossyFrom 0 rest := by
  have hvalid : c.toNat < 0xD800 ∨ 0xDFFF < c.toNat ∧ c.toNat < 0x110000 := c.valid
  have hbyte : ∀ n < 256, (UInt8.ofNat n).toNat = n := fun n hn => UInt8.toNat_ofNat_of_lt' hn
  have hread : ∀ n, n = c.toNat → Char.ofNat n :: lossyFrom 0 rest = c :: lossyFrom 0 rest :=
    fun n hn => by rw [hn, Char.ofNat_toNat]
  fun_cases String.utf8EncodeChar c with
  | case1 v h1 =>
    have hlead : followers (UInt8.ofNat v) = some [] := by
      rw [followers_ofNat (by omega), if_pos h1]
    have hcharacter := lossyFrom_character hlead (fitting_nil ([] ++ rest)) rfl
    rw [hcharacter, List.foldl_nil, leadBits, hbyte v (by omega)]
    exact hread _ (Nat.mod_eq_of_lt (show v < 0x80 by omega))
  | case2 v h1 h2 =>
    have hv : v = c.toNat := rfl
    have hlead : followers (UInt8.ofNat (v / 64 % 0x20 + 0xc0)) = some [(0x80, 0xBF)] := by
      rw [followers_ofNat (by omega), if_neg (by omega), if_pos (by omega)]
    rw [lossyFrom_character hlead
      (by rw [List.singleton_append, fitting_cons_bits, fitting_nil]; rfl) rfl]
    simp (disch := omega) only [List.foldl_cons, List.foldl_nil, List.length_cons, List.length_nil,
      leadBits, hbyte]
    exact hread _ (by simp; omega)
  | case3 v h1 h2 h3 =>
    have hv : v = c.toNat := rfl
    have hlead : ∃ low high, followers (UInt8.ofNat (v / 4096 % 0x10 + 0xe0)) =
          some [(low, high), (0x80, 0xBF)] ∧
        low.toNat ≤ v / 64 % 0x40 + 0x80 ∧ v / 64 % 0x40 + 0x80 ≤ high.toNat := by
      rw [followers_ofNat (by omega), if_neg (by omega), if_neg (by omega)]
      split
      · exact ⟨_, _, rfl, show 0xA0 ≤ _ by omega, show _ ≤ 0xBF by omega⟩
      · split
        · exact ⟨_, _, rfl, show 0x80 ≤ _ by omega, show _ ≤ 0x9F by omega⟩
        · rw [if_pos (by omega)]
          exact ⟨_, _, rfl, show 0x80 ≤ _ by omega, show _ ≤ 0xBF by omega⟩
    obtain ⟨low, high, hlead, hlow, hhigh⟩ := hlead
    rw [lossyFrom_character hlead
      (by
        rw [List.cons_append, fitting_cons hlow hhigh, List.singleton_append, fitting_cons_bits,
          fitting_nil]
        rfl) rfl]
    simp (disch := omega) only [List.foldl_cons, List.foldl_nil, List.length_cons, List.length_nil,
      leadBits, hbyte]
    exact hread _ (by simp; omega)
  | case4 v h1 h2 h3 =>
    have hv : v = c.toNat := rfl
    have hlead : ∃ low high, followers (UInt8.ofNat (v / 262144 % 0x08 + 0xf0)) =
          some [(low, high), (0x80, 0xBF), (0x80, 0xBF)] ∧
        low.toNat ≤ v / 4096 % 0x40 + 0x80 ∧ v / 4096 % 0x40 + 0x80 ≤ high.toNat := by
      rw [followers_ofNat (by omega), if_neg (by omega), if_neg (by omega), if_neg (by omega),
        if_neg (by omega), if_neg (by omega)]
      split
      · exact ⟨_, _, rfl, show 0x90 ≤ _ by omega, show _ ≤ 0xBF by omega⟩
      · split
        · exact ⟨_, _, rfl, show 0x80 ≤ _ by omega, show _ ≤ 0xBF by omega⟩
        · rw [if_pos (by omega)]
          exact ⟨_, _, rfl, show 0x80 ≤ _ by omega, show _ ≤ 0x8F by omega⟩
    obtain ⟨low, high, hlead, hlow, hhigh⟩ := hlead
    rw [lossyFrom_character hlead
      (by
        rw [List.cons_append, fitting_cons hlow hhigh, List.cons_append, fitting_cons_bits,
          List.singleton_append, fitting_cons_bits, fitting_nil]
        rfl) rfl]
    simp (disch := omega) only [List.foldl_cons, List.foldl_nil, List.length_cons, List.length_nil,
      leadBits, hbyte]
    exact hread _ (by simp; omega)

theorem startsAnew_encode (c : Char) (rest : List UInt8) :
    StartsAnew (String.utf8EncodeChar c ++ rest) := by
  have hbyte : ∀ n < 256, n < 0x80 ∨ 0xBF < n →
      ¬(0x80 ≤ UInt8.ofNat n ∧ UInt8.ofNat n ≤ 0xBF) := by
    intro n hn hout hfit
    rw [UInt8.le_iff_toNat_le, UInt8.le_iff_toNat_le, UInt8.toNat_ofNat_of_lt' hn] at hfit
    have : 0x80 ≤ n ∧ n ≤ 0xBF := hfit
    omega
  fun_cases String.utf8EncodeChar c
  all_goals
    rintro b ⟨⟩
    exact hbyte _ (by omega) (by omega)

theorem lossyFrom_flatMap_append (s : List Char) (rest : List UInt8) :
    lossyFrom 0 (s.flatMap String.utf8EncodeChar ++ rest) = s ++ lossyFrom 0 rest := by
  induction s with
  | nil => rfl
  | cons c s ih =>
    rw [List.flatMap_cons, List.append_assoc, lossyFrom_encode_append, ih, List.cons_append]

end Utf8

/-- Encoded text is read as it was written among any other bytes. -/
theorem decodeLossy_around {bytes : ByteArray} {s : String} {before after : List UInt8}
    (h : bytes.toList = before ++ (encode s).toList ++ after) (hs : s ≠ "") :
    (decodeLossy bytes).toList =
      Utf8.lossyFrom 0 before ++ s.toList ++ Utf8.lossyFrom 0 after := by
  obtain ⟨c, rest, hs⟩ := List.exists_cons_of_ne_nil fun h => hs (String.toList_eq_nil_iff.1 h)
  have hanew : Utf8.StartsAnew ((encode s).toList ++ after) := by
    rw [toList_encode, hs, List.flatMap_cons, List.append_assoc]
    exact Utf8.startsAnew_encode c _
  rw [decodeLossy, String.toList_ofList, h, List.append_assoc,
    Utf8.lossyFrom_append hanew (Nat.zero_le _), toList_encode, Utf8.lossyFrom_flatMap_append,
    List.append_assoc]

theorem decodeLossy_encode (s : String) : decodeLossy (encode s) = s := by
  have h := Utf8.lossyFrom_flatMap_append s.toList []
  rw [List.append_nil, ← toList_encode, Utf8.lossyFrom, List.append_nil] at h
  rw [decodeLossy, h, String.ofList_toList]

end ResumePress.Text
