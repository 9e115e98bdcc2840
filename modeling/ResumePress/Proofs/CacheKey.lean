import Mathlib.Data.List.Count
import ResumePress.Cache
import ResumePress.Proofs.Files.Names

/-!
What the keys of the cache tell apart. The digits of a digest determine it, and the message that is
digested determines the text in which zero characters stand between the id, the source and the
content. Where that text is cut is known once it is known how many zero characters are in the parts.
-/

namespace ResumePress

namespace Text

theorem toList_loop (bytes : ByteArray) (i : Nat) (read : List UInt8) :
    ByteArray.toList.loop bytes i read = read.reverse ++ bytes.data.toList.drop i := by
  fun_induction ByteArray.toList.loop bytes i read with
  | case1 i read h ih =>
    have hi : i < bytes.data.size := h
    have hget : bytes.data.toList.drop i = bytes.get! i :: bytes.data.toList.drop (i + 1) := by
      rw [List.drop_eq_getElem_cons (by simpa using hi), Array.getElem_toList]
      congr 1
      exact (getElem!_pos bytes.data i hi).symm
    rw [ih, hget]
    simp
  | case2 i read h =>
    have hlength : bytes.data.toList.length ≤ i := by simpa using h
    rw [List.drop_of_length_le hlength, List.append_nil]

theorem toList_eq_data (bytes : ByteArray) : bytes.toList = bytes.data.toList := by
  rw [ByteArray.toList, toList_loop]
  rfl

theorem toList_encode (s : String) :
    (encode s).toList = s.toList.flatMap String.utf8EncodeChar := by
  rw [toList_eq_data, encode, String.toUTF8_eq_toByteArray, ← String.utf8Encode_toList,
    List.utf8Encode, List.toList_data_toByteArray]

theorem encode_inj {s s' : String} (h : (encode s).toList = (encode s').toList) : s = s' := by
  rw [toList_eq_data, toList_eq_data] at h
  have hbytes : s.toUTF8 = s'.toUTF8 := ByteArray.ext (Array.toList_inj.1 h)
  exact String.toByteArray_inj.1 hbytes

theorem hexDigit_inj {m n : Nat} (h : hexDigit m = hexDigit n) : m % 16 = n % 16 := by
  have hdigits : ∀ a < 16, ∀ b < 16, Nat.digitChar a = Nat.digitChar b → a = b := by decide
  exact hdigits _ (Nat.mod_lt _ (by omega)) _ (Nat.mod_lt _ (by omega)) h

theorem hex_inj {bytes bytes' : List UInt8} (h : hex bytes = hex bytes') : bytes = bytes' := by
  have hdigits := String.ofList_injective h
  clear h
  induction bytes generalizing bytes' with
  | nil =>
    cases bytes' with
    | nil => rfl
    | cons b' rest' => simp at hdigits
  | cons b rest ih =>
    cases bytes' with
    | nil => simp at hdigits
    | cons b' rest' =>
      simp only [List.flatMap_cons, List.cons_append, List.nil_append, List.cons.injEq] at hdigits
      obtain ⟨hhigh, hlow, hrest⟩ := hdigits
      have hhigh := hexDigit_inj hhigh
      have hlow := hexDigit_inj hlow
      have hb := b.toNat_lt
      have hb' := b'.toNat_lt
      have hbyte : b = b' := UInt8.toNat_inj.1 (by omega)
      rw [hbyte, ih hrest]

end Text

/-- A list is cut in one way at a separator that has a known number of others before it. -/
theorem append_cons_inj_of_count {α : Type} [DecidableEq α] {sep : α} {a a' rest rest' : List α}
    (hcount : a.count sep = a'.count sep)
    (h : a ++ sep :: rest = a' ++ sep :: rest') : a = a' ∧ rest = rest' := by
  rcases List.append_eq_append_iff.1 h with ⟨more, rfl, hmore⟩ | ⟨more, rfl, hmore⟩
  all_goals
    cases more with
    | nil => exact ⟨by simp, by simpa [eq_comm] using hmore⟩
    | cons x more =>
      -- the longer part has the other separator as well
      obtain ⟨rfl, -⟩ := List.cons.inj hmore
      simp at hcount

theorem not_slash_mem_cacheKey (id source content : String) :
    '/' ∉ (cacheKey id source content).toList :=
  Text.not_slash_mem_hex _

/-- The id, the source and the content with a zero character between them. -/
def cacheText (id source content : String) : List Char :=
  id.toList ++ '\x00' :: (source.toList ++ '\x00' :: content.toList)

/-- How many zero characters are in a text. -/
def zeros (s : String) : Nat := s.toList.count '\x00'

theorem zeros_eq_zero {s : String} : zeros s = 0 ↔ '\x00' ∉ s.toList :=
  List.count_eq_zero

section Keys

variable {id source content id' source' content' : String}

theorem cacheMessage_eq (id source content : String) : cacheMessage id source content =
    (Text.encode (String.ofList (cacheText id source content))).toList := by
  have hzero : String.utf8EncodeChar '\x00' = [0] := rfl
  simp [cacheMessage, cacheText, Text.toList_encode, hzero]

theorem cacheMessage_eq_iff :
    cacheMessage id source content = cacheMessage id' source' content' ↔
      cacheText id source content = cacheText id' source' content' := by
  rw [cacheMessage_eq, cacheMessage_eq]
  constructor
  · intro h
    exact String.ofList_injective (Text.encode_inj h)
  · intro h
    rw [h]

theorem cacheKey_eq_iff :
    cacheKey id source content = cacheKey id' source' content' ↔
      Digest.Sha256.digest (cacheMessage id source content) =
        Digest.Sha256.digest (cacheMessage id' source' content') :=
  ⟨Text.hex_inj, congrArg Text.hex⟩

theorem cacheText_inj (hid : zeros id = zeros id') (hsource : zeros source = zeros source')
    (h : cacheText id source content = cacheText id' source' content') :
    id = id' ∧ source = source' ∧ content = content' := by
  obtain ⟨hids, hrest⟩ := append_cons_inj_of_count hid h
  obtain ⟨hsources, hcontents⟩ := append_cons_inj_of_count hsource hrest
  exact ⟨String.toList_inj.1 hids, String.toList_inj.1 hsources, String.toList_inj.1 hcontents⟩

theorem count_cacheText (id source content : String) :
    (cacheText id source content).count '\x00' = zeros id + zeros source + zeros content + 2 := by
  simp only [cacheText, zeros, List.count_append, List.count_cons_self]
  omega

theorem cacheMessage_inj (hid : '\x00' ∉ id.toList) (hsource : '\x00' ∉ source.toList)
    (hid' : '\x00' ∉ id'.toList) (hsource' : '\x00' ∉ source'.toList)
    (h : cacheMessage id source content = cacheMessage id' source' content') :
    id = id' ∧ source = source' ∧ content = content' := by
  rw [← zeros_eq_zero] at hid hsource hid' hsource'
  exact cacheText_inj (hid.trans hid'.symm) (hsource.trans hsource'.symm) (cacheMessage_eq_iff.1 h)

/-- As far as the digest tells the messages apart, keys are equal if the texts with zero characters
between the parts are, and only then. The parts are equal as well if as many zero characters are in
the ids and as many in the sources, and only then; so they are if the parts of one key have none. -/
theorem cacheKey_parts
    (hdigest : Digest.Sha256.digest (cacheMessage id source content) =
        Digest.Sha256.digest (cacheMessage id' source' content') →
      cacheMessage id source content = cacheMessage id' source' content') :
    (cacheKey id source content = cacheKey id' source' content' ↔
      cacheText id source content = cacheText id' source' content') ∧
    (cacheKey id source content = cacheKey id' source' content' →
      (id = id' ∧ source = source' ∧ content = content' ↔
        zeros id = zeros id' ∧ zeros source = zeros source')) ∧
    (zeros id = 0 → zeros source = 0 → zeros content = 0 →
      cacheKey id source content = cacheKey id' source' content' →
        id = id' ∧ source = source' ∧ content = content') := by
  have hkeys : cacheKey id source content = cacheKey id' source' content' ↔
      cacheText id source content = cacheText id' source' content' := by
    rw [cacheKey_eq_iff, ← cacheMessage_eq_iff]
    exact ⟨hdigest, congrArg _⟩
  refine ⟨hkeys, fun hkey => ⟨?_, fun hzeros => ?_⟩, fun hid hsource hcontent hkey => ?_⟩
  · rintro ⟨rfl, rfl, -⟩
    exact ⟨rfl, rfl⟩
  · exact cacheText_inj hzeros.1 hzeros.2 (hkeys.1 hkey)
  · have hcount := congrArg (List.count '\x00') (hkeys.1 hkey)
    rw [count_cacheText, count_cacheText] at hcount
    exact cacheText_inj (by omega) (by omega) (hkeys.1 hkey)

end Keys

-- Parts that would run together without anything between them; each id has a zero character.
theorem cacheKey_parts_apart :
    Digest.Sha256.digest (cacheMessage "\x00ab" "c" "") ≠
        Digest.Sha256.digest (cacheMessage "\x00a" "bc" "") ∧
      cacheKey "\x00ab" "c" "" ≠ cacheKey "\x00a" "bc" "" := by
  have hdigest : Digest.Sha256.digest (cacheMessage "\x00ab" "c" "") ≠
      Digest.Sha256.digest (cacheMessage "\x00a" "bc" "") := by
    decide +kernel
  refine ⟨hdigest, fun hkey => ?_⟩
  obtain ⟨hid, -⟩ := ((cacheKey_parts fun h => absurd h hdigest).2.1 hkey).2
    ⟨by decide, by decide⟩
  exact absurd hid (by decide)

-- A zero character in the id is taken for the one behind it.
theorem cacheKey_zero_shifted :
    cacheMessage "cv\x00a" "b" "" = cacheMessage "cv" "a\x00b" "" ∧
      cacheKey "cv\x00a" "b" "" = cacheKey "cv" "a\x00b" "" ∧ "cv\x00a" ≠ "cv" := by
  have hmessage : cacheMessage "cv\x00a" "b" "" = cacheMessage "cv" "a\x00b" "" := by
    decide +kernel
  refine ⟨hmessage, ?_, by decide⟩
  rw [cacheKey, cacheKey, hmessage]

end ResumePress
