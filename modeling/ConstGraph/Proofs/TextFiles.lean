import ConstGraph.Text.Newline
import ConstGraph.Text.Utf8
import Mathlib.Tactic.Common

/-!
# Text read back from a file

A text is written to a file as UTF-8 and read with every line end as a line
feed. What is written is decoded to the text itself (`decode?_encode`), so a
text without a carriage return is read back as it was written
(`readText_encode`), and a text that was read has none.
-/

namespace ConstGraph.Text

/-! ## Bytes of a text -/

namespace Utf8

theorem toList_eq_data (bytes : ByteArray) : bytes.toList = bytes.data.toList := by
  -- the loop goes up, so the induction is on what is left of the array
  have hloop : ∀ k i met, bytes.size - i = k →
      ByteArray.toList.loop bytes i met = met.reverse ++ bytes.data.toList.drop i := by
    intro k
    induction k with
    | zero =>
      intro i met hk
      have hi : ¬ i < bytes.size := by omega
      have hdrop : bytes.data.toList.drop i = [] := by
        refine List.drop_eq_nil_of_le ?_
        rw [Array.length_toList]
        exact Nat.le_of_not_lt hi
      rw [ByteArray.toList.loop.eq_1, if_neg hi, hdrop, List.append_nil]
    | succ k ih =>
      intro i met hk
      have hi : i < bytes.size := by omega
      have hget : bytes.data.toList.drop i = bytes.get! i :: bytes.data.toList.drop (i + 1) := by
        rw [List.drop_eq_getElem_cons (by simpa using hi)]
        simp [ByteArray.get!, hi]
      rw [ByteArray.toList.loop.eq_1, if_pos hi, ih (i + 1) _ (by omega), hget]
      simp
  exact hloop _ 0 [] rfl

/-- The bytes of a text are those of its characters in order. -/
theorem encode_eq_flatMap (s : String) : encode s = s.toList.flatMap String.utf8EncodeChar := by
  have hbytes : s.toUTF8 = (s.toList.flatMap String.utf8EncodeChar).toByteArray := by
    rw [String.toUTF8_eq_toByteArray, ← String.utf8Encode_toList]
    rfl
  rw [encode, hbytes, toList_eq_data, List.toList_data_toByteArray]

/-! ## Decoding one character -/

theorem lead_two {b : Nat} (hlow : 0xc2 ≤ b) (hhigh : b < 0xe0) :
    lead b = .start ⟨0, 0x80, 0xbf, b - 0xc0⟩ := by
  rw [lead, if_neg (by omega), if_neg (by omega), if_pos hhigh]

/-- The first of three bytes: the next one keeps out shorter forms and
surrogates. -/
theorem lead_three {b : Nat} (hlow : 0xe0 ≤ b) (hhigh : b < 0xf0) :
    lead b = .start ⟨1, if b = 0xe0 then 0xa0 else 0x80, if b = 0xed then 0x9f else 0xbf, b - 0xe0⟩ := by
  rw [lead, if_neg (by omega), if_neg (by omega), if_neg (by omega)]
  by_cases h0 : b = 0xe0
  · subst h0
    rfl
  · by_cases hd : b = 0xed
    · subst hd
      rfl
    · rw [if_neg h0, if_neg hd, if_pos hhigh, if_neg h0, if_neg hd]

/-- The first of four bytes: the next one keeps out shorter forms and what
is beyond the last character. -/
theorem lead_four {b : Nat} (hlow : 0xf0 ≤ b) (hhigh : b ≤ 0xf4) :
    lead b = .start ⟨2, if b = 0xf0 then 0x90 else 0x80, if b = 0xf4 then 0x8f else 0xbf, b - 0xf0⟩ := by
  rw [lead, if_neg (by omega), if_neg (by omega), if_neg (by omega), if_neg (by omega),
    if_neg (by omega), if_neg (by omega)]
  by_cases h0 : b = 0xf0
  · subst h0
    rfl
  · by_cases h4 : b = 0xf4
    · subst h4
      rfl
    · rw [if_neg h0, if_neg h4, if_pos (by omega), if_neg h0, if_neg h4]

theorem decodeFrom_last {low high bits : Nat} {b : UInt8} (rest : List UInt8)
    (hlow : low ≤ b.toNat) (hhigh : b.toNat ≤ high) :
    decodeFrom (some ⟨0, low, high, bits⟩) (b :: rest) =
      some (Char.ofNat (64 * bits + (b.toNat - 0x80))) :: decodeFrom none rest := by
  simp [decodeFrom, hlow, hhigh]

theorem decodeFrom_more {more low high bits : Nat} {b : UInt8} (rest : List UInt8)
    (hlow : low ≤ b.toNat) (hhigh : b.toNat ≤ high) :
    decodeFrom (some ⟨more + 1, low, high, bits⟩) (b :: rest) =
      decodeFrom (some ⟨more, 0x80, 0xbf, 64 * bits + (b.toNat - 0x80)⟩) rest := by
  simp [decodeFrom, hlow, hhigh]

theorem decodeFrom_start {p : Partial} {b : UInt8} (rest : List UInt8)
    (h : lead b.toNat = .start p) : decodeFrom none (b :: rest) = decodeFrom (some p) rest := by
  simp [decodeFrom, h]

theorem toNat_ofNat {n : Nat} (h : n < 256) : (UInt8.ofNat n).toNat = n := Nat.mod_eq_of_lt h

section

variable {v : Nat} (rest : List UInt8)

theorem decodeFrom_one (h : v ≤ 0x7f) :
    decodeFrom none (UInt8.ofNat v :: rest) = some (Char.ofNat v) :: decodeFrom none rest := by
  have hlead : lead (UInt8.ofNat v).toNat = .whole (Char.ofNat v) := by
    rw [toNat_ofNat (by omega), lead, if_pos (by omega)]
  rw [decodeFrom, hlead]

theorem decodeFrom_two (hlow : 0x7f < v) (hhigh : v ≤ 0x7ff) :
    decodeFrom none (UInt8.ofNat (v / 64 % 32 + 192) :: UInt8.ofNat (v % 64 + 128) :: rest) =
      some (Char.ofNat v) :: decodeFrom none rest := by
  have hfirst : (UInt8.ofNat (v / 64 % 32 + 192)).toNat = v / 64 + 192 := by
    rw [toNat_ofNat (by omega)]
    omega
  have hlast : (UInt8.ofNat (v % 64 + 128)).toNat = v % 64 + 128 := toNat_ofNat (by omega)
  have hlead := lead_two (b := v / 64 + 192) (by omega) (by omega)
  rw [← hfirst] at hlead
  have hbits : 64 * (v / 64 + 192 - 0xc0) + (v % 64 + 128 - 0x80) = v := by omega
  rw [decodeFrom_start _ hlead, decodeFrom_last _ (by omega) (by omega), hfirst, hlast, hbits]

theorem decodeFrom_three (hlow : 0x7ff < v) (hhigh : v ≤ 0xffff)
    (hvalid : v < 0xd800 ∨ 0xdfff < v) :
    decodeFrom none (UInt8.ofNat (v / 4096 % 16 + 224) :: UInt8.ofNat (v / 64 % 64 + 128) ::
        UInt8.ofNat (v % 64 + 128) :: rest) = some (Char.ofNat v) :: decodeFrom none rest := by
  have hfirst : (UInt8.ofNat (v / 4096 % 16 + 224)).toNat = v / 4096 + 224 := by
    rw [toNat_ofNat (by omega)]
    omega
  have hsecond : (UInt8.ofNat (v / 64 % 64 + 128)).toNat = v / 64 % 64 + 128 :=
    toNat_ofNat (by omega)
  have hlast : (UInt8.ofNat (v % 64 + 128)).toNat = v % 64 + 128 := toNat_ofNat (by omega)
  have hlead := lead_three (b := v / 4096 + 224) (by omega) (by omega)
  rw [← hfirst] at hlead
  have hbits : 64 * (64 * (v / 4096 + 224 - 0xe0) + (v / 64 % 64 + 128 - 0x80)) +
      (v % 64 + 128 - 0x80) = v := by omega
  rw [decodeFrom_start _ hlead, decodeFrom_more, decodeFrom_last _ (by omega) (by omega), hfirst,
    hsecond, hlast, hbits]
  -- the second byte is neither too low for three bytes nor that of a surrogate
  · rw [hfirst, hsecond]
    split <;> omega
  · rw [hfirst, hsecond]
    split <;> omega

theorem decodeFrom_four (hlow : 0xffff < v) (hhigh : v < 0x110000) :
    decodeFrom none (UInt8.ofNat (v / 262144 % 8 + 240) :: UInt8.ofNat (v / 4096 % 64 + 128) ::
        UInt8.ofNat (v / 64 % 64 + 128) :: UInt8.ofNat (v % 64 + 128) :: rest) =
      some (Char.ofNat v) :: decodeFrom none rest := by
  have hfirst : (UInt8.ofNat (v / 262144 % 8 + 240)).toNat = v / 262144 + 240 := by
    rw [toNat_ofNat (by omega)]
    omega
  have hsecond : (UInt8.ofNat (v / 4096 % 64 + 128)).toNat = v / 4096 % 64 + 128 :=
    toNat_ofNat (by omega)
  have hthird : (UInt8.ofNat (v / 64 % 64 + 128)).toNat = v / 64 % 64 + 128 :=
    toNat_ofNat (by omega)
  have hlast : (UInt8.ofNat (v % 64 + 128)).toNat = v % 64 + 128 := toNat_ofNat (by omega)
  have hlead := lead_four (b := v / 262144 + 240) (by omega) (by omega)
  rw [← hfirst] at hlead
  have hbits : 64 * (64 * (64 * (v / 262144 + 240 - 0xf0) + (v / 4096 % 64 + 128 - 0x80)) +
      (v / 64 % 64 + 128 - 0x80)) + (v % 64 + 128 - 0x80) = v := by omega
  rw [decodeFrom_start _ hlead, decodeFrom_more, decodeFrom_more _ (by omega) (by omega),
    decodeFrom_last _ (by omega) (by omega), hfirst, hsecond, hthird, hlast, hbits]
  -- the second byte is neither too low for four bytes nor beyond the last character
  · rw [hfirst, hsecond]
    split <;> omega
  · rw [hfirst, hsecond]
    split <;> omega

end

/-- **The bytes of a character are decoded to it**, whatever bytes follow. -/
theorem decodeFrom_utf8EncodeChar (c : Char) (rest : List UInt8) :
    decodeFrom none (String.utf8EncodeChar c ++ rest) = some c :: decodeFrom none rest := by
  have hvalid : c.val.toNat < 0xd800 ∨ 0xdfff < c.val.toNat ∧ c.val.toNat < 0x110000 := c.valid
  have hchar : Char.ofNat c.val.toNat = c := Char.ofNat_toNat c
  simp only [String.utf8EncodeChar]
  by_cases h1 : c.val.toNat ≤ 0x7f
  · rw [if_pos h1]
    exact (decodeFrom_one rest h1).trans (by rw [hchar])
  by_cases h2 : c.val.toNat ≤ 0x7ff
  · rw [if_neg h1, if_pos h2]
    exact (decodeFrom_two rest (by omega) h2).trans (by rw [hchar])
  by_cases h3 : c.val.toNat ≤ 0xffff
  · rw [if_neg h1, if_neg h2, if_pos h3]
    exact (decodeFrom_three rest (by omega) h3 (by omega)).trans (by rw [hchar])
  · rw [if_neg h1, if_neg h2, if_neg h3]
    exact (decodeFrom_four rest (by omega) (by omega)).trans (by rw [hchar])

/-- **What is written is read back.** -/
theorem decode?_encode (s : String) : decode? (encode s) = some s := by
  have hdecode : ∀ cs : List Char, decode (cs.flatMap String.utf8EncodeChar) = cs.map some := by
    intro cs
    induction cs with
    | nil => rfl
    | cons c cs ih =>
      rw [List.flatMap_cons, decode, decodeFrom_utf8EncodeChar, List.map_cons, ← ih]
      rfl
  have hall : ∀ cs : List Char, (cs.map some).mapM id = some cs := by
    intro cs
    induction cs with
    | nil => rfl
    | cons c cs ih => simp [List.mapM_cons, ih]
  rw [decode?, encode_eq_flatMap, hdecode, hall, Option.map_some, String.ofList_toList]

end Utf8

/-! ## Line ends -/

/-- The text of a file, if it is UTF-8, with every line end as a line
feed. -/
def readText (bytes : List UInt8) : Option (List Char) :=
  (Utf8.decode? bytes).map fun s => unifyLineEnds s.toList

theorem return_notMem_unifyLineEnds (cs : List Char) : '\r' ∉ unifyLineEnds cs := by
  fun_induction unifyLineEnds cs <;> simp_all [eq_comm]

theorem unifyLineEnds_eq_self {cs : List Char} (h : '\r' ∉ cs) : unifyLineEnds cs = cs := by
  fun_induction unifyLineEnds cs <;> simp_all

/-- **A text without a carriage return is read as it was written.** -/
theorem readText_encode {cs : List Char} (h : '\r' ∉ cs) :
    readText (Utf8.encode (String.ofList cs)) = some cs := by
  rw [readText, Utf8.decode?_encode, Option.map_some, String.toList_ofList, unifyLineEnds_eq_self h]

end ConstGraph.Text
