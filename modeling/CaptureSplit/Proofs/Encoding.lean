/-
CaptureSplit.Proofs.Encoding — what the bytes of a text tell of it.

An ASCII character is one byte, its own number; every byte of any other
character is 0x80 or more. So a byte below 0x80 stands among the bytes of a
text exactly when its character stands in the text (`mem_encode_iff`), and
texts that have the same bytes are the same (`encode_injective`).
-/
import CaptureSplit.Text.Utf8

namespace CaptureSplit.Text.Utf8

@[simp] theorem encode_nil : encode [] = [] := rfl

theorem encode_cons (c : Char) (cs : List Char) :
    encode (c :: cs) = String.utf8EncodeChar c ++ encode cs := by
  simp [encode]

theorem ofString_append (s t : String) : ofString (s ++ t) = ofString s ++ ofString t := by
  rw [ofString, String.toList_append, encode_append, ofString, ofString]

/-! ## ASCII and the rest -/

theorem utf8EncodeChar_of_lt {c : Char} (h : c.toNat < 0x80) :
    String.utf8EncodeChar c = [UInt8.ofNat c.toNat] := by
  have hv : c.val.toNat ≤ 0x7f := Nat.le_of_lt_succ h
  exact if_pos hv

/-- The bytes of a character beyond ASCII are none of ASCII. -/
theorem le_of_mem_utf8EncodeChar {c : Char} (h : 0x80 ≤ c.toNat) {b : UInt8}
    (hb : b ∈ String.utf8EncodeChar c) : 0x80 ≤ b.toNat := by
  have hv : ¬ c.val.toNat ≤ 0x7f := Nat.not_le_of_lt h
  unfold String.utf8EncodeChar at hb
  simp only [hv, if_false] at hb
  split at hb
  · simp only [List.mem_cons, List.not_mem_nil, or_false] at hb
    rcases hb with rfl | rfl <;> simp only [UInt8.toNat_ofNat'] <;> omega
  · split at hb
    · simp only [List.mem_cons, List.not_mem_nil, or_false] at hb
      rcases hb with rfl | rfl | rfl <;> simp only [UInt8.toNat_ofNat'] <;> omega
    · simp only [List.mem_cons, List.not_mem_nil, or_false] at hb
      rcases hb with rfl | rfl | rfl | rfl <;> simp only [UInt8.toNat_ofNat'] <;> omega

/-- A character that has an ASCII byte is that byte alone. -/
theorem eq_of_mem_utf8EncodeChar {c : Char} {b : UInt8} (h : b.toNat < 0x80)
    (hb : b ∈ String.utf8EncodeChar c) : c = Char.ofNat b.toNat := by
  by_cases hc : c.toNat < 0x80
  · rw [utf8EncodeChar_of_lt hc, List.mem_singleton] at hb
    have hn : b.toNat = c.toNat := by rw [hb, UInt8.toNat_ofNat']; omega
    rw [hn]
    exact (Char.ofNat_toNat c).symm
  · have := le_of_mem_utf8EncodeChar (by omega) hb
    omega

theorem toNat_ofNat_of_lt {n : Nat} (h : n < 0x80) : (Char.ofNat n).toNat = n := by
  have hv : n.isValidChar := Or.inl (by omega)
  rw [Char.ofNat, dif_pos hv]
  rfl

theorem mem_encode_iff {b : UInt8} (h : b.toNat < 0x80) (cs : List Char) :
    b ∈ encode cs ↔ Char.ofNat b.toNat ∈ cs := by
  simp only [encode, List.mem_flatMap]
  constructor
  · rintro ⟨c, hc, hb⟩
    rwa [← eq_of_mem_utf8EncodeChar h hb]
  · intro hc
    refine ⟨_, hc, ?_⟩
    have hn : (Char.ofNat b.toNat).toNat = b.toNat := toNat_ofNat_of_lt h
    rw [utf8EncodeChar_of_lt (by omega), hn, UInt8.ofNat_toNat]
    exact List.mem_singleton_self b

/-! ## Nothing is lost -/

theorem encode_injective {cs ds : List Char} (h : encode cs = encode ds) : cs = ds := by
  have hbytes : (String.ofList cs).toByteArray = (String.ofList ds).toByteArray := by
    rw [String.toByteArray_ofList, String.toByteArray_ofList]
    exact congrArg List.toByteArray h
  simpa using congrArg String.toList (String.toByteArray_inj.mp hbytes)

theorem ofString_injective {s t : String} (h : ofString s = ofString t) : s = t :=
  String.toList_inj.mp (encode_injective h)

end CaptureSplit.Text.Utf8
