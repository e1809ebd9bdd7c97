/-
CaptureSplit.Proofs.StreamIndex — which texts are stream indices.

`IsNumeral n cs` says that a text is one or more ASCII digits of the value
`n`, leading zeros included; `Index n text` says that a text, white space
around it aside, is such a numeral with or without a plus sign and that its
value is no more than a stream index can be. `streamIndex?_eq_some_iff`
says that these texts are read, as these values, and no others.
-/
import CaptureSplit.Dissection
import CaptureSplit.Proofs.FileNames

namespace CaptureSplit

namespace Text.Decimal

/-- One or more digits of the value `n`. -/
def IsNumeral (n : Nat) (cs : List Char) : Prop :=
  cs ≠ [] ∧ (∀ c ∈ cs, c.isDigit = true) ∧ Nat.ofDigitChars 10 cs 0 = n

theorem digit?_eq (c : Char) :
    digit? c = if c.isDigit = true then some (c.toNat - '0'.toNat) else none := by
  simp only [digit?, Char.isDigit, Bool.and_eq_true, decide_eq_true_eq]
  rfl

theorem digitsFrom?_eq_some_iff {n : Nat} : ∀ {cs : List Char} {value : Nat},
    digitsFrom? value cs = some n ↔
      (∀ c ∈ cs, c.isDigit = true) ∧ Nat.ofDigitChars 10 cs value = n
  | [], value => by simp [digitsFrom?]
  | c :: cs, value => by
      rw [digitsFrom?, digit?_eq, Nat.ofDigitChars_cons, List.forall_mem_cons]
      by_cases hc : c.isDigit = true
      · simp only [hc, if_true, true_and]
        exact digitsFrom?_eq_some_iff
      · simp [hc]

theorem digits?_eq_some_iff {n : Nat} {cs : List Char} :
    digits? cs = some n ↔ IsNumeral n cs := by
  unfold digits? IsNumeral
  split
  · next h => simp_all
  · next h =>
    have hne : cs ≠ [] := by simpa using h
    rw [digitsFrom?_eq_some_iff]
    exact ⟨fun hn => ⟨hne, hn⟩, fun hn => hn.2⟩

theorem unsigned?_eq_some_iff {bound n : Nat} {cs : List Char} :
    unsigned? bound cs = some n ↔ ∃ digits,
      (cs = digits ∨ cs = '+' :: digits) ∧ IsNumeral n digits ∧ n ≤ bound := by
  have hread : ∀ digits, (digits? digits).filter (· ≤ bound) = some n ↔
      IsNumeral n digits ∧ n ≤ bound := by
    intro digits
    rw [Option.filter_eq_some_iff, digits?_eq_some_iff]
    simp
  have hplus : ∀ digits, ¬ IsNumeral n ('+' :: digits) := by
    rintro digits ⟨-, hall, -⟩
    exact absurd (hall '+' (by simp)) (by decide)
  unfold unsigned?
  split
  · next rest =>
    rw [hread]
    constructor
    · exact fun hn => ⟨rest, .inr rfl, hn⟩
    · rintro ⟨digits, rfl | heq, hn⟩
      · exact absurd hn.1 (hplus rest)
      · rw [(List.cons.inj heq).2]
        exact hn
  · next hsign =>
    rw [hread]
    constructor
    · exact fun hn => ⟨cs, .inl rfl, hn⟩
    · rintro ⟨digits, rfl | rfl, hn⟩
      · exact hn
      · exact absurd rfl (hsign digits)

/-- The numeral that is written for a number denotes it. -/
theorem isNumeral_toString (n : Nat) : IsNumeral n (toString n).toList := by
  refine ⟨?_, fun c hc => isDigit_of_mem_numeral hc, ?_⟩
  · rw [Nat.toString_eq_repr, Nat.toList_repr]
    exact Nat.toDigits_ne_nil
  · rw [Nat.toString_eq_repr, Nat.toList_repr]
    exact Nat.ofDigitChars_ten_toDigits

end Text.Decimal

namespace Text

theorem isWhiteSpace_of_isDigit {c : Char} (h : c.isDigit = true) : isWhiteSpace c = false := by
  have hrange : 48 ≤ c.toNat ∧ c.toNat ≤ 57 := by
    simpa [Char.isDigit, UInt32.le_iff_toNat_le] using h
  simp [isWhiteSpace, whiteSpaceRanges, inRanges]
  omega

/-- A text without white space is trimmed. -/
theorem trim_eq_self {cs : List Char} (h : ∀ c ∈ cs, isWhiteSpace c = false) : trim cs = cs := by
  have htrim : trim ([] ++ cs ++ []) = cs := trim_append (by simp) h (by simp)
  rwa [List.nil_append, List.append_nil] at htrim

end Text

namespace Dissection

/-- The text denotes the stream index `n`. -/
def Index (n : Nat) (text : List Char) : Prop :=
  ∃ digits, (Text.trim text = digits ∨ Text.trim text = '+' :: digits) ∧
    Text.Decimal.IsNumeral n digits ∧ n ≤ maxIndex

theorem streamIndex?_eq_some_iff {text : String} {n : Nat} :
    streamIndex? text = some n ↔ Index n text.toList :=
  Text.Decimal.unsigned?_eq_some_iff

/-- A number that is an index is denoted by its numeral. -/
theorem index_toString {n : Nat} (h : n ≤ maxIndex) : Index n (toString n).toList := by
  have htrim : Text.trim (toString n).toList = (toString n).toList :=
    Text.trim_eq_self fun c hc => Text.isWhiteSpace_of_isDigit (isDigit_of_mem_numeral hc)
  exact ⟨_, .inl htrim, Text.Decimal.isNumeral_toString n, h⟩

end Dissection
end CaptureSplit
