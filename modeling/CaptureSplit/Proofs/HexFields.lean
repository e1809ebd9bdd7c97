/-
CaptureSplit.Proofs.HexFields — fields told by their characters.

`Packet.Field` derives a field pair by pair. Here the two notations are told
as a whole: an even number of digits (`DigitPairs`), or two or more pieces of
two digits each with a colon between each two (`ColonPairs`).

A text with a colon in it is split at its colons and read piece by piece, so
it is read where each piece is a pair of digits (`exists_colons_iff`); without
a colon it is read as a whole. Either way the bytes have the digits of the
text (`encode_of_colons`), and what is read as the bytes is what is written for
them, in digits of either case, with a colon behind each byte but the last or
without any (`colons_iff`). Of a single byte, and of none, the two are the
same.
-/
import CaptureSplit.Proofs.HexRows

namespace CaptureSplit

namespace Hex

/-- The digits of the bytes, a colon between each two of them. -/
def encodeColons (bytes : Bytes) : List Char :=
  [':'].intercalate (bytes.map fun b => encode [b])

theorem encodeColons_nil : encodeColons [] = [] := rfl

theorem encodeColons_singleton (b : UInt8) : encodeColons [b] = encode [b] :=
  List.intercalate_singleton

theorem encodeColons_cons (b b' : UInt8) (bs : Bytes) :
    encodeColons (b :: b' :: bs) = encode [b] ++ ':' :: encodeColons (b' :: bs) := by
  simp [encodeColons, List.intercalate_cons_cons]

theorem toLower_eq_colon_iff {c : Char} : c.toLower = ':' ↔ c = ':' := by
  constructor
  · intro h
    by_cases hc : c.toNat < 0x80
    · have hall : ∀ k < 0x80, (Char.ofNat k).toLower = ':' → Char.ofNat k = ':' := by decide +kernel
      rw [← Char.ofNat_toNat c] at h ⊢
      exact hall c.toNat hc h
    · rwa [toLower_eq_self_of_le (by omega)] at h
  · rintro rfl
    decide

theorem isWhiteSpace_of_mem_digits {c : Char} (h : c ∈ digits) : Text.isWhiteSpace c = false := by
  have hall : digits.all (fun d => !Text.isWhiteSpace d) = true := by decide
  simpa using List.all_eq_true.mp hall c h

theorem mem_digits_of_spells {cs : List Char} {bs : Bytes} (h : Spells cs bs) :
    ∀ c ∈ cs, c ∈ digits :=
  (exists_spells_iff.mp ⟨bs, h⟩).1

end Hex

namespace Packet

/-! ## The two notations -/

/-- An even number of hex digits. -/
def DigitPairs (cs : List Char) : Prop := (∀ c ∈ cs, c ∈ Hex.digits) ∧ 2 ∣ cs.length

/-- Two hex digits. -/
def IsPair (piece : List Char) : Prop := piece.length = 2 ∧ ∀ c ∈ piece, c ∈ Hex.digits

/-- Two or more pairs of hex digits, a colon between each two. -/
def ColonPairs (cs : List Char) : Prop :=
  ∃ pieces : List (List Char), 2 ≤ pieces.length ∧ (∀ piece ∈ pieces, IsPair piece) ∧
    cs = [':'].intercalate pieces

theorem colon_notMem_digits : ':' ∉ Hex.digits := by decide

theorem IsPair.colon_notMem {piece : List Char} (h : IsPair piece) : ':' ∉ piece :=
  fun hmem => colon_notMem_digits (h.2 ':' hmem)

theorem colonPairs_iff {cs : List Char} :
    ColonPairs cs ↔ ':' ∈ cs ∧ ∀ piece ∈ cs.splitOn ':', IsPair piece := by
  rw [← Splitting.two_le_length_splitOn_iff]
  constructor
  · rintro ⟨pieces, hlength, hpairs, hcs⟩
    have hne : pieces ≠ [] := List.length_pos_iff.mp (by omega)
    have hcolons : ∀ piece ∈ pieces, ':' ∉ piece :=
      fun piece hpiece => (hpairs piece hpiece).colon_notMem
    rw [Splitting.splitOn_eq_iff.mpr ⟨hne, hcolons, hcs⟩]
    exact ⟨hlength, hpairs⟩
  · rintro ⟨hlength, hpairs⟩
    exact ⟨cs.splitOn ':', hlength, hpairs, (List.intercalate_splitOn ':').symm⟩

/-! ## Which texts are read -/

theorem exists_pair_iff {piece : List Char} :
    (∃ bs, pair (Text.Utf8.encode piece) = .ok bs) ↔ IsPair piece := by
  simp only [pair_encode_eq_ok_iff]
  constructor
  · rintro ⟨_, b, high, low, rfl, rfl, hspells⟩
    exact ⟨rfl, Hex.mem_digits_of_spells hspells⟩
  · rintro ⟨hlength, hdigits⟩
    obtain ⟨high, low, rfl⟩ := List.length_eq_two.mp hlength
    obtain ⟨bs, hspells⟩ := Hex.exists_spells_iff.mpr ⟨hdigits, by simp⟩
    have hone := Hex.length_of_spells hspells
    obtain ⟨b, rfl⟩ := List.length_eq_one_iff.mp (show bs.length = 1 by simp at hone; omega)
    exact ⟨[b], b, high, low, rfl, rfl, hspells⟩

theorem exists_colons_iff {cs : List Char} :
    (∃ bs, Colons bs cs) ↔ ∀ piece ∈ cs.splitOn ':', IsPair piece := by
  simp only [← ofGroups_splitOn_eq_ok_iff, exists_ofGroups_iff, exists_pair_iff]

/-- A field is read where it is in either notation, white space around it
aside. -/
theorem exists_field_iff {text : List Char} :
    (∃ bs, Field bs text) ↔ DigitPairs (Text.trim text) ∨ ColonPairs (Text.trim text) := by
  have hpairs : (∃ bs, Field bs text) ↔
      DigitPairs (Text.trim text) ∨ ∀ piece ∈ (Text.trim text).splitOn ':', IsPair piece := by
    simp only [Field, exists_or, Hex.exists_spells_iff, exists_colons_iff, DigitPairs]
  rw [hpairs, colonPairs_iff]
  by_cases hcolon : ':' ∈ Text.trim text
  · simp [hcolon]
  · -- without a colon, a pair of digits is in the first notation
    rw [List.splitOn_eq_singleton hcolon, List.forall_mem_singleton]
    have hpair : IsPair (Text.trim text) → DigitPairs (Text.trim text) :=
      fun h => ⟨h.2, by simp [h.1]⟩
    simp only [hcolon, false_and, or_false, or_iff_left_iff_imp]
    exact hpair

/-! ## What they are read as -/

theorem filter_of_spells {bs : Bytes} {cs : List Char} (h : Hex.Spells cs bs) :
    cs.filter (fun c => c ≠ ':') = cs := by
  refine List.filter_eq_self.mpr fun c hc => ?_
  have hne : c ≠ ':' := fun heq => colon_notMem_of_spells h (heq ▸ hc)
  simpa using hne

/-- The digits between the colons are those of the bytes. -/
theorem encode_of_colons {bs : Bytes} {cs : List Char} (h : Colons bs cs) :
    Hex.Spells (cs.filter fun c => c ≠ ':') bs := by
  induction h with
  | last hspells =>
    rw [filter_of_spells hspells]
    exact hspells
  | @more b bs high low cs hspells _ ih =>
    have hsplit : high :: low :: ':' :: cs = [high, low] ++ ':' :: cs := rfl
    rw [hsplit, List.filter_append, filter_of_spells hspells, List.filter_cons_of_neg (by simp)]
    exact Hex.spells_append hspells ih

theorem encode_of_field {bs : Bytes} {text : List Char} (h : Field bs text) :
    Hex.Spells ((Text.trim text).filter fun c => c ≠ ':') bs := by
  rcases h with hspells | hcolons
  · rw [filter_of_spells hspells]
    exact hspells
  · exact encode_of_colons hcolons

/-- Single pairs with colons between them are what is written for bytes in this
way, be the digits in either case. -/
theorem colons_iff {bs : Bytes} {cs : List Char} :
    Colons bs cs ↔ bs ≠ [] ∧ cs.map Char.toLower = Hex.encodeColons bs := by
  constructor
  · intro h
    refine ⟨by cases h <;> simp, ?_⟩
    induction h with
    | @last b high low hspells =>
      rw [Hex.encodeColons_singleton]
      exact hspells
    | @more b bs high low cs hspells hmore ih =>
      obtain ⟨b', bs, rfl⟩ : ∃ b' more, bs = b' :: more := by cases hmore <;> exact ⟨_, _, rfl⟩
      have hpair : [high.toLower, low.toLower] = Hex.encode [b] := hspells
      rw [Hex.encodeColons_cons, ← ih, ← hpair]
      rfl
  · rintro ⟨hne, h⟩
    induction bs generalizing cs with
    | nil => exact absurd rfl hne
    | cons b bs ih =>
      cases bs with
      | nil =>
        rw [Hex.encodeColons_singleton] at h
        obtain ⟨high, low, rest, rfl, -, -, hrest⟩ := Hex.spells_cons_iff.mp h
        obtain rfl := Hex.spells_nil_iff.mp hrest
        exact .last h
      | cons b' bs =>
        rw [Hex.encodeColons_cons] at h
        obtain ⟨word, rest, rfl, hword, hrest⟩ := List.map_eq_append_iff.mp h
        obtain ⟨colon, later, rfl, hcolon, hlater⟩ := List.map_eq_cons_iff.mp hrest
        obtain rfl := Hex.toLower_eq_colon_iff.mp hcolon
        obtain ⟨high, low, none, rfl, -, -, hnone⟩ := Hex.spells_cons_iff.mp hword
        obtain rfl := Hex.spells_nil_iff.mp hnone
        exact .more hword (ih (by simp) hlater)

/-- A text in either notation holds no white space. -/
theorem isWhiteSpace_of_field {bs : Bytes} {cs : List Char}
    (h : Hex.Spells cs bs ∨ Colons bs cs) : ∀ c ∈ cs, Text.isWhiteSpace c = false := by
  intro c hc
  rcases h with hspells | hcolons
  · exact Hex.isWhiteSpace_of_mem_digits (Hex.mem_digits_of_spells hspells c hc)
  · by_cases heq : c = ':'
    · rw [heq]
      decide
    · have hmem : c ∈ cs.filter fun c => c ≠ ':' := by simp [hc, heq]
      exact Hex.isWhiteSpace_of_mem_digits
        (Hex.mem_digits_of_spells (encode_of_colons hcolons) c hmem)

/-- A text in either notation is written in digits of either case for its bytes,
without colons or with them. -/
theorem spells_or_colons_iff {bs : Bytes} {cs : List Char} :
    Hex.Spells cs bs ∨ Colons bs cs ↔
      cs.map Char.toLower = Hex.encode bs ∨ cs.map Char.toLower = Hex.encodeColons bs := by
  cases bs with
  | nil => simp [colons_iff, Hex.Spells, Hex.encodeColons_nil, Hex.encode]
  | cons b bs => simp [colons_iff, Hex.Spells]

/-- A field is read as bytes where it is what is written for them, with white
space around it. -/
theorem field_iff {bs : Bytes} {text : List Char} :
    Field bs text ↔ ∃ front inner back, text = front ++ inner ++ back ∧
      (∀ c ∈ front, Text.isWhiteSpace c = true) ∧ (∀ c ∈ back, Text.isWhiteSpace c = true) ∧
      (inner.map Char.toLower = Hex.encode bs ∨
        inner.map Char.toLower = Hex.encodeColons bs) := by
  simp only [← spells_or_colons_iff]
  constructor
  · intro h
    obtain ⟨front, back, htext, hfront, hback⟩ := (Text.trimmed_trim text).around
    exact ⟨front, Text.trim text, back, htext, hfront, hback, h⟩
  · rintro ⟨front, inner, back, rfl, hfront, hback, h⟩
    rw [Field, Text.trim_append hfront (isWhiteSpace_of_field h) hback]
    exact h

/-- Of a field the white space at both ends is left out. It is read where the
rest is an even number of hex digits, or two or more pairs of hex digits with
single colons between them, and nowhere else. It is read as the bytes that have
the same digits, and whatever is written for bytes in either notation, with white
space around it, is read back. -/
theorem ofField_reads_both_notations (field : String) :
    ∃ inner, Text.Trimmed field.toList inner ∧
    ((∃ bs, ofField field = .ok bs) ↔ DigitPairs inner ∨ ColonPairs inner) ∧
    (∀ bs, ofField field = .ok bs ↔ (DigitPairs inner ∨ ColonPairs inner) ∧
      Hex.encode bs = (inner.filter fun c => c ≠ ':').map Char.toLower) ∧
    ∀ bs, ofField field = .ok bs ↔ ∃ front text back, field.toList = front ++ text ++ back ∧
      (∀ c ∈ front, Text.isWhiteSpace c = true) ∧ (∀ c ∈ back, Text.isWhiteSpace c = true) ∧
      (text.map Char.toLower = Hex.encode bs ∨ text.map Char.toLower = Hex.encodeColons bs) := by
  simp only [ofField_eq_ok_iff]
  refine ⟨Text.trim field.toList, Text.trimmed_trim _, exists_field_iff, fun bs => ?_,
    fun bs => field_iff⟩
  constructor
  · intro h
    exact ⟨exists_field_iff.mp ⟨bs, h⟩, (encode_of_field h).symm⟩
  · rintro ⟨heither, hdigits⟩
    obtain ⟨bs', h⟩ := exists_field_iff.mpr heither
    obtain rfl : bs' = bs := Hex.spells_unique (encode_of_field h) hdigits.symm
    exact h

/-- The digits are four in all, but two pieces are not pairs. -/
example : (ofField "dea:d").toOption = none := by decide +kernel

end Packet
end CaptureSplit
