/-
CaptureSplit.Proofs.HexDigits — which texts the hex reader takes.

`Spells cs bs` says that a text is the digits of some bytes, two for each
byte, each digit in either case: with its letters lowered it is what
`encode` writes. `decode_encode_eq_ok_iff` says that `decode` takes the
bytes of these texts and of no others, and answers with the bytes spelled.
A character beyond ASCII is read byte by byte, and none of its bytes is a
digit (`digit?_of_le`), so nothing is gained by going beyond ASCII.
-/
import CaptureSplit.Packet.Hex
import CaptureSplit.Proofs.Encoding

namespace CaptureSplit.Hex

open CaptureSplit.Text.Utf8 (encode_nil encode_cons utf8EncodeChar_of_lt le_of_mem_utf8EncodeChar)

/-- The text `cs` is the bytes `bs` in hex digits of either case. -/
def Spells (cs : List Char) (bs : Bytes) : Prop := cs.map Char.toLower = encode bs

/-! ## One digit -/

/-- On ASCII, the values of the digits are those of `digit`. -/
theorem digit?_ofNat : ∀ k < 0x80, ∀ n < 16,
    digit? (UInt8.ofNat k) = some (UInt8.ofNat n) ↔ (Char.ofNat k).toLower = digit n := by
  decide +kernel

theorem digit_lt : ∀ n < 16, (digit n).toNat < 0x80 := by decide

theorem digit?_of_le {b : UInt8} (h : 0x80 ≤ b.toNat) : digit? b = none := by
  have hb : 128 ≤ b.toNat := h
  simp only [digit?, UInt8.le_iff_toNat_le, Bool.and_eq_true, decide_eq_true_eq]
  rw [if_neg, if_neg, if_neg] <;> simp <;> omega

theorem lt_of_digit? {b v : UInt8} (h : digit? b = some v) : v.toNat < 16 := by
  simp only [digit?, UInt8.le_iff_toNat_le, Bool.and_eq_true, decide_eq_true_eq] at h
  split at h
  · next hb =>
    injection h with h
    rw [← h, UInt8.toNat_sub_of_le _ _ (UInt8.le_iff_toNat_le.mpr hb.1)]
    simp at hb ⊢
    omega
  · split at h
    · next hb =>
      injection h with h
      have hle : (0x57 : UInt8) ≤ b := UInt8.le_iff_toNat_le.mpr (by simp at hb ⊢; omega)
      rw [← h, UInt8.toNat_sub_of_le _ _ hle]
      simp at hb ⊢
      omega
    · split at h
      · next hb =>
        injection h with h
        have hle : (0x37 : UInt8) ≤ b := UInt8.le_iff_toNat_le.mpr (by simp at hb ⊢; omega)
        rw [← h, UInt8.toNat_sub_of_le _ _ hle]
        simp at hb ⊢
        omega
      · cases h

/-- Characters beyond ASCII have no lower case. -/
theorem toLower_eq_self_of_le {c : Char} (h : 0x80 ≤ c.toNat) : c.toLower = c := by
  unfold Char.toLower
  rw [dif_neg]
  rintro ⟨-, hz⟩
  have : c.toNat ≤ 'Z'.toNat := UInt32.le_iff_toNat_le.mp hz
  have : 'Z'.toNat = 90 := rfl
  omega

/-- A character that stands for a digit is an ASCII character. -/
theorem lt_of_toLower {c : Char} {n : Nat} (hn : n < 16) (h : c.toLower = digit n) :
    c.toNat < 0x80 := by
  refine Nat.lt_of_not_le fun hle => ?_
  have := digit_lt n hn
  rw [← h, toLower_eq_self_of_le hle] at this
  omega

/-- A character is a digit when its one byte is, and has the same value. -/
theorem utf8EncodeChar_of_toLower {c : Char} {n : Nat} (hn : n < 16)
    (h : c.toLower = digit n) :
    ∃ b, String.utf8EncodeChar c = [b] ∧ digit? b = some (UInt8.ofNat n) := by
  have hc := lt_of_toLower hn h
  refine ⟨_, utf8EncodeChar_of_lt hc, (digit?_ofNat _ hc n hn).mpr ?_⟩
  rw [Char.ofNat_toNat, h]

/-- A character whose first byte is a digit has no other byte. -/
theorem toLower_of_utf8EncodeChar {c : Char} {b v : UInt8} {rest : Bytes}
    (hc : String.utf8EncodeChar c = b :: rest) (h : digit? b = some v) :
    rest = [] ∧ c.toLower = digit v.toNat := by
  have hlt : c.toNat < 0x80 := by
    refine Nat.lt_of_not_le fun hle => ?_
    have hb := le_of_mem_utf8EncodeChar hle (b := b) (by simp [hc])
    rw [digit?_of_le hb] at h
    cases h
  rw [utf8EncodeChar_of_lt hlt] at hc
  injection hc with hb hr
  refine ⟨hr.symm, ?_⟩
  have hiff := digit?_ofNat _ hlt _ (lt_of_digit? h)
  rw [hb, UInt8.ofNat_toNat, Char.ofNat_toNat] at hiff
  exact hiff.mp h

/-! ## Pairs of digits -/

theorem encode_cons_byte (b : UInt8) (bs : Bytes) :
    encode (b :: bs) = digit (b.toNat / 16) :: digit (b.toNat % 16) :: encode bs := rfl

theorem spells_nil_iff {cs : List Char} : Spells cs [] ↔ cs = [] := by
  simp [Spells, encode]

theorem spells_cons_iff {cs : List Char} {b : UInt8} {bs : Bytes} :
    Spells cs (b :: bs) ↔ ∃ high low rest, cs = high :: low :: rest ∧
      high.toLower = digit (b.toNat / 16) ∧ low.toLower = digit (b.toNat % 16) ∧
      Spells rest bs := by
  constructor
  · intro h
    match cs, h with
    | [], h => simp [Spells, encode_cons_byte] at h
    | [_], h => simp [Spells, encode_cons_byte] at h
    | high :: low :: rest, h =>
      simp only [Spells, List.map_cons, encode_cons_byte, List.cons.injEq] at h
      exact ⟨high, low, rest, rfl, h⟩
  · rintro ⟨high, low, rest, rfl, hh, hl, hr⟩
    simp only [Spells, List.map_cons, encode_cons_byte, hh, hl]
    rw [hr]

theorem spells_append {cs ds : List Char} {bs more : Bytes} (h : Spells cs bs)
    (h' : Spells ds more) : Spells (cs ++ ds) (bs ++ more) := by
  unfold Spells at h h' ⊢
  rw [List.map_append, h, h']
  simp [encode]

/-- Every character of a text that spells bytes is a digit. -/
theorem exists_digit_of_mem {c : Char} : ∀ {bs : Bytes} {cs : List Char}, Spells cs bs → c ∈ cs →
    ∃ n < 16, c.toLower = digit n
  | [], cs, h, hc => by
      rw [spells_nil_iff.mp h] at hc
      cases hc
  | b :: bs, cs, h, hc => by
      obtain ⟨high, low, rest, rfl, hh, hl, hr⟩ := spells_cons_iff.mp h
      have hb := b.toNat_lt
      rcases List.mem_cons.mp hc with rfl | hc
      · exact ⟨_, by omega, hh⟩
      · rcases List.mem_cons.mp hc with rfl | hc
        · exact ⟨_, by omega, hl⟩
        · exact exists_digit_of_mem hr hc

theorem byte_of_nibbles (b : UInt8) :
    16 * UInt8.ofNat (b.toNat / 16) + UInt8.ofNat (b.toNat % 16) = b := by
  have hb := b.toNat_lt
  apply UInt8.toNat_inj.mp
  simp only [UInt8.toNat_add, UInt8.toNat_mul, UInt8.toNat_ofNat', UInt8.reduceToNat]
  omega

theorem nibbles_of_byte {h l : UInt8} (hh : h.toNat < 16) (hl : l.toNat < 16) :
    (16 * h + l).toNat / 16 = h.toNat ∧ (16 * h + l).toNat % 16 = l.toNat := by
  have hb : (16 * h + l).toNat = 16 * h.toNat + l.toNat := by
    simp only [UInt8.toNat_add, UInt8.toNat_mul, UInt8.reduceToNat]
    omega
  omega

/-- Digits that spell bytes are read as these bytes, at any position. -/
theorem pairsFrom_encode : ∀ (bs : Bytes) (cs : List Char) (position : Nat),
    Spells cs bs → pairsFrom position (Text.Utf8.encode cs) = .ok bs
  | [], cs, position, h => by
      rw [spells_nil_iff.mp h]
      rfl
  | b :: bs, cs, position, h => by
      obtain ⟨high, low, rest, rfl, hh, hl, hr⟩ := spells_cons_iff.mp h
      have hb := b.toNat_lt
      obtain ⟨x, hx, hxd⟩ := utf8EncodeChar_of_toLower (by omega) hh
      obtain ⟨y, hy, hyd⟩ := utf8EncodeChar_of_toLower (by omega) hl
      have ih := pairsFrom_encode bs rest (position + 2) hr
      simp only [encode_cons, hx, hy, List.cons_append, List.nil_append, pairsFrom, hxd, hyd, ih,
        byte_of_nibbles]

theorem ok_of_pairsFrom {x y : UInt8} {rest bs : Bytes} {position : Nat}
    (h : pairsFrom position (x :: y :: rest) = .ok bs) :
    ∃ u v more, digit? x = some u ∧ digit? y = some v ∧
      pairsFrom (position + 2) rest = .ok more ∧ bs = (16 * u + v) :: more := by
  simp only [pairsFrom] at h
  split at h
  · cases h
  · cases h
  · next u v hu hv =>
    split at h
    · next more hm =>
      injection h with h
      exact ⟨u, v, more, hu, hv, hm, h.symm⟩
    · cases h

/-- A text read without a fault begins with the two digits of a byte. -/
theorem front_of_pairsFrom {c : Char} {cs : List Char} {bs : Bytes} {position : Nat}
    (heven : (Text.Utf8.encode (c :: cs)).length % 2 = 0)
    (h : pairsFrom position (Text.Utf8.encode (c :: cs)) = .ok bs) :
    ∃ d rest b more, cs = d :: rest ∧ bs = b :: more ∧
      c.toLower = digit (b.toNat / 16) ∧ d.toLower = digit (b.toNat % 16) ∧
      (Text.Utf8.encode rest).length % 2 = 0 ∧
      pairsFrom (position + 2) (Text.Utf8.encode rest) = .ok more := by
  obtain ⟨x, tail, hc⟩ := List.exists_cons_of_ne_nil (String.utf8EncodeChar_ne_nil (c := c))
  rw [encode_cons, hc, List.cons_append] at h heven
  cases hrest : tail ++ Text.Utf8.encode cs with
  | nil => simp [hrest] at heven
  | cons y later =>
    rw [hrest] at h heven
    obtain ⟨u, v, more, hu, hv, hmore, rfl⟩ := ok_of_pairsFrom h
    obtain ⟨rfl, hcu⟩ := toLower_of_utf8EncodeChar hc hu
    match cs with
    | [] => cases hrest
    | d :: rest =>
      -- the second digit is the first byte of the next character
      obtain ⟨z, tail, hd⟩ :=
        List.exists_cons_of_ne_nil (String.utf8EncodeChar_ne_nil (c := d))
      rw [encode_cons, hd, List.nil_append, List.cons_append, List.cons.injEq] at hrest
      obtain ⟨rfl, rfl⟩ := hrest
      obtain ⟨rfl, hdv⟩ := toLower_of_utf8EncodeChar hd hv
      obtain ⟨h1, h2⟩ := nibbles_of_byte (lt_of_digit? hu) (lt_of_digit? hv)
      rw [List.length_cons, List.length_cons] at heven
      exact ⟨d, rest, _, more, rfl, rfl, by rw [h1, hcu], by rw [h2, hdv],
        by rw [List.nil_append] at heven; omega, hmore⟩

/-- What is read without a fault, from an even number of bytes, is spelled
by the text. -/
theorem spells_of_pairsFrom : ∀ (cs : List Char) (bs : Bytes) (position : Nat),
    (Text.Utf8.encode cs).length % 2 = 0 →
    pairsFrom position (Text.Utf8.encode cs) = .ok bs → Spells cs bs
  | [], bs, _, _, h => by
      injection h with h
      rw [← h]
      rfl
  | [c], _, _, heven, h => by
      obtain ⟨d, rest, b, more, hnil, -⟩ := front_of_pairsFrom heven h
      cases hnil
  | c :: d :: cs, bs, position, heven, h => by
      obtain ⟨d', rest, b, more, hcs, rfl, hc, hd, heven', h'⟩ := front_of_pairsFrom heven h
      obtain ⟨rfl, rfl⟩ := List.cons.inj hcs
      exact spells_cons_iff.mpr
        ⟨c, d, cs, rfl, hc, hd, spells_of_pairsFrom cs more (position + 2) heven' h'⟩

theorem length_encode_of_spells : ∀ (bs : Bytes) (cs : List Char), Spells cs bs →
    (Text.Utf8.encode cs).length = 2 * bs.length
  | [], cs, h => by
      rw [spells_nil_iff.mp h]
      rfl
  | b :: bs, cs, h => by
      obtain ⟨high, low, rest, rfl, hh, hl, hr⟩ := spells_cons_iff.mp h
      have hb := b.toNat_lt
      obtain ⟨x, hx, -⟩ := utf8EncodeChar_of_toLower (by omega) hh
      obtain ⟨y, hy, -⟩ := utf8EncodeChar_of_toLower (by omega) hl
      have ih := length_encode_of_spells bs rest hr
      simp only [encode_cons, hx, hy, List.cons_append, List.nil_append, List.length_cons, ih]
      omega

/-- The reader takes the texts that spell bytes, and reads these bytes. -/
theorem decode_encode_eq_ok_iff {cs : List Char} {bs : Bytes} :
    decode (Text.Utf8.encode cs) = .ok bs ↔ Spells cs bs := by
  unfold decode
  constructor
  · intro h
    split at h
    · cases h
    · exact spells_of_pairsFrom cs bs 0 (by omega) h
  · intro h
    have hl := length_encode_of_spells bs cs h
    rw [if_neg (by omega)]
    exact pairsFrom_encode bs cs 0 h

end CaptureSplit.Hex
