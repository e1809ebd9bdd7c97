/-
CaptureSplit.Proofs.Decoding — what the pieces of a byte sequence tell of it.

The scan holds back the bytes of a sequence that is not whole yet, and the
invariant that carries all of this is that these are the front of some
character (`Begun`): the byte that makes them whole makes them the encoding of
the character they are read as (`Begun.step`). `Cuts` says byte by byte how the
pieces come about while that is so (`cuts_piecesFrom`); what is true of all
pieces is then shown along it.

No byte is lost: those of the pieces, one piece behind the other, are the input
(`flatMap_bytes_pieces`). So a text that bytes are decoded to encodes to these
bytes (`encode_of_decode`), and what is read lossily has no ASCII character that
is not among the bytes (`mem_of_mem_decodeLossy`). Nor do bytes become fewer by
being read lossily, for an ill-formed piece has three bytes at most, as many as
what stands in its place (`length_le_ofString_toStringLossy`).

The other way round, the encoding of a character is cut off whole
(`piecesFrom_utf8EncodeChar`), so every text is what its bytes are decoded to
(`decode_encode`).
-/
import CaptureSplit.Proofs.Encoding

namespace CaptureSplit.Text.Utf8

/-! ## Leads and the bytes behind them -/

theorem width?_eq (a : UInt8) :
    width? a =
      if a.toNat < 0x80 then some 1
      else if 0xC2 ≤ a.toNat ∧ a.toNat ≤ 0xDF then some 2
      else if 0xE0 ≤ a.toNat ∧ a.toNat ≤ 0xEF then some 3
      else if 0xF0 ≤ a.toNat ∧ a.toNat ≤ 0xF4 then some 4
      else none := by
  simp only [width?, UInt8.lt_iff_toNat_lt, UInt8.le_iff_toNat_le, UInt8.reduceToNat,
    Bool.and_eq_true, decide_eq_true_eq]

theorem width?_eq_some_iff {a : UInt8} {n : Nat} :
    width? a = some n ↔ n = 1 ∧ a.toNat < 0x80 ∨ n = 2 ∧ 0xC2 ≤ a.toNat ∧ a.toNat ≤ 0xDF ∨
      n = 3 ∧ 0xE0 ≤ a.toNat ∧ a.toNat ≤ 0xEF ∨ n = 4 ∧ 0xF0 ≤ a.toNat ∧ a.toNat ≤ 0xF4 := by
  rw [width?_eq]
  repeat' split
  all_goals
    simp only [Option.some.injEq, reduceCtorEq, false_iff]
    omega

/-- The bytes that may follow a lead: ten bits are left of the code point, at
most, and those that a shorter sequence could hold are ruled out. -/
theorem continues_lead {a b : UInt8} (h : continues [a] b = true) :
    0x80 ≤ b.toNat ∧ b.toNat ≤ 0xBF ∧ (a.toNat = 0xE0 → 0xA0 ≤ b.toNat) ∧
      (a.toNat = 0xED → b.toNat ≤ 0x9F) ∧ (a.toNat = 0xF0 → 0x90 ≤ b.toNat) ∧
        (a.toNat = 0xF4 → b.toNat ≤ 0x8F) := by
  simp only [continues, secondRange, ← UInt8.toNat_inj, UInt8.reduceToNat] at h
  repeat' split at h
  all_goals
    simp only [Bool.and_eq_true, decide_eq_true_eq, UInt8.le_iff_toNat_le, UInt8.reduceToNat] at h
    omega

theorem continues_later {a b c : UInt8} {held : Bytes}
    (h : continues (a :: b :: held) c = true) : 0x80 ≤ c.toNat ∧ c.toNat ≤ 0xBF := by
  simpa [continues, UInt8.le_iff_toNat_le] using h

/-! ## Whole sequences -/

theorem toNat_ofNat_of_isValidChar {n : Nat} (h : n.isValidChar) : (Char.ofNat n).toNat = n := by
  rw [Char.ofNat, dif_pos h]
  rfl

/-- A character is encoded in two bytes if it has eleven bits, in three if it
has sixteen, and else in four. -/
theorem utf8EncodeChar_ofNat {n : Nat} (h : n.isValidChar) :
    String.utf8EncodeChar (Char.ofNat n) =
      if n ≤ 0x7F then [UInt8.ofNat n]
      else if n ≤ 0x7FF then [UInt8.ofNat (n / 64 % 32 + 0xC0), UInt8.ofNat (n % 64 + 0x80)]
      else if n ≤ 0xFFFF then
        [UInt8.ofNat (n / 4096 % 16 + 0xE0), UInt8.ofNat (n / 64 % 64 + 0x80),
          UInt8.ofNat (n % 64 + 0x80)]
      else
        [UInt8.ofNat (n / 262144 % 8 + 0xF0), UInt8.ofNat (n / 4096 % 64 + 0x80),
          UInt8.ofNat (n / 64 % 64 + 0x80), UInt8.ofNat (n % 64 + 0x80)] := by
  have hn : (Char.ofNat n).val.toNat = n := toNat_ofNat_of_isValidChar h
  simp only [String.utf8EncodeChar, hn]

theorem ofNat_eq_of_toNat {n : Nat} {b : UInt8} (h : b.toNat = n) : UInt8.ofNat n = b := by
  rw [← h, UInt8.ofNat_toNat]

theorem encode_pair {a b : UInt8} (ha : width? a = some 2) (hb : continues [a] b = true) :
    String.utf8EncodeChar (Char.ofNat (codePoint [a, b])) = [a, b] := by
  have ha := width?_eq_some_iff.mp ha
  have hb := continues_lead hb
  have hn : codePoint [a, b] = (a.toNat - 0xC0) * 64 + (b.toNat - 0x80) := rfl
  generalize codePoint [a, b] = n at hn
  rw [utf8EncodeChar_ofNat (Or.inl (by omega)), if_neg (by omega), if_pos (by omega),
    ofNat_eq_of_toNat (b := a) (by omega), ofNat_eq_of_toNat (b := b) (by omega)]

theorem encode_triple {a b c : UInt8} (ha : width? a = some 3) (hb : continues [a] b = true)
    (hc : continues [a, b] c = true) :
    String.utf8EncodeChar (Char.ofNat (codePoint [a, b, c])) = [a, b, c] := by
  have ha := width?_eq_some_iff.mp ha
  have hb := continues_lead hb
  have hc := continues_later hc
  have hn : codePoint [a, b, c] =
    ((a.toNat - 0xE0) * 64 + (b.toNat - 0x80)) * 64 + (c.toNat - 0x80) := rfl
  generalize codePoint [a, b, c] = n at hn
  have hvalid : n.isValidChar := by
    -- the lead of the surrogates wants a second byte below theirs
    by_cases hed : a.toNat = 0xED
    · exact Or.inl (by omega)
    · simp only [Nat.isValidChar]
      omega
  rw [utf8EncodeChar_ofNat hvalid, if_neg (by omega), if_neg (by omega), if_pos (by omega),
    ofNat_eq_of_toNat (b := a) (by omega), ofNat_eq_of_toNat (b := b) (by omega),
    ofNat_eq_of_toNat (b := c) (by omega)]

theorem encode_quadruple {a b c d : UInt8} (ha : width? a = some 4)
    (hb : continues [a] b = true) (hc : continues [a, b] c = true)
    (hd : continues [a, b, c] d = true) :
    String.utf8EncodeChar (Char.ofNat (codePoint [a, b, c, d])) = [a, b, c, d] := by
  have ha := width?_eq_some_iff.mp ha
  have hb := continues_lead hb
  have hc := continues_later hc
  have hd := continues_later hd
  have hn : codePoint [a, b, c, d] = (((a.toNat - 0xF0) * 64 + (b.toNat - 0x80)) * 64 +
    (c.toNat - 0x80)) * 64 + (d.toNat - 0x80) := rfl
  generalize codePoint [a, b, c, d] = n at hn
  have hvalid : n.isValidChar := Or.inr (by omega)
  rw [utf8EncodeChar_ofNat hvalid, if_neg (by omega), if_neg (by omega), if_neg (by omega),
    ofNat_eq_of_toNat (b := a) (by omega), ofNat_eq_of_toNat (b := b) (by omega),
    ofNat_eq_of_toNat (b := c) (by omega), ofNat_eq_of_toNat (b := d) (by omega)]

/-! ## Bytes held back -/

/-- The front of a sequence, with a byte wanting at least. -/
inductive Begun : Bytes → Prop where
  | lead {a : UInt8} {n : Nat} : width? a = some n → 1 < n → Begun [a]
  | second {a b : UInt8} {n : Nat} : width? a = some n → 2 < n → continues [a] b = true →
    Begun [a, b]
  | third {a b c : UInt8} {n : Nat} : width? a = some n → 3 < n → continues [a] b = true →
    continues [a, b] c = true → Begun [a, b, c]

theorem isWhole_cons_iff {a : UInt8} {n : Nat} (ha : width? a = some n) (held : Bytes) :
    isWhole (a :: held) = true ↔ n = held.length + 1 := by
  simp [isWhole, ha]

/-- One more byte makes a sequence whole, and then it encodes the character that
it is read as, or leaves it begun. -/
theorem Begun.step {held : Bytes} (h : Begun held) {b : UInt8} (hb : continues held b = true) :
    (isWhole (held ++ [b]) = true ∧
        String.utf8EncodeChar (Char.ofNat (codePoint (held ++ [b]))) = held ++ [b]) ∨
      (isWhole (held ++ [b]) = false ∧ Begun (held ++ [b])) := by
  cases h with
  | @lead a n ha hn =>
    by_cases hwhole : n = 2
    · subst hwhole
      exact .inl ⟨(isWhole_cons_iff ha [b]).mpr rfl, encode_pair ha hb⟩
    · exact .inr ⟨by simpa [isWhole, ha] using hwhole, .second ha (by omega) hb⟩
  | @second a a' n ha hn ha' =>
    by_cases hwhole : n = 3
    · subst hwhole
      exact .inl ⟨(isWhole_cons_iff ha [a', b]).mpr rfl, encode_triple ha ha' hb⟩
    · exact .inr ⟨by simpa [isWhole, ha] using hwhole, .third ha (by omega) ha' hb⟩
  | @third a a' a'' n ha hn ha' ha'' =>
    obtain rfl : n = 4 := by
      have := width?_eq_some_iff.mp ha
      omega
    exact .inl ⟨(isWhole_cons_iff ha [a', a'', b]).mpr rfl, encode_quadruple ha ha' ha'' hb⟩

/-! ## Pieces -/

/-- The bytes of a piece. -/
def Piece.bytes : Piece → Bytes
  | .scalar c => String.utf8EncodeChar c
  | .broken bytes => bytes
  | .cut bytes => bytes

/-- The pieces of the bytes held back and the rest, by what the next byte does:
it makes them whole or longer, or leaves them broken and begins anew. -/
inductive Cuts : Bytes → Bytes → List Piece → Prop where
  | done : Cuts [] [] []
  | cut {held : Bytes} : Begun held → Cuts held [] [.cut held]
  | whole {held rest : Bytes} {b : UInt8} {c : Char} {ps : List Piece} :
    String.utf8EncodeChar c = held ++ [b] → Cuts [] rest ps → Cuts held (b :: rest) (.scalar c :: ps)
  | longer {held rest : Bytes} {b : UInt8} {ps : List Piece} :
    Cuts (held ++ [b]) rest ps → Cuts held (b :: rest) ps
  | broken {held rest : Bytes} {b : UInt8} {ps : List Piece} : Begun held →
    continues held b = false → Cuts [] (b :: rest) ps → Cuts held (b :: rest) (.broken held :: ps)
  | stray {rest : Bytes} {b : UInt8} {ps : List Piece} : width? b = none →
    Cuts [] rest ps → Cuts [] (b :: rest) (.broken [b] :: ps)

/-- A byte that does not continue what is held back begins anew. -/
theorem piecesFrom_of_not_continues {held : Bytes} {b : UInt8}
    (h : ¬ (!held.isEmpty && continues held b) = true) (rest : Bytes) :
    piecesFrom held (b :: rest) =
      (if held.isEmpty then [] else [.broken held]) ++ piecesFrom [] (b :: rest) := by
  rw [piecesFrom, if_neg h]
  by_cases hempty : held.isEmpty = true
  · rw [if_pos hempty, if_pos hempty]
    rfl
  · rw [if_neg hempty, if_neg hempty]
    rfl

/-- The pieces from a byte on that begins anew. -/
theorem cuts_piecesFrom_nil {b : UInt8} {rest : Bytes} (hnone : Cuts [] rest (piecesFrom [] rest))
    (hlead : Begun [b] → Cuts [b] rest (piecesFrom [b] rest)) :
    Cuts [] (b :: rest) (piecesFrom [] (b :: rest)) := by
  rw [piecesFrom, if_neg (by simp), if_pos List.isEmpty_nil]
  split
  · next hstray => exact .stray hstray hnone
  · next hone =>
    have hlt : b.toNat < 0x80 := by
      have := width?_eq_some_iff.mp hone
      omega
    have hvalue := toNat_ofNat_of_lt hlt
    have hascii : (Char.ofNat b.toNat).toNat < 0x80 := by omega
    refine .whole ?_ hnone
    rw [utf8EncodeChar_of_lt hascii, hvalue, UInt8.ofNat_toNat, List.nil_append]
  · next n hne hn =>
    have hmore : 1 < n := by
      have := width?_eq_some_iff.mp hn
      have : n ≠ 1 := hne
      omega
    exact .longer (hlead (.lead hn hmore))

theorem cuts_piecesFrom {held : Bytes} (h : held = [] ∨ Begun held) (rest : Bytes) :
    Cuts held rest (piecesFrom held rest) := by
  induction rest generalizing held with
  | nil =>
    rw [piecesFrom]
    split
    · next hempty =>
      obtain rfl := List.isEmpty_iff.mp hempty
      exact .done
    · next hne => exact .cut (h.resolve_left (by simpa using hne))
  | cons b rest ih =>
    have hnone : Cuts [] rest (piecesFrom [] rest) := ih (.inl rfl)
    by_cases hcontinues : (!held.isEmpty && continues held b) = true
    · rw [piecesFrom, if_pos hcontinues]
      rw [Bool.and_eq_true, Bool.not_eq_true', List.isEmpty_eq_false_iff] at hcontinues
      have hbegun : Begun held := h.resolve_left hcontinues.1
      rcases hbegun.step hcontinues.2 with ⟨hwhole, hencode⟩ | ⟨hwhole, hbegun'⟩
      · simp only [hwhole, if_true]
        exact .whole hencode hnone
      · simp only [hwhole, Bool.false_eq_true, if_false]
        exact .longer (ih (.inr hbegun'))
    · have hanew : Cuts [] (b :: rest) (piecesFrom [] (b :: rest)) :=
        cuts_piecesFrom_nil hnone fun hlead => ih (.inr hlead)
      rw [piecesFrom_of_not_continues hcontinues]
      rcases h with rfl | hbegun
      · exact hanew
      · have hne : ¬ held.isEmpty = true := by cases hbegun <;> simp
        rw [if_neg hne]
        exact .broken hbegun (by simpa [hne] using hcontinues) hanew

theorem cuts_pieces (bytes : Bytes) : Cuts [] bytes (pieces bytes) :=
  cuts_piecesFrom (.inl rfl) bytes

theorem Cuts.flatMap_bytes {held rest : Bytes} {ps : List Piece} (h : Cuts held rest ps) :
    ps.flatMap Piece.bytes = held ++ rest := by
  induction h with
  | done => rfl
  | cut _ => simp [Piece.bytes]
  | whole hencode _ ih => simp [Piece.bytes, hencode, ih]
  | longer _ ih => simp [ih]
  | broken _ _ _ ih => simp [Piece.bytes, ih]
  | stray _ _ ih => simp [Piece.bytes, ih]

/-- No byte is lost between the pieces. -/
theorem flatMap_bytes_pieces (bytes : Bytes) : (pieces bytes).flatMap Piece.bytes = bytes :=
  (cuts_pieces bytes).flatMap_bytes

theorem Begun.length_le {held : Bytes} (h : Begun held) : held.length ≤ 3 := by
  cases h <;> simp

/-- An ill-formed piece is no longer than U+FFFD, which is read in its place. -/
theorem Cuts.length_bytes_le {held rest : Bytes} {ps : List Piece} (h : Cuts held rest ps) :
    ∀ piece ∈ ps, piece.bytes.length ≤ (String.utf8EncodeChar piece.char).length := by
  have hshown : (String.utf8EncodeChar '\uFFFD').length = 3 := by decide
  induction h with
  | done => simp
  | cut hbegun => exact List.forall_mem_singleton.mpr (hshown ▸ hbegun.length_le)
  | whole _ _ ih => exact List.forall_mem_cons.mpr ⟨Nat.le_refl _, ih⟩
  | longer _ ih => exact ih
  | broken hbegun _ _ ih => exact List.forall_mem_cons.mpr ⟨hshown ▸ hbegun.length_le, ih⟩
  | stray _ _ ih => exact List.forall_mem_cons.mpr ⟨hshown ▸ (by decide : 1 ≤ 3), ih⟩

/-! ## Texts -/

theorem eq_map_of_charsFrom {ps : List Piece} {start : Nat} {cs : List Char}
    (h : charsFrom start ps = .ok cs) : ps = cs.map .scalar := by
  induction ps generalizing start cs with
  | nil =>
    obtain rfl := Except.ok.inj h
    rfl
  | cons piece ps ih =>
    cases piece with
    | scalar c =>
      rw [charsFrom] at h
      split at h
      · next cs' hcs =>
        obtain rfl := Except.ok.inj h
        rw [List.map_cons, ih hcs]
      · cases h
    | broken bytes => cases h
    | cut bytes => cases h

/-- A text is the one that its bytes are decoded to only if they encode it. -/
theorem encode_of_decode {bytes : Bytes} {cs : List Char} (h : decode bytes = .ok cs) :
    encode cs = bytes := by
  have hbytes := flatMap_bytes_pieces bytes
  rw [eq_map_of_charsFrom h, List.flatMap_map] at hbytes
  exact hbytes

theorem decodeLossy_of_decode {bytes : Bytes} {cs : List Char} (h : decode bytes = .ok cs) :
    decodeLossy bytes = cs := by
  rw [decodeLossy, eq_map_of_charsFrom h, List.map_map]
  exact List.map_id cs

theorem decode_of_toString? {bytes : Bytes} {s : String} (h : toString? bytes = some s) :
    decode bytes = .ok s.toList := by
  rw [toString?] at h
  split at h
  · next cs hcs => rw [hcs, ← Option.some.inj h, String.toList_ofList]
  · cases h

theorem ofString_of_toString? {bytes : Bytes} {s : String} (h : toString? bytes = some s) :
    ofString s = bytes :=
  encode_of_decode (decode_of_toString? h)

theorem toStringLossy_of_toString? {bytes : Bytes} {s : String} (h : toString? bytes = some s) :
    toStringLossy bytes = s := by
  rw [toStringLossy, decodeLossy_of_decode (decode_of_toString? h), String.ofList_toList]

/-- What is shown in place of ill-formed bytes is beyond ASCII. -/
theorem mem_of_mem_decodeLossy {bytes : Bytes} {b : UInt8} (hb : b.toNat < 0x80)
    (h : Char.ofNat b.toNat ∈ decodeLossy bytes) : b ∈ bytes := by
  obtain ⟨piece, hpiece, hchar⟩ := List.mem_map.mp h
  have hvalue := toNat_ofNat_of_lt hb
  have hscalar : piece = .scalar (Char.ofNat b.toNat) := by
    have hshown : '\uFFFD' ≠ Char.ofNat b.toNat := by
      intro heq
      rw [← heq] at hvalue
      have : '\uFFFD'.toNat = 0xFFFD := rfl
      omega
    cases piece with
    | scalar c => exact congrArg Piece.scalar hchar
    | broken bytes => exact absurd hchar hshown
    | cut bytes => exact absurd hchar hshown
  rw [← flatMap_bytes_pieces bytes]
  refine List.mem_flatMap.mpr ⟨piece, hpiece, ?_⟩
  have hlt : (Char.ofNat b.toNat).toNat < 0x80 := by omega
  rw [hscalar, Piece.bytes, utf8EncodeChar_of_lt hlt, hvalue, UInt8.ofNat_toNat]
  exact List.mem_singleton_self b

theorem length_flatMap_bytes_le {ps : List Piece}
    (h : ∀ piece ∈ ps, piece.bytes.length ≤ (String.utf8EncodeChar piece.char).length) :
    (ps.flatMap Piece.bytes).length ≤ (encode (ps.map Piece.char)).length := by
  induction ps with
  | nil => exact Nat.le_refl _
  | cons piece ps ih =>
    obtain ⟨hpiece, hrest⟩ := List.forall_mem_cons.mp h
    rw [List.flatMap_cons, List.map_cons, encode_cons, List.length_append, List.length_append]
    exact Nat.add_le_add hpiece (ih hrest)

/-- Reading bytes as a text makes them no fewer. -/
theorem length_le_ofString_toStringLossy (bytes : Bytes) :
    bytes.length ≤ (ofString (toStringLossy bytes)).length := by
  have hle := length_flatMap_bytes_le (cuts_pieces bytes).length_bytes_le
  rw [flatMap_bytes_pieces] at hle
  rwa [ofString, toStringLossy, String.toList_ofList]

/-! ## Back to the text -/

theorem continues_of_lead {a b : UInt8} (h : 0x80 ≤ b.toNat ∧ b.toNat ≤ 0xBF)
    (hlow : (a.toNat = 0xE0 → 0xA0 ≤ b.toNat) ∧ (a.toNat = 0xF0 → 0x90 ≤ b.toNat))
    (hhigh : (a.toNat = 0xED → b.toNat ≤ 0x9F) ∧ (a.toNat = 0xF4 → b.toNat ≤ 0x8F)) :
    continues [a] b = true := by
  simp only [continues, secondRange, ← UInt8.toNat_inj, UInt8.reduceToNat]
  repeat' split
  all_goals
    simp only [Bool.and_eq_true, decide_eq_true_eq, UInt8.le_iff_toNat_le, UInt8.reduceToNat]
    omega

theorem continues_of_later {a b c : UInt8} (held : Bytes) (h : 0x80 ≤ c.toNat ∧ c.toNat ≤ 0xBF) :
    continues (a :: b :: held) c = true := by
  simpa [continues, UInt8.le_iff_toNat_le] using h

theorem piecesFrom_lead {a : UInt8} {n : Nat} (ha : width? a = some n) (hn : 1 < n) (rest : Bytes) :
    piecesFrom [] (a :: rest) = piecesFrom [a] rest := by
  rw [piecesFrom, if_neg (by simp), if_pos List.isEmpty_nil, ha]
  match n, hn with
  | n + 2, _ => rfl

/-- A byte that leaves a sequence begun is held back. -/
theorem piecesFrom_begun {a b : UInt8} {held : Bytes} {n : Nat} (ha : width? a = some n)
    (hn : held.length + 2 < n) (hb : continues (a :: held) b = true) (rest : Bytes) :
    piecesFrom (a :: held) (b :: rest) = piecesFrom (a :: held ++ [b]) rest := by
  have hwhole : ¬ isWhole (a :: held ++ [b]) = true := by
    intro h
    have := (isWhole_cons_iff ha (held ++ [b])).mp h
    simp at this
    omega
  rw [piecesFrom, if_pos (by simp [hb])]
  exact if_neg hwhole

/-- A byte that makes a sequence whole makes it the character that it encodes. -/
theorem piecesFrom_whole {a b : UInt8} {held : Bytes} {c : Char}
    (ha : width? a = some (held.length + 2)) (hb : continues (a :: held) b = true)
    (hc : String.utf8EncodeChar (Char.ofNat (codePoint (a :: held ++ [b]))) =
      String.utf8EncodeChar c) (rest : Bytes) :
    piecesFrom (a :: held) (b :: rest) = .scalar c :: piecesFrom [] rest := by
  have hwhole : isWhole (a :: held ++ [b]) = true :=
    (isWhole_cons_iff ha (held ++ [b])).mpr (by simp)
  have hchar : [Char.ofNat (codePoint (a :: held ++ [b]))] = [c] := by
    refine encode_injective ?_
    rw [encode_cons, encode_cons, hc]
  rw [piecesFrom, if_pos (by simp [hb]), ← (List.cons.inj hchar).1]
  exact if_pos hwhole

theorem piecesFrom_pair {a b : UInt8} {x : Char} (hx : String.utf8EncodeChar x = [a, b])
    (ha : width? a = some 2) (hb : continues [a] b = true) (rest : Bytes) :
    piecesFrom [] (a :: b :: rest) = .scalar x :: piecesFrom [] rest := by
  rw [piecesFrom_lead ha (by decide)]
  exact piecesFrom_whole ha hb ((encode_pair ha hb).trans hx.symm) rest

theorem piecesFrom_triple {a b c : UInt8} {x : Char} (hx : String.utf8EncodeChar x = [a, b, c])
    (ha : width? a = some 3) (hb : continues [a] b = true) (hc : continues [a, b] c = true)
    (rest : Bytes) :
    piecesFrom [] (a :: b :: c :: rest) = .scalar x :: piecesFrom [] rest := by
  rw [piecesFrom_lead ha (by decide), piecesFrom_begun ha (by simp) hb]
  exact piecesFrom_whole ha hc ((encode_triple ha hb hc).trans hx.symm) rest

theorem piecesFrom_quadruple {a b c d : UInt8} {x : Char}
    (hx : String.utf8EncodeChar x = [a, b, c, d]) (ha : width? a = some 4)
    (hb : continues [a] b = true) (hc : continues [a, b] c = true)
    (hd : continues [a, b, c] d = true) (rest : Bytes) :
    piecesFrom [] (a :: b :: c :: d :: rest) = .scalar x :: piecesFrom [] rest := by
  rw [piecesFrom_lead ha (by decide), piecesFrom_begun ha (by simp) hb]
  simp only [List.cons_append, List.nil_append]
  rw [piecesFrom_begun ha (by simp) hc]
  exact piecesFrom_whole ha hd ((encode_quadruple ha hb hc hd).trans hx.symm) rest

/-- The encoding of a character is cut off as this character. -/
theorem piecesFrom_utf8EncodeChar (x : Char) (rest : Bytes) :
    piecesFrom [] (String.utf8EncodeChar x ++ rest) = .scalar x :: piecesFrom [] rest := by
  obtain ⟨n, hvalid, rfl⟩ : ∃ n : Nat, n.isValidChar ∧ Char.ofNat n = x :=
    ⟨x.toNat, x.valid, Char.ofNat_toNat x⟩
  have hbounds : n < 0xD800 ∨ (0xDFFF < n ∧ n < 0x110000) := hvalid
  have hbyte : ∀ k < 256, (UInt8.ofNat k).toNat = k := fun k hk => UInt8.toNat_ofNat_of_lt' hk
  have hlater := hbyte (n % 64 + 0x80) (by omega)
  have hlater' := hbyte (n / 64 % 64 + 0x80) (by omega)
  have hencode := utf8EncodeChar_ofNat hvalid
  split at hencode
  · next hone =>
    have hn := hbyte n (by omega)
    have hwidth : width? (UInt8.ofNat n) = some 1 := width?_eq_some_iff.mpr (by omega)
    rw [hencode, List.singleton_append, piecesFrom, if_neg (by simp), if_pos List.isEmpty_nil]
    simp [hwidth, hn]
  · split at hencode
    · next htwo =>
      have hlead := hbyte (n / 64 % 32 + 0xC0) (by omega)
      rw [hencode]
      exact piecesFrom_pair hencode (width?_eq_some_iff.mpr (by omega))
        (continues_of_lead (by omega) (by omega) (by omega)) rest
    · split at hencode
      · next hthree =>
        have hlead := hbyte (n / 4096 % 16 + 0xE0) (by omega)
        rw [hencode]
        exact piecesFrom_triple hencode (width?_eq_some_iff.mpr (by omega))
          (continues_of_lead (by omega) (by omega) (by omega)) (continues_of_later [] (by omega))
          rest
      · next hfour =>
        have hlead := hbyte (n / 262144 % 8 + 0xF0) (by omega)
        have hsecond := hbyte (n / 4096 % 64 + 0x80) (by omega)
        rw [hencode]
        exact piecesFrom_quadruple hencode (width?_eq_some_iff.mpr (by omega))
          (continues_of_lead (by omega) (by omega) (by omega)) (continues_of_later [] (by omega))
          (continues_of_later _ (by omega)) rest

theorem pieces_encode (cs : List Char) : pieces (encode cs) = cs.map .scalar := by
  induction cs with
  | nil => rfl
  | cons c cs ih =>
    rw [pieces] at ih ⊢
    rw [encode_cons, piecesFrom_utf8EncodeChar, ih, List.map_cons]

theorem charsFrom_map_scalar (cs : List Char) (start : Nat) :
    charsFrom start (cs.map .scalar) = .ok cs := by
  induction cs generalizing start with
  | nil => rfl
  | cons c cs ih => simp [charsFrom, ih]

/-- A text is what its bytes are decoded to. -/
theorem decode_encode (cs : List Char) : decode (encode cs) = .ok cs := by
  rw [decode, pieces_encode, charsFrom_map_scalar]

theorem toString?_ofString (s : String) : toString? (ofString s) = some s := by
  simp [toString?, ofString, decode_encode]

end CaptureSplit.Text.Utf8
