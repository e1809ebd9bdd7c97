/-
CaptureSplit.Proofs.WellFormed — which bytes are a text, and what is shown of
those that are not.

`IsSequence` is the table of the byte sequences that stand for a character, row
by row. The bounds on second bytes are what rules out overlong forms, surrogates
and numbers beyond U+10FFFF. Bytes are well-formed if they are such sequences,
one behind the other, and these bytes are decoded and no others
(`exists_decode_iff`), each to the one text that they encode
(`decode_eq_ok_iff`).

Of other bytes, each ill-formed run is shown as U+FFFD. How far a run goes is told
by `IllFormed`: as far as it begins some sequence, or for one byte that begins
none. The text is the only one of this kind (`shownAs_iff`). What carries this is
that a byte goes on with a sequence exactly if the scan says so
(`IsSequence.continues_eq`), and that the bytes held back by the scan are the
front of a sequence (`Begun.exists_sequence`).
-/
import CaptureSplit.Proofs.Decoding

namespace CaptureSplit.Text.Utf8

/-! ## Sequences -/

/-- A byte behind the first one of a sequence. -/
def IsTail (b : UInt8) : Prop := 0x80 ≤ b.toNat ∧ b.toNat ≤ 0xBF

/-- The bytes of one character. -/
inductive IsSequence : Bytes → Prop where
  /-- U+0000 to U+007F. -/
  | one {a : UInt8} : a.toNat ≤ 0x7F → IsSequence [a]
  /-- U+0080 to U+07FF. -/
  | two {a b : UInt8} : 0xC2 ≤ a.toNat → a.toNat ≤ 0xDF → IsTail b → IsSequence [a, b]
  /-- U+0800 to U+FFFF, without the surrogates. -/
  | three {a b c : UInt8} : 0xE0 ≤ a.toNat → a.toNat ≤ 0xEF → IsTail b → IsTail c →
    (a.toNat = 0xE0 → 0xA0 ≤ b.toNat) → (a.toNat = 0xED → b.toNat ≤ 0x9F) →
    IsSequence [a, b, c]
  /-- U+10000 to U+10FFFF. -/
  | four {a b c d : UInt8} : 0xF0 ≤ a.toNat → a.toNat ≤ 0xF4 → IsTail b → IsTail c → IsTail d →
    (a.toNat = 0xF0 → 0x90 ≤ b.toNat) → (a.toNat = 0xF4 → b.toNat ≤ 0x8F) →
    IsSequence [a, b, c, d]

/-- The bytes of characters, one behind the other. -/
inductive WellFormed : Bytes → Prop where
  | nil : WellFormed []
  | cons {sequence rest : Bytes} : IsSequence sequence → WellFormed rest →
    WellFormed (sequence ++ rest)

theorem IsSequence.ne_nil {sequence : Bytes} (h : IsSequence sequence) : sequence ≠ [] := by
  cases h <;> simp

theorem isSequence_utf8EncodeChar (x : Char) : IsSequence (String.utf8EncodeChar x) := by
  obtain ⟨n, hvalid, rfl⟩ : ∃ n : Nat, n.isValidChar ∧ Char.ofNat n = x :=
    ⟨x.toNat, x.valid, Char.ofNat_toNat x⟩
  have hbounds : n < 0xD800 ∨ (0xDFFF < n ∧ n < 0x110000) := hvalid
  have hbyte : ∀ k, (UInt8.ofNat k).toNat = k % 256 := fun k => UInt8.toNat_ofNat'
  rw [utf8EncodeChar_ofNat hvalid]
  split
  · exact .one (by rw [hbyte]; omega)
  · split
    · refine .two ?_ ?_ ?_ <;> simp only [IsTail, hbyte] <;> omega
    · split
      · refine .three ?_ ?_ ?_ ?_ ?_ ?_ <;> simp only [IsTail, hbyte] <;> omega
      · refine .four ?_ ?_ ?_ ?_ ?_ ?_ ?_ <;> simp only [IsTail, hbyte] <;> omega

theorem IsSequence.exists_char {sequence : Bytes} (h : IsSequence sequence) :
    ∃ x, String.utf8EncodeChar x = sequence := by
  cases h with
  | @one a ha =>
    have hvalue := toNat_ofNat_of_lt (n := a.toNat) (by omega)
    refine ⟨Char.ofNat a.toNat, ?_⟩
    rw [utf8EncodeChar_of_lt (by omega), hvalue, UInt8.ofNat_toNat]
  | two ha ha' hb =>
    exact ⟨_, encode_pair (width?_eq_some_iff.mpr (by omega))
      (continues_of_lead hb (by omega) (by omega))⟩
  | three ha ha' hb hc hlow hhigh =>
    exact ⟨_, encode_triple (width?_eq_some_iff.mpr (by omega))
      (continues_of_lead hb (by omega) (by omega)) (continues_of_later [] hc)⟩
  | four ha ha' hb hc hd hlow hhigh =>
    exact ⟨_, encode_quadruple (width?_eq_some_iff.mpr (by omega))
      (continues_of_lead hb (by omega) (by omega)) (continues_of_later [] hc)
      (continues_of_later _ hd)⟩

theorem wellFormed_iff {bytes : Bytes} : WellFormed bytes ↔ ∃ cs, encode cs = bytes := by
  constructor
  · intro h
    induction h with
    | nil => exact ⟨[], rfl⟩
    | cons hsequence _ ih =>
      obtain ⟨x, rfl⟩ := hsequence.exists_char
      obtain ⟨cs, rfl⟩ := ih
      exact ⟨x :: cs, encode_cons x cs⟩
  · rintro ⟨cs, rfl⟩
    induction cs with
    | nil => exact .nil
    | cons x cs ih =>
      rw [encode_cons]
      exact .cons (isSequence_utf8EncodeChar x) ih

theorem decode_eq_ok_iff {bytes : Bytes} {cs : List Char} :
    decode bytes = .ok cs ↔ encode cs = bytes := by
  constructor
  · exact encode_of_decode
  · rintro rfl
    exact decode_encode cs

theorem exists_decode_iff {bytes : Bytes} : (∃ cs, decode bytes = .ok cs) ↔ WellFormed bytes := by
  simp only [wellFormed_iff, decode_eq_ok_iff]

/-! ## Fronts of sequences -/

theorem IsSequence.width_eq {a : UInt8} {later : Bytes} (h : IsSequence (a :: later)) :
    width? a = some (later.length + 1) := by
  cases h with
  | one ha => exact width?_eq_some_iff.mpr (.inl ⟨rfl, by omega⟩)
  | two ha ha' => exact width?_eq_some_iff.mpr (.inr (.inl ⟨rfl, ha, ha'⟩))
  | three ha ha' => exact width?_eq_some_iff.mpr (.inr (.inr (.inl ⟨rfl, ha, ha'⟩)))
  | four ha ha' => exact width?_eq_some_iff.mpr (.inr (.inr (.inr ⟨rfl, ha, ha'⟩)))

theorem IsSequence.isTail {a : UInt8} {later : Bytes} (h : IsSequence (a :: later)) :
    ∀ b ∈ later, IsTail b := by
  cases h <;> simp_all

theorem IsSequence.continues_lead {a b : UInt8} {later : Bytes}
    (h : IsSequence (a :: b :: later)) : continues [a] b = true := by
  cases h with
  | two ha ha' hb => exact continues_of_lead hb (by omega) (by omega)
  | three ha ha' hb _ hlow hhigh => exact continues_of_lead hb (by omega) (by omega)
  | four ha ha' hb _ _ hlow hhigh => exact continues_of_lead hb (by omega) (by omega)

/-- Each byte of a sequence goes on with those before it. -/
theorem IsSequence.continues_eq {held back : Bytes} {b : UInt8}
    (h : IsSequence (held ++ b :: back)) (hheld : held ≠ []) : continues held b = true := by
  match held, hheld with
  | [_], _ => exact h.continues_lead
  | _ :: _ :: held, _ => exact continues_of_later held (h.isTail b (by simp))

/-- No sequence goes on behind another one. -/
theorem IsSequence.eq_of_append {sequence sequence' rest rest' : Bytes}
    (h : IsSequence sequence) (h' : IsSequence sequence')
    (heq : sequence ++ rest = sequence' ++ rest') : sequence = sequence' := by
  obtain ⟨a, later, rfl⟩ := List.exists_cons_of_ne_nil h.ne_nil
  obtain ⟨a', later', rfl⟩ := List.exists_cons_of_ne_nil h'.ne_nil
  obtain rfl : a = a' := (List.cons.inj heq).1
  have hlength := Option.some.inj (h.width_eq.symm.trans h'.width_eq)
  exact (List.append_inj heq (by simpa using hlength)).1

/-- What is held back has fewer bytes than its first one announces. -/
theorem Begun.exists_width {held : Bytes} (h : Begun held) :
    ∃ a later n, held = a :: later ∧ width? a = some n ∧ held.length < n := by
  cases h with
  | lead ha hn => exact ⟨_, _, _, rfl, ha, hn⟩
  | second ha hn _ => exact ⟨_, _, _, rfl, ha, hn⟩
  | third ha hn _ _ => exact ⟨_, _, _, rfl, ha, hn⟩

theorem Begun.exists_continues {held : Bytes} (h : Begun held) :
    ∃ b, continues held b = true := by
  cases h with
  | @lead a n ha hn =>
    have hrange : (secondRange a).1 ≤ (secondRange a).2 := by
      unfold secondRange
      repeat' split
      all_goals decide
    exact ⟨(secondRange a).1, by simp [continues, hrange]⟩
  | second ha hn hb => exact ⟨0x80, rfl⟩
  | third ha hn hb hc => exact ⟨0x80, rfl⟩

/-- What is held back is the front of a sequence: it can be gone on with until it
is whole. -/
theorem Begun.exists_sequence {held : Bytes} (h : Begun held) :
    ∃ back, IsSequence (held ++ back) := by
  -- three bytes at most are held back, so this ends
  obtain ⟨b, hb⟩ := h.exists_continues
  rcases h.step hb with ⟨-, hencode⟩ | ⟨-, hbegun⟩
  · exact ⟨[b], hencode ▸ isSequence_utf8EncodeChar _⟩
  · obtain ⟨back, hback⟩ := hbegun.exists_sequence
    exact ⟨b :: back, by simpa using hback⟩
termination_by 4 - held.length
decreasing_by
  have := hbegun.length_le
  simp only [List.length_append, List.length_singleton] at this ⊢
  omega

/-! ## What is shown -/

/-- At the front of bytes that begin with no sequence, the run that is replaced:
it begins a sequence and cannot be longer, or it is one byte. -/
structure IllFormed (run rest : Bytes) : Prop where
  ne_nil : run ≠ []
  none : ∀ sequence, IsSequence sequence → ¬ sequence <+: run ++ rest
  front : run.length = 1 ∨ ∃ back, IsSequence (run ++ back)
  longest : ∀ longer back, longer <+: run ++ rest → IsSequence (longer ++ back) →
    longer.length ≤ run.length

/-- The first character that is shown of bytes, and the bytes behind what it
stands for. -/
inductive FrontShown : Bytes → Char → Bytes → Prop where
  | char (c : Char) (rest : Bytes) : FrontShown (String.utf8EncodeChar c ++ rest) c rest
  | replaced {run rest : Bytes} : IllFormed run rest → FrontShown (run ++ rest) '\uFFFD' rest

/-- The text that is shown of bytes. -/
inductive ShownAs : Bytes → List Char → Prop where
  | nil : ShownAs [] []
  | cons {bytes rest : Bytes} {c : Char} {cs : List Char} : FrontShown bytes c rest →
    ShownAs rest cs → ShownAs bytes (c :: cs)

/-- A byte that opens no sequence is replaced by itself. -/
theorem illFormed_stray {b : UInt8} (h : width? b = none) (rest : Bytes) : IllFormed [b] rest := by
  have hopens : ∀ later, ¬ IsSequence (b :: later) := by
    intro later hsequence
    rw [hsequence.width_eq] at h
    cases h
  refine ⟨by simp, ?_, .inl rfl, ?_⟩
  · rintro sequence hsequence ⟨back, hback⟩
    obtain ⟨a, later, rfl⟩ := List.exists_cons_of_ne_nil hsequence.ne_nil
    obtain rfl : a = b := (List.cons.inj hback).1
    exact hopens later hsequence
  · rintro longer back ⟨more, hmore⟩ hsequence
    cases longer with
    | nil => simp
    | cons a later =>
      obtain rfl : a = b := (List.cons.inj hmore).1
      exact absurd hsequence (hopens (later ++ back))

/-- The front of a sequence that the next byte does not go on with is replaced as
a whole. -/
theorem illFormed_begun {held rest : Bytes} (h : Begun held)
    (hstop : ∀ b ∈ rest.head?, continues held b = false) : IllFormed held rest := by
  have hlongest : ∀ longer back, longer <+: held ++ rest → IsSequence (longer ++ back) →
      longer.length ≤ held.length := by
    intro longer back hlonger hsequence
    refine Nat.le_of_not_lt fun hlt => ?_
    obtain ⟨more, rfl⟩ := List.prefix_of_prefix_length_le (List.prefix_append held rest) hlonger
      (Nat.le_of_lt hlt)
    cases more with
    | nil => simp at hlt
    | cons b more =>
      obtain ⟨later, rfl⟩ := (List.prefix_append_right_inj held).mp hlonger
      have hsequence : IsSequence (held ++ b :: (more ++ back)) := by simpa using hsequence
      have hgoes := hsequence.continues_eq (by cases h <;> simp)
      rw [hstop b rfl] at hgoes
      cases hgoes
  refine ⟨by cases h <;> simp, ?_, .inr h.exists_sequence, hlongest⟩
  intro sequence hsequence hprefix
  -- a sequence here would begin with the same byte and have fewer bytes than that announces
  obtain ⟨a, later, n, rfl, ha, hn⟩ := h.exists_width
  have hshort := hlongest sequence [] hprefix (by simpa using hsequence)
  obtain ⟨back, hback⟩ := hprefix
  obtain ⟨a', later', rfl⟩ := List.exists_cons_of_ne_nil hsequence.ne_nil
  obtain rfl : a' = a := (List.cons.inj hback).1
  have hwidth : later'.length + 1 = n := Option.some.inj (hsequence.width_eq.symm.trans ha)
  rw [List.length_cons] at hshort
  omega

theorem Cuts.shownAs {held rest : Bytes} {ps : List Piece} (h : Cuts held rest ps) :
    ShownAs (held ++ rest) (ps.map Piece.char) := by
  induction h with
  | done => exact .nil
  | cut hbegun => exact .cons (.replaced (illFormed_begun hbegun (by simp))) .nil
  | @whole held rest b c ps hencode _ ih =>
    have hsplit : held ++ b :: rest = String.utf8EncodeChar c ++ rest := by simp [hencode]
    rw [hsplit]
    exact .cons (.char c rest) ih
  | longer _ ih => simpa using ih
  | broken hbegun hstop _ ih =>
    exact .cons (.replaced (illFormed_begun hbegun (by simpa using hstop))) ih
  | @stray rest b ps hnone _ ih =>
    have hfront : FrontShown ([b] ++ rest) '\uFFFD' rest := .replaced (illFormed_stray hnone rest)
    exact .cons hfront ih

/-! ## There is one such text -/

theorem IllFormed.length_le {run rest run' rest' : Bytes} (h : IllFormed run rest)
    (h' : IllFormed run' rest') (heq : run ++ rest = run' ++ rest') :
    run.length ≤ run'.length := by
  have hprefix : run <+: run' ++ rest' := ⟨rest, heq⟩
  rcases h.front with hone | ⟨back, hback⟩
  · have := List.length_pos_iff.mpr h'.ne_nil
    omega
  · exact h'.longest run back hprefix hback

/-- Bytes that begin with a sequence are not ill-formed at their front. -/
theorem IllFormed.ne_char {run rest : Bytes} (h : IllFormed run rest) (c : Char) (rest' : Bytes) :
    run ++ rest ≠ String.utf8EncodeChar c ++ rest' :=
  fun heq => h.none _ (isSequence_utf8EncodeChar c) ⟨rest', heq.symm⟩

theorem FrontShown.unique {bytes rest rest' : Bytes} {c c' : Char} (h : FrontShown bytes c rest)
    (h' : FrontShown bytes c' rest') : c = c' ∧ rest = rest' := by
  cases h with
  | char c rest =>
    generalize hbytes : String.utf8EncodeChar c ++ rest = bytes at h'
    cases h' with
    | char c' rest' =>
      have hchar : encode [c] = encode [c'] := by
        simpa [encode] using
          (isSequence_utf8EncodeChar c).eq_of_append (isSequence_utf8EncodeChar c') hbytes
      obtain rfl := List.singleton_inj.mp (encode_injective hchar)
      exact ⟨rfl, List.append_cancel_left hbytes⟩
    | replaced hill => exact absurd hbytes.symm (hill.ne_char c rest)
  | @replaced run rest hill =>
    generalize hbytes : run ++ rest = bytes at h'
    cases h' with
    | char c' rest' => exact absurd hbytes (hill.ne_char c' rest')
    | replaced hill' =>
      have hlength := Nat.le_antisymm (hill.length_le hill' hbytes)
        (hill'.length_le hill hbytes.symm)
      exact ⟨rfl, (List.append_inj hbytes hlength).2⟩

theorem FrontShown.ne_nil {bytes rest : Bytes} {c : Char} (h : FrontShown bytes c rest) :
    bytes ≠ [] := by
  cases h with
  | char c rest => simp [(isSequence_utf8EncodeChar c).ne_nil]
  | replaced hill => simp [hill.ne_nil]

theorem ShownAs.unique {bytes : Bytes} {cs cs' : List Char} (h : ShownAs bytes cs)
    (h' : ShownAs bytes cs') : cs = cs' := by
  induction h generalizing cs' with
  | nil =>
    cases h' with
    | nil => rfl
    | cons hfront _ => exact absurd rfl hfront.ne_nil
  | cons hfront _ ih =>
    cases h' with
    | nil => exact absurd rfl hfront.ne_nil
    | cons hfront' hrest' =>
      obtain ⟨rfl, rfl⟩ := hfront.unique hfront'
      rw [ih hrest']

/-- What bytes are lossily decoded to is the text that is shown of them. -/
theorem shownAs_iff {bytes : Bytes} {cs : List Char} :
    ShownAs bytes cs ↔ decodeLossy bytes = cs := by
  have hshown : ShownAs bytes (decodeLossy bytes) := (cuts_pieces bytes).shownAs
  constructor
  · exact hshown.unique
  · rintro rfl
    exact hshown

end CaptureSplit.Text.Utf8
