/-
CaptureSplit.Proofs.PacketText — the notations of a packet, as grammars.

* `Row` derives the rows of a follow report: pairs of hex digits with
  ASCII blanks before, after and between them, never within a pair.
* `Colons` derives single pairs with colons between them, and `Field`
  either these or pairs with nothing between them, white space around the
  whole aside.

The readers take what the grammars derive and nothing else:
`ofLine_eq_ok_iff`, `ofLines_eq_ok_iff` and `ofField_eq_ok_iff`. Rows are
refused for the first one that is no row (`ofLines_eq_error_iff`). A row is
read word by word, so the proof for rows follows `words`: a text is empty,
or begins with a blank, or begins with a whole word (`wordInduction`).
-/
import Mathlib.Data.List.Forall2
import CaptureSplit.Packet.Line
import CaptureSplit.Proofs.HexDigits
import CaptureSplit.Proofs.Splitting

namespace CaptureSplit

/-! ## Words -/

namespace Text

/-- The text is at an end or goes on with a blank. -/
def AtBlank (cs : List Char) : Prop := ∀ c ∈ cs.head?, isAsciiBlank c = true

/-- The characters are no blanks. -/
def Solid (cs : List Char) : Prop := ∀ c ∈ cs, isAsciiBlank c = false

theorem words_cons_of_blank {c : Char} (h : isAsciiBlank c = true) (cs : List Char) :
    words (c :: cs) = words cs := by
  simp [words, List.splitOnP_cons_eq_if_modifyHead, h]

theorem words_append {word : List Char} (hne : word ≠ []) (hword : Solid word)
    {rest : List Char} (hrest : AtBlank rest) : words (word ++ rest) = word :: words rest := by
  match rest, hrest with
  | [], _ => simp [words, List.splitOnP_eq_singleton hword, hne]
  | c :: rest, hrest =>
    have hc : isAsciiBlank c = true := hrest c (by simp)
    rw [words_cons_of_blank hc]
    simp [words, List.splitOnP_append_cons_of_forall_mem hword c hc, hne]

/-- A text is empty, or a blank before a text, or a word before a text that
goes on with a blank. -/
theorem wordInduction {motive : List Char → Prop} (nil : motive [])
    (blank : ∀ c cs, isAsciiBlank c = true → motive cs → motive (c :: cs))
    (word : ∀ word rest, word ≠ [] → Solid word → AtBlank rest → motive rest →
      motive (word ++ rest)) (cs : List Char) : motive cs := by
  match cs with
  | [] => exact nil
  | c :: cs =>
    by_cases hc : isAsciiBlank c = true
    · exact blank c cs hc (wordInduction nil blank word cs)
    · have hsplit := List.takeWhile_append_dropWhile (p := fun c => !isAsciiBlank c) (l := cs)
      have hle : (cs.dropWhile fun c => !isAsciiBlank c).length ≤ cs.length :=
        (List.dropWhile_suffix _).length_le
      rw [← hsplit]
      refine word (c :: cs.takeWhile fun c => !isAsciiBlank c) _ (List.cons_ne_nil _ _) ?_ ?_
        (wordInduction nil blank word _)
      · intro x hx
        rcases List.mem_cons.mp hx with rfl | hx
        · simpa using hc
        · simpa using List.all_eq_true.mp List.all_takeWhile x hx
      · intro x hx
        have hnot := List.head?_dropWhile_not (fun c => !isAsciiBlank c) cs
        rw [Option.mem_def.mp hx] at hnot
        simpa using hnot
termination_by cs.length

/-- A hex digit is no blank. -/
theorem isAsciiBlank_of_toLower {c : Char} {n : Nat} (hn : n < 16)
    (h : c.toLower = Hex.digit n) : isAsciiBlank c = false := by
  have hdigit : ∀ n < 16, isAsciiBlank (Hex.digit n) = false := by decide
  have hlow : isAsciiBlank c = true → c.toLower = c := by
    simp only [isAsciiBlank, Bool.or_eq_true, beq_iff_eq]
    rintro ((((rfl | rfl) | rfl) | rfl) | rfl) <;> decide
  cases hc : isAsciiBlank c with
  | false => rfl
  | true => rw [← hdigit n hn, ← h, hlow hc, hc]

theorem solid_of_spells {cs : List Char} {bs : Bytes} (h : Hex.Spells cs bs) : Solid cs := by
  intro c hc
  obtain ⟨n, hn, hlow⟩ := Hex.exists_digit_of_mem h hc
  exact isAsciiBlank_of_toLower hn hlow

end Text

namespace Packet

/-! ## Rows of a follow report -/

/-- The text is a row that holds the bytes. -/
inductive Row : Bytes → List Char → Prop where
  | nil : Row [] []
  | blank {c : Char} {bs : Bytes} {cs : List Char} :
    Text.isAsciiBlank c = true → Row bs cs → Row bs (c :: cs)
  | pair {b : UInt8} {bs : Bytes} {high low : Char} {cs : List Char} :
    Hex.Spells [high, low] [b] → Row bs cs → Row (b :: bs) (high :: low :: cs)

theorem row_nil_iff {bs : Bytes} : Row bs [] ↔ bs = [] := by
  constructor
  · rintro ⟨⟩
    rfl
  · rintro rfl
    exact .nil

theorem row_cons_iff_of_blank {c : Char} (hc : Text.isAsciiBlank c = true) {bs : Bytes}
    {cs : List Char} : Row bs (c :: cs) ↔ Row bs cs := by
  constructor
  · intro h
    cases h with
    | blank _ h => exact h
    | pair hpair _ =>
      rw [Text.solid_of_spells hpair c (by simp)] at hc
      cases hc
  · exact .blank hc

theorem row_append_of_spells : ∀ {bs more : Bytes} {word rest : List Char},
    Hex.Spells word bs → Row more rest → Row (bs ++ more) (word ++ rest)
  | [], more, word, rest, hword, hrest => by
      rw [Hex.spells_nil_iff.mp hword]
      exact hrest
  | b :: bs, more, word, rest, hword, hrest => by
      obtain ⟨high, low, word, rfl, hh, hl, hword⟩ := Hex.spells_cons_iff.mp hword
      refine .pair ?_ (row_append_of_spells hword hrest)
      exact Hex.spells_cons_iff.mpr ⟨high, low, [], rfl, hh, hl, rfl⟩

/-- A word at the front of a row is whole pairs: a pair does not go on
behind the blank that ends the word. -/
theorem spells_of_row_append : ∀ {word rest : List Char} {bs : Bytes},
    Text.Solid word → Text.AtBlank rest → Row bs (word ++ rest) →
    ∃ front more, bs = front ++ more ∧ Hex.Spells word front ∧ Row more rest
  | [], rest, bs, _, _, h => ⟨[], bs, rfl, rfl, h⟩
  | [c], rest, bs, hword, hrest, h => by
      exfalso
      have hc := hword c (by simp)
      cases h with
      | blank hblank _ => simp [hc] at hblank
      | @pair _ _ _ low _ hpair _ =>
        have hlow := Text.solid_of_spells hpair low (by simp)
        simp [hrest low (by simp)] at hlow
  | c :: d :: word, rest, bs, hword, hrest, h => by
      have hc := hword c (by simp)
      cases h with
      | blank hblank _ => simp [hc] at hblank
      | pair hpair h =>
        have hsub : Text.Solid word := fun x hx => hword x (by simp [hx])
        obtain ⟨front, more, rfl, hfront, hmore⟩ := spells_of_row_append hsub hrest h
        exact ⟨_ :: front, more, rfl, Hex.spells_append hpair hfront, hmore⟩

/-! ## Reading rows -/

theorem ofGroups_nil_eq_ok_iff {read : Bytes → Except Hex.Fault Bytes} {bs : Bytes} :
    ofGroups read [] = .ok bs ↔ bs = [] := by
  constructor
  · intro h
    injection h with h
    exact h.symm
  · rintro rfl
    rfl

theorem ofGroups_cons_eq_ok_iff {read : Bytes → Except Hex.Fault Bytes} {group : List Char}
    {rest : List (List Char)} {bs : Bytes} :
    ofGroups read (group :: rest) = .ok bs ↔ ∃ front more,
      read (Text.Utf8.encode group) = .ok front ∧ ofGroups read rest = .ok more ∧
        bs = front ++ more := by
  simp only [ofGroups]
  constructor
  · intro h
    split at h
    · cases h
    · next front hfront =>
      split at h
      · cases h
      · next more hmore =>
        injection h with h
        exact ⟨front, more, hfront, hmore, h.symm⟩
  · rintro ⟨front, more, hfront, hmore, rfl⟩
    rw [hfront, hmore]

theorem ofGroups_words_eq_ok_iff (cs : List Char) :
    ∀ bs : Bytes, ofGroups Hex.decode (Text.words cs) = .ok bs ↔ Row bs cs := by
  induction cs using Text.wordInduction with
  | nil =>
    intro bs
    rw [row_nil_iff]
    exact ofGroups_nil_eq_ok_iff
  | blank c cs hc ih =>
    intro bs
    rw [Text.words_cons_of_blank hc, row_cons_iff_of_blank hc]
    exact ih bs
  | word word rest hne hword hrest ih =>
    intro bs
    rw [Text.words_append hne hword hrest, ofGroups_cons_eq_ok_iff]
    simp only [Hex.decode_encode_eq_ok_iff, ih]
    constructor
    · rintro ⟨front, more, hfront, hmore, rfl⟩
      exact row_append_of_spells hfront hmore
    · intro h
      obtain ⟨front, more, rfl, hfront, hmore⟩ := spells_of_row_append hword hrest h
      exact ⟨front, more, hfront, hmore, rfl⟩

theorem mapError_eq_ok_iff {α ε ε' : Type} {f : ε → ε'} {r : Except ε α} {a : α} :
    r.mapError f = .ok a ↔ r = .ok a := by
  cases r <;> simp [Except.mapError]

theorem mapError_eq_error_iff {α ε ε' : Type} {f : ε → ε'} {r : Except ε α} {e' : ε'} :
    r.mapError f = .error e' ↔ ∃ e, r = .error e ∧ e' = f e := by
  cases r <;> simp [Except.mapError, eq_comm]

/-- A line is read as the bytes of the row that it is. -/
theorem ofLine_eq_ok_iff {line : String} {bs : Packet} :
    ofLine line = .ok bs ↔ Row bs line.toList := by
  rw [ofLine, mapError_eq_ok_iff, ofGroups_words_eq_ok_iff]

/-- Lines are read together when each of them is read. -/
theorem ofLines_eq_ok_iff : ∀ {lines : List String} {packets : List Packet},
    ofLines lines = .ok packets ↔
      List.Forall₂ (fun line packet => Row packet line.toList) lines packets
  | [], packets => by
      rw [List.forall₂_nil_left_iff]
      constructor
      · intro h
        injection h with h
        exact h.symm
      · rintro rfl
        rfl
  | line :: lines, packets => by
      rw [List.forall₂_cons_left_iff, ofLines]
      constructor
      · intro h
        split at h
        · cases h
        · next packet hpacket =>
          split at h
          · cases h
          · next more hmore =>
            injection h with h
            exact ⟨packet, more, ofLine_eq_ok_iff.mp hpacket, ofLines_eq_ok_iff.mp hmore, h.symm⟩
      · rintro ⟨packet, more, hpacket, hmore, rfl⟩
        rw [ofLine_eq_ok_iff.mpr hpacket, ofLines_eq_ok_iff.mpr hmore]

theorem ofLines_cons_eq_error_iff {line : String} {lines : List String} {e : Failure} :
    ofLines (line :: lines) = .error e ↔
      ofLine line = .error e ∨ (∃ packet, Row packet line.toList) ∧ ofLines lines = .error e := by
  simp only [← ofLine_eq_ok_iff, ofLines]
  cases ofLine line with
  | error e' => simp
  | ok packet => cases ofLines lines <;> simp

/-- Lines fail together with the first of them that does. -/
theorem ofLines_eq_error_iff {lines : List String} {e : Failure} :
    ofLines lines = .error e ↔ ∃ front line back, lines = front ++ line :: back ∧
      (∀ l ∈ front, ∃ packet, Row packet l.toList) ∧ ofLine line = .error e :=
  Splitting.exists_first_iff (p := fun lines => ofLines lines = .error e) (by simp [ofLines])
    (fun _ _ => ofLines_cons_eq_error_iff) lines

/-- A row holds the bytes of one packet only. -/
theorem row_unique {b c : Packet} {line : String} (hb : Row b line.toList)
    (hc : Row c line.toList) : b = c :=
  Except.ok.inj ((ofLine_eq_ok_iff.mpr hb).symm.trans (ofLine_eq_ok_iff.mpr hc))

theorem exists_packets_of_rows {lines : List String}
    (h : ∀ line ∈ lines, ∃ packet, Row packet line.toList) :
    ∃ packets, List.Forall₂ (fun line packet => Row packet line.toList) lines packets := by
  induction lines with
  | nil => exact ⟨[], .nil⟩
  | cons line lines ih =>
    obtain ⟨packet, hpacket⟩ := h line (by simp)
    obtain ⟨packets, hpackets⟩ := ih fun l hl => h l (by simp [hl])
    exact ⟨packet :: packets, .cons hpacket hpackets⟩

/-- The packets of rows stand where their rows stand. -/
theorem getElem?_packets_iff {lines : List String} {packets : List Packet}
    (h : List.Forall₂ (fun line packet => Row packet line.toList) lines packets) {j : Nat}
    {packet : Packet} :
    packets[j]? = some packet ↔ ∃ line, lines[j]? = some line ∧ Row packet line.toList := by
  induction h generalizing j with
  | nil => simp
  | cons hrow _ ih =>
    cases j with
    | succ j =>
      simp only [List.getElem?_cons_succ]
      exact ih
    | zero =>
      simp only [List.getElem?_cons_zero, Option.some.injEq]
      constructor
      · intro heq
        exact ⟨_, rfl, heq ▸ hrow⟩
      · rintro ⟨line, rfl, hline⟩
        exact row_unique hrow hline

/-! ## Dissected fields -/

/-- The text is single pairs with colons between them that hold the
bytes. -/
inductive Colons : Bytes → List Char → Prop where
  | last {b : UInt8} {high low : Char} : Hex.Spells [high, low] [b] → Colons [b] [high, low]
  | more {b : UInt8} {bs : Bytes} {high low : Char} {cs : List Char} :
    Hex.Spells [high, low] [b] → Colons bs cs → Colons (b :: bs) (high :: low :: ':' :: cs)

/-- The text is a field that holds the bytes, in either notation. -/
def Field (bs : Bytes) (text : List Char) : Prop :=
  Hex.Spells (Text.trim text) bs ∨ Colons bs (Text.trim text)

theorem colon_notMem_of_spells {cs : List Char} {bs : Bytes} (h : Hex.Spells cs bs) :
    ':' ∉ cs := by
  intro hmem
  obtain ⟨n, hn, hlow⟩ := Hex.exists_digit_of_mem h hmem
  have hdigit : ∀ n < 16, ':'.toLower ≠ Hex.digit n := by decide
  exact hdigit n hn hlow

/-- A piece between colons is read as the byte that it spells. -/
theorem pair_encode_eq_ok_iff {piece : List Char} {bs : Bytes} :
    pair (Text.Utf8.encode piece) = .ok bs ↔ ∃ b high low,
      piece = [high, low] ∧ bs = [b] ∧ Hex.Spells [high, low] [b] := by
  unfold pair
  constructor
  · intro h
    split at h
    · next hlen =>
      have hspells := Hex.decode_encode_eq_ok_iff.mp h
      rw [Hex.length_encode_of_spells bs piece hspells] at hlen
      obtain ⟨b, rfl⟩ := List.length_eq_one_iff.mp (by omega : bs.length = 1)
      obtain ⟨high, low, rest, rfl, -, -, hrest⟩ := Hex.spells_cons_iff.mp hspells
      rw [Hex.spells_nil_iff.mp hrest] at hspells ⊢
      exact ⟨b, high, low, rfl, rfl, hspells⟩
    · cases h
  · rintro ⟨b, high, low, rfl, rfl, hspells⟩
    have hlen : (Text.Utf8.encode [high, low]).length = 2 :=
      Hex.length_encode_of_spells [b] [high, low] hspells
    rw [if_pos hlen]
    exact Hex.decode_encode_eq_ok_iff.mpr hspells

/-- The text up to the first colon is the first pair. -/
theorem colons_append_iff {piece rest : List Char} (hpiece : ':' ∉ piece) {bs : Bytes} :
    Colons bs (piece ++ ':' :: rest) ↔ ∃ b high low more,
      piece = [high, low] ∧ bs = b :: more ∧ Hex.Spells [high, low] [b] ∧ Colons more rest := by
  constructor
  · intro h
    generalize htext : piece ++ ':' :: rest = text at h
    cases h with
    | last hspells =>
      have hmem : ':' ∈ piece ++ ':' :: rest := by simp
      rw [htext] at hmem
      exact absurd hmem (colon_notMem_of_spells hspells)
    | @more b more high low cs hspells hmore =>
      have htext : piece ++ ':' :: rest = [high, low] ++ ':' :: cs := htext
      obtain ⟨rfl, rfl⟩ := Splitting.append_cons_inj_first hpiece
        (colon_notMem_of_spells hspells) htext
      exact ⟨b, high, low, more, rfl, rfl, hspells, hmore⟩
  · rintro ⟨b, high, low, more, rfl, rfl, hspells, hmore⟩
    exact .more hspells hmore

theorem colons_iff_of_notMem {text : List Char} (htext : ':' ∉ text) {bs : Bytes} :
    Colons bs text ↔ ∃ b high low, text = [high, low] ∧ bs = [b] ∧ Hex.Spells [high, low] [b] := by
  constructor
  · intro h
    cases h with
    | last hspells => exact ⟨_, _, _, rfl, rfl, hspells⟩
    | more _ _ => simp at htext
  · rintro ⟨b, high, low, rfl, rfl, hspells⟩
    exact .last hspells

theorem ofGroups_splitOn_eq_ok_iff (text : List Char) (bs : Bytes) :
    ofGroups pair (text.splitOn ':') = .ok bs ↔ Colons bs text := by
  by_cases hcolon : ':' ∈ text
  · obtain ⟨piece, rest, rfl, hpiece⟩ := List.eq_append_cons_of_mem hcolon
    rw [List.splitOn_append_cons_self_of_not_mem hpiece, ofGroups_cons_eq_ok_iff,
      colons_append_iff hpiece]
    simp only [pair_encode_eq_ok_iff]
    constructor
    · rintro ⟨front, more, ⟨b, high, low, rfl, rfl, hspells⟩, hmore, rfl⟩
      exact ⟨b, high, low, more, rfl, rfl, hspells, (ofGroups_splitOn_eq_ok_iff rest more).mp hmore⟩
    · rintro ⟨b, high, low, more, rfl, rfl, hspells, hmore⟩
      exact ⟨[b], more, ⟨b, high, low, rfl, rfl, hspells⟩,
        (ofGroups_splitOn_eq_ok_iff rest more).mpr hmore, rfl⟩
  · rw [List.splitOn_eq_singleton hcolon, ofGroups_cons_eq_ok_iff, colons_iff_of_notMem hcolon]
    simp only [pair_encode_eq_ok_iff, ofGroups_nil_eq_ok_iff]
    constructor
    · rintro ⟨front, more, ⟨b, high, low, rfl, rfl, hspells⟩, rfl, rfl⟩
      exact ⟨b, high, low, rfl, rfl, hspells⟩
    · rintro ⟨b, high, low, rfl, rfl, hspells⟩
      exact ⟨[b], [], ⟨b, high, low, rfl, rfl, hspells⟩, rfl, rfl⟩
termination_by text.length

/-- A field is read as the bytes that it holds. -/
theorem ofField_eq_ok_iff {field : String} {bs : Packet} :
    ofField field = .ok bs ↔ Field bs field.toList := by
  simp only [ofField, mapError_eq_ok_iff, Field]
  by_cases hcolon : ':' ∈ Text.trim field.toList
  · rw [if_pos (by simpa using hcolon), ofGroups_splitOn_eq_ok_iff]
    refine ⟨.inr, fun h => h.resolve_left fun hspells => ?_⟩
    exact colon_notMem_of_spells hspells hcolon
  · rw [if_neg (by simpa using hcolon), Hex.decode_encode_eq_ok_iff]
    refine ⟨.inl, fun h => h.elim id fun hcolons => ?_⟩
    obtain ⟨b, high, low, htrim, rfl, hspells⟩ := (colons_iff_of_notMem hcolon).mp hcolons
    rw [htrim]
    exact hspells

/-- A field that is refused is named without the white space around it. -/
theorem exists_fault_of_ofField {field : String} {f : Failure} (h : ofField field = .error f) :
    ∃ fault, f = .malformedHex (String.ofList (Text.trim field.toList)) fault := by
  obtain ⟨fault, -, rfl⟩ := mapError_eq_error_iff.mp h
  exact ⟨fault, rfl⟩

end Packet
end CaptureSplit
