/-
CaptureSplit.Proofs.HexFaults — what is said of a text that is no packet.

A text is read in groups: the runs of a row, the pieces of a field between its
colons, or the field as a whole. A group by itself has at most one fault
(`Hex.PairsFault`, `Packet.PieceFault`): its length in bytes counts first, and
then the first byte that is no digit (`Hex.FirstNonDigit`). Of several groups
the leftmost that has a fault decides (`RowFault`, `FieldFault`), and of several
rows the first.

The reader of digits looks at two bytes at a time, and the proof goes with it
(`Hex.pairsFrom_eq_error_iff`). That the groups of a row are its runs, at the
places where they stand, is said by `Text.words_eq_append_cons_iff`: whatever
ends with a blank can be split off without changing a word.
-/
import CaptureSplit.Proofs.HexFields

namespace CaptureSplit

/-! ## Groups by themselves -/

namespace Hex

/-- The byte is a hex digit. -/
def IsDigit (b : UInt8) : Prop := Char.ofNat b.toNat ∈ digits

instance : DecidablePred IsDigit := fun b =>
  inferInstanceAs (Decidable (Char.ofNat b.toNat ∈ digits))

/-- The byte at the position is no digit, and those before it are digits. -/
structure FirstNonDigit (bytes : Bytes) (b : UInt8) (position : Nat) : Prop where
  found : bytes[position]? = some b
  not_digit : ¬ IsDigit b
  least : ∀ n < position, ∀ x ∈ bytes[n]?, IsDigit x

/-- What is wrong with bytes that are no pairs of digits. -/
inductive PairsFault (bytes : Bytes) : Fault → Prop where
  | odd : ¬ 2 ∣ bytes.length → PairsFault bytes .oddLength
  | digit {b : UInt8} {position : Nat} : 2 ∣ bytes.length → FirstNonDigit bytes b position →
    PairsFault bytes (.notADigit b position)

theorem digit?_eq_none_iff {b : UInt8} : digit? b = none ↔ ¬ IsDigit b := by
  have hall : ∀ k < 256, digit? (UInt8.ofNat k) = none ↔ ¬ IsDigit (UInt8.ofNat k) := by
    decide +kernel
  have hb := hall b.toNat b.toNat_lt
  rwa [UInt8.ofNat_toNat] at hb

theorem isDigit_of_digit? {b v : UInt8} (h : digit? b = some v) : IsDigit b := by
  by_contra hnot
  rw [digit?_eq_none_iff.mpr hnot] at h
  cases h

theorem not_firstNonDigit_nil {b : UInt8} {position : Nat} : ¬ FirstNonDigit [] b position := by
  intro h
  cases h.found

theorem firstNonDigit_cons_iff {x b : UInt8} {bytes : Bytes} {position : Nat} :
    FirstNonDigit (x :: bytes) b position ↔ (¬ IsDigit x ∧ b = x ∧ position = 0) ∨
      (IsDigit x ∧ ∃ n, position = n + 1 ∧ FirstNonDigit bytes b n) := by
  constructor
  · intro h
    cases position with
    | zero =>
      obtain rfl : x = b := Option.some.inj h.found
      exact .inl ⟨h.not_digit, rfl, rfl⟩
    | succ n =>
      have hx : IsDigit x := h.least 0 (Nat.succ_pos n) x rfl
      have hrest : FirstNonDigit bytes b n :=
        ⟨h.found, h.not_digit, fun m hm => h.least (m + 1) (Nat.succ_lt_succ hm)⟩
      exact .inr ⟨hx, n, rfl, hrest⟩
  · rintro (⟨hx, rfl, rfl⟩ | ⟨hx, n, rfl, h⟩)
    · exact ⟨rfl, hx, fun m hm => absurd hm (Nat.not_lt_zero m)⟩
    · refine ⟨h.found, h.not_digit, fun m hm y hy => ?_⟩
      cases m with
      | zero =>
        obtain rfl : x = y := Option.some.inj hy
        exact hx
      | succ m => exact h.least m (Nat.lt_of_succ_lt_succ hm) y hy

theorem pairsFrom_cons_eq_error_iff {high low h l : UInt8} {rest : Bytes} {position : Nat}
    {fault : Fault} (hhigh : digit? high = some h) (hlow : digit? low = some l) :
    pairsFrom position (high :: low :: rest) = .error fault ↔
      pairsFrom (position + 2) rest = .error fault := by
  simp only [pairsFrom, hhigh, hlow]
  cases pairsFrom (position + 2) rest <;> simp

/-- Whole pairs are refused for the first byte that is no digit. -/
theorem pairsFrom_eq_error_iff {fault : Fault} : ∀ {bytes : Bytes} {position : Nat},
    2 ∣ bytes.length → (pairsFrom position bytes = .error fault ↔
      ∃ b n, FirstNonDigit bytes b n ∧ fault = .notADigit b (position + n))
  | [], position, _ => by simp [pairsFrom, not_firstNonDigit_nil]
  | [_], _, heven => by simp at heven
  | high :: low :: rest, position, heven => by
      have heven : 2 ∣ rest.length := by
        simp only [List.length_cons] at heven
        omega
      simp only [firstNonDigit_cons_iff]
      cases hhigh : digit? high with
      | none =>
        have hnot := digit?_eq_none_iff.mp hhigh
        simp [pairsFrom, hhigh, hnot, eq_comm]
      | some h =>
        have hdigit := isDigit_of_digit? hhigh
        cases hlow : digit? low with
        | none =>
          have hnot := digit?_eq_none_iff.mp hlow
          simp [pairsFrom, hhigh, hlow, hdigit, hnot, eq_comm]
        | some l =>
          have hdigit' := isDigit_of_digit? hlow
          rw [pairsFrom_cons_eq_error_iff hhigh hlow, pairsFrom_eq_error_iff heven]
          simp [hdigit, hdigit', Nat.add_assoc, Nat.add_comm 2]

theorem decode_eq_error_iff {bytes : Bytes} {fault : Fault} :
    decode bytes = .error fault ↔ PairsFault bytes fault := by
  unfold decode
  by_cases heven : 2 ∣ bytes.length
  · rw [if_neg (by omega), pairsFrom_eq_error_iff heven]
    constructor
    · rintro ⟨b, n, h, rfl⟩
      rw [Nat.zero_add]
      exact .digit heven h
    · intro h
      cases h with
      | odd hodd => exact absurd heven hodd
      | digit _ h => exact ⟨_, _, h, by rw [Nat.zero_add]⟩
  · rw [if_pos (by omega)]
    constructor
    · intro h
      obtain rfl := Except.error.inj h
      exact .odd heven
    · intro h
      cases h with
      | odd _ => rfl
      | digit heven' _ => exact absurd heven' heven

end Hex

/-! ## Groups where they stand -/

namespace Text

theorem words_append_of_endsInBlank {front : List Char} (h : EndsInBlank front)
    (rest : List Char) : words (front ++ rest) = words front ++ words rest := by
  rcases List.eq_nil_or_concat front with rfl | ⟨base, c, rfl⟩
  · rfl
  · have hc : isAsciiBlank c = true := mem_blanks_iff.mp (h c (by simp))
    simp [words, List.splitOnP_append_cons _ _ hc]

/-- A word of a text stands in it at one place. -/
theorem words_eq_append_cons_iff {cs group : List Char} {before after : List (List Char)} :
    words cs = before ++ group :: after ↔ ∃ front back, cs = front ++ group ++ back ∧
      EndsInBlank front ∧ group ≠ [] ∧ Solid group ∧ AtBlank back ∧
        words front = before ∧ words back = after := by
  constructor
  · intro h
    induction cs using wordInduction generalizing before with
    | nil => simp [words] at h
    | blank c cs hc ih =>
      rw [words_cons_of_blank hc] at h
      obtain ⟨front, back, rfl, hfront, hne, hsolid, hback, hbefore, hafter⟩ := ih h
      have hlast : EndsInBlank [c] := fun d hd => by simp_all [mem_blanks_iff]
      refine ⟨c :: front, back, rfl, endsInBlank_append hfront fun _ => hlast, hne, hsolid, hback,
        ?_, hafter⟩
      rw [words_cons_of_blank hc, hbefore]
    | word word rest hne hword hrest ih =>
      rw [words_append hne hword hrest] at h
      cases before with
      | nil =>
        obtain ⟨rfl, hafter⟩ := List.cons.inj h
        exact ⟨[], rest, rfl, by simp [EndsInBlank], hne, hword, hrest, rfl, hafter⟩
      | cons first before =>
        obtain ⟨rfl, htail⟩ := List.cons.inj h
        obtain ⟨front, back, rfl, hfront, hne', hsolid, hback, hbefore, hafter⟩ := ih htail
        -- what goes on with a blank does not begin with a word
        have hsome : front ≠ [] := by
          rintro rfl
          obtain ⟨c, group, rfl⟩ := List.exists_cons_of_ne_nil hne'
          have hc := hsolid c (by simp)
          rw [hrest c (by simp)] at hc
          cases hc
        have hgoes : AtBlank front := fun c hc => hrest c (by simp [Option.mem_def.mp hc])
        refine ⟨word ++ front, back, by simp, endsInBlank_append hfront (absurd · hsome), hne',
          hsolid, hback, ?_, hafter⟩
        rw [words_append hne hword hgoes, hbefore]
  · rintro ⟨front, back, rfl, hfront, hne, hsolid, hback, rfl, rfl⟩
    rw [List.append_assoc, words_append_of_endsInBlank hfront, words_append hne hsolid hback]

end Text

namespace Packet

/-- What is wrong with a piece between colons that is no pair. -/
inductive PieceFault (piece : Bytes) : Hex.Fault → Prop where
  | length : piece.length ≠ 2 → PieceFault piece .notAPair
  | digit {b : UInt8} {position : Nat} : piece.length = 2 → Hex.FirstNonDigit piece b position →
    PieceFault piece (.notADigit b position)

theorem pair_eq_error_iff {piece : Bytes} {fault : Hex.Fault} :
    pair piece = .error fault ↔ PieceFault piece fault := by
  unfold pair
  by_cases htwo : piece.length = 2
  · have heven : 2 ∣ piece.length := by simp [htwo]
    rw [if_pos htwo, Hex.decode_eq_error_iff]
    constructor
    · intro h
      cases h with
      | odd hodd => exact absurd heven hodd
      | digit _ h => exact .digit htwo h
    · intro h
      cases h with
      | length hne => exact absurd htwo hne
      | digit _ h => exact .digit heven h
  · rw [if_neg htwo]
    constructor
    · intro h
      obtain rfl := Except.error.inj h
      exact .length htwo
    · intro h
      cases h with
      | length _ => rfl
      | digit htwo' _ => exact absurd htwo' htwo

/-- Groups fail together with the first of them that does. -/
theorem ofGroups_eq_error_iff {read : Bytes → Except Hex.Fault Bytes} {fault : Hex.Fault}
    {groups : List (List Char)} :
    ofGroups read groups = .error fault ↔ ∃ front group back, groups = front ++ group :: back ∧
      (∀ g ∈ front, ∀ other, read (Text.Utf8.encode g) ≠ .error other) ∧
        read (Text.Utf8.encode group) = .error fault := by
  refine Splitting.exists_first_iff (p := fun groups => ofGroups read groups = .error fault)
    (by simp [ofGroups]) ?_ groups
  intro group rest
  simp only [ofGroups]
  cases read (Text.Utf8.encode group) with
  | error e => simp
  | ok bytes => cases ofGroups read rest <;> simp

/-! ## Rows and fields -/

/-- A run of the row has this fault, and no run to the left of it has any. -/
inductive RowFault : List Char → Hex.Fault → Prop where
  | leftmost {front group back : List Char} {fault : Hex.Fault} : Text.EndsInBlank front →
    group ≠ [] → (∀ c ∈ group, c ∉ Text.blanks) → (∀ c ∈ back.head?, c ∈ Text.blanks) →
    (∀ run, Text.IsRun run front → ∀ other, ¬ Hex.PairsFault (Text.Utf8.encode run) other) →
    Hex.PairsFault (Text.Utf8.encode group) fault → RowFault (front ++ group ++ back) fault

/-- A field without a colon has this fault as a whole. Of a field with colons a
piece has it, and no piece to the left of it has any. -/
inductive FieldFault (cs : List Char) : Hex.Fault → Prop where
  | whole {fault : Hex.Fault} : ':' ∉ cs → Hex.PairsFault (Text.Utf8.encode cs) fault →
    FieldFault cs fault
  | leftmost {front back : List (List Char)} {piece : List Char} {fault : Hex.Fault} : ':' ∈ cs →
    cs = [':'].intercalate (front ++ piece :: back) →
    (∀ p ∈ front ++ piece :: back, ':' ∉ p) →
    (∀ p ∈ front, ∀ other, ¬ PieceFault (Text.Utf8.encode p) other) →
    PieceFault (Text.Utf8.encode piece) fault → FieldFault cs fault

theorem ofGroups_words_eq_error_iff {cs : List Char} {fault : Hex.Fault} :
    ofGroups Hex.decode (Text.words cs) = .error fault ↔ RowFault cs fault := by
  simp only [ofGroups_eq_error_iff, ne_eq, Hex.decode_eq_error_iff, Text.words_eq_append_cons_iff]
  constructor
  · rintro ⟨_, group, _, ⟨front, back, rfl, hfront, hne, hsolid, hback, rfl, rfl⟩, hgood, hbad⟩
    refine .leftmost hfront hne (fun c hc => Text.notMem_blanks_iff.mpr (hsolid c hc))
      (fun c hc => Text.mem_blanks_iff.mpr (hback c hc)) ?_ hbad
    intro run hrun
    exact hgood run (Text.mem_words_iff.mpr hrun)
  · intro h
    cases h with
    | @leftmost front group back _ hfront hne hsolid hback hgood hbad =>
      refine ⟨_, group, _, ⟨front, back, rfl, hfront, hne,
        fun c hc => Text.notMem_blanks_iff.mp (hsolid c hc),
        fun c hc => Text.mem_blanks_iff.mp (hback c hc), rfl, rfl⟩, ?_, hbad⟩
      intro run hrun
      exact hgood run (Text.mem_words_iff.mp hrun)

theorem ofGroups_splitOn_eq_error_iff {cs : List Char} (hcolon : ':' ∈ cs) {fault : Hex.Fault} :
    ofGroups pair (cs.splitOn ':') = .error fault ↔ FieldFault cs fault := by
  simp only [ofGroups_eq_error_iff, ne_eq, pair_eq_error_iff, Splitting.splitOn_eq_iff]
  constructor
  · rintro ⟨front, piece, back, ⟨-, hcolons, hcs⟩, hgood, hbad⟩
    exact .leftmost hcolon hcs hcolons hgood hbad
  · intro h
    cases h with
    | whole hnone _ => exact absurd hcolon hnone
    | leftmost _ hcs hcolons hgood hbad =>
      exact ⟨_, _, _, ⟨by simp, hcolons, hcs⟩, hgood, hbad⟩

theorem ofLine_eq_error_iff {line : String} {f : Failure} :
    ofLine line = .error f ↔
      ∃ fault, RowFault line.toList fault ∧ f = .malformedHex line fault := by
  simp only [ofLine, mapError_eq_error_iff, ofGroups_words_eq_error_iff]

theorem ofField_eq_error_iff {field : String} {f : Failure} :
    ofField field = .error f ↔ ∃ fault, FieldFault (Text.trim field.toList) fault ∧
      f = .malformedHex (String.ofList (Text.trim field.toList)) fault := by
  simp only [ofField, mapError_eq_error_iff]
  by_cases hcolon : ':' ∈ Text.trim field.toList
  · simp only [List.contains_iff_mem.mpr hcolon, if_true, ofGroups_splitOn_eq_error_iff hcolon]
  · have hwhole : ∀ fault, Hex.PairsFault (Text.Utf8.encode (Text.trim field.toList)) fault ↔
        FieldFault (Text.trim field.toList) fault := by
      intro fault
      constructor
      · exact .whole hcolon
      · intro h
        cases h with
        | whole _ h => exact h
        | leftmost hsome _ _ _ _ => exact absurd hsome hcolon
    rw [if_neg (by simpa using hcolon)]
    simp only [Hex.decode_eq_error_iff, hwhole]

/-- A row that is no packet is refused with the whole row and the fault of its
leftmost faulty run; a field, with the field less the white space around it, and
the fault of the whole or, if it has colons, of its leftmost faulty piece. Rows
are refused together for the first that is refused, and otherwise are one packet
each, in order. -/
theorem faults_are_leftmost :
    (∀ line f, ofLine line = .error f ↔
      ∃ fault, RowFault line.toList fault ∧ f = .malformedHex line fault) ∧
    (∀ field f, ofField field = .error f ↔ ∃ inner fault, Text.Trimmed field.toList inner ∧
      FieldFault inner fault ∧ f = .malformedHex (String.ofList inner) fault) ∧
    (∀ lines f, ofLines lines = .error f ↔ ∃ front line back, lines = front ++ line :: back ∧
      (∀ l ∈ front, ∃ packet, ofLine l = .ok packet) ∧ ofLine line = .error f) ∧
    ∀ lines packets, ofLines lines = .ok packets ↔
      List.Forall₂ (fun line packet => ofLine line = .ok packet) lines packets := by
  refine ⟨fun line f => ofLine_eq_error_iff, fun field f => ?_, fun lines f => ?_,
    fun lines packets => ?_⟩
  · simp only [ofField_eq_error_iff, Text.trimmed_iff, exists_and_left, exists_eq_left']
  · simp only [ofLine_eq_ok_iff]
    exact ofLines_eq_error_iff
  · simp only [ofLine_eq_ok_iff]
    exact ofLines_eq_ok_iff

/-- Three bytes are an odd number of digits, whatever they are, and count before
the group behind them. -/
example : ofLine "00 é0 z" = .error (.malformedHex "00 é0 z" .oddLength) := by decide +kernel

end Packet
end CaptureSplit
