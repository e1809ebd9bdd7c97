/-
CaptureSplit.Proofs.HexRows — rows told by their characters.

`Packet.Row` derives a row from the left to the right. `Packet.DigitRuns`
says what the rows are in all: every character is a hex digit or a blank,
and each maximal run of characters that are no blanks is of even length.

The reader splits a text into words first, and these are the maximal runs
(`Text.mem_words_iff`). So a text is read where each of its runs spells
bytes, which is to say that the run is an even number of digits
(`Hex.exists_spells_iff`). Nothing of the digits is lost: without its blanks
and in lower case, a row is what `Hex.encode` writes for its bytes
(`Packet.encode_of_row`).
-/
import Mathlib.Data.List.Induction
import CaptureSplit.Proofs.PacketText

namespace CaptureSplit

/-! ## Maximal runs -/

namespace Text

/-- The characters that separate groups of digits. -/
def blanks : List Char := [' ', '\t', '\n', '\x0c', '\r']

theorem mem_blanks_iff {c : Char} : c ∈ blanks ↔ isAsciiBlank c = true := by
  simp [blanks, isAsciiBlank, or_assoc]

theorem notMem_blanks_iff {c : Char} : c ∉ blanks ↔ isAsciiBlank c = false := by
  simp [mem_blanks_iff]

/-- The text is empty or ends with a blank. -/
def EndsInBlank (cs : List Char) : Prop := ∀ c ∈ cs.getLast?, c ∈ blanks

/-- A run of characters that are no blanks, with an end of the text or a blank
on either side. -/
structure IsRun (run cs : List Char) : Prop where
  nonempty : run ≠ []
  solid : ∀ c ∈ run, c ∉ blanks
  maximal : ∃ front back, cs = front ++ run ++ back ∧ EndsInBlank front ∧
    ∀ c ∈ back.head?, c ∈ blanks

theorem endsInBlank_of_append {front rest : List Char} (h : EndsInBlank (front ++ rest)) :
    EndsInBlank rest := by
  intro c hc
  exact h c (by simp [Option.mem_def.mp hc])

theorem endsInBlank_append {front rest : List Char} (hrest : EndsInBlank rest)
    (hfront : rest = [] → EndsInBlank front) : EndsInBlank (front ++ rest) := by
  cases rest with
  | nil => simpa using hfront rfl
  | cons d rest =>
    intro c hc
    exact hrest c (by simpa using hc)

variable {run : List Char}

theorem not_isRun_nil : ¬ IsRun run [] := by
  intro h
  obtain ⟨front, back, heq, -⟩ := h.maximal
  have hnil : run = [] := by simp_all
  exact h.nonempty hnil

theorem isRun_cons_iff_of_blank {c : Char} (hc : isAsciiBlank c = true) {cs : List Char} :
    IsRun run (c :: cs) ↔ IsRun run cs := by
  have hblank : c ∈ blanks := mem_blanks_iff.mpr hc
  constructor
  · intro h
    obtain ⟨front, back, heq, hfront, hback⟩ := h.maximal
    cases front with
    | nil =>
      obtain ⟨d, rest, rfl⟩ := List.exists_cons_of_ne_nil h.nonempty
      obtain rfl : c = d := (List.cons.inj heq).1
      exact absurd hblank (h.solid c (by simp))
    | cons d front =>
      obtain ⟨rfl, rfl⟩ := List.cons.inj heq
      have hfront : EndsInBlank ([c] ++ front) := hfront
      exact ⟨h.nonempty, h.solid, front, back, rfl, endsInBlank_of_append hfront, hback⟩
  · intro h
    obtain ⟨front, back, rfl, hfront, hback⟩ := h.maximal
    have hlast : EndsInBlank [c] := fun d hd => by simp_all
    exact ⟨h.nonempty, h.solid, c :: front, back, rfl,
      endsInBlank_append hfront fun _ => hlast, hback⟩

/-- A run that goes up to a blank is what stands before the first blank. -/
theorem takeWhile_append_of_solid {word rest : List Char} (hword : Solid word)
    (hrest : AtBlank rest) : (word ++ rest).takeWhile (fun c => !isAsciiBlank c) = word := by
  induction word with
  | nil =>
    cases rest with
    | nil => rfl
    | cons c rest =>
      have hc : isAsciiBlank c = true := hrest c (by simp)
      simp [hc]
  | cons c word ih =>
    have hc : isAsciiBlank c = false := hword c (by simp)
    have hword : Solid word := fun d hd => hword d (by simp [hd])
    simp [hc, ih hword]

theorem isRun_append_iff {word rest : List Char} (hne : word ≠ []) (hword : Solid word)
    (hrest : AtBlank rest) : IsRun run (word ++ rest) ↔ run = word ∨ IsRun run rest := by
  constructor
  · intro h
    obtain ⟨front, back, heq, hfront, hback⟩ := h.maximal
    rw [List.append_assoc] at heq
    rcases List.append_eq_append_iff.mp heq with ⟨behind, rfl, hbehind⟩ | ⟨tail, htail, hmore⟩
    · -- the run begins behind the word
      exact .inr ⟨h.nonempty, h.solid, behind, back, by simpa using hbehind,
        endsInBlank_of_append hfront, hback⟩
    · -- the run begins within the word, hence where the word does
      have hnil : front = [] := by
        cases hlast : front.getLast? with
        | none => exact List.getLast?_eq_none_iff.mp hlast
        | some x =>
          have hmem : x ∈ word := by simp [htail, List.mem_of_getLast? hlast]
          exact absurd (hfront x hlast) (notMem_blanks_iff.mpr (hword x hmem))
      subst hnil
      obtain rfl : word = tail := htail
      have hrun : Solid run := fun c hc => notMem_blanks_iff.mp (h.solid c hc)
      have hback : AtBlank back := fun c hc => mem_blanks_iff.mp (hback c hc)
      left
      rw [← takeWhile_append_of_solid hrun hback, hmore, takeWhile_append_of_solid hword hrest]
  · rintro (rfl | h)
    · exact ⟨hne, fun c hc => notMem_blanks_iff.mpr (hword c hc), [], rest, rfl,
        by simp [EndsInBlank], fun c hc => mem_blanks_iff.mpr (hrest c hc)⟩
    · obtain ⟨front, back, rfl, hfront, hback⟩ := h.maximal
      refine ⟨h.nonempty, h.solid, word ++ front, back, by simp, ?_, hback⟩
      refine endsInBlank_append hfront fun hnil => ?_
      -- what goes on with a blank does not begin with a run
      subst hnil
      obtain ⟨c, rest, rfl⟩ := List.exists_cons_of_ne_nil h.nonempty
      exact absurd (mem_blanks_iff.mpr (hrest c (by simp))) (h.solid c (by simp))

/-- The words of a text are its maximal runs. -/
theorem mem_words_iff {cs : List Char} : run ∈ words cs ↔ IsRun run cs := by
  induction cs using wordInduction with
  | nil => simp [words, not_isRun_nil]
  | blank c cs hc ih => rw [words_cons_of_blank hc, isRun_cons_iff_of_blank hc, ih]
  | word word rest hne hword hrest ih =>
    rw [words_append hne hword hrest, isRun_append_iff hne hword hrest, List.mem_cons, ih]

/-- What is no blank stands in a word. -/
theorem forall_words_iff {P : Char → Prop} {cs : List Char} :
    (∀ c ∈ cs, P c ∨ c ∈ blanks) ↔ ∀ word ∈ words cs, ∀ c ∈ word, P c := by
  induction cs using wordInduction with
  | nil => simp [words]
  | blank c cs hc ih =>
    rw [words_cons_of_blank hc, ← ih, List.forall_mem_cons]
    simp [mem_blanks_iff.mpr hc]
  | word word rest hne hword hrest ih =>
    rw [words_append hne hword hrest, List.forall_mem_cons, List.forall_mem_append, ih]
    have hsolid : (∀ c ∈ word, P c ∨ c ∈ blanks) ↔ ∀ c ∈ word, P c := by
      refine forall₂_congr fun c hc => ?_
      simp [notMem_blanks_iff.mpr (hword c hc)]
    rw [hsolid]

end Text

/-! ## Runs of digits -/

namespace Hex

/-- The hex digits, of either case. -/
def digits : List Char := "0123456789abcdefABCDEF".toList

theorem mem_digits_iff {c : Char} : c ∈ digits ↔ ∃ n < 16, c.toLower = digit n := by
  constructor
  · intro hc
    have hall : (digits.all fun c => (List.range 16).any fun n => c.toLower == digit n) = true := by
      decide
    simpa using List.all_eq_true.mp hall c hc
  · rintro ⟨n, hn, hlow⟩
    have hall : ∀ k < 0x80, ∀ n < 16, (Char.ofNat k).toLower = digit n → Char.ofNat k ∈ digits := by
      decide +kernel
    have hc := hall c.toNat (lt_of_toLower hn hlow) n hn
    rw [Char.ofNat_toNat] at hc
    exact hc hlow

theorem spells_unique {cs : List Char} {bs bs' : Bytes} (h : Spells cs bs) (h' : Spells cs bs') :
    bs = bs' :=
  Except.ok.inj ((decode_encode_eq_ok_iff.mpr h).symm.trans (decode_encode_eq_ok_iff.mpr h'))

theorem length_of_spells {cs : List Char} {bs : Bytes} (h : Spells cs bs) :
    cs.length = 2 * bs.length := by
  have hlength := congrArg List.length h
  simpa [encode, Nat.mul_comm] using hlength

theorem spells_pair {high low : Char} {m n : Nat} (hm : m < 16) (hn : n < 16)
    (hhigh : high.toLower = digit m) (hlow : low.toLower = digit n) :
    Spells [high, low] [UInt8.ofNat (16 * m + n)] := by
  have hvalue : (UInt8.ofNat (16 * m + n)).toNat = 16 * m + n :=
    UInt8.toNat_ofNat_of_lt' (show 16 * m + n < 256 by omega)
  have hdiv : (16 * m + n) / 16 = m := by omega
  have hmod : (16 * m + n) % 16 = n := by omega
  unfold Spells
  rw [encode_cons_byte, hvalue, hdiv, hmod, ← hhigh, ← hlow]
  rfl

/-- A text spells bytes when it is an even number of digits. -/
theorem exists_spells_iff {cs : List Char} :
    (∃ bs, Spells cs bs) ↔ (∀ c ∈ cs, c ∈ digits) ∧ 2 ∣ cs.length := by
  constructor
  · rintro ⟨bs, h⟩
    refine ⟨fun c hc => mem_digits_iff.mpr (exists_digit_of_mem h hc), bs.length, ?_⟩
    exact length_of_spells h
  · rintro ⟨hdigits, heven⟩
    induction cs using List.twoStepInduction with
    | nil => exact ⟨[], rfl⟩
    | singleton c => simp at heven
    | cons_cons high low rest ih _ =>
      obtain ⟨hhigh, hdigits⟩ := List.forall_mem_cons.mp hdigits
      obtain ⟨hlow, hrest⟩ := List.forall_mem_cons.mp hdigits
      obtain ⟨m, hm, hhigh⟩ := mem_digits_iff.mp hhigh
      obtain ⟨n, hn, hlow⟩ := mem_digits_iff.mp hlow
      have heven : 2 ∣ rest.length := by
        simp only [List.length_cons] at heven
        omega
      obtain ⟨bs, hbs⟩ := ih hrest heven
      exact ⟨_, spells_append (spells_pair hm hn hhigh hlow) hbs⟩

end Hex

namespace Packet

/-- The text is hex digits and blanks, and its runs of digits are of even
length. -/
structure DigitRuns (cs : List Char) : Prop where
  chars : ∀ c ∈ cs, c ∈ Hex.digits ∨ c ∈ Text.blanks
  even : ∀ run, Text.IsRun run cs → 2 ∣ run.length

/-- Groups are read together when each of them is read. -/
theorem exists_ofGroups_iff {read : Bytes → Except Hex.Fault Bytes} {groups : List (List Char)} :
    (∃ bs, ofGroups read groups = .ok bs) ↔
      ∀ g ∈ groups, ∃ bs, read (Text.Utf8.encode g) = .ok bs := by
  induction groups with
  | nil => simp [ofGroups]
  | cons group groups ih =>
    simp only [ofGroups_cons_eq_ok_iff, List.forall_mem_cons, ← ih]
    constructor
    · rintro ⟨bs, front, more, hfront, hmore, -⟩
      exact ⟨⟨front, hfront⟩, more, hmore⟩
    · rintro ⟨⟨front, hfront⟩, more, hmore⟩
      exact ⟨_, front, more, hfront, hmore, rfl⟩

theorem exists_row_iff {cs : List Char} : (∃ bs, Row bs cs) ↔ DigitRuns cs := by
  simp only [← ofGroups_words_eq_ok_iff, exists_ofGroups_iff, Hex.decode_encode_eq_ok_iff,
    Hex.exists_spells_iff]
  constructor
  · intro h
    refine ⟨Text.forall_words_iff.mpr fun word hword => (h word hword).1, ?_⟩
    intro run hrun
    exact (h run (Text.mem_words_iff.mpr hrun)).2
  · intro h word hword
    exact ⟨Text.forall_words_iff.mp h.chars word hword, h.even word (Text.mem_words_iff.mp hword)⟩

/-- The digits of a row are those of its bytes. -/
theorem encode_of_row {bs : Bytes} {cs : List Char} (h : Row bs cs) :
    Hex.Spells (cs.filter fun c => c ∉ Text.blanks) bs := by
  induction h with
  | nil => rfl
  | blank hc _ ih =>
    rw [List.filter_cons_of_neg (by simpa using Text.mem_blanks_iff.mpr hc)]
    exact ih
  | @pair b bs high low cs hpair _ ih =>
    have hsolid := Text.solid_of_spells hpair
    have hhigh : high ∉ Text.blanks := Text.notMem_blanks_iff.mpr (hsolid high (by simp))
    have hlow : low ∉ Text.blanks := Text.notMem_blanks_iff.mpr (hsolid low (by simp))
    rw [List.filter_cons_of_pos (by simpa using hhigh),
      List.filter_cons_of_pos (by simpa using hlow)]
    exact Hex.spells_append hpair ih

/-- A line is read where it is runs of hex digits, each of even length, between
blanks. It is read as the bytes that have the same digits, and each way to
write bytes as a row is read back. -/
theorem ofLine_reads_digit_runs (line : String) :
    ((∃ bs, ofLine line = .ok bs) ↔ DigitRuns line.toList) ∧
    (∀ bs, ofLine line = .ok bs ↔ DigitRuns line.toList ∧
      Hex.encode bs = (line.toList.filter fun c => c ∉ Text.blanks).map Char.toLower) ∧
    ∀ bs, ofLine line = .ok bs ↔ Row bs line.toList := by
  refine ⟨?_, fun bs => ?_, fun bs => ofLine_eq_ok_iff⟩
  · simp only [ofLine_eq_ok_iff]
    exact exists_row_iff
  · rw [ofLine_eq_ok_iff]
    constructor
    · intro h
      exact ⟨exists_row_iff.mp ⟨bs, h⟩, (encode_of_row h).symm⟩
    · rintro ⟨hruns, hdigits⟩
      obtain ⟨bs', hrow⟩ := exists_row_iff.mpr hruns
      obtain rfl : bs' = bs := Hex.spells_unique (encode_of_row hrow) hdigits.symm
      exact hrow

/-- Both runs are odd, though the digits are four in all. -/
example : (ofLine "d ead").toOption = none := by decide +kernel

end Packet
end CaptureSplit
