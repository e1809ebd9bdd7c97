/-
CaptureSplit.Text.Blank — the two notions of blank space.

* `isAsciiBlank` separates the byte groups of a report line: five
  characters, and no others.
* `isWhiteSpace` is the White_Space property of Unicode; `trim` removes
  such characters from both ends of a text.

What `trim` leaves is told apart from the text around it by its two ends
alone (`trimmed_iff`).
-/
namespace CaptureSplit.Text

/-- The code points of a table of closed ranges. -/
def inRanges (ranges : List (Nat × Nat)) (n : Nat) : Bool :=
  ranges.any fun r => r.1 ≤ n && n ≤ r.2

/-- Space, tab, line feed, form feed and carriage return. -/
def isAsciiBlank (c : Char) : Bool :=
  c == ' ' || c == '\t' || c == '\n' || c == '\x0c' || c == '\r'

/-- The White_Space property of Unicode, as closed ranges. -/
def whiteSpaceRanges : List (Nat × Nat) :=
  [(0x09, 0x0D), (0x20, 0x20), (0x85, 0x85), (0xA0, 0xA0), (0x1680, 0x1680),
   (0x2000, 0x200A), (0x2028, 0x2029), (0x202F, 0x202F), (0x205F, 0x205F),
   (0x3000, 0x3000)]

/-- White space in the sense of Unicode. -/
def isWhiteSpace (c : Char) : Bool := inRanges whiteSpaceRanges c.toNat

/-- A text without the white space at its two ends. -/
def trim (cs : List Char) : List Char :=
  ((cs.dropWhile isWhiteSpace).reverse.dropWhile isWhiteSpace).reverse

/-- The maximal runs of characters that are no ASCII blanks, in order. -/
def words (cs : List Char) : List (List Char) :=
  (cs.splitOnP isAsciiBlank).filter fun w => !w.isEmpty

/-! ## What trimming leaves -/

/-- `inner` is `text` but for white space around it, and neither begins nor
ends with white space. -/
structure Trimmed (text inner : List Char) : Prop where
  around : ∃ front back, text = front ++ inner ++ back ∧
    (∀ c ∈ front, isWhiteSpace c = true) ∧ ∀ c ∈ back, isWhiteSpace c = true
  first : ∀ c ∈ inner.head?, isWhiteSpace c = false
  last : ∀ c ∈ inner.getLast?, isWhiteSpace c = false

theorem dropWhile_isWhiteSpace_append {front rest : List Char}
    (hfront : ∀ c ∈ front, isWhiteSpace c = true)
    (hrest : ∀ c ∈ rest.head?, isWhiteSpace c = false) :
    (front ++ rest).dropWhile isWhiteSpace = rest := by
  rw [List.dropWhile_append_of_pos hfront]
  cases rest with
  | nil => rfl
  | cons c rest =>
    have hc : isWhiteSpace c = false := hrest c rfl
    rw [List.dropWhile_cons_of_neg (by simp [hc])]

theorem trim_of_trimmed {text inner : List Char} (h : Trimmed text inner) : trim text = inner := by
  obtain ⟨front, back, rfl, hfront, hback⟩ := h.around
  cases inner with
  | nil =>
    have hall : ∀ c ∈ front ++ back, isWhiteSpace c = true :=
      List.forall_mem_append.mpr ⟨hfront, hback⟩
    have hnone : (front ++ back ++ []).dropWhile isWhiteSpace = [] :=
      dropWhile_isWhiteSpace_append hall (by simp)
    rw [List.append_nil] at hnone
    rw [trim, List.append_nil, hnone]
    rfl
  | cons c inner =>
    have hfirst : (front ++ (c :: inner ++ back)).dropWhile isWhiteSpace = c :: inner ++ back :=
      dropWhile_isWhiteSpace_append hfront h.first
    have hlast : ∀ d ∈ (c :: inner).reverse.head?, isWhiteSpace d = false := by
      rw [List.head?_reverse]
      exact h.last
    rw [trim, List.append_assoc, hfirst, List.reverse_append,
      dropWhile_isWhiteSpace_append (by simpa using hback) hlast, List.reverse_reverse]

theorem trimmed_trim (text : List Char) : Trimmed text (trim text) := by
  have hhead : ∀ cs : List Char, ∀ c ∈ (cs.dropWhile isWhiteSpace).head?,
      isWhiteSpace c = false := by
    intro cs c hc
    have hnot := List.head?_dropWhile_not isWhiteSpace cs
    rwa [Option.mem_def.mp hc] at hnot
  have hwhite : ∀ cs : List Char, ∀ c ∈ cs.takeWhile isWhiteSpace, isWhiteSpace c = true :=
    fun cs => List.all_eq_true.mp List.all_takeWhile
  -- the text from its first visible character on is what is left and white space
  have hrest : text.dropWhile isWhiteSpace = trim text ++
      ((text.dropWhile isWhiteSpace).reverse.takeWhile isWhiteSpace).reverse := by
    rw [trim, ← List.reverse_append, List.takeWhile_append_dropWhile, List.reverse_reverse]
  refine ⟨⟨text.takeWhile isWhiteSpace,
    ((text.dropWhile isWhiteSpace).reverse.takeWhile isWhiteSpace).reverse, ?_, hwhite text, ?_⟩,
    ?_, ?_⟩
  · rw [List.append_assoc, ← hrest, List.takeWhile_append_dropWhile]
  · intro c hc
    exact hwhite _ c (List.mem_reverse.mp hc)
  · intro c hc
    refine hhead text c ?_
    rw [hrest, List.head?_append, Option.mem_def.mp hc]
    rfl
  · rw [trim, List.getLast?_reverse]
    exact hhead _

/-- Trimming leaves the one text of which this is true. -/
theorem trimmed_iff {text inner : List Char} : Trimmed text inner ↔ trim text = inner := by
  constructor
  · exact trim_of_trimmed
  · rintro rfl
    exact trimmed_trim text

/-- A text without white space is what is left of it between white space. -/
theorem trim_append {front inner back : List Char} (hfront : ∀ c ∈ front, isWhiteSpace c = true)
    (hinner : ∀ c ∈ inner, isWhiteSpace c = false) (hback : ∀ c ∈ back, isWhiteSpace c = true) :
    trim (front ++ inner ++ back) = inner :=
  trim_of_trimmed ⟨⟨front, back, rfl, hfront, hback⟩, fun c hc => hinner c (List.mem_of_head? hc),
    fun c hc => hinner c (List.mem_of_getLast? hc)⟩

end CaptureSplit.Text
