/-
CaptureSplit.Proofs.MarkupText — what is read of markup as it is written.

A `Mark` is a tag with its attributes, and `Mark.text` writes it with each
value between quotation marks. `Writes marks document` says that a document
is written for marks, one behind the other, with text, instructions and
comments around them as one likes. Reading it goes back in three steps:

* the scan cuts the document at the marks (`tokensFrom_of_writes`). Within a
  tag the induction is on `Balanced`: whatever a quotation mark opens, another
  one closes, so the first bracket outside is the end of the tag;
* where the elements are nested, the tokens say what the marks do
  (`eventsFrom_nested`), whatever elements are open around them;
* a key is found among the attributes of a tag with the value that was
  written (`lookUp_attributesBytes`).

`events_of_writes` puts the first two together.
-/
import CaptureSplit.Markup.Attribute
import CaptureSplit.Markup.Event
import CaptureSplit.Proofs.Encoding

namespace CaptureSplit.Markup

open CaptureSplit.Text.Utf8 (ofString mem_encode_iff)

/-! ## Words and values -/

/-- A character of the names that tags and attributes have. -/
def isWordChar (c : Char) : Bool := c.isAlphanum || c == '_'

/-- The text can be the name of a tag or the key of an attribute. -/
structure IsWord (s : String) : Prop where
  nonempty : s.toList ≠ []
  chars : ∀ c ∈ s.toList, isWordChar c = true

theorem isWord_iff {s : String} : IsWord s ↔ s.toList ≠ [] ∧ s.toList.all isWordChar = true := by
  rw [List.all_eq_true]
  exact ⟨fun h => ⟨h.nonempty, h.chars⟩, fun h => ⟨h.1, h.2⟩⟩

instance (s : String) : Decidable (IsWord s) := decidable_of_iff _ isWord_iff.symm

/-- The text can stand between quotation marks. -/
def Quotable (s : String) : Prop := '"' ∉ s.toList

instance (s : String) : Decidable (Quotable s) := inferInstanceAs (Decidable ('"' ∉ s.toList))

/-- The bytes that mean something within a tag: blanks, quotation marks, and
what stands in front of a name, behind it or behind all attributes. -/
def reserved : List UInt8 :=
  [0x09, 0x0A, 0x0D, 0x20, 0x21, 0x22, 0x27, 0x2F, 0x3D, 0x3E, 0x3F]

theorem IsWord.notMem_reserved {s : String} (h : IsWord s) :
    ∀ b ∈ ofString s, b ∉ reserved := by
  have hreserved : (reserved.all fun b =>
      b.toNat < 0x80 && !isWordChar (Char.ofNat b.toNat)) = true := by decide
  intro b hb hmem
  obtain ⟨hlt, hnot⟩ : b.toNat < 0x80 ∧ isWordChar (Char.ofNat b.toNat) = false := by
    simpa using List.all_eq_true.mp hreserved b hmem
  have hchar := h.chars _ ((mem_encode_iff hlt s.toList).mp hb)
  rw [hnot] at hchar
  cases hchar

theorem IsWord.exists_cons {s : String} (h : IsWord s) : ∃ b bs, ofString s = b :: bs := by
  obtain ⟨c, cs, hs⟩ := List.exists_cons_of_ne_nil h.nonempty
  obtain ⟨b, bs, hc⟩ := List.exists_cons_of_ne_nil (String.utf8EncodeChar_ne_nil (c := c))
  refine ⟨b, bs ++ Text.Utf8.encode cs, ?_⟩
  rw [ofString, hs, Text.Utf8.encode_cons, hc, List.cons_append]

theorem Quotable.notMem {s : String} (h : Quotable s) : 0x22 ∉ ofString s := by
  intro hb
  exact h ((mem_encode_iff (by decide) s.toList).mp hb)

theorem isBlank_of_notMem_reserved {b : UInt8} (h : b ∉ reserved) : isBlank b = false := by
  simp [reserved] at h
  simp [isBlank, h]

theorem isKeyByte_of_notMem_reserved {b : UInt8} (h : b ∉ reserved) : isKeyByte b = true := by
  rw [isKeyByte, isBlank_of_notMem_reserved h]
  simp [reserved] at h
  simp [h]

/-! ## Attributes -/

/-- An attribute that can be written. -/
structure Attribute where
  key : String
  value : String
  key_word : IsWord key
  value_quotable : Quotable value

/-- A blank, the key, and the value between quotation marks. -/
def Attribute.text (a : Attribute) : Bytes :=
  0x20 :: ofString a.key ++ 0x3D :: 0x22 :: ofString a.value ++ [0x22]

/-- The attributes of a tag, one behind the other. -/
def attributesBytes (as : List Attribute) : Bytes := as.flatMap Attribute.text

theorem valueFront_quoted (key : Bytes) {value : Bytes} (h : 0x22 ∉ value) (rest : Bytes) :
    valueFront key (0x22 :: value ++ 0x22 :: rest) = .attribute key value rest := by
  have hbefore : ∀ b ∈ value, (!decide (b = 0x22)) = true := by
    intro b hb
    have : b ≠ 0x22 := fun heq => h (heq ▸ hb)
    simp [this]
  have hquote : isBlank 0x22 = false := by decide
  simp [valueFront, hquote, List.dropWhile_append_of_pos hbefore,
    List.takeWhile_append_of_pos hbefore]

/-- The first attribute is read off the text of all. -/
theorem front_text (a : Attribute) (rest : Bytes) :
    front (a.text ++ rest) = .attribute (ofString a.key) (ofString a.value) rest := by
  obtain ⟨b, bs, hkey⟩ := a.key_word.exists_cons
  have hfree : ∀ x ∈ b :: bs, x ∉ reserved := hkey ▸ a.key_word.notMem_reserved
  have hb : isBlank b = false := isBlank_of_notMem_reserved (hfree b (by simp))
  have hbs : ∀ x ∈ bs, isKeyByte x = true := fun x hx =>
    isKeyByte_of_notMem_reserved (hfree x (by simp [hx]))
  have hmarks : isBlank 0x20 = true ∧ isBlank 0x3D = false ∧ isKeyByte 0x3D = false := by decide
  have htext : a.text ++ rest =
      0x20 :: b :: (bs ++ 0x3D :: (0x22 :: ofString a.value ++ 0x22 :: rest)) := by
    simp [Attribute.text, hkey]
  have hafter := valueFront_quoted (b :: bs) a.value_quotable.notMem rest
  rw [htext, hkey, ← hafter]
  simp [front, hb, hmarks, List.dropWhile_append_of_pos hbs, List.takeWhile_append_of_pos hbs]

theorem lookUpFrom_text (key : Bytes) (met : List Bytes) (a : Attribute) (rest : Bytes) :
    lookUpFrom key met (a.text ++ rest) =
      if met.contains (ofString a.key) then .malformed
      else if ofString a.key = key then .value (ofString a.value)
      else lookUpFrom key (ofString a.key :: met) rest := by
  have hfront := front_text a rest
  rw [lookUpFrom]
  split
  · next hdone => cases hfront.symm.trans hdone
  · next hbad => cases hfront.symm.trans hbad
  · next k v later hattribute =>
    injection hfront.symm.trans hattribute with hk hv hrest
    rw [← hk, ← hv, ← hrest]

/-- An attribute is found by its key, if no other in front of it has the same. -/
theorem lookUpFrom_attributesBytes {met : List Bytes} {as : List Attribute} {a : Attribute}
    (hmet : ∀ x ∈ as, ofString x.key ∉ met) (has : (as.map Attribute.key).Nodup) (ha : a ∈ as) :
    lookUpFrom (ofString a.key) met (attributesBytes as) = .value (ofString a.value) := by
  induction as generalizing met with
  | nil => cases ha
  | cons first as ih =>
    obtain ⟨hfirst, has⟩ := List.nodup_cons.mp has
    have hnew : ofString first.key ∉ met := hmet first (by simp)
    rw [attributesBytes, List.flatMap_cons, lookUpFrom_text, if_neg (by simpa using hnew)]
    rcases List.mem_cons.mp ha with rfl | ha
    · rw [if_pos rfl]
    · have hother : first.key ≠ a.key := fun heq =>
        hfirst (List.mem_map.mpr ⟨a, ha, heq.symm⟩)
      rw [if_neg fun heq => hother (Text.Utf8.ofString_injective heq)]
      refine ih ?_ has ha
      intro x hx hmem
      rcases List.mem_cons.mp hmem with heq | hmem
      · have hsame := Text.Utf8.ofString_injective heq
        exact hfirst (List.mem_map.mpr ⟨x, hx, hsame⟩)
      · exact hmet x (by simp [hx]) hmem

/-- What is looked up among written attributes is the value of the one with the key. -/
theorem lookUp_attributesBytes {as : List Attribute} {a : Attribute}
    (has : (as.map Attribute.key).Nodup) (ha : a ∈ as) :
    lookUp (ofString a.key) (attributesBytes as) = .value (ofString a.value) :=
  lookUpFrom_attributesBytes (by simp) has ha

/-! ## Marks -/

/-- A tag as it is written. -/
inductive Mark where
  | opening (name : String) (attributes : List Attribute)
  /-- An element that ends where it starts. -/
  | empty (name : String) (attributes : List Attribute)
  | closing (name : String)

/-- The name of the element that a mark belongs to. -/
def Mark.name : Mark → String
  | .opening name _ => name
  | .empty name _ => name
  | .closing name => name

/-- What is written for a mark. -/
def Mark.text : Mark → Bytes
  | .opening name as => 0x3C :: ofString name ++ attributesBytes as ++ [0x3E]
  | .empty name as => 0x3C :: ofString name ++ attributesBytes as ++ [0x2F, 0x3E]
  | .closing name => 0x3C :: 0x2F :: ofString name ++ [0x3E]

/-- The token that a mark is scanned as. -/
def Mark.token : Mark → Token
  | .opening name as => .opening (ofString name ++ attributesBytes as)
  | .empty name as => .opening (ofString name ++ attributesBytes as ++ [0x2F])
  | .closing name => .closing (ofString name)

/-- What a mark says. -/
def Mark.event : Mark → Event
  | .opening name as => .opened ⟨ofString name, attributesBytes as⟩
  | .empty name as => .empty ⟨ofString name, attributesBytes as⟩
  | .closing name => .closed (ofString name)

/-! ## Scanning a tag -/

/-- Every quotation mark that is no value's own is matched by another, and
all brackets stand between two. -/
inductive Balanced : Bytes → Prop where
  | nil : Balanced []
  | plain {b : UInt8} {bs : Bytes} : b ≠ 0x22 → b ≠ 0x27 → b ≠ 0x3E → Balanced bs →
    Balanced (b :: bs)
  | quoted {value bs : Bytes} : 0x22 ∉ value → Balanced bs →
    Balanced (0x22 :: value ++ 0x22 :: bs)

theorem Balanced.append {xs ys : Bytes} (hx : Balanced xs) (hy : Balanced ys) :
    Balanced (xs ++ ys) := by
  induction hx with
  | nil => exact hy
  | plain h1 h2 h3 _ ih => exact .plain h1 h2 h3 ih
  | quoted hvalue _ ih =>
    simp only [List.cons_append, List.append_assoc]
    exact .quoted hvalue ih

theorem balanced_of_notMem_reserved {bs : Bytes} (h : ∀ b ∈ bs, b ∉ reserved) : Balanced bs := by
  induction bs with
  | nil => exact .nil
  | cons b bs ih =>
    have hb := h b (by simp)
    simp [reserved] at hb
    exact .plain (by simp [hb]) (by simp [hb]) (by simp [hb]) (ih fun x hx => h x (by simp [hx]))

theorem balanced_text (a : Attribute) : Balanced a.text := by
  have hkey := balanced_of_notMem_reserved a.key_word.notMem_reserved
  have hvalue : Balanced (0x22 :: ofString a.value ++ [0x22]) :=
    .quoted a.value_quotable.notMem .nil
  have hequals : Balanced (0x3D :: (0x22 :: ofString a.value ++ [0x22])) :=
    .plain (by decide) (by decide) (by decide) hvalue
  have hrest := hkey.append hequals
  exact .plain (by decide) (by decide) (by decide) (by simpa using hrest)

theorem balanced_attributesBytes (as : List Attribute) : Balanced (attributesBytes as) := by
  induction as with
  | nil => exact .nil
  | cons a as ih => exact (balanced_text a).append ih

/-- Only within a declaration does it matter where a block begins. -/
@[simp] theorem reaching_text (position : Nat) : Context.text.reaching position = .text := by
  simp [Context.reaching, Context.atBlock]

@[simp] theorem reaching_bracket (position : Nat) :
    Context.bracket.reaching position = .bracket := by
  simp [Context.reaching, Context.atBlock]

@[simp] theorem reaching_tag (isEnd : Bool) (quote : Option UInt8) (read : Bytes)
    (position : Nat) :
    (Context.tag isEnd quote read).reaching position = .tag isEnd quote read := by
  simp [Context.reaching, Context.atBlock]

@[simp] theorem reaching_instruction (read : Bytes) (position : Nat) :
    (Context.instruction read).reaching position = .instruction read := by
  simp [Context.reaching, Context.atBlock]

@[simp] theorem reaching_declaration_zero (read : Bytes) (position : Nat) :
    (Context.declaration 0 read).reaching position = .declaration 0 read := by
  simp [Context.reaching, Context.atBlock]

theorem exists_reaching_declaration (nested : Nat) (read : Bytes) (position : Nat) :
    ∃ now, (Context.declaration nested read).reaching position = .declaration now read := by
  by_cases hstart : position % blockSize = 0
  · exact ⟨0, by rw [Context.reaching, if_pos hstart, Context.atBlock]⟩
  · exact ⟨nested, by rw [Context.reaching, if_neg hstart]⟩

/-- A value is read up to the quotation mark behind it. -/
theorem exists_tokensFrom_quoted {value : Bytes} (h : 0x22 ∉ value) (isEnd : Bool) (rest : Bytes) :
    ∀ (position : Nat) (read : Bytes), ∃ later,
      tokensFrom position (.tag isEnd (some 0x22) read) (value ++ 0x22 :: rest) =
        tokensFrom later (.tag isEnd none (0x22 :: value.reverse ++ read)) rest := by
  induction value with
  | nil =>
    intro position read
    exact ⟨position + 1, by simp [tokensFrom, step, stepTag]⟩
  | cons b value ih =>
    intro position read
    obtain ⟨hb, hvalue⟩ := List.ne_and_not_mem_of_not_mem_cons h
    obtain ⟨later, hlater⟩ := ih hvalue (position + 1) (b :: read)
    refine ⟨later, ?_⟩
    simp [tokensFrom, step, stepTag, Ne.symm hb, hlater]

/-- The token that a tag ends as. -/
def tagToken (isEnd : Bool) (content : Bytes) : Token :=
  if isEnd then .closing content else .opening content

/-- The first bracket behind a balanced content ends the tag. -/
theorem exists_tokensFrom_balanced {content : Bytes} (h : Balanced content) (isEnd : Bool)
    (rest : Bytes) : ∀ (position : Nat) (read : Bytes), ∃ later,
      tokensFrom position (.tag isEnd none read) (content ++ 0x3E :: rest) =
        tagToken isEnd (read.reverse ++ content) :: tokensFrom later .text rest := by
  induction h with
  | nil =>
    intro position read
    exact ⟨position + 1, by simp [tokensFrom, step, stepTag, tagToken]⟩
  | @plain b bs h1 h2 h3 _ ih =>
    intro position read
    obtain ⟨later, hlater⟩ := ih (position + 1) (b :: read)
    refine ⟨later, ?_⟩
    simp [tokensFrom, step, stepTag, h1, h2, h3, hlater]
  | @quoted value bs hvalue _ ih =>
    intro position read
    obtain ⟨within, hwithin⟩ :=
      exists_tokensFrom_quoted hvalue isEnd (bs ++ 0x3E :: rest) (position + 1) (0x22 :: read)
    obtain ⟨later, hlater⟩ := ih within (0x22 :: value.reverse ++ 0x22 :: read)
    refine ⟨later, ?_⟩
    simpa [tokensFrom, step, stepTag, hwithin] using hlater

/-- A bracket opens a start tag, unless what follows it says otherwise. -/
theorem exists_tokensFrom_opening {b : UInt8} {bs : Bytes} (hb : b ∉ reserved)
    (h : Balanced (b :: bs)) (position : Nat) (rest : Bytes) : ∃ later,
      tokensFrom position .text (0x3C :: b :: bs ++ 0x3E :: rest) =
        .opening (b :: bs) :: tokensFrom later .text rest := by
  obtain ⟨later, hlater⟩ := exists_tokensFrom_balanced h false rest (position + 1) []
  have hbracket : ∀ more, tokensFrom (position + 1) .bracket (b :: more) =
      tokensFrom (position + 1) (.tag false none []) (b :: more) := by
    intro more
    simp [reserved] at hb
    simp [tokensFrom, step, hb]
  refine ⟨later, ?_⟩
  rw [List.cons_append, ← hbracket] at hlater
  simpa [tokensFrom, step, tagToken] using hlater

theorem exists_tokensFrom_mark {m : Mark} (hm : IsWord m.name) (position : Nat) (rest : Bytes) :
    ∃ later, tokensFrom position .text (m.text ++ rest) =
      m.token :: tokensFrom later .text rest := by
  have hname := balanced_of_notMem_reserved hm.notMem_reserved
  obtain ⟨b, bs, hcons⟩ := hm.exists_cons
  have hb : b ∉ reserved := hm.notMem_reserved b (by simp [hcons])
  rw [hcons] at hname
  cases m with
  | opening name as =>
    have hcontent := hname.append (balanced_attributesBytes as)
    obtain ⟨later, hlater⟩ := exists_tokensFrom_opening hb hcontent position rest
    exact ⟨later, by simpa [Mark.text, Mark.token, show ofString name = b :: bs from hcons]
      using hlater⟩
  | empty name as =>
    have hslash : Balanced [0x2F] := .plain (by decide) (by decide) (by decide) .nil
    have hcontent := (hname.append (balanced_attributesBytes as)).append hslash
    obtain ⟨later, hlater⟩ := exists_tokensFrom_opening hb hcontent position rest
    exact ⟨later, by simpa [Mark.text, Mark.token, show ofString name = b :: bs from hcons]
      using hlater⟩
  | closing name =>
    obtain ⟨later, hlater⟩ := exists_tokensFrom_balanced hname true rest (position + 2) []
    refine ⟨later, ?_⟩
    simpa [tokensFrom, step, Mark.text, Mark.token, tagToken,
      show ofString name = b :: bs from hcons] using hlater

/-! ## Scanning what is passed over -/

/-- An instruction ends with the first bracket, behind a question mark. -/
theorem exists_tokensFrom_instruction {body : Bytes} (h : 0x3E ∉ body) (rest : Bytes) :
    ∀ (position : Nat) (read : Bytes), ∃ later,
      tokensFrom position (.instruction read) (body ++ 0x3F :: 0x3E :: rest) =
        tokensFrom later .text rest := by
  induction body with
  | nil =>
    intro position read
    exact ⟨position + 1 + 1, by simp [tokensFrom, step]⟩
  | cons b body ih =>
    intro position read
    obtain ⟨hb, hbody⟩ := List.ne_and_not_mem_of_not_mem_cons h
    obtain ⟨later, hlater⟩ := ih hbody (position + 1) (b :: read)
    refine ⟨later, ?_⟩
    simp [tokensFrom, step, Ne.symm hb, hlater]

theorem step_comment (nested : Nat) (read : Bytes) {b : UInt8} (hb : b ≠ 0x3E) :
    step (.declaration nested (read ++ [0x2D, 0x2D])) b =
      (.declaration (nestedAfter nested b) (b :: read ++ [0x2D, 0x2D]), none) := by
  cases read <;> simp [step, hb]

theorem step_comment_end (nested : Nat) (read : Bytes) :
    step (.declaration nested (0x2D :: 0x2D :: read ++ [0x2D, 0x2D])) 0x3E = (.text, none) := by
  have hlast : (0x2D :: 0x2D :: read ++ [0x2D, 0x2D]).getLast? = some (0x2D : UInt8) := by
    have hconcat : 0x2D :: 0x2D :: read ++ [0x2D, 0x2D] =
        (0x2D :: 0x2D :: read ++ [0x2D]) ++ [(0x2D : UInt8)] := by
      simp
    rw [hconcat, List.getLast?_concat]
  have hends : endsDeclaration nested (0x2D :: 0x2D :: read ++ [0x2D, 0x2D]) = true := by
    rw [endsDeclaration, hlast]
    simp
  simp only [List.cons_append] at hends ⊢
  simp [step, hends, isDeclaration]

/-- The brackets counted in a comment are forgotten where a block begins, and
do not matter. -/
theorem exists_tokensFrom_comment_body {body : Bytes} (h : 0x3E ∉ body) (rest : Bytes) :
    ∀ (position nested : Nat) (read : Bytes), ∃ later now,
      tokensFrom position (.declaration nested (read ++ [0x2D, 0x2D])) (body ++ rest) =
        tokensFrom later (.declaration now (body.reverse ++ read ++ [0x2D, 0x2D])) rest := by
  induction body with
  | nil => exact fun position nested read => ⟨position, nested, rfl⟩
  | cons b body ih =>
    intro position nested read
    obtain ⟨hb, hbody⟩ := List.ne_and_not_mem_of_not_mem_cons h
    obtain ⟨here, hhere⟩ := exists_reaching_declaration nested (read ++ [0x2D, 0x2D]) position
    obtain ⟨later, now, hlater⟩ := ih hbody (position + 1) (nestedAfter here b) (b :: read)
    refine ⟨later, now, ?_⟩
    rw [List.cons_append, tokensFrom, hhere, step_comment here read (Ne.symm hb)]
    simpa using hlater

/-- A comment ends with the first bracket, behind two hyphens of its own. -/
theorem exists_tokensFrom_comment {body : Bytes} (h : 0x3E ∉ body) (rest : Bytes)
    (position : Nat) : ∃ later,
      tokensFrom position .text
          (0x3C :: 0x21 :: 0x2D :: 0x2D :: body ++ 0x2D :: 0x2D :: 0x3E :: rest) =
        tokensFrom later .text rest := by
  have hbody : 0x3E ∉ body ++ [0x2D, 0x2D] := by simp [h]
  obtain ⟨later, now, hlater⟩ :=
    exists_tokensFrom_comment_body hbody (0x3E :: rest) (position + 4) 0 []
  obtain ⟨here, hhere⟩ := exists_reaching_declaration now
    (0x2D :: 0x2D :: body.reverse ++ [0x2D, 0x2D]) later
  have hopen : ∀ bs, tokensFrom position .text (0x3C :: 0x21 :: 0x2D :: 0x2D :: bs) =
      tokensFrom (position + 4) (.declaration 0 [0x2D, 0x2D]) bs := by
    intro bs
    simp [tokensFrom, step, opensDeclaration, nestedAfter]
  have hrest : body ++ 0x2D :: 0x2D :: 0x3E :: rest = body ++ [0x2D, 0x2D] ++ 0x3E :: rest := by
    simp
  have hread : (body ++ [0x2D, 0x2D]).reverse ++ [] ++ [0x2D, 0x2D] =
      0x2D :: 0x2D :: body.reverse ++ [(0x2D : UInt8), 0x2D] := by
    simp
  rw [hread, List.nil_append] at hlater
  refine ⟨later + 1, ?_⟩
  simp only [List.cons_append] at hopen ⊢
  rw [hopen, hrest, hlater, tokensFrom, hhere, step_comment_end]

/-! ## Documents -/

/-- The document is the text of the marks in their order, with any text,
instructions and comments in front of, between and behind them. -/
inductive Writes : List Mark → Bytes → Prop where
  | nil : Writes [] []
  | text {b : UInt8} {marks : List Mark} {rest : Bytes} : b ≠ 0x3C → Writes marks rest →
    Writes marks (b :: rest)
  | comment {body rest : Bytes} {marks : List Mark} : 0x3E ∉ body → Writes marks rest →
    Writes marks (0x3C :: 0x21 :: 0x2D :: 0x2D :: body ++ 0x2D :: 0x2D :: 0x3E :: rest)
  | instruction {body rest : Bytes} {marks : List Mark} : 0x3E ∉ body → Writes marks rest →
    Writes marks (0x3C :: 0x3F :: body ++ 0x3F :: 0x3E :: rest)
  | mark {m : Mark} {marks : List Mark} {rest : Bytes} : Writes marks rest →
    Writes (m :: marks) (m.text ++ rest)

theorem Writes.gap {gap : Bytes} (hgap : 0x3C ∉ gap) {marks : List Mark} {document : Bytes}
    (h : Writes marks document) : Writes marks (gap ++ document) := by
  induction gap with
  | nil => exact h
  | cons b gap ih =>
    obtain ⟨hb, hgap⟩ := List.ne_and_not_mem_of_not_mem_cons hgap
    exact .text (Ne.symm hb) (ih hgap)

/-- The marks with the same text behind each. -/
def write (gap : Bytes) (marks : List Mark) : Bytes := marks.flatMap fun m => m.text ++ gap

theorem writes_write {gap : Bytes} (hgap : 0x3C ∉ gap) (marks : List Mark) :
    Writes marks (write gap marks) := by
  induction marks with
  | nil => exact .nil
  | cons m marks ih =>
    rw [write, List.flatMap_cons, List.append_assoc]
    exact .mark (.gap hgap ih)

/-- The tokens of a document are those of the marks that it writes. -/
theorem tokensFrom_of_writes {marks : List Mark} {document : Bytes} (h : Writes marks document)
    (hmarks : ∀ m ∈ marks, IsWord m.name) (position : Nat) :
    tokensFrom position .text document = marks.map Mark.token := by
  induction h generalizing position with
  | nil => rfl
  | text hb _ ih => simp [tokensFrom, step, hb, ih hmarks]
  | @comment body rest marks hbody _ ih =>
    obtain ⟨later, hlater⟩ := exists_tokensFrom_comment hbody rest position
    rw [hlater, ih hmarks]
  | @instruction body rest marks hbody _ ih =>
    obtain ⟨later, hlater⟩ := exists_tokensFrom_instruction hbody rest (position + 1 + 1) []
    simp [tokensFrom, step, hlater, ih hmarks]
  | @mark m marks rest _ ih =>
    obtain ⟨hm, hmarks⟩ := List.forall_mem_cons.mp hmarks
    obtain ⟨later, hlater⟩ := exists_tokensFrom_mark hm position rest
    rw [hlater, ih hmarks, List.map_cons]

/-! ## Elements -/

/-- Each start tag has its end tag, and what stands between them is such
itself. -/
inductive Nested : List Mark → Prop where
  | nil : Nested []
  | empty {name : String} {as : List Attribute} {rest : List Mark} : IsWord name →
    Nested rest → Nested (.empty name as :: rest)
  | element {name : String} {as : List Attribute} {inner rest : List Mark} : IsWord name →
    Nested inner → Nested rest →
    Nested (.opening name as :: inner ++ .closing name :: rest)

theorem Nested.append {ms ns : List Mark} (hm : Nested ms) (hn : Nested ns) :
    Nested (ms ++ ns) := by
  induction hm with
  | nil => exact hn
  | empty hname _ ih => exact .empty hname ih
  | element hname hinner _ _ ih =>
    simp only [List.cons_append, List.append_assoc]
    exact .element hname hinner ih

theorem Nested.isWord {marks : List Mark} (h : Nested marks) : ∀ m ∈ marks, IsWord m.name := by
  induction h with
  | nil => simp
  | empty hname _ ih => exact List.forall_mem_cons.mpr ⟨hname, ih⟩
  | element hname _ _ ihinner ih =>
    intro m hm
    rcases List.mem_append.mp hm with hm | hm
    · rcases List.mem_cons.mp hm with rfl | hm
      · exact hname
      · exact ihinner m hm
    · rcases List.mem_cons.mp hm with rfl | hm
      · exact hname
      · exact ih m hm

theorem IsWord.isBlank_eq_false {name : String} (h : IsWord name) :
    ∀ b ∈ ofString name, isBlank b = false :=
  fun b hb => isBlank_of_notMem_reserved (h.notMem_reserved b hb)

/-- The name of a tag ends with the blank in front of the first attribute. -/
theorem ofContent_text {name : String} (h : IsWord name) (as : List Attribute) :
    Tag.ofContent (ofString name ++ attributesBytes as) = ⟨ofString name, attributesBytes as⟩ := by
  have hname : ∀ b ∈ ofString name, (!isBlank b) = true := by
    intro b hb
    simp [h.isBlank_eq_false b hb]
  have hrest : (attributesBytes as).takeWhile (fun b => !isBlank b) = [] ∧
      (attributesBytes as).dropWhile (fun b => !isBlank b) = attributesBytes as := by
    have hblank : isBlank 0x20 = true := by decide
    cases as with
    | nil => simp [attributesBytes]
    | cons a as => simp [attributesBytes, Attribute.text, hblank]
  rw [Tag.ofContent, List.takeWhile_append_of_pos hname, List.dropWhile_append_of_pos hname,
    hrest.1, hrest.2, List.append_nil]

/-- Behind the last attribute there is a quotation mark, not a slash. -/
theorem getLast?_append_attributesBytes {bs : Bytes} (h : bs.getLast? ≠ some 0x2F)
    (as : List Attribute) : (bs ++ attributesBytes as).getLast? ≠ some 0x2F := by
  induction as generalizing bs with
  | nil => simpa [attributesBytes] using h
  | cons a as ih =>
    have hquote : (bs ++ a.text).getLast? ≠ some 0x2F := by
      rw [Attribute.text, ← List.append_assoc, List.getLast?_concat]
      decide
    rw [attributesBytes, List.flatMap_cons, ← List.append_assoc]
    exact ih hquote

theorem getLast?_content {name : String} (h : IsWord name) (as : List Attribute) :
    (ofString name ++ attributesBytes as).getLast? ≠ some 0x2F := by
  refine getLast?_append_attributesBytes (fun hlast => ?_) as
  exact h.notMem_reserved _ (List.mem_of_getLast? hlast) (by decide)

theorem endName_ofString {name : String} (h : IsWord name) :
    endName (ofString name) = ofString name := by
  obtain ⟨b, bs, hcons⟩ := h.exists_cons
  have hall : ¬ (ofString name).all isBlank = true := by
    simp [hcons, h.isBlank_eq_false b (by simp [hcons])]
  have hend : (ofString name).reverse.dropWhile isBlank = (ofString name).reverse := by
    cases hrev : (ofString name).reverse with
    | nil => rfl
    | cons c cs =>
      have hc : c ∈ ofString name := List.mem_reverse.mp (by simp [hrev])
      rw [List.dropWhile_cons_of_neg (by simp [h.isBlank_eq_false c hc])]
  rw [endName, if_neg hall, hend, List.reverse_reverse]

/-- The tokens of nested marks say what the marks do, whatever elements are
open and whatever comes behind. -/
theorem eventsFrom_nested {marks : List Mark} (h : Nested marks) :
    ∀ (names : List Bytes) (more : List Token),
      eventsFrom names (marks.map Mark.token ++ more) =
        marks.map Mark.event ++ eventsFrom names more := by
  induction h with
  | nil => exact fun _ _ => rfl
  | empty hname _ ih =>
    intro names more
    simp [eventsFrom, Mark.token, Mark.event, ofContent_text hname, ih]
  | @element name as inner rest hname _ _ ihinner ih =>
    intro names more
    simp only [List.cons_append, List.append_assoc, List.map_cons, List.map_append, Mark.token,
      Mark.event]
    rw [eventsFrom, if_neg (getLast?_content hname as), ofContent_text hname, ihinner, eventsFrom,
      if_pos (endName_ofString hname), ih]

/-- A document says what the marks say that it writes. -/
theorem events_of_writes {marks : List Mark} {document : Bytes} (h : Writes marks document)
    (hnested : Nested marks) : events document = marks.map Mark.event := by
  rw [events, tokens, tokensFrom_of_writes h hnested.isWord]
  simpa [eventsFrom] using eventsFrom_nested hnested [] []

end CaptureSplit.Markup
