/-
CaptureSplit.Markup.Token — markup cut at its angle brackets.

The scan looks at one byte at a time and keeps in a `Context` what it is
within. It yields a token for each tag and nothing for text, comments,
character data, processing instructions and document type declarations.
Quotation marks within a tag protect the bracket that would end it. What
is no markup, or is not finished when the input ends, is one last token.

The input comes in blocks. For all but one kind of markup it does not
matter where they meet; a document type forgets at the start of a block
which brackets have been opened in it.

A fault leaves the scan lost, and a lost scan yields nothing.
-/
import CaptureSplit.Text.Utf8

namespace CaptureSplit.Markup

/-- Space, tab, line feed and carriage return: the blanks of markup. -/
def isBlank (b : UInt8) : Bool := b = 0x20 || b = 0x09 || b = 0x0A || b = 0x0D

/-- A tag, or the place where the markup goes wrong. -/
inductive Token where
  /-- What stands between the brackets of a start tag or an empty tag. -/
  | opening (content : Bytes)
  /-- What stands between `</` and the bracket of an end tag. -/
  | closing (content : Bytes)
  | malformed
  deriving DecidableEq

/-- What the scan is within. The bytes read so far are in reverse. -/
inductive Context where
  | text
  /-- Behind an opening bracket. -/
  | bracket
  /-- In a tag, and in a value between the given quotation marks. -/
  | tag (isEnd : Bool) (quote : Option UInt8) (read : Bytes)
  /-- In a processing instruction. -/
  | instruction (read : Bytes)
  /-- In a comment, in character data or in a document type, in which so
  many brackets are open. -/
  | declaration (nested : Nat) (read : Bytes)
  /-- Behind the place where the markup goes wrong. -/
  | lost
  deriving DecidableEq

/-! ## Declarations -/

/-- The lower-case form of an ASCII letter. -/
def lower (b : UInt8) : UInt8 := if 0x41 ≤ b && b ≤ 0x5A then b + 0x20 else b

/-- `[CDATA[`, which is written so and no other way. -/
def cdataMark : Bytes := [0x5B, 0x43, 0x44, 0x41, 0x54, 0x41, 0x5B]

/-- `DOCTYPE`, in lower case. It may be written in either. -/
def doctypeMark : Bytes := [0x64, 0x6F, 0x63, 0x74, 0x79, 0x70, 0x65]

/-- Whether a byte may stand behind `<!`. -/
def opensDeclaration (b : UInt8) : Bool :=
  b = 0x2D || b = 0x5B || b = 0x44 || b = 0x64

/-- Whether a closing bracket ends the declaration read so far: a comment
ends with two hyphens that are not those at its start, character data with
two square brackets, a document type with no bracket open. -/
def endsDeclaration (nested : Nat) (read : Bytes) : Bool :=
  match read.getLast? with
  | some 0x2D => 4 ≤ read.length && read.take 2 == [0x2D, 0x2D]
  | some 0x5B => read.take 2 == [0x5D, 0x5D]
  | _ => nested = 0

/-- How many brackets are open behind one more byte. -/
def nestedAfter (nested : Nat) (b : UInt8) : Nat :=
  if b = 0x3C then nested + 1 else if b = 0x3E then nested - 1 else nested

/-- Whether a declaration that has ended is one of the three kinds. A
document type has a name. -/
def isDeclaration (content : Bytes) : Bool :=
  match content with
  | 0x2D :: second :: _ => second = 0x2D
  | 0x5B :: _ => content.take 7 == cdataMark
  | _ => (content.take 7).map lower == doctypeMark && (content.drop 7).any fun b => !isBlank b

/-! ## The scan -/

/-- Within a tag: the next context, and the token if the tag ends. -/
def stepTag (isEnd : Bool) (quote : Option UInt8) (read : Bytes) (b : UInt8) :
    Context × Option Token :=
  match quote with
  | some q => (.tag isEnd (if b = q then none else some q) (b :: read), none)
  | none =>
    if b = 0x3E then
      (.text, some (if isEnd then .closing read.reverse else .opening read.reverse))
    else if b = 0x22 || b = 0x27 then (.tag isEnd (some b) (b :: read), none)
    else (.tag isEnd none (b :: read), none)

/-- One byte on: the next context, and the token that ends there, if one
does. -/
def step (context : Context) (b : UInt8) : Context × Option Token :=
  match context with
  | .text => (if b = 0x3C then .bracket else .text, none)
  | .bracket =>
    if b = 0x21 then (.declaration 0 [], none)
    else if b = 0x2F then (.tag true none [], none)
    else if b = 0x3F then (.instruction [], none)
    else stepTag false none [] b
  | .tag isEnd quote read => stepTag isEnd quote read b
  | .instruction read =>
    if b = 0x3E then
      match read with
      | [] => (.lost, some .malformed)
      | 0x3F :: _ => (.text, none)
      | _ => (.instruction (b :: read), none)
    else (.instruction (b :: read), none)
  | .declaration nested [] =>
    if opensDeclaration b then (.declaration nested [b], none) else (.lost, some .malformed)
  | .declaration nested read =>
    if b = 0x3E && endsDeclaration nested read then
      if isDeclaration read.reverse then (.text, none) else (.lost, some .malformed)
    else (.declaration (nestedAfter nested b) (b :: read), none)
  | .lost => (.lost, none)

/-! ## Blocks -/

/-- How many bytes a block has. -/
def blockSize : Nat := 8192

/-- The context at the start of a block. -/
def Context.atBlock : Context → Context
  | .declaration _ read => .declaration 0 read
  | context => context

/-- The context in front of the byte at a position. -/
def Context.reaching (context : Context) (position : Nat) : Context :=
  if position % blockSize = 0 then context.atBlock else context

/-- The tokens of the rest of the input, which begins at a position. -/
def tokensFrom (position : Nat) (context : Context) : Bytes → List Token
  | [] =>
    match context with
    | .text | .lost => []
    | _ => [.malformed]
  | b :: rest =>
    match step (context.reaching position) b with
    | (next, some token) => token :: tokensFrom (position + 1) next rest
    | (next, none) => tokensFrom (position + 1) next rest

/-- The tokens of a document. -/
def tokens (document : Bytes) : List Token := tokensFrom 0 .text document

end CaptureSplit.Markup
