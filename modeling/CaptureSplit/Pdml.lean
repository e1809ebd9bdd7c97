/-
CaptureSplit.Pdml — a dissection as the analyzer writes it.

The document lists packets; a packet lists protocols, a protocol lists
fields. Reading it gathers, packet by packet, the layers with their fields
and keeps of them what `Dissection.Entry` holds: the first field named
`udp.stream` and the first named `udp.payload` in the first layer named
`udp`.

* A protocol is a layer of its own, except two that only group fields:
  the general information of a packet (`geninfo`) and a wrapper around
  fields that stand on their own (`fake-field-wrapper`).
* A field with parts of its own, or outside of any protocol, goes into
  the layer that its name begins with; if that is not the last layer, a
  new one is added. Other fields go into the last layer.
* Within the general information only the time stamp is looked at.
* Packets end at their end tag; elements between two packets belong to
  the second, and a packet that the document does not end is dropped.

Reading stops at the first fault in the order of the document, and then
yields nothing.
-/
import CaptureSplit.Dissection
import CaptureSplit.Markup.Attribute
import CaptureSplit.Markup.Event

namespace CaptureSplit.Pdml

open CaptureSplit.Markup (Tag Event)

/-! ## Attributes as text -/

/-- The value of a key, if any attribute has it. -/
def value? (key : String) (tag : Tag) : Except Fault (Option String) :=
  match Markup.lookUp (Text.Utf8.ofString key) tag.attributes with
  | .absent => .ok none
  | .malformed => .error .malformedAttribute
  | .value bytes =>
    match Text.Utf8.toString? bytes with
    | some s => .ok (some s)
    | none => .error .valueNotUtf8

/-- The value of a key that has to be there. -/
def value (key : String) (tag : Tag) : Except Fault String :=
  match value? key tag with
  | .error e => .error e
  | .ok (some s) => .ok s
  | .ok none => .error (.missingKey key tag.attributes)

/-! ## Fields -/

/-- A field of a layer. -/
structure Field where
  name : String
  value : String
  deriving DecidableEq

/-- A protocol of a packet. -/
structure Layer where
  name : String
  fields : List Field
  deriving DecidableEq

/-- Whether a field only groups others or carries a remark of the
analyzer. -/
def isSkipped (name : String) : Bool :=
  name.isEmpty || name.toList.take 4 == ['_', 'w', 's', '.']

/-- The title of a field, which serves as its value where nothing better is
there. A title that is no text counts as none. -/
def title (tag : Tag) : Except Fault String :=
  match value? "showname" tag with
  | .ok (some s) => .ok s
  | _ => .error (.missingKey "value" tag.attributes)

/-- The value of a field: what is shown of it, else its value proper, else
its title. If there is none, the value proper is what is missed. -/
def shownValue (tag : Tag) : Except Fault String :=
  match value? "show" tag with
  | .error e => .error e
  | .ok (some s) => .ok s
  | .ok none =>
    match value? "value" tag with
    | .error e => .error e
    | .ok (some s) => .ok s
    | .ok none => title tag

/-- The field of a tag, unless it is one to skip. -/
def field? (tag : Tag) : Except Fault (Option Field) :=
  match value "name" tag with
  | .error e => .error e
  | .ok name =>
    if isSkipped name then .ok none
    else
      match shownValue tag with
      | .error e => .error e
      | .ok shown => .ok (some ⟨name, shown⟩)

/-- The protocol that a field's name begins with. -/
def Field.protocol (f : Field) : String :=
  String.ofList (f.name.toList.takeWhile (· ≠ '.'))

/-! ## Layers -/

/-- Adds a field to the last layer. -/
def addToLast (f : Field) : List Layer → List Layer
  | [] => []
  | [l] => [{ l with fields := l.fields ++ [f] }]
  | l :: rest => l :: addToLast f rest

/-- Whether the last layer has a name. -/
def lastIs (name : String) (layers : List Layer) : Bool :=
  layers.getLast?.any fun l => l.name = name

/-- Adds a field to the last layer, which is a new one unless it has the
name that the field's begins with. -/
def addToOwn (f : Field) (layers : List Layer) : List Layer :=
  if lastIs f.protocol layers then addToLast f layers
  else layers ++ [⟨f.protocol, [f]⟩]

/-- The first field with a name. -/
def Layer.first? (l : Layer) (name : String) : Option String :=
  (l.fields.find? fun f => f.name = name).map Field.value

/-- What is kept of a packet. -/
def entry (layers : List Layer) : Dissection.Entry :=
  match layers.find? fun l => l.name = "udp" with
  | none => Dissection.Entry.blank
  | some udp => ⟨udp.first? "udp.stream", udp.first? "udp.payload"⟩

/-! ## Time stamps -/

/-- The first second that a date can be given for. -/
def earliestSecond : Int := -8334601228800

/-- The last second that a date can be given for. -/
def latestSecond : Int := 8210266876799

/-- The nanoseconds of a second. -/
def nanosecondsPerSecond : Nat := 1000000000

/-- Whether a number of nanoseconds can stand with a number of seconds:
only the last second of a minute may be a leap second, of twice the
length. -/
def isInstant (seconds : Int) (nanoseconds : Nat) : Bool :=
  earliestSecond ≤ seconds && seconds ≤ latestSecond &&
    (nanoseconds < nanosecondsPerSecond ||
      (seconds % 60 == 59 && nanoseconds < 2 * nanosecondsPerSecond))

/-- Whether a text is a number of seconds and one of nanoseconds with a
point between them. -/
def isTimestamp (text : List Char) : Bool :=
  match text.dropWhile (· ≠ '.') with
  | [] => false
  | _ :: fraction =>
    match Text.Decimal.signed? (text.takeWhile (· ≠ '.')),
        Text.Decimal.unsigned? (UInt32.size - 1) fraction with
    | some seconds, some nanoseconds => isInstant seconds nanoseconds
    | _, _ => false

/-- Looks at a field of the general information. -/
def checkGeneral (tag : Tag) : Except Fault Unit :=
  match value "name" tag with
  | .error e => .error e
  | .ok name =>
    if name = "timestamp" then
      match value "value" tag with
      | .error e => .error e
      | .ok stamp =>
        if isTimestamp stamp.toList then .ok () else .error (.badTimestamp stamp)
    else .ok ()

/-! ## Packets -/

/-- A packet in the reading: the protocol that is open and the layers so
far. -/
structure State where
  protocol : Option String
  layers : List Layer
  deriving DecidableEq

/-- Before a packet. -/
def State.fresh : State := ⟨none, []⟩

/-- The protocol that holds the general information of a packet. -/
def generalInformation : String := "geninfo"

/-- The protocol that holds fields which stand on their own. -/
def fieldWrapper : String := "fake-field-wrapper"

/-- A start tag. -/
def openTag (tag : Tag) (s : State) : Except Fault State :=
  if tag.name = Text.Utf8.ofString "proto" then
    match value "name" tag with
    | .error e => .error e
    | .ok name =>
      if name = generalInformation ∨ name = fieldWrapper then
        .ok { s with protocol := some name }
      else .ok ⟨some name, s.layers ++ [⟨name, []⟩]⟩
  else if tag.name = Text.Utf8.ofString "field" then
    match field? tag with
    | .error e => .error e
    | .ok none => .ok s
    | .ok (some f) => .ok { s with layers := addToOwn f s.layers }
  else .ok s

/-- The layers with a field that has no parts of its own. -/
def addLeaf (protocol : Option String) (f : Field) (layers : List Layer) : List Layer :=
  match protocol with
  | none => addToOwn f layers
  | some p =>
    if p = fieldWrapper then
      if lastIs f.protocol layers then addToLast f layers else layers
    else addToLast f layers

/-- An empty tag. -/
def emptyTag (tag : Tag) (s : State) : Except Fault State :=
  if tag.name = Text.Utf8.ofString "field" then
    if s.protocol = some generalInformation then
      match checkGeneral tag with
      | .error e => .error e
      | .ok () => .ok s
    else
      match field? tag with
      | .error e => .error e
      | .ok none => .ok s
      | .ok (some f) => .ok { s with layers := addLeaf s.protocol f s.layers }
  else .ok s

/-- The entries of the packets that the events end, in order. -/
def entriesFrom (s : State) : List Event → Except Fault (List Dissection.Entry)
  | [] => .ok []
  | .malformed :: _ => .error .malformedMarkup
  | .opened tag :: rest =>
    match openTag tag s with
    | .error e => .error e
    | .ok next => entriesFrom next rest
  | .empty tag :: rest =>
    match emptyTag tag s with
    | .error e => .error e
    | .ok next => entriesFrom next rest
  | .closed name :: rest =>
    if name = Text.Utf8.ofString "packet" then
      match entriesFrom State.fresh rest with
      | .error e => .error e
      | .ok entries => .ok (entry s.layers :: entries)
    else if name = Text.Utf8.ofString "proto" then
      entriesFrom { s with protocol := none } rest
    else entriesFrom s rest

/-- The entries of a dissection, one for each packet. -/
def read (document : Bytes) : Except Fault (List Dissection.Entry) :=
  entriesFrom State.fresh (Markup.events document)

end CaptureSplit.Pdml
