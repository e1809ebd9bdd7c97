/-
CaptureSplit.Proofs.PdmlText — dissections as an analyzer writes them.

A packet is a list of protocols, and a protocol holds a `Forest` of fields,
some of which have parts. `Prints packets document` says that a document is
written for packets: a field without parts is an empty tag, everything else
has a start tag and an end tag, and attributes may come in any order.

The reader goes tag by tag and keeps nothing of the nesting but the protocol
that is open and the layers so far. What carries the proof is that within a
protocol the last layer is the protocol's own (`within`): every tag of a
field then adds the field there and leaves the rest as it is
(`entriesFrom_forest`), so no field gets into another layer or packet. Hence
a document is read as what its packets say of UDP (`read_of_prints`), and this
is what a dissection yields so long as nothing is said on standard error.
-/
import CaptureSplit.Tshark
import CaptureSplit.Proofs.Decoding
import CaptureSplit.Proofs.Endings
import CaptureSplit.Proofs.MarkupText

namespace CaptureSplit

namespace Pdml

open CaptureSplit.Markup (Attribute Mark Nested Writes IsWord Quotable Event Tag attributesBytes)
open CaptureSplit.Text.Utf8 (ofString)

/-! ## Dissections -/

/-- Some attribute has this key and this value. -/
def Carries (as : List Attribute) (key value : String) : Prop :=
  ∃ a ∈ as, a.key = key ∧ a.value = value

/-- The attributes of a tag, in any order and no key twice; one is a name. -/
structure Labels where
  attributes : List Attribute
  name : String
  distinct : (attributes.map Attribute.key).Nodup
  carries_name : Carries attributes "name" name

/-- The attributes of a field; one is what is shown of it. -/
structure FieldLabels extends Labels where
  shown : String
  carries_shown : Carries attributes "show" shown

/-- Fields one behind the other, some of which have fields as their parts. -/
inductive Forest where
  | nil
  | leaf (labels : FieldLabels) (rest : Forest)
  | parent (labels : FieldLabels) (parts rest : Forest)

/-- A protocol of a packet, with its fields. -/
structure Protocol extends Labels where
  fields : Forest

/-- A name and nothing else. -/
def Labels.plain (name : String) (h : Quotable name) : Labels where
  attributes := [⟨"name", name, by decide, h⟩]
  name := name
  distinct := by simp
  carries_name := ⟨_, List.mem_cons_self, rfl, rfl⟩

/-- A name and what is shown, and nothing else. -/
def FieldLabels.plain (name shown : String) (hname : Quotable name) (hshown : Quotable shown) :
    FieldLabels where
  attributes := [⟨"name", name, by decide, hname⟩,
    ⟨"show", shown, by decide, hshown⟩]
  name := name
  distinct := by simp
  carries_name := ⟨_, List.mem_cons_self, rfl, rfl⟩
  shown := shown
  carries_shown := ⟨_, List.mem_cons_of_mem _ List.mem_cons_self, rfl, rfl⟩

/-- What is shown of the first field with a name, in the order of the document:
a field stands before its parts, and these before the next field. -/
def Forest.shown? (name : String) : Forest → Option String
  | .nil => none
  | .leaf labels rest => if labels.name = name then some labels.shown else rest.shown? name
  | .parent labels parts rest =>
    if labels.name = name then some labels.shown
    else (parts.shown? name).or (rest.shown? name)

/-- What a packet says of UDP: two fields of the first protocol of that name. -/
def udpEntry (packet : List Protocol) : Dissection.Entry :=
  match packet.find? fun p => p.name = "udp" with
  | none => .blank
  | some udp => ⟨udp.fields.shown? "udp.stream", udp.fields.shown? "udp.payload"⟩

/-! ## Documents -/

def Forest.marks : Forest → List Mark
  | .nil => []
  | .leaf labels rest => .empty "field" labels.attributes :: rest.marks
  | .parent labels parts rest =>
    .opening "field" labels.attributes :: parts.marks ++ .closing "field" :: rest.marks

def Protocol.marks (p : Protocol) : List Mark :=
  .opening "proto" p.attributes :: p.fields.marks ++ [.closing "proto"]

def packetMarks (packet : List Protocol) : List Mark :=
  .opening "packet" [] :: packet.flatMap Protocol.marks ++ [.closing "packet"]

/-- The tags of packets, in order. -/
def marks (packets : List (List Protocol)) : List Mark := packets.flatMap packetMarks

/-- The document is written for the packets, within a root element or without
one. -/
inductive Prints (packets : List (List Protocol)) (document : Bytes) : Prop where
  | bare : Writes (marks packets) document → Prints packets document
  | rooted (as : List Attribute) :
    Writes (.opening "pdml" as :: marks packets ++ [.closing "pdml"]) document →
      Prints packets document

/-- The fields of a protocol as an analyzer has them: one that has parts only
groups them or carries a remark, or its name begins with the protocol's. -/
def Forest.Fits (protocol : String) : Forest → Prop
  | .nil => True
  | .leaf _ rest => rest.Fits protocol
  | .parent labels parts rest =>
    (labels.name = "" ∨ "_ws.".toList <+: labels.name.toList ∨
        labels.name.toList.takeWhile (· ≠ '.') = protocol.toList) ∧
      parts.Fits protocol ∧ rest.Fits protocol

/-- The protocol is none of the two that only group fields. -/
structure Protocol.Fits (p : Protocol) : Prop where
  not_general : p.name ≠ "geninfo"
  not_wrapper : p.name ≠ "fake-field-wrapper"
  fields : p.fields.Fits p.name

theorem Forest.nested (f : Forest) : Nested f.marks := by
  have hfield : IsWord "field" := by decide
  induction f with
  | nil => exact .nil
  | leaf labels rest ih => exact .empty hfield ih
  | parent labels parts rest ihparts ih => exact .element hfield ihparts ih

theorem Protocol.nested (p : Protocol) : Nested p.marks :=
  .element (by decide) p.fields.nested .nil

theorem nested_flatMap {α : Type} {f : α → List Mark} (h : ∀ x, Nested (f x)) (xs : List α) :
    Nested (xs.flatMap f) := by
  induction xs with
  | nil => exact .nil
  | cons x xs ih => exact (h x).append ih

theorem nested_marks (packets : List (List Protocol)) : Nested (marks packets) :=
  nested_flatMap (fun packet =>
    .element (by decide) (nested_flatMap Protocol.nested packet) .nil) packets

/-! ## Attributes -/

theorem value?_of_carries {as : List Attribute} (has : (as.map Attribute.key).Nodup)
    {key shown : String} (h : Carries as key shown) (name : Bytes) :
    value? key ⟨name, attributesBytes as⟩ = .ok (some shown) := by
  obtain ⟨a, ha, rfl, rfl⟩ := h
  simp only [value?, Markup.lookUp_attributesBytes has ha, Text.Utf8.toString?_ofString]

theorem value_of_carries {as : List Attribute} (has : (as.map Attribute.key).Nodup)
    {key shown : String} (h : Carries as key shown) (name : Bytes) :
    value key ⟨name, attributesBytes as⟩ = .ok shown := by
  simp only [value, value?_of_carries has h]

/-- A field is kept unless its name says that it is to be skipped. -/
def FieldLabels.kept (labels : FieldLabels) : List Field :=
  if isSkipped labels.name then [] else [⟨labels.name, labels.shown⟩]

theorem field?_labels (labels : FieldLabels) (name : Bytes) :
    field? ⟨name, attributesBytes labels.attributes⟩ =
      .ok (if isSkipped labels.name then none else some ⟨labels.name, labels.shown⟩) := by
  have hname := value_of_carries labels.distinct labels.carries_name name
  have hshown := value?_of_carries labels.distinct labels.carries_shown name
  simp only [field?, hname]
  split
  · rfl
  · simp only [shownValue, hshown]

/-- The fields that are kept, in the order of the document. -/
def Forest.kept : Forest → List Field
  | .nil => []
  | .leaf labels rest => labels.kept ++ rest.kept
  | .parent labels parts rest => labels.kept ++ parts.kept ++ rest.kept

/-- The layer that a protocol is read as. -/
def Protocol.layer (p : Protocol) : Layer := ⟨p.name, p.fields.kept⟩

/-! ## Layers -/

theorem addToLast_append (f : Field) (layers : List Layer) (l : Layer) :
    addToLast f (layers ++ [l]) = layers ++ [{ l with fields := l.fields ++ [f] }] := by
  induction layers with
  | nil => rfl
  | cons first layers ih => simp [addToLast, ih]

theorem lastIs_append (name : String) (layers : List Layer) (l : Layer) :
    lastIs name (layers ++ [l]) = decide (l.name = name) := by
  simp [lastIs]

theorem isSkipped_iff {name : String} :
    isSkipped name = true ↔ name = "" ∨ "_ws.".toList <+: name.toList := by
  have hmark : "_ws.".toList = ['_', 'w', 's', '.'] := by decide
  rw [List.prefix_iff_eq_take, hmark, isSkipped, Bool.or_eq_true, String.isEmpty_iff, beq_iff_eq,
    eq_comm (a := ['_', 'w', 's', '.'])]
  rfl

/-! ## Tags -/

/-- The reading is within a protocol, whose layer is the last one. -/
def within (protocol : String) (layers : List Layer) (fields : List Field) : State :=
  ⟨some protocol, layers ++ [⟨protocol, fields⟩]⟩

variable {protocol : String}

theorem emptyTag_field (hgeneral : protocol ≠ generalInformation)
    (hwrapper : protocol ≠ fieldWrapper) (labels : FieldLabels) (layers : List Layer)
    (fields : List Field) :
    emptyTag ⟨ofString "field", attributesBytes labels.attributes⟩
        (within protocol layers fields) =
      .ok (within protocol layers (fields ++ labels.kept)) := by
  have hopen : (within protocol layers fields).protocol ≠ some generalInformation := by
    simpa [within] using hgeneral
  rw [emptyTag, if_pos rfl, if_neg hopen, field?_labels]
  by_cases hskipped : isSkipped labels.name = true
  · simp [FieldLabels.kept, hskipped]
  · simp [FieldLabels.kept, hskipped, within, addLeaf, hwrapper, addToLast_append]

theorem openTag_field {labels : FieldLabels}
    (hname : labels.name = "" ∨ "_ws.".toList <+: labels.name.toList ∨
      labels.name.toList.takeWhile (· ≠ '.') = protocol.toList)
    (layers : List Layer) (fields : List Field) :
    openTag ⟨ofString "field", attributesBytes labels.attributes⟩
        (within protocol layers fields) =
      .ok (within protocol layers (fields ++ labels.kept)) := by
  have hproto : ofString "field" ≠ ofString "proto" := by decide
  rw [openTag, if_neg hproto, if_pos rfl, field?_labels]
  by_cases hskipped : isSkipped labels.name = true
  · simp [FieldLabels.kept, hskipped]
  · obtain ⟨hnamed, hremark⟩ := not_or.mp (mt isSkipped_iff.mpr hskipped)
    have hown := (hname.resolve_left hnamed).resolve_left hremark
    have hprotocol : Field.protocol ⟨labels.name, labels.shown⟩ = protocol := by
      rw [Field.protocol, hown, String.ofList_toList]
    simp [FieldLabels.kept, hskipped, within, addToOwn, hprotocol, lastIs_append,
      addToLast_append]

/-- Reading the tags of a forest adds its fields to the last layer. -/
theorem entriesFrom_forest (hgeneral : protocol ≠ generalInformation)
    (hwrapper : protocol ≠ fieldWrapper) {f : Forest} (hfits : f.Fits protocol) :
    ∀ (layers : List Layer) (fields : List Field) (more : List Event),
      entriesFrom (within protocol layers fields) (f.marks.map Mark.event ++ more) =
        entriesFrom (within protocol layers (fields ++ f.kept)) more := by
  induction f with
  | nil =>
    intro layers fields more
    simp [Forest.marks, Forest.kept]
  | leaf labels rest ih =>
    intro layers fields more
    have hleaf := emptyTag_field hgeneral hwrapper labels layers fields
    simp only [Forest.marks, Forest.kept, List.map_cons, List.cons_append, Mark.event,
      entriesFrom, hleaf]
    rw [ih hfits, List.append_assoc]
  | parent labels parts rest ihparts ih =>
    intro layers fields more
    obtain ⟨hname, hparts, hrest⟩ := hfits
    have hparent := openTag_field hname layers fields
    have hclosed : ofString "field" ≠ ofString "packet" ∧ ofString "field" ≠ ofString "proto" := by
      decide
    simp only [Forest.marks, Forest.kept, List.map_cons, List.map_append, List.cons_append,
      List.append_assoc, Mark.event, entriesFrom, hparent]
    rw [ihparts hparts]
    simp only [entriesFrom, if_neg hclosed.1, if_neg hclosed.2]
    rw [ih hrest]
    simp only [List.append_assoc]

/-- Reading the tags of a protocol adds its layer. -/
theorem entriesFrom_protocol {p : Protocol} (hfits : p.Fits) (s : State) (more : List Event) :
    entriesFrom s (p.marks.map Mark.event ++ more) =
      entriesFrom ⟨none, s.layers ++ [p.layer]⟩ more := by
  have hname := value_of_carries p.distinct p.carries_name (ofString "proto")
  have hopen : openTag ⟨ofString "proto", attributesBytes p.attributes⟩ s =
      .ok (within p.name s.layers []) := by
    have hlayer : ¬ (p.name = generalInformation ∨ p.name = fieldWrapper) :=
      not_or.mpr ⟨hfits.not_general, hfits.not_wrapper⟩
    rw [openTag, if_pos rfl, hname]
    exact if_neg hlayer
  have hpacket : ofString "proto" ≠ ofString "packet" := by decide
  simp only [Protocol.marks, List.map_cons, List.map_append, List.cons_append, List.append_assoc,
    Mark.event, entriesFrom, hopen]
  rw [entriesFrom_forest hfits.not_general hfits.not_wrapper hfits.fields]
  simp only [List.map_nil, List.nil_append, entriesFrom, if_neg hpacket, if_true]
  rfl

theorem entriesFrom_protocols {packet : List Protocol} (hfits : ∀ p ∈ packet, p.Fits) :
    ∀ (s : State) (more : List Event), ∃ protocol,
      entriesFrom s ((packet.flatMap Protocol.marks).map Mark.event ++ more) =
        entriesFrom ⟨protocol, s.layers ++ packet.map Protocol.layer⟩ more := by
  induction packet with
  | nil => exact fun s more => ⟨s.protocol, by simp⟩
  | cons p packet ih =>
    intro s more
    obtain ⟨hp, hpacket⟩ := List.forall_mem_cons.mp hfits
    obtain ⟨protocol, hrest⟩ := ih hpacket ⟨none, s.layers ++ [p.layer]⟩ more
    refine ⟨protocol, ?_⟩
    rw [List.flatMap_cons, List.map_append, List.append_assoc, entriesFrom_protocol hp, hrest]
    simp

/-! ## Packets -/

theorem first?_append (protocol name : String) (front back : List Field) :
    Layer.first? ⟨protocol, front ++ back⟩ name =
      (Layer.first? ⟨protocol, front⟩ name).or (Layer.first? ⟨protocol, back⟩ name) := by
  simp only [Layer.first?, List.find?_append]
  cases front.find? fun f => f.name = name <;> rfl

/-- Of the names that are asked for, none is skipped. -/
theorem first?_kept {name : String} (hname : isSkipped name = false) (protocol : String)
    (labels : FieldLabels) :
    Layer.first? ⟨protocol, labels.kept⟩ name =
      if labels.name = name then some labels.shown else none := by
  unfold FieldLabels.kept
  by_cases hsame : labels.name = name
  · simp [Layer.first?, hsame, hname]
  · by_cases hskipped : isSkipped labels.name = true <;> simp [Layer.first?, hsame, hskipped]

theorem first?_forest {name : String} (hname : isSkipped name = false) (protocol : String)
    (f : Forest) : Layer.first? ⟨protocol, f.kept⟩ name = f.shown? name := by
  induction f with
  | nil => rfl
  | leaf labels rest ih =>
    rw [Forest.kept, first?_append, first?_kept hname, ih, Forest.shown?]
    split <;> rfl
  | parent labels parts rest ihparts ih =>
    rw [Forest.kept, first?_append, first?_append, first?_kept hname, ihparts, ih, Forest.shown?]
    split <;> rfl

/-- What is kept of the layers of a packet is what the packet says of UDP. -/
theorem entry_map_layer (packet : List Protocol) :
    entry (packet.map Protocol.layer) = udpEntry packet := by
  have hstream : isSkipped "udp.stream" = false := by decide
  have hpayload : isSkipped "udp.payload" = false := by decide
  have hname : ∀ p : Protocol, p.layer.name = p.name := fun _ => rfl
  simp only [entry, udpEntry, List.find?_map, Function.comp_def, hname]
  cases packet.find? fun p => p.name = "udp" with
  | none => rfl
  | some udp =>
    simp only [Option.map_some, Protocol.layer, first?_forest hstream, first?_forest hpayload]

theorem entriesFrom_packet {packet : List Protocol} (hfits : ∀ p ∈ packet, p.Fits)
    (more : List Event) :
    entriesFrom .fresh ((packetMarks packet).map Mark.event ++ more) =
      (entriesFrom .fresh more).map (udpEntry packet :: ·) := by
  have hopen : openTag ⟨ofString "packet", attributesBytes []⟩ .fresh = .ok .fresh := by
    have hother : ofString "packet" ≠ ofString "proto" ∧ ofString "packet" ≠ ofString "field" := by
      decide
    rw [openTag, if_neg hother.1, if_neg hother.2]
  obtain ⟨protocol, hprotocols⟩ := entriesFrom_protocols hfits .fresh
    (.closed (ofString "packet") :: more)
  have hentry : entry (State.fresh.layers ++ packet.map Protocol.layer) = udpEntry packet :=
    entry_map_layer packet
  simp only [packetMarks, List.map_cons, List.map_append, List.cons_append, List.append_assoc,
    Mark.event, entriesFrom, hopen, List.map_nil, List.nil_append]
  simp only [hprotocols, entriesFrom, if_true, hentry]
  cases entriesFrom .fresh more <;> rfl

theorem entriesFrom_marks {packets : List (List Protocol)}
    (hfits : ∀ packet ∈ packets, ∀ p ∈ packet, p.Fits) (more : List Event) :
    entriesFrom .fresh ((marks packets).map Mark.event ++ more) =
      (entriesFrom .fresh more).map (packets.map udpEntry ++ ·) := by
  induction packets with
  | nil =>
    simp only [marks, List.flatMap_nil, List.map_nil, List.nil_append]
    cases entriesFrom .fresh more <;> rfl
  | cons packet packets ih =>
    obtain ⟨hpacket, hpackets⟩ := List.forall_mem_cons.mp hfits
    rw [marks, List.flatMap_cons, List.map_append, List.append_assoc, entriesFrom_packet hpacket,
      ← marks, ih hpackets]
    cases entriesFrom .fresh more <;> rfl

/-- The packets of a written document are read. -/
theorem read_of_prints {packets : List (List Protocol)} {document : Bytes}
    (h : Prints packets document) (hfits : ∀ packet ∈ packets, ∀ p ∈ packet, p.Fits) :
    read document = .ok (packets.map udpEntry) := by
  cases h with
  | bare hwrites =>
    have hmarks := entriesFrom_marks hfits []
    rw [read, Markup.events_of_writes hwrites (nested_marks packets)]
    simpa [entriesFrom, Except.map] using hmarks
  | rooted as hwrites =>
    have hroot : Nested (.opening "pdml" as :: marks packets ++ [.closing "pdml"]) :=
      .element (by decide) (nested_marks packets) .nil
    have hopen : openTag ⟨ofString "pdml", attributesBytes as⟩ .fresh = .ok .fresh := by
      have hother : ofString "pdml" ≠ ofString "proto" ∧ ofString "pdml" ≠ ofString "field" := by
        decide
      rw [openTag, if_neg hother.1, if_neg hother.2]
    have hclosed : ofString "pdml" ≠ ofString "packet" ∧ ofString "pdml" ≠ ofString "proto" := by
      decide
    have hmarks := entriesFrom_marks hfits [.closed (ofString "pdml")]
    simp only [entriesFrom, if_neg hclosed.1, if_neg hclosed.2] at hmarks
    rw [read, Markup.events_of_writes hwrites hroot]
    simp only [List.map_cons, List.map_append, List.cons_append, Mark.event, entriesFrom, hopen]
    simpa [Except.map] using hmarks

end Pdml

namespace Tshark

/-- A dissection that has been printed, with nothing on standard error, yields an
entry for each packet, in order: what is shown of the first stream index and the
first payload in the first protocol called `udp`. -/
theorem udpEntries_of_prints (t : Tshark) (h : Host) {capture : Path} {l : Launch}
    (hl : t.launch h (.dissection capture) = .ok l) (hquiet : l.ending.stderr = [])
    {packets : List (List Pdml.Protocol)} (hprints : Pdml.Prints packets l.ending.stdout)
    (hfits : ∀ packet ∈ packets, ∀ p ∈ packet, p.Fits) :
    t.udpEntries h capture = .ok (packets.map Pdml.udpEntry) :=
  udpEntries_eq_ok_iff.mpr ⟨l, hl, Pdml.read_of_prints hprints hfits, hquiet⟩

end Tshark

/-- A packet with two protocols called `udp`, and one with none. -/
def Pdml.twoPackets : List (List Protocol) :=
  [[⟨.plain "eth" (by decide), .leaf (.plain "eth.type" "2048" (by decide) (by decide)) .nil⟩,
    ⟨.plain "udp" (by decide),
      .parent (.plain "" "ports" (by decide) (by decide))
        (.leaf (.plain "udp.port" "53" (by decide) (by decide)) .nil) <|
      .leaf (.plain "udp.stream" "0" (by decide) (by decide)) <|
      .parent (.plain "udp.checksum" "bad" (by decide) (by decide))
        (.leaf (.plain "udp.payload" "de:ad" (by decide) (by decide)) .nil) <|
      .leaf (.plain "udp.payload" "00" (by decide) (by decide)) .nil⟩,
    ⟨.plain "udp" (by decide), .leaf (.plain "udp.stream" "7" (by decide) (by decide)) .nil⟩],
   [⟨.plain "arp" (by decide), .nil⟩]]

/-- The packet of `onePacket`. -/
def Pdml.udpPacket : List Protocol :=
  [⟨.plain "udp" (by decide),
    .leaf (.plain "udp.stream" "0" (by decide) (by decide)) <|
    .leaf (.plain "udp.payload" "aa" (by decide) (by decide)) .nil⟩]

namespace Tshark

open CaptureSplit.Text.Utf8 (ofString)

/-- The payload stands within another field, and in front of a second one. -/
theorem udpEntries_of_prints_two_packets :
    let t : Tshark := ⟨"bin", "rtps"⟩
    let document := Markup.write (ofString "\n") (Pdml.marks Pdml.twoPackets)
    let h := Host.ofEnding ⟨.exited 0, document, []⟩
    let capture := ofString "cap.pcap"
    (∃ l, t.launch h (.dissection capture) = .ok l ∧ l.ending.stderr = [] ∧
        l.ending.stdout = document) ∧
      Pdml.Prints Pdml.twoPackets document ∧
      (∀ packet ∈ Pdml.twoPackets, ∀ p ∈ packet, p.Fits) ∧
      t.udpEntries h capture = .ok [⟨some "0", some "de:ad"⟩, ⟨none, none⟩] := by
  intro t document h capture
  have hprints : Pdml.Prints Pdml.twoPackets document :=
    .bare (Markup.writes_write (by decide) _)
  have hfits : ∀ packet ∈ Pdml.twoPackets, ∀ p ∈ packet, p.Fits := by
    have hudp : "udp.checksum".toList.takeWhile (· ≠ '.') = "udp".toList := by decide
    simp only [Pdml.twoPackets, List.forall_mem_cons]
    refine ⟨⟨⟨by decide, by decide, ?_⟩, ⟨by decide, by decide, ?_⟩, ⟨by decide, by decide, ?_⟩,
      by simp⟩, ⟨⟨by decide, by decide, ?_⟩, by simp⟩, by simp⟩
    · exact trivial
    · exact ⟨.inl rfl, trivial, .inr (.inr hudp), trivial, trivial⟩
    · exact trivial
    · exact trivial
  have hl : t.launch h (.dissection capture) = .ok ⟨[ofString "bin", ofString "tshark"],
      (t.dissectionCommand h capture).arguments, ⟨.exited 0, document, []⟩⟩ := by
    decide +kernel
  refine ⟨⟨_, hl, rfl, rfl⟩, hprints, hfits, ?_⟩
  rw [udpEntries_of_prints t h hl rfl hprints hfits]
  rfl

/-- A packet is printed whole by a program that ends with status 0, and not taken
for the one word that the program says besides. -/
theorem udpEntries_of_complaint :
    let t : Tshark := ⟨"bin", "rtps"⟩
    let ending : Ending := ⟨.exited 0, ofString onePacket, ofString "boom"⟩
    let h := Host.ofEnding ending
    let capture := ofString "cap.pcap"
    (∃ l, t.launch h (.dissection capture) = .ok l ∧ l.ending = ending) ∧
      Pdml.Prints [Pdml.udpPacket] ending.stdout ∧ (∀ p ∈ Pdml.udpPacket, p.Fits) ∧
      [Pdml.udpPacket].map Pdml.udpEntry = [⟨some "0", some "aa"⟩] ∧
      t.udpEntries h capture = .error (.dissectorFailed "bin" (.complaint "boom")) := by
  intro t ending h capture
  have hdocument : ending.stdout = Markup.write [] (Pdml.marks [Pdml.udpPacket]) := by
    decide +kernel
  have hprints : Pdml.Prints [Pdml.udpPacket] ending.stdout := by
    rw [hdocument]
    exact .bare (Markup.writes_write List.not_mem_nil _)
  have hfits : ∀ p ∈ Pdml.udpPacket, p.Fits := by
    simp only [Pdml.udpPacket, List.forall_mem_singleton]
    exact ⟨by decide, by decide, trivial⟩
  have hl : t.launch h (.dissection capture) = .ok ⟨[ofString "bin", ofString "tshark"],
      (t.dissectionCommand h capture).arguments, ending⟩ := by
    decide +kernel
  exact ⟨⟨_, hl, rfl⟩, hprints, hfits, rfl, by decide +kernel⟩

end Tshark
end CaptureSplit
