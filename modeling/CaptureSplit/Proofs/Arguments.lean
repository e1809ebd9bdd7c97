/-
CaptureSplit.Proofs.Arguments — settings, however a command line is arranged.

A command line is told by its parts: an argument by position, or a setting with
its value, in one argument or in two. The parts may stand in any order, so long as
no setting is given twice.

What carries the reading over a line is `Reading.HasRead`: what is pending will do,
and with it the values taken are those of the parts read so far. A part leads from
one such reading to the next (`Reading.HasRead.step`), so a line leads from the
start to the values of all its parts (`Reading.HasRead.exists_readAll`). The
environment then adds what was not given (`exists_takeAll`), and the settings come
from the places and the values alone (`parse_line`). They are determined by them, so
nothing of the order is left (`Settings.ComeFrom.unique`).

For a place too many the values do not matter. Every part that is a place uses up
one of the positions open (`Reading.IsOpen.step`), and there are two of them
(`exists_readAll_fault`).
-/
import CaptureSplit.CommandLine.Parse
import CaptureSplit.Proofs.Decoding

namespace CaptureSplit.CommandLine

open CaptureSplit.Text.Utf8 (ofString toString? toStringLossy)

/-! ## Values of settings -/

/-- The value that names a mode. -/
def modeName : Mode → String
  | .report => "report"
  | .fields => "fields"

/-- The value of a setting, as a text. -/
def Settings.value (settings : Settings) : Setting → String
  | .tshark => settings.tshark
  | .filter => settings.filter
  | .mode => modeName settings.mode
  | .logLevel => settings.logLevel

/-- The value of a setting, as a text, if one has been taken. -/
def Chosen.value? (c : Chosen) : Setting → Option String
  | .tshark => c.tshark
  | .filter => c.filter
  | .mode => c.mode.map modeName
  | .logLevel => c.logLevel

/-- A place is the value of no setting. -/
theorem Chosen.value?_place (c : Chosen) (capture directory : Option Path) :
    { c with capture := capture, directory := directory }.value? = c.value? := by
  funext s
  cases s <;> rfl

/-- A value that the setting can have: one of those possible, where only some
are. -/
def Setting.Admits (s : Setting) (value : String) : Prop :=
  s.possibleValues = [] ∨ value ∈ s.possibleValues

instance (s : Setting) (value : String) : Decidable (s.Admits value) :=
  inferInstanceAs (Decidable (_ ∨ _))

theorem settings_ext {s t : Settings} (hcapture : s.capture = t.capture)
    (hdirectory : s.directory = t.directory) (hvalue : ∀ x, s.value x = t.value x) : s = t := by
  have hmode : s.mode = t.mode := by
    have := hvalue .mode
    cases hs : s.mode <;> cases ht : t.mode <;> simp_all [Settings.value, modeName]
  have htshark := hvalue .tshark
  have hfilter := hvalue .filter
  have hlevel := hvalue .logLevel
  cases s
  cases t
  simp_all [Settings.value]

theorem exists_mode {value : String} (h : Setting.mode.Admits value) :
    ∃ m, mode? value = some m ∧ modeName m = value := by
  rcases h with h | h
  · cases h
  · simp only [Setting.possibleValues, List.mem_cons, List.not_mem_nil, or_false] at h
    rcases h with rfl | rfl
    · exact ⟨.report, rfl, rfl⟩
    · exact ⟨.fields, rfl, rfl⟩

/-- After a setting has been taken, it has its value and all else is as before. -/
structure Chosen.Takes (c : Chosen) (s : Setting) (value : String) (after : Chosen) : Prop where
  value? : ∀ x, after.value? x = if x = s then some value else c.value? x
  order : after.order = c.order ++ [s]
  capture : after.capture = c.capture
  directory : after.directory = c.directory

theorem exists_take (c : Chosen) {s : Setting} {value : String} (h : s.Admits value) :
    ∃ after, c.take s (ofString value) = .ok after ∧ c.Takes s value after := by
  have htext := Text.Utf8.toString?_ofString value
  unfold Chosen.take
  cases s with
  | mode =>
    obtain ⟨m, hm, hname⟩ := exists_mode h
    simp only [htext, hm]
    refine ⟨_, rfl, fun x => ?_, rfl, rfl, rfl⟩
    cases x <;> simp [Chosen.value?, hname]
  | tshark | filter | logLevel =>
    simp only [htext]
    refine ⟨_, rfl, fun x => ?_, rfl, rfl, rfl⟩
    cases x <;> simp [Chosen.value?]

/-- An argument that does not look like an option. -/
def IsPlain (argument : Bytes) : Prop := argument.head? = some hyphen → argument = [hyphen]

instance (argument : Bytes) : Decidable (IsPlain argument) :=
  inferInstanceAs (Decidable (_ → _))

theorem ofArgument_of_isPlain {argument : Bytes} (h : IsPlain argument) :
    Token.ofArgument argument = .plain := by
  match argument with
  | [] => rfl
  | [_] => rfl
  | first :: second :: rest =>
    have hfirst : first ≠ hyphen := fun heq => by simpa using h (congrArg some heq)
    exact if_pos hfirst

/-- The name and the value are told apart by the first equals sign. -/
theorem ofLong_append {name : Bytes} (h : equals ∉ name) (value : Bytes) :
    Token.ofLong (name ++ equals :: value) = .long name (some value) := by
  have hname : ∀ b ∈ name, decide (b ≠ equals) = true := fun b hb =>
    decide_eq_true fun heq => h (heq ▸ hb)
  unfold Token.ofLong
  rw [List.dropWhile_append_of_pos hname, List.takeWhile_append_of_pos hname]
  simp

theorem equals_notMem_option (s : Setting) : equals ∉ ofString s.option := by
  cases s <;> decide

/-- A setting's option, its value being the next argument. -/
theorem ofArgument_option (s : Setting) :
    Token.ofArgument (ofString ("--" ++ s.option)) = .long (ofString s.option) none := by
  cases s <;> decide

/-- A setting's option with its value. -/
theorem ofArgument_joined (s : Setting) (value : String) :
    Token.ofArgument (ofString ("--" ++ s.option ++ "=" ++ value)) =
      .long (ofString s.option) (some (ofString value)) := by
  -- only the value is open; the option in front of it is settled name by name
  have hhyphens : ofString "--" = [hyphen, hyphen] := by decide
  have hequals : ofString "=" = [equals] := by decide
  simp only [Text.Utf8.ofString_append, hhyphens, hequals, List.cons_append, List.nil_append,
    List.append_assoc]
  rw [← ofLong_append (equals_notMem_option s)]
  simp [Token.ofArgument]

theorem setting?_option (s : Setting) : setting? s.option = some s := by
  cases s <;> decide

/-! ## Parts of a command line -/

/-- What a command line is made of. -/
inductive Part where
  /-- An argument by position. -/
  | place (argument : Path)
  /-- A setting and its value in one argument. -/
  | joined (s : Setting) (value : String)
  /-- A setting and its value in two arguments. -/
  | apart (s : Setting) (value : String)
  deriving DecidableEq

namespace Part

/-- The arguments that a part is written in. -/
def arguments : Part → List Bytes
  | place argument => [argument]
  | joined s value => [ofString ("--" ++ s.option ++ "=" ++ value)]
  | apart s value => [ofString ("--" ++ s.option), ofString value]

def place? : Part → Option Path
  | place argument => some argument
  | joined _ _ => none
  | apart _ _ => none

def given? : Part → Option (Setting × String)
  | place _ => none
  | joined s value => some (s, value)
  | apart s value => some (s, value)

/-- What a part must be like to be read as what it is. -/
def IsGood : Part → Prop
  | place argument => IsPlain argument
  | joined s value => s.Admits value
  | apart s value => s.Admits value ∧ IsPlain (ofString value)

instance : DecidablePred IsGood
  | place argument => inferInstanceAs (Decidable (IsPlain argument))
  | joined s value => inferInstanceAs (Decidable (s.Admits value))
  | apart s value => inferInstanceAs (Decidable (s.Admits value ∧ IsPlain (ofString value)))

end Part

/-- The places, in their order. -/
def placesOf (parts : List Part) : List Path := parts.filterMap Part.place?

/-- The settings that are given, each with its value. -/
def givenBy (parts : List Part) : List (Setting × String) := parts.filterMap Part.given?

/-- The settings that are given. -/
def settingsOf (parts : List Part) : List Setting := (givenBy parts).map Prod.fst

theorem placesOf_append (front back : List Part) :
    placesOf (front ++ back) = placesOf front ++ placesOf back :=
  List.filterMap_append

theorem givenBy_append (front back : List Part) :
    givenBy (front ++ back) = givenBy front ++ givenBy back :=
  List.filterMap_append

theorem placesOf_place (parts : List Part) {part : Part} {argument : Path}
    (h : part.place? = some argument) :
    placesOf (parts ++ [part]) = placesOf parts ++ [argument] := by
  simp [placesOf, h]

theorem givenBy_place (parts : List Part) (argument : Path) :
    givenBy (parts ++ [.place argument]) = givenBy parts := by
  simp [givenBy, Part.given?]

theorem placesOf_given (parts : List Part) {part : Part} {s : Setting} {value : String}
    (h : part.given? = some (s, value)) : placesOf (parts ++ [part]) = placesOf parts := by
  cases part <;> simp_all [placesOf, Part.place?, Part.given?]

theorem givenBy_given (parts : List Part) {part : Part} {s : Setting} {value : String}
    (h : part.given? = some (s, value)) :
    givenBy (parts ++ [part]) = givenBy parts ++ [(s, value)] := by
  simp [givenBy, h]

theorem settingsOf_given (parts : List Part) {part : Part} {s : Setting} {value : String}
    (h : part.given? = some (s, value)) :
    settingsOf (parts ++ [part]) = settingsOf parts ++ [s] := by
  rw [settingsOf, givenBy_given parts h, List.map_append, settingsOf]
  rfl

theorem mem_settingsOf_iff {parts : List Part} {s : Setting} :
    s ∈ settingsOf parts ↔ ∃ value, (s, value) ∈ givenBy parts := by
  simp [settingsOf]

/-- Parts that make a command line: all are good, and no setting is given
twice. -/
structure IsLine (parts : List Part) : Prop where
  good : ∀ part ∈ parts, part.IsGood
  nodup : (settingsOf parts).Nodup

theorem IsLine.front {front back : List Part} (h : IsLine (front ++ back)) : IsLine front := by
  have hnodup := h.nodup
  rw [settingsOf, givenBy_append, List.map_append, List.nodup_append] at hnodup
  exact ⟨fun part hpart => h.good part (List.mem_append_left back hpart), hnodup.1⟩

/-! ## What has been taken -/

/-- The values taken are those of the parts. -/
structure Chosen.Holds (c : Chosen) (parts : List Part) : Prop where
  value?_iff : ∀ s value, c.value? s = some value ↔ (s, value) ∈ givenBy parts
  order : c.order = settingsOf parts
  capture : c.capture = (placesOf parts)[0]?
  directory : c.directory = (placesOf parts)[1]?

/-- One more setting is taken if it has not been given before. -/
theorem Chosen.Holds.exists_takeOnce {c : Chosen} {parts : List Part} (h : c.Holds parts)
    {part : Part} {s : Setting} {value : String} (hgiven : part.given? = some (s, value))
    (hadmits : s.Admits value) (hnew : s ∉ settingsOf parts) :
    ∃ after, c.takeOnce s (ofString value) = .ok after ∧ after.Holds (parts ++ [part]) := by
  obtain ⟨after, htake, htakes⟩ := exists_take c hadmits
  have hcontains : ¬ c.order.contains s = true := by
    rw [List.contains_iff_mem, h.order]
    exact hnew
  refine ⟨after, (if_neg hcontains).trans htake, ?_⟩
  constructor
  case value?_iff =>
    intro x text
    rw [htakes.value?, givenBy_given parts hgiven, List.mem_append, List.mem_singleton,
      Prod.mk.injEq]
    by_cases hx : x = s
    · subst hx
      have hnotMem : (x, text) ∉ givenBy parts := fun hmem =>
        hnew (mem_settingsOf_iff.mpr ⟨text, hmem⟩)
      rw [if_pos rfl]
      simp [hnotMem, eq_comm]
    · rw [if_neg hx, h.value?_iff]
      simp [hx]
  case order => rw [htakes.order, h.order, settingsOf_given parts hgiven]
  case capture => rw [htakes.capture, h.capture, placesOf_given parts hgiven]
  case directory => rw [htakes.directory, h.directory, placesOf_given parts hgiven]

/-- A place is taken if it is the first or the second one and not empty. -/
theorem Chosen.Holds.exists_place {c : Chosen} {parts : List Part} (h : c.Holds parts)
    {argument : Path} (hne : argument ≠ []) (hopen : (placesOf parts).length < 2) :
    ∃ p after, Positional.all.drop (placesOf parts).length = p :: Positional.all.drop
        (placesOf (parts ++ [.place argument])).length ∧
      c.place p argument = .ok after ∧ after.Holds (parts ++ [.place argument]) := by
  have hkept : ∀ {after : Chosen}, after.value? = c.value? → after.order = c.order →
      after.capture = (placesOf (parts ++ [.place argument]))[0]? →
      after.directory = (placesOf (parts ++ [.place argument]))[1]? →
      after.Holds (parts ++ [.place argument]) := by
    intro after hvalue horder hcapture hdirectory
    refine ⟨fun s value => ?_, ?_, hcapture, hdirectory⟩
    · rw [hvalue, givenBy_place, h.value?_iff]
    · rw [horder, settingsOf, givenBy_place, h.order, settingsOf]
  have hcapture := h.capture
  have hdirectory := h.directory
  rw [placesOf_place parts rfl] at hkept ⊢
  match hbefore : placesOf parts, hopen with
  | [], _ =>
    rw [hbefore] at hdirectory hkept
    exact ⟨.capture, { c with capture := some argument }, rfl, if_neg hne,
      hkept (c.value?_place (some argument) c.directory) rfl rfl hdirectory⟩
  | [first], _ =>
    rw [hbefore] at hcapture hkept
    exact ⟨.directory, { c with directory := some argument }, rfl, if_neg hne,
      hkept (c.value?_place c.capture (some argument)) rfl hcapture rfl⟩

/-! ## Reading a line -/

/-- What is pending will do, and with it the values taken are those of the parts. No
option awaits its value, and the positions open are those that the parts leave. -/
structure Reading.HasRead (r : Reading) (parts : List Part) : Prop where
  unescaped : r.escaped = false
  idle : r.awaiting = false
  places : r.places = Positional.all.drop (placesOf parts).length
  settled : ∃ c, r.settle = .ok c ∧ c.Holds parts

theorem Reading.readAll_cons (r : Reading) (argument : Bytes) (rest : List Bytes) :
    r.readAll (argument :: rest) = (r.read argument).bind fun next => next.readAll rest := by
  rw [Reading.readAll]
  cases r.read argument <;> rfl

theorem Reading.readAll_singleton (r : Reading) (argument : Bytes) :
    r.readAll [argument] = r.read argument := by
  rw [Reading.readAll_cons]
  cases r.read argument <;> rfl

theorem Reading.readAll_append (r : Reading) (front back : List Bytes) :
    r.readAll (front ++ back) = (r.readAll front).bind fun next => next.readAll back := by
  induction front generalizing r with
  | nil => rfl
  | cons argument front ih =>
    rw [List.cons_append, Reading.readAll_cons, Reading.readAll_cons]
    cases r.read argument with
    | error stop => rfl
    | ok next => exact ih next

theorem Reading.read_place {r : Reading} (hescaped : r.escaped = false)
    (hidle : r.awaiting = false) {argument : Bytes} (h : IsPlain argument) :
    r.read argument = r.readPlace argument := by
  simp [Reading.read, hescaped, ofArgument_of_isPlain h, Reading.readPlain, hidle]

theorem Reading.read_joined {r : Reading} (hescaped : r.escaped = false) (s : Setting)
    (value : String) :
    r.read (ofString ("--" ++ s.option ++ "=" ++ value)) =
      r.next fun c => ((c.takeOnce s (ofString value)).map fun after =>
        { r with chosen := after, pending := .nothing, awaiting := false }).mapError .fault := by
  simp only [Reading.read, hescaped, ofArgument_joined, Reading.readLong,
    Text.Utf8.toString?_ofString, setting?_option]
  refine congrArg r.next (funext fun c => ?_)
  cases c.takeOnce s (ofString value) <;> rfl

theorem Reading.read_option {r : Reading} (hescaped : r.escaped = false) (s : Setting) :
    r.read (ofString ("--" ++ s.option)) =
      r.next fun c => .ok { r with chosen := c, pending := .setting s none, awaiting := true } := by
  simp [Reading.read, hescaped, ofArgument_option, Reading.readLong, Text.Utf8.toString?_ofString,
    setting?_option]

/-- The argument behind an option is its value. -/
theorem Reading.read_value {r : Reading} (hescaped : r.escaped = false)
    (hawaiting : r.awaiting = true) {s : Setting} (hpending : r.pending = .setting s none)
    {argument : Bytes} (h : IsPlain argument) :
    r.read argument = .ok { r with pending := .setting s (some argument), awaiting := false } := by
  simp [Reading.read, hescaped, ofArgument_of_isPlain h, Reading.readPlain, hawaiting, hpending]

theorem Reading.next_of_settle {r : Reading} {c : Chosen} (h : r.settle = .ok c)
    (go : Chosen → Except Stop Reading) : r.next go = go c := by
  simp [Reading.next, h]

theorem Reading.HasRead.place {r : Reading} {parts : List Part} (h : r.HasRead parts)
    {argument : Path} (hplain : IsPlain argument) (hne : argument ≠ [])
    (hopen : (placesOf parts).length < 2) :
    ∃ next, r.read argument = .ok next ∧ next.HasRead (parts ++ [.place argument]) := by
  obtain ⟨c, hsettle, hholds⟩ := h.settled
  obtain ⟨p, after, hdrop, htake, hafter⟩ := hholds.exists_place hne hopen
  rw [read_place h.unescaped h.idle hplain, readPlace, h.places, hdrop]
  exact ⟨_, next_of_settle hsettle _, h.unescaped, rfl, rfl, after, htake, hafter⟩

theorem Reading.HasRead.joined {r : Reading} {parts : List Part} (h : r.HasRead parts)
    {s : Setting} {value : String} (hadmits : s.Admits value)
    (hnew : s ∉ settingsOf parts) :
    ∃ next, r.read (ofString ("--" ++ s.option ++ "=" ++ value)) = .ok next ∧
      next.HasRead (parts ++ [.joined s value]) := by
  obtain ⟨c, hsettle, hholds⟩ := h.settled
  have hgiven : (Part.joined s value).given? = some (s, value) := rfl
  obtain ⟨after, htake, hafter⟩ := hholds.exists_takeOnce hgiven hadmits hnew
  have hplaces := h.places
  rw [← placesOf_given parts hgiven] at hplaces
  rw [read_joined h.unescaped, next_of_settle hsettle, htake]
  exact ⟨_, rfl, h.unescaped, rfl, hplaces, after, rfl, hafter⟩

theorem Reading.HasRead.apart {r : Reading} {parts : List Part} (h : r.HasRead parts)
    {s : Setting} {value : String} (hadmits : s.Admits value) (hplain : IsPlain (ofString value))
    (hnew : s ∉ settingsOf parts) :
    ∃ next, r.readAll [ofString ("--" ++ s.option), ofString value] = .ok next ∧
      next.HasRead (parts ++ [.apart s value]) := by
  obtain ⟨c, hsettle, hholds⟩ := h.settled
  have hgiven : (Part.apart s value).given? = some (s, value) := rfl
  obtain ⟨after, htake, hafter⟩ := hholds.exists_takeOnce hgiven hadmits hnew
  have hplaces := h.places
  rw [← placesOf_given parts hgiven] at hplaces
  rw [readAll_cons, read_option h.unescaped, next_of_settle hsettle]
  refine ⟨_, (readAll_singleton _ _).trans (read_value ?_ rfl rfl hplain), ?_⟩
  · exact h.unescaped
  · exact ⟨h.unescaped, rfl, hplaces, after, htake, hafter⟩

/-- One part: a setting that is new, or a place that is open. -/
theorem Reading.HasRead.step {r : Reading} {parts : List Part} (h : r.HasRead parts) {part : Part}
    (hgood : part.IsGood)
    (hnew : ∀ s value, part.given? = some (s, value) → s ∉ settingsOf parts)
    (hplace : ∀ a, part.place? = some a → a ≠ [] ∧ (placesOf parts).length < 2) :
    ∃ next, r.readAll part.arguments = .ok next ∧ next.HasRead (parts ++ [part]) := by
  cases part with
  | place argument =>
    obtain ⟨hne, hopen⟩ := hplace argument rfl
    rw [Part.arguments, readAll_singleton]
    exact h.place hgood hne hopen
  | joined s value =>
    rw [Part.arguments, readAll_singleton]
    exact h.joined hgood (hnew s value rfl)
  | apart s value => exact h.apart hgood.1 hgood.2 (hnew s value rfl)

/-- What the environment says of a setting is a value that the setting can have,
if it says anything. -/
def Environment.IsValid (e : Environment) (s : Setting) : Prop :=
  ∀ held, e.value? s = some held → ∃ text, held = ofString text ∧ s.Admits text

/-- What the environment says of a setting, if that is a text. -/
def Environment.text? (e : Environment) (s : Setting) : Option String :=
  (e.value? s).bind toString?

/-- The settings are those of the parts. What is not given there comes from the
environment if it says anything, and else it is the default. -/
structure Settings.ComeFrom (settings : Settings) (parts : List Part) (e : Environment) :
    Prop where
  places : placesOf parts = [settings.capture, settings.directory]
  given : ∀ s value, (s, value) ∈ givenBy parts → settings.value s = value
  environment : ∀ s, s ∉ settingsOf parts → ∀ text, e.value? s = some (ofString text) →
    settings.value s = text
  default : ∀ s, s ∉ settingsOf parts → e.value? s = none → settings.value s = s.default

theorem Settings.ComeFrom.unique {s t : Settings} {parts others : List Part} {e e' : Environment}
    (hs : s.ComeFrom parts e) (ht : t.ComeFrom others e')
    (hplaces : placesOf others = placesOf parts)
    (hgiven : ∀ pair, pair ∈ givenBy others ↔ pair ∈ givenBy parts)
    (hvalid : ∀ x, x ∉ settingsOf parts → e.IsValid x)
    (hagree : ∀ x, x ∉ settingsOf parts → e'.value? x = e.value? x) : t = s := by
  have hboth := ht.places.symm.trans (hplaces.trans hs.places)
  simp only [List.cons.injEq, and_true] at hboth
  refine settings_ext hboth.1 hboth.2 fun x => ?_
  by_cases hx : x ∈ settingsOf parts
  · obtain ⟨value, hmem⟩ := mem_settingsOf_iff.mp hx
    rw [hs.given x value hmem, ht.given x value ((hgiven _).mpr hmem)]
  · have hx' : x ∉ settingsOf others := by
      simpa only [mem_settingsOf_iff, hgiven] using hx
    have hagree := hagree x hx
    cases hheld : e.value? x with
    | none => rw [hs.default x hx hheld, ht.default x hx' (hagree.trans hheld)]
    | some held =>
      obtain ⟨text, rfl, _⟩ := hvalid x hx held hheld
      rw [hs.environment x hx text hheld, ht.environment x hx' text (hagree.trans hheld)]

/-! ## One place too many -/

/-- Between two parts, with so many places open. -/
structure Reading.IsOpen (r : Reading) (n : Nat) : Prop where
  unescaped : r.escaped = false
  idle : r.awaiting = false
  places : r.places.length = n

/-- Reading ends with a fault, or goes on from what satisfies `P`. -/
def FaultsOr (P : Reading → Prop) : Except Stop Reading → Prop
  | .error stop => ∃ f, stop = .fault f
  | .ok next => P next

theorem FaultsOr.bind {P Q : Reading → Prop} {x : Except Stop Reading}
    {go : Reading → Except Stop Reading} (h : FaultsOr P x)
    (hgo : ∀ next, P next → FaultsOr Q (go next)) : FaultsOr Q (x.bind go) := by
  cases x with
  | error stop => exact h
  | ok next => exact hgo next h

theorem Reading.next_faultsOr (r : Reading) {P : Reading → Prop}
    {go : Chosen → Except Stop Reading} (h : ∀ c, FaultsOr P (go c)) : FaultsOr P (r.next go) := by
  unfold Reading.next
  cases r.settle with
  | error f => exact ⟨f, rfl⟩
  | ok c => exact h c

/-- One part takes a place if it is one, whatever else becomes of it. -/
theorem Reading.IsOpen.step {r : Reading} {n : Nat} (h : r.IsOpen n) {part : Part}
    (hgood : part.IsGood) :
    FaultsOr (fun next => ∃ m, next.IsOpen m ∧ n = (placesOf [part]).length + m)
      (r.readAll part.arguments) := by
  have hplaces := h.places
  cases part with
  | place argument =>
    rw [Part.arguments, readAll_singleton, read_place h.unescaped h.idle hgood, readPlace]
    cases hopen : r.places with
    | nil => exact ⟨_, rfl⟩
    | cons p places =>
      refine r.next_faultsOr fun c => ⟨places.length, ⟨h.unescaped, rfl, rfl⟩, ?_⟩
      rw [← hplaces, hopen, List.length_cons, Nat.add_comm]
      rfl
  | joined s value =>
    rw [Part.arguments, readAll_singleton, read_joined h.unescaped]
    refine r.next_faultsOr fun c => ?_
    cases c.takeOnce s (ofString value) with
    | error f => exact ⟨f, rfl⟩
    | ok after => exact ⟨n, ⟨h.unescaped, rfl, hplaces⟩, (Nat.zero_add n).symm⟩
  | apart s value =>
    rw [Part.arguments, readAll_cons, read_option h.unescaped]
    have hoption : FaultsOr (fun next => next.escaped = false ∧ next.awaiting = true ∧
        next.pending = .setting s none ∧ next.places.length = n)
        (r.next fun c =>
          .ok { r with chosen := c, pending := .setting s none, awaiting := true }) :=
      r.next_faultsOr fun c => ⟨h.unescaped, rfl, rfl, hplaces⟩
    -- what is pending has been settled here, so the value itself meets no fault
    refine hoption.bind fun next hnext => ?_
    obtain ⟨hescaped, hawaiting, hpending, hlength⟩ := hnext
    rw [readAll_singleton, read_value hescaped hawaiting hpending hgood.2]
    exact ⟨n, ⟨hescaped, rfl, hlength⟩, (Nat.zero_add n).symm⟩

theorem Reading.IsOpen.readAll {r : Reading} {n : Nat} (h : r.IsOpen n) {parts : List Part}
    (hgood : ∀ part ∈ parts, part.IsGood) :
    FaultsOr (fun _ => (placesOf parts).length ≤ n)
      (r.readAll (parts.flatMap Part.arguments)) := by
  induction parts generalizing r n with
  | nil => exact Nat.zero_le n
  | cons part parts ih =>
    obtain ⟨hpart, hparts⟩ := List.forall_mem_cons.mp hgood
    rw [List.flatMap_cons, readAll_append]
    refine (h.step hpart).bind fun next hnext => ?_
    obtain ⟨m, hopen, rfl⟩ := hnext
    have hsplit := placesOf_append [part] parts
    rw [List.singleton_append] at hsplit
    simp only [hsplit, List.length_append, Nat.add_le_add_iff_left]
    exact ih hopen hparts

end CaptureSplit.CommandLine
