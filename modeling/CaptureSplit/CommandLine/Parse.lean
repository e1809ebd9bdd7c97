/-
CaptureSplit.CommandLine.Parse — from arguments to settings.

Arguments are read from the left. An option's value is attached to it
with an equals sign, or is the next argument unless that looks like an
option itself; a single hyphen is a value, and behind two hyphens every
argument is given by position. What has just been read is `pending`: it
is checked when the next argument takes effect, so a fault in it loses
against an unknown argument behind it and wins against all that comes
later.

After the arguments come the environment, for the settings that were not
given, then the positions that must be there, then the defaults.
-/
import CaptureSplit.CommandLine.Request
import CaptureSplit.CommandLine.Similarity

namespace CaptureSplit.CommandLine

/-! ## Arguments by their look -/

/-- What an argument looks like. -/
inductive Token where
  /-- Two hyphens. -/
  | escape
  /-- Two hyphens and a name, perhaps with an equals sign and a value. -/
  | long (name : Bytes) (value : Option Bytes)
  /-- A hyphen and what stands behind it. -/
  | short (letters : Bytes)
  | plain
  deriving DecidableEq

/-- The byte that options begin with. -/
def hyphen : UInt8 := 0x2D

/-- The byte between an option and an attached value. -/
def equals : UInt8 := 0x3D

/-- A long option cut at its first equals sign. -/
def Token.ofLong (body : Bytes) : Token :=
  match body.dropWhile (· ≠ equals) with
  | [] => .long body none
  | _ :: value => .long (body.takeWhile (· ≠ equals)) (some value)

/-- The look of an argument. -/
def Token.ofArgument (argument : Bytes) : Token :=
  match argument with
  | first :: second :: rest =>
    if first ≠ hyphen then .plain
    else if second ≠ hyphen then .short (second :: rest)
    else if rest.isEmpty then .escape
    else .ofLong rest
  | _ => .plain

/-! ## What has been given -/

/-- Values that have been taken. `order` lists the settings among them,
the earliest first. -/
structure Chosen where
  capture : Option Path
  directory : Option Path
  tshark : Option String
  filter : Option String
  mode : Option Mode
  logLevel : Option String
  order : List Setting
  deriving DecidableEq

/-- Nothing taken yet. -/
def Chosen.nothing : Chosen := ⟨none, none, none, none, none, none, []⟩

/-- Whether any position has been taken. -/
def Chosen.isPlaced (c : Chosen) : Bool := c.capture.isSome || c.directory.isSome

/-- The values with one more setting, which must be text and, for a mode,
name one. -/
def Chosen.take (c : Chosen) (s : Setting) (value : Bytes) : Except Fault Chosen :=
  match s, Text.Utf8.toString? value with
  | .mode, some text =>
    match mode? text with
    | some m => .ok { c with mode := some m, order := c.order ++ [s] }
    | none =>
      if text.isEmpty then .error (.valueMissing s.display s.possibleValues)
      else .error (.invalidValue text s)
  | .mode, none => .error (.invalidValue (Text.Utf8.toStringLossy value) s)
  | _, none => .error .notUtf8
  | .tshark, some text => .ok { c with tshark := some text, order := c.order ++ [s] }
  | .filter, some text => .ok { c with filter := some text, order := c.order ++ [s] }
  | .logLevel, some text => .ok { c with logLevel := some text, order := c.order ++ [s] }

/-- `take`, of a setting that must not have been taken before. -/
def Chosen.takeOnce (c : Chosen) (s : Setting) (value : Bytes) : Except Fault Chosen :=
  if c.order.contains s then .error (.repeated s) else c.take s value

/-- The values with a positional argument, which must not be empty. -/
def Chosen.place (c : Chosen) (p : Positional) (value : Path) : Except Fault Chosen :=
  if value = [] then .error (.valueMissing p.display [])
  else
    match p with
    | .capture => .ok { c with capture := some value }
    | .directory => .ok { c with directory := some value }

/-! ## Reading arguments -/

/-- What has been read and not been checked yet. -/
inductive Pending where
  | nothing
  | setting (s : Setting) (value : Option Bytes)
  | positional (p : Positional) (value : Path)
  deriving DecidableEq

/-- A command line in the reading. -/
structure Reading where
  chosen : Chosen
  pending : Pending
  /-- Whether the next argument can be the value of the pending option. -/
  awaiting : Bool
  /-- Whether two hyphens have been met. -/
  escaped : Bool
  /-- The positions still open. -/
  places : List Positional
  deriving DecidableEq

/-- Before the first argument. -/
def Reading.start : Reading :=
  ⟨.nothing, .nothing, false, false, Positional.all⟩

/-- Checks what is pending. -/
def Reading.settle (r : Reading) : Except Fault Chosen :=
  match r.pending with
  | .nothing => .ok r.chosen
  | .setting s none => .error (.valueMissing s.display s.possibleValues)
  | .setting s (some value) => r.chosen.takeOnce s value
  | .positional p value => r.chosen.place p value

/-- The settings given so far, the pending one included whether or not its
value will do. One that is given twice drops out. -/
def Reading.given (r : Reading) : List Setting :=
  match r.pending with
  | .setting s (some _) =>
    if r.chosen.order.contains s then r.chosen.order.filter (· ≠ s)
    else r.chosen.order ++ [s]
  | _ => r.chosen.order

/-- Whether any position has been given, checked or not. -/
def Reading.isPlaced (r : Reading) : Bool :=
  match r.pending with
  | .positional _ _ => true
  | _ => r.chosen.isPlaced

/-- The reading with what is pending checked. -/
def Reading.next (r : Reading) (go : Chosen → Except Stop Reading) : Except Stop Reading :=
  match r.settle with
  | .error f => .error (.fault f)
  | .ok chosen => go chosen

/-- The options that ask for help or for the version. -/
def helpOption : String := "help"

/-- The option that asks for the version. -/
def versionOption : String := "version"

/-- The names of all long options, in the order in which they are listed. -/
def longOptions : List String := Setting.all.map Setting.option ++ [helpOption, versionOption]

/-- The setting of a long option. -/
def setting? (name : String) : Option Setting := Setting.all.find? fun s => s.option = name

/-- An option as the usage line names it. -/
def listedAs (option : String) : String :=
  match setting? option with
  | some s => s.display
  | none => "--" ++ option

/-- The fault of an unknown long option. The usage line shows what has been
given, if anything has, and the option that was meant. -/
def Reading.unknownLong (r : Reading) (name : String) : Fault :=
  let given := r.given.map Setting.display
  match Similarity.suggestion? name longOptions with
  | some option =>
    let more := listedAs option
    .unknownArgument ("--" ++ name) (.similar ("--" ++ option))
      (.options (if given.contains more then given else given ++ [more]))
  | none =>
    .unknownArgument ("--" ++ name) .asValue
      (if given.isEmpty && !r.isPlaced then .general else .options given)

/-- A long option that is none of the settings and takes no value. The
usage line that a value leads to depends on whether anything has been taken
before. -/
def Reading.readFlag (r : Reading) (option : String) (request : Stop) (value : Option Bytes) :
    Except Stop Reading :=
  let listed := "--" ++ option
  match value with
  | some v =>
    .error (.fault (.unexpectedValue (Text.Utf8.toStringLossy v) listed
      (if r.chosen.order.isEmpty && !r.chosen.isPlaced then .options [listed]
        else .choice listed)))
  | none => r.next fun _ => .error request

/-- A long option. -/
def Reading.readLong (r : Reading) (name : Bytes) (value : Option Bytes) :
    Except Stop Reading :=
  match Text.Utf8.toString? name with
  | none => .error (.fault (r.unknownLong (Text.Utf8.toStringLossy name)))
  | some text =>
    match setting? text with
    | some s =>
      match value with
      | some v =>
        r.next fun chosen =>
          match chosen.takeOnce s v with
          | .error f => .error (.fault f)
          | .ok after => .ok { r with chosen := after, pending := .nothing, awaiting := false }
      | none =>
        r.next fun chosen =>
          .ok { r with chosen := chosen, pending := .setting s none, awaiting := true }
    | none =>
      if text = helpOption then r.readFlag helpOption (.help true) value
      else if text = versionOption then r.readFlag versionOption .version value
      else .error (.fault (r.unknownLong text))

/-- The letters behind a single hyphen. Only the first one counts: a known
letter takes effect at once and an unknown one is a fault. -/
def Reading.readShort (r : Reading) (letters : Bytes) : Except Stop Reading :=
  let unknown (shown : List Char) : Except Stop Reading :=
    .error (.fault (.unknownArgument (String.ofList ('-' :: shown)) .asValue .general))
  match Text.Utf8.pieces letters with
  | .scalar 'h' :: _ => r.next fun _ => .error (.help false)
  | .scalar 'V' :: _ => r.next fun _ => .error .version
  | .scalar c :: _ => unknown [c]
  | pieces => unknown (pieces.map Text.Utf8.Piece.char)

/-- An argument by position. -/
def Reading.readPlace (r : Reading) (argument : Bytes) : Except Stop Reading :=
  match r.places with
  | [] =>
    .error (.fault (.unknownArgument (Text.Utf8.toStringLossy argument) .none .general))
  | place :: places =>
    r.next fun chosen =>
      .ok { r with
        chosen := chosen, pending := .positional place argument, awaiting := false,
        places := places }

/-- An argument that does not look like an option: the value of the
pending option, if it awaits one. -/
def Reading.readPlain (r : Reading) (argument : Bytes) : Except Stop Reading :=
  match r.awaiting, r.pending with
  | true, .setting s none =>
    .ok { r with pending := .setting s (some argument), awaiting := false }
  | _, _ => r.readPlace argument

/-- One argument. -/
def Reading.read (r : Reading) (argument : Bytes) : Except Stop Reading :=
  if r.escaped then r.readPlace argument
  else
    match Token.ofArgument argument with
    | .escape => .ok { r with escaped := true, awaiting := false }
    | .long name value => r.readLong name value
    | .short letters => r.readShort letters
    | .plain => r.readPlain argument

/-- Arguments from the left. -/
def Reading.readAll (r : Reading) : List Bytes → Except Stop Reading
  | [] => .ok r
  | argument :: rest =>
    match r.read argument with
    | .error stop => .error stop
    | .ok next => next.readAll rest

/-! ## Environment, positions, defaults -/

/-- The values with those settings of the environment that have not been
given. -/
def Chosen.takeAll (c : Chosen) (e : Environment) : List Setting → Except Fault Chosen
  | [] => .ok c
  | s :: rest =>
    if c.order.contains s then c.takeAll e rest
    else
      match e.value? s with
      | none => c.takeAll e rest
      | some value =>
        match c.take s value with
        | .error f => .error f
        | .ok after => after.takeAll e rest

/-- The positions that have no argument. -/
def Chosen.missing (c : Chosen) : List Positional :=
  (if c.capture.isNone then [.capture] else []) ++
    if c.directory.isNone then [.directory] else []

/-- The settings, each at its default unless it has been taken. -/
def Chosen.complete (c : Chosen) : Except Fault Settings :=
  match c.capture, c.directory with
  | some capture, some directory =>
    .ok
      { capture := capture
        directory := directory
        tshark := c.tshark.getD Setting.tshark.default
        filter := c.filter.getD Setting.filter.default
        mode := c.mode.getD .fields
        logLevel := c.logLevel.getD Setting.logLevel.default }
  | _, _ => .error (.missingArguments c.missing (c.order.map Setting.display))

/-- What follows once all arguments have been read. -/
def Reading.finish (r : Reading) (e : Environment) : Except Fault Settings :=
  match r.settle with
  | .error f => .error f
  | .ok chosen =>
    match chosen.takeAll e Setting.all with
    | .error f => .error f
    | .ok all => all.complete

/-- The settings that arguments and environment come to. The first
argument is the name of the program and sets nothing. -/
def parse (arguments : List Bytes) (e : Environment) : Except Stop Settings :=
  match Reading.start.readAll (arguments.drop 1) with
  | .error stop => .error stop
  | .ok r => (r.finish e).mapError .fault

end CaptureSplit.CommandLine
