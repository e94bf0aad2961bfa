import HeadFinder.CommandLine.Token
import HeadFinder.Numeral.Fraction
import HeadFinder.Report

/-! # Requests

A request is what a command line asks for.  The tokens are taken from left to
right, each as soon as it is complete, so the first misuse is the one that is
reported.
-/
namespace HeadFinder.CommandLine

/-- What to find out. -/
inductive Goal where
  /-- All heads. -/
  | heads
  /-- The revision of one head. -/
  | head (name : String)
  /-- The first head of a name that comes up. -/
  | find (name : String)
  /-- The identity of the repository. -/
  | identity
deriving DecidableEq, Repr

/-- The switch that asks for a goal. -/
def Goal.switch? : Goal → Option Switch
  | heads => none
  | head _ => some (.setting .head)
  | find _ => some (.setting .find)
  | identity => some (.flag .identity)

/-- What the switches say; `none` where nothing is said. -/
structure Choices where
  includes : Option String
  excludes : Option String
  required : List String
  requiredAny : List String
  goal : Goal
  limit : Option Nat
  format : Report.Format
  style : Option String
  noColor : Bool
  program : Option String
  timeout : Option Binary64
  saveDefaults : Bool
  verbosity : Nat
deriving DecidableEq, Repr

/-- What the tokens so far ask for; an operand beyond the address and a word that
names no switch are surplus. -/
structure Reading extends Choices where
  address : Option String
  surplus : List String
deriving DecidableEq, Repr

/-- What a command line asks for. -/
structure Request extends Choices where
  address : String
deriving DecidableEq, Repr

/-- Why there is no request. -/
inductive Halt where
  | help
  | misuse (cause : Misuse)
deriving DecidableEq, Repr

/-! ## Values -/

/-- How addresses of repositories begin. -/
def schemes : List String := ["http://", "https://", "svn://", "svn+", "file://"]

/-- An address, which must begin like one. -/
def readAddress (text : String) : Except Misuse String :=
  if schemes.any (Text.begins · text) then .ok text else .error (.badAddress text)

/-- A limit, which must let something through. -/
def readLimit (text : String) : Except Misuse Nat :=
  match Numeral.readInteger text with
  | .error _ => .error (.badLimit text)
  | .ok n => if n ≤ 0 then .error .lowLimit else .ok n.toNat

/-- A timeout, which must leave some time. -/
def readTimeout (text : String) : Except Misuse Binary64 :=
  match Numeral.readFraction text with
  | none => .error (.badTimeout text)
  | some seconds => if seconds.isAtMostZero then .error .lowTimeout else .ok seconds

/-- A format. -/
def readFormat (text : String) : Except Misuse Report.Format :=
  if text = "text" then .ok .text
  else if text = "json" then .ok .json
  else .error (.badFormat text)

/-! ## Switches -/

namespace Choices

/-- What holds when no switch says otherwise. -/
def standard : Choices where
  includes := none
  excludes := none
  required := []
  requiredAny := []
  goal := .heads
  limit := none
  format := .text
  style := none
  noColor := false
  program := none
  timeout := none
  saveDefaults := false
  verbosity := 0

/-- Asks for a goal, which must not differ in kind from the one before. -/
def aim (choices : Choices) (switch : Switch) (goal : Goal) : Except Misuse Choices :=
  match choices.goal.switch? with
  | some other =>
    if other = switch then .ok { choices with goal } else .error (.excluded switch other)
  | none => .ok { choices with goal }

/-- Gives a value to a setting. -/
def set (choices : Choices) (setting : Setting) (value : String) : Except Misuse Choices :=
  match setting with
  | .includes => .ok { choices with includes := some value }
  | .excludes => .ok { choices with excludes := some value }
  | .require => .ok { choices with required := choices.required ++ [value] }
  | .requireAny => .ok { choices with requiredAny := choices.requiredAny ++ [value] }
  | .head => choices.aim (.setting .head) (.head value)
  | .find => choices.aim (.setting .find) (.find value)
  | .limit => (readLimit value).map fun limit => { choices with limit := some limit }
  | .format => (readFormat value).map fun format => { choices with format }
  | .style => .ok { choices with style := some value }
  | .client => .ok { choices with program := some value }
  | .timeout => (readTimeout value).map fun timeout => { choices with timeout := some timeout }

/-- Gives nothing to a setting: a text is then empty, and a number as good as not
given. -/
def clear (choices : Choices) (setting : Setting) : Except Misuse Choices :=
  match setting with
  | .limit => .ok { choices with limit := none }
  | .format => .ok { choices with format := .text }
  | .timeout => .ok { choices with timeout := none }
  | setting => choices.set setting ""

/-- Raises a flag. -/
def raise (choices : Choices) : Flag → Except Halt Choices
  | .help => .error .help
  | .identity => (choices.aim (.flag .identity) .identity).mapError .misuse
  | .noColor => .ok { choices with noColor := true }
  | .saveDefaults => .ok { choices with saveDefaults := true }
  | .verbose => .ok { choices with verbosity := choices.verbosity + 1 }

end Choices

/-- The flags that a row of letters after a first flag stands for.  What cannot
be read as letters is taken for a value, which no flag has. -/
def cluster (first : Flag) : List Char → Except Misuse (List Flag)
  | [] => .ok [first]
  | letter :: rest =>
    match Flag.ofLetter letter with
    | some next => (cluster next rest).map (first :: ·)
    | none => .error (.valueIgnored first (String.ofList (letter :: rest)))

/-- The flags of a word of letters; an empty value is a value. -/
def flags (first : Flag) : Option String → Except Misuse (List Flag)
  | none => .ok [first]
  | some others =>
    if others = "" then .error (.valueIgnored first others) else cluster first others.toList

/-! ## Readings -/

namespace Reading

/-- Nothing has been read yet. -/
def start : Reading := { Choices.standard with address := none, surplus := [] }

/-- Leaves a word over. -/
def leave (reading : Reading) (word : String) : Reading :=
  { reading with surplus := reading.surplus ++ [word] }

/-- Takes an operand for the address. -/
def locate (reading : Reading) (text : String) : Except Halt Reading := do
  let address ← (readAddress text).mapError .misuse
  return { reading with address := some address }

/-- Gives a value to a setting. -/
def set (reading : Reading) (setting : Setting) (value : String) : Except Halt Reading := do
  let choices ← (reading.toChoices.set setting value).mapError .misuse
  return { reading with toChoices := choices }

/-- Gives the value that is attached to a setting; a separator there is nothing. -/
def attach (reading : Reading) (setting : Setting) (value : String) : Except Halt Reading := do
  if value ≠ "--" then return ← reading.set setting value
  let choices ← (reading.toChoices.clear setting).mapError .misuse
  return { reading with toChoices := choices }

/-- Raises flags. -/
def raise (reading : Reading) (flags : List Flag) : Except Halt Reading := do
  let choices ← flags.foldlM Choices.raise reading.toChoices
  return { reading with toChoices := choices }

/-- Takes tokens.  The separator belongs to the address where it stands next to
it. -/
def take : List Token → Reading → Except Halt Reading
  | [], reading => .ok reading
  | .operand text :: .separator :: rest, reading =>
    match reading.address with
    | none => do take rest (← reading.locate text)
    | some _ => take rest ((reading.leave text).leave "--")
  | .operand text :: rest, reading =>
    match reading.address with
    | none => do take rest (← reading.locate text)
    | some _ => take rest (reading.leave text)
  | .separator :: rest, reading =>
    take rest (if reading.address.isNone then reading else reading.leave "--")
  | .unknown word :: rest, reading => take rest (reading.leave word)
  | .setting setting (some value) :: rest, reading => do
    take rest (← reading.attach setting value)
  | .setting setting none :: .operand value :: rest, reading => do
    take rest (← reading.set setting value)
  | .setting setting none :: _, _ => .error (.misuse (.valueMissing setting))
  | .flag flag none :: rest, reading => do take rest (← reading.raise [flag])
  | .flag flag (some value) :: _, _ => .error (.misuse (.valueIgnored flag value))
  | .letters first others :: rest, reading => do
    let flags ← (flags first others).mapError .misuse
    take rest (← reading.raise flags)

/-- What a reading asks for once there are no more tokens. -/
def finish (reading : Reading) : Except Misuse Request :=
  match reading.address with
  | none => .error .addressMissing
  | some address =>
    if reading.surplus.isEmpty then .ok { reading.toChoices with address }
    else .error (.unrecognized reading.surplus)

end Reading

/-- The request of a command line. -/
def Request.ofWords (words : List String) : Except Halt Request := do
  let tokens ← (Token.ofWords words).mapError .misuse
  let reading ← Reading.take tokens Reading.start
  reading.finish.mapError .misuse

end HeadFinder.CommandLine
