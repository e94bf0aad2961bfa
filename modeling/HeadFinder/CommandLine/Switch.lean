/-! # Switches

A switch is a word of the command line that begins with a dash.  A flag stands
alone; a setting takes a value.  Every switch has a long word, and some flags have
a letter too.
-/
namespace HeadFinder.CommandLine

/-- Switches that stand alone. -/
inductive Flag where
  | help
  | identity
  | noColor
  | saveDefaults
  | verbose
deriving DecidableEq, Repr

/-- Switches that take a value. -/
inductive Setting where
  | includes
  | excludes
  | require
  | requireAny
  | head
  | find
  | limit
  | format
  | style
  | client
  | timeout
deriving DecidableEq, Repr

/-- The long word of a flag. -/
def Flag.word : Flag → String
  | help => "--help"
  | identity => "--uuid"
  | noColor => "--no-color"
  | saveDefaults => "--save-defaults"
  | verbose => "--verbose"

/-- The letter of a flag. -/
def Flag.letter? : Flag → Option Char
  | help => some 'h'
  | verbose => some 'v'
  | _ => none

/-- All flags. -/
def Flag.all : List Flag := [help, identity, noColor, saveDefaults, verbose]

/-- The flag of a letter. -/
def Flag.ofLetter (letter : Char) : Option Flag :=
  all.find? fun flag => flag.letter? = some letter

/-- How a flag is spoken of: by its letter, if it has one, and its long word. -/
def Flag.title (flag : Flag) : String :=
  match flag.letter? with
  | some letter => String.ofList ['-', letter, '/'] ++ flag.word
  | none => flag.word

/-- The word of a setting. -/
def Setting.word : Setting → String
  | includes => "--includes"
  | excludes => "--excludes"
  | require => "--require"
  | requireAny => "--require-any"
  | head => "--head"
  | find => "--find"
  | limit => "--limit"
  | format => "--format"
  | style => "--style"
  | client => "--svn"
  | timeout => "--timeout"

/-- Flags and settings. -/
inductive Switch where
  | flag (flag : Flag)
  | setting (setting : Setting)
deriving DecidableEq, Repr

namespace Switch

/-- The long word of a switch. -/
def word : Switch → String
  | flag f => f.word
  | setting s => s.word

/-- How a switch is spoken of. -/
def title : Switch → String
  | flag f => f.title
  | setting s => s.word

/-- All switches, in the order in which they are listed. -/
def all : List Switch :=
  [flag .help, setting .includes, setting .excludes, setting .require, setting .requireAny,
    setting .head, setting .find, flag .identity, setting .limit, setting .format, setting .style,
    flag .noColor, setting .client, setting .timeout, flag .saveDefaults, flag .verbose]

/-- The switch with the given long word. -/
def ofWord (word : String) : Option Switch :=
  all.find? fun switch => switch.word = word

end Switch
end HeadFinder.CommandLine
