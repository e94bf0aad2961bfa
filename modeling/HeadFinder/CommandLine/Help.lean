import HeadFinder.CommandLine.Switch

/-! # Help

What the command line understands, for a reader at a terminal.
-/
namespace HeadFinder.CommandLine

/-- The name of what a setting takes. -/
def Setting.placeholder : Setting → String
  | includes => "INCLUDES"
  | excludes => "EXCLUDES"
  | require => "PATH"
  | requireAny => "PATH"
  | head => "NAME"
  | find => "NAME"
  | limit => "LIMIT"
  | format => "\x7btext,json\x7d"
  | style => "STYLE"
  | client => "SVN"
  | timeout => "TIMEOUT"

/-- What a setting is for. -/
def Setting.purpose : Setting → String
  | includes => "Comma-separated include globs (default from config)."
  | excludes => "Comma-separated exclude globs (default from config)."
  | require => "Only accept heads containing PATH. Repeatable."
  | requireAny => "Only accept heads containing at least one of the --require-any paths. Repeatable."
  | head => "Print the current revision of one head and exit."
  | find => "Crawl with the include/exclude patterns until head NAME is found."
  | limit => "Stop after N heads."
  | format => "Output format."
  | style => "Pygments style name for JSON output."
  | client => "Path to the svn client."
  | timeout => "Seconds per svn call."

/-- What a flag is for. -/
def Flag.purpose : Flag → String
  | help => "show this help message and exit"
  | identity => "Print the repository UUID and exit."
  | noColor => "Disable color output even on TTY."
  | saveDefaults =>
    "Persist the given --includes/--excludes/--svn/--timeout as config defaults."
  | verbose => "Log progress (-vv for debug)."

/-- How a switch is written. -/
def Switch.form : Switch → String
  | flag f =>
    match f.letter? with
    | some letter => String.ofList ['-', letter] ++ ", " ++ f.word
    | none => f.word
  | setting s => s.word ++ " " ++ s.placeholder

/-- What a switch is for. -/
def Switch.purpose : Switch → String
  | flag f => f.purpose
  | setting s => s.purpose

/-- A line of the help: a form, and its purpose below it. -/
def helpEntry (form purpose : String) : String :=
  "  " ++ form ++ "\n                        " ++ purpose ++ "\n"

/-- The help. -/
def help : String :=
  "usage: branchscan [options] url\n\n" ++
    "Discover branch directories in a Subversion repository.\n\n" ++
    "positional arguments:\n" ++
    helpEntry "url" "Base URL of the project in the repository." ++
    "\noptions:\n" ++
    String.join (Switch.all.map fun switch => helpEntry switch.form switch.purpose)

end HeadFinder.CommandLine
