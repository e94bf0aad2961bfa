import HeadFinder.CommandLine.Switch
import HeadFinder.Text.Quoted

/-! # Misuse of the command line

Each misuse is a cause; `Misuse.message` is the only place that words it.
-/
namespace HeadFinder.CommandLine

/-- What can be wrong with the words of a command line. -/
inductive Misuse where
  /-- The word abbreviates more than one switch. -/
  | ambiguous (word : String) (candidates : List Switch)
  /-- The setting stands without its value. -/
  | valueMissing (setting : Setting)
  /-- The flag takes no value. -/
  | valueIgnored (flag : Flag) (value : String)
  /-- The two switches exclude each other. -/
  | excluded (switch other : Switch)
  /-- The text is no address of a repository. -/
  | badAddress (text : String)
  /-- The limit is no integer. -/
  | badLimit (text : String)
  /-- The limit lets nothing through. -/
  | lowLimit
  /-- The timeout is no number. -/
  | badTimeout (text : String)
  /-- The timeout leaves no time. -/
  | lowTimeout
  /-- The format does not exist. -/
  | badFormat (text : String)
  /-- There is no address. -/
  | addressMissing
  /-- Nothing takes these words. -/
  | unrecognized (words : List String)
deriving DecidableEq, Repr

namespace Misuse

/-- A message about one argument. -/
def about (title text : String) : String :=
  "argument " ++ title ++ ": " ++ text

/-- The wording of each cause. -/
def message : Misuse → String
  | ambiguous word candidates =>
    "ambiguous option: " ++ word ++ " could match " ++
      ", ".intercalate (candidates.map Switch.word)
  | valueMissing setting => about setting.word "expected one argument"
  | valueIgnored flag value =>
    about flag.title ("ignored explicit argument " ++ Text.quoted value)
  | excluded switch other => about switch.title ("not allowed with argument " ++ other.title)
  | badAddress text => about "url" ("not a Subversion URL: " ++ Text.quoted text)
  | badLimit text => about Setting.limit.word ("invalid integer value: " ++ Text.quoted text)
  | lowLimit => about Setting.limit.word "value must be >= 1"
  | badTimeout text => about Setting.timeout.word ("invalid number: " ++ Text.quoted text)
  | lowTimeout => about Setting.timeout.word "value must be > 0"
  | badFormat text =>
    about Setting.format.word
      ("invalid choice: " ++ Text.quoted text ++ " (choose from 'text', 'json')")
  | addressMissing => "the following arguments are required: url"
  | unrecognized words => "unrecognized arguments: " ++ " ".intercalate words

end Misuse
end HeadFinder.CommandLine
