import HeadFinder.Subversion.Client

/-! # Transcripts

A transcript answers commands in place of the client program: each command gets
the first answer that is meant for it and not used up.  The commands are kept.
-/
namespace HeadFinder.Subversion

/-- An answer, and which commands it is meant for; `uses` is how often it can be
given, if that is limited. -/
structure Answer where
  target : Option String
  depth : Option String
  uses : Option Nat
  ending : Ending
deriving DecidableEq, Repr

namespace Answer

/-- Whether an answer can be given to a command. -/
def fits (answer : Answer) (command : Command) : Bool :=
  (answer.target.map (· == command.target)).getD true &&
  (answer.depth.map (· == command.depth.word)).getD true && answer.uses ≠ some 0

/-- The answer after it has been given. -/
def used (answer : Answer) : Answer :=
  { answer with uses := answer.uses.map (· - 1) }

/-- The ending for a command, and the answers after that. -/
def take (fallback : Ending) (command : Command) : List Answer → Ending × List Answer
  | [] => (fallback, [])
  | answer :: rest =>
    if answer.fits command then (answer.ending, answer.used :: rest)
    else
      let (ending, rest) := take fallback command rest
      (ending, answer :: rest)

end Answer

/-- Answers, the ending of commands that none is meant for, and the commands so
far. -/
structure Transcript where
  answers : List Answer
  fallback : Ending
  commands : List Command
deriving Repr

/-- Transcripts as processes. -/
def Transcript.run : Process Transcript := fun command transcript =>
  let (ending, answers) := Answer.take transcript.fallback command transcript.answers
  (ending, { transcript with answers, commands := transcript.commands ++ [command] })

end HeadFinder.Subversion
