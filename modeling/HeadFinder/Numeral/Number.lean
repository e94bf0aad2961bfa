import HeadFinder.Numeral.Shortest

/-! # Numbers -/
namespace HeadFinder

/-- A number as it was written: an integer of any size, or a binary fraction. -/
inductive Number where
  | whole (value : Int)
  | binary (value : Binary64)
deriving DecidableEq, Repr

/-- A number as text. -/
def Number.text : Number → String
  | whole n => toString n
  | binary b => b.text

end HeadFinder
