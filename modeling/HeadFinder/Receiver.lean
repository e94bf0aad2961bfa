import HeadFinder.Session

/-! # Receivers of heads

Three receivers: one that collects every head, one that stops at a limit, and
one that waits for a name.
-/
namespace HeadFinder

/-- Heads in the order in which their names first came up; a later head takes
the place of an earlier one of its name. -/
def Roster := List Head

namespace Roster

/-- The roster without heads. -/
def empty : Roster := []

/-- The heads of a roster, in order. -/
def heads (roster : Roster) : List Head := roster

/-- A head entered into a list of heads. -/
def enter (head : Head) : List Head → List Head
  | [] => [head]
  | other :: rest => if other.name = head.name then head :: rest else other :: enter head rest

/-- A head entered into a roster. -/
def add (head : Head) (roster : Roster) : Roster :=
  enter head roster.heads

/-- A head with a new name goes to the end. -/
theorem heads_add_of_new {head : Head} {roster : Roster}
    (h : ∀ other ∈ roster.heads, other.name ≠ head.name) :
    (roster.add head).heads = roster.heads ++ [head] := by
  unfold add heads at *
  induction roster with
  | nil => rfl
  | cons other rest ih =>
    have hne := h other (List.mem_cons_self ..)
    simp only [enter, if_neg hne, List.cons_append]
    exact congrArg (other :: ·) (ih fun o ho => h o (List.mem_cons_of_mem _ ho))

end Roster

namespace Receiver

/-- Collects every head. -/
def collecting : Receiver Roster where
  report := Roster.add
  observing _ := true

/-- Collects heads until there are `limit` names. -/
def upTo (limit : Nat) : Receiver Roster where
  report := Roster.add
  observing roster := roster.heads.length < limit

/-- A receiver for a limit, which must let something through. -/
def limited (limit : Int) : Except Failure (Receiver Roster) :=
  if limit < 1 then .error .badLimit else .ok (upTo limit.toNat)

/-- Waits for the head with a given name. -/
def selecting (name : String) : Receiver (Option Head) where
  report head found := if head.name = name then some head else found
  observing found := found.isNone

end Receiver
end HeadFinder
