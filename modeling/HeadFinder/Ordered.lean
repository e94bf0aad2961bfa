/-! # Ordered lists

Sets are strictly ascending lists, built by insertion; sequences are sorted by a
stable insertion.  Both recurse on the list, so they evaluate everywhere.
-/
namespace HeadFinder.Ordered

/-- `a` put into an ascending list, unless it is there already. -/
def insert (compare : α → α → Ordering) (a : α) : List α → List α
  | [] => [a]
  | b :: rest =>
    match compare a b with
    | .lt => a :: b :: rest
    | .eq => b :: rest
    | .gt => b :: insert compare a rest

/-- The members of a list, ascending and each once. -/
def ofList (compare : α → α → Ordering) (as : List α) : List α :=
  as.foldr (insert compare) []

/-- `a` put before the first element that it does not come after. -/
def place (before : α → α → Bool) (a : α) : List α → List α
  | [] => [a]
  | b :: rest => if before a b then a :: b :: rest else b :: place before a rest

/-- A list in order; elements that compare alike keep their order. -/
def sort (before : α → α → Bool) (as : List α) : List α :=
  as.foldr (place before) []

theorem place_perm (before : α → α → Bool) (a : α) (as : List α) :
    (place before a as).Perm (a :: as) := by
  induction as with
  | nil => exact List.Perm.refl _
  | cons b rest ih =>
    simp only [place]
    split
    · exact List.Perm.refl _
    · exact (ih.cons b).trans (List.Perm.swap a b rest)

/-- Sorting neither loses nor invents elements. -/
theorem sort_perm (before : α → α → Bool) (as : List α) : (sort before as).Perm as := by
  induction as with
  | nil => exact List.Perm.refl _
  | cons a rest ih => exact (place_perm before a _).trans (ih.cons a)

/-- The first element of each key, in order. -/
def firsts [BEq κ] (key : α → κ) : List κ → List α → List α
  | _, [] => []
  | seen, a :: rest =>
    if seen.contains (key a) then firsts key seen rest
    else a :: firsts key (key a :: seen) rest

end HeadFinder.Ordered
