/-! # Cutting, joining and trimming text

Every operation works on the list of code points of a text, so that a law about
it is a law about lists; the text versions only wrap and unwrap.
-/
namespace HeadFinder.Text

/-- The pieces between the separators.  There is always at least one. -/
def pieces (separator : Char) : List Char → List (List Char)
  | [] => [[]]
  | c :: rest =>
    if c = separator then [] :: pieces separator rest
    else (pieces separator rest).modifyHead (c :: ·)

theorem pieces_ne_nil (separator : Char) (cs : List Char) : pieces separator cs ≠ [] := by
  induction cs with
  | nil => simp [pieces]
  | cons c rest ih =>
    simp only [pieces]
    split
    · simp
    · cases h : pieces separator rest with
      | nil => exact absurd h ih
      | cons p ps => simp

/-- No piece holds the separator. -/
theorem not_mem_of_mem_pieces {separator : Char} {cs piece : List Char}
    (h : piece ∈ pieces separator cs) : separator ∉ piece := by
  induction cs generalizing piece with
  | nil => simp_all [pieces]
  | cons c rest ih =>
    simp only [pieces] at h
    split at h
    · rcases List.mem_cons.mp h with rfl | h
      · simp
      · exact ih h
    · rename_i hc
      cases hp : pieces separator rest with
      | nil => exact absurd hp (pieces_ne_nil _ _)
      | cons p ps =>
        rw [hp, List.modifyHead_cons] at h
        rcases List.mem_cons.mp h with rfl | h
        · have := ih (by rw [hp]; exact List.mem_cons_self ..)
          simp only [List.mem_cons, not_or]
          exact ⟨fun e => hc e.symm, this⟩
        · exact ih (by rw [hp]; exact List.mem_cons_of_mem _ h)

/-- Writing the separator between the pieces gives the text back. -/
theorem intercalate_pieces (separator : Char) (cs : List Char) :
    [separator].intercalate (pieces separator cs) = cs := by
  induction cs with
  | nil => simp [pieces, List.intercalate]
  | cons c rest ih =>
    simp only [pieces]
    cases hp : pieces separator rest with
    | nil => exact absurd hp (pieces_ne_nil _ _)
    | cons p ps =>
      rw [hp] at ih
      split
      · rename_i hc
        subst hc
        simp only [List.intercalate, List.intersperse_cons_cons, List.flatten_cons, List.nil_append,
          List.singleton_append]
        exact congrArg (c :: ·) ih
      · rw [List.modifyHead_cons]
        cases ps with
        | nil => simpa [List.intercalate] using ih
        | cons q qs =>
          simp only [List.intercalate, List.intersperse_cons_cons, List.flatten_cons,
            List.cons_append] at ih ⊢
          exact congrArg (c :: ·) ih

/-- The pieces of a text between the separators. -/
def split (separator : Char) (text : String) : List String :=
  (pieces separator text.toList).map String.ofList

/-- What stands before and after the last separator, if there is one. -/
def cutLast (separator : Char) : List Char → Option (List Char × List Char)
  | [] => none
  | c :: rest =>
    match cutLast separator rest with
    | some (before, after) => some (c :: before, after)
    | none => if c = separator then some ([], rest) else none

/-- What stands before and after the first separator, if there is one. -/
def cutFirst (separator : Char) : List Char → Option (List Char × List Char)
  | [] => none
  | c :: rest =>
    if c = separator then some ([], rest)
    else (cutFirst separator rest).map fun (before, after) => (c :: before, after)

/-- Without the characters at the end that satisfy `p`. -/
def trimEnd (p : Char → Bool) (cs : List Char) : List Char :=
  (cs.reverse.dropWhile p).reverse

/-- Without the characters at either end that satisfy `p`. -/
def trim (p : Char → Bool) (cs : List Char) : List Char :=
  trimEnd p (cs.dropWhile p)

/-- Whether `text` begins with `start`. -/
def begins (start text : String) : Bool :=
  start.toList.isPrefixOf text.toList

/-- `text` without its first `n` characters. -/
def dropFirst (n : Nat) (text : String) : String :=
  String.ofList (text.toList.drop n)

/-- Where `needle` first stands in the text, as the text from there on. -/
def seek (needle : List Char) : List Char → Option (List Char)
  | [] => if needle.isEmpty then some [] else none
  | c :: rest =>
    if needle.isPrefixOf (c :: rest) then some (c :: rest) else seek needle rest

/-- Whether `needle` stands somewhere in the text. -/
def contains (needle : List Char) (cs : List Char) : Bool :=
  (seek needle cs).isSome

/-- Without the slashes at the end. -/
def trimEndSlashes (text : String) : String :=
  String.ofList (trimEnd (· = '/') text.toList)

/-- Without the slashes at either end. -/
def trimSlashes (text : String) : String :=
  String.ofList (trim (· = '/') text.toList)

end HeadFinder.Text
