import HeadFinder.Pattern.Glob

/-! # Covering a path segment by segment -/
namespace HeadFinder.Pattern

/-- Two patterns of the same lengths as two paths cover them joined when each
covers its own. -/
theorem covers_append {globs more : Pattern} {names rest : List String}
    (h : globs.length = names.length) :
    covers (globs ++ more) (names ++ rest) = (covers globs names && covers more rest) := by
  induction globs generalizing names with
  | nil =>
    rw [List.length_eq_zero_iff.mp h.symm]
    rfl
  | cons glob globs ih =>
    cases names with
    | nil => cases h
    | cons name names =>
      simp only [List.cons_append, covers]
      rw [ih (Nat.succ.inj h), Bool.and_assoc]

theorem covers_singleton {glob name : String} :
    covers [glob] [name] = Glob.matchesName glob name :=
  Bool.and_true _

/-- A pattern that covers a path covers what extends it. -/
theorem covers_extend {globs : Pattern} {names : List String} (rest : List String)
    (h : covers globs names = true) : covers globs (names ++ rest) = true := by
  induction globs generalizing names with
  | nil => rfl
  | cons glob globs ih =>
    cases names with
    | nil => cases h
    | cons name names =>
      simp only [List.cons_append, covers, Bool.and_eq_true] at h ⊢
      exact ⟨h.1, ih h.2⟩

/-- What is not excluded has no excluded part above it. -/
theorem anyCovers_of_extend {patterns : List Pattern} {names rest : List String}
    (h : anyCovers patterns (names ++ rest) = false) : anyCovers patterns names = false := by
  cases hnames : anyCovers patterns names with
  | false => rfl
  | true =>
    obtain ⟨pattern, hpattern, hcovers⟩ := List.any_eq_true.mp hnames
    have : anyCovers patterns (names ++ rest) = true :=
      List.any_eq_true.mpr ⟨pattern, hpattern, covers_extend rest hcovers⟩
    rw [h] at this
    cases this

end HeadFinder.Pattern
