import HeadFinder.Pattern.Glob
import Mathlib.Data.List.Forall2
import Mathlib.Data.List.Infix

/-! # The language of a glob

A glob stands for a set of names, one constructor of `Language` for each way in which it can
begin.  The verdicts of the matcher are kept one for each suffix of the name, and each step
from the end of the glob towards its beginning turns verdicts that are right for the rest into
verdicts that are right for what the step adds.  So all ways to divide a name among the stars
are tried, and a name is accepted just if the glob stands for it (`accepts_iff`).
-/
namespace HeadFinder

namespace Glob

/-- The names that a glob stands for.  A star stands for any run of characters, a question
mark for any one, and each other character for itself. -/
inductive Language : List Char → List Char → Prop
  | nil : Language [] []
  | star {glob rest : List Char} (run : List Char) (h : Language glob rest) :
      Language ('*' :: glob) (run ++ rest)
  | any {glob rest : List Char} (c : Char) (h : Language glob rest) :
      Language ('?' :: glob) (c :: rest)
  | literal {c : Char} {glob rest : List Char} (hstar : c ≠ '*') (hany : c ≠ '?')
      (h : Language glob rest) : Language (c :: glob) (c :: rest)

/-! ## How a name begins -/

theorem language_nil {name : List Char} : Language [] name ↔ name = [] := by
  constructor
  · intro h
    cases h
    rfl
  · rintro rfl
    exact .nil

theorem language_star {glob name : List Char} :
    Language ('*' :: glob) name ↔ ∃ rest, rest <:+ name ∧ Language glob rest := by
  constructor
  · intro h
    cases h with
    | star run h => exact ⟨_, List.suffix_append _ _, h⟩
    | literal hstar _ _ => exact absurd rfl hstar
  · rintro ⟨rest, ⟨run, rfl⟩, h⟩
    exact .star run h

theorem language_any {glob name : List Char} :
    Language ('?' :: glob) name ↔ ∃ c rest, name = c :: rest ∧ Language glob rest := by
  constructor
  · intro h
    cases h with
    | any c h => exact ⟨c, _, rfl, h⟩
    | literal _ hany _ => exact absurd rfl hany
  · rintro ⟨c, rest, rfl, h⟩
    exact .any c h

theorem language_literal {c : Char} {glob name : List Char} (hstar : c ≠ '*') (hany : c ≠ '?') :
    Language (c :: glob) name ↔ ∃ rest, name = c :: rest ∧ Language glob rest := by
  constructor
  · intro h
    cases h with
    | star run h => exact absurd rfl hstar
    | any c h => exact absurd rfl hany
    | literal _ _ h => exact ⟨_, rfl, h⟩
  · rintro ⟨rest, rfl, h⟩
    exact .literal hstar hany h

/-- A glob without wildcards stands for itself alone. -/
theorem language_of_literal {glob name : List Char}
    (h : ∀ c ∈ glob, ¬ (c = '*' ∨ c = '?')) : Language glob name ↔ name = glob := by
  induction glob generalizing name with
  | nil => exact language_nil
  | cons c glob ih =>
    obtain ⟨hfirst, hmore⟩ := List.forall_mem_cons.mp h
    obtain ⟨hstar, hany⟩ := not_or.mp hfirst
    rw [language_literal hstar hany]
    constructor
    · rintro ⟨rest, rfl, hrest⟩
      rw [(ih hmore).mp hrest]
    · rintro rfl
      exact ⟨glob, rfl, (ih hmore).mpr rfl⟩

/-! ## Verdicts -/

/-- The verdicts are right: there is one for each suffix of the name, and it says whether the
suffix is one of the names. -/
def Right (names : List Char → Prop) (name : List Char) (verdicts : List Bool) : Prop :=
  List.Forall₂ (fun suffix verdict => verdict = true ↔ names suffix) name.tails verdicts

section Right
variable {names names' : List Char → Prop} {name : List Char} {c : Char} {verdict : Bool}
  {verdicts : List Bool}

theorem right_nil : Right names [] verdicts ↔ ∃ verdict, verdicts = [verdict] ∧
    (verdict = true ↔ names []) := by
  unfold Right
  rw [List.tails, List.forall₂_cons_left_iff]
  constructor
  · rintro ⟨verdict, _, h, hnil, rfl⟩
    cases hnil
    exact ⟨verdict, rfl, h⟩
  · rintro ⟨verdict, rfl, h⟩
    exact ⟨verdict, [], h, .nil, rfl⟩

theorem right_cons : Right names (c :: name) verdicts ↔ ∃ verdict rest,
    verdicts = verdict :: rest ∧ (verdict = true ↔ names (c :: name)) ∧
      Right names name rest := by
  unfold Right
  rw [List.tails_cons, List.forall₂_cons_left_iff]
  constructor
  · rintro ⟨verdict, rest, h, hrest, rfl⟩
    exact ⟨verdict, rest, rfl, h, hrest⟩
  · rintro ⟨verdict, rest, rfl, h, hrest⟩
    exact ⟨verdict, rest, h, hrest, rfl⟩

theorem Right.congr (h : Right names name verdicts)
    (hsame : ∀ suffix, names suffix ↔ names' suffix) : Right names' name verdicts :=
  List.Forall₂.imp (fun suffix _ hverdict => hverdict.trans (hsame suffix)) h

/-- The first of the right verdicts is about the whole name. -/
theorem Right.headD (h : Right names name verdicts) :
    verdicts.headD false = true ↔ names name := by
  cases name with
  | nil =>
    obtain ⟨verdict, rfl, hverdict⟩ := right_nil.mp h
    exact hverdict
  | cons c name =>
    obtain ⟨verdict, rest, rfl, hverdict, -⟩ := right_cons.mp h
    exact hverdict

/-- The suffixes of a name are the name and those of its rest. -/
theorem exists_suffix_cons :
    (∃ rest, rest <:+ c :: name ∧ names rest) ↔
      names (c :: name) ∨ ∃ rest, rest <:+ name ∧ names rest := by
  simp only [List.suffix_cons_iff, or_and_right, exists_or, exists_eq_left]

theorem right_skipping (h : Right names name verdicts) :
    Right (fun name => ∃ rest, rest <:+ name ∧ names rest) name (skipping verdicts) := by
  induction name generalizing verdicts with
  | nil =>
    obtain ⟨verdict, rfl, hverdict⟩ := right_nil.mp h
    refine right_nil.mpr ⟨verdict || false, rfl, ?_⟩
    simp [hverdict]
  | cons c name ih =>
    obtain ⟨verdict, rest, rfl, hverdict, hrest⟩ := right_cons.mp h
    have hlater := ih hrest
    refine right_cons.mpr ⟨_, _, rfl, ?_, hlater⟩
    rw [Bool.or_eq_true, hverdict, hlater.headD, exists_suffix_cons]

theorem right_taking (p : Char → Bool) (h : Right names name verdicts) :
    Right (fun name => ∃ c rest, name = c :: rest ∧ p c = true ∧ names rest) name
      (taking p name verdicts) := by
  unfold taking
  induction name generalizing verdicts with
  | nil => exact right_nil.mpr ⟨false, rfl, by simp⟩
  | cons c name ih =>
    obtain ⟨verdict, rest, rfl, -, hrest⟩ := right_cons.mp h
    -- The verdict on the rest of the name stands first among those that remain.
    obtain ⟨next, later, rfl⟩ : ∃ next later, rest = next :: later := by
      cases rest with
      | nil => cases name <;> cases hrest
      | cons next later => exact ⟨next, later, rfl⟩
    have hnext : next = true ↔ names name := hrest.headD
    refine right_cons.mpr ⟨p c && next, _, rfl, ?_, ih hrest⟩
    rw [Bool.and_eq_true, hnext]
    constructor
    · exact fun h => ⟨c, name, rfl, h⟩
    · rintro ⟨_, _, heq, h⟩
      cases heq
      exact h

end Right

/-- **The verdicts on the suffixes of a name are right for the language of the glob.** -/
theorem right_verdicts (name glob : List Char) :
    Right (Language glob) name (verdicts name glob) := by
  induction glob with
  | nil =>
    unfold verdicts
    induction name with
    | nil => exact right_nil.mpr ⟨true, rfl, by simp [language_nil]⟩
    | cons c name ih => exact right_cons.mpr ⟨false, _, rfl, by simp [language_nil], ih⟩
  | cons c glob ih =>
    unfold verdicts
    dsimp only
    by_cases hstar : c = '*'
    · subst hstar
      rw [if_pos rfl]
      exact (right_skipping ih).congr fun _ => language_star.symm
    rw [if_neg hstar]
    by_cases hany : c = '?'
    · subst hany
      rw [if_pos rfl]
      refine (right_taking (fun _ => true) ih).congr fun _ => ?_
      rw [language_any]
      simp only [true_and]
    · rw [if_neg hany]
      refine (right_taking (· = c) ih).congr fun _ => ?_
      rw [language_literal hstar hany]
      simp only [decide_eq_true_iff]
      constructor
      · rintro ⟨_, rest, rfl, rfl, h⟩
        exact ⟨rest, rfl, h⟩
      · rintro ⟨rest, rfl, h⟩
        exact ⟨c, rest, rfl, rfl, h⟩

/-- **The matcher is exact**: sound, and complete for any number of stars. -/
theorem accepts_iff {glob name : List Char} : accepts glob name = true ↔ Language glob name :=
  (right_verdicts name glob).headD

theorem isWild_eq_false {segment : String} :
    isWild segment = false ↔ ∀ c ∈ segment.toList, ¬ (c = '*' ∨ c = '?') := by
  unfold isWild
  rw [List.any_eq_false]
  simp only [Bool.or_eq_true, decide_eq_true_iff]

/-- Comparing a segment without wildcards with a name is matching it. -/
theorem matchesName_eq_accepts (segment name : String) :
    matchesName segment name = accepts segment.toList name.toList := by
  unfold matchesName
  split
  · rfl
  · rename_i hwild
    rw [Bool.eq_iff_iff, accepts_iff, decide_eq_true_iff,
      language_of_literal (isWild_eq_false.mp (Bool.eq_false_iff.mpr hwild)), String.toList_inj]

end Glob

namespace Pattern
open Glob (Language)

/-- A pattern covers a path whose first segments are in the languages of its own. -/
theorem covers_iff {globs : Pattern} {path : List String} :
    covers globs path = true ↔
      globs.length ≤ path.length ∧
        List.Forall₂ (fun glob name => Language glob.toList name.toList) globs
          (path.take globs.length) := by
  induction globs generalizing path with
  | nil => simp [covers]
  | cons glob globs ih =>
    cases path with
    | nil => simp [covers]
    | cons name path =>
      rw [covers, Bool.and_eq_true, Glob.matchesName_eq_accepts, Glob.accepts_iff, ih,
        List.length_cons, List.length_cons, List.take_succ_cons, List.forall₂_cons,
        Nat.add_le_add_iff_right, and_left_comm]

/-- **Matching is exact.**  A name matches a segment just if it is in the language of the
segment, so that comparing names with segments that have no wildcards is no more than a
shortcut; and a pattern covers a path just if the path is long enough and each of its first
segments is in the language of the corresponding glob. -/
theorem matching_exact (glob name : String) (globs : Pattern) (path : List String) :
    (Glob.matchesName glob name = true ↔ Language glob.toList name.toList) ∧
    Glob.matchesName glob name = Glob.accepts glob.toList name.toList ∧
    (covers globs path = true ↔ globs.length ≤ path.length ∧
      List.Forall₂ (fun glob name => Language glob.toList name.toList) globs
        (path.take globs.length)) := by
  have hshortcut := Glob.matchesName_eq_accepts glob name
  exact ⟨by rw [hshortcut, Glob.accepts_iff], hshortcut, covers_iff⟩

end Pattern
end HeadFinder
