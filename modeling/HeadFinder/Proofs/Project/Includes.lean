import HeadFinder.Project
import HeadFinder.Proofs.Pattern.Tokens

/-! # What a project looks for

Whether a list of includes counts as given is a matter of its text, and what it holds is a
matter of its tokens.  The two differ on texts of commas and blanks alone: they are not blank,
so that the default does not take their place, and there is no token in them either.
-/
namespace HeadFinder

namespace Pattern
variable {text : String}

/-- A text with commas in it and, but for them, nothing but blanks. -/
def Hollow (text : String) : Prop :=
  ',' ∈ text.toList ∧ ∀ c ∈ text.toList, c = ',' ∨ Text.isBlank c = true

/-- A list has a token as soon as a character of it is neither a comma nor a blank. -/
theorem exists_isToken_iff : (∃ token, IsToken text token) ↔
    ∃ c ∈ text.toList, c ≠ ',' ∧ Text.isBlank c = false := by
  constructor
  · rintro ⟨token, htoken⟩
    obtain ⟨front, back, -, before, after, htext, -⟩ := htoken.stands
    obtain ⟨c, cs, hcs⟩ :=
      List.exists_cons_of_ne_nil (mt String.toList_eq_nil_iff.mp htoken.ne_empty)
    have hc : c ∈ token.toList := by rw [hcs]; exact List.mem_cons_self ..
    refine ⟨c, ?_, ?_, htoken.trimmed.1 c (by rw [hcs]; rfl)⟩
    · rw [htext]
      simp [hc]
    · rintro rfl
      exact htoken.comma_not_mem hc
  · rintro ⟨c, hc, hcomma, hblank⟩
    obtain ⟨piece, hpiece, hmem⟩ := Text.exists_mem_pieces hc hcomma
    refine ⟨Text.strip (String.ofList piece), isToken_iff_strip.mpr ⟨?_, String.ofList piece,
      List.mem_map_of_mem hpiece, rfl⟩⟩
    rw [Ne, Text.strip_eq_empty_iff, Text.blank, String.toList_ofList, List.all_eq_true]
    intro hall
    rw [hall c hmem] at hblank
    cases hblank

theorem parse_ne_nil_iff : parse text ≠ [] ↔ ∃ token, IsToken text token := by
  constructor
  · intro hne
    obtain ⟨pattern, hpattern⟩ := List.exists_mem_of_ne_nil _ hne
    obtain ⟨token, htoken, -⟩ := mem_parse.mp hpattern
    exact ⟨token, htoken⟩
  · rintro ⟨token, htoken⟩
    exact List.ne_nil_of_mem (isToken_iff_mem_parse.mp htoken)

/-- The hollow lists are those that are not blank and have no token. -/
theorem hollow_iff :
    Hollow text ↔ Text.blank text = false ∧ ¬ ∃ token, IsToken text token := by
  rw [exists_isToken_iff, Text.blank, List.all_eq_false]
  constructor
  · rintro ⟨hcomma, hall⟩
    refine ⟨⟨',', hcomma, by decide⟩, ?_⟩
    rintro ⟨c, hc, hne, hfirm⟩
    rw [(hall c hc).resolve_left hne] at hfirm
    cases hfirm
  · rintro ⟨⟨c, hc, hfirm⟩, hnone⟩
    have hall : ∀ c ∈ text.toList, c = ',' ∨ Text.isBlank c = true := by
      intro c hc
      by_contra hother
      obtain ⟨hne, hfirm⟩ := not_or.mp hother
      exact hnone ⟨c, hc, hne, Bool.eq_false_iff.mpr hfirm⟩
    exact ⟨(hall c hc).resolve_right hfirm ▸ hc, hall⟩

end Pattern

namespace Project

/-- **What a project looks for.**  If its list of includes has a token, these are the patterns
of its tokens; if there is no list or a blank one, they are the ones of the default; and if the
list is hollow, there are none, which is the only way to look for nothing. -/
theorem quest_includes (address : String) (includes excludes : Option String)
    (criterion : Option Criterion) (base : String) :
    let sought := ((ofAddress address includes excludes criterion).quest base).includes
    ((∃ text, includes = some text ∧ (∃ token, Pattern.IsToken text token) ∧
        ∀ pattern, pattern ∈ sought ↔
          ∃ token, Pattern.IsToken text token ∧ Text.split '/' token = pattern) ∨
      (∀ text ∈ includes, Text.blank text = true) ∧
        sought = [["branches", "*"], ["sandbox", "*"], ["tags", "*"], ["trunk"]] ∨
      ∃ text, includes = some text ∧ Pattern.Hollow text ∧ sought = []) ∧
    (sought = [] ↔ ∃ text, includes = some text ∧ Pattern.Hollow text) := by
  intro sought
  have hsought : sought = Pattern.parse (Pattern.includesOrDefault includes) := rfl
  have hdefault : Pattern.parse Pattern.defaultIncludes =
      [["branches", "*"], ["sandbox", "*"], ["tags", "*"], ["trunk"]] := by decide
  cases includes with
  | none =>
    have hfound : sought = _ := hsought.trans hdefault
    exact ⟨.inr (.inl ⟨by simp, hfound⟩), iff_of_false (by simp [hfound]) (by simp)⟩
  | some text =>
    have hhollow : Pattern.Hollow text ↔ _ := Pattern.hollow_iff
    have hempty : Pattern.parse text ≠ [] ↔ _ := Pattern.parse_ne_nil_iff
    rw [Pattern.includesOrDefault, Pattern.orDefault] at hsought
    cases hblank : Text.blank text with
    | true =>
      rw [hblank, if_pos rfl] at hsought
      have hfound : sought = _ := hsought.trans hdefault
      refine ⟨.inr (.inl ⟨by simpa using hblank, hfound⟩), iff_of_false (by simp [hfound]) ?_⟩
      rintro ⟨_, ⟨⟩, hother⟩
      simp [(hhollow.mp hother).1] at hblank
    | false =>
      rw [hblank, if_neg (by decide)] at hsought
      rw [hsought]
      by_cases htoken : ∃ token, Pattern.IsToken text token
      · refine ⟨.inl ⟨text, rfl, htoken, fun _ => Pattern.mem_parse⟩,
          iff_of_false (hempty.mpr htoken) ?_⟩
        rintro ⟨_, ⟨⟩, hother⟩
        exact (hhollow.mp hother).2 htoken
      · have hnone := Decidable.not_not.mp (mt hempty.mp htoken)
        have hother := hhollow.mpr ⟨hblank, htoken⟩
        exact ⟨.inr (.inr ⟨text, rfl, hother, hnone⟩), iff_of_true hnone ⟨text, rfl, hother⟩⟩

/-- A comma is a list of includes, and there is nothing in it to look for. -/
theorem comma_seeks_nothing :
    ((ofAddress "http://host/repository" (some ",") none none).quest "").includes = [] := by
  decide

end Project
end HeadFinder
