import HeadFinder.Proofs.Numeral.Integer
import HeadFinder.Proofs.Text.Pieces
import HeadFinder.Report
import Mathlib.Algebra.Order.Ring.Nat
import Mathlib.Data.List.Count

/-! # Lines of reports

Of the control characters in a text that comes from elsewhere, only tabs and line ends are left
when it is escaped, and they stand where they stood.  So a report has one line to a head, and
nothing in it acts on a terminal, just if no name holds a tab or a line end.
-/
namespace HeadFinder.Report

variable {c d : Char} {text front back : String}

/-! ## Control characters -/

/-- The control characters, those that move and end lines included. -/
def Controls (c : Char) : Prop := c.toNat < 32 ∨ 127 ≤ c.toNat ∧ c.toNat ≤ 159

/-- The control characters that are not escaped: the tab and the line ends. -/
def Moves (c : Char) : Prop := c = '\t' ∨ c = '\n' ∨ c = '\r'

instance : DecidablePred Controls := fun _ => inferInstanceAs (Decidable (_ ∨ _))

instance : DecidablePred Moves := fun _ => inferInstanceAs (Decidable (_ ∨ _))

theorem controls_iff : Controls c ↔ isControl c = true ∨ Moves c := by
  have hmoves : Moves c ↔ c.toNat = 9 ∨ c.toNat = 10 ∨ c.toNat = 13 := by
    simp only [Moves, ← Char.toNat_inj]
    rfl
  rw [hmoves]
  simp only [Controls, isControl, Bool.or_eq_true, Bool.and_eq_true, decide_eq_true_eq, ne_eq]
  omega

theorem Moves.controls (h : Moves c) : Controls c := controls_iff.mpr (.inr h)

theorem isControl_of_moves (h : Moves c) : isControl c = false := by
  rcases h with rfl | rfl | rfl <;> rfl

/-- A text without control characters. -/
def Inert (text : String) : Prop := ∀ c ∈ text.toList, ¬ Controls c

instance : DecidablePred Inert := fun text => List.decidableBAll _ text.toList

/-- A text without tabs and line ends. -/
def Unbroken (text : String) : Prop := ∀ c ∈ text.toList, ¬ Moves c

/-! ## Escaped texts -/

theorem not_controls_hexDigits (width n : Nat) (h : c ∈ Text.hexDigits width n) :
    ¬ Controls c := by
  have hdigit : ∀ n < 16, ¬ Controls (Text.hexDigit n) := by decide
  induction width generalizing n with
  | zero => cases h
  | succ width ih =>
    rcases List.mem_append.mp h with h | h
    · exact ih _ h
    · rw [List.mem_singleton.mp h]
      exact hdigit _ (Nat.mod_lt _ (by decide))

/-- A control character is escaped, unless it is left and stands for itself. -/
theorem mem_reveal (hd : Controls d) : d ∈ reveal c ↔ d = c ∧ Moves c := by
  unfold reveal
  split
  · rename_i hc
    have hmark : ¬ Controls '\\' ∧ ¬ Controls 'x' := by decide
    refine iff_of_false (fun hmem => ?_) fun hmoves => ?_
    · rcases List.mem_cons.mp hmem with rfl | hmem
      · exact hmark.1 hd
      rcases List.mem_cons.mp hmem with rfl | hmem
      · exact hmark.2 hd
      · exact not_controls_hexDigits 2 c.toNat hmem hd
    · rw [isControl_of_moves hmoves.2] at hc
      cases hc
  · rename_i hc
    rw [List.mem_singleton]
    refine ⟨?_, And.left⟩
    rintro rfl
    exact ⟨rfl, (controls_iff.mp hd).resolve_left hc⟩

theorem mem_sanitize (hc : Controls c) :
    c ∈ (sanitize text).toList ↔ Moves c ∧ c ∈ text.toList := by
  rw [sanitize, String.toList_ofList, List.mem_flatMap]
  constructor
  · rintro ⟨d, hd, hmem⟩
    obtain ⟨rfl, hmoves⟩ := (mem_reveal hc).mp hmem
    exact ⟨hmoves, hd⟩
  · rintro ⟨hmoves, hmem⟩
    exact ⟨c, hmem, (mem_reveal hc).mpr ⟨rfl, hmoves⟩⟩

theorem count_reveal (hc : Moves c) (d : Char) : (reveal d).count c = [d].count c := by
  by_cases hd : c = d
  · rw [reveal, if_neg (by rw [← hd, isControl_of_moves hc]; decide)]
  · rw [List.count_eq_zero.mpr fun h => hd ((mem_reveal hc.controls).mp h).1,
      List.count_eq_zero.mpr fun h => hd (List.mem_singleton.mp h)]

/-- Tabs and line ends are left, and none are added. -/
theorem count_sanitize (hc : Moves c) (text : String) :
    (sanitize text).toList.count c = text.toList.count c := by
  rw [sanitize, String.toList_ofList]
  induction text.toList with
  | nil => rfl
  | cons d cs ih =>
    rw [List.flatMap_cons, List.count_append, count_reveal hc, ih, ← List.count_append]
    rfl

/-! ## Lines -/

/-- A line: its end is the only control character in it. -/
def IsLine (text : String) : Prop := ∃ body, text = body ++ "\n" ∧ Inert body

/-- An escaped text as a line, between texts that come from here. -/
def framed (front text back : String) : String := front ++ sanitize text ++ back ++ "\n"

theorem toList_framed : (framed front text back).toList =
    front.toList ++ (sanitize text).toList ++ back.toList ++ ['\n'] := by
  simp only [framed, String.toList_append]
  rfl

theorem mem_framed (hfront : Inert front) (hback : Inert back) (hc : Controls c) :
    c ∈ (framed front text back).toList ↔ c = '\n' ∨ Moves c ∧ c ∈ text.toList := by
  have hfront' : c ∉ front.toList := fun h => hfront c h hc
  have hback' : c ∉ back.toList := fun h => hback c h hc
  rw [toList_framed]
  simp only [List.mem_append, hfront', hback', mem_sanitize hc, List.mem_singleton, false_or,
    or_false]
  exact or_comm

theorem count_framed (hfront : Inert front) (hback : Inert back) :
    (framed front text back).toList.count '\n' = text.toList.count '\n' + 1 := by
  have hend : Moves '\n' := by decide
  rw [toList_framed, List.count_append, List.count_append, List.count_append, count_sanitize hend,
    List.count_eq_zero.mpr fun h => hfront _ h hend.controls,
    List.count_eq_zero.mpr fun h => hback _ h hend.controls]
  simp

theorem inert_append {body : String} : Inert (body ++ text) ↔ Inert body ∧ Inert text := by
  simp only [Inert, String.toList_append, List.mem_append, or_imp, forall_and]

theorem inert_sanitize_iff : Inert (sanitize text) ↔ Unbroken text := by
  constructor
  · intro h c hmem hmoves
    exact h c ((mem_sanitize hmoves.controls).mpr ⟨hmoves, hmem⟩) hmoves.controls
  · intro h c hmem hc
    obtain ⟨hmoves, htext⟩ := (mem_sanitize hc).mp hmem
    exact h c htext hmoves

theorem isLine_framed_iff (hfront : Inert front) (hback : Inert back) :
    IsLine (framed front text back) ↔ Unbroken text := by
  rw [← inert_sanitize_iff]
  constructor
  · rintro ⟨body, hbody, hinert⟩
    rw [framed, String.append_left_inj] at hbody
    rw [← hbody, inert_append, inert_append] at hinert
    exact hinert.1.2
  · intro h
    exact ⟨_, rfl, inert_append.mpr ⟨inert_append.mpr ⟨hfront, h⟩, hback⟩⟩

/-! ## Reports -/

/-- What the line of a head says. -/
def entry (head : Head) : String := sanitize head.name ++ "@" ++ toString head.revision

theorem inert_toString (n : Int) : Inert (toString n) := by
  have hnatural (n : Nat) : Inert (toString (n : Int)) := fun c hc =>
    Numeral.forall_isDigit (¬ Controls ·) (by decide) (Numeral.isDigit_of_mem_toString hc)
  cases n with
  | ofNat n => exact hnatural n
  | negSucc n =>
    have htext : toString (Int.negSucc n) = "-" ++ toString ((n + 1 : Nat) : Int) := rfl
    rw [htext, inert_append]
    exact ⟨by decide, hnatural (n + 1)⟩

theorem inert_revision (revision : Revision) : Inert ("@" ++ toString revision) :=
  inert_append.mpr ⟨by decide, inert_toString revision⟩

theorem line_eq_framed (head : Head) :
    line head = framed "" head.name ("@" ++ toString head.revision) := by
  rw [line, framed, String.empty_append, ← String.append_assoc]

theorem line_eq_entry (head : Head) : line head = entry head ++ "\n" := rfl

/-- A report as it should be: one line to a head, which says its escaped name and its revision,
and no control character but the line ends. -/
structure Ruled (heads : List Head) (text : String) : Prop where
  count : text.toList.count '\n' = heads.length
  controls : ∀ c ∈ text.toList, Controls c → c = '\n'
  lines : Text.split '\n' text = heads.map entry ++ [""]

variable {heads : List Head}

theorem inert_empty : Inert "" := by decide

theorem toList_plain (heads : List Head) :
    (plain heads).toList = heads.flatMap fun head => (line head).toList := by
  rw [plain, String.toList_join, List.flatMap_map]

theorem count_plain (heads : List Head) : (plain heads).toList.count '\n' =
    heads.length + (heads.map fun head => head.name.toList.count '\n').sum := by
  rw [toList_plain]
  induction heads with
  | nil => rfl
  | cons head rest ih =>
    rw [List.flatMap_cons, List.count_append, ih, line_eq_framed,
      count_framed inert_empty (inert_revision _), List.length_cons, List.map_cons, List.sum_cons]
    omega

/-- There are as many lines as heads just if no name adds one. -/
theorem count_plain_eq_iff : (plain heads).toList.count '\n' = heads.length ↔
    ∀ head ∈ heads, '\n' ∉ head.name.toList := by
  rw [count_plain, Nat.add_eq_left, List.sum_eq_zero_iff_forall_eq_nat, List.forall_mem_map]
  simp only [List.count_eq_zero]

theorem mem_plain (hc : Controls c) : c ∈ (plain heads).toList ↔
    ∃ head ∈ heads, c = '\n' ∨ Moves c ∧ c ∈ head.name.toList := by
  simp only [toList_plain, List.mem_flatMap, line_eq_framed,
    mem_framed inert_empty (inert_revision _) hc]

theorem not_mem_entry {head : Head} (h : Unbroken head.name) : '\n' ∉ (entry head).toList := by
  have hinert : Inert (entry head) := by
    rw [entry, String.append_assoc, inert_append]
    exact ⟨inert_sanitize_iff.mpr h, inert_revision _⟩
  exact fun hmem => hinert _ hmem (by decide)

theorem split_plain (h : ∀ head ∈ heads, Unbroken head.name) :
    Text.split '\n' (plain heads) = heads.map entry ++ [""] := by
  induction heads with
  | nil => rfl
  | cons head rest ih =>
    obtain ⟨hhead, hrest⟩ := List.forall_mem_cons.mp h
    have hplain : plain (head :: rest) = entry head ++ String.singleton '\n' ++ plain rest := by
      rw [plain, List.map_cons, String.join_cons, line_eq_entry]
      rfl
    rw [hplain, Text.split_append_singleton, Text.split_of_not_mem (not_mem_entry hhead), ih hrest]
    rfl

/-- **One line to a head.**  A report is as it should be just if no name holds a tab or a line
end. -/
theorem ruled_plain_iff : Ruled heads (plain heads) ↔ ∀ head ∈ heads, Unbroken head.name := by
  constructor
  · intro h head hhead c hmem hmoves
    -- only a line end can be there, and it would be one too many
    obtain rfl : c = '\n' := h.controls c
      ((mem_plain hmoves.controls).mpr ⟨head, hhead, .inr ⟨hmoves, hmem⟩⟩) hmoves.controls
    exact count_plain_eq_iff.mp h.count head hhead hmem
  · intro h
    refine ⟨count_plain_eq_iff.mpr fun head hhead hmem => h head hhead _ hmem (by decide), ?_,
      split_plain h⟩
    intro c hmem hc
    obtain ⟨head, hhead, rfl | ⟨hmoves, hname⟩⟩ := (mem_plain hc).mp hmem
    · rfl
    · exact absurd hmoves (h head hhead c hname)

end HeadFinder.Report
