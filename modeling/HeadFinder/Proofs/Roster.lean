import HeadFinder.Receiver
import Mathlib.Data.List.Basic

/-! # Rosters of heads that agree

Heads agree when a name tells the head.  A roster of such heads holds each of them once,
in the order in which they first came up: entering another one leaves it alone or puts
the new one at the end (`heads_add`).  So what is entered first makes up the beginning of
the roster (`heads_prefix_addAll`).
-/
namespace HeadFinder

/-- A name tells the head. -/
def Agree (heads : List Head) : Prop :=
  ∀ head ∈ heads, ∀ other ∈ heads, other.name = head.name → other = head

theorem Agree.mono {heads heads' : List Head} (h : Agree heads)
    (hsub : ∀ head ∈ heads', head ∈ heads) : Agree heads' :=
  fun head hhead other hother => h head (hsub head hhead) other (hsub other hother)

namespace Roster
variable {head : Head} {roster : Roster}

/-- A head that is there is not entered again. -/
theorem heads_add_of_mem (hmem : head ∈ roster.heads)
    (hagree : ∀ other ∈ roster.heads, other.name = head.name → other = head) :
    (roster.add head).heads = roster.heads := by
  unfold add heads at *
  induction roster with
  | nil => cases hmem
  | cons other rest ih =>
    rw [enter]
    by_cases hname : other.name = head.name
    · rw [if_pos hname, hagree other (List.mem_cons_self ..) hname]
    · rw [if_neg hname]
      have hrest : head ∈ rest := by
        rcases List.mem_cons.mp hmem with rfl | hrest
        · exact absurd rfl hname
        · exact hrest
      exact congrArg (other :: ·) (ih hrest fun o ho => hagree o (List.mem_cons_of_mem _ ho))

/-- **Entering a head that agrees with the others** leaves a roster alone or puts the head
at the end. -/
theorem heads_add (hagree : ∀ other ∈ roster.heads, other.name = head.name → other = head) :
    (roster.add head).heads = if head ∈ roster.heads then roster.heads
      else roster.heads ++ [head] := by
  split
  · rename_i hmem
    exact heads_add_of_mem hmem hagree
  · rename_i hnew
    refine heads_add_of_new fun other hother hname => ?_
    rw [hagree other hother hname] at hother
    exact hnew hother

/-- Several heads entered into a roster, one after the other. -/
def addAll (heads : List Head) (roster : Roster) : Roster :=
  heads.foldl (fun roster head => roster.add head) roster

theorem addAll_append (first second : List Head) (roster : Roster) :
    roster.addAll (first ++ second) = (roster.addAll first).addAll second :=
  List.foldl_append

/-- Whatever is entered, no more heads come than are entered. -/
theorem length_add_le (head : Head) (roster : Roster) :
    (roster.add head).heads.length ≤ roster.heads.length + 1 := by
  unfold add heads
  induction roster with
  | nil => exact Nat.le_refl _
  | cons other rest ih =>
    rw [enter]
    split
    · exact Nat.le_succ _
    · exact Nat.succ_le_succ ih

/-- Whatever is entered, no other heads come than are entered. -/
theorem mem_of_mem_heads_add {other : Head} (h : other ∈ (roster.add head).heads) :
    other ∈ roster.heads ∨ other = head := by
  unfold add heads at *
  induction roster with
  | nil => exact Or.inr (List.mem_singleton.mp h)
  | cons first rest ih =>
    rw [enter] at h
    split at h
    · rcases List.mem_cons.mp h with rfl | h
      · exact Or.inr rfl
      · exact Or.inl (List.mem_cons_of_mem _ h)
    · rcases List.mem_cons.mp h with rfl | h
      · exact Or.inl (List.mem_cons_self ..)
      · exact (ih h).imp_left (List.mem_cons_of_mem _)

theorem mem_of_mem_heads_addAll {entered : List Head} (h : head ∈ (roster.addAll entered).heads) :
    head ∈ roster.heads ∨ head ∈ entered := by
  induction entered generalizing roster with
  | nil => exact Or.inl h
  | cons first rest ih =>
    have h : head ∈ ((roster.add first).addAll rest).heads := h
    rcases ih h with h | h
    · exact (mem_of_mem_heads_add h).imp_right fun heq => List.mem_cons.mpr (Or.inl heq)
    · exact Or.inr (List.mem_cons_of_mem _ h)

section Agree
variable {entered : List Head}

theorem mem_heads_add (hagree : ∀ other ∈ roster.heads, other.name = head.name → other = head)
    {other : Head} : other ∈ (roster.add head).heads ↔ other ∈ roster.heads ∨ other = head := by
  rw [heads_add hagree]
  split
  · rename_i hmem
    exact ⟨Or.inl, fun hother => hother.elim id fun heq => heq ▸ hmem⟩
  · rw [List.mem_append, List.mem_singleton]

/-- The heads that are there agree with the first to enter, and the new roster with the
rest. -/
theorem agree_cons (h : Agree (roster.heads ++ head :: entered)) :
    (∀ other ∈ roster.heads, other.name = head.name → other = head) ∧
      Agree ((roster.add head).heads ++ entered) := by
  have hagree : ∀ other ∈ roster.heads, other.name = head.name → other = head :=
    fun other hother => h head (by simp) other (List.mem_append_left _ hother)
  refine ⟨hagree, h.mono fun other hother => ?_⟩
  rw [List.mem_append, mem_heads_add hagree] at hother
  simp only [List.mem_append, List.mem_cons]
  rcases hother with (hother | hother) | hother
  · exact Or.inl hother
  · exact Or.inr (Or.inl hother)
  · exact Or.inr (Or.inr hother)

/-- The heads of a roster are those that were there and those that were entered. -/
theorem mem_heads_addAll (h : Agree (roster.heads ++ entered)) :
    head ∈ (roster.addAll entered).heads ↔ head ∈ roster.heads ∨ head ∈ entered := by
  induction entered generalizing roster with
  | nil => simp [addAll]
  | cons first rest ih =>
    obtain ⟨hagree, hrest⟩ := agree_cons h
    show head ∈ ((roster.add first).addAll rest).heads ↔ _
    rw [ih hrest, mem_heads_add hagree, List.mem_cons, or_assoc]

/-- **What has been entered stays where it is.** -/
theorem heads_prefix_addAll (h : Agree (roster.heads ++ entered)) :
    roster.heads <+: (roster.addAll entered).heads := by
  induction entered generalizing roster with
  | nil => exact List.prefix_refl _
  | cons first rest ih =>
    obtain ⟨hagree, hrest⟩ := agree_cons h
    refine List.IsPrefix.trans ?_ (ih hrest)
    rw [heads_add hagree]
    split
    · exact List.prefix_refl _
    · exact List.prefix_append _ _

/-- A roster of the first heads is the beginning of the roster of all of them. -/
theorem heads_prefix_of_begins {first all : List Head} (h : Agree all) (hfirst : first <+: all) :
    (empty.addAll first).heads <+: (empty.addAll all).heads := by
  obtain ⟨rest, rfl⟩ := hfirst
  rw [addAll_append]
  refine heads_prefix_addAll (h.mono fun head hhead => ?_)
  rw [List.mem_append] at hhead ⊢
  refine hhead.imp_left fun hhead => ?_
  have hfirst : Agree (empty.heads ++ first) := h.mono fun _ => List.mem_append_left _
  exact ((mem_heads_addAll hfirst).mp hhead).resolve_left List.not_mem_nil

end Agree

end Roster

end HeadFinder
