import HeadFinder.Pattern.Grouping
import HeadFinder.Proofs.Ordered

/-! # Grouping loses no pattern

The groups together hold exactly the patterns that extend the start: taking a
leader's group out of the pool shortens the pool, so the pool is used up, and
merging groups only moves members about.
-/
namespace HeadFinder.Pattern

/-! ## The order of patterns tells different patterns apart -/

theorem compareText_eq {a b : String} (h : compareText a b = .eq) : a = b := by
  unfold compareText at h
  split at h
  · cases h
  · rename_i hlt
    split at h
    · cases h
    · rename_i hgt
      exact String.le_antisymm (String.not_lt.mp hgt) (String.not_lt.mp hlt)

theorem compare_eq : ∀ {a b : Pattern}, compare a b = .eq → a = b
  | [], [], _ => rfl
  | [], _ :: _, h => by simp [compare] at h
  | _ :: _, [], h => by simp [compare] at h
  | a :: as, b :: bs, h => by
    simp only [compare] at h
    split at h
    · rename_i heq
      rw [compareText_eq heq, compare_eq h]
    · rename_i hne
      exact absurd h hne

theorem mem_sorted {p : Pattern} {patterns : List Pattern} : p ∈ sorted patterns ↔ p ∈ patterns :=
  Ordered.mem_ofList fun _ _ => compare_eq

theorem startsWith_iff {start path : Pattern} : startsWith start path = true ↔ start <+: path :=
  List.isPrefixOf_iff_prefix

theorem mem_under {p start : Pattern} {patterns : List Pattern} :
    p ∈ under start patterns ↔ p ∈ patterns ∧ start <+: p := by
  rw [under, mem_sorted, List.mem_filter, startsWith_iff]

/-! ## The pool is used up -/

/-- A leader begins with its own key. -/
theorem startsWith_keyOf (size : Nat) (path : Pattern) : startsWith (keyOf size path) path = true :=
  startsWith_iff.mpr (List.take_prefix _ _)

/-- The leader leaves the pool with its group, so the pool gets shorter. -/
theorem length_apart_lt (size : Nat) (path : Pattern) (rest : List Pattern) :
    ((path :: rest).filter fun other =>
      !startsWith (keyOf size (leader size path rest)) other).length < (path :: rest).length :=
  List.length_filter_lt_length_iff_exists.mpr
    ⟨_, leader_mem size path rest, by rw [startsWith_keyOf]; simp⟩

/-- The members of all groups. -/
def members (groups : List Group) : List Pattern :=
  groups.flatMap Group.members

/-- Gathering loses nothing once there is a round for each pattern. -/
theorem mem_members_gather {size rounds : Nat} {pool : List Pattern} (h : pool.length ≤ rounds)
    {p : Pattern} : p ∈ members (gather size rounds pool) ↔ p ∈ pool := by
  induction rounds generalizing pool with
  | zero =>
    rw [List.length_eq_zero_iff.mp (Nat.le_zero.mp h)]
    exact Iff.rfl
  | succ rounds ih =>
    cases pool with
    | nil => exact Iff.rfl
    | cons path rest =>
      simp only [gather, members, List.flatMap_cons, List.mem_append]
      have hshort := length_apart_lt size path rest
      rw [show (gather size rounds _).flatMap Group.members
          = members (gather size rounds _) from rfl,
        ih (by omega), List.mem_filter, List.mem_filter]
      constructor
      · rintro (⟨hp, _⟩ | ⟨hp, _⟩) <;> exact hp
      · intro hp
        cases hstart : startsWith (keyOf size (leader size path rest)) p with
        | true => exact Or.inl ⟨hp, rfl⟩
        | false => exact Or.inr ⟨hp, by simp⟩

/-- Merging only moves members about. -/
theorem mem_members_merge {start : Pattern} {rounds : Nat} {groups : List Group} {p : Pattern} :
    p ∈ members (merge start rounds groups) ↔ p ∈ members groups := by
  induction rounds generalizing groups with
  | zero => exact Iff.rfl
  | succ rounds ih =>
    simp only [merge]
    split
    · exact Iff.rfl
    · rename_i segment _
      rw [ih]
      simp only [members, List.flatMap_append, List.mem_append, List.flatMap_singleton, mem_sorted,
        List.mem_flatMap, List.mem_filter]
      constructor
      · rintro (⟨group, ⟨hg, _⟩, hp⟩ | ⟨group, ⟨hg, _⟩, hp⟩) <;> exact ⟨group, hg, hp⟩
      · rintro ⟨group, hg, hp⟩
        cases hstart : startsWith (start ++ [segment]) group.key with
        | true => exact Or.inr ⟨group, ⟨hg, hstart⟩, hp⟩
        | false => exact Or.inl ⟨group, ⟨hg, by rw [hstart]; rfl⟩, hp⟩

/-- **The groups hold exactly the patterns that properly extend the start.** -/
theorem mem_members_group {patterns : List Pattern} {start p : Pattern} :
    p ∈ members (group patterns start) ↔
      p ∈ patterns ∧ start <+: p ∧ start.length < p.length := by
  have hsort : ∀ groups : List Group,
      p ∈ members (Ordered.sort (fun a b => (compare a.key b.key).isLE) groups) ↔
        p ∈ members groups := by
    intro groups
    simp only [members, List.mem_flatMap, Ordered.mem_sort]
  rw [group, hsort, mem_members_merge, mem_members_gather (Nat.le_refl _), List.mem_filter,
    mem_under, decide_eq_true_iff, and_assoc]

end HeadFinder.Pattern
