import HeadFinder.Proofs.Pattern.Gathering

/-! # Merging groups that share the next segment

A round of merging takes out all groups whose keys share a segment and leaves fewer groups
than there were, so that in the end no segment is shared.  It concerns the groups of that one
segment only; hence of all groups with a segment one is left in the end (`sharing_merge`).
-/
namespace HeadFinder.Pattern

/-! ## Shared segments -/

/-- What is found repeated stands twice, one of the times among what came before. -/
theorem of_repeated {α : Type} [BEq α] [LawfulBEq α] {a : α} {seen as : List α}
    (h : repeated seen as = some a) : a ∈ as ∧ a ∈ seen ∨ 2 ≤ as.count a := by
  induction as generalizing seen with
  | nil => cases h
  | cons b rest ih =>
    rw [repeated] at h
    split at h
    · rename_i hseen
      obtain rfl : b = a := Option.some.inj h
      exact Or.inl ⟨List.mem_cons_self .., List.contains_iff_mem.mp hseen⟩
    · rcases ih h with ⟨hmem, hbefore⟩ | hcount
      · rcases List.mem_cons.mp hbefore with rfl | hbefore
        · right
          rw [List.count_cons_self]
          have := List.count_pos_iff.mpr hmem
          omega
        · exact Or.inl ⟨List.mem_cons_of_mem _ hmem, hbefore⟩
      · exact Or.inr (Nat.le_trans hcount List.count_le_count_cons)

theorem of_not_repeated {α : Type} [BEq α] [LawfulBEq α] {seen as : List α}
    (h : repeated seen as = none) : as.Nodup ∧ ∀ a ∈ as, a ∉ seen := by
  induction as generalizing seen with
  | nil => exact ⟨List.nodup_nil, fun _ hmem => absurd hmem List.not_mem_nil⟩
  | cons b rest ih =>
    rw [repeated] at h
    split at h
    · cases h
    · rename_i hnew
      obtain ⟨hnodup, hrest⟩ := ih h
      refine ⟨List.nodup_cons.mpr ⟨fun hmem => hrest b hmem (List.mem_cons_self ..), hnodup⟩, ?_⟩
      refine List.forall_mem_cons.mpr ⟨fun hmem => hnew (List.contains_iff_mem.mpr hmem), ?_⟩
      exact fun a ha hmem => hrest a ha (List.mem_cons_of_mem _ hmem)

section Merge
variable {start : Pattern} {segment other : String} {rounds : Nat} {groups : List Group}
  {group : Group}

/-- The groups whose keys go on from the start with a segment. -/
def sharing (start : Pattern) (segment : String) (groups : List Group) : List Group :=
  groups.filter fun group => goesOn start segment group.key

/-- The groups whose keys do not. -/
def keeping (start : Pattern) (segment : String) (groups : List Group) : List Group :=
  groups.filter fun group => !goesOn start segment group.key

/-- The group of all patterns of some groups, under the next segment alone. -/
def joined (start : Pattern) (segment : String) (groups : List Group) : Group :=
  ⟨start ++ [segment], sorted (members groups)⟩

theorem goesOn_joined (start : Pattern) (segment : String) (groups : List Group) :
    goesOn start segment (joined start segment groups).key = true :=
  startsWith_iff.mpr List.prefix_rfl

/-- One round of merging. -/
def mergeAt (start : Pattern) (segment : String) (groups : List Group) : List Group :=
  keeping start segment groups ++ [joined start segment (sharing start segment groups)]

theorem merge_of_shared (rounds : Nat)
    (h : sharedSegment (groups.map Group.key) start.length = some segment) :
    merge start (rounds + 1) groups = merge start rounds (mergeAt start segment groups) := by
  rw [merge, h]
  rfl

theorem merge_of_apart (rounds : Nat)
    (h : sharedSegment (groups.map Group.key) start.length = none) :
    merge start rounds groups = groups := by
  cases rounds with
  | zero => rfl
  | succ rounds => rw [merge, h]

/-- A segment is next in as many keys as there are groups that share it. -/
theorem count_next (h : Reaching start groups) (segment : String) :
    ((groups.map Group.key).filterMap (·[start.length]?)).count segment =
      (sharing start segment groups).length := by
  unfold sharing
  induction groups with
  | nil => rfl
  | cons group groups ih =>
    obtain ⟨hgroup, hmore⟩ := List.forall_mem_cons.mp h
    obtain ⟨_, hreach⟩ := hgroup
    have hgoes : goesOn start segment group.key = true ↔
        group.key[start.length]? = some segment :=
      goesOn_iff.trans (and_iff_right (goesOn_iff.mp hreach).1)
    rw [List.map_cons, List.filterMap_cons, List.filter_cons]
    cases hnext : group.key[start.length]? with
    | none =>
      rw [hnext] at hgoes
      rw [if_neg (by simp [hgoes])]
      exact ih hmore
    | some next =>
      rw [hnext, Option.some.injEq] at hgoes
      dsimp only
      rw [List.count_cons, ih hmore]
      by_cases heq : next = segment
      · rw [if_pos (hgoes.mpr heq), if_pos (beq_iff_eq.mpr heq), List.length_cons]
      · rw [if_neg (mt hgoes.mp heq), if_neg (mt beq_iff_eq.mp heq), Nat.add_zero]

theorem length_sharing_of_shared (h : Reaching start groups)
    (hshared : sharedSegment (groups.map Group.key) start.length = some segment) :
    2 ≤ (sharing start segment groups).length := by
  rw [← count_next h]
  rcases of_repeated hshared with ⟨-, hbefore⟩ | hcount
  · cases hbefore
  · exact hcount

theorem length_sharing_of_apart (h : Reaching start groups)
    (hshared : sharedSegment (groups.map Group.key) start.length = none) (segment : String) :
    (sharing start segment groups).length ≤ 1 := by
  rw [← count_next h]
  exact List.nodup_iff_count.mp (of_not_repeated hshared).1 segment

theorem Reaching.mergeAt (h : Reaching start groups) (segment : String) :
    Reaching start (mergeAt start segment groups) := by
  intro group hgroup
  rcases List.mem_append.mp hgroup with hgroup | hgroup
  · exact h group (List.mem_of_mem_filter hgroup)
  · rw [List.mem_singleton.mp hgroup]
    exact ⟨segment, goesOn_joined ..⟩

/-- Merging leaves fewer groups. -/
theorem length_mergeAt_lt (h : Reaching start groups)
    (hshared : sharedSegment (groups.map Group.key) start.length = some segment) :
    (mergeAt start segment groups).length < groups.length := by
  have htwo := length_sharing_of_shared h hshared
  have hall : groups.length = (sharing start segment groups).length +
      (keeping start segment groups).length :=
    List.length_eq_length_filter_add _
  rw [mergeAt, List.length_append, List.length_singleton]
  omega

/-- **After as many rounds as there are groups no segment is shared**, and further rounds
change nothing. -/
theorem merge_ends (h : Reaching start groups) (hrounds : groups.length ≤ rounds)
    (extra : Nat) :
    merge start (rounds + extra) groups = merge start rounds groups ∧
      sharedSegment ((merge start rounds groups).map Group.key) start.length = none := by
  induction rounds generalizing groups with
  | zero =>
    have hnone : sharedSegment (([] : List Group).map Group.key) start.length = none := rfl
    rw [List.length_eq_zero_iff.mp (Nat.le_zero.mp hrounds), merge_of_apart _ hnone,
      merge_of_apart _ hnone]
    exact ⟨rfl, hnone⟩
  | succ rounds ih =>
    cases hshared : sharedSegment (groups.map Group.key) start.length with
    | none =>
      rw [merge_of_apart _ hshared, merge_of_apart _ hshared]
      exact ⟨rfl, hshared⟩
    | some segment =>
      have hshort := length_mergeAt_lt h hshared
      rw [Nat.add_right_comm, merge_of_shared _ hshared, merge_of_shared _ hshared]
      exact ih (h.mergeAt _) (by omega)

theorem Reaching.merge (h : Reaching start groups) (rounds : Nat) :
    Reaching start (merge start rounds groups) := by
  induction rounds generalizing groups with
  | zero => exact h
  | succ rounds ih =>
    cases hshared : sharedSegment (groups.map Group.key) start.length with
    | none =>
      rw [merge_of_apart _ hshared]
      exact h
    | some segment =>
      rw [merge_of_shared _ hshared]
      exact ih (h.mergeAt segment)

/-- **No key comes up twice while groups are merged** either: the groups that share the next
segment leave before their joined group takes it as its key. -/
theorem nodup_keys_merge (h : (groups.map Group.key).Nodup) (rounds : Nat) :
    ((merge start rounds groups).map Group.key).Nodup := by
  induction rounds generalizing groups with
  | zero => exact h
  | succ rounds ih =>
    cases hshared : sharedSegment (groups.map Group.key) start.length with
    | none =>
      rw [merge_of_apart _ hshared]
      exact h
    | some segment =>
      rw [merge_of_shared _ hshared]
      refine ih ?_
      rw [mergeAt, List.map_append, List.map_singleton, List.nodup_append]
      refine ⟨h.sublist (List.filter_sublist.map _), List.pairwise_singleton _ _, ?_⟩
      intro key hkey other hother heq
      obtain ⟨group, hgroup, rfl⟩ := List.mem_map.mp hkey
      have hkept := (List.mem_filter.mp hgroup).2
      rw [heq, List.mem_singleton.mp hother, goesOn_joined] at hkept
      cases hkept

/-- What becomes of the groups that share a segment: several are joined. -/
def settled (start : Pattern) (segment : String) : List Group → List Group
  | [] => []
  | [group] => [group]
  | groups => [joined start segment groups]

theorem settled_of_length_le (h : groups.length ≤ 1) : settled start segment groups = groups := by
  match groups with
  | [] => rfl
  | [group] => rfl
  | _ :: _ :: _ => simp at h

theorem settled_of_two_le (h : 2 ≤ groups.length) :
    settled start segment groups = [joined start segment groups] := by
  match groups with
  | [] => simp at h
  | [group] => simp at h
  | _ :: _ :: _ => rfl

theorem sharing_mergeAt_self :
    sharing start segment (mergeAt start segment groups) =
      [joined start segment (sharing start segment groups)] := by
  have hkept : sharing start segment (keeping start segment groups) = [] := by
    unfold sharing keeping
    rw [List.filter_filter, List.filter_eq_nil_iff]
    simp
  rw [mergeAt, sharing, List.filter_append]
  exact congrArg₂ (· ++ ·) hkept (List.filter_cons_of_pos (goesOn_joined ..))

theorem sharing_mergeAt_of_ne (hne : other ≠ segment) :
    sharing start other (mergeAt start segment groups) = sharing start other groups := by
  have hjoined :
      ¬ goesOn start other (joined start segment (sharing start segment groups)).key = true :=
    fun hgoes => hne (goesOn_unique hgoes (goesOn_joined ..))
  rw [mergeAt, sharing, List.filter_append, List.filter_cons, if_neg hjoined, List.filter_nil,
    List.append_nil, keeping, List.filter_filter]
  refine List.filter_congr fun group _ => ?_
  rw [Bool.eq_iff_iff, Bool.and_eq_true]
  refine ⟨And.left, fun hother => ⟨hother, ?_⟩⟩
  rw [Bool.not_eq_true', Bool.eq_false_iff]
  exact fun hgoes => hne (goesOn_unique hother hgoes)

/-- **Of the groups that share a segment one is left**: the only one, or the joined one. -/
theorem sharing_merge (h : Reaching start groups)
    (hrounds : groups.length ≤ rounds) (segment : String) :
    sharing start segment (merge start rounds groups) =
      settled start segment (sharing start segment groups) := by
  induction rounds generalizing groups with
  | zero =>
    rw [List.length_eq_zero_iff.mp (Nat.le_zero.mp hrounds)]
    rfl
  | succ rounds ih =>
    cases hshared : sharedSegment (groups.map Group.key) start.length with
    | none =>
      rw [merge_of_apart _ hshared,
        settled_of_length_le (length_sharing_of_apart h hshared segment)]
    | some shared =>
      have hshort := length_mergeAt_lt h hshared
      rw [merge_of_shared _ hshared, ih (h.mergeAt _) (by omega)]
      by_cases hsame : segment = shared
      · subst hsame
        rw [sharing_mergeAt_self, settled_of_two_le (length_sharing_of_shared h hshared)]
        rfl
      · rw [sharing_mergeAt_of_ne hsame]

end Merge

end HeadFinder.Pattern
