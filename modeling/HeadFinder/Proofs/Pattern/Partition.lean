import HeadFinder.Proofs.Pattern.Merging

/-! # Groups partition the patterns by the next segment

What goes on with one segment is gathered on its own, and merging leaves one group of it.  So
there is one group for each segment that comes next after the start, which has exactly the
patterns that go on with it.  Its key is the literal beginning of the pattern that gets
furthest without a wildcard, if all have it in common; otherwise several groups were gathered
and then merged, and the key is only as long as it must be.
-/
namespace HeadFinder.Pattern

variable {start : Pattern} {segment : String} {rounds : Nat} {pool : List Pattern}
  {patterns : List Pattern}

/-! ## The patterns that extend a start -/

/-- The patterns that extend a start, ascending and each once. -/
def extending (patterns : List Pattern) (start : Pattern) : List Pattern :=
  (under start patterns).filter fun path => start.length < path.length

theorem mem_extending {path : Pattern} : path ∈ extending patterns start ↔
    path ∈ patterns ∧ start <+: path ∧ start.length < path.length := by
  rw [extending, List.mem_filter, mem_under, decide_eq_true_iff, and_assoc]

theorem ascending_extending (patterns : List Pattern) (start : Pattern) :
    Ordered.Ascending compare (extending patterns start) :=
  List.Pairwise.filter _ (Ordered.ascending_ofList _)

theorem exists_goesOn_of_mem_extending {path : Pattern} (h : path ∈ extending patterns start) :
    ∃ segment, goesOn start segment path = true := by
  obtain ⟨-, hstart, hlt⟩ := mem_extending.mp h
  exact exists_goesOn hstart hlt

/-- Those of them that go on with a segment. -/
def going (patterns : List Pattern) (start : Pattern) (segment : String) : List Pattern :=
  (extending patterns start).filter fun path => path[start.length]? = some segment

theorem going_eq_filter (patterns : List Pattern) (start : Pattern) (segment : String) :
    going patterns start segment = (extending patterns start).filter (goesOn start segment) := by
  refine List.filter_congr fun path hpath => ?_
  rw [Bool.eq_iff_iff, decide_eq_true_iff, goesOn_iff]
  exact (and_iff_right (mem_extending.mp hpath).2.1).symm

theorem goesOn_of_mem_going {path : Pattern} (h : path ∈ going patterns start segment) :
    goesOn start segment path = true := by
  rw [going_eq_filter] at h
  exact (List.mem_filter.mp h).2

theorem ascending_going (patterns : List Pattern) (start : Pattern) (segment : String) :
    Ordered.Ascending compare (going patterns start segment) :=
  List.Pairwise.filter _ (ascending_extending patterns start)

/-! ## Keys -/

/-- The key of the patterns that go on with a segment: the literal beginning of the first
whose literal run is longest if they all have it, and else as little as can be. -/
def keyFor (start : Pattern) (segment : String) (paths : List Pattern) : Pattern :=
  match paths.argmax (nextWild · start.length) with
  | none => start ++ [segment]
  | some best =>
    let key := best.take (max (nextWild best start.length) (start.length + 1))
    if paths.all (startsWith key) then key else start ++ [segment]

theorem goesOn_keyFor (h : ∀ path ∈ pool, goesOn start segment path = true) :
    goesOn start segment (keyFor start segment pool) = true := by
  have hleast : goesOn start segment (start ++ [segment]) = true :=
    startsWith_iff.mpr List.prefix_rfl
  unfold keyFor
  split
  · exact hleast
  · rename_i best hbest
    dsimp only
    split
    · exact (goesOn_keyOf start segment best).trans (h best (List.argmax_mem hbest))
    · exact hleast

theorem startsWith_keyFor (h : ∀ path ∈ pool, goesOn start segment path = true) :
    ∀ path ∈ pool, startsWith (keyFor start segment pool) path = true := by
  intro path hpath
  unfold keyFor
  split
  · exact h path hpath
  · dsimp only
    split
    · rename_i hall
      exact List.all_eq_true.mp hall path hpath
    · exact h path hpath

/-- The patterns that go on with one segment come to be one group. -/
theorem settled_gather (hne : pool ≠ []) (hsorted : Ordered.Ascending compare pool)
    (hrounds : pool.length ≤ rounds) :
    settled start segment (gather start.length rounds pool) =
      [⟨keyFor start segment pool, pool⟩] := by
  obtain ⟨path, rest, rfl⟩ := List.exists_cons_of_ne_nil hne
  obtain ⟨rounds, rfl⟩ : ∃ n, rounds = n + 1 := by
    cases rounds with
    | zero => simp at hrounds
    | succ n => exact ⟨n, rfl⟩
  have hall : ∀ p, p ∈ members (gather start.length (rounds + 1) (path :: rest)) ↔
      p ∈ path :: rest := fun _ => mem_members_gather hrounds
  have hshort := length_apart_lt start.length path rest
  have hkeyFor : keyFor start segment (path :: rest) =
      if (path :: rest).all (startsWith (keyOf start.length (leader start.length path rest)))
        then keyOf start.length (leader start.length path rest) else start ++ [segment] := by
    rw [keyFor, argmax_eq_leader]
    rfl
  rw [hkeyFor]
  rw [gather] at hall ⊢
  generalize keyOf start.length (leader start.length path rest) = key at *
  by_cases hcommon : (path :: rest).all (startsWith key) = true
  · have hnone : (path :: rest).filter (fun other => !startsWith key other) = [] := by
      rw [List.filter_eq_nil_iff]
      intro other hother
      rw [List.all_eq_true.mp hcommon other hother]
      decide
    rw [if_pos hcommon, hnone, gather_nil, settled,
      List.filter_eq_self.mpr (List.all_eq_true.mp hcommon)]
  · rw [if_neg hcommon, settled_of_two_le, joined]
    · congr 2
      refine Ordered.eq_of_ascending (Ordered.ascending_ofList _) hsorted fun p => ?_
      exact mem_sorted.trans (hall p)
    · -- A pattern without the key is gathered after the first group.
      rw [List.all_eq_true] at hcommon
      push Not at hcommon
      obtain ⟨other, hother, hapart⟩ := hcommon
      have hmem : other ∈ (path :: rest).filter fun other => !startsWith key other :=
        List.mem_filter.mpr ⟨hother, by simpa using hapart⟩
      have hgathered : other ∈ members (gather start.length rounds
          ((path :: rest).filter fun other => !startsWith key other)) :=
        (mem_members_gather (by omega)).mpr hmem
      obtain ⟨group, hgroup, -⟩ := List.mem_flatMap.mp hgathered
      have := List.length_pos_of_mem hgroup
      rw [List.length_cons]
      omega

/-! ## Groups -/

/-- The group of the patterns that go on with a segment. -/
def groupFor (patterns : List Pattern) (start : Pattern) (segment : String) : Group :=
  ⟨keyFor start segment (going patterns start segment), going patterns start segment⟩

theorem goesOn_groupFor (patterns : List Pattern) (start : Pattern) (segment : String) :
    goesOn start segment (groupFor patterns start segment).key = true :=
  goesOn_keyFor fun _ => goesOn_of_mem_going

/-- The groups that are gathered. -/
def gathered (patterns : List Pattern) (start : Pattern) : List Group :=
  gather start.length (extending patterns start).length (extending patterns start)

theorem reaching_gathered (patterns : List Pattern) (start : Pattern) :
    Reaching start (gathered patterns start) :=
  reaching_gather fun _ => exists_goesOn_of_mem_extending

/-- The groups once they are merged. -/
def merged (patterns : List Pattern) (start : Pattern) : List Group :=
  merge start (gathered patterns start).length (gathered patterns start)

theorem sharing_merged (patterns : List Pattern) (start : Pattern) (segment : String) :
    sharing start segment (merged patterns start) =
      if going patterns start segment = [] then [] else [groupFor patterns start segment] := by
  have hgather : sharing start segment (gathered patterns start) =
      gather start.length (extending patterns start).length (going patterns start segment) := by
    rw [going_eq_filter]
    exact filter_gather (fun _ => exists_goesOn_of_mem_extending) (Nat.le_refl _)
  rw [merged, sharing_merge (reaching_gathered patterns start) (Nat.le_refl _), hgather]
  by_cases hnil : going patterns start segment = []
  · rw [if_pos hnil, hnil, gather_nil]
    rfl
  · rw [if_neg hnil]
    exact settled_gather hnil (ascending_going patterns start segment) (List.length_filter_le _ _)

/-- The groups are those of the segments that come next. -/
theorem mem_group_iff {group : Group} : group ∈ Pattern.group patterns start ↔
    ∃ segment, going patterns start segment ≠ [] ∧ group = groupFor patterns start segment := by
  have hsort : group ∈ Pattern.group patterns start ↔ group ∈ merged patterns start :=
    Ordered.mem_sort
  rw [hsort]
  constructor
  · intro hmem
    obtain ⟨segment, hsegment⟩ := (reaching_gathered patterns start).merge _ group hmem
    have hshare : group ∈ sharing start segment (merged patterns start) :=
      List.mem_filter.mpr ⟨hmem, hsegment⟩
    rw [sharing_merged] at hshare
    split at hshare
    · cases hshare
    · rename_i hne
      exact ⟨segment, hne, List.mem_singleton.mp hshare⟩
  · rintro ⟨segment, hne, rfl⟩
    have hshare : groupFor patterns start segment ∈
        sharing start segment (merged patterns start) := by
      rw [sharing_merged, if_neg hne]
      exact List.mem_singleton_self _
    exact List.mem_of_mem_filter hshare

/-- Groups by their keys. -/
def compareKeys (left right : Group) : Ordering :=
  compare left.key right.key

instance : Std.TransCmp compareKeys where
  eq_swap := by
    intro a b
    exact (Std.OrientedCmp.eq_swap : compare a.key b.key = (compare b.key a.key).swap)
  isLE_trans := by
    intro a b c hab hbc
    exact (Std.TransCmp.isLE_trans hab hbc : (compare a.key c.key).isLE = true)

/-- Different groups have different keys, so they are in strictly ascending order. -/
theorem ascending_group (patterns : List Pattern) (start : Pattern) :
    Ordered.Ascending compareKeys (group patterns start) := by
  have hsorted : (group patterns start).Pairwise fun a b => (compareKeys a b).isLE = true := by
    refine Ordered.pairwise_sort (fun a b hab => ?_) (fun a b c => Std.TransCmp.isLE_trans) _
    rw [Std.OrientedCmp.gt_iff_lt.mp (Ordering.isLE_eq_false.mp hab)]
    rfl
  have hkeys : ((group patterns start).map Group.key).Nodup := by
    have hnodup : ((merged patterns start).map Group.key).Nodup :=
      nodup_keys_merge (nodup_keys_gather _ _ _) _
    exact ((Ordered.sort_perm _ _).map Group.key).nodup_iff.mpr hnodup
  refine (hsorted.and (List.pairwise_map.mp hkeys)).imp ?_
  rintro a b ⟨hle, hne⟩
  cases hcompare : compareKeys a b with
  | lt => rfl
  | eq => exact absurd (compare_eq hcompare) hne
  | gt =>
    rw [hcompare] at hle
    cases hle

/-- The segments that come next, ascending and each once. -/
def nextSegments (patterns : List Pattern) (start : Pattern) : List String :=
  Ordered.ofList compareText ((extending patterns start).filterMap (·[start.length]?))

theorem mem_nextSegments : segment ∈ nextSegments patterns start ↔
    ∃ path ∈ extending patterns start, path[start.length]? = some segment := by
  rw [nextSegments, Ordered.mem_ofList fun _ _ => compareText_eq, List.mem_filterMap]

theorem going_ne_nil_iff : going patterns start segment ≠ [] ↔
    segment ∈ nextSegments patterns start := by
  rw [mem_nextSegments, going, Ne, List.filter_eq_nil_iff]
  push Not
  simp only [decide_eq_true_iff]

/-- **The groups are those of the segments that come next, in their order.** -/
theorem group_eq_map (patterns : List Pattern) (start : Pattern) :
    group patterns start = (nextSegments patterns start).map (groupFor patterns start) := by
  have hsegments : Ordered.Ascending compareText (nextSegments patterns start) :=
    Ordered.ascending_ofList _
  refine Ordered.eq_of_ascending (ascending_group patterns start) ?_ fun group => ?_
  · refine List.pairwise_map.mpr (hsegments.imp fun hlt => ?_)
    exact compare_of_goesOn (goesOn_groupFor ..) (goesOn_groupFor ..) hlt
  · simp only [mem_group_iff, List.mem_map, going_ne_nil_iff, eq_comm]

/-- Nothing is lost, repeated or moved. -/
theorem members_group (patterns : List Pattern) (start : Pattern) :
    members (group patterns start) = extending patterns start := by
  have hsegments : Ordered.Ascending compareText (nextSegments patterns start) :=
    Ordered.ascending_ofList _
  refine Ordered.eq_of_ascending ?_ (ascending_extending patterns start) fun path => ?_
  · rw [group_eq_map, members, List.flatMap_map]
    refine List.pairwise_flatMap.mpr ⟨fun segment _ => ascending_going patterns start segment, ?_⟩
    refine hsegments.imp fun hlt left hleft right hright => ?_
    exact compare_of_goesOn (goesOn_of_mem_going hleft) (goesOn_of_mem_going hright) hlt
  · rw [mem_members_group, mem_extending]

/-- **Grouping is grouping by the next segment.**  Gathering and merging both end, and no key
is ever taken by two groups.  The patterns that extend the start, ascending and each once, are
cut into one group for each segment that comes next: it has those with that segment, in order,
under the longest literal beginning of the first whose literal run is longest, or, if they do
not all have that in common, under the segment alone.  The keys are strictly ascending, and one
group after the other gives all the patterns; each key goes beyond the start, and each pattern
of a group begins with its key. -/
theorem group_partitions (patterns : List Pattern) (start : Pattern) :
    let pool := extending patterns start
    let gathered := gather start.length pool.length pool
    let merged := merge start gathered.length gathered
    let groups := group patterns start
    ((∀ extra, gather start.length (pool.length + extra) pool = gathered ∧
        merge start (gathered.length + extra) gathered = merged) ∧
      sharedSegment (merged.map Group.key) start.length = none ∧
      ∀ rounds, ((gather start.length rounds pool).map Group.key).Nodup ∧
        ((merge start rounds gathered).map Group.key).Nodup) ∧
    (Ordered.Ascending compare pool ∧
      ∀ path, path ∈ pool ↔ path ∈ patterns ∧ start <+: path ∧ start.length < path.length) ∧
    (∃ segments, Ordered.Ascending compareText segments ∧
      (∀ segment, segment ∈ segments ↔ ∃ path ∈ pool, path[start.length]? = some segment) ∧
      groups = segments.map fun segment =>
        let own := pool.filter fun path => path[start.length]? = some segment
        ⟨keyFor start segment own, own⟩) ∧
    Ordered.Ascending compare (groups.map Group.key) ∧
    groups.flatMap Group.members = pool ∧
    ∀ group ∈ groups, start <+: group.key ∧ start.length < group.key.length ∧
      ∀ path ∈ group.members, group.key <+: path := by
  intro pool gathered merged groups
  have hreaching : Reaching start gathered := reaching_gathered patterns start
  have hmerge := merge_ends hreaching (Nat.le_refl _)
  refine ⟨⟨fun extra => ⟨gather_add (Nat.le_refl _) extra, (hmerge extra).1⟩, (hmerge 0).2,
    fun rounds => ?_⟩, ⟨ascending_extending patterns start, fun _ => mem_extending⟩, ?_, ?_,
    members_group patterns start, ?_⟩
  · exact ⟨nodup_keys_gather _ rounds _, nodup_keys_merge (nodup_keys_gather _ _ _) rounds⟩
  · exact ⟨nextSegments patterns start, Ordered.ascending_ofList _, fun _ => mem_nextSegments,
      group_eq_map patterns start⟩
  · exact List.pairwise_map.mpr (ascending_group patterns start)
  · intro group hgroup
    obtain ⟨segment, -, rfl⟩ := mem_group_iff.mp hgroup
    have hkey := goesOn_groupFor patterns start segment
    obtain ⟨hstart, hnext⟩ := goesOn_iff.mp hkey
    refine ⟨hstart, (List.getElem?_eq_some_iff.mp hnext).1, fun path hpath => ?_⟩
    exact startsWith_iff.mp (startsWith_keyFor (fun _ => goesOn_of_mem_going) path hpath)

/-- The literal beginning of `a/b/*` is not common, so its group has the segment alone. -/
example : group [["c", "d", "?"], ["a", "b", "*"], ["a", "x"], ["c", "d"], ["a", "x"], []] [] =
    [⟨["a"], [["a", "b", "*"], ["a", "x"]]⟩, ⟨["c", "d"], [["c", "d"], ["c", "d", "?"]]⟩] := by
  decide

end HeadFinder.Pattern
