import HeadFinder.Proofs.Path
import HeadFinder.Proofs.Text.Trim

/-! # What a snapshot holds

A snapshot is a list in ascending order of its paths.  As long as it is, it is
determined by what it holds at each path, so that two snapshots that hold the same
below a directory list the same children for it.
-/
namespace HeadFinder.Snapshot

variable {snapshot other : Snapshot} {path spot : String} {item : Item}

/-- In ascending order of the paths, without repetition. -/
def Ascending (snapshot : Snapshot) : Prop :=
  snapshot.Pairwise fun a b => a.1 < b.1

theorem find?_cons (entry : String × Item) (rest : Snapshot) :
    find? path (entry :: rest) = if entry.1 = path then some entry.2 else find? path rest :=
  rfl

theorem find?_put : find? spot (put path item snapshot) =
    if spot = path then some item else find? spot snapshot := by
  split
  · rename_i h
    rw [h, find?_put_self]
  · rename_i h
    exact find?_put_of_ne h item snapshot

theorem find?_filter (keep : String → Bool) :
    find? path (snapshot.filter fun entry => keep entry.1) =
      if keep path then find? path snapshot else none := by
  induction snapshot with
  | nil => simp [find?]
  | cons entry rest ih =>
    by_cases hkeep : keep entry.1
    · rw [List.filter_cons, if_pos hkeep, find?_cons, find?_cons, ih]
      by_cases heq : entry.1 = path
      · rw [if_pos heq, if_pos heq, ← heq, if_pos hkeep]
      · rw [if_neg heq, if_neg heq]
    · rw [List.filter_cons, if_neg hkeep, find?_cons, ih]
      by_cases heq : entry.1 = path
      · rw [← heq, if_neg hkeep, if_neg hkeep]
      · rw [if_neg heq]

theorem find?_remove : find? spot (remove path snapshot) =
    if isWithin path spot then none else find? spot snapshot := by
  unfold remove
  rw [find?_filter fun spot => !isWithin path spot]
  cases isWithin path spot <;> rfl

theorem mem_of_find? (h : find? path snapshot = some item) : (path, item) ∈ snapshot := by
  induction snapshot with
  | nil => cases h
  | cons entry rest ih =>
    rw [find?_cons] at h
    split at h
    · rename_i heq
      cases h
      rw [← heq]
      exact List.mem_cons_self ..
    · exact List.mem_cons_of_mem _ (ih h)

/-! ## The order of the paths -/

theorem ascending_filter (keep : String × Item → Bool) (h : Ascending snapshot) :
    Ascending (snapshot.filter keep) :=
  List.Pairwise.filter keep h

theorem mem_put {entry : String × Item} (h : entry ∈ put path item snapshot) :
    entry = (path, item) ∨ entry ∈ snapshot := by
  induction snapshot with
  | nil => exact Or.inl (List.mem_singleton.mp h)
  | cons first rest ih =>
    simp only [put] at h
    split at h
    · exact List.mem_cons.mp h
    · split at h
      · exact (List.mem_cons.mp h).imp id (List.mem_cons_of_mem _)
      · rcases List.mem_cons.mp h with rfl | h
        · exact Or.inr (List.mem_cons_self ..)
        · exact (ih h).imp id (List.mem_cons_of_mem _)

theorem ascending_put (h : Ascending snapshot) : Ascending (put path item snapshot) := by
  induction snapshot with
  | nil => exact List.pairwise_singleton _ _
  | cons first rest ih =>
    obtain ⟨hfirst, hrest⟩ := List.pairwise_cons.mp h
    -- The entry goes before the first one, takes its place, or goes further back.
    simp only [put]
    split
    · rename_i hlt
      refine List.pairwise_cons.mpr ⟨fun entry hentry => ?_, h⟩
      rcases List.mem_cons.mp hentry with rfl | hentry
      · exact hlt
      · exact String.lt_trans hlt (hfirst entry hentry)
    · rename_i hlt
      split
      · rename_i heq
        exact List.pairwise_cons.mpr ⟨fun entry hentry => heq ▸ hfirst entry hentry, hrest⟩
      · rename_i hne
        refine List.pairwise_cons.mpr ⟨fun entry hentry => ?_, ih hrest⟩
        rcases mem_put hentry with rfl | hentry
        · apply Classical.byContradiction
          intro hnot
          exact hne (String.le_antisymm (String.not_lt.mp hnot) (String.not_lt.mp hlt))
        · exact hfirst entry hentry

/-- What stands first in an ascending snapshot is not there again. -/
theorem find?_eq_none_of_ascending {entry : String × Item} {rest : Snapshot}
    (h : Ascending (entry :: rest)) : find? entry.1 rest = none := by
  cases hfind : find? entry.1 rest with
  | none => rfl
  | some item =>
    exact absurd ((List.pairwise_cons.mp h).1 _ (mem_of_find? hfind)) (String.lt_irrefl _)

theorem find?_of_mem (hascending : Ascending snapshot) (h : (path, item) ∈ snapshot) :
    find? path snapshot = some item := by
  induction snapshot with
  | nil => cases h
  | cons entry rest ih =>
    obtain ⟨hfirst, hrest⟩ := List.pairwise_cons.mp hascending
    rw [find?_cons]
    rcases List.mem_cons.mp h with rfl | h
    · rw [if_pos rfl]
    · have hne : entry.1 ≠ path := by
        intro heq
        have := hfirst _ h
        rw [heq] at this
        exact String.lt_irrefl _ this
      rw [if_neg hne, ih hrest h]

/-- **Ascending snapshots that hold the same are the same.** -/
theorem eq_of_find?_eq (h : Ascending snapshot) (hother : Ascending other)
    (heq : ∀ path, find? path snapshot = find? path other) : snapshot = other := by
  induction snapshot generalizing other with
  | nil =>
    cases other with
    | nil => rfl
    | cons entry rest =>
      have := heq entry.1
      rw [find?_cons, if_pos rfl] at this
      cases this
  | cons entry rest ih =>
    cases other with
    | nil =>
      have := heq entry.1
      rw [find?_cons, if_pos rfl] at this
      cases this
    | cons entry' rest' =>
      obtain ⟨hfirst, hrest⟩ := List.pairwise_cons.mp h
      obtain ⟨hfirst', hrest'⟩ := List.pairwise_cons.mp hother
      have hself := heq entry.1
      have hself' := heq entry'.1
      rw [find?_cons, if_pos rfl, find?_cons] at hself
      rw [find?_cons, find?_cons, if_pos rfl] at hself'
      -- Neither first path comes before the other, so they are the same.
      by_cases hpath : entry.1 = entry'.1
      · rw [if_pos hpath.symm] at hself
        have hentry : entry = entry' := Prod.ext hpath (Option.some.inj hself)
        rw [hentry, ih hrest hrest' fun path => ?_]
        have hpath' := heq path
        rw [find?_cons, find?_cons, hentry] at hpath'
        by_cases hspot : entry'.1 = path
        · rw [← hspot, find?_eq_none_of_ascending hother, ← hentry,
            find?_eq_none_of_ascending h]
        · rwa [if_neg hspot, if_neg hspot] at hpath'
      · rw [if_neg (Ne.symm hpath)] at hself
        rw [if_neg hpath] at hself'
        have hafter := hfirst' _ (mem_of_find? hself.symm)
        have hbefore := hfirst _ (mem_of_find? hself')
        exact absurd (String.lt_trans hafter hbefore) (String.lt_irrefl _)

/-! ## The children of a directory -/

/-- The children of a directory are looked for below it only. -/
theorem childAt_eq (entry : String × Item) : childAt (Path.stem path) entry =
    if Text.begins (Path.stem path) entry.1 then childAt (Path.stem path) entry else none := by
  by_cases hbegins : Text.begins (Path.stem path) entry.1 = true
  · rw [if_pos hbegins]
  · rw [if_neg hbegins, childAt, if_neg]
    rw [Bool.and_eq_true]
    exact fun h => hbegins h.2

/-- **Snapshots that hold the same below a directory list the same children.** -/
theorem children_congr (h : Ascending snapshot) (hother : Ascending other)
    (heq : ∀ spot, Path.Above path spot → find? spot snapshot = find? spot other) :
    children path snapshot = children path other := by
  have hchildren : ∀ snapshot : Snapshot, children path snapshot =
      (snapshot.filter fun entry => Text.begins (Path.stem path) entry.1).filterMap
        (childAt (Path.stem path)) := by
    intro snapshot
    rw [List.filterMap_filter]
    exact congrArg (snapshot.filterMap ·) (funext childAt_eq)
  rw [hchildren, hchildren]
  congr 1
  refine eq_of_find?_eq (ascending_filter _ h) (ascending_filter _ hother) fun spot => ?_
  rw [find?_filter, find?_filter]
  by_cases hbegins : Text.begins (Path.stem path) spot = true
  · rw [if_pos hbegins, if_pos hbegins, heq spot (Path.above_iff_begins.mpr hbegins)]
  · rw [if_neg hbegins, if_neg hbegins]

/-- A child stands at the stem of its directory followed by its name, which has no
slash. -/
theorem childAt_eq_some {entry : String × Item} {start : String} {child : Child}
    (h : childAt start entry = some child) :
    entry.1 = start ++ child.name ∧ entry.1 ≠ "" ∧ '/' ∉ child.name.toList ∧
      child.kind = entry.2.kind ∧ child.revision = entry.2.revision := by
  obtain ⟨path, item⟩ := entry
  simp only [childAt] at h
  split at h
  · rename_i hentry
    rw [Bool.and_eq_true, decide_eq_true_iff] at hentry
    obtain ⟨hne, hbegins⟩ := hentry
    obtain ⟨rest, rfl⟩ := Text.begins_iff_exists.mp hbegins
    rw [Text.dropFirst_append] at h
    split at h
    · cases h
    · rename_i hslash
      cases h
      exact ⟨rfl, hne, fun hmem => hslash (List.contains_iff_mem.mpr hmem), rfl, rfl⟩
  · cases h

/-- Where a child comes from. -/
theorem of_mem_children {child : Child} (h : child ∈ children path snapshot) :
    ∃ item, (Path.stem path ++ child.name, item) ∈ snapshot ∧
      Path.stem path ++ child.name ≠ "" ∧ '/' ∉ child.name.toList ∧
      child.kind = item.kind ∧ child.revision = item.revision := by
  obtain ⟨entry, hentry, hchild⟩ := List.mem_filterMap.mp h
  obtain ⟨hpath, hne, hslash, hkind, hrevision⟩ := childAt_eq_some hchild
  have hstem : entry.1 = Path.stem path ++ child.name := hpath
  rw [hstem] at hne
  refine ⟨entry.2, ?_, hne, hslash, hkind, hrevision⟩
  rw [← hstem]
  exact hentry

/-- No two children of a directory have the same name. -/
theorem nodup_names_children (h : Ascending snapshot) (path : String) :
    ((children path snapshot).map Child.name).Nodup := by
  refine List.pairwise_map.mpr (List.Pairwise.filterMap _ ?_ h)
  intro entry entry' hlt child hchild child' hchild' hname
  have hpath := (childAt_eq_some hchild).1
  have hpath' := (childAt_eq_some hchild').1
  rw [hpath, hpath', hname] at hlt
  exact String.lt_irrefl _ hlt

end HeadFinder.Snapshot
