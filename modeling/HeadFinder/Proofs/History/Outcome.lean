import HeadFinder.Proofs.History.Pinning

/-! # What a commit leaves

A commit carries out its deletions, puts its directories and then its files, and at last
marks all that it touched, which brings back what is missing there.  `find?_commit` says
what this leaves at each path, from the change and the snapshot before alone.  What is left
is what a change asks for (`Leaves`), as long as no deleted path lies above another one: a
directory above a deleted path is touched, so it comes back if it is deleted as well.
-/
namespace HeadFinder

instance Path.decidableAbove (above path : String) : Decidable (Path.Above above path) :=
  inferInstanceAs (Decidable (above = "" ∨ Text.begins (above ++ "/") path = true))

/-- Something stands at the path. -/
def Snapshot.Holds (snapshot : Snapshot) (path : String) : Prop :=
  (snapshot.find? path).isSome = true

instance (snapshot : Snapshot) : DecidablePred snapshot.Holds := fun path =>
  inferInstanceAs (Decidable ((snapshot.find? path).isSome = true))

namespace Change

/-- The paths that a change deletes. -/
def deleted (change : Change) : List String :=
  change.deletions.map fun raw => Path.join [raw]

/-- The paths at which a change puts directories. -/
def addedDirectories (change : Change) : List String :=
  change.directories.map fun raw => Path.join [raw]

/-- The paths at which a change puts files. -/
def addedFiles (change : Change) : List String :=
  change.files.map fun raw => Path.join [raw]

/-- The paths that a change adds. -/
def added (change : Change) : List String :=
  change.addedDirectories ++ change.addedFiles

/-- The paths that a change touches: the added ones, and what lies above an added or a
deleted one. -/
def touched (change : Change) : List String :=
  change.deleted.flatMap Path.ancestors ++
    change.added.flatMap fun path => Path.ancestors path ++ [path]

/-- Whether the deletions take a path along.  The root goes alone. -/
def drops (change : Change) (path : String) : Bool :=
  change.deleted.any (Snapshot.isWithin · path)

/-- When a change is made: at its own time, or at a second for each revision. -/
def timeAt (change : Change) (revision : Nat) : Int :=
  change.time.getD (revision * 1000)

/-- What is left of a snapshot after the deletions. -/
def cut (change : Change) (before : Snapshot) : Snapshot :=
  change.deleted.foldl (fun tree top => tree.remove top) before

/-- The kind of a touched path: what is put there, else what is left there, and else a
directory. -/
def kindAt (change : Change) (before : Snapshot) (path : String) : Kind :=
  if path ∈ change.addedFiles then .file
  else if path ∈ change.addedDirectories then .directory
  else (((change.cut before).find? path).map Item.kind).getD .directory

/-- The paths that a change asks for: the root, what it adds with all that lies above, and
what was there and is neither deleted nor below a deleted path. -/
def Leaves (change : Change) (before : Snapshot) (path : String) : Prop :=
  path = "" ∨ (∃ spot ∈ change.added, path = spot ∨ Path.Above path spot) ∨
    before.Holds path ∧ ∀ top ∈ change.deleted, path ≠ top ∧ ¬ Path.Above top path

/-- No deleted path lies above a deleted path; the root lies above itself. -/
def DeletesApart (change : Change) : Prop :=
  ∀ top ∈ change.deleted, ∀ other ∈ change.deleted, ¬ Path.Above top other

instance (change : Change) (before : Snapshot) : DecidablePred (change.Leaves before) :=
  fun path => inferInstanceAs (Decidable (path = "" ∨
    (∃ spot ∈ change.added, path = spot ∨ Path.Above path spot) ∨
    before.Holds path ∧ ∀ top ∈ change.deleted, path ≠ top ∧ ¬ Path.Above top path))

instance : DecidablePred DeletesApart := fun change =>
  inferInstanceAs (Decidable (∀ top ∈ change.deleted, ∀ other ∈ change.deleted,
    ¬ Path.Above top other))

variable {change : Change} {path : String}

theorem mem_touched : path ∈ change.touched ↔
    (∃ top ∈ change.deleted, Path.Above path top) ∨
      ∃ spot ∈ change.added, path = spot ∨ Path.Above path spot := by
  simp only [touched, List.mem_append, List.mem_flatMap, Path.mem_ancestors, List.mem_singleton,
    or_comm]

theorem touched_of_added (h : path ∈ change.added) : path ∈ change.touched :=
  mem_touched.mpr (Or.inr ⟨path, h, Or.inl rfl⟩)

/-- What lies above a touched path is touched. -/
theorem touched_of_above {above : String} (habove : Path.Above above path)
    (h : path ∈ change.touched) : above ∈ change.touched := by
  rw [mem_touched] at h ⊢
  rcases h with ⟨top, htop, hpath⟩ | ⟨spot, hspot, rfl | hpath⟩
  · exact Or.inl ⟨top, htop, habove.trans hpath⟩
  · exact Or.inr ⟨path, hspot, Or.inr habove⟩
  · exact Or.inr ⟨spot, hspot, Or.inr (habove.trans hpath)⟩

theorem drops_eq_false : change.drops path = false ↔
    ∀ top ∈ change.deleted, path ≠ top ∧ ¬ Text.begins (top ++ "/") path = true := by
  simp only [drops, List.any_eq_false, Path.isWithin_iff, not_or, ne_eq]

/-- What is neither deleted nor below a deleted path is not taken along. -/
theorem drops_eq_false_of_spared
    (h : ∀ top ∈ change.deleted, path ≠ top ∧ ¬ Path.Above top path) :
    change.drops path = false := by
  rw [drops_eq_false]
  intro top htop
  obtain ⟨hne, hnotAbove⟩ := h top htop
  exact ⟨hne, fun hbegins => hnotAbove (Or.inr hbegins)⟩

/-- Nothing is taken along unless the root is touched: it lies above whatever is deleted. -/
theorem drops_eq_false_of_root_untouched (h : "" ∉ change.touched) :
    change.drops path = false := by
  rw [drops_eq_false]
  intro top htop
  exact absurd (mem_touched.mpr (Or.inl ⟨top, htop, Path.above_root top⟩)) h

end Change

namespace Snapshot
variable {tree : Snapshot} {spot : String}

theorem find?_removeAll (tops : List String) :
    (tops.foldl (fun tree top => tree.remove top) tree).find? spot =
      if tops.any (isWithin · spot) then none else tree.find? spot := by
  induction tops generalizing tree with
  | nil => rfl
  | cons top rest ih =>
    rw [List.foldl_cons, ih, find?_remove, List.any_cons]
    cases isWithin top spot <;> cases rest.any (isWithin · spot) <;> rfl

theorem find?_putAll (paths : List String) (item : Item) :
    (paths.foldl (fun tree path => tree.put path item) tree).find? spot =
      if spot ∈ paths then some item else tree.find? spot := by
  induction paths generalizing tree with
  | nil => rfl
  | cons path rest ih =>
    rw [List.foldl_cons, ih, find?_put]
    by_cases hpath : spot = path <;> by_cases hrest : spot ∈ rest <;> simp [hpath, hrest]

end Snapshot

namespace History

/-! ## The drafts of a commit -/

/-- Each input of a row of steps that may fail has been met by a step. -/
theorem foldlM_visits {δ α ε : Type} {step : δ → α → Except ε δ} {P : δ → Prop}
    {inputs : List α}
    (hstep : ∀ before input after, input ∈ inputs → P before → step before input = .ok after →
      P after)
    {before after : δ} (hbefore : P before) (h : inputs.foldlM step before = .ok after)
    {input : α} (hinput : input ∈ inputs) :
    ∃ met next, P met ∧ step met input = .ok next := by
  induction inputs generalizing before with
  | nil => cases hinput
  | cons first rest ih =>
    rw [List.foldlM_cons] at h
    obtain ⟨next, hfirst, hnext⟩ := bind_ok h
    rcases List.mem_cons.mp hinput with rfl | hinput
    · exact ⟨before, next, hbefore, hfirst⟩
    · exact ih (fun before input after hinput => hstep before input after
        (List.mem_cons_of_mem _ hinput))
        (hstep before first next (List.mem_cons_self ..) hbefore hfirst) hnext hinput

namespace Draft

theorem deleteAll_ok {youngest : Nat} {raws : List String} {draft after : Draft}
    (h : raws.foldlM (delete youngest) draft = .ok after) :
    after = ⟨(raws.map fun raw => Path.join [raw]).foldl (fun tree top => tree.remove top)
        draft.tree,
      draft.touched ++ (raws.map fun raw => Path.join [raw]).flatMap Path.ancestors⟩ := by
  induction raws generalizing draft with
  | nil =>
    cases h
    simp
  | cons raw rest ih =>
    rw [List.foldlM_cons] at h
    obtain ⟨next, hfirst, hrest⟩ := bind_ok h
    rw [ih hrest, delete_ok hfirst]
    simp

theorem addAll_ok {kind : Kind} {revision : Nat} {time : Int} {raws : List String}
    {draft after : Draft} (h : raws.foldlM (add kind revision time) draft = .ok after) :
    after = ⟨(raws.map fun raw => Path.join [raw]).foldl
        (fun tree path => tree.put path ⟨kind, revision, time⟩) draft.tree,
      draft.touched ++ (raws.map fun raw => Path.join [raw]).flatMap fun path =>
        Path.ancestors path ++ [path]⟩ := by
  induction raws generalizing draft with
  | nil =>
    cases h
    simp
  | cons raw rest ih =>
    rw [List.foldlM_cons] at h
    obtain ⟨next, hfirst, hrest⟩ := bind_ok h
    rw [ih hrest, add_ok hfirst]
    simp

/-- Only what is there is deleted. -/
theorem holds_of_delete {youngest : Nat} {draft after : Draft} {raw : String}
    (h : draft.delete youngest raw = .ok after) : draft.tree.Holds (Path.join [raw]) := by
  unfold delete at h
  dsimp only at h
  split at h
  · cases h
  · rename_i item hitem
    simp [Snapshot.Holds, hitem]

/-- Something is only added below directories. -/
theorem directory_of_add {kind : Kind} {revision : Nat} {time : Int} {draft after : Draft}
    {raw above : String} {item : Item} (h : draft.add kind revision time raw = .ok after)
    (habove : Path.Above above (Path.join [raw])) (hitem : draft.tree.find? above = some item) :
    item.kind = .directory := by
  unfold add at h
  dsimp only at h
  split at h
  · cases h
  · rename_i hclear
    have hfree := List.find?_eq_none.mp hclear above (Path.mem_ancestors.mpr habove)
    simpa [hitem] using hfree

end Draft

variable {history later : History} {change : Change} {path : String}

/-- The drafts that a commit goes through: after the deletions, with the directories, and
with the files. -/
structure Phases (history : History) (change : Change) (later : History)
    (removed built filled : Draft) : Prop where
  removing : change.deletions.foldlM (Draft.delete history.youngest) ⟨history.current, []⟩ =
    .ok removed
  building : change.directories.foldlM (Draft.add .directory (history.youngest + 1)
    (change.timeAt (history.youngest + 1))) removed = .ok built
  filling : change.files.foldlM (Draft.add .file (history.youngest + 1)
    (change.timeAt (history.youngest + 1))) built = .ok filled
  past : later.past = history.past ++ [history.current]
  marking : later.current = filled.touched.foldl (Draft.mark (history.youngest + 1)
    (change.timeAt (history.youngest + 1))) filled.tree

theorem exists_phases (h : history.commit change = .ok later) :
    ∃ removed built filled, Phases history change later removed built filled := by
  obtain ⟨snapshot, happly, hlater⟩ := bind_ok h
  obtain ⟨removed, hremoved, happly⟩ := bind_ok happly
  obtain ⟨built, hbuilt, happly⟩ := bind_ok happly
  obtain ⟨filled, hfilled, happly⟩ := bind_ok happly
  cases happly
  cases hlater
  exact ⟨removed, built, filled, hremoved, hbuilt, hfilled, rfl, rfl⟩

section Phases
variable {removed built filled : Draft} (h : Phases history change later removed built filled)
include h

theorem Phases.removed_tree : removed.tree = change.cut history.current := by
  rw [Draft.deleteAll_ok h.removing]
  rfl

theorem Phases.find?_built : built.tree.find? path =
    if path ∈ change.addedDirectories then
      some ⟨.directory, history.youngest + 1, change.timeAt (history.youngest + 1)⟩
    else (change.cut history.current).find? path := by
  rw [Draft.addAll_ok h.building, ← h.removed_tree]
  exact Snapshot.find?_putAll _ _

theorem Phases.find?_filled : filled.tree.find? path =
    if path ∈ change.addedFiles then
      some ⟨.file, history.youngest + 1, change.timeAt (history.youngest + 1)⟩
    else built.tree.find? path := by
  rw [Draft.addAll_ok h.filling]
  exact Snapshot.find?_putAll _ _

theorem Phases.touched_filled : filled.touched = change.touched := by
  rw [Draft.addAll_ok h.filling, Draft.addAll_ok h.building, Draft.deleteAll_ok h.removing]
  simp [Change.touched, Change.deleted, Change.added, Change.addedDirectories,
    Change.addedFiles]

end Phases

theorem find?_cut (change : Change) (before : Snapshot) (path : String) :
    (change.cut before).find? path = if change.drops path then none else before.find? path :=
  Snapshot.find?_removeAll _

/-- **What a commit leaves at a path**: a touched one carries its revision and its time, a
deleted one is gone, and every other one is as before. -/
theorem find?_commit (h : history.commit change = .ok later) (path : String) :
    later.current.find? path =
      if path ∈ change.touched then
        some ⟨change.kindAt history.current path, history.youngest + 1,
          change.timeAt (history.youngest + 1)⟩
      else if change.drops path then none else history.current.find? path := by
  obtain ⟨removed, built, filled, hphases⟩ := exists_phases h
  rw [hphases.marking, Draft.find?_marked, hphases.touched_filled, hphases.find?_filled,
    hphases.find?_built]
  by_cases htouched : path ∈ change.touched
  · rw [if_pos htouched, if_pos htouched]
    by_cases hfile : path ∈ change.addedFiles
    · simp [Change.kindAt, hfile]
    · by_cases hdirectory : path ∈ change.addedDirectories <;>
        simp [Change.kindAt, hfile, hdirectory]
  · -- What is added is touched.
    have hadded : path ∉ change.addedDirectories ∧ path ∉ change.addedFiles := by
      rw [← not_or, ← List.mem_append]
      exact fun hadded => htouched (Change.touched_of_added hadded)
    rw [if_neg htouched, if_neg htouched, if_neg hadded.1, if_neg hadded.2, find?_cut]

theorem holds_commit (h : history.commit change = .ok later) (path : String) :
    later.current.Holds path ↔
      path ∈ change.touched ∨ change.drops path = false ∧ history.current.Holds path := by
  unfold Snapshot.Holds
  rw [find?_commit h path]
  by_cases htouched : path ∈ change.touched
  · simp [htouched]
  · cases hdrops : change.drops path <;> simp [htouched]

/-- What is deleted was there before. -/
theorem holds_of_deleted (h : history.commit change = .ok later) {top : String}
    (htop : top ∈ change.deleted) : history.current.Holds top := by
  obtain ⟨removed, built, filled, hphases⟩ := exists_phases h
  obtain ⟨raw, hraw, rfl⟩ := List.mem_map.mp htop
  -- Deletions only take away.
  have hshrinks : ∀ (before : Draft) (raw : String) (after : Draft), raw ∈ change.deletions →
      (∀ spot, before.tree.Holds spot → history.current.Holds spot) →
      before.delete history.youngest raw = .ok after →
      ∀ spot, after.tree.Holds spot → history.current.Holds spot := by
    intro before raw after _ hbefore hstep spot hspot
    rw [Draft.delete_ok hstep] at hspot
    refine hbefore spot ?_
    unfold Snapshot.Holds at hspot ⊢
    rw [Snapshot.find?_remove] at hspot
    split at hspot
    · cases hspot
    · exact hspot
  obtain ⟨met, next, hmet, hdelete⟩ :=
    foldlM_visits hshrinks (fun _ hspot => hspot) hphases.removing hraw
  exact hmet _ (Draft.holds_of_delete hdelete)

/-- A commit keeps the root. -/
theorem holds_root_commit (hroot : history.current.Holds "")
    (h : history.commit change = .ok later) : later.current.Holds "" := by
  rw [holds_commit h]
  by_cases htouched : "" ∈ change.touched
  · exact Or.inl htouched
  · exact Or.inr ⟨Change.drops_eq_false_of_root_untouched htouched, hroot⟩

/-- **The root is always there.** -/
theorem holds_root (changes : List Change) : (empty.after changes).current.Holds "" := by
  refine after_preserves (fun history : History => history.current.Holds "") ?_ rfl
  intro history later change _ hroot h
  exact holds_root_commit hroot h

/-- The paths that a commit leaves are those that the change asks for, those above a deleted
path and, if the root is deleted, those that no deletion takes along. -/
theorem holds_commit_iff (hroot : history.current.Holds "") (h : history.commit change = .ok later)
    (path : String) :
    later.current.Holds path ↔ change.Leaves history.current path ∨
      (∃ top ∈ change.deleted, Path.Above path top) ∨
      "" ∈ change.deleted ∧ change.drops path = false ∧ history.current.Holds path := by
  constructor
  · rw [holds_commit h, Change.mem_touched]
    rintro ((habove | hadded) | ⟨hspared, hbefore⟩)
    · exact Or.inr (Or.inl habove)
    · exact Or.inl (Or.inr (Or.inl hadded))
    · by_cases hroot : "" ∈ change.deleted
      · exact Or.inr (Or.inr ⟨hroot, hspared, hbefore⟩)
      · refine Or.inl (Or.inr (Or.inr ⟨hbefore, fun top htop => ?_⟩))
        obtain ⟨hne, hbegins⟩ := Change.drops_eq_false.mp hspared top htop
        refine ⟨hne, fun habove => habove.elim ?_ hbegins⟩
        rintro rfl
        exact hroot htop
  · rintro ((rfl | hadded | ⟨hbefore, hspared⟩) | habove | ⟨-, hspared, hbefore⟩)
    · exact holds_root_commit hroot h
    all_goals rw [holds_commit h, Change.mem_touched]
    · exact Or.inl (Or.inr hadded)
    · exact Or.inr ⟨Change.drops_eq_false_of_spared hspared, hbefore⟩
    · exact Or.inl (Or.inl habove)
    · exact Or.inr ⟨hspared, hbefore⟩

/-- Where deletions are apart, what lies above a deleted path is asked for. -/
theorem leaves_of_above (hpinned : history.Pinned) (h : history.commit change = .ok later)
    (hapart : change.DeletesApart) {top : String} (htop : top ∈ change.deleted)
    (habove : Path.Above path top) : change.Leaves history.current path := by
  refine Or.inr (Or.inr ⟨?_, fun other hother => ⟨?_, fun hother' => ?_⟩⟩)
  · obtain ⟨item, hitem⟩ := Option.isSome_iff_exists.mp (holds_of_deleted h htop)
    obtain ⟨-, -, hnewer⟩ := hpinned.pinned _ _ history.getElem?_youngest top item hitem
    obtain ⟨found, hfound, -⟩ := hnewer path habove
    exact Option.isSome_iff_exists.mpr ⟨found, hfound⟩
  · rintro rfl
    exact hapart path hother top htop habove
  · exact hapart other hother top htop (hother'.trans habove)

/-- **Where deletions are apart, a commit leaves just what its change asks for.** -/
theorem holds_commit_iff_leaves (hpinned : history.Pinned) (hroot : history.current.Holds "")
    (h : history.commit change = .ok later) (hapart : change.DeletesApart) (path : String) :
    later.current.Holds path ↔ change.Leaves history.current path := by
  rw [holds_commit_iff hroot h path]
  constructor
  · rintro (hleaves | ⟨top, htop, habove⟩ | ⟨hdeleted, -, -⟩)
    · exact hleaves
    · exact leaves_of_above hpinned h hapart htop habove
    · exact absurd (Path.above_root "") (hapart "" hdeleted "" hdeleted)
  · exact Or.inl

/-- A change does not ask for what is at or below a deleted path to which it adds nothing. -/
theorem not_leaves_below {before : Snapshot} (hapart : change.DeletesApart) {top : String}
    (htop : top ∈ change.deleted)
    (hfresh : ∀ spot ∈ change.added, top ≠ spot ∧ ¬ Path.Above top spot)
    (hpath : path = top ∨ Path.Above top path) : ¬ change.Leaves before path := by
  rintro (rfl | ⟨spot, hspot, hadded⟩ | ⟨-, hspared⟩)
  · -- The root is below nothing but itself.
    have hroot : top = "" := hpath.elim Eq.symm Path.eq_root_of_above
    exact hapart top htop top htop (Or.inl hroot)
  · obtain ⟨hne, hnotAbove⟩ := hfresh spot hspot
    rcases hpath with rfl | hpath
    · exact hadded.elim hne hnotAbove
    · rcases hadded with rfl | hadded
      · exact hnotAbove hpath
      · exact hnotAbove (hpath.trans hadded)
  · obtain ⟨hne, hnotAbove⟩ := hspared top htop
    exact hpath.elim hne hnotAbove

/-- **What is not concerned stays as it is.** -/
theorem find?_commit_of_aside (h : history.commit change = .ok later)
    (hdeleted : ∀ top ∈ change.deleted,
      path ≠ top ∧ ¬ Path.Above top path ∧ ¬ Path.Above path top)
    (hadded : ∀ spot ∈ change.added, path ≠ spot ∧ ¬ Path.Above path spot) :
    later.current.find? path = history.current.find? path := by
  have huntouched : path ∉ change.touched := by
    rw [Change.mem_touched]
    rintro (⟨top, htop, habove⟩ | ⟨spot, hspot, hpath⟩)
    · exact (hdeleted top htop).2.2 habove
    · exact hpath.elim (hadded spot hspot).1 (hadded spot hspot).2
  have hspared : change.drops path = false := Change.drops_eq_false_of_spared fun top htop =>
    ⟨(hdeleted top htop).1, (hdeleted top htop).2.1⟩
  simp [find?_commit h path, huntouched, hspared]

/-- **A commit does what its change asks for**, but for directories that come back.  One that
fails does nothing.  One that succeeds adds a snapshot to those that there are.  It holds the
paths that the change asks for; besides, it holds what lies above a deleted path and, if the
root is deleted, what lies below the root.  So if no deleted path lies above another, the
snapshot holds just what is asked for, and a deleted path to which nothing is added is gone
with all that was below it.  What is neither deleted nor above a deleted or an added path
stays as it is. -/
theorem commit_exact (changes : List Change) (change : Change) :
    let before := empty.after changes
    (∀ failure, before.commit change = .error failure → before.tried change = before) ∧
    ∀ later, before.commit change = .ok later →
      later.snapshots = before.snapshots ++ [later.current] ∧
      (∀ path, later.current.Holds path ↔ change.Leaves before.current path ∨
        (∃ top ∈ change.deleted, Path.Above path top) ∨
        "" ∈ change.deleted ∧ change.drops path = false ∧ before.current.Holds path) ∧
      (change.DeletesApart →
        (∀ path, later.current.Holds path ↔ change.Leaves before.current path) ∧
        ∀ top ∈ change.deleted, (∀ spot ∈ change.added, top ≠ spot ∧ ¬ Path.Above top spot) →
          ∀ path, path = top ∨ Path.Above top path → ¬ later.current.Holds path) ∧
      ∀ path item, before.current.find? path = some item →
        (∀ top ∈ change.deleted,
          path ≠ top ∧ ¬ Path.Above top path ∧ ¬ Path.Above path top) →
        (∀ spot ∈ change.added, path ≠ spot ∧ ¬ Path.Above path spot) →
        later.current.find? path = some item := by
  intro before
  refine ⟨fun failure hfailure => by simp only [tried, hfailure], fun later h => ?_⟩
  have hroot : before.current.Holds "" := holds_root changes
  have hpinned : before.Pinned := pinned_after changes pinned_empty
  refine ⟨snapshots_commit h, holds_commit_iff hroot h, fun hapart => ⟨?_, ?_⟩, ?_⟩
  · exact holds_commit_iff_leaves hpinned hroot h hapart
  · intro top htop hfresh path hpath
    rw [holds_commit_iff_leaves hpinned hroot h hapart]
    exact not_leaves_below hapart htop hfresh hpath
  · intro path item hitem hdeleted hadded
    rw [find?_commit_of_aside h hdeleted hadded, hitem]

/-- A tree with two branches, and a change that cuts both back, puts a file in the place of
one and adds to the other. -/
def branching : List Change :=
  [⟨["a/b", "c/d"], ["c/d/f", "g"], [], none⟩]

def regrowth : Change :=
  ⟨["a/x"], ["c/d"], ["c/d/f", "a/b"], some 7⟩

theorem commit_exact_branching : ∃ later, (empty.after branching).commit regrowth = .ok later ∧
    regrowth.DeletesApart ∧ later.current.Holds "c/d" ∧ ¬ later.current.Holds "c/d/f" ∧
    ¬ later.current.Holds "a/b" ∧ later.current.find? "g" = some ⟨.file, 1, 1000⟩ := by
  have hcommit : (empty.after branching).commit regrowth =
      .ok (empty.after (branching ++ [regrowth])) := rfl
  have hapart : regrowth.DeletesApart := by decide
  obtain ⟨-, -, hexact, hkept⟩ := (commit_exact branching regrowth).2 _ hcommit
  obtain ⟨hleaves, hgone⟩ := hexact hapart
  refine ⟨_, hcommit, hapart, (hleaves "c/d").mpr ?_, hgone "c/d/f" ?_ ?_ "c/d/f" (Or.inl rfl),
    hgone "a/b" ?_ ?_ "a/b" (Or.inl rfl), hkept "g" _ rfl ?_ ?_⟩
  all_goals decide

/-- A directory that is deleted after something below it comes back, and deleting the root
leaves what is below it. -/
theorem deleted_directory_returns :
    let before := empty.after [⟨["a/b"], [], [], none⟩]
    let nested : Change := ⟨[], [], ["a/b", "a"], none⟩
    let whole : Change := ⟨[], [], [""], none⟩
    (∃ later, before.commit nested = .ok later ∧ later.current.Holds "a" ∧
      ¬ nested.Leaves before.current "a") ∧
    ∃ later, before.commit whole = .ok later ∧ later.current.Holds "a/b" ∧
      ¬ whole.Leaves before.current "a/b" := by
  intro before nested whole
  refine ⟨⟨before.tried nested, rfl, ?_, ?_⟩, before.tried whole, rfl, ?_, ?_⟩
  all_goals decide

end History
end HeadFinder
