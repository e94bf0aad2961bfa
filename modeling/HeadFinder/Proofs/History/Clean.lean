import HeadFinder.Proofs.History.Pinning
import HeadFinder.Proofs.Join

/-! # Trees without empty segments

Where no commit names a path with an empty segment, no snapshot holds one, so that
every child has a name of its own and stands where its name is joined to.
-/
namespace HeadFinder

/-- The root, or a path without an empty segment. -/
def Path.Clean (path : String) : Prop :=
  path = "" ∨ "" ∉ Text.split '/' path

namespace Path

instance : DecidablePred Clean := fun path =>
  inferInstanceAs (Decidable (path = "" ∨ "" ∉ Text.split '/' path))

theorem Clean.above {above path : String} (h : Clean path) (habove : Above above path) :
    Clean above := by
  rcases habove with rfl | hbegins
  · exact Or.inl rfl
  · obtain ⟨rest, rfl⟩ := Text.begins_iff_exists.mp hbegins
    rcases h with h | h
    · rw [String.append_assoc] at h
      exact Or.inl (String.append_eq_empty_iff.mp h).1
    · rw [Text.split_append, List.mem_append, not_or] at h
      exact Or.inr h.1

/-- What stands below a directory in a clean tree has a name. -/
theorem Clean.plain {path name : String} (h : Clean (stem path ++ name))
    (hne : stem path ++ name ≠ "") (hslash : '/' ∉ name.toList) : Text.Plain name := by
  refine ⟨?_, hslash⟩
  rintro rfl
  unfold stem at h hne
  by_cases hroot : path = ""
  · rw [if_pos hroot] at hne
    exact hne rfl
  · rw [if_neg hroot] at h
    rcases h with h | h
    · rw [String.append_assoc] at h
      exact hroot (String.append_eq_empty_iff.mp h).1
    · rw [Text.split_append, List.mem_append, not_or] at h
      exact h.2 (List.mem_singleton_self _)

end Path

/-- A change that names no path with an empty segment. -/
def Change.Clean (change : Change) : Prop :=
  ∀ raw ∈ change.deletions ++ (change.directories ++ change.files), Path.Clean (Path.join [raw])

instance : DecidablePred Change.Clean := fun change =>
  inferInstanceAs (Decidable (∀ raw ∈ change.deletions ++ (change.directories ++ change.files),
    Path.Clean (Path.join [raw])))

/-- A snapshot that holds no path with an empty segment. -/
def Snapshot.Clean (snapshot : Snapshot) : Prop :=
  ∀ path item, snapshot.find? path = some item → Path.Clean path

namespace History
variable {history later : History} {change : Change}

/-- A draft that holds and has touched clean paths only. -/
structure Draft.Clean (draft : Draft) : Prop where
  tree : draft.tree.Clean
  touched : ∀ path ∈ draft.touched, Path.Clean path

theorem Draft.Clean.delete {draft : Draft} (h : draft.Clean) {top : String}
    (htop : Path.Clean top) :
    Draft.Clean ⟨draft.tree.remove top, draft.touched ++ Path.ancestors top⟩ where
  tree := by
    intro path item hitem
    rw [Snapshot.find?_remove] at hitem
    split at hitem
    · cases hitem
    · exact h.tree path item hitem
  touched := by
    intro path hpath
    rcases List.mem_append.mp hpath with hpath | hpath
    · exact h.touched path hpath
    · exact htop.above (Path.mem_ancestors.mp hpath)

theorem Draft.Clean.add {draft : Draft} (h : draft.Clean) {path : String} (hpath : Path.Clean path)
    (item : Item) :
    Draft.Clean ⟨draft.tree.put path item, draft.touched ++ Path.ancestors path ++ [path]⟩ where
  tree := by
    intro other found hfound
    rw [Snapshot.find?_put] at hfound
    split at hfound
    · rename_i heq
      rw [heq]
      exact hpath
    · exact h.tree other found hfound
  touched := by
    intro other hother
    rcases List.mem_append.mp hother with hother | hother
    · rcases List.mem_append.mp hother with hother | hother
      · exact h.touched other hother
      · exact hpath.above (Path.mem_ancestors.mp hother)
    · rw [List.mem_singleton.mp hother]
      exact hpath

theorem Draft.Clean.marked {draft : Draft} (h : draft.Clean) (revision : Nat) (time : Int) :
    Snapshot.Clean (draft.touched.foldl (Draft.mark revision time) draft.tree) := by
  intro path item hitem
  rw [Draft.find?_marked] at hitem
  split at hitem
  · rename_i htouched
    exact h.touched path htouched
  · exact h.tree path item hitem

/-- A clean change keeps the tree clean. -/
theorem clean_commit (hclean : history.current.Clean) (hchange : change.Clean)
    (h : history.commit change = .ok later) : later.current.Clean := by
  obtain ⟨snapshot, happly, hlater⟩ := bind_ok h
  cases hlater
  obtain ⟨draft, time, hdraft, rfl⟩ := apply_ok happly Draft.Clean
    ⟨hclean, fun _ hpath => nomatch hpath⟩
    (fun draft raw hraw h => h.delete (hchange raw (List.mem_append_left _ hraw)))
    (fun draft raw kind time hraw h => h.add (hchange raw (List.mem_append_right _ hraw)) _)
  exact hdraft.marked _ time

/-- **Clean changes lead to clean trees.** -/
theorem clean_after {changes : List Change} (hchanges : ∀ change ∈ changes, change.Clean)
    (h : history.current.Clean) : (history.after changes).current.Clean :=
  after_preserves (·.current.Clean) (fun change hmem h => clean_commit h (hchanges change hmem)) h

/-- Clean changes keep every snapshot of a history clean. -/
theorem clean_snapshots_after {changes : List Change}
    (hchanges : ∀ change ∈ changes, change.Clean)
    (h : ∀ snapshot ∈ history.snapshots, snapshot.Clean) :
    ∀ snapshot ∈ (history.after changes).snapshots, snapshot.Clean := by
  refine after_preserves (fun history => ∀ snapshot ∈ history.snapshots, snapshot.Clean) ?_ h
  intro history later change hmem h hcommit
  have hcurrent : history.current.Clean := h _ (List.mem_append_right _ (List.mem_singleton_self _))
  rw [snapshots_commit hcommit]
  exact List.forall_mem_append.mpr
    ⟨h, List.forall_mem_singleton.mpr (clean_commit hcurrent (hchanges change hmem) hcommit)⟩

theorem clean_empty : empty.current.Clean := by
  intro path item hitem
  rw [show empty.current = [("", ⟨.directory, 0, 0⟩)] from rfl, Snapshot.find?_cons] at hitem
  split at hitem
  · rename_i hpath
    exact Or.inl hpath.symm
  · cases hitem

end History
end HeadFinder
