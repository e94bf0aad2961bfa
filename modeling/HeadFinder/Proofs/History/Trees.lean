import HeadFinder.Proofs.History.Listing
import HeadFinder.Proofs.History.Outcome

/-! # Snapshots as trees

In a tree, the parent of everything but the root is there and is a directory.  A commit
refuses to put anything below a file, but it puts a file anywhere else: over a directory
with something below it, and over the root.  A change that does so buries what is below the
file, and those changes are the only ones that make a snapshot something else than a tree
(`isTree_commit_iff`, `trees_after_iff`).

What stands in a tree is met on the way down from the root through the listings, unless a
segment of its path is empty (`reaches_iff`).
-/
namespace HeadFinder

/-- The segments of a text are without the separator. -/
theorem Text.not_mem_of_mem_split {separator : Char} {text part : String}
    (h : part ∈ Text.split separator text) : separator ∉ part.toList := by
  obtain ⟨piece, hpiece, rfl⟩ := List.mem_map.mp h
  rw [String.toList_ofList]
  exact Text.not_mem_of_mem_pieces hpiece

namespace Path
variable {above path : String}

/-- The path without its last segment.  The root is its own parent. -/
def parent (path : String) : String :=
  "/".intercalate (Text.split '/' path).dropLast

theorem above_parent (path : String) : Above (parent path) path := by
  rw [← mem_ancestors, ancestors, List.mem_map]
  have hlength := List.length_pos_iff.mpr (Text.split_ne_nil '/' path)
  refine ⟨(Text.split '/' path).length - 1, List.mem_range.mpr (by omega), ?_⟩
  rw [parent, List.dropLast_eq_take]

/-- What is above a path is its parent or above its parent. -/
theorem Above.of_parent (h : Above above path) :
    above = parent path ∨ Above above (parent path) := by
  rw [← mem_ancestors, ancestors, List.mem_map] at h
  obtain ⟨n, hn, rfl⟩ := h
  rw [List.mem_range] at hn
  by_cases hlast : n = (Text.split '/' path).length - 1
  · left
    rw [parent, List.dropLast_eq_take, hlast]
  · right
    have hlength : (Text.split '/' path).dropLast.length = (Text.split '/' path).length - 1 :=
      List.length_dropLast
    have hsegments : Text.split '/' (parent path) = (Text.split '/' path).dropLast := by
      refine Text.split_intercalate (List.ne_nil_of_length_pos (by omega)) fun part hpart => ?_
      exact Text.not_mem_of_mem_split (List.dropLast_subset _ hpart)
    rw [← mem_ancestors, ancestors, List.mem_map, hsegments]
    refine ⟨n, List.mem_range.mpr (by omega), ?_⟩
    rw [List.dropLast_eq_take, List.take_take, Nat.min_eq_left (by omega)]

/-- What is above a path is shorter, but for the root. -/
theorem Above.length_lt (h : Above above path) (hne : path ≠ "") :
    above.length < path.length := by
  rcases h with rfl | h
  · exact Nat.pos_of_ne_zero fun hzero => hne (String.length_eq_zero_iff.mp hzero)
  · obtain ⟨rest, rfl⟩ := Text.begins_iff_exists.mp h
    simp only [String.length_append]
    have : ("/" : String).length = 1 := rfl
    omega

theorem clean_iff : Clean path ↔ "" ∉ segments path := by
  unfold Clean segments
  by_cases hroot : path = ""
  · simp [hroot]
  · rw [if_neg hroot, or_iff_right hroot]

/-- The segments of a clean path are names. -/
theorem Clean.plain_of_mem (h : Clean path) (hne : path ≠ "") {part : String}
    (hpart : part ∈ Text.split '/' path) : Text.Plain part :=
  ⟨fun hempty => h.resolve_left hne (hempty ▸ hpart), Text.not_mem_of_mem_split hpart⟩

theorem Clean.tidy (h : Clean path) : Text.Tidy path := by
  by_cases hroot : path = ""
  · rw [hroot]
    exact Text.tidy_empty
  · rw [← Text.intercalate_split path]
    exact (Text.tidy_intercalate (Text.split_ne_nil _ _) fun part hpart =>
      ⟨(h.plain_of_mem hroot hpart).1, (h.plain_of_mem hroot hpart).tidy⟩).2

/-- A clean path is a name in its parent. -/
theorem Clean.eq_stem_append (h : Clean path) (hne : path ≠ "") :
    ∃ name, Text.Plain name ∧ path = stem (parent path) ++ name := by
  rcases List.eq_nil_or_concat (Text.split '/' path) with hnil | ⟨front, name, hsplit⟩
  · exact absurd hnil (Text.split_ne_nil _ _)
  · rw [List.concat_eq_append] at hsplit
    have hfront : ∀ part ∈ front, part ≠ "" ∧ Text.Tidy part := fun part hpart =>
      have hpart := h.plain_of_mem hne (hsplit ▸ List.mem_append_left _ hpart)
      ⟨hpart.1, hpart.tidy⟩
    have hparent : parent path = "/".intercalate front := by
      rw [parent, hsplit, List.dropLast_concat]
    have hpath : path = "/".intercalate (front ++ [name]) := by
      rw [← hsplit, Text.intercalate_split]
    refine ⟨name, h.plain_of_mem hne (hsplit ▸ List.mem_append_right _
      (List.mem_singleton_self _)), ?_⟩
    rw [hparent]
    by_cases hnil : front = []
    · rw [hpath, hnil, List.nil_append, String.intercalate_singleton, String.intercalate_nil]
      rfl
    · rw [stem, if_neg (Text.tidy_intercalate hnil hfront).1]
      conv_lhs => rw [hpath]
      rw [String.intercalate_append_of_ne_nil hnil (by simp), String.intercalate_singleton]

/-- A name that is joined to a clean path, or nothing at all, leads to a clean path. -/
theorem Clean.join {name : String} (h : Clean path) (hname : '/' ∉ name.toList) :
    Clean (Path.join [path, name]) := by
  have hself : Path.join [path] = path := join_singleton h.tidy
  by_cases hempty : name = ""
  · have hparts : parts [path, ""] = parts [path] := by
      rw [show [path, ""] = [path] ++ [""] from rfl, parts_append]
      exact List.append_nil _
    rw [hempty, join_eq, hparts, ← join_eq, hself]
    exact h
  · rw [clean_iff, segments_join path (List.forall_mem_singleton.mpr ⟨hempty, hname⟩), hself,
      List.mem_append, List.mem_singleton, not_or]
    exact ⟨clean_iff.mp h, Ne.symm hempty⟩

end Path

namespace Snapshot
variable {snapshot : Snapshot} {path above : String}

/-- A directory stands at the path. -/
def IsDirectory (snapshot : Snapshot) (path : String) : Prop :=
  (snapshot.find? path).map Item.kind = some .directory

instance (snapshot : Snapshot) : DecidablePred snapshot.IsDirectory := fun path =>
  inferInstanceAs (Decidable ((snapshot.find? path).map Item.kind = some .directory))

/-- The root is a directory, and so is the parent of everything else. -/
structure IsTree (snapshot : Snapshot) : Prop where
  root : snapshot.IsDirectory ""
  parent : ∀ path, path ≠ "" → snapshot.Holds path → snapshot.IsDirectory (Path.parent path)

theorem IsDirectory.holds (h : snapshot.IsDirectory path) : snapshot.Holds path := by
  obtain ⟨item, hitem, -⟩ := Option.map_eq_some_iff.mp h
  exact Option.isSome_iff_exists.mpr ⟨item, hitem⟩

theorem isDirectory_iff {item : Item} (h : snapshot.find? path = some item) :
    snapshot.IsDirectory path ↔ item.kind = .directory := by
  rw [IsDirectory, h, Option.map_some, Option.some_inj]

/-- In a tree there are directories all the way down. -/
theorem IsTree.isDirectory_of_above (h : snapshot.IsTree) (hpath : snapshot.Holds path)
    (habove : Path.Above above path) : snapshot.IsDirectory above := by
  induction hlength : path.length using Nat.strongRecOn generalizing path with
  | ind length ih =>
    by_cases hroot : path = ""
    · rw [hroot] at habove
      rw [Path.eq_root_of_above habove]
      exact h.root
    · have hparent := h.parent path hroot hpath
      rcases habove.of_parent with rfl | habove
      · exact hparent
      · exact ih _ (hlength ▸ (Path.above_parent path).length_lt hroot) hparent.holds habove rfl

theorem isTree_iff : snapshot.IsTree ↔ snapshot.Holds "" ∧
    ∀ path, snapshot.Holds path → ∀ above, Path.Above above path → snapshot.IsDirectory above := by
  constructor
  · exact fun h => ⟨h.root.holds, fun path hpath above => h.isDirectory_of_above hpath⟩
  · rintro ⟨hroot, h⟩
    exact ⟨h "" hroot "" (Path.above_root ""), fun path _ hpath =>
      h path hpath _ (Path.above_parent path)⟩

theorem holds_iff_exists : snapshot.Holds path ↔ ∃ entry ∈ snapshot, entry.1 = path := by
  induction snapshot with
  | nil => simp [Holds, find?]
  | cons entry rest ih =>
    rw [Holds, find?_cons]
    by_cases hpath : entry.1 = path
    · simp [hpath]
    · rw [if_neg hpath, ← Holds, ih]
      simp [hpath]

instance : DecidablePred IsTree := fun snapshot =>
  decidable_of_iff (snapshot.IsDirectory "" ∧
      ∀ entry ∈ snapshot, entry.1 ≠ "" → snapshot.IsDirectory (Path.parent entry.1)) <| by
    constructor
    · rintro ⟨hroot, hparent⟩
      refine ⟨hroot, fun path hne hpath => ?_⟩
      obtain ⟨entry, hentry, rfl⟩ := holds_iff_exists.mp hpath
      exact hparent entry hentry hne
    · exact fun h => ⟨h.root, fun entry hentry hne =>
        h.parent entry.1 hne (holds_iff_exists.mpr ⟨entry, hentry, rfl⟩)⟩

/-- **Nothing is below a file of a tree.** -/
theorem IsTree.not_holds_below (h : snapshot.IsTree) {file : Item}
    (hfile : snapshot.find? path = some file) (hkind : file.kind ≠ .directory) {below : String}
    (hbelow : Path.Above path below) : ¬ snapshot.Holds below := fun hholds =>
  hkind ((isDirectory_iff hfile).mp (h.isDirectory_of_above hholds hbelow))

end Snapshot

/-- A file of the change goes above something that the change leaves there.  It does if it
goes to the root, which is above itself. -/
def Change.Buries (change : Change) (before : Snapshot) : Prop :=
  ∃ file ∈ change.addedFiles, ∃ path, Path.Above file path ∧
    (path ∈ change.touched ∨ change.drops path = false ∧ before.Holds path)

/-- What is above a path that is spared is spared, unless it is touched. -/
theorem Change.drops_eq_false_of_above {change : Change} {above path : String}
    (habove : Path.Above above path) (hspared : change.drops path = false)
    (htouched : above ∉ change.touched) : change.drops above = false := by
  unfold drops at hspared ⊢
  rw [List.any_eq_false] at hspared ⊢
  intro top htop hwithin
  rcases Path.isWithin_of_above hwithin habove with hwithin | rfl
  · exact hspared top htop hwithin
  · exact htouched (mem_touched.mpr (Or.inl ⟨top, htop, Path.above_root top⟩))

namespace History
variable {history later : History} {change : Change} {path above : String}

/-! ## Commits that keep a tree -/

theorem Draft.find?_of_add {kind : Kind} {revision : Nat} {time : Int} {draft after : Draft}
    {raw : String} (h : draft.add kind revision time raw = .ok after)
    (hne : path ≠ Path.join [raw]) : after.tree.find? path = draft.tree.find? path := by
  rw [Draft.add_ok h]
  exact Snapshot.find?_put.trans (if_neg hne)

/-- What stands above an added path, and is not replaced, is a directory: it is still there
when the path is added. -/
theorem Draft.directory_of_addAll {kind : Kind} {revision : Nat} {time : Int}
    {raws : List String} {draft after : Draft}
    (h : raws.foldlM (add kind revision time) draft = .ok after)
    (hfresh : above ∉ raws.map fun raw => Path.join [raw]) {spot : String}
    (hspot : spot ∈ raws.map fun raw => Path.join [raw]) (habove : Path.Above above spot)
    {item : Item} (hitem : draft.tree.find? above = some item) : item.kind = .directory := by
  have hkept : ∀ (before : Draft) (raw : String) (after : Draft), raw ∈ raws →
      before.tree.find? above = some item → before.add kind revision time raw = .ok after →
      after.tree.find? above = some item := by
    intro before raw after hraw hbefore hadd
    have hne : above ≠ Path.join [raw] := by
      rintro rfl
      exact hfresh (List.mem_map.mpr ⟨raw, hraw, rfl⟩)
    rw [Draft.find?_of_add hadd hne, hbefore]
  obtain ⟨raw, hraw, rfl⟩ := List.mem_map.mp hspot
  obtain ⟨met, next, hmet, hadd⟩ := foldlM_visits hkept hitem h hraw
  exact Draft.directory_of_add hadd habove hmet

/-- **What the deletions leave above an added path, and the additions do not replace, is a
directory.** -/
theorem directory_of_cut (h : history.commit change = .ok later) {spot : String}
    (hspot : spot ∈ change.added) (habove : Path.Above above spot) (hfresh : above ∉ change.added)
    {item : Item} (hitem : (change.cut history.current).find? above = some item) :
    item.kind = .directory := by
  obtain ⟨removed, built, filled, hphases⟩ := exists_phases h
  obtain ⟨hdirectories, hfiles⟩ := not_or.mp (mt List.mem_append.mpr hfresh)
  rcases List.mem_append.mp hspot with hspot | hspot
  · have hremoved : removed.tree.find? above = some item := by
      rw [hphases.removed_tree, hitem]
    exact Draft.directory_of_addAll hphases.building hdirectories hspot habove hremoved
  · have hbuilt : built.tree.find? above = some item := by
      rw [hphases.find?_built, if_neg hdirectories, hitem]
    exact Draft.directory_of_addAll hphases.filling hfiles hspot habove hbuilt

/-- What a commit touches is a file if one is put there, and else a directory if what was
left there was one. -/
theorem isDirectory_of_touched (h : history.commit change = .ok later)
    (htouched : path ∈ change.touched) (hfile : path ∉ change.addedFiles)
    (hleft : path ∉ change.added → ∀ item,
      (change.cut history.current).find? path = some item → item.kind = .directory) :
    later.current.IsDirectory path := by
  have hitem := find?_commit h path
  rw [if_pos htouched] at hitem
  rw [Snapshot.isDirectory_iff hitem]
  show change.kindAt history.current path = .directory
  rw [Change.kindAt, if_neg hfile]
  by_cases hdirectory : path ∈ change.addedDirectories
  · rw [if_pos hdirectory]
  · rw [if_neg hdirectory]
    cases hcut : (change.cut history.current).find? path with
    | none => rfl
    | some item =>
      exact hleft (mt List.mem_append.mp (not_or.mpr ⟨hdirectory, hfile⟩)) item hcut

theorem find?_of_cut {item : Item} (h : (change.cut history.current).find? path = some item) :
    history.current.find? path = some item := by
  rw [find?_cut] at h
  split at h
  · cases h
  · exact h

/-- **A commit to a tree leaves a tree, unless a file buries something.** -/
theorem isTree_commit_iff (htree : history.current.IsTree) (h : history.commit change = .ok later) :
    later.current.IsTree ↔ ¬ change.Buries history.current := by
  constructor
  · rintro hlater ⟨file, hfile, path, habove, hpath⟩
    have hitem := find?_commit h file
    have htouched : file ∈ change.touched :=
      Change.touched_of_added (List.mem_append_right _ hfile)
    rw [if_pos htouched, Change.kindAt, if_pos hfile] at hitem
    have hkind : Kind.file ≠ .directory := by decide
    exact hlater.not_holds_below hitem hkind habove ((holds_commit h path).mpr hpath)
  · intro hbare
    refine Snapshot.isTree_iff.mpr ⟨?_, fun path hpath above habove => ?_⟩
    · exact holds_root_commit htree.root.holds h
    · have hpath := (holds_commit h path).mp hpath
      have hfile : above ∉ change.addedFiles := fun hfile =>
        hbare ⟨above, hfile, path, habove, hpath⟩
      -- What was above something in the tree before, and is left, was a directory.
      have hold : ∀ spot, history.current.Holds spot → Path.Above above spot → ∀ item,
          history.current.find? above = some item → item.kind = .directory :=
        fun spot hspot habove item hitem =>
          (Snapshot.isDirectory_iff hitem).mp (htree.isDirectory_of_above hspot habove)
      rcases hpath with htouched | ⟨hspared, hbefore⟩
      · refine isDirectory_of_touched h (Change.touched_of_above habove htouched) hfile
          fun hfresh item hitem => ?_
        rcases Change.mem_touched.mp htouched with ⟨top, htop, hpath⟩ | ⟨spot, hspot, hpath⟩
        · exact hold top (holds_of_deleted h htop) (habove.trans hpath) item (find?_of_cut hitem)
        · refine directory_of_cut h hspot ?_ hfresh hitem
          exact hpath.elim (fun heq => heq ▸ habove) habove.trans
      · by_cases htouched : above ∈ change.touched
        · exact isDirectory_of_touched h htouched hfile fun _ item hitem =>
            hold path hbefore habove item (find?_of_cut hitem)
        · have hitem := find?_commit h above
          rw [if_neg htouched] at hitem
          rw [Change.drops_eq_false_of_above habove hspared htouched] at hitem
          rw [Snapshot.IsDirectory, hitem]
          exact htree.isDirectory_of_above hbefore habove

theorem isTree_empty : empty.current.IsTree := by
  refine ⟨rfl, fun path hne hpath => ?_⟩
  have hnone : empty.current.find? path = none := if_neg (Ne.symm hne)
  rw [Snapshot.Holds, hnone] at hpath
  cases hpath

/-! ## Runs of commits -/

/-- No commit of a row of attempts buries anything. -/
def Bare : History → List Change → Prop
  | _, [] => True
  | history, change :: rest =>
    (∀ later, history.commit change = .ok later → ¬ change.Buries history.current) ∧
      Bare (history.tried change) rest

/-- **The snapshots of a history stay trees just as long as nothing is buried.** -/
theorem trees_after_iff (changes : List Change)
    (htrees : ∀ snapshot ∈ history.snapshots, snapshot.IsTree) :
    (∀ snapshot ∈ (history.after changes).snapshots, snapshot.IsTree) ↔
      history.Bare changes := by
  induction changes generalizing history with
  | nil => exact iff_of_true htrees trivial
  | cons change rest ih =>
    have hcurrent : history.current.IsTree :=
      htrees _ (List.mem_append_right _ (List.mem_singleton_self _))
    show (∀ snapshot ∈ ((history.tried change).after rest).snapshots, snapshot.IsTree) ↔ _
    unfold Bare
    cases hcommit : history.commit change with
    | error failure =>
      have hsame : history.tried change = history := by simp only [tried, hcommit]
      rw [hsame, ih htrees]
      refine ⟨fun h => ⟨fun later hlater => ?_, h⟩, And.right⟩
      cases hlater
    | ok later =>
      have hnext : history.tried change = later := by simp only [tried, hcommit]
      rw [hnext]
      constructor
      · intro h
        -- The snapshot of this commit is still there at the end.
        have hlater : later.current.IsTree := h _ ((snapshots_prefix_after rest later).subset
          (List.mem_append_right _ (List.mem_singleton_self _)))
        have hbare := (isTree_commit_iff hcurrent hcommit).mp hlater
        refine ⟨fun other hother => hbare, (ih ?_).mp h⟩
        rw [snapshots_commit hcommit]
        exact List.forall_mem_append.mpr ⟨htrees, List.forall_mem_singleton.mpr hlater⟩
      · rintro ⟨hbare, hrest⟩
        refine (ih ?_).mpr hrest
        rw [snapshots_commit hcommit]
        exact List.forall_mem_append.mpr ⟨htrees, List.forall_mem_singleton.mpr
          ((isTree_commit_iff hcurrent hcommit).mpr (hbare later rfl))⟩

/-! ## Going down from the root -/

/-- What is met on the way down from the root, through the children that the directories list
at a revision. -/
inductive Reaches (history : History) (revision : Revision) : String → Kind → Prop
  | root {kind : Kind} (h : history.kind "" revision = .ok kind) : Reaches history revision "" kind
  | child {path : String} {node : Node} {children : List Child} {child : Child}
      (habove : Reaches history revision path .directory)
      (hnode : history.node path revision = .ok node) (hchildren : node.children = some children)
      (hchild : child ∈ children) :
      Reaches history revision (Path.join [path, child.name]) child.kind

variable {revision : Revision} {snapshot : Snapshot} {kind : Kind}

/-- The children that a node lists are those of the snapshot. -/
theorem children_of_node (h : history.snapshot revision = .ok snapshot) {node : Node}
    {children : List Child} (hnode : history.node path revision = .ok node)
    (hchildren : node.children = some children) :
    children = snapshot.children (Path.join [path]) := by
  cases hfind : snapshot.find? (Path.join [path]) with
  | none =>
    rw [node_of_snapshot_none h hfind] at hnode
    cases hnode
  | some item =>
    rw [node_of_snapshot h hfind] at hnode
    cases hnode
    dsimp only at hchildren
    split at hchildren
    · exact (Option.some.inj hchildren).symm
    · cases hchildren

/-- Only paths without an empty segment are met. -/
theorem Reaches.clean (h : history.snapshot revision = .ok snapshot)
    (hreaches : history.Reaches revision path kind) : Path.Clean path := by
  induction hreaches with
  | root => exact Or.inl rfl
  | child habove hnode hchildren hchild ih =>
    rw [children_of_node h hnode hchildren] at hchild
    obtain ⟨item, -, -, hslash, -, -⟩ := Snapshot.of_mem_children hchild
    exact ih.join hslash

/-- **In a tree, a path without an empty segment is met where something stands.** -/
theorem reaches_of_holds (h : history.snapshot revision = .ok snapshot) (htree : snapshot.IsTree)
    (hclean : Path.Clean path) {item : Item} (hitem : snapshot.find? path = some item) :
    history.Reaches revision path item.kind := by
  induction hlength : path.length using Nat.strongRecOn generalizing path item with
  | ind length ih =>
    by_cases hroot : path = ""
    · subst hroot
      refine Reaches.root ?_
      rw [kind_of_snapshot h, show Path.join [""] = "" from rfl, hitem]
      rfl
    · -- The parent is met, and it lists the last segment.
      have hparentClean := hclean.above (Path.above_parent path)
      have hself := Path.join_singleton hparentClean.tidy
      obtain ⟨name, hname, hpath⟩ := hclean.eq_stem_append hroot
      obtain ⟨parent, hparent, hkind⟩ := Option.map_eq_some_iff.mp
        (htree.parent path hroot (Option.isSome_iff_exists.mpr ⟨item, hitem⟩))
      have hmet := ih _ (hlength ▸ (Path.above_parent path).length_lt hroot) hparentClean hparent
        rfl
      rw [hkind] at hmet
      have hhere : snapshot.find? (Path.join [Path.parent path]) = some parent := by
        rw [hself]
        exact hparent
      have hnode := node_of_snapshot h hhere
      rw [if_pos hkind, hself] at hnode
      have hchild : Child.ofItem name item ∈ snapshot.children (Path.parent path) := by
        rw [Snapshot.children_eq_listing]
        refine List.mem_map.mpr ⟨(name, item), ?_, rfl⟩
        refine List.mem_filterMap.mpr ⟨(path, item), Snapshot.mem_of_find? hitem, ?_⟩
        exact Snapshot.namedAt_eq_some.mpr ⟨by rw [← hpath], hpath ▸ hroot, hname.2⟩
      have hreached := Reaches.child hmet hnode rfl hchild
      have hjoin : Path.join [Path.parent path, name] = path := by
        conv_rhs => rw [hpath]
        rw [show [Path.parent path, name] = [Path.parent path] ++ [name] from rfl,
          Path.join_concat _ hname, hself]
      rw [← hjoin]
      exact hreached

/-- **A history consists of trees, as long as no file buries anything.**  Its snapshots are
all trees if and only if none of its commits puts a file over something that it leaves there.
In a snapshot that is a tree, nothing is below a file, and what is said to stand at a path is
met on the way down from the root if and only if the path has no empty segment. -/
theorem snapshots_trees_iff_bare (changes : List Change) :
    let history := empty.after changes
    ((∀ snapshot ∈ history.snapshots, snapshot.IsTree) ↔ empty.Bare changes) ∧
    ∀ revision snapshot, history.snapshot revision = .ok snapshot → snapshot.IsTree →
      (∀ path item, snapshot.find? path = some item → item.kind ≠ .directory →
        ∀ below, Path.Above path below → ¬ snapshot.Holds below) ∧
      ∀ path kind, history.kind path revision = .ok kind → kind ≠ .absent →
        (history.Reaches revision (Path.join [path]) kind ↔ Path.Clean (Path.join [path])) := by
  intro history
  refine ⟨trees_after_iff changes (List.forall_mem_singleton.mpr isTree_empty),
    fun revision snapshot h htree => ⟨fun path item hitem hkind below hbelow =>
      htree.not_holds_below hitem hkind hbelow, fun path kind hkind hpresent => ?_⟩⟩
  refine ⟨fun hreaches => hreaches.clean h, fun hclean => ?_⟩
  rw [kind_of_snapshot h] at hkind
  cases hfind : snapshot.find? (Path.join [path]) with
  | none =>
    rw [hfind] at hkind
    cases hkind
    exact absurd rfl hpresent
  | some item =>
    rw [hfind] at hkind
    cases hkind
    exact reaches_of_holds h htree hclean hfind

/-- Commits of which one puts a file over an empty directory, and one names a path with an
empty segment. -/
def planting : List Change :=
  [⟨["a/b"], ["a/f"], [], none⟩, ⟨["x//y"], ["a/b"], ["a/f"], none⟩]

theorem snapshots_trees_iff_bare_planting :
    let history := empty.after planting
    empty.Bare planting ∧ (∀ below, Path.Above "a/b" below → ¬ history.current.Holds below) ∧
      history.Reaches 1 "a/f" .file ∧ history.kind "x//y" Revision.latest = .ok .directory ∧
      ¬ history.Reaches Revision.latest "x//y" .directory := by
  intro history
  obtain ⟨hiff, hread⟩ := snapshots_trees_iff_bare planting
  have htrees : ∀ snapshot ∈ history.snapshots, snapshot.IsTree := by decide
  have hyoungest : history.snapshot Revision.latest = .ok history.current := rfl
  obtain ⟨hfiles, hmet⟩ := hread Revision.latest history.current hyoungest
    (htrees _ (List.mem_append_right _ (List.mem_singleton_self _)))
  obtain ⟨snapshot, hsnapshot, htree⟩ :
      ∃ snapshot, history.snapshot 1 = .ok snapshot ∧ snapshot.IsTree :=
    ⟨_, rfl, by decide⟩
  have hpast := (hread 1 snapshot hsnapshot htree).2 "a/f" .file rfl (by decide)
  have hspot := hmet "x//y" .directory rfl (by decide)
  refine ⟨hiff.mp htrees, hfiles "a/b" ⟨.file, 2, 2000⟩ rfl (by decide), hpast.mpr (by decide), rfl,
    fun hreaches => ?_⟩
  exact absurd (hspot.mp hreaches) (by decide)

/-- A file takes the place of a directory with something below it, and that of the root. -/
theorem file_buries_directory :
    let history := empty.after [⟨["a/b"], [], [], none⟩, ⟨[], ["a"], [], none⟩]
    let rootless := empty.after [⟨["a/b"], [""], [], none⟩]
    history.kind "a" Revision.latest = .ok .file ∧
      history.kind "a/b" Revision.latest = .ok .directory ∧ ¬ history.current.IsTree ∧
      rootless.kind "" Revision.latest = .ok .file ∧
      rootless.kind "a/b" Revision.latest = .ok .directory ∧ ¬ rootless.current.IsTree := by
  intro history rootless
  refine ⟨rfl, rfl, ?_, rfl, rfl, ?_⟩
  all_goals decide

end History
end HeadFinder
