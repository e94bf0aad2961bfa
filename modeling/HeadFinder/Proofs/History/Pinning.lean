import HeadFinder.Proofs.History.Commit

/-! # Last-changed revisions pin subtrees

The revision that a snapshot records at a path is one in which the whole subtree was
already as it is: it can be read there instead.  `Pinned` is the invariant of a
history that says so for all its snapshots, and every commit keeps it.
-/
namespace HeadFinder.History

/-- The snapshots of all revisions, the first first. -/
def snapshots (history : History) : List Snapshot :=
  history.past ++ [history.current]

/-- The history after an attempt to commit a change: one that fails leaves it. -/
def tried (history : History) (change : Change) : History :=
  match history.commit change with
  | .ok after => after
  | .error _ => history

/-- The history after an attempt to commit each change in turn. -/
def after (history : History) (changes : List Change) : History :=
  changes.foldl tried history

/-- What every successful commit preserves, a row of attempts preserves. -/
theorem after_preserves (P : History → Prop) {changes : List Change}
    (hstep : ∀ {history later : History}, ∀ change ∈ changes, P history →
      history.commit change = .ok later → P later)
    {history : History} (h : P history) : P (history.after changes) := by
  induction changes generalizing history with
  | nil => exact h
  | cons change rest ih =>
    refine ih (fun other hother => hstep other (List.mem_cons_of_mem _ hother)) ?_
    unfold tried
    cases hcommit : history.commit change with
    | error failure => exact h
    | ok later => exact hstep change (List.mem_cons_self ..) h hcommit

/-- A commit adds a snapshot behind those that are there. -/
theorem snapshots_commit {history later : History} {change : Change}
    (h : history.commit change = .ok later) :
    later.snapshots = history.snapshots ++ [later.current] := by
  obtain ⟨snapshot, -, hlater⟩ := bind_ok h
  cases hlater
  rfl

/-- Snapshots that are there stay there. -/
theorem snapshots_prefix_after (changes : List Change) (history : History) :
    history.snapshots <+: (history.after changes).snapshots := by
  refine after_preserves (history.snapshots <+: ·.snapshots) ?_ (List.prefix_refl _)
  intro between later change _ h hcommit
  rw [snapshots_commit hcommit]
  exact h.trans (List.prefix_append _ _)

/-- What stands at a path of a snapshot, with all that is below it, has been so since
the item's revision, and nothing above it is older. -/
structure PinnedAt (history : History) (revision : Nat) (snapshot : Snapshot) (path : String)
    (item : Item) : Prop where
  past : item.revision ≤ revision
  same : ∃ old, history.snapshots[item.revision]? = some old ∧ old.find? path = some item ∧
    ∀ other, Path.Above path other → old.find? other = snapshot.find? other
  newer : ∀ above, Path.Above above path →
    ∃ found, snapshot.find? above = some found ∧ item.revision ≤ found.revision

/-- The invariant of histories: every snapshot is ascending, and what it holds is
pinned. -/
structure Pinned (history : History) : Prop where
  ascending : ∀ (revision : Nat) (snapshot : Snapshot),
    history.snapshots[revision]? = some snapshot → snapshot.Ascending
  pinned : ∀ (revision : Nat) (snapshot : Snapshot), history.snapshots[revision]? = some snapshot →
    ∀ path item, snapshot.find? path = some item → history.PinnedAt revision snapshot path item

variable {history later : History} {change : Change} {snapshot : Snapshot} {revision : Nat}

theorem getElem?_youngest (history : History) :
    history.snapshots[history.youngest]? = some history.current :=
  List.getElem?_concat_length

theorem lt_length_snapshots :
    revision < history.snapshots.length ↔ revision ≤ history.youngest := by
  unfold snapshots youngest
  rw [List.length_append, List.length_singleton]
  omega

/-- The snapshots of a history stay where they are when it goes on. -/
theorem getElem?_commit (h : later.past = history.past ++ [history.current])
    (hget : history.snapshots[revision]? = some snapshot) :
    later.snapshots[revision]? = some snapshot := by
  obtain ⟨hlt, -⟩ := List.getElem?_eq_some_iff.mp hget
  unfold snapshots at *
  rw [h, List.getElem?_append_left hlt, hget]

/-- A snapshot of a history that has gone on is an old one or the current one. -/
theorem getElem?_of_commit (h : later.past = history.past ++ [history.current])
    (hget : later.snapshots[revision]? = some snapshot) :
    history.snapshots[revision]? = some snapshot ∨
      revision = history.youngest + 1 ∧ snapshot = later.current := by
  unfold snapshots at hget
  rw [h] at hget
  rcases Nat.lt_or_ge revision (history.past ++ [history.current]).length with hlt | hge
  · rw [List.getElem?_append_left hlt] at hget
    exact Or.inl hget
  · right
    obtain ⟨hlt, hlast⟩ := List.getElem?_eq_some_iff.mp hget
    have hrevision : revision = (history.past ++ [history.current]).length := by
      rw [List.length_append, List.length_singleton] at hlt
      omega
    subst hrevision
    refine ⟨by rw [List.length_append]; rfl, ?_⟩
    rw [← hlast, List.getElem_concat_length rfl]

theorem PinnedAt.commit (h : later.past = history.past ++ [history.current]) {path : String}
    {item : Item} (hpinned : history.PinnedAt revision snapshot path item) :
    later.PinnedAt revision snapshot path item where
  past := hpinned.past
  same := by
    obtain ⟨old, hget, hsame⟩ := hpinned.same
    exact ⟨old, getElem?_commit h hget, hsame⟩
  newer := hpinned.newer

/-- **A commit keeps subtrees pinned.** -/
theorem Pinned.commit (hpinned : history.Pinned) (h : history.commit change = .ok later) :
    later.Pinned := by
  obtain ⟨hpast, hascending, touched, hadvances⟩ :=
    commit_advances (hpinned.ascending _ _ history.getElem?_youngest) h
  have hcurrent := hpinned.pinned _ _ history.getElem?_youngest
  have hyoungest : later.youngest = history.youngest + 1 := by
    unfold youngest
    rw [hpast, List.length_append, List.length_singleton]
  refine ⟨fun revision snapshot hget => ?_, fun revision snapshot hget path item hitem => ?_⟩
  · rcases getElem?_of_commit hpast hget with hold | ⟨-, rfl⟩
    · exact hpinned.ascending revision snapshot hold
    · exact hascending
  rcases getElem?_of_commit hpast hget with hold | ⟨rfl, rfl⟩
  · exact (hpinned.pinned revision snapshot hold path item hitem).commit hpast
  by_cases hpath : path ∈ touched
  · -- A touched path carries the new revision, and so does all that is above it.
    have hrevision : ∀ spot ∈ touched, ∀ found, later.current.find? spot = some found →
        found.revision = history.youngest + 1 := by
      intro spot hspot found hfound
      obtain ⟨kind, modified, hfresh⟩ := hadvances.fresh spot hspot
      rw [hfound] at hfresh
      rw [Option.some.inj hfresh]
    have hitemRevision := hrevision path hpath item hitem
    refine ⟨Nat.le_of_eq hitemRevision, ⟨later.current, ?_, hitem, fun _ _ => rfl⟩, ?_⟩
    · rw [hitemRevision, ← hyoungest, getElem?_youngest]
    · intro above habove
      have hin := hadvances.closed path hpath above habove
      obtain ⟨kind, modified, hfresh⟩ := hadvances.fresh above hin
      exact ⟨_, hfresh, Nat.le_of_eq hitemRevision⟩
  · -- An untouched path is as before, so that its old pin still holds.
    have hbefore := hadvances.kept path hpath item hitem
    obtain ⟨hpast', ⟨old, hold, holdItem, hbelow⟩, hnewer⟩ := hcurrent path item hbefore
    refine ⟨by omega, ⟨old, getElem?_commit hpast hold, holdItem, fun other hother => ?_⟩,
      fun above habove => ?_⟩
    · rw [hbelow other hother, hadvances.below path hpath item hitem other hother]
    · by_cases hin : above ∈ touched
      · obtain ⟨kind, modified, hfresh⟩ := hadvances.fresh above hin
        exact ⟨_, hfresh, Nat.le_succ_of_le hpast'⟩
      · obtain ⟨found, hfound, hle⟩ := hnewer above habove
        refine ⟨found, ?_, hle⟩
        rw [hadvances.above path hpath item hitem above hin habove, hfound]

theorem pinned_empty : empty.Pinned := by
  have honly : ∀ (revision : Nat) (snapshot : Snapshot),
      empty.snapshots[revision]? = some snapshot →
        revision = 0 ∧ snapshot = [("", ⟨.directory, 0, 0⟩)] := by
    intro revision snapshot h
    obtain ⟨hlt, hget⟩ := List.getElem?_eq_some_iff.mp h
    have : revision = 0 := by
      have : revision < 1 := hlt
      omega
    subst this
    exact ⟨rfl, hget.symm⟩
  refine ⟨fun revision snapshot h => ?_, fun revision snapshot h path item hitem => ?_⟩
  · obtain ⟨rfl, rfl⟩ := honly revision snapshot h
    exact List.pairwise_singleton _ _
  · obtain ⟨rfl, rfl⟩ := honly revision snapshot h
    rw [Snapshot.find?_cons] at hitem
    split at hitem
    · rename_i hpath
      cases hitem
      refine ⟨Nat.le_refl _, ⟨_, rfl, ?_, fun _ _ => rfl⟩, fun above habove => ?_⟩
      · rw [← hpath]
        rfl
      · rw [← hpath] at habove
        rw [Path.eq_root_of_above habove]
        exact ⟨_, rfl, Nat.le_refl _⟩
    · cases hitem

/-- **Every history keeps subtrees pinned**, whatever has been committed. -/
theorem pinned_after (changes : List Change) (h : history.Pinned) :
    (history.after changes).Pinned :=
  after_preserves Pinned (fun _ _ h => Pinned.commit h) h

/-! ## Reading at a pinned revision -/

theorem snapshot_natCast (hget : history.snapshots[revision]? = some snapshot) :
    history.snapshot revision = .ok snapshot := by
  have hsign : ¬ (revision : Int) < 0 := by omega
  have hlatest : (revision : Revision) ≠ Revision.latest := by
    show (revision : Int) ≠ -1
    omega
  unfold snapshots at hget
  rw [History.snapshot, if_neg hlatest, if_neg hsign, Int.toNat_natCast, hget]

theorem exists_snapshot (h : revision ≤ history.youngest) :
    ∃ snapshot, history.snapshots[revision]? = some snapshot :=
  ⟨_, List.getElem?_eq_getElem (lt_length_snapshots.mpr h)⟩

/-- Only revisions that there are have snapshots, and the latest. -/
theorem exists_of_snapshot {asked : Revision} (h : history.snapshot asked = .ok snapshot) :
    ∃ revision ≤ history.youngest, history.snapshots[revision]? = some snapshot ∧
      (asked = Revision.latest ∨ asked = revision) := by
  unfold History.snapshot at h
  split at h
  · rename_i hlatest
    cases h
    exact ⟨history.youngest, Nat.le_refl _, history.getElem?_youngest, Or.inl hlatest⟩
  · split at h
    · cases h
    · rename_i hsign
      split at h
      · rename_i hget
        cases h
        obtain ⟨hlt, -⟩ := List.getElem?_eq_some_iff.mp hget
        exact ⟨asked.toNat, lt_length_snapshots.mp hlt, hget,
          Or.inr (Int.toNat_of_nonneg (Int.not_lt.mp hsign)).symm⟩
      · cases h

/-- What stands at a path of the snapshot of a revision is read there. -/
theorem node_of_snapshot {asked : Revision} (h : history.snapshot asked = .ok snapshot)
    {raw : String} {item : Item} (hitem : snapshot.find? (Path.join [raw]) = some item) :
    history.node raw asked = .ok ⟨item.kind, item.revision,
      if item.kind = .directory then some (snapshot.children (Path.join [raw])) else none⟩ := by
  simp only [node, h, bind, Except.bind, hitem]
  rfl

/-- Where nothing stands, there is no node to read. -/
theorem node_of_snapshot_none {asked : Revision} (h : history.snapshot asked = .ok snapshot)
    {raw : String} (hmissing : snapshot.find? (Path.join [raw]) = none) :
    history.node raw asked = .error (.nodeMissing (Path.join [raw]) asked) := by
  simp only [node, h, bind, Except.bind, hmissing]
  rfl

theorem kind_of_snapshot {asked : Revision} (h : history.snapshot asked = .ok snapshot)
    (raw : String) : history.kind raw asked =
      .ok (((snapshot.find? (Path.join [raw])).map Item.kind).getD .absent) := by
  simp only [kind, h, bind, Except.bind]
  cases snapshot.find? (Path.join [raw]) <;> rfl

theorem node_natCast (hget : history.snapshots[revision]? = some snapshot) {raw : String}
    {item : Item} (hitem : snapshot.find? (Path.join [raw]) = some item) :
    history.node raw revision = .ok ⟨item.kind, item.revision,
      if item.kind = .directory then some (snapshot.children (Path.join [raw])) else none⟩ :=
  node_of_snapshot (snapshot_natCast hget) hitem

theorem kind_natCast (hget : history.snapshots[revision]? = some snapshot) (raw : String) :
    history.kind raw revision =
      .ok (((snapshot.find? (Path.join [raw])).map Item.kind).getD .absent) :=
  kind_of_snapshot (snapshot_natCast hget) raw

/-- A pinned node reads the same at its own revision. -/
theorem Pinned.node_eq (hpinned : history.Pinned)
    (hget : history.snapshots[revision]? = some snapshot) {raw : String} {item : Item}
    (hitem : snapshot.find? (Path.join [raw]) = some item) :
    history.node raw item.revision = history.node raw revision := by
  obtain ⟨-, ⟨old, hold, holdItem, hbelow⟩, -⟩ :=
    hpinned.pinned revision snapshot hget _ item hitem
  rw [node_natCast hget hitem, node_natCast hold holdItem]
  rw [Snapshot.children_congr (hpinned.ascending _ _ hold) (hpinned.ascending _ _ hget) hbelow]

/-- **Last-changed revisions pin subtrees.**  After any commits, failing ones among
them, let a snapshot hold an item at a path.  Then the item's revision is no later, its
snapshot holds the same at the path and at every path below it, and every ancestor is
there with a revision that is no older.  A path that names itself is read the same at
both revisions, and so is what stands below. -/
theorem subtrees_pinned (changes : List Change) (revision : Nat)
    (h : revision ≤ (empty.after changes).youngest) :
    let history := empty.after changes
    ∃ snapshot, history.snapshot revision = .ok snapshot ∧
      ∀ path item, snapshot.find? path = some item →
        item.revision ≤ revision ∧
        (∃ old, history.snapshot item.revision = .ok old ∧ old.find? path = some item ∧
          ∀ other, Path.Above path other → old.find? other = snapshot.find? other) ∧
        (∀ above ∈ Path.ancestors path,
          ∃ found, snapshot.find? above = some found ∧ item.revision ≤ found.revision) ∧
        (Path.join [path] = path →
          history.node path item.revision = history.node path revision) ∧
        ∀ other, Path.Above path other → Path.join [other] = other →
          history.kind other item.revision = history.kind other revision := by
  intro history
  have hpinned : history.Pinned := pinned_after changes pinned_empty
  obtain ⟨snapshot, hget⟩ := exists_snapshot h
  refine ⟨snapshot, snapshot_natCast hget, fun path item hitem => ?_⟩
  obtain ⟨hpast, ⟨old, hold, holdItem, hbelow⟩, hnewer⟩ :=
    hpinned.pinned revision snapshot hget path item hitem
  refine ⟨hpast, ⟨old, snapshot_natCast hold, holdItem, hbelow⟩, ?_, ?_, ?_⟩
  · intro above habove
    exact hnewer above (Path.mem_ancestors.mp habove)
  · intro hjoin
    exact hpinned.node_eq hget (by rw [hjoin, hitem])
  · intro other hother hjoin
    rw [kind_natCast hold, kind_natCast hget, hjoin, hbelow other hother]

/-- A directory with a file, another directory beside it, and a deletion that fails. -/
def story : List Change :=
  [⟨["a/b"], ["a/b/c"], [], none⟩, ⟨["d"], [], [], some 7⟩, ⟨[], [], ["e"], none⟩]

theorem subtrees_pinned_story :
    2 ≤ (empty.after story).youngest ∧
      (empty.after story).node "a/b" (1 : Nat) = (empty.after story).node "a/b" (2 : Nat) := by
  have hyoungest : 2 ≤ (empty.after story).youngest := by decide
  obtain ⟨snapshot, hsnapshot, h⟩ := subtrees_pinned story 2 hyoungest
  have hitem : ((empty.after story).snapshot (2 : Nat)).toOption.bind (Snapshot.find? "a/b") =
      some ⟨.directory, 1, 1000⟩ := by decide
  rw [hsnapshot] at hitem
  obtain ⟨-, -, -, hnode, -⟩ := h "a/b" ⟨.directory, 1, 1000⟩ hitem
  exact ⟨hyoungest, hnode (by decide)⟩

end HeadFinder.History
