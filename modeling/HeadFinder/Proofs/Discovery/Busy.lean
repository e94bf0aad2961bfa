import HeadFinder.Proofs.Discovery.Mirror
import HeadFinder.Proofs.History.Pinning

/-! # Archives with others at work

Commits add snapshots and leave those that are there.  Whatever lands between the calls
of a search of an archive, the answers at the revisions that its listings name are
therefore the same, and the search does not notice (`search_busy_alike`).
-/
namespace HeadFinder

namespace History
open Discovery
variable {history later : History} {snapshot : Snapshot} {revision : Revision} {raw : String}

/-- A history that has gone on reads the same at the old revisions. -/
theorem snapshot_of_prefix (h : history.snapshots <+: later.snapshots) {number : Nat}
    (hnumber : number ≤ history.youngest) : later.snapshot number = history.snapshot number := by
  obtain ⟨snapshot, hget⟩ := exists_snapshot hnumber
  have hlater : later.snapshots[number]? = some snapshot := by
    obtain ⟨added, hadded⟩ := h
    rw [← hadded, List.getElem?_append_left (lt_length_snapshots.mpr hnumber), hget]
  rw [snapshot_natCast hlater, snapshot_natCast hget]

theorem node_congr (h : later.snapshot revision = history.snapshot revision) :
    later.node raw revision = history.node raw revision := by
  unfold node
  rw [h]

theorem kind_congr (h : later.snapshot revision = history.snapshot revision) :
    later.kind raw revision = history.kind raw revision := by
  unfold kind
  rw [h]

/-- The children that a directory has in a snapshot; nothing else has any. -/
def childrenIn (snapshot : Snapshot) (path : String) : List Child :=
  match snapshot.find? path with
  | some ⟨.directory, _, _⟩ => snapshot.children path
  | _ => []

/-- What a listing of a history gives. -/
theorem childrenOf_node (h : history.snapshot revision = .ok snapshot) :
    childrenOf (history.node raw revision).toOption = childrenIn snapshot (Path.join [raw]) := by
  simp only [node, childrenIn, h, bind, Except.bind]
  cases snapshot.find? (Path.join [raw]) with
  | none => rfl
  | some item =>
    obtain ⟨kind, changed, modified⟩ := item
    cases kind <;> rfl

/-- Where there is a snapshot, nothing but a missing node is in the way. -/
theorem isMissing_of_node (h : history.snapshot revision = .ok snapshot) {failure : Failure}
    (hnode : history.node raw revision = .error failure) : failure.isMissing = true := by
  simp only [node, h, bind, Except.bind] at hnode
  cases hfind : snapshot.find? (Path.join [raw]) with
  | none =>
    rw [hfind] at hnode
    cases hnode
    rfl
  | some item =>
    rw [hfind] at hnode
    cases hnode

theorem nodup_names_childrenIn (h : snapshot.Ascending) (path : String) :
    ((childrenIn snapshot path).map Child.name).Nodup := by
  unfold childrenIn
  split
  · exact Snapshot.nodup_names_children h path
  · exact List.nodup_nil

theorem of_mem_childrenIn {path : String} {child : Child} (h : child ∈ childrenIn snapshot path) :
    child ∈ snapshot.children path := by
  unfold childrenIn at h
  split at h
  · exact h
  · cases h

/-- The revisions that a history has. -/
def Settled (history : History) (revision : Revision) : Prop :=
  ∃ number ≤ history.youngest, revision = (number : Nat)

/-- A listing names revisions that were there. -/
theorem Pinned.settled (hpinned : history.Pinned) {number : Nat}
    (hnumber : number ≤ history.youngest) (hget : history.snapshots[number]? = some snapshot)
    {path : String} {child : Child} (hchild : child ∈ childrenIn snapshot path) :
    history.Settled child.revision := by
  obtain ⟨item, hmem, -, -, -, hrevision⟩ := Snapshot.of_mem_children (of_mem_childrenIn hchild)
  have hitem := Snapshot.find?_of_mem (hpinned.ascending _ _ hget) hmem
  have := (hpinned.pinned _ _ hget _ _ hitem).past
  exact ⟨item.revision, by omega, hrevision⟩

end History

namespace Archive
open Discovery

/-- An archive that commits are waiting for: the changes that come after each call. -/
abbrev Besieged := Archive × List (List Change)

/-- A reply before which nothing happens, and after which the next changes are
committed. -/
def overtaken (reply : Reply Archive α) : List (List Change) → Reply Besieged α
  | [] => ⟨reply.outcome, (reply.state, []), reply.notes⟩
  | changes :: rest =>
    ⟨reply.outcome, ({ reply.state with history := reply.state.history.after changes }, rest),
      reply.notes⟩

/-- Archives to which others commit between the calls. -/
def busy : Remote Besieged where
  connect url state := overtaken (remote.connect url state.1) state.2
  list path revision state := overtaken (remote.list path revision state.1) state.2
  check path revision state := overtaken (remote.check path revision state.1) state.2
  identify state := overtaken (remote.identify state.1) state.2
  locate url state := overtaken (remote.locate url state.1) state.2
  disconnect state := (remote.disconnect state.1, state.2)

/-- One archive still has its history, and the other's has gone on from it. -/
def Outlived (history : History) (archive : Archive) (state : Besieged) : Prop :=
  archive.history = history ∧ history.snapshots <+: state.1.history.snapshots

variable {history : History}

theorem outlived_overtaken {α : Type} {reply : Reply Archive α}
    (h : history.snapshots <+: reply.state.history.snapshots) {archive : Archive}
    (harchive : archive.history = history) (pending : List (List Change)) :
    Outlived history archive (overtaken reply pending).state := by
  cases pending with
  | nil => exact ⟨harchive, h⟩
  | cons changes rest =>
    exact ⟨harchive, h.trans (History.snapshots_prefix_after changes reply.state.history)⟩

theorem overtaken_outcome {α : Type} (reply : Reply Archive α) (pending : List (List Change)) :
    (overtaken reply pending).outcome = reply.outcome ∧
      (overtaken reply pending).notes = reply.notes := by
  cases pending <;> exact ⟨rfl, rfl⟩

/-- **Commits do not show at the revisions that are there.** -/
theorem mirrors_busy (hpinned : history.Pinned) :
    Mirrors (Outlived history) remote busy history.Settled where
  list := by
    rintro path revision archive state ⟨rfl, hprefix⟩ ⟨number, hnumber, rfl⟩
    obtain ⟨houtcome, hnotes⟩ := overtaken_outcome (remote.list path number state.1) state.2
    refine ⟨houtcome.trans ?_, hnotes, outlived_overtaken hprefix rfl state.2⟩
    exact History.node_congr (History.snapshot_of_prefix hprefix hnumber)
  check := by
    rintro path revision archive state ⟨rfl, hprefix⟩ ⟨number, hnumber, rfl⟩
    obtain ⟨houtcome, hnotes⟩ := overtaken_outcome (remote.check path number state.1) state.2
    refine ⟨houtcome.trans ?_, hnotes, outlived_overtaken hprefix rfl state.2⟩
    exact History.kind_congr (History.snapshot_of_prefix hprefix hnumber)
  gives := by
    rintro path revision archive state ⟨rfl, -⟩ ⟨number, hnumber, rfl⟩ child hchild
    obtain ⟨snapshot, hget⟩ := History.exists_snapshot hnumber
    change child ∈ childrenOf (archive.history.node path number).toOption at hchild
    rw [History.childrenOf_node (History.snapshot_natCast hget)] at hchild
    exact hpinned.settled hnumber hget hchild

end Archive

namespace Discovery
open Access

variable {ρ : Type} {quest : Quest} {history : History}

/-- **A search runs alike whether or not commits land between its calls.** -/
theorem search_busy_alike (receiver : Receiver ρ) (hpinned : history.Pinned)
    (hquest : quest.AsksPinned)
    {session : Session Archive ρ} {session' : Session Archive.Besieged ρ}
    (h : session.Agree (fun archive state => archive.history = history ∧ state.1.history = history)
      session') :
    Alike (Archive.Outlived history) (search Archive.remote receiver quest)
      (search Archive.busy receiver quest) session session' := by
  obtain ⟨harchive, hstate⟩ := h.remotes
  -- The root is listed at the latest revision, before anything has been committed.
  refine visit_alike_of_listing (Archive.mirrors_busy hpinned) hquest
    (levelsBelow quest.includes .root) .root h ?_ ?_ ?_
  · rintro archive state ⟨harchive, hstate⟩
    exact ⟨harchive, hstate ▸ List.prefix_refl _⟩
  · obtain ⟨houtcome, hnotes⟩ := Archive.overtaken_outcome (Archive.remote.list
      (Path.join (quest.base :: Place.root.names)) Place.root.revision session'.remote.1)
      session'.remote.2
    refine ⟨houtcome.trans ?_, hnotes, Archive.outlived_overtaken ?_ harchive _⟩
    · show session'.remote.1.history.node _ _ = session.remote.history.node _ _
      rw [hstate, harchive]
    · show history.snapshots <+: session'.remote.1.history.snapshots
      exact hstate ▸ List.prefix_refl _
  · intro child hchild
    change child ∈ childrenOf (session.remote.history.node _ Revision.latest).toOption at hchild
    rw [harchive, History.childrenOf_node (if_pos rfl)] at hchild
    exact hpinned.settled (Nat.le_refl _) history.getElem?_youngest hchild

end Discovery
end HeadFinder
