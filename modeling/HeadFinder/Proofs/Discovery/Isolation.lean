import HeadFinder.Proofs.Discovery.Busy
import HeadFinder.Proofs.Discovery.Exactness
import HeadFinder.Proofs.Discovery.Paths
import HeadFinder.Proofs.History.Clean

/-! # Isolation from commits

A search of an archive sees the snapshot that was the latest when the root was listed,
although it reads at many older revisions: a directory that it gets to stands in the
snapshot of the revision it is read at as it stands in the latest.  So the archive
serves the search what its current snapshot holds (`archive_serves`), and commits that
land meanwhile change nothing.
-/
namespace HeadFinder

/-- Whether something stands at a path. -/
def History.stands (history : History) (path : String) (revision : Revision) : Bool :=
  (history.kind path revision).toOption.any (· ≠ .absent)

theorem History.stands_of_kind {history : History} {raw : String} {revision : Revision}
    {kind : Kind} (h : history.kind raw revision = .ok kind) :
    history.stands raw revision = decide (kind ≠ .absent) := by
  unfold History.stands
  rw [h]
  rfl

/-- The archive with another history. -/
def Archive.holding (archive : Archive) (history : History) : Archive :=
  { archive with history := history }

namespace Discovery
open Access

variable {quest : Quest} {history : History}

/-- The directories that a search of an archive gets to: the root, and directories of
the current snapshot at the revision that it records there. -/
def Reached (history : History) (base : String) (names : List String) (revision : Revision) :
    Prop :=
  (names = [] ∧ revision = Revision.latest) ∨
    ((∀ name ∈ names, Text.Plain name) ∧
      ∃ item, history.current.find? (Path.join (base :: names)) = some item ∧
        revision = item.revision)

/-- Whether a candidate meets the demands, if any, by what stands below it at one
revision. -/
def meets (history : History) (revision : Revision) (demands : Option Acceptance) (probe : Probe) :
    Bool :=
  match demands with
  | none => true
  | some acceptance =>
    acceptance.holds fun path => history.stands (Path.join [probe.root, path]) revision

/-- What is in a listing of a directory that is reached is what the current snapshot
has there. -/
theorem Reached.childrenOf_node (hpinned : history.Pinned) {names : List String}
    {revision : Revision} (h : Reached history quest.base names revision) :
    childrenOf (history.node (Path.join (quest.base :: names)) revision).toOption =
      History.childrenIn history.current (Path.join (quest.base :: names)) := by
  rcases h with ⟨-, rfl⟩ | ⟨-, item, hitem, rfl⟩
  · rw [History.childrenOf_node (if_pos rfl), Path.join_join]
  · rw [hpinned.node_eq history.getElem?_youngest (by rw [Path.join_join, hitem]),
      History.childrenOf_node (History.snapshot_natCast history.getElem?_youngest),
      Path.join_join]

/-- A child of a directory that is reached is reached. -/
theorem Reached.below (hpinned : history.Pinned) (hclean : history.current.Clean)
    {base : String} {names : List String} {revision : Revision}
    (h : Reached history base names revision) {child : Child}
    (hchild : child ∈ History.childrenIn history.current (Path.join (base :: names))) :
    (∀ name ∈ names ++ [child.name], Text.Plain name) ∧
      ∃ item, history.current.find? (Path.join (base :: (names ++ [child.name]))) = some item ∧
        child.kind = item.kind ∧ child.revision = item.revision := by
  obtain ⟨item, hmem, hne, hslash, hkind, hrevision⟩ :=
    Snapshot.of_mem_children (History.of_mem_childrenIn hchild)
  have hitem := Snapshot.find?_of_mem (hpinned.ascending _ _ history.getElem?_youngest) hmem
  have hplain := (hclean _ _ hitem).plain hne hslash
  have hnames : ∀ name ∈ names, Text.Plain name := by
    rcases h with ⟨rfl, -⟩ | ⟨hnames, -⟩
    · exact fun name hname => nomatch hname
    · exact hnames
  refine ⟨fun name hname => ?_, item, ?_, hkind, hrevision⟩
  · rcases List.mem_append.mp hname with hname | hname
    · exact hnames name hname
    · rw [List.mem_singleton.mp hname]
      exact hplain
  · rw [← List.cons_append, Path.join_concat _ hplain]
    exact hitem

/-- What is asked about a candidate at its own revision is so in the current snapshot. -/
theorem finds_of_reached (hpinned : history.Pinned) {Calm : Archive → Prop}
    (hhistory : ∀ archive, Calm archive → archive.history = history)
    {names : List String} (hnames : names ≠ [])
    (hplain : ∀ name ∈ names, Text.Plain name) {child : Child} {item : Item}
    (hitem : history.current.find? (Path.join (quest.base :: names)) = some item)
    (hrevision : child.revision = item.revision) :
    Inquiry.Finds Archive.remote Calm (candidate quest names child) fun path =>
      history.stands (Path.join [(candidate quest names child).root, path]) history.youngest := by
  intro path archive hcalm
  obtain rfl := hhistory archive hcalm
  have hroot : (candidate quest names child).root = Path.join (quest.base :: names) :=
    candidate_root hplain child
  have hyoungest := History.getElem?_youngest archive.history
  obtain ⟨-, ⟨old, hold, holdItem, hbelow⟩, -⟩ := hpinned.pinned _ _ hyoungest _ _ hitem
  -- The path asked for is the candidate's or lies below it, where the snapshots agree.
  have hsame : old.find? (Path.join [Path.join [Path.join (quest.base :: names), path]]) =
      archive.history.current.find?
        (Path.join [Path.join [Path.join (quest.base :: names), path]]) := by
    rw [Path.join_join]
    have hne := Path.join_ne_empty quest.base hnames hplain
    rcases Path.above_join hne (Path.tidy_join _) path with heq | habove
    · rw [heq, holdItem, hitem]
    · exact hbelow _ habove
  have hkind : archive.history.kind (Path.join [(candidate quest names child).root, path])
      child.revision = archive.history.kind
        (Path.join [(candidate quest names child).root, path]) archive.history.youngest := by
    rw [hrevision, History.kind_natCast hold, History.kind_natCast hyoungest, hroot, hsame]
  rw [History.kind_natCast hyoungest] at hkind
  exact ⟨hcalm, _, hkind, History.stands_of_kind (History.kind_natCast hyoungest _)⟩

/-- **An archive serves a search what its current snapshot holds**, whatever else is known
of the archive, for being asked does not change it. -/
theorem archive_serves_calm (ρ : Type) (hpinned : history.Pinned) (hclean : history.current.Clean)
    (demands : Option Acceptance) (hquest : quest.criterion = demands.map Acceptance.criterion)
    {Calm : Archive → Prop} (hhistory : ∀ archive, Calm archive → archive.history = history) :
    Serves ρ Archive.remote quest (fun path _ => history.node path history.youngest)
      (meets history history.youngest demands) (Reached history quest.base) Calm := by
  have hcurrent : ∀ names, childrenOf (history.node (Path.join (quest.base :: names))
      history.youngest).toOption =
        History.childrenIn history.current (Path.join (quest.base :: names)) := by
    intro names
    rw [History.childrenOf_node (History.snapshot_natCast history.getElem?_youngest),
      Path.join_join]
  refine ⟨fun place archive _ hcalm => hcalm, ?_, ?_, ?_, ?_, ?_⟩
  · intro place archive hreached hcalm
    obtain rfl := hhistory archive hcalm
    rw [hcurrent]
    exact hreached.childrenOf_node hpinned
  · -- The revision is one that there is, so only the node can be missing.
    intro place archive failure hreached hcalm hanswered
    obtain rfl := hhistory archive hcalm
    rcases hreached with ⟨-, hrevision⟩ | ⟨-, item, hitem, hrevision⟩
    · exact History.isMissing_of_node (if_pos hrevision) hanswered
    · obtain ⟨-, ⟨old, hold, -⟩, -⟩ :=
        hpinned.pinned _ _ (History.getElem?_youngest _) _ _ hitem
      have hsnapshot : archive.history.snapshot place.revision = .ok old := by
        rw [hrevision, History.snapshot_natCast hold]
      exact History.isMissing_of_node hsnapshot hanswered
  · intro names revision _
    rw [hcurrent]
    exact History.nodup_names_childrenIn (hpinned.ascending _ _ history.getElem?_youngest) _
  · intro names revision child hreached hchild
    rw [mem_subdirectories, hcurrent] at hchild
    obtain ⟨hplain, item, hitem, -, hrevision⟩ := hreached.below hpinned hclean hchild.1
    exact Or.inr ⟨hplain, item, hitem, hrevision⟩
  · intro names revision child session hreached hchild hcalm
    rw [mem_subdirectories, hcurrent] at hchild
    obtain ⟨hplain, item, hitem, -, hrevision⟩ := hreached.below hpinned hclean hchild.1
    cases demands with
    | none =>
      rw [ends_judge_none hquest]
      exact ⟨rfl, hcalm⟩
    | some acceptance =>
      have hfinds := finds_of_reached hpinned hhistory (by simp) hplain hitem hrevision
      rw [ends_judge_some hquest]
      exact Acceptance.ask_gives hfinds acceptance _ hcalm

theorem archive_serves (ρ : Type) (hpinned : history.Pinned) (hclean : history.current.Clean)
    (demands : Option Acceptance) (hquest : quest.criterion = demands.map Acceptance.criterion) :
    Serves ρ Archive.remote quest (fun path _ => history.node path history.youngest)
      (meets history history.youngest demands) (Reached history quest.base)
      (fun archive => archive.history = history) :=
  archive_serves_calm ρ hpinned hclean demands hquest fun _ h => h

/-- The quest with demands for a criterion. -/
def Quest.demanding (quest : Quest) (demands : Option Acceptance) : Quest :=
  { quest with criterion := demands.map Acceptance.criterion }

/-- **A search is isolated from commits.**  Let an archive have come about by changes
that name no path with an empty segment, and let the criterion be made of demands.  A
search that others commit to between its calls, after the root has been listed, has the
account, the receiver and the outcome of a search that nobody disturbs.  If the receiver
never has enough, what it hears are exactly the heads that all the answers at the one
revision which was the youngest at the start lead to. -/
theorem search_isolated {ρ : Type} (changes : List Change)
    (hclean : ∀ change ∈ changes, change.Clean) (archive : Archive)
    (pending : List (List Change)) (receiver : Receiver ρ) (quest : Quest)
    (demands : Option Acceptance) (wants : ρ) :
    let history := History.empty.after changes
    let alone := (search Archive.remote receiver (quest.demanding demands)).perform
      (Session.start (archive.holding history) wants)
    let amid := (search Archive.busy receiver (quest.demanding demands)).perform
      (Session.start (archive.holding history, pending) wants)
    amid.1 = alone.1 ∧ amid.2.account = alone.2.account ∧ amid.2.receiver = alone.2.receiver ∧
      ((∀ wants, receiver.observing wants = true) →
        amid.1 = .ok true ∧ amid.2.receiver = receiver.hear amid.2.account wants ∧
          ∀ head, .reported head ∈ amid.2.account ↔
            IsHead (fun path _ => history.node path history.youngest)
              (meets history history.youngest demands) (quest.demanding demands) head) := by
  intro history alone amid
  have hpinned : history.Pinned := History.pinned_after changes History.pinned_empty
  have hcleanHistory : history.current.Clean := History.clean_after hclean History.clean_empty
  have hquest : (quest.demanding demands).criterion = demands.map Acceptance.criterion := rfl
  have hstart : (Session.start (archive.holding history) wants).Agree
      (fun archive state => archive.history = history ∧ state.1.history = history)
      (Session.start (archive.holding history, pending) wants) := ⟨⟨rfl, rfl⟩, rfl, rfl, rfl⟩
  -- What the commits leave alone is what the undisturbed search does.
  obtain ⟨houtcome, hagree⟩ :=
    (search_busy_alike receiver hpinned (asksPinned_of_demands hquest) hstart).perform
  refine ⟨houtcome, hagree.account, hagree.receiver, fun hobserving => ?_⟩
  obtain ⟨goOn, hresult, rfl, -, events, haccount, hheard, hreports⟩ :=
    Ends.perform_ok (search_tells (archive_serves ρ hpinned hcleanHistory demands hquest)
      hobserving (Or.inl ⟨rfl, rfl⟩) (Session.start (archive.holding history) wants) rfl)
  have hevents : alone.2.account = events := haccount
  rw [houtcome, hagree.receiver, hagree.account, hevents]
  exact ⟨hresult, hheard, hreports⟩

/-- Two commits: a trunk and a branch, and a directory for tags. -/
def founding : List Change :=
  [⟨["branches/fix/src"], ["trunk/README"], [], none⟩, ⟨["tags"], [], [], some 7⟩]

/-- Commits that take the branch away and make another. -/
def bustle : List (List Change) :=
  [[⟨[], [], ["branches/fix"], none⟩], [], [⟨["branches/new/src"], [], ["trunk"], none⟩]]

/-- The branches with sources. -/
def branches : Quest :=
  ⟨"", [["branches", "*"]], [], none, defaultChannel⟩

theorem search_isolated_bustle :
    let history := History.empty.after founding
    let amid := (search Archive.busy Receiver.collecting
      (branches.demanding (some (.required .all ["src"])))).perform
        (Session.start (Archive.empty.holding history, bustle) Roster.empty)
    amid.1 = .ok true ∧ .reported ⟨"branches/fix", 1, some 1000⟩ ∈ amid.2.account := by
  have hclean : ∀ change ∈ founding, change.Clean := by decide
  obtain ⟨-, -, -, h⟩ := search_isolated founding hclean Archive.empty bustle
    Receiver.collecting branches (some (.required .all ["src"])) Roster.empty
  obtain ⟨hresult, -, hheads⟩ := h fun _ => rfl
  -- In the snapshot that the root was listed in, the branch is there with its sources.
  have hchain : Chain (fun path _ => (History.empty.after founding).node path
      (History.empty.after founding).youngest) "" [] Revision.latest
      ([⟨"branches", .directory, 1, some 1000⟩] ++ [⟨"fix", .directory, 1, some 1000⟩]) :=
    .next (by decide) (.last (by decide))
  refine ⟨hresult, (hheads _).mpr ⟨_, _, hchain, ⟨["branches", "*"], ?_⟩, ?_⟩⟩
  · decide
  · decide

end Discovery
end HeadFinder
