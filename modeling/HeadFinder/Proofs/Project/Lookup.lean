import HeadFinder.Proofs.Discovery.Isolation
import HeadFinder.Proofs.Discovery.Truncation
import HeadFinder.Proofs.Project.Ends
import HeadFinder.Proofs.Text.Trim

/-! # Heads looked up by name

Looking for all heads of a project goes down a chain of listings, each read at the revision
that the one before it gives; looking a head up resolves one path at the latest revision.
In an archive both come to the same item of the current snapshot (`Chain.item`), so a head
that has been found is found again under its name, with the revision that was reported.
-/
namespace HeadFinder

namespace Text

/-- A text behind slashes begins with one, whatever is trimmed off its end, once a slash is
put there again. -/
theorem exists_trimEnd_slash {slashes : List Char}
    (h : ∀ c ∈ slashes, decide (c = '/') = true) (cs : List Char) :
    ∃ rest, trimEnd (· = '/') (slashes ++ '/' :: cs) ++ ['/'] = '/' :: rest := by
  obtain ⟨cut, hcut, -⟩ := exists_trimEnd (fun c => decide (c = '/')) (slashes ++ '/' :: cs)
  cases htrim : trimEnd (fun c => decide (c = '/')) (slashes ++ '/' :: cs) with
  | nil => exact ⟨[], rfl⟩
  | cons c rest =>
    rw [htrim] at hcut
    have hc : c = '/' := by
      cases slashes with
      | nil => exact (List.cons.inj hcut).1.symm
      | cons slash slashes =>
        rw [← (List.cons.inj hcut).1]
        exact of_decide_eq_true (h slash (List.mem_cons_self ..))
    exact ⟨rest ++ ['/'], by rw [hc]; rfl⟩

/-- An address below a root is the trimmed root and a path after a slash, however many
slashes the root and the path end in. -/
theorem exists_address_below (root base : String) :
    ∃ rest, trimEndSlashes (root ++ "/" ++ base) ++ "/" = trimEndSlashes root ++ ("/" ++ rest) ∧
      trimSlashes ("/" ++ rest) = trimSlashes base := by
  obtain ⟨slashes, hroot, hslashes⟩ := exists_trimEnd (fun c => decide (c = '/')) root.toList
  obtain ⟨cut, hcut, hcutSlashes⟩ :=
    exists_trimEnd (fun c => decide (c = '/')) (slashes ++ '/' :: base.toList)
  obtain ⟨rest, hrest⟩ := exists_trimEnd_slash hslashes base.toList
  refine ⟨String.ofList rest, String.toList_injective ?_, ?_⟩
  · have hidempotent : trimEnd (fun c => decide (c = '/'))
        (trimEnd (fun c => decide (c = '/')) root.toList) =
          trimEnd (fun c => decide (c = '/')) root.toList :=
      List.rdropWhile_idempotent _ _
    unfold trimEndSlashes
    simp only [String.toList_append, String.toList_ofList]
    conv_lhs => rw [hroot]
    rw [List.append_assoc, List.append_assoc, trimEnd_append_of_trimmed hidempotent,
      List.append_assoc]
    exact congrArg _ hrest
  · unfold trimSlashes
    have hslash : ("/" ++ String.ofList rest).toList = '/' :: rest := by simp
    rw [hslash, ← hrest, trim_append_right (by simp), ← trim_append_right hcutSlashes, ← hcut,
      trim_append_left hslashes, ← List.singleton_append, trim_append_left (by simp)]

end Text

/-- The address of a project below an archive's root leads to the path below that root. -/
theorem Archive.locate_below (archive : Archive) (base : String) :
    archive.locate (Text.trimEndSlashes (archive.root ++ "/" ++ base) ++ "/") =
      .ok (Path.join [base]) := by
  obtain ⟨rest, hurl, htrim⟩ := Text.exists_address_below archive.root base
  have hbegins : Text.begins (Text.trimEndSlashes archive.root ++ "/")
      (Text.trimEndSlashes archive.root ++ ("/" ++ rest)) = true :=
    Text.begins_iff_exists.mpr ⟨rest, (String.append_assoc ..).symm⟩
  unfold Archive.locate
  dsimp only
  rw [hurl, hbegins, Bool.not_true, Bool.and_false, if_neg Bool.false_ne_true,
    Text.dropFirst_append]
  unfold Path.join
  rw [List.map_singleton, List.map_singleton, htrim]

namespace Discovery
open Access

variable {history : History} {base : String}

theorem Chain.ne_nil {answer : String → Revision → Except Failure Node} {names : List String}
    {revision : Revision} {children : List Child} (h : Chain answer base names revision children) :
    children ≠ [] := by
  cases h with
  | last _ => exact List.cons_ne_nil _ _
  | next _ _ => exact List.cons_ne_nil _ _

/-- Where a chain of listings of an archive ends: the names on the way are names, and the
last child is the directory that the current snapshot has where they join to. -/
theorem Chain.item (hpinned : history.Pinned) (hclean : history.current.Clean)
    {names : List String} {revision : Revision} {children : List Child}
    (h : Chain (fun path _ => history.node path history.youngest) base names revision children)
    (hreached : Reached history base names revision) {last : Child}
    (hlast : children.getLast? = some last) :
    (∀ name ∈ names ++ children.map Child.name, Text.Plain name) ∧
      ∃ item, history.current.find? (Path.join (base :: (names ++ children.map Child.name))) =
          some item ∧ item.kind = .directory ∧ last.revision = item.revision := by
  have hbelow : ∀ {names : List String} {revision : Revision} {child : Child},
      child ∈ subdirectories (history.node (Path.join (base :: names)) history.youngest) →
      Reached history base names revision → child.kind = .directory ∧
        (∀ name ∈ names ++ [child.name], Text.Plain name) ∧
          ∃ item, history.current.find? (Path.join (base :: (names ++ [child.name]))) = some item ∧
            child.kind = item.kind ∧ child.revision = item.revision := by
    intro names revision child hchild hreached
    obtain ⟨hmem, hkind⟩ := mem_subdirectories.mp hchild
    rw [History.childrenOf_node (History.snapshot_natCast history.getElem?_youngest),
      Path.join_join] at hmem
    exact ⟨hkind, hreached.below hpinned hclean hmem⟩
  induction h with
  | last hchild =>
    obtain ⟨hdirectory, hplain, item, hitem, hkind, hrevision⟩ := hbelow hchild hreached
    cases hlast
    exact ⟨hplain, item, hitem, hkind ▸ hdirectory, hrevision⟩
  | next hchild hrest ih =>
    obtain ⟨-, hplain, item, hitem, -, hrevision⟩ := hbelow hchild hreached
    -- The rest of the chain ends where the whole chain does.
    have hne := hrest.ne_nil
    rw [List.getLast?_cons_of_ne_nil hne] at hlast
    rw [append_names_cons]
    exact ih (Or.inr ⟨hplain, item, hitem, hrevision⟩) hlast

/-- A head of a quest is the directory that the current snapshot has at its name. -/
theorem IsHead.item (hpinned : history.Pinned) (hclean : history.current.Clean) {quest : Quest}
    {accepts : Probe → Bool} {head : Head}
    (h : IsHead (fun path _ => history.node path history.youngest) accepts quest head) :
    Text.trimSlashes head.name = head.name ∧
      ∃ item, history.current.find? (Path.join [quest.base, head.name]) = some item ∧
        item.kind = .directory ∧ head.revision = item.revision := by
  obtain ⟨above, child, hchain, -, -, -, rfl⟩ := h
  obtain ⟨hplain, item, hitem, hkind, hrevision⟩ :=
    hchain.item hpinned hclean (Or.inl ⟨rfl, rfl⟩) List.getLast?_concat
  rw [List.nil_append] at hplain hitem
  have hnames : (above ++ [child]).map Child.name ≠ [] := by simp
  refine ⟨Text.trimSlashes_of_tidy (Text.tidy_intercalate hnames fun name hname =>
    ⟨(hplain name hname).1, (hplain name hname).tidy⟩).2, item, ?_, hkind, hrevision⟩
  rw [Path.join_intercalate _ hplain]
  exact hitem

end Discovery

namespace Project
open Access

variable {ρ α : Type} {history : History} {archive : Archive} {base : String}

attribute [local irreducible] Ends

/-- The archive serves a history at its root, with a session or without. -/
def Holds (archive : Archive) (history : History) (state : Archive) : Prop :=
  state.history = history ∧ state.root = archive.root

/-- The address of a project leads to its base below the root. -/
theorem locates {state : Archive} (h : Holds archive history state) (base : String) :
    Archive.remote.locate (Text.trimEndSlashes (archive.root ++ "/" ++ base) ++ "/") state =
      ⟨.ok (Path.join [base]), state, []⟩ := by
  have hbelow := state.locate_below base
  rw [h.2] at hbelow
  exact congrArg (Archive.reply · state) hbelow

/-- A session of an archive that has been opened for an address and knows its path. -/
def arrived (url path : String) (session : Session Archive ρ) : Session Archive ρ :=
  called (.located url) ⟨.ok path, { session.remote with closed := false }, []⟩
    (called (.connected url) ⟨.ok (), { session.remote with closed := false }, []⟩ session)

/-- What is done for a project begins in a session that knows the base below the root. -/
theorem ends_connected_located {action : String → Access Archive ρ α} {url : String}
    (hurl : url = Text.trimEndSlashes (archive.root ++ "/" ++ base) ++ "/")
    {session : Session Archive ρ} (hholds : Holds archive history session.remote)
    {done : α → Session Archive ρ → Prop} {failed : Failure → Session Archive ρ → Prop} :
    Ends (connected Archive.remote url (locate Archive.remote url >>= action)) session done failed ↔
      Ends (action (Path.join [base])) (arrived url (Path.join [base]) session)
        (fun value after => done value (left Archive.remote after))
        (fun failure after => failed failure (left Archive.remote after)) := by
  have hconnect : Archive.remote.connect url session.remote =
      ⟨.ok (), { session.remote with closed := false }, []⟩ := rfl
  have hopened : Holds archive history { session.remote with closed := false } := hholds
  rw [ends_connected, connect, ends_call_ok hconnect, ends_bind, locate,
    ends_call_ok (hurl ▸ locates hopened base)]
  exact Iff.rfl

/-- A search of an archive reports the heads of its quest, and leaves the history alone. -/
theorem tells_search_archive (hpinned : history.Pinned) (hclean : history.current.Clean)
    (quest : Discovery.Quest) {demands : Option Acceptance}
    (hcriterion : quest.criterion = demands.map Acceptance.criterion)
    (session : Session Archive Roster) (hholds : Holds archive history session.remote) :
    Discovery.Tells Receiver.collecting (Holds archive history)
      (Discovery.IsHead (fun path _ => history.node path history.youngest)
        (Discovery.meets history history.youngest demands) quest)
      (Discovery.search Archive.remote Receiver.collecting quest) session :=
  Discovery.search_tells
    (Discovery.archive_serves_calm Roster hpinned hclean demands hcriterion fun _ h => h.1)
    (fun _ => rfl) (Or.inl ⟨rfl, rfl⟩) session hholds

/-- A search for a project's heads finds heads of its quest only. -/
theorem ends_fetch_archive (hpinned : history.Pinned) (hclean : history.current.Clean)
    {project : Project}
    (hbase : project.base = Text.trimEndSlashes (archive.root ++ "/" ++ base) ++ "/")
    {demands : Option Acceptance}
    (hcriterion : project.criterion = demands.map Acceptance.criterion)
    (session : Session Archive Roster) (hholds : Holds archive history session.remote)
    (hempty : session.receiver.heads = []) :
    Ends (project.fetch Archive.remote Receiver.collecting) session
      (fun _ after => Holds archive history after.remote ∧ ∀ head ∈ after.receiver.heads,
        Discovery.IsHead (fun path _ => history.node path history.youngest)
          (Discovery.meets history history.youngest demands)
          (project.quest (Path.join [base])) head)
      (fun _ _ => False) := by
  have hnoted : Holds archive history (session.note project.opening).remote := hholds
  have htells := tells_search_archive hpinned hclean (project.quest (Path.join [base])) hcriterion
    (arrived project.base (Path.join [base]) (session.note project.opening)) hholds
  rw [ends_fetch, ends_connected_located hbase hnoted, ends_discard]
  refine Ends.mono htells ?_ (fun _ _ h => h)
  rintro goOn after ⟨-, hafter, events, -, hheard, hreports⟩
  refine ⟨hafter, fun head hhead => (hreports head).mp (Event.mem_heads.mp ?_)⟩
  have hentered : head ∈ (session.receiver.addAll (Event.heads events)).heads := by
    rw [← Receiver.hear_collecting]
    exact hheard ▸ hhead
  exact (Roster.mem_of_mem_heads_addAll hentered).resolve_left (hempty ▸ List.not_mem_nil)

/-- A name that is found at the latest revision is looked up with its revision. -/
theorem ends_fetchHead_archive {project : Project}
    (hbase : project.base = Text.trimEndSlashes (archive.root ++ "/" ++ base) ++ "/")
    {session : Session Archive ρ} (hholds : Holds archive history session.remote)
    {name : String} {item : Item} (hkind : item.kind = .directory)
    (hitem : history.current.find? (Path.join [Path.join [base], name]) = some item) :
    Ends (project.fetchHead Archive.remote name) session
      (fun head _ => head = ⟨Text.trimSlashes name, item.revision, none⟩) (fun _ _ => False) := by
  have hnoted : Holds archive history (session.note project.opening).remote := hholds
  have hnode : session.remote.history.node (Path.join [Path.join [base], name]) Revision.latest =
      .ok ⟨item.kind, item.revision, if item.kind = .directory then some (history.current.children
        (Path.join [Path.join [Path.join [base], name]])) else none⟩ := by
    rw [hholds.1]
    exact History.node_of_snapshot (if_pos rfl) (by rw [Path.join_join]; exact hitem)
  have hlisted : (Archive.remote.list (Path.join [Path.join [base], name]) Revision.latest
      (arrived project.base (Path.join [base]) (session.note project.opening)).remote).outcome =
        _ := hnode
  rw [ends_fetchHead, ends_connected_located hbase hnoted, ends_bind, list, ends_attempt_call,
    hlisted, ends_pure, if_neg (by rw [hkind]; exact Kind.noConfusion)]

/-- What a project finds, it finds again under its name. -/
theorem fetchHead_perform (hpinned : history.Pinned) (hclean : history.current.Clean)
    {project : Project}
    (hbase : project.base = Text.trimEndSlashes (archive.root ++ "/" ++ base) ++ "/")
    {demands : Option Acceptance}
    (hcriterion : project.criterion = demands.map Acceptance.criterion)
    (session : Session Archive Roster) (hholds : Holds archive history session.remote)
    (hempty : session.receiver.heads = []) :
    ((project.fetch Archive.remote Receiver.collecting).perform session).1 = .ok () ∧
      ∀ head ∈
          ((project.fetch Archive.remote Receiver.collecting).perform session).2.receiver.heads,
        ((project.fetchHead Archive.remote head.name).perform
          ((project.fetch Archive.remote Receiver.collecting).perform session).2).1 =
            .ok ⟨head.name, head.revision, none⟩ := by
  obtain ⟨_, hresult, hfetched, hheads⟩ :=
    (ends_fetch_archive hpinned hclean hbase hcriterion session hholds hempty).perform_ok
  refine ⟨hresult, fun head hhead => ?_⟩
  obtain ⟨hname, item, hitem, hkind, hrevision⟩ := (hheads head hhead).item hpinned hclean
  obtain ⟨found, hfound, hhead⟩ :=
    (ends_fetchHead_archive hbase hfetched hkind hitem).perform_ok
  rw [hfound, hhead, hname, hrevision]

/-- **Looking for heads and looking one up agree.**  Let an archive have come about by changes
that name no path with an empty segment, and let a project be at some address below its root,
with any lists and a criterion that is made of demands.  Then looking for the heads of the
project does not fail, and each of them is afterwards looked up under its name, with the
revision that was reported and no time. -/
theorem fetchHead_of_fetch (changes : List Change)
    (hclean : ∀ change ∈ changes, change.Clean) (archive : Archive) (base : String)
    (includes excludes : Option String) (demands : Option Acceptance) :
    let history := History.empty.after changes
    let project := Project.ofAddress (archive.root ++ "/" ++ base) includes excludes
      (demands.map Acceptance.criterion)
    let fetched := (project.fetch Archive.remote Receiver.collecting).perform
      (Session.start (archive.holding history) Roster.empty)
    fetched.1 = .ok () ∧ ∀ head ∈ fetched.2.receiver.heads,
      ((project.fetchHead Archive.remote head.name).perform fetched.2).1 =
        .ok ⟨head.name, head.revision, none⟩ :=
  fetchHead_perform (History.pinned_after changes History.pinned_empty)
    (History.clean_after hclean History.clean_empty) rfl rfl
    (Session.start (archive.holding (History.empty.after changes)) Roster.empty) ⟨rfl, rfl⟩ rfl

theorem fetchHead_of_fetch_founding :
    let history := History.empty.after Discovery.founding
    let project := Project.ofAddress (Archive.empty.root ++ "/" ++ "branches") (some "*") none
      ((some (Acceptance.required .all ["src"])).map Acceptance.criterion)
    let fetched := (project.fetch Archive.remote Receiver.collecting).perform
      (Session.start (Archive.empty.holding history) Roster.empty)
    fetched.2.receiver.heads = [⟨"fix", 1, some 1000⟩] ∧
      ∀ head ∈ fetched.2.receiver.heads,
        ((project.fetchHead Archive.remote head.name).perform fetched.2).1 =
          .ok ⟨head.name, head.revision, none⟩ := by
  have hclean : ∀ change ∈ Discovery.founding, change.Clean := by decide
  exact ⟨by decide +kernel, (fetchHead_of_fetch Discovery.founding hclean Archive.empty "branches"
    (some "*") none (some (.required .all ["src"]))).2⟩

end Project
end HeadFinder
