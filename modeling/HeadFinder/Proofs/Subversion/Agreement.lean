import HeadFinder.Proofs.Subversion.Answers
import HeadFinder.Proofs.Subversion.Failures
import HeadFinder.Proofs.Markup.Reading

/-! # A client and its history agree

The entries that a client answers with are read from its document as they were written, so
each tells the kind, the address and the revision that the history has for its path.  The
entry for the node itself has another address than those for what stands in it, whose names
are the last parts of their addresses, decoded.  A report of a missing target is recognized as
such.  So a session with the client reads what the history records.
-/
namespace HeadFinder

/-- A child without the time of its last change. -/
def Child.undated (child : Child) : Child :=
  { child with modified := none }

/-- A node without the times at which its children changed. -/
def Node.undated (node : Node) : Node :=
  { node with children := node.children.map (·.map Child.undated) }

namespace Subversion
open Markup (Element)

/-! ## Reports -/

namespace Diagnostic

/-- What is reported is reported behind other text too. -/
theorem reportedAfter_append {last : Char} {cs : List Char}
    (h : reportedAfter (some last) cs = true) (front : List Char) (previous : Option Char) :
    reportedAfter previous (front ++ last :: cs) = true := by
  induction front generalizing previous with
  | nil => rw [List.nil_append, reportedAfter, h, Bool.or_true]
  | cons c front ih => rw [List.cons_append, reportedAfter, ih, Bool.or_true]

/-- **A missing target is recognized by its report.** -/
theorem reportsMissing_missingReport (about : String) :
    reportsMissing (Text.strip (missingReport about)) = true := by
  have hcode : ∀ rest, reportedAfter (some ' ') ("W170000:".toList ++ rest) = true := fun _ => rfl
  obtain ⟨rest, htext⟩ : ∃ rest, (missingReport about).toList =
      "svn: warning: W170000:".toList ++ rest := by
    have hspace : "svn: warning: W170000: ".toList = "svn: warning: W170000:".toList ++ [' '] := by
      decide
    unfold missingReport
    rw [String.toList_append, String.toList_append, hspace, List.append_assoc, List.append_assoc]
    exact ⟨_, rfl⟩
  have hparts : "svn: warning: W170000:".toList =
      "svn: warning:".toList ++ ' ' :: "W170000:".toList := by decide
  -- Trimming leaves the start of the report, which the code ends.
  have hfront : Text.trimEnd Text.isBlank "svn: warning: W170000:".toList =
      "svn: warning: W170000:".toList := by decide
  have hstart : ("svn: warning: W170000:".toList ++ rest).dropWhile Text.isBlank =
      "svn: warning: W170000:".toList ++ rest := rfl
  unfold reportsMissing Text.strip Text.trim
  rw [String.toList_ofList, htext, hstart, Text.trimEnd_append_of_trimmed hfront, hparts,
    List.append_assoc]
  exact reportedAfter_append (hcode _) _ _

end Diagnostic

/-- The failure for a target that is missing at a numbered revision is about the number that is
read from its label. -/
theorem missing_pegged_natural (client : Client) (depth : Depth) (root path : String) (n : Nat) :
    (⟨client, depth, pegged root path n⟩ : Command).missing =
      match Numeral.readInteger (toString (n : Int)) with
      | .ok number => .nodeMissing (address root path) number
      | .error failure => failure := by
  have hsign : ¬ (n : Int) < 0 := by omega
  have hlabel : Revision.label (n : Int) = toString (n : Int) := if_neg hsign
  have hdigits : (decide (toString (n : Int) ≠ "") &&
      (toString (n : Int)).toList.all Text.isDigit) = true := by
    rw [Bool.and_eq_true, decide_eq_true_iff, List.all_eq_true]
    constructor
    · intro hempty
      have hnil := Numeral.toList_toString n
      rw [hempty] at hnil
      exact Nat.toDigits_ne_nil hnil.symm
    · exact fun c hc => Numeral.forall_isDigit (Text.isDigit · = true) (by decide)
        (Numeral.isDigit_of_mem_toString hc)
  unfold Command.missing
  dsimp only
  rw [cutLast_pegged]
  dsimp only
  simp only [String.ofList_toList]
  rw [hlabel]
  refine (if_pos hdigits).trans ?_
  cases Numeral.readInteger (toString (n : Int)) with
  | ok number => rfl
  | error failure => rfl

/-- The failure for a missing target is about its revision. -/
theorem missing_pegged (client : Client) (depth : Depth) (root path : String) {revision : Revision}
    (h : revision = Revision.latest ∨ ∃ n : Nat, Numeral.Short n ∧ revision = n) :
    ∃ missing, (⟨client, depth, pegged root path revision⟩ : Command).missing =
      .nodeMissing missing revision := by
  rcases h with rfl | ⟨n, hn, rfl⟩
  · have hhead : ¬ (decide (Revision.label Revision.latest ≠ "") &&
        (Revision.label Revision.latest).toList.all Text.isDigit) = true := by decide
    unfold Command.missing
    dsimp only
    rw [cutLast_pegged]
    dsimp only
    simp only [String.ofList_toList]
    rw [if_neg hhead]
    exact ⟨_, rfl⟩
  · rw [missing_pegged_natural, Numeral.readInteger_toString hn]
    exact ⟨_, rfl⟩

/-! ## Entries -/

/-- What an entry tells about the item at a path. -/
structure Tells (root : String) (told : String × Item) (entry : Entry) : Prop where
  kind : entry.kind = told.2.kind
  url : entry.url = address root told.1
  revision : entry.revision = told.2.revision

section Entries
variable {root identity : String}

theorem ofElement_of_describes (hroot : Text.trimEndSlashes root = root) {told : String × Item}
    {element : Element} (h : Describes root identity told.1 told.2 element)
    (htidy : Text.Tidy told.1) (hnumber : Numeral.Short told.2.revision) :
    ∃ entry, Entry.ofElement element = .ok entry ∧ Tells root told entry := by
  have hrevision : Entry.revisionText element = toString (told.2.revision : Int) := by
    rw [Entry.revisionText, h.revision]
    rfl
  have hurl : Entry.textOf (element.childrenNamed "url") = address root told.1 := by
    show ((element.child? "url").map Element.text).getD "" = _
    rw [h.url]
    rfl
  refine ⟨Entry.described element told.2.revision, ?_, ?_, ?_, rfl⟩
  · rw [Entry.ofElement_eq, hrevision, Numeral.readInteger_toString hnumber]
    rfl
  · show Kind.ofWord ((element.attribute? "kind").getD "") = _
    rw [h.kind]
    exact Kind.ofWord_word _
  · show Text.trimEndSlashes (Entry.textOf (element.childrenNamed "url")) = _
    rw [hurl, trimEndSlashes_address hroot htidy]

theorem mapM_ofElement (hroot : Text.trimEndSlashes root = root) {tolds : List (String × Item)}
    {elements : List Element}
    (h : List.Forall₂ (fun (told : String × Item) => Describes root identity told.1 told.2)
      tolds elements)
    (htolds : ∀ told ∈ tolds, Text.Tidy told.1 ∧ Numeral.Short told.2.revision) :
    ∃ entries, elements.mapM Entry.ofElement = .ok entries ∧
      List.Forall₂ (Tells root) tolds entries := by
  induction h with
  | nil => exact ⟨[], rfl, .nil⟩
  | @cons told element tolds elements hfirst _ ih =>
    obtain ⟨⟨htidy, hnumber⟩, hmore⟩ := List.forall_mem_cons.mp htolds
    obtain ⟨entry, hentry, htells⟩ := ofElement_of_describes hroot hfirst htidy hnumber
    obtain ⟨entries, hentries, hall⟩ := ih hmore
    refine ⟨entry :: entries, ?_, .cons htells hall⟩
    rw [List.mapM_cons, Markup.bind_of_ok hentry, Markup.bind_of_ok hentries]
    rfl

end Entries

/-! ## Sessions -/

section Sessions
variable {π : Type} {process : Process π} {client : Client} {root identity path : String}
  {history : History} {snapshot : Snapshot} {revision : Revision} {item : Item}

theorem target_ofRoot (hroot : Text.trimEndSlashes root = root) (identity : String)
    (client : Client) (path : String) (revision : Revision) :
    (Connection.ofRoot root identity client).target path revision =
      pegged root (Path.join [path]) revision := by
  unfold Connection.target Connection.ofRoot
  rw [hroot]
  rfl

/-- The outcome of a query is what its target is answered. -/
theorem outcome_entries (process : Process π) (client : Client)
    (hroot : Text.trimEndSlashes root = root) (identity : String) (depth : Depth) (path : String)
    (revision : Revision) (state : π) :
    ((Connection.ofRoot root identity client).entries process depth path revision state).outcome =
      match (⟨client, depth, pegged root (Path.join [path]) revision⟩ : Command).interpret
          (process ⟨client, depth, pegged root (Path.join [path]) revision⟩ state).1 with
      | .error failure => .error failure
      | .ok [] => .error (.nodeMissing (Path.join [path]) revision)
      | .ok (first :: rest) => .ok (first, rest) := by
  rw [← target_ofRoot hroot identity client path revision]
  rfl

/-- What is told in an answer about a tidy path is about tidy paths. -/
theorem tidy_stem_append (hpath : Text.Tidy path) {name : String} (hname : Text.Plain name) :
    Text.Tidy (Path.stem path ++ name) := by
  unfold Path.stem
  split
  · rw [String.empty_append]
    exact hname.tidy
  · rename_i hne
    exact Text.tidy_append hne hname.1 hpath hname.tidy

/-- **A query about an item is answered with entries that tell about it** and, where they are
asked for, about its children. -/
theorem entries_found (hanswers : Answers process client root identity history)
    (hroot : Text.trimEndSlashes root = root) (hsnapshot : history.snapshot revision = .ok snapshot)
    (hnumbers : ∀ path item, snapshot.find? path = some item →
      Numeral.Short item.revision)
    (hitem : snapshot.find? (Path.join [path]) = some item) (depth : Depth) (state : π) :
    ∃ first rest, ∃ listed : List (String × Item),
      ((Connection.ofRoot root identity client).entries process depth path revision state).outcome =
        .ok (first, rest) ∧
      (if depth = .immediates ∧ item.kind = .directory
        then snapshot.Listing (Path.join [path]) listed else listed = []) ∧
      Tells root (Path.join [path], item) first ∧
      List.Forall₂ (Tells root)
        (listed.map fun named => (Path.stem (Path.join [path]) ++ named.1, named.2)) rest := by
  have houtcome := outcome_entries process client hroot identity depth path revision state
  have htidy := Path.tidy_join [path]
  have hjoin := Path.join_join [path]
  -- From here on only the joined path counts.
  generalize Path.join [path] = spot at *
  obtain ⟨layout, document, diagnostic, hending, hwritable, listed, hlisted, hdescribes⟩ :=
    hanswers.found spot revision snapshot item hjoin hsnapshot hitem depth state
  have htolds : ∀ told ∈ (spot, item) ::
      listed.map (fun named => (Path.stem spot ++ named.1, named.2)),
      Text.Tidy told.1 ∧ Numeral.Short told.2.revision := by
    intro told htold
    rcases List.mem_cons.mp htold with rfl | htold
    · exact ⟨htidy, hnumbers _ _ hitem⟩
    · obtain ⟨named, hnamed, rfl⟩ := List.mem_map.mp htold
      split at hlisted
      · obtain ⟨hplain, hfind⟩ := (hlisted.mem named.1 named.2).mp hnamed
        exact ⟨tidy_stem_append htidy hplain, hnumbers _ _ hfind⟩
      · rw [hlisted] at hnamed
        cases hnamed
  obtain ⟨entries, hentries, htells⟩ := mapM_ofElement hroot hdescribes htolds
  cases htells with
  | @cons _ first _ rest hfirst hrest =>
    refine ⟨first, rest, listed, ?_, hlisted, hfirst, hrest⟩
    have hparse : Entry.parse (Markup.writeDocument layout document) = .ok (first :: rest) := by
      unfold Entry.parse
      rw [Markup.readDocument_writeDocument layout hwritable]
      exact hentries
    rw [houtcome, hending, Command.interpret, hparse]

/-- **A query about a path where nothing stands fails for want of a node.** -/
theorem entries_missing (hanswers : Answers process client root identity history)
    (hroot : Text.trimEndSlashes root = root) (hsnapshot : history.snapshot revision = .ok snapshot)
    (hyoungest : Numeral.Short history.youngest)
    (hmissing : snapshot.find? (Path.join [path]) = none) (depth : Depth) (state : π) :
    ∃ missing,
      ((Connection.ofRoot root identity client).entries process depth path revision state).outcome =
        .error (.nodeMissing missing revision) := by
  obtain ⟨output, about, hending⟩ := hanswers.missing (Path.join [path]) revision snapshot
    (Path.join_join _) hsnapshot hmissing depth state
  obtain ⟨n, hn, -, hrevision⟩ := History.exists_of_snapshot hsnapshot
  obtain ⟨missing, hpegged⟩ := missing_pegged client depth root (Path.join [path])
    (hrevision.imp id fun h => ⟨n, hyoungest.of_le hn, h⟩)
  refine ⟨missing, ?_⟩
  rw [outcome_entries process client hroot, hending, Command.interpret_exit (by decide),
    Command.refusal, if_pos (Diagnostic.reportsMissing_missingReport about), hpegged]

end Sessions

/-! ## Nodes -/

section Nodes
variable {root path : String} {item : Item} {first : Entry}

/-- An entry about what stands in a directory is a child of its name. -/
theorem childOf_tells {named : String × Item} (hname : Text.Plain named.1) {entry : Entry}
    (h : Tells root (Path.stem path ++ named.1, named.2) entry) :
    (Connection.childOf entry).undated = (Child.ofItem named.1 named.2).undated := by
  have hlast := getLast?_split_address_below root path hname
  have hurl : entry.url = address root (Path.stem path ++ named.1) := h.url
  have hkind : entry.kind = named.2.kind := h.kind
  have hrevision : entry.revision = named.2.revision := h.revision
  unfold Connection.childOf
  dsimp only
  rw [hurl, hlast, hkind, hrevision, Option.getD_some, Text.Percent.decode_encode]
  rfl

/-- Entries about what stands in a directory are not about the directory, and are its
children. -/
theorem children_tells (hfirst : Tells root (path, item) first) {listed : List (String × Item)}
    (hnames : ∀ named ∈ listed, Text.Plain named.1) {rest : List Entry}
    (h : List.Forall₂ (Tells root)
      (listed.map fun named => (Path.stem path ++ named.1, named.2)) rest) :
    ((rest.filter (·.url ≠ first.url)).map Connection.childOf).map Child.undated =
      listed.map fun named => (Child.ofItem named.1 named.2).undated := by
  induction listed generalizing rest with
  | nil =>
    cases h
    rfl
  | cons named listed ih =>
    cases h with
    | @cons _ entry _ rest hentry hrest =>
      obtain ⟨hplain, hmore⟩ := List.forall_mem_cons.mp hnames
      have hother : decide (entry.url ≠ first.url) = true := by
        rw [decide_eq_true_iff, hentry.url, hfirst.url]
        exact address_below_ne root path hplain
      rw [List.filter_cons, if_pos hother, List.map_cons, List.map_cons,
        childOf_tells hplain hentry, ih hmore hrest, List.map_cons]

/-- What entries about an item and its children say of it. -/
theorem nodeOf_tells (hfirst : Tells root (path, item) first) {listed : List (String × Item)}
    (hnames : ∀ named ∈ listed, Text.Plain named.1) {rest : List Entry}
    (h : List.Forall₂ (Tells root)
      (listed.map fun named => (Path.stem path ++ named.1, named.2)) rest) :
    (Connection.nodeOf (first, rest)).undated = ⟨item.kind, item.revision,
      if item.kind = .directory
        then some (listed.map fun named => (Child.ofItem named.1 named.2).undated) else none⟩ := by
  have hkind : first.kind = item.kind := hfirst.kind
  have hrevision : first.revision = item.revision := hfirst.revision
  have hchildren := children_tells hfirst hnames h
  unfold Connection.nodeOf Node.undated
  dsimp only
  rw [hkind, hrevision]
  by_cases hdirectory : item.kind = .directory
  · rw [if_pos hdirectory, if_pos hdirectory, Option.map_some, hchildren]
  · rw [if_neg hdirectory, if_neg hdirectory, Option.map_none]

end Nodes

/-! ## Agreement -/

section Agreement
variable {π : Type} {process : Process π} {client : Client} {root identity path : String}
  {history : History} {snapshot : Snapshot} {revision : Revision}

/-- A node is read from a client as it is recorded, but for times. -/
theorem list_found (hanswers : Answers process client root identity history)
    (hroot : Text.trimEndSlashes root = root) (hsnapshot : history.snapshot revision = .ok snapshot)
    (hnumbers : ∀ path item, snapshot.find? path = some item → Numeral.Short item.revision)
    (hascending : snapshot.Ascending) (hclean : snapshot.Clean) {item : Item}
    (hitem : snapshot.find? (Path.join [path]) = some item) (state : π) :
    ∃ seen, (((Connection.ofRoot root identity client).entries process .immediates path revision
        state).outcome.map Connection.nodeOf) = .ok seen ∧
      seen.undated = Node.undated ⟨item.kind, item.revision,
        if item.kind = .directory then some (snapshot.children (Path.join [path])) else none⟩ := by
  obtain ⟨first, rest, listed, houtcome, hlisted, hfirst, hrest⟩ :=
    entries_found hanswers hroot hsnapshot hnumbers hitem .immediates state
  refine ⟨Connection.nodeOf (first, rest), by rw [houtcome]; rfl, ?_⟩
  generalize Path.join [path] = spot at *
  by_cases hdirectory : item.kind = .directory
  · rw [if_pos ⟨rfl, hdirectory⟩] at hlisted
    have hnames : ∀ named ∈ listed, Text.Plain named.1 := fun named hnamed =>
      ((hlisted.mem named.1 named.2).mp hnamed).1
    rw [nodeOf_tells hfirst hnames hrest, if_pos hdirectory, if_pos hdirectory,
      Snapshot.children_eq_listing, hlisted.unique (Snapshot.listing_lists hascending hclean spot)]
    unfold Node.undated
    rw [Option.map_some, List.map_map]
    rfl
  · rw [if_neg fun h => hdirectory h.2] at hlisted
    subst hlisted
    rw [nodeOf_tells hfirst (fun _ hnamed => absurd hnamed List.not_mem_nil) hrest,
      if_neg hdirectory, if_neg hdirectory]
    rfl

end Agreement

/-- **A client that answers from a history agrees with it.**  After any commits of clean
changes, let a client answer from the history of an archive, under a root that does not end in
a slash.  Then at every path and at every revision that the history has, the latest included,
a session with the client reads the node that the archive has there, with the same children
but for their times, or both fail for want of a node; and both find the same kind.  This is so
for as long as revisions have no more digits than are read of a number at all. -/
theorem remotes_agree {π : Type} (process : Process π) (client : Client) (root identity : String)
    (changes : List Change) (hclean : ∀ change ∈ changes, change.Clean) (archive : Archive)
    (hhistory : archive.history = History.empty.after changes)
    (hroot : Text.trimEndSlashes root = root)
    (hanswers : Answers process client root identity archive.history)
    (hnumbers : Numeral.Short archive.history.youngest) (path : String) (revision : Revision)
    (hrevision : revision = Revision.latest ∨
      0 ≤ revision ∧ revision ≤ archive.history.youngest) (state : π) :
    let host : Host π := ⟨state, some (.ofRoot root identity client)⟩
    let listed := ((Host.remote process client).list path revision host).outcome
    let recorded := (Archive.remote.list path revision archive).outcome
    ((∃ node seen, recorded = .ok node ∧ listed = .ok seen ∧ seen.undated = node.undated) ∨
      (∃ missing missing', recorded = .error (.nodeMissing missing revision) ∧
        listed = .error (.nodeMissing missing' revision))) ∧
    ((Host.remote process client).check path revision host).outcome =
      (Archive.remote.check path revision archive).outcome := by
  intro host listed recorded
  obtain ⟨snapshot, hsnapshot⟩ : ∃ snapshot, archive.history.snapshot revision = .ok snapshot := by
    rcases hrevision with rfl | ⟨hsign, hle⟩
    · exact ⟨_, if_pos rfl⟩
    · obtain ⟨n, rfl⟩ := Int.eq_ofNat_of_zero_le hsign
      obtain ⟨snapshot, hget⟩ := History.exists_snapshot (Int.ofNat_le.mp hle)
      exact ⟨snapshot, History.snapshot_natCast hget⟩
  obtain ⟨n, hn, hget, -⟩ := History.exists_of_snapshot hsnapshot
  have hpinned : archive.history.Pinned := by
    rw [hhistory]
    exact History.pinned_after changes History.pinned_empty
  have hcleanSnapshot : snapshot.Clean := by
    refine History.clean_snapshots_after hclean (fun snapshot hmem => ?_) snapshot
      (by rw [← hhistory]; exact List.mem_of_getElem? hget)
    rw [List.mem_singleton.mp hmem]
    exact History.clean_empty
  have hshort : ∀ path item, snapshot.find? path = some item → Numeral.Short item.revision :=
    fun path item hitem => hnumbers.of_le
      (Nat.le_trans (hpinned.pinned n snapshot hget path item hitem).past hn)
  have hkind : (Archive.remote.check path revision archive).outcome =
      .ok (((snapshot.find? (Path.join [path])).map Item.kind).getD .absent) :=
    History.kind_of_snapshot hsnapshot path
  have hchecked : ((Host.remote process client).check path revision host).outcome =
      Connection.kindOf ((Connection.ofRoot root identity client).entries process .empty path
        revision state).outcome := rfl
  rw [hkind, hchecked]
  cases hfind : snapshot.find? (Path.join [path]) with
  | none =>
    have hmissing := fun depth =>
      entries_missing hanswers hroot hsnapshot hnumbers hfind depth state
    obtain ⟨spot, hlist⟩ := hmissing .immediates
    obtain ⟨spot', hcheck⟩ := hmissing .empty
    refine ⟨Or.inr ⟨Path.join [path], spot, History.node_of_snapshot_none hsnapshot hfind, ?_⟩, ?_⟩
    · exact congrArg (Except.map Connection.nodeOf) hlist
    · rw [hcheck]
      rfl
  | some item =>
    obtain ⟨seen, hlist, hseen⟩ := list_found hanswers hroot hsnapshot hshort
      (hpinned.ascending n snapshot hget) hcleanSnapshot hfind state
    obtain ⟨first, rest, -, hcheck, -, hfirst, -⟩ :=
      entries_found hanswers hroot hsnapshot hshort hfind .empty state
    refine ⟨Or.inl ⟨_, seen, History.node_of_snapshot hsnapshot hfind, hlist, hseen⟩, ?_⟩
    rw [hcheck]
    exact congrArg Except.ok hfirst.kind

/-- A directory with a space in its name, and files with peculiar names in it. -/
def peculiar : List Change :=
  [⟨["a b"], ["a b/50%@é", "a b/<c>"], [], none⟩, ⟨[], ["a b/d"], ["a b/<c>"], none⟩]

theorem remotes_agree_peculiar :
    let process := served "http://h/r" "u" (History.empty.after peculiar)
    let host : Host Unit := ⟨(), some (.ofRoot "http://h/r" "u" .standard)⟩
    (∃ seen, ((Host.remote process .standard).list "a b" Revision.latest host).outcome = .ok seen ∧
      seen.undated = ⟨.directory, 2, some [⟨"50%@é", .file, 1, none⟩, ⟨"d", .file, 2, none⟩]⟩) ∧
    ((Host.remote process .standard).check "a b" Revision.latest host).outcome = .ok .directory := by
  intro process host
  have hclean : ∀ change ∈ peculiar, change.Clean := by decide
  have hyoungest : (History.empty.after peculiar).youngest = 2 := by decide
  have hshort : Numeral.Short (History.empty.after peculiar).youngest := by
    rw [hyoungest]
    exact Nat.lt_of_lt_of_le (by decide : 2 < 10 ^ 1) (Nat.pow_le_pow_right (by decide) (by decide))
  have hanswers : Answers process .standard "http://h/r" "u" (History.empty.after peculiar) := by
    refine served_answers .standard (List.all_eq_true.mp (by decide))
      (List.all_eq_true.mp (by decide)) (History.pinned_after peculiar History.pinned_empty)
      (History.clean_snapshots_after hclean fun snapshot hmem => ?_) hshort
    rw [List.mem_singleton.mp hmem]
    exact History.clean_empty
  have hnode : (History.empty.after peculiar).node "a b" Revision.latest = .ok ⟨.directory, 2,
      some [⟨"50%@é", .file, 1, some 1000⟩, ⟨"d", .file, 2, some 2000⟩]⟩ := by decide
  have hkind : (History.empty.after peculiar).kind "a b" Revision.latest = .ok .directory := by
    decide
  obtain ⟨hlisted, hchecked⟩ := remotes_agree process .standard "http://h/r" "u" peculiar hclean
    ⟨"http://h/r", "u", History.empty.after peculiar, false⟩ rfl rfl hanswers hshort "a b"
    Revision.latest (Or.inl rfl) ()
  refine ⟨?_, hchecked.trans hkind⟩
  rcases hlisted with ⟨node, seen, hrecorded, hseen, hsame⟩ | ⟨_, _, hrecorded, -⟩
  · obtain rfl := Except.ok.inj (hnode.symm.trans hrecorded)
    exact ⟨seen, hseen, hsame⟩
  · cases hnode.symm.trans hrecorded

end Subversion
end HeadFinder
