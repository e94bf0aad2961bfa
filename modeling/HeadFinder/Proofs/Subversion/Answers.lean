import HeadFinder.Proofs.History.Listing
import HeadFinder.Proofs.Markup.Writing
import HeadFinder.Proofs.Subversion.Addresses
import HeadFinder.Subversion.Connection
import Mathlib.Data.List.Forall2

/-! # Clients that answer from a history

What a client has to say so that its answers are those of a history: a document with an
entry for the node that is asked for and one for each of its children, if these are asked
for too, or else a report that the target is missing.  A client that looks the target up in
the history does so (`served_answers`).
-/
namespace HeadFinder.Subversion
open Markup (Element Layout)

/-! ## Answers -/

/-- What an element tells about the item at a path: its kind, its address, where and what
the repository is, and the revision of the last commit. -/
structure Describes (root identity path : String) (item : Item) (element : Element) : Prop where
  kind : element.attribute? "kind" = some item.kind.word
  url : (element.child? "url").map Element.text = some (address root path)
  root : ((element.child? "repository").bind (·.child? "root")).map Element.text = some root
  identity : ((element.child? "repository").bind (·.child? "uuid")).map Element.text = some identity
  revision : (element.child? "commit").bind (·.attribute? "revision") =
    some (toString (item.revision : Int))

/-- A document that answers a query about the item at a path of a snapshot: its entries
describe the item and, if the query is about the children of a directory too, what is in
the directory, in the order of the names. -/
structure IsAnswer (root identity : String) (snapshot : Snapshot) (depth : Depth) (path : String)
    (item : Item) (document : Element) : Prop where
  writable : document.Writable
  entries : ∃ listed : List (String × Item),
    (if depth = .immediates ∧ item.kind = .directory then snapshot.Listing path listed
      else listed = []) ∧
    List.Forall₂
      (fun (told : String × Item) element => Describes root identity told.1 told.2 element)
      ((path, item) :: listed.map fun named => (Path.stem path ++ named.1, named.2))
      (document.all.filter (·.name = .plain "entry"))

/-- What a client reports about a target that is missing. -/
def missingReport (about : String) : String :=
  "svn: warning: W170000: " ++ about ++
    "\nsvn: E200009: Could not display info for all targets because some targets don't exist\n"

/-- A client that answers all queries about paths in a repository from a history, each at a
revision that the history has. -/
structure Answers {π : Type} (process : Process π) (client : Client) (root identity : String)
    (history : History) : Prop where
  found : ∀ path revision snapshot item, Path.join [path] = path →
    history.snapshot revision = .ok snapshot → snapshot.find? path = some item →
      ∀ depth state, ∃ layout document diagnostic,
        (process ⟨client, depth, pegged root path revision⟩ state).1 =
          .exit 0 (Markup.writeDocument layout document) diagnostic ∧
        IsAnswer root identity snapshot depth path item document
  missing : ∀ path revision snapshot, Path.join [path] = path →
    history.snapshot revision = .ok snapshot → snapshot.find? path = none →
      ∀ depth state, ∃ output about,
        (process ⟨client, depth, pegged root path revision⟩ state).1 =
          .exit 1 output (missingReport about)

/-! ## A client that looks targets up -/

/-- An element with a text and nothing else. -/
def leaf (name text : String) : Element :=
  .node (.plain name) [] text []

/-- The entry for the item at a path. -/
def entryFor (root identity : String) (path : String) (item : Item) : Element :=
  .node (.plain "entry") [(.plain "kind", item.kind.word)] "\n"
    [leaf "url" (address root path),
      .node (.plain "repository") [] "\n" [leaf "root" root, leaf "uuid" identity],
      .node (.plain "commit") [(.plain "revision", toString (item.revision : Int))] "\n" []]

/-- What a query is about besides the node itself. -/
def listedFor (snapshot : Snapshot) (depth : Depth) (path : String) (item : Item) :
    List (String × Item) :=
  if depth = .immediates ∧ item.kind = .directory then snapshot.listing path else []

/-- The document that answers a query about the item at a path. -/
def documentFor (root identity : String) (snapshot : Snapshot) (depth : Depth) (path : String)
    (item : Item) : Element :=
  .node (.plain "info") [] "\n"
    (entryFor root identity path item :: (listedFor snapshot depth path item).map fun named =>
      entryFor root identity (Path.stem path ++ named.1) named.2)

/-- The revision of a label. -/
def revisionOf (label : String) : Revision :=
  (Numeral.readInteger label).toOption.getD Revision.latest

/-- The ending of a query about a path at a revision. -/
def endingFor (root identity : String) (history : History) (depth : Depth) (path : String)
    (revision : Revision) : Ending :=
  match history.snapshot revision with
  | .error _ => .exit 1 "" "svn: E160006: No such revision\n"
  | .ok snapshot =>
    match snapshot.find? path with
    | none => .exit 1 "" (missingReport ("path '" ++ path ++ "' non-existent"))
    | some item =>
      .exit 0 (Markup.writeDocument .lines (documentFor root identity snapshot depth path item)) ""

/-- A client that looks the path and the revision of a target up in a history. -/
def served (root identity : String) (history : History) : Process Unit := fun command state =>
  (match Text.cutLast '@' command.target.toList with
    | none => .exit 1 "" "svn: E205000: Target has no revision\n"
    | some (before, after) =>
      endingFor root identity history command.depth
        (Text.Percent.decode (Text.dropFirst (root.length + 1) (String.ofList before)))
        (revisionOf (String.ofList after)), state)

section Served
variable {root identity path : String} {history : History} {snapshot : Snapshot} {item : Item}

theorem describes_entryFor : Describes root identity path item (entryFor root identity path item) :=
  ⟨rfl, rfl, rfl, rfl, rfl⟩

theorem isWord_plain {name : String} (hstart : name.toList.head?.any Markup.isNameStart = true)
    (hinside : name.toList.all Markup.isNameChar = true) (hown : name.toList ≠ "xmlns".toList) :
    Markup.IsWord (.plain name) :=
  ⟨rfl, hstart, List.all_eq_true.mp hinside, hown⟩

theorem isChar_word (kind : Kind) : ∀ c ∈ kind.word.toList, Markup.isChar c = true := by
  refine List.all_eq_true.mp ?_
  cases kind <;> decide

theorem isChar_number (n : Nat) :
    ∀ c ∈ (toString (n : Int)).toList, Markup.isChar c = true := fun _ hc =>
  Numeral.forall_isDigit (Markup.isChar · = true) (by decide) (Numeral.isDigit_of_mem_toString hc)

/-- An encoded text has only characters that a document can hold. -/
theorem isChar_encode (text : String) : ∀ c ∈ (Text.Percent.encode text).toList,
    Markup.isChar c = true := by
  have hletter : ∀ c : Char, c.isAlphanum = true → 32 ≤ c.toNat ∧ c.toNat < 0xD800 := by
    intro c hc
    have hbounds : (65 ≤ c.toNat ∧ c.toNat ≤ 90 ∨ 97 ≤ c.toNat ∧ c.toNat ≤ 122) ∨
        48 ≤ c.toNat ∧ c.toNat ≤ 57 := by
      refine (Bool.or_eq_true_iff.mp hc).imp (fun hc => (Bool.or_eq_true_iff.mp hc).imp ?_ ?_) ?_
      · exact fun hupper => of_decide_eq_true hupper
      · exact fun hlower => (Bool.and_eq_true_iff.mp hlower).imp of_decide_eq_true of_decide_eq_true
      · exact fun hdigit => (Bool.and_eq_true_iff.mp hdigit).imp of_decide_eq_true of_decide_eq_true
    omega
  have hplain : ∀ c, Text.Percent.isPlain c = true → Markup.isChar c = true := by
    intro c hc
    simp only [Text.Percent.isPlain, Bool.or_eq_true, decide_eq_true_eq] at hc
    rcases hc with ((((hc | rfl) | rfl) | rfl) | rfl) | rfl
    · simp [Markup.isChar, Markup.isCharNumber, hletter c hc]
    all_goals decide
  have hdigit : ∀ n < 16, Markup.isChar (Text.upperHexDigit n) = true := by decide
  unfold Text.Percent.encode Text.Percent.encodeChars
  rw [String.toList_ofList]
  intro c hc
  obtain ⟨d, -, hd⟩ := List.mem_flatMap.mp hc
  split at hd
  · rename_i hdplain
    rw [List.mem_singleton.mp hd]
    exact hplain d hdplain
  · obtain ⟨b, -, hoctet⟩ := List.mem_flatMap.mp hd
    have hb := b.toNat_lt
    simp only [Text.Percent.octet, List.mem_cons, List.not_mem_nil, or_false] at hoctet
    rcases hoctet with rfl | rfl | rfl
    · decide
    · exact hdigit _ (by omega)
    · exact hdigit _ (by omega)

theorem isChar_address (hroot : ∀ c ∈ root.toList, Markup.isChar c = true) (path : String) :
    ∀ c ∈ (address root path).toList, Markup.isChar c = true := by
  unfold address
  split
  · exact hroot
  · intro c hc
    rw [String.toList_append, String.toList_append, List.mem_append, List.mem_append] at hc
    rcases hc with (hc | hc) | hc
    · exact hroot c hc
    · rw [List.mem_singleton.mp hc]
      decide
    · exact isChar_encode path c hc

theorem writable_leaf {name text : String} (hname : Markup.IsWord (.plain name))
    (htext : ∀ c ∈ text.toList, Markup.isChar c = true) : (leaf name text).Writable :=
  ⟨hname, (fun _ hgiven => nomatch hgiven), List.nodup_nil, htext, trivial⟩

theorem writable_entryFor (hroot : ∀ c ∈ root.toList, Markup.isChar c = true)
    (hidentity : ∀ c ∈ identity.toList, Markup.isChar c = true) (path : String) (item : Item) :
    (entryFor root identity path item).Writable := by
  have hline : ∀ c ∈ "\n".toList, Markup.isChar c = true := List.all_eq_true.mp (by decide)
  refine ⟨isWord_plain (by decide) (by decide) (by decide), ?_, List.pairwise_singleton _ _, hline,
    writable_leaf (isWord_plain (by decide) (by decide) (by decide)) (isChar_address hroot path),
    ⟨isWord_plain (by decide) (by decide) (by decide), (fun _ hgiven => nomatch hgiven),
      List.nodup_nil, hline,
      writable_leaf (isWord_plain (by decide) (by decide) (by decide)) hroot,
      writable_leaf (isWord_plain (by decide) (by decide) (by decide)) hidentity, trivial⟩,
    ⟨isWord_plain (by decide) (by decide) (by decide), ?_, List.pairwise_singleton _ _, hline,
      trivial⟩, trivial⟩
  · rintro given hgiven
    rw [List.mem_singleton.mp hgiven]
    exact ⟨isWord_plain (by decide) (by decide) (by decide), isChar_word item.kind⟩
  · rintro given hgiven
    rw [List.mem_singleton.mp hgiven]
    exact ⟨isWord_plain (by decide) (by decide) (by decide), isChar_number item.revision⟩

/-- The entries of a document of entries are those. -/
theorem filter_allOf_entries (told : List (String × Item)) :
    (Element.allOf (told.map fun told => entryFor root identity told.1 told.2)).filter
        (·.name = .plain "entry") =
      told.map fun told => entryFor root identity told.1 told.2 := by
  induction told with
  | nil => rfl
  | cons first told ih =>
    rw [List.map_cons, Element.allOf, List.filter_append, ih]
    rfl

/-- What a document for a query is about. -/
def toldFor (snapshot : Snapshot) (depth : Depth) (path : String) (item : Item) :
    List (String × Item) :=
  (path, item) :: (listedFor snapshot depth path item).map fun named =>
    (Path.stem path ++ named.1, named.2)

theorem documentFor_eq (root identity : String) (snapshot : Snapshot) (depth : Depth)
    (path : String) (item : Item) : documentFor root identity snapshot depth path item =
      .node (.plain "info") [] "\n" ((toldFor snapshot depth path item).map fun told =>
        entryFor root identity told.1 told.2) := by
  rw [documentFor, toldFor, List.map_cons, List.map_map]
  rfl

theorem isAnswer_documentFor (hroot : ∀ c ∈ root.toList, Markup.isChar c = true)
    (hidentity : ∀ c ∈ identity.toList, Markup.isChar c = true)
    (hascending : snapshot.Ascending) (hclean : snapshot.Clean) (depth : Depth) (path : String)
    (item : Item) : IsAnswer root identity snapshot depth path item
      (documentFor root identity snapshot depth path item) where
  writable := by
    rw [documentFor_eq]
    refine ⟨isWord_plain (by decide) (by decide) (by decide), (fun _ hgiven => nomatch hgiven),
      List.nodup_nil, List.all_eq_true.mp (by decide),
      Element.allWritable_iff.mpr fun element helement => ?_⟩
    obtain ⟨told, -, rfl⟩ := List.mem_map.mp helement
    exact writable_entryFor hroot hidentity told.1 told.2
  entries := by
    refine ⟨listedFor snapshot depth path item, ?_, ?_⟩
    · unfold listedFor
      split
      · exact Snapshot.listing_lists hascending hclean path
      · rfl
    · have hentries : (documentFor root identity snapshot depth path item).all.filter
          (·.name = .plain "entry") = (toldFor snapshot depth path item).map fun told =>
            entryFor root identity told.1 told.2 := by
        rw [documentFor_eq]
        exact filter_allOf_entries _
      rw [hentries]
      refine List.forall₂_map_right_iff.mpr (List.forall₂_same.mpr fun told _ => ?_)
      exact describes_entryFor

theorem revisionOf_label {n : Nat} (h : Numeral.Short n) :
    revisionOf (Revision.label n) = n := by
  have hsign : ¬ (n : Int) < 0 := by omega
  rw [Revision.label, if_neg hsign, revisionOf, Numeral.readInteger_toString h]
  rfl

theorem served_pegged (root identity : String) {revision : Revision}
    (hrevision : revisionOf revision.label = revision) (client : Client) (depth : Depth)
    (path : String) (state : Unit) :
    (served root identity history ⟨client, depth, pegged root path revision⟩ state).1 =
      endingFor root identity history depth path revision := by
  have hpath : Text.Percent.decode (Text.dropFirst (root.length + 1) (address root path)) =
      path := by
    unfold address
    split
    · rename_i hempty
      have hrest : Text.dropFirst (root.length + 1) root = "" := by
        unfold Text.dropFirst
        rw [List.drop_eq_nil_of_le (by rw [String.length_toList]; omega), String.ofList_nil]
      rw [hrest, hempty]
      rfl
    · have hlength : root.length + 1 = (root ++ "/").length := by
        rw [String.length_append]
        rfl
      rw [hlength, Text.dropFirst_append, Text.Percent.decode_encode]
  unfold served
  rw [cutLast_pegged]
  dsimp only
  rw [String.ofList_toList, String.ofList_toList, hpath, hrevision]

/-- **A client that looks targets up in a history answers from it.** -/
theorem served_answers (client : Client) (hroot : ∀ c ∈ root.toList, Markup.isChar c = true)
    (hidentity : ∀ c ∈ identity.toList, Markup.isChar c = true)
    (hpinned : history.Pinned) (hclean : ∀ snapshot ∈ history.snapshots, snapshot.Clean)
    (hnumbers : Numeral.Short history.youngest) :
    Answers (served root identity history) client root identity history := by
  have hrevision : ∀ revision snapshot, history.snapshot revision = .ok snapshot →
      revisionOf revision.label = revision := by
    intro revision snapshot hsnapshot
    obtain ⟨n, hn, -, rfl | rfl⟩ := History.exists_of_snapshot hsnapshot
    · decide
    · exact revisionOf_label (hnumbers.of_le hn)
  refine ⟨fun path revision snapshot item _ hsnapshot hitem depth state => ?_,
    fun path revision snapshot _ hsnapshot hmissing depth state => ?_⟩
  · obtain ⟨n, -, hget, -⟩ := History.exists_of_snapshot hsnapshot
    refine ⟨.lines, documentFor root identity snapshot depth path item, "", ?_,
      isAnswer_documentFor hroot hidentity (hpinned.ascending _ _ hget)
        (hclean _ (List.mem_of_getElem? hget)) depth path item⟩
    rw [served_pegged root identity (hrevision _ _ hsnapshot), endingFor, hsnapshot]
    dsimp only
    rw [hitem]
  · refine ⟨"", "path '" ++ path ++ "' non-existent", ?_⟩
    rw [served_pegged root identity (hrevision _ _ hsnapshot), endingFor, hsnapshot]
    dsimp only
    rw [hmissing]

end Served
end HeadFinder.Subversion
