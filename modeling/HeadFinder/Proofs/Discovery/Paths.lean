import HeadFinder.Proofs.Discovery.Ends
import HeadFinder.Proofs.Join

/-! # The paths of a search

A search joins the path that it lists from the base and the names, the root of a candidate
from the base and its name, and a path below a candidate from that root.  However they are
joined, they are the same paths (`paths_agree`).
-/
namespace HeadFinder.Discovery
open Access Text

variable {σ ρ : Type} {remote : Remote σ} {quest : Quest}

/-- The root of a candidate is the path of its names. -/
theorem candidate_root {names : List String} (h : ∀ name ∈ names, Plain name) (child : Child) :
    (candidate quest names child).root = Path.join (quest.base :: names) := by
  simp only [candidate, Path.join_intercalate quest.base h]

/-- What is asked below a candidate is the path of its names with one more fragment. -/
theorem join_root {names : List String} (h : ∀ name ∈ names, Plain name) (child : Child)
    (path : String) :
    Path.join [(candidate quest names child).root, path] =
      Path.join (quest.base :: (names ++ [path])) := by
  rw [candidate_root h, Path.join_cons_join, List.cons_append]

/-- A listing puts the path of its place on record, however it ends. -/
theorem account_listing (place : Place) (session : Session σ ρ) :
    ((listing remote quest place).perform session).2.account =
      (entering remote quest place session).account := by
  have hends : Ends (listing remote quest place) session
      (fun _ after => after.account = (entering remote quest place session).account)
      (fun _ after => after.account = (entering remote quest place session).account) := by
    rw [ends_listing]
    cases answered remote quest place session.remote with
    | ok node => rfl
    | error failure =>
      dsimp only
      split <;> rfl
  exact hends.perform

/-- **Joined paths have one normal form**, and the paths of a search agree in it.  Fragments
may be joined in any groups; a joined path has no slash at either end, and just such paths
join to themselves.  Slashes at the ends of a fragment do not count, and what is left of the
fragments is joined by slashes.  So with plain names a place is listed under the root of the
candidate of its names, and a path below that candidate is asked for under the base, the
names and the path. -/
theorem paths_agree :
    (∀ before within after : List String,
      Path.join (before ++ [Path.join within] ++ after) = Path.join (before ++ within ++ after)) ∧
    (∀ groups : List (List String), Path.join (groups.map Path.join) = Path.join groups.flatten) ∧
    (∀ fragments, Path.join [Path.join fragments] = Path.join fragments) ∧
    (∀ fragments, Tidy (Path.join fragments)) ∧
    (∀ path, Path.join [path] = path ↔ Tidy path) ∧
    (∀ text : String, Path.join ["/" ++ text] = Path.join [text] ∧
      Path.join [text ++ "/"] = Path.join [text]) ∧
    (∀ fragments, (∀ fragment ∈ fragments, fragment ≠ "" ∧ Tidy fragment) →
      Path.join fragments = "/".intercalate fragments) ∧
    ∀ (quest : Quest) (place : Place) (child : Child), (∀ name ∈ place.names, Plain name) →
      let probe := candidate quest place.names child
      probe.root = Path.join (quest.base :: place.names) ∧
      (∀ {σ ρ : Type} (remote : Remote σ) (session : Session σ ρ), ∃ outcome,
        ((listing remote quest place).perform session).2.account =
          session.account ++ [.entered place, .listed probe.root place.revision outcome]) ∧
      ∀ path next, ∃ goOn, Inquiry.exists? probe path next =
        .check (Path.join (quest.base :: (place.names ++ [path]))) child.revision goOn := by
  refine ⟨fun before within after => ?_, Path.join_map_join, Path.join_join, Path.tidy_join,
    fun path => Path.join_singleton_iff, fun text => ⟨?_, ?_⟩,
    fun fragments => Path.join_of_tidy, fun quest place child hplain => ⟨?_, ?_, ?_⟩⟩
  · rw [Path.join_append (before ++ _), Path.join_append_join, ← Path.join_append]
  · exact Path.join_congr_trim (trimSlashes_slash_append text)
  · exact Path.join_congr_trim (trimSlashes_append_slash text)
  · exact candidate_root hplain child
  · intro σ ρ remote session
    refine ⟨answered remote quest place session.remote, ?_⟩
    rw [account_listing, account_entering, candidate_root hplain]
  · intro path next
    rw [Inquiry.exists?, join_root hplain]
    exact ⟨_, rfl⟩

theorem paths_agree_untrimmed :
    let quest : Quest := ⟨"//srv/repo/", [["branches", "*"]], [], none, defaultChannel⟩
    let probe := candidate quest ["branches", "fix 1"] ⟨"fix 1", .directory, 7, none⟩
    (∀ name ∈ ["branches", "fix 1"], Plain name) ∧
      probe.root = "srv/repo/branches/fix 1" ∧
      ∃ goOn, Inquiry.exists? probe "/src//main/" .verdict =
        .check "srv/repo/branches/fix 1/src//main" 7 goOn := by
  intro quest probe
  have hplain : ∀ name ∈ ["branches", "fix 1"], Plain name :=
    List.forall_mem_cons.mpr ⟨⟨by decide, by decide⟩,
      List.forall_mem_singleton.mpr ⟨by decide, by decide⟩⟩
  have hroot : Path.join ["//srv/repo/", "branches", "fix 1"] = "srv/repo/branches/fix 1" := by
    decide
  have hbelow : Path.join ["//srv/repo/", "branches", "fix 1", "/src//main/"] =
      "srv/repo/branches/fix 1/src//main" := by decide
  obtain ⟨-, -, -, -, -, -, -, hpaths⟩ := paths_agree
  obtain ⟨hprobe, -, hasked⟩ := hpaths quest ⟨["branches", "*"], ["branches", "fix 1"], 7⟩
    ⟨"fix 1", .directory, 7, none⟩ hplain
  exact ⟨hplain, hprobe.trans hroot, hbelow ▸ hasked "/src//main/" .verdict⟩

end HeadFinder.Discovery
