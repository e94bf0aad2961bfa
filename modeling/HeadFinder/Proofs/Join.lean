import HeadFinder.Proofs.Path
import HeadFinder.Proofs.Text.Trim
import Mathlib.Data.List.Basic

/-! # Joined paths

Joining drops the slashes at the ends of the fragments and puts one between any two that
are left (`join_append`).  So what has been joined joins to itself, and it does not matter
what is joined beforehand.  A text without slashes at its ends is tidy; joined texts are.
-/
namespace HeadFinder

namespace Text

/-- Without a slash at either end. -/
def Tidy (text : String) : Prop :=
  text.toList.head? ≠ some '/' ∧ text.toList.getLast? ≠ some '/'

/-- A name of its own: something without a slash. -/
def Plain (name : String) : Prop :=
  name ≠ "" ∧ '/' ∉ name.toList

theorem Plain.tidy {name : String} (h : Plain name) : Tidy name :=
  ⟨fun hhead => h.2 (List.mem_of_head? hhead), fun hlast => h.2 (List.mem_of_getLast? hlast)⟩

theorem plain_concat {names : List String} {last : String} (h : ∀ name ∈ names, Plain name)
    (hlast : Plain last) : ∀ name ∈ names ++ [last], Plain name := by
  intro name hname
  rcases List.mem_append.mp hname with hname | hname
  · exact h name hname
  · rw [List.mem_singleton.mp hname]
    exact hlast

theorem dropWhile_of_head? {cs : List Char} (h : cs.head? ≠ some '/') :
    cs.dropWhile (fun c => decide (c = '/')) = cs := by
  cases cs with
  | nil => rfl
  | cons c rest =>
    refine List.dropWhile_cons_of_neg ?_
    rw [decide_eq_true_iff]
    rintro rfl
    exact h rfl

theorem head?_dropWhile (cs : List Char) :
    (cs.dropWhile fun c => decide (c = '/')).head? ≠ some '/' := by
  intro h
  have hnot := List.head?_dropWhile_not (fun c => decide (c = '/')) cs
  rw [h] at hnot
  cases hnot

theorem trimSlashes_of_tidy {text : String} (h : Tidy text) : trimSlashes text = text := by
  unfold trimSlashes trim trimEnd
  rw [dropWhile_of_head? h.1, dropWhile_of_head? (List.head?_reverse ▸ h.2), List.reverse_reverse,
    String.ofList_toList]

theorem tidy_trimSlashes (text : String) : Tidy (trimSlashes text) := by
  unfold trimSlashes trim trimEnd Tidy
  rw [String.toList_ofList, List.getLast?_reverse, List.head?_reverse]
  refine ⟨?_, head?_dropWhile _⟩
  -- What is cut off at the end leaves the start, if anything is left.
  have hstart := head?_dropWhile text.toList
  generalize text.toList.dropWhile (fun c => decide (c = '/')) = cs at hstart ⊢
  intro hlast
  refine hstart ?_
  rw [← List.getLast?_reverse]
  obtain ⟨cut, hcut⟩ := List.dropWhile_suffix (l := cs.reverse) (fun c => decide (c = '/'))
  rw [← hcut, List.getLast?_append, hlast]
  rfl

/-- Slashes at the ends make no difference. -/
theorem trimSlashes_slash_append (text : String) :
    trimSlashes ("/" ++ text) = trimSlashes text := by
  unfold trimSlashes
  rw [String.toList_append]
  exact congrArg String.ofList
    (trim_append_left (fun c hc => by rw [List.mem_singleton.mp hc]; decide) text.toList)

theorem trimSlashes_append_slash (text : String) :
    trimSlashes (text ++ "/") = trimSlashes text := by
  unfold trimSlashes
  rw [String.toList_append]
  exact congrArg String.ofList
    (trim_append_right (fun c hc => by rw [List.mem_singleton.mp hc]; decide) text.toList)

theorem tidy_append {above name : String} (hne : above ≠ "") (hne' : name ≠ "")
    (h : Tidy above) (h' : Tidy name) : Tidy (above ++ "/" ++ name) := by
  have hnil : ∀ text : String, text ≠ "" → text.toList ≠ [] := fun text hne hnil =>
    hne (String.toList_injective hnil)
  unfold Tidy
  rw [String.toList_append, String.toList_append]
  constructor
  · rw [List.append_assoc, List.head?_append_of_ne_nil _ (hnil above hne)]
    exact h.1
  · rw [List.getLast?_append_of_ne_nil _ (hnil name hne')]
    exact h'.2

theorem tidy_empty : Tidy "" :=
  ⟨by decide, by decide⟩

/-- Texts that are tidy and not empty are so with slashes between them. -/
theorem tidy_intercalate {parts : List String} (hne : parts ≠ [])
    (h : ∀ part ∈ parts, part ≠ "" ∧ Tidy part) :
    "/".intercalate parts ≠ "" ∧ Tidy ("/".intercalate parts) := by
  induction parts with
  | nil => exact absurd rfl hne
  | cons part rest ih =>
    obtain ⟨hpart, htidy⟩ := h part (List.mem_cons_self ..)
    by_cases hrest : rest = []
    · rw [hrest, String.intercalate_singleton]
      exact ⟨hpart, htidy⟩
    · obtain ⟨hrestNe, hrestTidy⟩ := ih hrest fun other hother =>
        h other (List.mem_cons_of_mem _ hother)
      rw [String.intercalate_cons_of_ne_nil hrest]
      refine ⟨fun hempty => hpart ?_, tidy_append hpart hrestNe htidy hrestTidy⟩
      rw [String.append_assoc] at hempty
      exact (String.append_eq_empty_iff.mp hempty).1

end Text

namespace Path
open Text

/-- The fragments that count. -/
def parts (fragments : List String) : List String :=
  (fragments.map trimSlashes).filter (· ≠ "")

theorem join_eq (fragments : List String) : join fragments = "/".intercalate (parts fragments) :=
  rfl

theorem parts_append (fragments more : List String) :
    parts (fragments ++ more) = parts fragments ++ parts more := by
  unfold parts
  rw [List.map_append, List.filter_append]

theorem tidy_of_mem_parts {fragments : List String} {part : String} (h : part ∈ parts fragments) :
    part ≠ "" ∧ Tidy part := by
  obtain ⟨hmem, hne⟩ := List.mem_filter.mp h
  obtain ⟨fragment, -, rfl⟩ := List.mem_map.mp hmem
  exact ⟨decide_eq_true_iff.mp hne, tidy_trimSlashes fragment⟩

/-- Fragments that are tidy and not empty all count as they are. -/
theorem parts_of_tidy {fragments : List String}
    (h : ∀ fragment ∈ fragments, fragment ≠ "" ∧ Tidy fragment) : parts fragments = fragments := by
  have hmap : fragments.map trimSlashes = fragments := by
    conv_rhs => rw [← List.map_id fragments]
    exact List.map_congr_left fun fragment hfragment => trimSlashes_of_tidy (h fragment hfragment).2
  unfold parts
  rw [hmap, List.filter_eq_self]
  exact fun fragment hfragment => decide_eq_true (h fragment hfragment).1

theorem parts_singleton {part : String} (hne : part ≠ "") (h : Tidy part) :
    parts [part] = [part] := by
  refine parts_of_tidy fun fragment hfragment => ?_
  rw [List.mem_singleton.mp hfragment]
  exact ⟨hne, h⟩

theorem parts_cons_of_tidy (base : String) {fragments : List String}
    (h : ∀ fragment ∈ fragments, fragment ≠ "" ∧ Tidy fragment) :
    parts (base :: fragments) = parts [base] ++ fragments := by
  have := parts_append [base] fragments
  rw [parts_of_tidy h] at this
  exact this

theorem join_eq_empty {fragments : List String} : join fragments = "" ↔ parts fragments = [] := by
  constructor
  · intro h
    apply Classical.byContradiction
    intro hne
    exact (tidy_intercalate hne fun part => tidy_of_mem_parts).1 h
  · intro h
    rw [join_eq, h, String.intercalate_nil]

theorem tidy_join (fragments : List String) : Tidy (join fragments) := by
  by_cases hnil : parts fragments = []
  · rw [join_eq_empty.mpr hnil]
    exact tidy_empty
  · exact (tidy_intercalate hnil fun part => tidy_of_mem_parts).2

/-- A tidy path names itself. -/
theorem join_singleton {path : String} (h : Tidy path) : join [path] = path := by
  by_cases hempty : path = ""
  · rw [hempty]
    rfl
  · rw [join_eq, parts_singleton hempty h, String.intercalate_singleton]

/-- **What has been joined names itself.** -/
theorem join_join (fragments : List String) : join [join fragments] = join fragments :=
  join_singleton (tidy_join fragments)

/-- A text that joins to itself is tidy, and only such a one. -/
theorem join_singleton_iff {path : String} : join [path] = path ↔ Tidy path :=
  ⟨fun h => h ▸ tidy_join [path], join_singleton⟩

/-- Slashes at the ends of a fragment make no difference. -/
theorem join_congr_trim {text text' : String} (h : trimSlashes text = trimSlashes text') :
    join [text] = join [text'] := by
  unfold join
  rw [List.map_singleton, List.map_singleton, h]

/-- Fragments that are tidy and not empty are joined as they are. -/
theorem join_of_tidy {fragments : List String}
    (h : ∀ fragment ∈ fragments, fragment ≠ "" ∧ Tidy fragment) :
    join fragments = "/".intercalate fragments := by
  rw [join_eq, parts_of_tidy h]

/-! ## Joining in turns -/

/-- **A slash stands between what is joined first and what is joined next**, if both come to
something. -/
theorem join_append (fragments more : List String) :
    join (fragments ++ more) =
      if join more = "" then join fragments else stem (join fragments) ++ join more := by
  by_cases hmore : join more = ""
  · rw [if_pos hmore, join_eq, parts_append, join_eq_empty.mp hmore, List.append_nil, ← join_eq]
  · have hmoreParts : parts more ≠ [] := mt join_eq_empty.mpr hmore
    rw [if_neg hmore, stem, join_eq (fragments ++ more), parts_append]
    by_cases hnil : join fragments = ""
    · rw [if_pos hnil, join_eq_empty.mp hnil, List.nil_append, String.empty_append, ← join_eq]
    · rw [if_neg hnil, String.intercalate_append_of_ne_nil (mt join_eq_empty.mpr hnil) hmoreParts,
        ← join_eq, ← join_eq]

/-- Joining what has been joined before is joining it all at once. -/
theorem join_cons_join (fragments more : List String) :
    join (join fragments :: more) = join (fragments ++ more) := by
  have happend := join_append [join fragments] more
  rw [join_join, ← join_append] at happend
  exact happend

theorem join_append_join (fragments more : List String) :
    join (fragments ++ [join more]) = join (fragments ++ more) := by
  rw [join_append, join_append, join_join]

/-- Fragments may be joined in groups. -/
theorem join_map_join (groups : List (List String)) :
    join (groups.map join) = join groups.flatten := by
  induction groups with
  | nil => rfl
  | cons group rest ih =>
    rw [List.map_cons, List.flatten_cons, join_cons_join, join_append, ih, ← join_append]

/-- A name is joined to a directory below its stem. -/
theorem join_concat (fragments : List String) {name : String} (h : Plain name) :
    join (fragments ++ [name]) = stem (join fragments) ++ name := by
  rw [join_append, join_singleton h.tidy, if_neg h.1]

theorem join_ne_empty (base : String) {names : List String} (hne : names ≠ [])
    (h : ∀ name ∈ names, Plain name) : join (base :: names) ≠ "" := by
  rw [Ne, join_eq_empty, parts_cons_of_tidy base fun name hname =>
    ⟨(h name hname).1, (h name hname).tidy⟩, List.append_eq_nil_iff]
  exact fun hnil => hne hnil.2

/-- It is the same to join names one by one or with slashes between them. -/
theorem join_intercalate (base : String) {names : List String} (h : ∀ name ∈ names, Plain name) :
    join [base, "/".intercalate names] = join (base :: names) := by
  rw [← join_of_tidy fun name hname => ⟨(h name hname).1, (h name hname).tidy⟩]
  exact join_append_join [base] names

/-- The segments of a path; the root has none. -/
def segments (path : String) : List String :=
  if path = "" then [] else Text.split '/' path

theorem segments_intercalate {names : List String} (h : ∀ name ∈ names, Plain name) :
    segments ("/".intercalate names) = names := by
  by_cases hnames : names = []
  · rw [hnames, String.intercalate_nil]
    rfl
  · have hne := (tidy_intercalate hnames fun name hname => ⟨(h name hname).1, (h name hname).tidy⟩).1
    rw [segments, if_neg hne, split_intercalate hnames fun name hname => (h name hname).2]

/-- The segments of a joined path are those of the base and then the names. -/
theorem segments_join (base : String) {names : List String} (h : ∀ name ∈ names, Plain name) :
    segments (join (base :: names)) = segments (join [base]) ++ names := by
  by_cases hnames : names = []
  · rw [hnames, List.append_nil]
  · have hne := join_ne_empty base hnames h
    rw [segments, if_neg hne, join_eq, parts_cons_of_tidy base fun name hname =>
      ⟨(h name hname).1, (h name hname).tidy⟩]
    have hsplit := split_intercalate hnames fun name hname => (h name hname).2
    by_cases hbase : join [base] = ""
    · rw [segments, if_pos hbase, join_eq_empty.mp hbase, List.nil_append, hsplit]
    · rw [segments, if_neg hbase, String.intercalate_append_of_ne_nil (mt join_eq_empty.mpr hbase)
        hnames, split_append, hsplit, join_eq]

/-- **Names below a base are told by the path they join to.** -/
theorem join_injective {base : String} {names names' : List String}
    (h : ∀ name ∈ names, Plain name) (h' : ∀ name ∈ names', Plain name)
    (heq : join (base :: names) = join (base :: names')) : names = names' := by
  have hsegments := congrArg segments heq
  rw [segments_join base h, segments_join base h'] at hsegments
  exact List.append_cancel_left hsegments

/-- What is joined to a path is the path or lies below it. -/
theorem above_join {path : String} (hne : path ≠ "") (h : Tidy path) (fragment : String) :
    join [path, fragment] = path ∨ Above path (join [path, fragment]) := by
  have happend : join [path, fragment] = _ := join_append [path] [fragment]
  rw [happend, join_singleton h]
  split
  · exact Or.inl rfl
  · rw [stem, if_neg hne]
    exact Or.inr (Or.inr (begins_iff_exists.mpr ⟨_, rfl⟩))

end Path
end HeadFinder
