import HeadFinder.Proofs.History.Clean

/-! # Listings by name

What a directory of a clean snapshot lists is determined by look-ups alone: it is each
name without a slash under which something stands, in the order of the names.
-/
namespace HeadFinder

/-- The child of a name and what stands under it. -/
def Child.ofItem (name : String) (item : Item) : Child :=
  ⟨name, item.kind, item.revision, some item.modified⟩

namespace Snapshot
variable {snapshot : Snapshot} {path : String} {listed : List (String × Item)}

/-- The names under which something stands in a directory, ascending, each with what stands
there. -/
structure Listing (snapshot : Snapshot) (path : String) (listed : List (String × Item)) :
    Prop where
  ascending : Ascending listed
  mem : ∀ name item, (name, item) ∈ listed ↔
    Text.Plain name ∧ snapshot.find? (Path.stem path ++ name) = some item

/-- There is but one listing of a directory. -/
theorem Listing.unique {listed' : List (String × Item)} (h : Listing snapshot path listed)
    (h' : Listing snapshot path listed') : listed = listed' := by
  refine eq_of_find?_eq h.ascending h'.ascending fun name => Option.ext fun item => ?_
  have hiff : ∀ {listed : List (String × Item)}, Ascending listed →
      (find? name listed = some item ↔ (name, item) ∈ listed) := fun hascending =>
    ⟨mem_of_find?, find?_of_mem hascending⟩
  rw [hiff h.ascending, hiff h'.ascending, h.mem, h'.mem]

/-- The name under which an entry stands in a directory, with the item. -/
def namedAt (start : String) (entry : String × Item) : Option (String × Item) :=
  (childAt start entry).map fun child => (child.name, entry.2)

/-- The listing of a directory. -/
def listing (path : String) (snapshot : Snapshot) : List (String × Item) :=
  snapshot.filterMap (namedAt (Path.stem path))

theorem childAt_eq_map (start : String) (entry : String × Item) :
    childAt start entry = (namedAt start entry).map fun named => Child.ofItem named.1 named.2 := by
  obtain ⟨path, item⟩ := entry
  unfold namedAt childAt
  dsimp only
  split
  · split <;> rfl
  · rfl

/-- **The children of a directory are its listing.** -/
theorem children_eq_listing (path : String) (snapshot : Snapshot) :
    children path snapshot =
      (listing path snapshot).map fun named => Child.ofItem named.1 named.2 := by
  unfold children listing
  rw [List.map_filterMap]
  exact congrArg (snapshot.filterMap ·) (funext (childAt_eq_map _))

theorem namedAt_eq_some {start name : String} {entry : String × Item} {item : Item} :
    namedAt start entry = some (name, item) ↔
      entry = (start ++ name, item) ∧ start ++ name ≠ "" ∧ '/' ∉ name.toList := by
  constructor
  · intro h
    obtain ⟨child, hchild, heq⟩ := Option.map_eq_some_iff.mp h
    obtain ⟨hpath, hne, hslash, -, -⟩ := childAt_eq_some hchild
    cases heq
    exact ⟨Prod.ext hpath rfl, hpath ▸ hne, hslash⟩
  · rintro ⟨rfl, hne, hslash⟩
    have hbegins : Text.begins start (start ++ name) = true :=
      Text.begins_iff_exists.mpr ⟨name, rfl⟩
    unfold namedAt childAt
    dsimp only
    rw [if_pos (by simp only [hne, hbegins, ne_eq, not_false_eq_true, decide_true, Bool.and_self]),
      Text.dropFirst_append, if_neg fun hmem => hslash (List.contains_iff_mem.mp hmem)]
    rfl

theorem lt_of_append_lt_append {start name other : String} (h : start ++ name < start ++ other) :
    name < other := by
  refine Classical.byContradiction fun hnot => ?_
  by_cases heq : name = other
  · rw [heq] at h
    exact String.lt_irrefl _ h
  · have hlt : other < name := Classical.byContradiction fun hnot' =>
      heq (String.le_antisymm (String.not_lt.mp hnot') (String.not_lt.mp hnot))
    have hback : (start ++ other).toList < (start ++ name).toList := by
      rw [String.toList_append, String.toList_append]
      exact List.append_left_lt hlt
    exact String.lt_irrefl _ (String.lt_trans h hback)

/-- **The listing of a directory in a clean snapshot lists it.** -/
theorem listing_lists (hascending : Ascending snapshot) (hclean : snapshot.Clean) (path : String) :
    Listing snapshot path (listing path snapshot) where
  ascending := by
    refine List.Pairwise.filterMap _ ?_ hascending
    rintro entry entry' hlt ⟨name, item⟩ hname ⟨name', item'⟩ hname'
    rw [(namedAt_eq_some.mp hname).1, (namedAt_eq_some.mp hname').1] at hlt
    exact lt_of_append_lt_append hlt
  mem := by
    intro name item
    unfold listing
    rw [List.mem_filterMap]
    constructor
    · rintro ⟨entry, hentry, hnamed⟩
      obtain ⟨rfl, hne, hslash⟩ := namedAt_eq_some.mp hnamed
      have hitem := find?_of_mem hascending hentry
      exact ⟨(hclean _ _ hitem).plain hne hslash, hitem⟩
    · rintro ⟨hplain, hitem⟩
      refine ⟨_, mem_of_find? hitem, namedAt_eq_some.mpr ⟨rfl, ?_, hplain.2⟩⟩
      exact fun hempty => hplain.1 (String.append_eq_empty_iff.mp hempty).2

end Snapshot
end HeadFinder
