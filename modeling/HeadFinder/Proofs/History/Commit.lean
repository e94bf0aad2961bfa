import HeadFinder.Proofs.History.Snapshots

/-! # What a commit does

A commit touches paths, each with all that is above it.  What it touched is there
afterwards and carries the new revision; what it did not touch and is still there
is as before, with everything below it.  `Advances` says so, and `apply_advances`
proves it from one lemma for each way of changing a draft.
-/
namespace HeadFinder.History

/-- A computation that comes to an end has come to one at each step. -/
theorem bind_ok {α β ε : Type} {first : Except ε α} {next : α → Except ε β} {result : β}
    (h : first >>= next = .ok result) : ∃ value, first = .ok value ∧ next value = .ok result := by
  cases first with
  | error failure => cases h
  | ok value => exact ⟨value, rfl, h⟩

/-- What steps that may fail preserve, they preserve together. -/
theorem foldlM_preserves {δ α ε : Type} {step : δ → α → Except ε δ} {P : δ → Prop}
    {inputs : List α}
    (hstep : ∀ before input after, input ∈ inputs → P before → step before input = .ok after →
      P after)
    {before after : δ} (hbefore : P before) (h : inputs.foldlM step before = .ok after) :
    P after := by
  induction inputs generalizing before with
  | nil =>
    cases h
    exact hbefore
  | cons input rest ih =>
    rw [List.foldlM_cons] at h
    obtain ⟨next, hfirst, hnext⟩ := bind_ok h
    exact ih (fun before input after hinput => hstep before input after
      (List.mem_cons_of_mem _ hinput))
      (hstep before input next (List.mem_cons_self ..) hbefore hfirst) hnext

namespace Draft

theorem delete_ok {youngest : Nat} {draft after : Draft} {raw : String}
    (h : draft.delete youngest raw = .ok after) :
    after = ⟨draft.tree.remove (Path.join [raw]),
      draft.touched ++ Path.ancestors (Path.join [raw])⟩ := by
  unfold delete at h
  dsimp only at h
  split at h
  · cases h
  · exact (Except.ok.inj h).symm

theorem add_ok {kind : Kind} {revision : Nat} {time : Int} {draft after : Draft} {raw : String}
    (h : draft.add kind revision time raw = .ok after) :
    after = ⟨draft.tree.put (Path.join [raw]) ⟨kind, revision, time⟩,
      draft.touched ++ Path.ancestors (Path.join [raw]) ++ [Path.join [raw]]⟩ := by
  unfold add at h
  dsimp only at h
  split at h
  · cases h
  · exact (Except.ok.inj h).symm

/-- How a draft stands to the snapshot it started from.  Touched paths are closed
upwards; a path that is there and not touched is there as before, with the same
below it, and what is above it has not been removed. -/
structure Follows (before : Snapshot) (draft : Draft) : Prop where
  ascending : draft.tree.Ascending
  closed : ∀ path ∈ draft.touched, ∀ above, Path.Above above path → above ∈ draft.touched
  kept : ∀ path ∉ draft.touched, ∀ item, draft.tree.find? path = some item →
    before.find? path = some item ∧
      (∀ below, Path.Above path below → draft.tree.find? below = before.find? below) ∧
      ∀ above, Path.Above above path → above ∉ draft.touched →
        draft.tree.find? above = before.find? above

theorem Follows.start {before : Snapshot} (h : before.Ascending) : Follows before ⟨before, []⟩ where
  ascending := h
  closed := fun _ hpath => nomatch hpath
  kept := fun _ _ _ hitem => ⟨hitem, fun _ _ => rfl, fun _ _ _ => rfl⟩

theorem closed_ancestors {touched : List String} {path : String}
    (h : ∀ path ∈ touched, ∀ above, Path.Above above path → above ∈ touched) :
    ∀ other ∈ touched ++ Path.ancestors path, ∀ above, Path.Above above other →
      above ∈ touched ++ Path.ancestors path := by
  intro other hother above habove
  rw [List.mem_append] at hother ⊢
  rcases hother with hother | hother
  · exact Or.inl (h other hother above habove)
  · exact Or.inr (Path.mem_ancestors.mpr (habove.trans (Path.mem_ancestors.mp hother)))

variable {before : Snapshot} {draft : Draft}

theorem Follows.delete (h : Follows before draft) (top : String) :
    Follows before ⟨draft.tree.remove top, draft.touched ++ Path.ancestors top⟩ where
  ascending := Snapshot.ascending_filter _ h.ascending
  closed := closed_ancestors h.closed
  kept := by
    intro path hpath item hitem
    obtain ⟨hold, hup⟩ := not_or.mp (mt List.mem_append.mpr hpath)
    -- What lies above the subtree that is removed is touched.
    have hnotAbove : ¬ Path.Above path top := fun habove => hup (Path.mem_ancestors.mpr habove)
    rw [Snapshot.find?_remove] at hitem
    by_cases hwithin : Snapshot.isWithin top path = true
    · rw [if_pos hwithin] at hitem
      cases hitem
    · rw [if_neg hwithin] at hitem
      obtain ⟨hsame, hbelow, habove⟩ := h.kept path hold item hitem
      refine ⟨hsame, fun below hpathBelow => ?_, fun above hpathAbove hfresh => ?_⟩
      · have houtside : ¬ Snapshot.isWithin top below = true := fun hin =>
          (Path.isWithin_or_above hpathBelow hin).elim hwithin hnotAbove
        rw [Snapshot.find?_remove, if_neg houtside, hbelow below hpathBelow]
      · obtain ⟨holdAbove, hupAbove⟩ := not_or.mp (mt List.mem_append.mpr hfresh)
        have houtside : ¬ Snapshot.isWithin top above = true := by
          intro hin
          rcases Path.isWithin_of_above hin hpathAbove with hin | rfl
          · exact hwithin hin
          · exact hupAbove (Path.mem_ancestors.mpr (Path.above_root top))
        rw [Snapshot.find?_remove, if_neg houtside, habove above hpathAbove holdAbove]

theorem Follows.add (h : Follows before draft) (path : String) (item : Item) :
    Follows before ⟨draft.tree.put path item,
      draft.touched ++ Path.ancestors path ++ [path]⟩ where
  ascending := Snapshot.ascending_put h.ascending
  closed := by
    intro other hother above habove
    rw [List.mem_append] at hother ⊢
    left
    rcases hother with hother | hother
    · exact closed_ancestors h.closed other hother above habove
    · rw [List.mem_singleton.mp hother] at habove
      exact List.mem_append_right _ (Path.mem_ancestors.mpr habove)
  kept := by
    intro other hother found hfound
    obtain ⟨hother, hne⟩ := not_or.mp (mt List.mem_append.mpr hother)
    obtain ⟨hold, hup⟩ := not_or.mp (mt List.mem_append.mpr hother)
    rw [List.mem_singleton] at hne
    rw [Snapshot.find?_put, if_neg hne] at hfound
    obtain ⟨hsame, hbelow, habove⟩ := h.kept other hold found hfound
    refine ⟨hsame, fun below hotherBelow => ?_, fun above hotherAbove hfresh => ?_⟩
    · have hne : below ≠ path := by
        rintro rfl
        exact hup (Path.mem_ancestors.mpr hotherBelow)
      rw [Snapshot.find?_put, if_neg hne, hbelow below hotherBelow]
    · obtain ⟨hfresh, hne⟩ := not_or.mp (mt List.mem_append.mpr hfresh)
      rw [List.mem_singleton] at hne
      rw [Snapshot.find?_put, if_neg hne,
        habove above hotherAbove fun hin => hfresh (List.mem_append_left _ hin)]

/-- What marking a path leaves at a path. -/
theorem find?_mark {revision : Nat} {time : Int} {tree : Snapshot} {path spot : String} :
    (mark revision time tree path).find? spot =
      if spot = path then
        some ⟨((tree.find? path).map Item.kind).getD .directory, revision, time⟩
      else tree.find? spot := by
  unfold mark
  cases hfind : tree.find? path <;> exact Snapshot.find?_put

/-- What marking all touched paths leaves at a path. -/
theorem find?_marked {revision : Nat} {time : Int} {touched : List String} {tree : Snapshot}
    {spot : String} :
    (touched.foldl (mark revision time) tree).find? spot =
      if spot ∈ touched then
        some ⟨((tree.find? spot).map Item.kind).getD .directory, revision, time⟩
      else tree.find? spot := by
  induction touched generalizing tree with
  | nil => rfl
  | cons path rest ih =>
    rw [List.foldl_cons, ih, find?_mark]
    by_cases hpath : spot = path
    · subst hpath
      rw [if_pos rfl, if_pos (List.mem_cons_self ..)]
      split <;> rfl
    · rw [if_neg hpath]
      simp only [List.mem_cons, hpath, false_or]

theorem ascending_marked {revision : Nat} {time : Int} {touched : List String}
    {tree : Snapshot} (h : tree.Ascending) :
    (touched.foldl (mark revision time) tree).Ascending := by
  induction touched generalizing tree with
  | nil => exact h
  | cons path rest ih =>
    refine ih ?_
    unfold mark
    split <;> exact Snapshot.ascending_put h

end Draft

/-- **What a commit does** to a snapshot: the touched paths are there and carry its
revision; what else is there is as before, with all that is below it, and so is
what is above it and not touched. -/
structure Advances (revision : Nat) (touched : List String) (before after : Snapshot) : Prop where
  closed : ∀ path ∈ touched, ∀ above, Path.Above above path → above ∈ touched
  fresh : ∀ path ∈ touched, ∃ kind modified, after.find? path = some ⟨kind, revision, modified⟩
  kept : ∀ path ∉ touched, ∀ item, after.find? path = some item → before.find? path = some item
  below : ∀ path ∉ touched, ∀ item, after.find? path = some item →
    ∀ other, Path.Above path other → after.find? other = before.find? other
  above : ∀ path ∉ touched, ∀ item, after.find? path = some item →
    ∀ other ∉ touched, Path.Above other path → after.find? other = before.find? other

theorem Draft.Follows.advances {before : Snapshot} {draft : Draft} (h : draft.Follows before)
    (revision : Nat) (time : Int) :
    Advances revision draft.touched before
      (draft.touched.foldl (Draft.mark revision time) draft.tree) where
  closed := h.closed
  fresh := fun path hpath => ⟨_, _, by rw [Draft.find?_marked, if_pos hpath]⟩
  kept := by
    intro path hpath item hitem
    rw [Draft.find?_marked, if_neg hpath] at hitem
    exact (h.kept path hpath item hitem).1
  below := by
    intro path hpath item hitem other hother
    rw [Draft.find?_marked, if_neg hpath] at hitem
    -- Nothing below an untouched path is touched.
    have huntouched : other ∉ draft.touched := fun hin => hpath (h.closed other hin path hother)
    rw [Draft.find?_marked, if_neg huntouched]
    exact (h.kept path hpath item hitem).2.1 other hother
  above := by
    intro path hpath item hitem other hother habove
    rw [Draft.find?_marked, if_neg hpath] at hitem
    rw [Draft.find?_marked, if_neg hother]
    exact (h.kept path hpath item hitem).2.2 other habove hother

variable {history after : History} {change : Change} {snapshot : Snapshot}

/-- A change that can be applied leads through drafts that follow the current
snapshot, and then marks what it touched. -/
theorem apply_ok (h : history.apply change = .ok snapshot) (P : Draft → Prop)
    (hstart : P ⟨history.current, []⟩)
    (hdelete : ∀ draft raw, raw ∈ change.deletions → P draft →
      P ⟨draft.tree.remove (Path.join [raw]), draft.touched ++ Path.ancestors (Path.join [raw])⟩)
    (hadd : ∀ draft raw kind time, raw ∈ change.directories ++ change.files → P draft →
      P ⟨draft.tree.put (Path.join [raw]) ⟨kind, history.youngest + 1, time⟩,
        draft.touched ++ Path.ancestors (Path.join [raw]) ++ [Path.join [raw]]⟩) :
    ∃ draft time, P draft ∧
      snapshot = draft.touched.foldl (Draft.mark (history.youngest + 1) time) draft.tree := by
  -- Deletions come first, then directories, then files.
  obtain ⟨deleted, hdeleted, h⟩ := bind_ok h
  obtain ⟨built, hbuilt, h⟩ := bind_ok h
  obtain ⟨filled, hfilled, h⟩ := bind_ok h
  have hP : P deleted := foldlM_preserves (fun before raw after hraw hbefore hstep => by
    rw [Draft.delete_ok hstep]
    exact hdelete before raw hraw hbefore) hstart hdeleted
  have hP : P built := foldlM_preserves (fun before raw after hraw hbefore hstep => by
    rw [Draft.add_ok hstep]
    exact hadd before raw _ _ (List.mem_append_left _ hraw) hbefore) hP hbuilt
  have hP : P filled := foldlM_preserves (fun before raw after hraw hbefore hstep => by
    rw [Draft.add_ok hstep]
    exact hadd before raw _ _ (List.mem_append_right _ hraw) hbefore) hP hfilled
  exact ⟨filled, _, hP, (Except.ok.inj h).symm⟩

/-- **A successful commit advances the current snapshot.** -/
theorem commit_advances (hascending : history.current.Ascending)
    (h : history.commit change = .ok after) :
    after.past = history.past ++ [history.current] ∧ after.current.Ascending ∧
      ∃ touched, Advances (history.youngest + 1) touched history.current after.current := by
  obtain ⟨snapshot, happly, hafter⟩ := bind_ok h
  cases hafter
  obtain ⟨draft, time, hfollows, rfl⟩ := apply_ok happly (Draft.Follows history.current)
    (.start hascending) (fun draft raw _ h => h.delete _) (fun draft raw _ _ _ h => h.add _ _)
  exact ⟨rfl, Draft.ascending_marked hfollows.ascending, _, hfollows.advances _ time⟩

end HeadFinder.History
