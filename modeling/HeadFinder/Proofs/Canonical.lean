import HeadFinder.Proofs.Ordered

/-! # Canonical forms

A set comes out the same from all lists of its members, and a sequence is sorted to the
same list from all its rearrangements, if the order leaves no two of its elements alike.
-/
namespace HeadFinder.Ordered

variable {α : Type} {as bs : List α}

/-! ## Sets -/

section Sets
variable {compare : α → α → Ordering} [Std.TransCmp compare]

/-- In strictly ascending order. -/
def Ascending (compare : α → α → Ordering) (as : List α) : Prop :=
  as.Pairwise fun a b => compare a b = .lt

theorem nodup_of_ascending (h : Ascending compare as) : as.Nodup := by
  refine List.Pairwise.imp ?_ h
  rintro a _ hlt rfl
  have hself : compare a a = .eq := Std.ReflCmp.compare_self
  cases hself.symm.trans hlt

/-- Ascending lists with the same members are the same. -/
theorem eq_of_ascending (h : Ascending compare as) (h' : Ascending compare bs)
    (hmem : ∀ a, a ∈ as ↔ a ∈ bs) : as = bs := by
  have hperm : as.Perm bs :=
    (List.perm_ext_iff_of_nodup (nodup_of_ascending h) (nodup_of_ascending h')).mpr hmem
  refine List.Perm.eq_of_pairwise (fun a b _ _ hab hba => ?_) h h' hperm
  cases (Std.OrientedCmp.gt_iff_lt.mpr hba).symm.trans hab

variable [Std.LawfulEqCmp compare]

theorem ascending_insert (a : α) (h : Ascending compare as) :
    Ascending compare (insert compare a as) := by
  induction as with
  | nil => exact List.pairwise_singleton _ _
  | cons b rest ih =>
    obtain ⟨hfirst, hrest⟩ := List.pairwise_cons.mp h
    simp only [insert]
    split
    · rename_i hlt
      refine List.pairwise_cons.mpr ⟨fun c hc => ?_, h⟩
      rcases List.mem_cons.mp hc with rfl | hc
      · exact hlt
      · exact Std.TransCmp.lt_trans hlt (hfirst c hc)
    · exact h
    · rename_i hgt
      refine List.pairwise_cons.mpr ⟨fun c hc => ?_, ih hrest⟩
      rcases (mem_insert fun _ _ => Std.LawfulEqCmp.eq_of_compare).mp hc with rfl | hc
      · exact Std.OrientedCmp.gt_iff_lt.mp hgt
      · exact hfirst c hc

theorem ascending_ofList (as : List α) : Ascending compare (ofList compare as) := by
  induction as with
  | nil => exact List.Pairwise.nil
  | cons a rest ih => exact ascending_insert a ih

/-- **A set is the same for all lists of its members.** -/
theorem ofList_congr (h : ∀ a, a ∈ as ↔ a ∈ bs) : ofList compare as = ofList compare bs := by
  have hmem : ∀ (cs : List α) (a : α), a ∈ ofList compare cs ↔ a ∈ cs := fun _ _ =>
    mem_ofList fun _ _ => Std.LawfulEqCmp.eq_of_compare
  refine eq_of_ascending (ascending_ofList as) (ascending_ofList bs) fun a => ?_
  rw [hmem, hmem, h]

end Sets

/-! ## Sequences -/

section Sequences
variable {before : α → α → Bool} (htotal : ∀ a b, before a b = false → before b a = true)
  (htrans : ∀ a b c, before a b = true → before b c = true → before a c = true)
include htotal htrans

theorem pairwise_place (a : α) (h : as.Pairwise fun a b => before a b = true) :
    (place before a as).Pairwise fun a b => before a b = true := by
  induction as with
  | nil => exact List.pairwise_singleton _ _
  | cons b rest ih =>
    obtain ⟨hfirst, hrest⟩ := List.pairwise_cons.mp h
    simp only [place]
    split
    · rename_i hbefore
      refine List.pairwise_cons.mpr ⟨fun c hc => ?_, h⟩
      rcases List.mem_cons.mp hc with rfl | hc
      · exact hbefore
      · exact htrans _ _ _ hbefore (hfirst c hc)
    · rename_i hafter
      refine List.pairwise_cons.mpr ⟨fun c hc => ?_, ih hrest⟩
      rcases List.mem_cons.mp ((place_perm before a rest).mem_iff.mp hc) with rfl | hc
      · exact htotal _ _ (Bool.eq_false_iff.mpr hafter)
      · exact hfirst c hc

theorem pairwise_sort (as : List α) : (sort before as).Pairwise fun a b => before a b = true := by
  induction as with
  | nil => exact List.Pairwise.nil
  | cons a rest ih => exact pairwise_place htotal htrans a ih

/-- **A sequence is sorted to the same list from all its rearrangements.** -/
theorem sort_congr
    (hdistinct : ∀ a ∈ as, ∀ b ∈ as, before a b = true → before b a = true → a = b)
    (h : as.Perm bs) : sort before as = sort before bs := by
  have hperm : (sort before as).Perm (sort before bs) :=
    (sort_perm before as).trans (h.trans (sort_perm before bs).symm)
  refine List.Perm.eq_of_pairwise (fun a b ha hb => ?_) (pairwise_sort htotal htrans as)
    (pairwise_sort htotal htrans bs) hperm
  exact hdistinct a (mem_sort.mp ha) b (h.mem_iff.mpr (mem_sort.mp hb))

end Sequences

end HeadFinder.Ordered
