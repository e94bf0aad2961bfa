import HeadFinder.Ordered

/-! # Members of ordered lists

Ordering a list neither loses nor invents members, and keeping the first of each
key keeps every key once.
-/
namespace HeadFinder.Ordered

variable {α κ : Type}

/-! ## Sets -/

section Sets
variable {compare : α → α → Ordering} (hcompare : ∀ a b, compare a b = .eq → a = b)
include hcompare

theorem mem_insert {a b : α} {as : List α} : b ∈ insert compare a as ↔ b = a ∨ b ∈ as := by
  induction as with
  | nil => simp [insert]
  | cons c rest ih =>
    simp only [insert]
    split
    · exact List.mem_cons
    · rename_i heq
      rw [hcompare a c heq]
      constructor
      · exact Or.inr
      · rintro (rfl | h)
        · exact List.mem_cons_self ..
        · exact h
    · rw [List.mem_cons, ih, List.mem_cons]
      constructor
      · rintro (h | h | h)
        · exact Or.inr (Or.inl h)
        · exact Or.inl h
        · exact Or.inr (Or.inr h)
      · rintro (h | h | h)
        · exact Or.inr (Or.inl h)
        · exact Or.inl h
        · exact Or.inr (Or.inr h)

theorem mem_ofList {a : α} {as : List α} : a ∈ ofList compare as ↔ a ∈ as := by
  induction as with
  | nil => exact Iff.rfl
  | cons b rest ih =>
    show a ∈ insert compare b (ofList compare rest) ↔ _
    rw [mem_insert hcompare, ih, List.mem_cons]

end Sets

theorem mem_sort {before : α → α → Bool} {a : α} {as : List α} :
    a ∈ sort before as ↔ a ∈ as :=
  (sort_perm before as).mem_iff

/-! ## The first of each key -/

section Firsts
variable [BEq κ] [LawfulBEq κ] {key : α → κ}

theorem mem_of_mem_firsts {a : α} {seen : List κ} {as : List α} (h : a ∈ firsts key seen as) :
    a ∈ as ∧ key a ∉ seen := by
  induction as generalizing seen with
  | nil => cases h
  | cons b rest ih =>
    simp only [firsts] at h
    split at h
    · obtain ⟨hmem, hseen⟩ := ih h
      exact ⟨List.mem_cons_of_mem _ hmem, hseen⟩
    · rename_i hnew
      rcases List.mem_cons.mp h with rfl | h
      · exact ⟨List.mem_cons_self .., fun hs => hnew (List.contains_iff_mem.mpr hs)⟩
      · obtain ⟨hmem, hseen⟩ := ih h
        exact ⟨List.mem_cons_of_mem _ hmem, fun hs => hseen (List.mem_cons_of_mem _ hs)⟩

/-- No key is kept twice. -/
theorem nodup_keys_firsts (seen : List κ) (as : List α) :
    ((firsts key seen as).map key).Nodup := by
  induction as generalizing seen with
  | nil => exact List.nodup_nil
  | cons b rest ih =>
    simp only [firsts]
    split
    · exact ih seen
    · rw [List.map_cons]
      refine List.nodup_cons.mpr ⟨?_, ih _⟩
      intro h
      obtain ⟨c, hc, heq⟩ := List.mem_map.mp h
      exact (mem_of_mem_firsts hc).2 (heq ▸ List.mem_cons_self ..)

/-- Every key that is new is kept. -/
theorem exists_mem_firsts {a : α} {seen : List κ} {as : List α} (ha : a ∈ as)
    (hseen : key a ∉ seen) : ∃ b ∈ firsts key seen as, key b = key a := by
  induction as generalizing seen with
  | nil => cases ha
  | cons b rest ih =>
    simp only [firsts]
    split
    · rename_i hb
      rcases List.mem_cons.mp ha with rfl | ha
      · exact absurd (List.contains_iff_mem.mp hb) hseen
      · exact ih ha hseen
    · by_cases hkey : key b = key a
      · exact ⟨b, List.mem_cons_self .., hkey⟩
      · rcases List.mem_cons.mp ha with rfl | ha
        · exact absurd rfl hkey
        · have hnew : key a ∉ key b :: seen := by
            intro h
            rcases List.mem_cons.mp h with h | h
            · exact hkey h.symm
            · exact hseen h
          obtain ⟨c, hc, heq⟩ := ih ha hnew
          exact ⟨c, List.mem_cons_of_mem _ hc, heq⟩

end Firsts

end HeadFinder.Ordered
