import HeadFinder.Proofs.Join
import HeadFinder.Proofs.Numeral.Integer
import HeadFinder.Proofs.Text.Percent
import HeadFinder.Proofs.Text.Search
import HeadFinder.Proofs.Text.Trim

/-! # Addresses and targets

The address of a path is the root of its repository with the encoded path behind a slash.
A target is an address with a revision behind an `@`, which is the last one in it, and what
stands in a directory has the address of the directory with its encoded name as the last
part.
-/
namespace HeadFinder

/-- A label holds no `@`. -/
theorem Revision.at_not_mem_label (revision : Revision) :
    '@' ∉ (Revision.label revision).toList := by
  unfold label
  split
  · decide
  · rename_i hsign
    obtain ⟨n, rfl⟩ := Int.eq_ofNat_of_zero_le (Int.not_lt.mp hsign)
    intro hmem
    cases Numeral.isDigit_of_mem_toString hmem

namespace Subversion

/-- The address of a path in a repository. -/
def address (root path : String) : String :=
  if path = "" then root else root ++ "/" ++ Text.Percent.encode path

/-- The target that names a path at a revision. -/
def pegged (root path : String) (revision : Revision) : String :=
  address root path ++ "@" ++ revision.label

section Addresses
variable {root path name : String}

/-- The address of a tidy path keeps its end, as that of the root does. -/
theorem trimEndSlashes_address (hroot : Text.trimEndSlashes root = root) (hpath : Text.Tidy path) :
    Text.trimEndSlashes (address root path) = address root path := by
  unfold address
  split
  · exact hroot
  · rename_i hne
    have hend : ∀ c, (root ++ "/" ++ Text.Percent.encode path).toList.getLast? = some c →
        decide (c = '/') = false := by
      rintro c hc
      have hnil : (Text.Percent.encode path).toList ≠ [] := fun hnil =>
        Text.Percent.encode_ne_empty hne (String.toList_injective hnil)
      rw [String.toList_append, List.getLast?_append_of_ne_nil _ hnil] at hc
      refine decide_eq_false ?_
      rintro rfl
      exact Text.Percent.getLast?_encode hpath.2 hc
    rw [Text.trimEndSlashes, Text.trimEnd_eq_self hend, String.ofList_toList]

/-- What stands in a directory has an address below that of the directory. -/
theorem address_below (root path : String) (hname : Text.Plain name) :
    address root (Path.stem path ++ name) =
      address root path ++ "/" ++ Text.Percent.encode name := by
  have hne : Path.stem path ++ name ≠ "" := fun hempty =>
    hname.1 (String.append_eq_empty_iff.mp hempty).2
  unfold address
  rw [if_neg hne]
  unfold Path.stem
  by_cases hpath : path = ""
  · rw [if_pos hpath, if_pos hpath, String.empty_append]
  · rw [if_neg hpath, if_neg hpath, Text.Percent.encode_append, Text.Percent.encode_append,
      Text.Percent.encode_slash]
    simp only [String.append_assoc]

/-- The last part of the address is the encoded name. -/
theorem getLast?_split_address_below (root path : String) (hname : Text.Plain name) :
    (Text.split '/' (address root (Path.stem path ++ name))).getLast? =
      some (Text.Percent.encode name) := by
  rw [address_below root path hname, Text.split_append,
    Text.split_of_not_mem (Text.Percent.slash_not_mem_encode hname.2)]
  exact List.getLast?_concat

theorem address_below_ne (root path : String) (hname : Text.Plain name) :
    address root (Path.stem path ++ name) ≠ address root path := by
  rw [address_below root path hname]
  intro heq
  have hlength := congrArg String.length heq
  rw [String.length_append, String.length_append] at hlength
  have : "/".length = 1 := rfl
  omega

theorem cutLast_pegged (root path : String) (revision : Revision) :
    Text.cutLast '@' (pegged root path revision).toList =
      some ((address root path).toList, revision.label.toList) := by
  unfold pegged
  rw [String.toList_append, String.toList_append, List.append_assoc]
  exact Text.cutLast_append revision.at_not_mem_label _

end Addresses
end Subversion
end HeadFinder
