import HeadFinder.Proofs.Json.Soundness
import HeadFinder.Proofs.Preferences.Settings
import HeadFinder.Report
import Mathlib.Data.List.Forall2

/-! # Files of preferences and reports

What is written as JSON is read back: preferences from the file that keeps them, and heads from
their report.  Preferences that have been loaded can always be saved and loaded again, and then
only binary fractions among them may have changed.
-/
namespace HeadFinder

/-! ## Preferences -/

namespace Preferences
variable {limit : Nat} {preferences later : Preferences} {key default : String}
  {mayBeEmpty : Bool}

/-- Saved preferences are loaded as they were, but for binary fractions. -/
theorem loadWithin_save (h : (Json.object preferences).Legible limit) :
    loadWithin limit (some preferences.save.toUTF8.toList) = Json.rereadMembers preferences := by
  rw [Text.Utf8.toList_toUTF8, loadWithin_encode, String.ofList_toList, save,
    Json.parseWithin_print h]
  rfl

/-- Preferences that have been loaded can be saved. -/
theorem legible_loadWithin (limit : Nat) (file : Option (List UInt8)) :
    (Json.object (loadWithin (limit + 1) file)).Legible (limit + 1) := by
  have hnone : (Json.object []).Legible (limit + 1) := .object (by simp) (by simp)
  unfold loadWithin
  split
  · exact hnone
  · split
    · rename_i hparse
      exact Json.legible_of_parseWithin hparse
    · exact hnone

/-- A preferred text stays what it is when it is reread. -/
theorem text_reread
    (h : Json.find? key later = (Json.find? key preferences).map Json.reread) :
    later.text key default mayBeEmpty = preferences.text key default mayBeEmpty := by
  rw [text, text, h]
  rcases Json.find? key preferences with _ | ⟨⟩ | ⟨⟩ | ⟨n | b⟩ | ⟨⟩ | ⟨⟩ | ⟨⟩ <;> rfl

/-- A preferred timeout does not become too large when it is reread. -/
theorem excessive_reread (h : Json.find? "timeout_seconds" later =
      (Json.find? "timeout_seconds" preferences).map Json.reread) (hlater : later.Excessive) :
    preferences.Excessive := by
  obtain ⟨n, hbeyond, hfind⟩ := hlater
  obtain ⟨value, hvalue, hreread⟩ := Option.map_eq_some_iff.mp (h.symm.trans hfind)
  exact ⟨n, hbeyond, hvalue.trans (congrArg some (Json.reread_eq_whole hreread))⟩

end Preferences

/-! ## Reports -/

/-- A head whose numbers have no more digits than are read. -/
structure Head.Legible (head : Head) : Prop where
  revision : Numeral.Short head.revision.natAbs
  modified : ∀ time ∈ head.modified, Numeral.Short time.natAbs

namespace Report

/-- Members that tell the name, the revision and the time of a head, and nothing else. -/
structure Describes (head : Head) (members : Json.Members) : Prop where
  keys : members.map Prod.fst = ["name", "revision", "last_modified"]
  name : Json.find? "name" members = some (.string head.name)
  revision : Json.find? "revision" members = some (.number (.whole head.revision))
  modified : Json.find? "last_modified" members =
    some ((head.modified.map fun time => .number (.whole time)).getD .null)

/-- The members of the object that stands for a head. -/
def membersOf (head : Head) : Json.Members :=
  [("name", .string head.name), ("revision", .number (.whole head.revision)),
    ("last_modified", (head.modified.map fun time => .number (.whole time)).getD .null)]

theorem toJson_eq (head : Head) : toJson head = .object (membersOf head) := by
  obtain ⟨name, revision, modified⟩ := head
  cases modified <;> rfl

theorem describes_membersOf (head : Head) : Describes head (membersOf head) where
  keys := rfl
  name := rfl
  revision := rfl
  modified := rfl

theorem legible_toJson {head : Head} (h : head.Legible) (limit : Nat) :
    (toJson head).Legible (limit + 1) := by
  obtain ⟨name, revision, modified⟩ := head
  have hrevision : Numeral.Short revision.natAbs := h.revision
  cases modified with
  | none => simp [toJson, hrevision]
  | some time =>
    have htime : Numeral.Short time.natAbs := h.modified time rfl
    simp [toJson, hrevision, htime]

theorem whole_toJson (head : Head) : (toJson head).Whole := by
  obtain ⟨name, revision, modified⟩ := head
  cases modified <;> simp [toJson]

/-- A report is read back as an object for each head. -/
theorem parseWithin_json {heads : List Head} (h : ∀ head ∈ heads, head.Legible) (limit : Nat) :
    Json.parseWithin (limit + 2) (json heads) =
      some (.array ((heads.map membersOf).map .object)) := by
  have hlegible : (Json.array (heads.map toJson)).Legible (limit + 2) :=
    .array (List.forall_mem_map.mpr fun head hhead => legible_toJson (h head hhead) limit)
  have hwhole : (Json.array (heads.map toJson)).Whole :=
    .array (List.forall_mem_map.mpr fun head _ => whole_toJson head)
  rw [json, Json.parseWithin_print hlegible, hwhole.reread_eq, List.map_map]
  exact congrArg (some ∘ Json.array) (List.map_congr_left fun head _ => toJson_eq head)

end Report

/-- **What is written is read back.**  Preferences without binary fractions are loaded from the
file that keeps them just as they were saved, and a report of heads is an array with exactly one
object for each of them, in order.  This holds whatever limit the reader has for the depth of
values, as long as the preferences keep to it, and an array of objects does. -/
theorem documents_read_back (limit : Nat) :
    (∀ preferences : Preferences, (Json.object preferences).Legible limit →
      (Json.object preferences).Whole →
        Preferences.loadWithin limit (some preferences.save.toUTF8.toList) = preferences) ∧
    ∀ heads : List Head, 2 ≤ limit → (∀ head ∈ heads, head.Legible) →
      ∃ objects, Json.parseWithin limit (Report.json heads) = some (.array (objects.map .object)) ∧
        List.Forall₂ Report.Describes heads objects := by
  constructor
  · intro preferences hlegible hwhole
    have hkept := hwhole.reread_eq
    rw [Preferences.loadWithin_save hlegible]
    rw [Json.reread] at hkept
    exact Json.object.inj hkept
  · intro heads hlimit hheads
    obtain ⟨limit, rfl⟩ := Nat.exists_eq_add_of_le' hlimit
    refine ⟨heads.map Report.membersOf, Report.parseWithin_json hheads limit, ?_⟩
    rw [List.forall₂_map_right_iff, List.forall₂_same]
    exact fun head _ => Report.describes_membersOf head

/-- Preferences with values in values, and characters that are written in each of the ways. -/
def motley : Preferences :=
  [("empty", .array []), ("sizes", .array [.null, .bool true, .number (.whole (-12))]),
    ("words", .object [("tab\t", .string "\x07\"/\\"), ("é😀", .object [])])]

theorem documents_read_back_motley :
    Preferences.load (some motley.save.toUTF8.toList) = motley ∧
      ∃ objects, Json.parse (Report.json [⟨"trunk", 3, some 1000⟩, ⟨"a\nb", 4, none⟩]) =
          some (.array (objects.map .object)) ∧
        List.Forall₂ Report.Describes [⟨"trunk", 3, some 1000⟩, ⟨"a\nb", 4, none⟩] objects := by
  have hshort {n : Nat} (hn : n < 10 ^ 4) : Numeral.Short n :=
    hn.trans (Nat.pow_lt_pow_right (by decide) (by decide))
  have hlegible : (Json.object motley).Legible Json.depthLimit := by
    have htwelve : Numeral.Short 12 := hshort (by decide)
    simp [motley, Json.depthLimit, htwelve]
  have hwhole : (Json.object motley).Whole := by simp [motley]
  have htrunk : Head.Legible ⟨"trunk", 3, some 1000⟩ :=
    ⟨hshort (by decide), by simpa using hshort (by decide)⟩
  have hbroken : Head.Legible ⟨"a\nb", 4, none⟩ := ⟨hshort (by decide), by simp⟩
  obtain ⟨hload, hjson⟩ := documents_read_back Json.depthLimit
  refine ⟨hload motley hlegible hwhole, hjson _ (by decide) ?_⟩
  simp [htrunk, hbroken]

end HeadFinder
