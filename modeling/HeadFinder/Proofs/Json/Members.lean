import HeadFinder.Json.Value

/-! # Members of objects

The value of a key that occurs already is replaced where it stands, and a new key is put at the
end.  So the other members stay what and where they were, and no key comes to occur twice.
-/
namespace HeadFinder.Json

variable {key : String} {value : Json} {members : Members}

theorem find?_cons (key other : String) (value : Json) (rest : Members) :
    find? key ((other, value) :: rest) = if other = key then some value else find? key rest := by
  by_cases hkey : other = key
  · simp [find?, hkey]
  · have hfalse : (key == other) = false := beq_false_of_ne (Ne.symm hkey)
    simp [find?, List.lookup_cons, hfalse, hkey]

/-- What was put is found under its key, and everything else where it was. -/
theorem find?_put (key other : String) (value : Json) (members : Members) :
    find? other (put key value members) =
      if key = other then some value else find? other members := by
  induction members with
  | nil => rw [put, find?_cons]
  | cons member rest ih =>
    obtain ⟨first, old⟩ := member
    by_cases hkey : first = key
    · rw [put, if_pos hkey, find?_cons, find?_cons, hkey]
      split <;> rfl
    · rw [put, if_neg hkey, find?_cons, find?_cons, ih]
      by_cases hfirst : first = other
      · rw [if_pos hfirst, if_neg (fun h => hkey (hfirst.trans h.symm)), if_pos hfirst]
      · rw [if_neg hfirst, if_neg hfirst]

/-- Putting a value under a key leaves the other keys where they are. -/
theorem keys_put : (put key value members).map Prod.fst =
    if key ∈ members.map Prod.fst then members.map Prod.fst
    else members.map Prod.fst ++ [key] := by
  induction members with
  | nil => rfl
  | cons member rest ih =>
    obtain ⟨other, old⟩ := member
    by_cases hkey : other = key
    · simp [put, hkey]
    · simp only [put, if_neg hkey, List.map_cons, ih, List.mem_cons, Ne.symm hkey, false_or]
      split <;> rfl

theorem mem_put {member : String × Json} (h : member ∈ put key value members) :
    member = (key, value) ∨ member ∈ members := by
  induction members with
  | nil => exact .inl (List.mem_singleton.mp h)
  | cons other rest ih =>
    rw [put] at h
    split at h
    · exact (List.mem_cons.mp h).imp_right (List.mem_cons_of_mem _)
    · rcases List.mem_cons.mp h with rfl | h
      · exact .inr List.mem_cons_self
      · exact (ih h).imp_right (List.mem_cons_of_mem _)

/-- A new key is put at the end. -/
theorem put_eq_append (h : key ∉ members.map Prod.fst) (value : Json) :
    put key value members = members ++ [(key, value)] := by
  induction members with
  | nil => rfl
  | cons member more ih =>
    obtain ⟨hne, hmore⟩ := not_or.mp (mt List.mem_cons.mpr h)
    rw [put, if_neg (Ne.symm hne), ih hmore, List.cons_append]

end HeadFinder.Json
