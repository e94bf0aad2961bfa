import HeadFinder.Proofs.Json.RoundTrip

/-! # What is read can be written

Whatever the reader makes of a text is legible: it is nested no deeper than the reader was
allowed to go, its integers have no more digits than were read, and each key of an object was
put into it once.
-/
namespace HeadFinder.Json

/-! ## Numbers -/

theorem isDigit_of_takeWhole {cs whole rest : List Char} (h : takeWhole cs = (whole, rest)) :
    ∀ c ∈ whole, c.isDigit = true := by
  unfold takeWhole at h
  split at h <;> cases h
  · simp
  · exact fun c hc => List.mem_takeWhile_imp hc

/-- An integer that is read has no more digits than are read. -/
theorem legible_of_takeUnsigned {negative : Bool} {cs rest : List Char} {n : Number}
    (h : takeUnsigned negative cs = some (n, rest)) (limit : Nat) : Legible limit (.number n) := by
  unfold takeUnsigned at h
  generalize hwhole : takeWhole cs = parts at h
  obtain ⟨whole, after⟩ := parts
  dsimp only at h
  split at h
  · cases h
  split at h
  · split at h
    · cases h
    · rename_i hlong
      cases h
      have hvalue := Numeral.value_lt whole (isDigit_of_takeWhole hwhole)
      have hshort : Numeral.Short (Numeral.value whole) :=
        Nat.lt_of_lt_of_le hvalue (Nat.pow_le_pow_right (by decide) (Nat.le_of_not_lt hlong))
      refine .whole ?_
      cases negative <;> simpa using hshort
  · cases h
    exact .binary _

theorem legible_of_takeNumber {cs rest : List Char} {n : Number}
    (h : takeNumber cs = some (n, rest)) (limit : Nat) : Legible limit (.number n) := by
  unfold takeNumber at h
  split at h <;> exact legible_of_takeUnsigned h limit

theorem legible_of_takeWord {cs rest : List Char} {value : Json}
    (h : takeWord cs = some (value, rest)) (limit : Nat) : Legible limit value := by
  obtain ⟨⟨word, found⟩, hmem, hfound⟩ := List.exists_of_findSome?_eq_some h
  have hvalue : found = value := by
    dsimp only at hfound
    split at hfound
    · exact congrArg Prod.fst (Option.some.inj hfound)
    · cases hfound
  simp only [words, List.mem_cons, Prod.mk.injEq, List.not_mem_nil, or_false] at hmem
  rw [← hvalue]
  rcases hmem with ⟨-, rfl⟩ | ⟨-, rfl⟩ | ⟨-, rfl⟩ | ⟨-, rfl⟩ | ⟨-, rfl⟩ | ⟨-, rfl⟩ <;> constructor

/-! ## Members -/

/-- A legible value can be put into a legible object. -/
theorem Legible.put {limit : Nat} {value : Json} {members : Members}
    (h : Legible (limit + 1) (.object members)) (hvalue : Legible limit value) (key : String) :
    Legible (limit + 1) (.object (put key value members)) := by
  cases h with
  | object once each =>
    refine .object ?_ fun member hmember => ?_
    · rw [keys_put]
      split
      · exact once
      · rename_i hkey
        refine List.nodup_append.mpr ⟨once, by simp, fun other hother last hlast heq => hkey ?_⟩
        rwa [← List.mem_singleton.mp hlast, ← heq]
    · rcases mem_put hmember with rfl | hmember
      · exact hvalue
      · exact each member hmember

/-! ## Values -/

/-- What the reader comes to with so much fuel is legible: a value, items, and members added to
legible ones. -/
structure Sound (fuel : Nat) : Prop where
  value : ∀ depth cs value rest, takeValue depth fuel cs = some (value, rest) →
    Legible depth value
  items : ∀ depth cs items rest, takeItems depth fuel cs = some (items, rest) →
    Legible (depth + 1) (.array items)
  members : ∀ depth cs done members rest, Legible (depth + 1) (.object done) →
    takeMembers depth fuel done cs = some (members, rest) → Legible (depth + 1) (.object members)

theorem sound_value {fuel : Nat} (ih : Sound fuel) {depth : Nat} {cs rest : List Char}
    {value : Json} (h : takeValue depth (fuel + 1) cs = some (value, rest)) :
    Legible depth value := by
  unfold takeValue at h
  split at h
  · -- a string
    obtain ⟨⟨text, after⟩, -, hvalue⟩ := Option.map_eq_some_iff.mp h
    cases hvalue
    exact .string text
  · -- an array
    split at h
    · cases h
    split at h
    · cases h
      exact .array (by simp)
    · obtain ⟨⟨items, after⟩, hitems, hvalue⟩ := Option.map_eq_some_iff.mp h
      cases hvalue
      exact ih.items _ _ _ _ hitems
  · -- an object
    split at h
    · cases h
    split at h
    · cases h
      exact .object (by simp) (by simp)
    · obtain ⟨⟨members, after⟩, hmembers, hvalue⟩ := Option.map_eq_some_iff.mp h
      cases hvalue
      exact ih.members _ _ _ _ _ (.object (by simp) (by simp)) hmembers
  · -- a word or a number
    rcases Option.or_eq_some_iff.mp h with hword | ⟨-, hnumber⟩
    · exact legible_of_takeWord hword depth
    · obtain ⟨⟨n, after⟩, htake, hvalue⟩ := Option.map_eq_some_iff.mp hnumber
      cases hvalue
      exact legible_of_takeNumber htake depth

theorem sound_items {fuel : Nat} (ih : Sound fuel) {depth : Nat} {cs rest : List Char}
    {items : List Json} (h : takeItems depth (fuel + 1) cs = some (items, rest)) :
    Legible (depth + 1) (.array items) := by
  unfold takeItems at h
  obtain ⟨⟨item, after⟩, hitem, h⟩ := Option.bind_eq_some_iff.mp h
  have hfirst := ih.value _ _ _ _ hitem
  dsimp only at h
  split at h
  · cases h
    exact .array (by simpa using hfirst)
  · obtain ⟨⟨more, last⟩, hmore, h⟩ := Option.bind_eq_some_iff.mp h
    cases h
    cases ih.items _ _ _ _ hmore with
    | array each => exact .array (List.forall_mem_cons.mpr ⟨hfirst, each⟩)
  · cases h

theorem sound_members {fuel : Nat} (ih : Sound fuel) {depth : Nat} {cs rest : List Char}
    {done members : Members} (hdone : Legible (depth + 1) (.object done))
    (h : takeMembers depth (fuel + 1) done cs = some (members, rest)) :
    Legible (depth + 1) (.object members) := by
  unfold takeMembers at h
  split at h
  · obtain ⟨⟨key, afterKey⟩, -, h⟩ := Option.bind_eq_some_iff.mp h
    dsimp only at h
    split at h
    · obtain ⟨⟨value, after⟩, hvalue, h⟩ := Option.bind_eq_some_iff.mp h
      have hput := hdone.put (ih.value _ _ _ _ hvalue) key
      dsimp only at h
      split at h
      · cases h
        exact hput
      · exact ih.members _ _ _ _ _ hput h
      · cases h
    · cases h
  · cases h

theorem sound (fuel : Nat) : Sound fuel := by
  induction fuel with
  | zero =>
    constructor
    · intro depth cs value rest h
      cases h
    · intro depth cs items rest h
      cases h
    · intro depth cs done members rest hdone h
      cases h
  | succ fuel ih =>
    constructor
    · intro depth cs value rest h
      exact sound_value ih h
    · intro depth cs items rest h
      exact sound_items ih h
    · intro depth cs done members rest hdone h
      exact sound_members ih hdone h

/-- **Whatever is parsed is legible.** -/
theorem legible_of_parseWithin {limit : Nat} {text : String} {value : Json}
    (h : parseWithin limit text = some value) : Legible limit value := by
  unfold parseWithin at h
  obtain ⟨⟨found, rest⟩, hfound, h⟩ := Option.bind_eq_some_iff.mp h
  dsimp only at h
  split at h
  · cases h
    exact (sound _).value _ _ _ _ hfound
  · cases h

end HeadFinder.Json
