import HeadFinder.Proofs.Json.Members
import HeadFinder.Proofs.Json.Numbers
import HeadFinder.Proofs.Json.Strings

/-! # Reading values that have been written

A value that is not nested too deep, in which no key occurs twice and no integer has too many
digits, is read back from its text with the order of its members.  Binary fractions alone may
change, as each is read from the shortest decimal that stands for it.
-/
namespace HeadFinder.Json

/-! ## Values that can be read -/

/-- A value that is nested no deeper than a limit, with integers that have not too many digits
and objects in which each key occurs once. -/
inductive Legible : Nat → Json → Prop where
  | null {limit} : Legible limit .null
  | bool {limit} (value : Bool) : Legible limit (.bool value)
  | whole {limit} {n : Int} (short : Numeral.Short n.natAbs) : Legible limit (.number (.whole n))
  | binary {limit} (b : Binary64) : Legible limit (.number (.binary b))
  | string {limit} (text : String) : Legible limit (.string text)
  | array {limit} {items : List Json} (each : ∀ item ∈ items, Legible limit item) :
    Legible (limit + 1) (.array items)
  | object {limit} {members : Members} (once : (members.map Prod.fst).Nodup)
    (each : ∀ member ∈ members, Legible limit member.2) : Legible (limit + 1) (.object members)

/-- A value without binary fractions. -/
inductive Whole : Json → Prop where
  | null : Whole .null
  | bool (value : Bool) : Whole (.bool value)
  | number (n : Int) : Whole (.number (.whole n))
  | string (text : String) : Whole (.string text)
  | array {items : List Json} (each : ∀ item ∈ items, Whole item) : Whole (.array items)
  | object {members : Members} (each : ∀ member ∈ members, Whole member.2) :
    Whole (.object members)

attribute [simp] Legible.null Legible.bool Legible.binary Legible.string
attribute [simp] Whole.null Whole.bool Whole.number Whole.string

section Shape
variable {limit : Nat} {items : List Json} {members : Members}

@[simp] theorem legible_whole {n : Int} :
    Legible limit (.number (.whole n)) ↔ Numeral.Short n.natAbs :=
  ⟨fun | .whole short => short, .whole⟩

@[simp] theorem legible_array :
    Legible (limit + 1) (.array items) ↔ ∀ item ∈ items, Legible limit item :=
  ⟨fun | .array each => each, .array⟩

@[simp] theorem legible_object : Legible (limit + 1) (.object members) ↔
    (members.map Prod.fst).Nodup ∧ ∀ member ∈ members, Legible limit member.2 :=
  ⟨fun | .object once each => ⟨once, each⟩, fun ⟨once, each⟩ => .object once each⟩

@[simp] theorem whole_array : Whole (.array items) ↔ ∀ item ∈ items, Whole item :=
  ⟨fun | .array each => each, .array⟩

@[simp] theorem whole_object : Whole (.object members) ↔ ∀ member ∈ members, Whole member.2 :=
  ⟨fun | .object each => each, .object⟩

end Shape

mutual

/-- A value as it is read from its text. -/
def reread : Json → Json
  | .number (.binary b) => .number (.binary (rereadBinary b))
  | .array items => .array (rereadItems items)
  | .object members => .object (rereadMembers members)
  | other => other

/-- Items as they are read from their texts. -/
def rereadItems : List Json → List Json
  | [] => []
  | item :: rest => reread item :: rereadItems rest

/-- Members as they are read from their texts. -/
def rereadMembers : Members → Members
  | [] => []
  | (key, value) :: rest => (key, reread value) :: rereadMembers rest

end

theorem rereadItems_eq_map (items : List Json) : rereadItems items = items.map reread := by
  induction items with
  | nil => rfl
  | cons item rest ih => rw [rereadItems, ih, List.map_cons]

theorem rereadMembers_eq_map (members : Members) :
    rereadMembers members = members.map fun member => (member.1, reread member.2) := by
  induction members with
  | nil => rfl
  | cons member rest ih => rw [rereadMembers, ih, List.map_cons]

/-- Without binary fractions nothing changes. -/
theorem Whole.reread_eq {value : Json} (h : Whole value) : reread value = value := by
  induction h with
  | null | bool | number | string => rfl
  | @array items _ ih =>
    rw [reread, rereadItems_eq_map, List.map_congr_left ih, List.map_id']
  | @object members _ ih =>
    have hmembers : members.map (fun member => (member.1, reread member.2)) = members.map id :=
      List.map_congr_left fun member hmember => by rw [ih member hmember, id]
    rw [reread, rereadMembers_eq_map, hmembers, List.map_id]

theorem find?_rereadMembers (key : String) (members : Members) :
    find? key (rereadMembers members) = (find? key members).map reread := by
  induction members with
  | nil => rfl
  | cons member rest ih =>
    obtain ⟨other, value⟩ := member
    rw [rereadMembers, find?_cons, find?_cons, ih]
    split <;> rfl

/-- Only integers are reread as integers, and as themselves. -/
theorem reread_eq_whole {value : Json} {n : Int} (h : reread value = .number (.whole n)) :
    value = .number (.whole n) := by
  match value, h with
  | .number (.whole _), h => exact h

/-! ## Space between values -/

/-- Whether a character may be left out between values. -/
def isSpace (c : Char) : Bool :=
  c = ' ' || c = '\t' || c = '\n' || c = '\r'

theorem skipSpace_cons {c : Char} (h : isSpace c = false) (cs : List Char) :
    skipSpace (c :: cs) = c :: cs :=
  List.dropWhile_cons_of_neg (by simpa [isSpace] using h)

theorem skipSpace_newLine (level : Nat) (cs : List Char) :
    skipSpace (newLine level ++ cs) = skipSpace cs := by
  refine List.dropWhile_append_of_pos fun c hc => ?_
  rcases List.mem_cons.mp hc with rfl | hc
  · rfl
  · rw [List.eq_of_mem_replicate hc]
    rfl

/-! ## Words and numbers -/

section Scalars
variable {depth fuel : Nat} {rest : List Char}

theorem takeWord_word {word : String} {value : Json} (h : (word, value) ∈ words)
    (rest : List Char) : takeWord (word.toList ++ rest) = some (value, rest) := by
  simp only [words, List.mem_cons, Prod.mk.injEq, List.not_mem_nil, or_false] at h
  rcases h with ⟨rfl, rfl⟩ | ⟨rfl, rfl⟩ | ⟨rfl, rfl⟩ | ⟨rfl, rfl⟩ | ⟨rfl, rfl⟩ | ⟨rfl, rfl⟩ <;> rfl

/-- No word but the infinite numbers with a sign begins with what may begin a number. -/
theorem takeWord_digit {c : Char} (hc : c.isDigit = true) (negative : Bool) (rest : List Char) :
    takeWord (signText negative ++ c :: rest) = none := by
  have hplain : 'n' ≠ c ∧ 't' ≠ c ∧ 'f' ≠ c ∧ 'N' ≠ c ∧ 'I' ≠ c ∧ '-' ≠ c :=
    Numeral.forall_isDigit
      (fun c => 'n' ≠ c ∧ 't' ≠ c ∧ 'f' ≠ c ∧ 'N' ≠ c ∧ 'I' ≠ c ∧ '-' ≠ c) (by decide) hc
  cases negative <;> simp [takeWord, words, signText, hplain]

/-- A text that opens neither a string nor a container is read as a word or a number. -/
theorem takeValue_scalar {c : Char} (hquote : c ≠ '"') (hitems : c ≠ '[') (hmembers : c ≠ '{')
    (cs : List Char) : takeValue depth (fuel + 1) (c :: cs) =
      (takeWord (c :: cs)).or ((takeNumber (c :: cs)).map fun (n, rest) => (.number n, rest)) := by
  rw [takeValue]
  all_goals simp [hquote, hitems, hmembers]

theorem takeValue_word {word : String} {value : Json} (h : (word, value) ∈ words)
    (rest : List Char) : takeValue depth (fuel + 1) (word.toList ++ rest) = some (value, rest) := by
  have hfirst : ∀ pair ∈ words, ∃ c cs, pair.1.toList = c :: cs ∧
      c ≠ '"' ∧ c ≠ '[' ∧ c ≠ '{' := by
    simp [words]
  obtain ⟨c, cs, hword, hquote, hitems, hmembers⟩ := hfirst _ h
  have htake := takeWord_word h rest
  rw [hword, List.cons_append] at htake ⊢
  rw [takeValue_scalar hquote hitems hmembers, htake, Option.some_or]

theorem takeValue_number {n other : Number} {negative : Bool} {c : Char} {more : List Char}
    (htext : writeNumber n = signText negative ++ c :: more) (hc : c.isDigit = true)
    (htake : takeNumber (writeNumber n ++ rest) = some (other, rest)) :
    takeValue depth (fuel + 1) (writeNumber n ++ rest) = some (.number other, rest) := by
  have hplain : c ≠ '"' ∧ c ≠ '[' ∧ c ≠ '{' :=
    Numeral.forall_isDigit (fun c => c ≠ '"' ∧ c ≠ '[' ∧ c ≠ '{') (by decide) hc
  obtain ⟨d, cs, hfirst, hquote, hitems, hmembers⟩ : ∃ d cs,
      signText negative ++ c :: more = d :: cs ∧ d ≠ '"' ∧ d ≠ '[' ∧ d ≠ '{' := by
    cases negative with
    | true => exact ⟨'-', c :: more, rfl, by decide, by decide, by decide⟩
    | false => exact ⟨c, more, rfl, hplain⟩
  have hword := takeWord_digit hc negative (more ++ rest)
  rw [← List.cons_append, ← List.append_assoc, hfirst, List.cons_append] at hword
  rw [htext, hfirst, List.cons_append] at htake ⊢
  rw [takeValue_scalar hquote hitems hmembers, hword, htake]
  rfl

end Scalars

/-! ## What a value begins with -/

/-- The text of a value neither begins with space nor closes an array. -/
theorem exists_opening (level : Nat) (value : Json) :
    ∃ c cs, write level value = c :: cs ∧ isSpace c = false ∧ c ≠ ']' := by
  have hdigit {negative c more} (hc : c.isDigit = true) : ∃ d cs,
      signText negative ++ c :: more = d :: cs ∧ isSpace d = false ∧ d ≠ ']' := by
    cases negative with
    | true => exact ⟨'-', c :: more, rfl, rfl, by decide⟩
    | false =>
      exact ⟨c, more, rfl, Numeral.forall_isDigit
        (fun c => isSpace c = false ∧ c ≠ ']') (by decide) hc⟩
  cases value with
  | null => exact ⟨'n', _, rfl, rfl, by decide⟩
  | bool value => cases value <;> exact ⟨_, _, rfl, rfl, by decide⟩
  | string text => exact ⟨'"', _, rfl, rfl, by decide⟩
  | array items =>
    cases items <;> exact ⟨'[', _, rfl, rfl, by decide⟩
  | object members =>
    cases members <;> exact ⟨'{', _, rfl, rfl, by decide⟩
  | number n =>
    cases n with
    | whole n =>
      obtain ⟨negative, c, more, htext, hc⟩ := exists_digit_whole n
      rw [write, htext]
      exact hdigit hc
    | binary b =>
      cases b with
      | nan => exact ⟨'N', _, rfl, rfl, by decide⟩
      | infinite negative => cases negative <;> exact ⟨_, _, rfl, rfl, by decide⟩
      | finite negative m e =>
        obtain ⟨c, more, htext, hc⟩ := exists_digit_finite negative m e
        rw [write, htext]
        exact hdigit hc

theorem skipSpace_write (level : Nat) (value : Json) (rest : List Char) :
    skipSpace (write level value ++ rest) = write level value ++ rest := by
  obtain ⟨c, cs, hwrite, hspace, -⟩ := exists_opening level value
  rw [hwrite, List.cons_append, skipSpace_cons hspace]

/-! ## Items and members -/

/-- A value is read back from its text, whatever follows, as soon as there is fuel for each
character. -/
def ReadsBack (depth : Nat) (value : Json) : Prop :=
  ∀ level fuel rest, (write level value).length ≤ fuel → Apart rest →
    takeValue depth fuel (write level value ++ rest) = some (reread value, rest)

section Containers
variable {depth level fuel : Nat} {value : Json} {rest next after : List Char}

/-- The last item is read up to the end of its array. -/
theorem takeItems_last (hvalue : ReadsBack depth value)
    (hfuel : (write level value).length ≤ fuel) (hrest : Apart rest)
    (hclose : skipSpace rest = ']' :: after) :
    takeItems depth (fuel + 1) (write level value ++ rest) = some ([reread value], after) := by
  simp [takeItems, hvalue level fuel rest hfuel hrest, hclose]

/-- An item is read up to the comma that stands before the next ones. -/
theorem takeItems_more {items : List Json} (hvalue : ReadsBack depth value)
    (hfuel : (write level value).length ≤ fuel) (hrest : Apart rest)
    (hcomma : skipSpace rest = ',' :: next)
    (hnext : takeItems depth fuel (skipSpace next) = some (items, after)) :
    takeItems depth (fuel + 1) (write level value ++ rest) =
      some (reread value :: items, after) := by
  simp [takeItems, hvalue level fuel rest hfuel hrest, hcomma, hnext]

/-- Items are read back up to the end of their array. -/
theorem takeItems_writeItems {items : List Json} (hne : items ≠ [])
    (each : ∀ item ∈ items, ReadsBack depth item) (outer : Nat) (rest : List Char) : ∀ fuel,
    (writeItems level items).length ≤ fuel →
      takeItems depth fuel (skipSpace (writeItems level items ++ (newLine outer ++ ']' :: rest))) =
        some (rereadItems items, rest) := by
  induction items with
  | nil => exact absurd rfl hne
  | cons item more ih =>
    intro fuel hfuel
    obtain ⟨hitem, hmore⟩ := List.forall_mem_cons.mp each
    rw [writeItems] at hfuel ⊢
    obtain ⟨fuel, rfl⟩ : ∃ below, fuel = below + 1 :=
      Nat.exists_eq_add_one_of_ne_zero (by simp [newLine] at hfuel; omega)
    simp only [newLine, List.length_append, List.length_cons] at hfuel
    simp only [List.append_assoc, skipSpace_newLine, skipSpace_write]
    cases more with
    | nil =>
      refine takeItems_last hitem (by omega) (apart_newLine _ _) ?_
      exact (skipSpace_newLine outer _).trans (skipSpace_cons rfl _)
    | cons next more =>
      simp only [List.isEmpty_cons, Bool.false_eq_true, if_false, List.cons_append,
        List.length_cons] at hfuel ⊢
      exact takeItems_more hitem (by omega) (apart_comma _) (skipSpace_cons rfl _)
        (ih (List.cons_ne_nil _ _) hmore fuel (by omega))

/-- A member is read up to what stands behind its value. -/
theorem takeMembers_write (hvalue : ReadsBack depth value)
    (hfuel : (write level value).length ≤ fuel) (hrest : Apart rest) (done : Members)
    (key : String) :
    takeMembers depth (fuel + 1) done
        (writeString key ++ ':' :: ' ' :: (write level value ++ rest)) =
      match skipSpace rest with
      | '}' :: rest => some (put key (reread value) done, rest)
      | ',' :: rest => takeMembers depth fuel (put key (reread value) done) (skipSpace rest)
      | _ => none := by
  obtain ⟨body, hbody, htake⟩ :=
    takeString_writeString key (':' :: ' ' :: (write level value ++ rest))
  have hspace : skipSpace (' ' :: (write level value ++ rest)) = write level value ++ rest :=
    skipSpace_write level value rest
  have hcolon (cs : List Char) : skipSpace (':' :: cs) = ':' :: cs := skipSpace_cons rfl cs
  rw [hbody, takeMembers, htake]
  simp only [Option.bind_eq_bind, Option.bind_some, hcolon, hspace,
    hvalue level fuel rest hfuel hrest]
  rfl

/-- Members are read back up to the end of their object and added to those before them. -/
theorem takeMembers_writeMembers {members : Members} (hne : members ≠ [])
    (each : ∀ member ∈ members, ReadsBack depth member.2) (outer : Nat) (rest : List Char) :
    ∀ fuel done,
    (writeMembers level members).length ≤ fuel → ((done ++ members).map Prod.fst).Nodup →
      takeMembers depth fuel done
          (skipSpace (writeMembers level members ++ (newLine outer ++ '}' :: rest))) =
        some (done ++ rereadMembers members, rest) := by
  induction members with
  | nil => exact absurd rfl hne
  | cons member more ih =>
    intro fuel done hfuel honce
    obtain ⟨key, value⟩ := member
    have hvalue : ReadsBack depth value := each _ List.mem_cons_self
    have hmore := (List.forall_mem_cons.mp each).2
    have hput : put key (reread value) done = done ++ [(key, reread value)] := by
      refine put_eq_append (fun hkey => ?_) _
      rw [List.map_append, List.nodup_append] at honce
      exact honce.2.2 _ hkey _ List.mem_cons_self rfl
    have hquote (cs : List Char) : skipSpace (writeString key ++ cs) = writeString key ++ cs :=
      skipSpace_cons rfl _
    rw [writeMembers] at hfuel ⊢
    obtain ⟨fuel, rfl⟩ : ∃ below, fuel = below + 1 :=
      Nat.exists_eq_add_one_of_ne_zero (by simp [newLine] at hfuel; omega)
    simp only [newLine, List.length_append, List.length_cons] at hfuel
    simp only [List.append_assoc, List.cons_append, skipSpace_newLine, hquote]
    have hlength : (write level value).length ≤ fuel := by omega
    cases more with
    | nil =>
      simp only [List.isEmpty_nil, if_true, List.nil_append]
      rw [takeMembers_write hvalue hlength (apart_newLine _ _), skipSpace_newLine,
        skipSpace_cons rfl, hput]
      rfl
    | cons next more =>
      simp only [List.isEmpty_cons, Bool.false_eq_true, if_false, List.cons_append,
        List.length_cons] at hfuel ⊢
      have hnext := ih (List.cons_ne_nil _ _) hmore fuel (done ++ [(key, reread value)])
        (by omega) (by simpa using honce)
      rw [takeMembers_write hvalue hlength (apart_comma _), skipSpace_cons rfl, hput]
      simpa [rereadMembers] using hnext

end Containers

/-! ## Values -/

section Values
variable {depth : Nat} {value : Json}

/-- A value takes at least one unit of fuel. -/
theorem readsBack_of_succ (h : ∀ level fuel rest, (write level value).length ≤ fuel + 1 →
    Apart rest → takeValue depth (fuel + 1) (write level value ++ rest) =
      some (reread value, rest)) : ReadsBack depth value := by
  intro level fuel rest hfuel hrest
  obtain ⟨c, cs, hwrite, -, -⟩ := exists_opening level value
  obtain ⟨fuel, rfl⟩ : ∃ below, fuel = below + 1 :=
    Nat.exists_eq_add_one_of_ne_zero (by simp [hwrite] at hfuel; omega)
  exact h level fuel rest hfuel hrest

theorem readsBack_number {n : Number} (h : Legible depth (.number n)) :
    ReadsBack depth (.number n) := by
  refine readsBack_of_succ fun level fuel rest _ hrest => ?_
  cases h with
  | whole short =>
    obtain ⟨negative, c, more, htext, hc⟩ := exists_digit_whole _
    exact takeValue_number htext hc (takeNumber_whole short hrest)
  | binary b =>
    cases b with
    | nan =>
      have hword : ("NaN", Json.number (.binary .nan)) ∈ words := by simp [words]
      exact takeValue_word hword rest
    | infinite negative =>
      have hword : (if negative then "-Infinity" else "Infinity",
          Json.number (.binary (.infinite negative))) ∈ words := by
        cases negative <;> simp [words]
      exact takeValue_word hword rest
    | finite negative m e =>
      obtain ⟨c, more, htext, hc⟩ := exists_digit_finite negative m e
      exact takeValue_number htext hc (takeNumber_finite negative m e hrest)

/-- The text of the first item does not close the array. -/
theorem exists_first_item (level : Nat) (item : Json) (more : List Json) (rest : List Char) :
    ∃ c cs, skipSpace (writeItems level (item :: more) ++ rest) = c :: cs ∧ c ≠ ']' := by
  obtain ⟨c, cs, hwrite, hspace, hclose⟩ := exists_opening level item
  rw [writeItems, List.append_assoc, List.append_assoc, skipSpace_newLine, hwrite,
    List.cons_append, skipSpace_cons hspace]
  exact ⟨c, _, rfl, hclose⟩

/-- The text of the first member begins with its key. -/
theorem exists_first_member (level : Nat) (member : String × Json) (more : Members)
    (rest : List Char) :
    ∃ cs, skipSpace (writeMembers level (member :: more) ++ rest) = '"' :: cs := by
  simp only [writeMembers, List.append_assoc, skipSpace_newLine, writeString, List.cons_append]
  exact ⟨_, skipSpace_cons rfl _⟩

theorem readsBack_array {items : List Json} (each : ∀ item ∈ items, ReadsBack depth item) :
    ReadsBack (depth + 1) (.array items) := by
  refine readsBack_of_succ fun level fuel rest hfuel _ => ?_
  cases items with
  | nil => rfl
  | cons item more =>
    simp only [write, List.isEmpty_cons, Bool.false_eq_true, if_false, List.cons_append,
      List.append_assoc, List.nil_append, List.length_cons, List.length_append] at hfuel ⊢
    have hlength : (writeItems (level + 1) (item :: more)).length ≤ fuel := by omega
    have hitems := takeItems_writeItems (List.cons_ne_nil _ _) each level rest fuel hlength
    obtain ⟨c, cs, hfirst, hclose⟩ :=
      exists_first_item (level + 1) item more (newLine level ++ ']' :: rest)
    rw [hfirst] at hitems
    simp [takeValue, hfirst, hclose, hitems, reread]

theorem readsBack_object {members : Members} (once : (members.map Prod.fst).Nodup)
    (each : ∀ member ∈ members, ReadsBack depth member.2) :
    ReadsBack (depth + 1) (.object members) := by
  refine readsBack_of_succ fun level fuel rest hfuel _ => ?_
  cases members with
  | nil => rfl
  | cons member more =>
    simp only [write, List.isEmpty_cons, Bool.false_eq_true, if_false, List.cons_append,
      List.append_assoc, List.nil_append, List.length_cons, List.length_append] at hfuel ⊢
    have hlength : (writeMembers (level + 1) (member :: more)).length ≤ fuel := by omega
    have hmembers :=
      takeMembers_writeMembers (List.cons_ne_nil _ _) each level rest fuel [] hlength once
    obtain ⟨cs, hfirst⟩ :=
      exists_first_member (level + 1) member more (newLine level ++ '}' :: rest)
    rw [hfirst] at hmembers
    simp [takeValue, hfirst, hmembers, reread]

/-- **A legible value is read back from its text.** -/
theorem Legible.readsBack (h : Legible depth value) : ReadsBack depth value := by
  induction h with
  | null =>
    have hword : ("null", Json.null) ∈ words := by simp [words]
    exact readsBack_of_succ fun _ _ rest _ _ => takeValue_word hword rest
  | bool value =>
    have hword : (if value then "true" else "false", Json.bool value) ∈ words := by
      cases value <;> simp [words]
    exact readsBack_of_succ fun _ _ rest _ _ => takeValue_word hword rest
  | whole short => exact readsBack_number (.whole short)
  | binary b => exact readsBack_number (.binary b)
  | string text =>
    refine readsBack_of_succ fun level fuel rest _ _ => ?_
    obtain ⟨body, hbody, htake⟩ := takeString_writeString text rest
    rw [write, hbody, takeValue, htake]
    rfl
  | array _ ih => exact readsBack_array ih
  | object once _ ih => exact readsBack_object once ih

end Values

/-- **What has been printed is parsed as it was, but for binary fractions.** -/
theorem parseWithin_print {limit : Nat} {value : Json} (h : Legible limit value) :
    parseWithin limit value.print = some (reread value) := by
  have hread := h.readsBack 0 ((write 0 value ++ ['\n']).length + 1) ['\n']
    (by simp only [List.length_append]; omega) (apart_newLine 0 [])
  rw [parseWithin, print, String.toList_ofList]
  simp only [skipSpace_write, hread]
  rfl

end HeadFinder.Json
