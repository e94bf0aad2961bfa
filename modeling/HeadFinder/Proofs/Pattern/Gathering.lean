import HeadFinder.Proofs.Pattern.Order
import Mathlib.Data.List.MinMax

/-! # Gathering by the next segment

The patterns that extend a start are told apart by the segment that comes next.  Gathering
takes out the group of one leader after another, and a group's key reaches past the start; so
what goes on with one segment is gathered as if there were nothing else (`filter_gather`).
-/
namespace HeadFinder.Pattern

/-! ## The next segment -/

/-- Whether a pattern goes on from the start with a segment. -/
def goesOn (start : Pattern) (segment : String) (path : Pattern) : Bool :=
  startsWith (start ++ [segment]) path

section GoesOn
variable {start path key : Pattern} {segment other : String}

theorem goesOn_iff : goesOn start segment path = true ↔
    start <+: path ∧ path[start.length]? = some segment := by
  unfold goesOn
  rw [startsWith_iff]
  constructor
  · rintro ⟨rest, rfl⟩
    rw [List.append_assoc]
    exact ⟨List.prefix_append _ _, by simp⟩
  · rintro ⟨⟨rest, rfl⟩, hnext⟩
    cases rest with
    | nil => simp at hnext
    | cons next rest =>
      obtain rfl : next = segment := by simpa using hnext
      exact ⟨rest, by simp⟩

theorem goesOn_unique (h : goesOn start segment path = true)
    (h' : goesOn start other path = true) : segment = other :=
  Option.some.inj ((goesOn_iff.mp h).2.symm.trans (goesOn_iff.mp h').2)

theorem exists_goesOn (h : start <+: path) (hlt : start.length < path.length) :
    ∃ segment, goesOn start segment path = true :=
  ⟨path[start.length], goesOn_iff.mpr ⟨h, List.getElem?_eq_getElem hlt⟩⟩

theorem goesOn_of_begins (h : goesOn start segment key = true) (hpath : key <+: path) :
    goesOn start segment path = true :=
  startsWith_iff.mpr ((startsWith_iff.mp h).trans hpath)

/-- A key reaches past the start. -/
theorem goesOn_keyOf (start : Pattern) (segment : String) (path : Pattern) :
    goesOn start segment (keyOf start.length path) = goesOn start segment path := by
  have hlength : (start ++ [segment]).length ≤
      max (nextWild path start.length) (start.length + 1) := by simp
  rw [Bool.eq_iff_iff, goesOn, goesOn, startsWith_iff, startsWith_iff, keyOf, List.prefix_take_iff]
  exact and_iff_left hlength

/-- The next segment decides on the order. -/
theorem compare_of_goesOn {left right : Pattern} (h : goesOn start segment left = true)
    (h' : goesOn start other right = true) (hlt : compareText segment other = .lt) :
    compare left right = .lt := by
  obtain ⟨left, rfl⟩ := startsWith_iff.mp h
  obtain ⟨right, rfl⟩ := startsWith_iff.mp h'
  clear h h'
  induction start with
  | nil => simp [compare, hlt]
  | cons first start ih =>
    have hself : compareText first first = .eq := Std.ReflCmp.compare_self
    simpa [compare, hself] using ih

end GoesOn

/-! ## Gathering -/

/-- The leader is the first whose literal run is longest. -/
theorem argmax_eq_leader (size : Nat) (path : Pattern) (rest : List Pattern) :
    (path :: rest).argmax (nextWild · size) = some (leader size path rest) := by
  unfold List.argmax
  rw [List.foldl_cons]
  show List.foldl _ (some path) rest = _
  induction rest generalizing path with
  | nil => rfl
  | cons next rest ih =>
    rw [List.foldl_cons, leader, ← ih]
    congr 1
    exact (apply_ite some _ _ _).symm

/-- What comes first among all comes first among some. -/
theorem argmax_filter {α : Type} {f : α → Nat} {p : α → Bool} {as : List α} {best : α}
    (h : as.argmax f = some best) (hp : p best = true) : (as.filter p).argmax f = some best := by
  induction as using List.reverseRecOn with
  | nil => cases h
  | append_singleton as a ih =>
    rw [List.argmax_concat] at h
    rw [List.filter_append]
    cases hbest : as.argmax f with
    | none =>
      rw [hbest] at h
      obtain rfl : a = best := Option.some.inj h
      rw [List.argmax_eq_none.mp hbest, List.filter_nil, List.nil_append,
        List.filter_cons_of_pos hp, List.filter_nil, List.argmax_singleton]
    | some former =>
      rw [hbest] at h
      dsimp only at h
      split at h
      · rename_i hlt
        obtain rfl : a = best := Option.some.inj h
        rw [List.filter_cons_of_pos hp, List.filter_nil, List.argmax_concat]
        cases hrest : (as.filter p).argmax f with
        | none => rfl
        | some other =>
          have hle : f other ≤ f former :=
            List.le_of_mem_argmax (List.mem_of_mem_filter (List.argmax_mem hrest)) hbest
          exact if_pos (Nat.lt_of_le_of_lt hle hlt)
      · rename_i hge
        obtain rfl : former = best := Option.some.inj h
        have hrest := ih hbest
        by_cases ha : p a = true
        · rw [List.filter_cons_of_pos ha, List.filter_nil, List.argmax_concat, hrest]
          exact if_neg hge
        · rw [List.filter_cons_of_neg ha, List.filter_nil, List.append_nil]
          exact hrest

section Gather
variable {start : Pattern} {segment : String} {size rounds : Nat} {pool : List Pattern}
  {group : Group}

theorem gather_nil (size rounds : Nat) : gather size rounds [] = [] := by
  cases rounds <;> rfl

/-- There is nothing to gather after as many rounds as there are patterns. -/
theorem gather_add (h : pool.length ≤ rounds) (extra : Nat) :
    gather size (rounds + extra) pool = gather size rounds pool := by
  induction rounds generalizing pool with
  | zero =>
    rw [List.length_eq_zero_iff.mp (Nat.le_zero.mp h), gather_nil, gather_nil]
  | succ rounds ih =>
    cases pool with
    | nil => rw [gather_nil, gather_nil]
    | cons path rest =>
      have hshort := length_apart_lt size path rest
      rw [Nat.add_right_comm, gather, gather, ih (by omega)]

/-- A group is gathered about a pattern, whose key it has. -/
theorem of_mem_gather (h : group ∈ gather size rounds pool) :
    ∃ path ∈ pool, group.key = keyOf size path := by
  induction rounds generalizing pool with
  | zero => cases h
  | succ rounds ih =>
    cases pool with
    | nil => cases h
    | cons path rest =>
      rw [gather] at h
      rcases List.mem_cons.mp h with rfl | h
      · exact ⟨_, leader_mem size path rest, rfl⟩
      · obtain ⟨other, hother, hkey⟩ := ih h
        exact ⟨other, List.mem_of_mem_filter hother, hkey⟩

/-- Every key reaches past the start. -/
def Reaching (start : Pattern) (groups : List Group) : Prop :=
  ∀ group ∈ groups, ∃ segment, goesOn start segment group.key = true

theorem reaching_gather (hpool : ∀ path ∈ pool, ∃ segment, goesOn start segment path = true) :
    Reaching start (gather start.length rounds pool) := by
  intro group hgroup
  obtain ⟨path, hpath, hkey⟩ := of_mem_gather hgroup
  obtain ⟨segment, hsegment⟩ := hpool path hpath
  exact ⟨segment, by rw [hkey, goesOn_keyOf, hsegment]⟩

/-- **No key comes up twice**: what begins with a key leaves the pool. -/
theorem nodup_keys_gather (size rounds : Nat) (pool : List Pattern) :
    ((gather size rounds pool).map Group.key).Nodup := by
  induction rounds generalizing pool with
  | zero => exact List.nodup_nil
  | succ rounds ih =>
    cases pool with
    | nil => exact List.nodup_nil
    | cons path rest =>
      rw [gather, List.map_cons, List.nodup_cons]
      refine ⟨fun hmem => ?_, ih _⟩
      obtain ⟨group, hgroup, hkey⟩ := List.mem_map.mp hmem
      obtain ⟨other, hother, hother'⟩ := of_mem_gather hgroup
      have hstart := startsWith_keyOf size other
      rw [← hother', hkey] at hstart
      have hapart := (List.mem_filter.mp hother).2
      rw [hstart] at hapart
      cases hapart

/-- The patterns that go on with one segment are gathered as if there were no others. -/
theorem filter_gather (hpool : ∀ path ∈ pool, ∃ segment, goesOn start segment path = true)
    (h : pool.length ≤ rounds) :
    (gather start.length rounds pool).filter (fun group => goesOn start segment group.key) =
      gather start.length rounds (pool.filter (goesOn start segment)) := by
  induction rounds generalizing pool with
  | zero => rfl
  | succ rounds ih =>
    cases pool with
    | nil => rfl
    | cons path rest =>
      have hshort := length_apart_lt start.length path rest
      have hleader := argmax_eq_leader start.length path rest
      have hmem := leader_mem start.length path rest
      rw [gather]
      generalize leader start.length path rest = best at *
      have hapart := @ih ((path :: rest).filter fun other =>
          !startsWith (keyOf start.length best) other)
        (fun other hother => hpool other (List.mem_of_mem_filter hother)) (by omega)
      by_cases hbest : goesOn start segment best = true
      · -- The leader of all is the leader of those that go on like it.
        have hkey : goesOn start segment (keyOf start.length best) = true := by
          rw [goesOn_keyOf]
          exact hbest
        have hfirst := argmax_filter hleader hbest
        rw [List.filter_cons, if_pos hkey, hapart]
        cases hown : (path :: rest).filter (goesOn start segment) with
        | nil =>
          rw [hown] at hfirst
          cases hfirst
        | cons path' rest' =>
          rw [hown, argmax_eq_leader] at hfirst
          rw [gather, Option.some.inj hfirst, ← hown]
          congr 2
          · rw [List.filter_filter]
            refine List.filter_congr fun other _ => ?_
            rw [Bool.eq_iff_iff, Bool.and_eq_true]
            exact ⟨fun hstart => ⟨hstart, goesOn_of_begins hkey (startsWith_iff.mp hstart)⟩,
              fun hboth => hboth.1⟩
          · rw [List.filter_filter, List.filter_filter]
            exact List.filter_congr fun other _ => Bool.and_comm _ _
      · -- The leader's group has nothing of those that go on with the segment.
        have hkey : ¬ goesOn start segment (keyOf start.length best) = true := by
          rw [goesOn_keyOf]
          exact hbest
        have hown : ((path :: rest).filter fun other =>
            !startsWith (keyOf start.length best) other).filter (goesOn start segment) =
            (path :: rest).filter (goesOn start segment) := by
          rw [List.filter_filter]
          refine List.filter_congr fun other _ => ?_
          rw [Bool.eq_iff_iff, Bool.and_eq_true]
          refine ⟨And.left, fun hother => ⟨hother, ?_⟩⟩
          rw [Bool.not_eq_true', Bool.eq_false_iff]
          intro hstart
          obtain ⟨next, hnext⟩ := hpool best hmem
          have hsame := goesOn_of_begins (by rw [goesOn_keyOf]; exact hnext)
            (startsWith_iff.mp hstart)
          rw [goesOn_unique hsame hother] at hnext
          exact hbest hnext
        have hfew := List.length_filter_le (goesOn start segment) ((path :: rest).filter
          fun other => !startsWith (keyOf start.length best) other)
        rw [List.filter_cons, if_neg hkey, hapart, hown]
        rw [hown] at hfew
        exact (gather_add (by omega) 1).symm

end Gather

end HeadFinder.Pattern
