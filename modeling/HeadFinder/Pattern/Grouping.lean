import HeadFinder.Pattern.Glob

/-! # Grouping patterns that share a directory

The patterns that extend a given start are cut into groups.  A group has a key,
a literal path that each of its members begins with, and the groups together
hold each pattern once.
-/
namespace HeadFinder.Pattern

/-- Patterns that begin with a common key. -/
structure Group where
  key : Pattern
  members : List Pattern
deriving DecidableEq, Repr

/-- The pattern whose literal run after `size` segments is longest; the first of
them when several are. -/
def leader (size : Nat) (best : Pattern) : List Pattern → Pattern
  | [] => best
  | path :: rest =>
    leader size (if nextWild best size < nextWild path size then path else best) rest

theorem leader_mem (size : Nat) (best : Pattern) (paths : List Pattern) :
    leader size best paths ∈ best :: paths := by
  induction paths generalizing best with
  | nil => exact List.mem_cons_self ..
  | cons path rest ih =>
    simp only [leader]
    split
    · exact List.mem_cons_of_mem _ (ih path)
    · rcases List.mem_cons.mp (ih best) with h | h
      · exact List.mem_cons.mpr (Or.inl h)
      · exact List.mem_cons_of_mem _ (List.mem_cons_of_mem _ h)

/-- The literal beginning of a pattern, at least one segment past `size`. -/
def keyOf (size : Nat) (path : Pattern) : Pattern :=
  path.take (max (nextWild path size) (size + 1))

/-- Groups taken from the pool, one for each leader; `rounds` bounds their
number. -/
def gather (size : Nat) : Nat → List Pattern → List Group
  | 0, _ => []
  | _ + 1, [] => []
  | rounds + 1, path :: rest =>
    let key := keyOf size (leader size path rest)
    let pool := path :: rest
    ⟨key, pool.filter (startsWith key)⟩ ::
      gather size rounds (pool.filter fun other => !startsWith key other)

/-- The first element that occurred before. -/
def repeated [BEq α] : List α → List α → Option α
  | _, [] => none
  | seen, a :: rest => if seen.contains a then some a else repeated (a :: seen) rest

/-- A segment that several keys share at place `size`. -/
def sharedSegment (keys : List Pattern) (size : Nat) : Option String :=
  repeated [] (keys.filterMap (·[size]?))

/-- Groups whose keys share the segment after `start` are made one; `rounds`
bounds the number of times. -/
def merge (start : Pattern) : Nat → List Group → List Group
  | 0, groups => groups
  | rounds + 1, groups =>
    match sharedSegment (groups.map Group.key) start.length with
    | none => groups
    | some segment =>
      let key := start ++ [segment]
      let joined := groups.filter fun group => startsWith key group.key
      let apart := groups.filter fun group => !startsWith key group.key
      merge start rounds (apart ++ [⟨key, sorted (joined.flatMap Group.members)⟩])

/-- The patterns that extend `start`, in groups with ascending keys. -/
def group (patterns : List Pattern) (start : Pattern) : List Group :=
  let pool := (under start patterns).filter fun path => start.length < path.length
  let groups := gather start.length pool.length pool
  Ordered.sort (fun a b => (compare a.key b.key).isLE) (merge start groups.length groups)

end HeadFinder.Pattern
