import HeadFinder.Pattern.Basic

/-! # Wildcards

In a segment, `*` stands for any run of characters and `?` for exactly one; every
other character stands for itself.  A name is matched from its end: for each
suffix of the name, whether the rest of the glob accepts it.
-/
namespace HeadFinder.Glob

/-- From the verdicts on the suffixes (the longest first), the verdicts once a
run of any length may come before them. -/
def skipping : List Bool → List Bool
  | [] => []
  | verdict :: rest =>
    let later := skipping rest
    (verdict || later.headD false) :: later

/-- The verdicts once a character that satisfies `p` must come before. -/
def taking (p : Char → Bool) (name : List Char) (verdicts : List Bool) : List Bool :=
  name.zipWith (fun c verdict => p c && verdict) verdicts.tail ++ [false]

/-- For each suffix of the name, the whole name first and the empty one last,
whether the glob accepts it. -/
def verdicts (name : List Char) : List Char → List Bool
  | [] => name.map (fun _ => false) ++ [true]
  | c :: glob =>
    let rest := verdicts name glob
    if c = '*' then skipping rest
    else if c = '?' then taking (fun _ => true) name rest
    else taking (· = c) name rest

/-- Whether the glob accepts the whole name. -/
def accepts (glob name : List Char) : Bool :=
  (verdicts name glob).headD false

/-- Whether a segment has a wildcard. -/
def isWild (segment : String) : Bool :=
  segment.toList.any fun c => c = '*' || c = '?'

/-- Whether a name matches a segment. -/
def matchesName (segment name : String) : Bool :=
  if isWild segment then accepts segment.toList name.toList else name = segment

end Glob

namespace Pattern

/-- Whether the first segments of `path` match `globs`, one by one. -/
def covers : Pattern → List String → Bool
  | [], _ => true
  | _ :: _, [] => false
  | glob :: globs, name :: path => Glob.matchesName glob name && covers globs path

/-- Whether one of the patterns covers the path. -/
def anyCovers (patterns : List Pattern) (path : List String) : Bool :=
  patterns.any (covers · path)

/-- The index of the first segment with a wildcard from `start` on, or the end. -/
def nextWild (path : Pattern) (start : Nat) : Nat :=
  start + ((path.drop start).takeWhile fun segment => !Glob.isWild segment).length

end Pattern
end HeadFinder
