import HeadFinder.CommandLine.Run
import HeadFinder.Proofs.Pattern.Lists
import HeadFinder.Proofs.Preferences.Files
import HeadFinder.Proofs.Subversion.Failures

/-! # Saved defaults

A run that keeps its choices puts them into the preferences as they were given and goes on with
what it loads from the file.  The next run finds the same texts there, stripped, and where one
is blank, the default in its place; both make no difference to the patterns.
-/
namespace HeadFinder

/-! ## Patterns of preferred texts -/

namespace Preferences
variable {preferences : Preferences} {key : String}

/-- The patterns of a preferred text are those of the text as it was put. -/
theorem parse_text {value : String}
    (hfind : Json.find? key preferences = some (.string value)) (default : String)
    (mayBeEmpty : Bool) :
    Pattern.parse (Pattern.orDefault default (some (preferences.text key default mayBeEmpty))) =
      Pattern.parse (Pattern.orDefault default (some value)) := by
  rw [text, hfind]
  dsimp only [Pattern.orDefault]
  cases hblank : Text.blank value with
  | true =>
    -- whether the text is left empty or replaced, the default counts
    rw [Text.strip_eq_empty_iff.mpr hblank]
    cases mayBeEmpty with
    | true => rfl
    | false => simp
  | false =>
    have hstrip : Text.strip value ≠ "" := fun h => by
      simp [Text.strip_eq_empty_iff.mp h] at hblank
    simp [hstrip, Text.blank_strip, hblank, Pattern.parse_strip]

/-- A list that was given has the patterns of the one that is preferred once it was put. -/
theorem parse_given {given : Option String}
    (hgiven : ∀ value, given = some value →
      Json.find? key preferences = some (.string value)) (default : String) (mayBeEmpty : Bool) :
    let preferred := preferences.text key default mayBeEmpty
    Pattern.parse (Pattern.orDefault default (some (given.getD preferred))) =
      Pattern.parse (Pattern.orDefault default (some preferred)) := by
  cases given with
  | none => rfl
  | some value => exact (parse_text (hgiven value rfl) default mayBeEmpty).symm

end Preferences

namespace CommandLine

/-! ## Choices that were kept -/

namespace Choices

/-- The preferences with one choice put into them, if it was made. -/
def keepOne (preferences : Preferences) : String × Option Json → Preferences
  | (key, some value) => Json.put key value preferences
  | (_, none) => preferences

theorem find?_keepOne (preferences : Preferences) (key other : String) (value : Option Json) :
    Json.find? other (keepOne preferences (key, value)) =
      if key = other then value.or (Json.find? other preferences)
      else Json.find? other preferences := by
  cases value with
  | none => simp [keepOne]
  | some value => simp [keepOne, Json.find?_put]

variable (choices : Choices) (preferences : Preferences)

theorem keep_eq_foldl : choices.keep preferences = List.foldl keepOne preferences
    [("includes", choices.includes.map .string), ("excludes", choices.excludes.map .string),
      ("svn_binary", choices.program.map .string),
      ("timeout_seconds", choices.timeout.map fun seconds => .number (.binary seconds))] := by
  unfold keep
  dsimp only
  congr 1
  funext preferences entry
  obtain ⟨key, _ | value⟩ := entry <;> rfl

/-- A choice that was made is kept, and what was not chosen stays. -/
theorem find?_keep :
    Json.find? "includes" (choices.keep preferences) =
      (choices.includes.map .string).or (Json.find? "includes" preferences) ∧
    Json.find? "excludes" (choices.keep preferences) =
      (choices.excludes.map .string).or (Json.find? "excludes" preferences) ∧
    Json.find? "timeout_seconds" (choices.keep preferences) =
      (choices.timeout.map fun seconds => .number (.binary seconds)).or
        (Json.find? "timeout_seconds" preferences) := by
  rw [keep_eq_foldl]
  simp [find?_keepOne]

variable {preferences}

/-- A timeout that was chosen is never too large. -/
theorem excessive_keep (h : (choices.keep preferences).Excessive) : preferences.Excessive := by
  obtain ⟨n, hbeyond, hfind⟩ := h
  rw [(choices.find?_keep preferences).2.2] at hfind
  cases htimeout : choices.timeout with
  | none =>
    rw [htimeout, Option.map_none, Option.none_or] at hfind
    exact ⟨n, hbeyond, hfind⟩
  | some seconds => simp [htimeout] at hfind

/-- Choices can be kept among preferences that can be saved. -/
theorem legible_keep {limit : Nat} (h : (Json.object preferences).Legible (limit + 1)) :
    (Json.object (choices.keep preferences)).Legible (limit + 1) := by
  have hstep {key : String} {value : Option Json} {preferences : Preferences}
      (hvalue : ∀ value' ∈ value, value'.Legible limit)
      (h : (Json.object preferences).Legible (limit + 1)) :
      (Json.object (keepOne preferences (key, value))).Legible (limit + 1) := by
    cases value with
    | none => exact h
    | some value => exact h.put (hvalue value rfl) key
  have htext (chosen : Option String) : ∀ value ∈ chosen.map Json.string, value.Legible limit := by
    intro value hvalue
    obtain ⟨text, -, rfl⟩ := Option.map_eq_some_iff.mp hvalue
    exact .string text
  rw [keep_eq_foldl]
  refine hstep ?_ (hstep (htext _) (hstep (htext _) (hstep (htext _) h)))
  intro value hvalue
  obtain ⟨seconds, -, rfl⟩ := Option.map_eq_some_iff.mp hvalue
  exact .binary seconds

end Choices

/-! ## Runs -/

variable {π : Type}

/-- A run gets past loading its settings, with these. -/
def Request.Settles (request : Request) (desk : Desk π) (settings : Settings) : Prop :=
  (Preferences.load (request.prepare desk).preferences).settings = .ok settings

/-- The patterns that a run looks for and the ones that it leaves out. -/
def Request.patterns (request : Request) (settings : Settings) : List Pattern × List Pattern :=
  (Pattern.parse (request.project settings).includes,
    Pattern.parse (request.project settings).excludes)

section Runs
variable {request : Request} {desk : Desk π} {settings : Settings}

/-- A run that has settled does its work under its settings. -/
theorem carryOut_of_settles (h : request.Settles desk settings) (process : Subversion.Process π)
    (terminal : Bool) : (request.carryOut process terminal desk).1 =
      (request.perform process terminal settings desk.process).1 := by
  have hprocess : (request.prepare desk).process = desk.process := by
    unfold Request.prepare
    split <;> rfl
  unfold Request.Settles at h
  rw [Request.carryOut, h, ← hprocess]

/-- The preferences that a run leaves are the ones that it went on with. -/
theorem preferences_carryOut (process : Subversion.Process π) (terminal : Bool) :
    (request.carryOut process terminal desk).2.preferences =
      (request.prepare desk).preferences := by
  unfold Request.carryOut
  dsimp only
  split <;> rfl

/-- A run that keeps its choices loads what it kept. -/
theorem load_prepare (h : request.saveDefaults = true) :
    Preferences.load (request.prepare desk).preferences =
      Json.rereadMembers (request.keep (Preferences.load desk.preferences)) := by
  have hlegible := request.legible_keep (Preferences.legible_loadWithin 989 desk.preferences)
  rw [Request.prepare, if_pos h]
  exact Preferences.loadWithin_save hlegible

/-- A list that was given is found again in the preferences that were kept. -/
theorem find?_kept (h : request.saveDefaults = true) (desk : Desk π) :
    (∀ text, request.includes = some text →
      Json.find? "includes" (Preferences.load (request.prepare desk).preferences) =
        some (.string text)) ∧
    ∀ text, request.excludes = some text →
      Json.find? "excludes" (Preferences.load (request.prepare desk).preferences) =
        some (.string text) := by
  obtain ⟨hincludes, hexcludes, -⟩ := request.find?_keep (Preferences.load desk.preferences)
  rw [load_prepare h, Json.find?_rereadMembers, Json.find?_rereadMembers, hincludes, hexcludes]
  constructor
  · intro text htext
    rw [htext]
    rfl
  · intro text htext
    rw [htext]
    rfl

/-- The patterns of a run are those of its settings, if it keeps its choices, and also if it was
given no lists. -/
theorem patterns_eq (hsettles : request.Settles desk settings)
    (hlists : request.saveDefaults = true ∨ request.includes = none ∧ request.excludes = none) :
    request.patterns settings =
      (Pattern.parse (Pattern.includesOrDefault (some settings.includes)),
        Pattern.parse (Pattern.excludesOrDefault (some settings.excludes))) := by
  rcases hlists with hsave | ⟨hincludes, hexcludes⟩
  · obtain ⟨hkeptIncludes, hkeptExcludes⟩ := find?_kept hsave desk
    unfold Request.Settles at hsettles
    obtain ⟨hincludes, hexcludes⟩ := Preferences.lists_of_settings hsettles
    have hparse := Preferences.parse_given hkeptIncludes Pattern.defaultIncludes false
    have hparse' := Preferences.parse_given hkeptExcludes Pattern.defaultExcludes true
    rw [← hincludes] at hparse
    rw [← hexcludes] at hparse'
    simp only [Request.patterns, Request.project, Project.ofAddress, Pattern.includesOrDefault,
      Pattern.excludesOrDefault, hparse, hparse']
  · rw [Request.patterns, Request.project, hincludes, hexcludes]
    rfl

/-- A run settles if no timeout in the file is too large. -/
theorem exists_settles (request : Request)
    (h : ¬ (Preferences.load desk.preferences).Excessive) :
    ∃ settings, request.Settles desk settings := by
  unfold Request.Settles
  refine Preferences.exists_settings_iff.mpr fun hexcess => h ?_
  by_cases hsave : request.saveDefaults = true
  · rw [load_prepare hsave] at hexcess
    exact request.excessive_keep
      (Preferences.excessive_reread (Json.find?_rereadMembers _ _) hexcess)
  · rwa [show request.prepare desk = desk from if_neg hsave] at hexcess

/-- A run that is given no lists finds the ones of the file, whether it rereads them or not. -/
theorem lists_of_settles (hsettles : request.Settles desk settings)
    (hincludes : request.includes = none) (hexcludes : request.excludes = none) :
    settings.includes = (Preferences.load desk.preferences).text "includes"
        Pattern.defaultIncludes false ∧
      settings.excludes = (Preferences.load desk.preferences).text "excludes"
        Pattern.defaultExcludes true := by
  obtain ⟨hlistIncludes, hlistExcludes⟩ := Preferences.lists_of_settings hsettles
  rw [hlistIncludes, hlistExcludes]
  by_cases hsave : request.saveDefaults = true
  · obtain ⟨hkeptIncludes, hkeptExcludes, -⟩ :=
      request.find?_keep (Preferences.load desk.preferences)
    rw [hincludes, Option.map_none, Option.none_or] at hkeptIncludes
    rw [hexcludes, Option.map_none, Option.none_or] at hkeptExcludes
    rw [load_prepare hsave]
    exact ⟨Preferences.text_reread (by rw [Json.find?_rereadMembers, hkeptIncludes]),
      Preferences.text_reread (by rw [Json.find?_rereadMembers, hkeptExcludes])⟩
  · rw [show request.prepare desk = desk from if_neg hsave]
    exact ⟨rfl, rfl⟩

end Runs

/-- **Saved defaults replay.**  Whatever the file of preferences held before, if a run that keeps
its choices gets past loading its settings, then every later run on what it left that is given
no lists of its own does so too, and looks for the same patterns and leaves out the same ones.
The later run may keep choices of its own. -/
theorem defaults_replay (process process' : Subversion.Process π) (terminal terminal' : Bool)
    (request later : Request) (desk : Desk π) (settings : Settings)
    (hsave : request.saveDefaults = true) (hsettles : request.Settles desk settings)
    (hincludes : later.includes = none) (hexcludes : later.excludes = none) :
    let left := (request.carryOut process terminal desk).2
    ∃ again, later.Settles left again ∧ later.patterns again = request.patterns settings ∧
      (later.carryOut process' terminal' left).1 =
        (later.perform process' terminal' again left.process).1 := by
  intro left
  have hleft : (Preferences.load left.preferences).settings = .ok settings := by
    rwa [preferences_carryOut process terminal]
  obtain ⟨again, hagain⟩ :=
    exists_settles later (Preferences.exists_settings_iff.mp ⟨settings, hleft⟩)
  refine ⟨again, hagain, ?_, carryOut_of_settles hagain process' terminal'⟩
  obtain ⟨hfirstIncludes, hfirstExcludes⟩ := Preferences.lists_of_settings hleft
  obtain ⟨hlaterIncludes, hlaterExcludes⟩ := lists_of_settles hagain hincludes hexcludes
  rw [patterns_eq hagain (.inr ⟨hincludes, hexcludes⟩), patterns_eq hsettles (.inl hsave),
    hlaterIncludes, hlaterExcludes, hfirstIncludes, hfirstExcludes]

/-- A run without any choices. -/
def bare : Request := { Choices.standard with address := "http://host/repository" }

/-- A run that keeps a list with blanks around it. -/
def padded : Request := { bare with includes := some " trunk ,x/*\t", saveDefaults := true }

/-- A desk where a list of patterns is already kept, also with blanks around it. -/
def cluttered : Desk Unit :=
  ⟨(), some (Text.Utf8.encode "\x7b\"excludes\": \" x/old \"\x7d".toList)⟩

theorem defaults_replay_padded : ∃ settings again, padded.Settles cluttered settings ∧
    bare.Settles (padded.carryOut Subversion.silent false cluttered).2 again ∧
    bare.patterns again = padded.patterns settings ∧
    (bare.patterns again).1 = [["trunk"], ["x", "*"]] := by
  have hnone : (Json.find? "timeout_seconds" (Preferences.load cluttered.preferences)).isNone := by
    rw [cluttered, Preferences.load, Preferences.loadWithin_encode, Json.parseWithin,
      String.toList_ofList]
    decide +kernel
  have hmoderate : ¬ Preferences.Excessive (Preferences.load cluttered.preferences) := by
    rintro ⟨n, -, hfind⟩
    rw [hfind] at hnone
    cases hnone
  obtain ⟨settings, hsettles⟩ := exists_settles padded hmoderate
  obtain ⟨again, hagain, hpatterns, -⟩ := defaults_replay Subversion.silent Subversion.silent
    false false padded bare cluttered settings rfl hsettles rfl rfl
  have hincludes : (padded.patterns settings).1 = [["trunk"], ["x", "*"]] := by
    simp only [Request.patterns, Request.project, Project.ofAddress, padded, Option.getD_some]
    decide +kernel
  exact ⟨settings, again, hsettles, hagain, hpatterns, by rw [hpatterns, hincludes]⟩

end CommandLine
end HeadFinder
