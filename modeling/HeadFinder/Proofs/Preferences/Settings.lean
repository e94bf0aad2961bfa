import HeadFinder.Preferences
import HeadFinder.Proofs.Numeral.Rounding
import HeadFinder.Proofs.Text.Blank
import HeadFinder.Proofs.Text.Utf8

/-! # Settings

Whatever a file of preferences holds, the settings that it leads to are stripped texts, and the
ones that have to be there are not empty.  Their timeout is a number above zero, but for two
values that the check for a positive number lets through: one that is undefined, and an integer
that is too large for a binary fraction.
-/
namespace HeadFinder

/-! ## Numbers above zero -/

/-- A number above zero, which may be infinite. -/
def Binary64.IsPositive : Binary64 → Prop
  | nan => False
  | infinite negative => negative = false
  | finite negative mantissa _ => negative = false ∧ mantissa ≠ 0

theorem Binary64.isPositive_iff {b : Binary64} :
    b.IsPositive ↔ b ≠ nan ∧ b.isAtMostZero = false := by
  cases b <;> simp [IsPositive, isAtMostZero]

/-- A number above zero. -/
def Number.IsPositive : Number → Prop
  | whole n => 0 < n
  | binary b => b.IsPositive

/-! ## Sound settings -/

/-- Settings whose texts make sense: none has blanks at its ends, and only what is excluded may
be empty. -/
structure Settings.Sound (settings : Settings) : Prop where
  includes : settings.includes ≠ "" ∧ Text.Trimmed settings.includes
  excludes : Text.Trimmed settings.excludes
  program : settings.client.program ≠ "" ∧ Text.Trimmed settings.client.program
  style : settings.style ≠ "" ∧ Text.Trimmed settings.style

namespace Preferences
variable (preferences : Preferences)

/-- The preferred timeout is an integer that is too large for a binary fraction. -/
def Excessive : Prop :=
  ∃ n : Nat, Binary64.beyond ≤ n ∧
    Json.find? "timeout_seconds" preferences = some (.number (.whole n))

/-- The preferred timeout is an undefined number. -/
def Undefined : Prop :=
  Json.find? "timeout_seconds" preferences = some (.number (.binary .nan))

section Text
variable {preferences} {key default : String} {mayBeEmpty : Bool}

/-- A preferred text is a stripped one or the default. -/
theorem text_cases (preferences : Preferences) (key default : String) (mayBeEmpty : Bool) :
    preferences.text key default mayBeEmpty = default ∨
    ∃ value, preferences.text key default mayBeEmpty = Text.strip value ∧
      (mayBeEmpty = false → Text.strip value ≠ "") := by
  unfold text
  split
  · rename_i value _
    dsimp only
    split
    · exact .inl rfl
    · rename_i hkept
      refine .inr ⟨value, rfl, ?_⟩
      rintro rfl
      simpa using hkept
  · exact .inl rfl

theorem trimmed_text (h : Text.strip default = default) :
    Text.Trimmed (preferences.text key default mayBeEmpty) := by
  rcases text_cases preferences key default _ with htext | ⟨value, htext, -⟩
  · rw [htext, ← h]
    exact Text.trimmed_strip default
  · rw [htext]
    exact Text.trimmed_strip value

theorem text_ne_empty (h : default ≠ "") : preferences.text key default false ≠ "" := by
  rcases text_cases preferences key default _ with htext | ⟨value, htext, hvalue⟩
  · rwa [htext]
  · rw [htext]
    exact hvalue rfl

end Text

/-! ## The timeout -/

section Timeout
variable {preferences}

theorem isPositive_standard : Subversion.Client.standard.timeout.IsPositive := by
  have hsixty : (Binary64.ofInt 60).IsPositive := Binary64.isPositive_iff.mpr (by decide +kernel)
  exact hsixty

/-- A preferred integer is the timeout if it is above zero and not too large. -/
theorem timeout_whole {n : Int}
    (hfind : Json.find? "timeout_seconds" preferences = some (.number (.whole n))) :
    Binary64.beyond ≤ n ∧ preferences.timeout = .error .tooLarge ∨
      n < Binary64.beyond ∧ ∃ seconds, preferences.timeout = .ok seconds ∧ seconds.IsPositive := by
  unfold timeout
  rw [hfind]
  dsimp only
  by_cases hlow : n ≤ 0
  · have hbeyond : n < Binary64.beyond := Int.lt_of_le_of_lt hlow (by decide +kernel)
    rw [if_pos hlow]
    exact .inr ⟨hbeyond, _, rfl, isPositive_standard⟩
  · obtain ⟨m, rfl⟩ := Int.eq_ofNat_of_zero_le (Int.le_of_not_le hlow)
    rw [if_neg hlow, Int.ofNat_le, Int.ofNat_lt]
    rcases Binary64.ofInt_cases (n := m) (by omega) with ⟨hbeyond, hvalue⟩ |
      ⟨hbeyond, mantissa, exponent, hmantissa, hvalue⟩
    · rw [hvalue]
      exact .inl ⟨hbeyond, rfl⟩
    · rw [hvalue]
      exact .inr ⟨hbeyond, _, rfl, rfl, hmantissa⟩

/-- A preferred binary fraction is the timeout unless it is at most zero, which an undefined one
is not. -/
theorem timeout_binary {b : Binary64}
    (hfind : Json.find? "timeout_seconds" preferences = some (.number (.binary b))) :
    ∃ seconds, preferences.timeout = .ok seconds ∧
      (b = .nan ∧ seconds = .binary .nan ∨ b ≠ .nan ∧ seconds.IsPositive) := by
  unfold timeout
  rw [hfind]
  refine ⟨_, rfl, ?_⟩
  by_cases hnan : b = .nan
  · subst hnan
    exact .inl ⟨rfl, rfl⟩
  · refine .inr ⟨hnan, ?_⟩
    cases hlow : b.isAtMostZero with
    | true => exact isPositive_standard
    | false => exact Binary64.isPositive_iff.mpr ⟨hnan, hlow⟩

/-- Without a preferred number the timeout is the default. -/
theorem timeout_else
    (hnumber : ∀ n, Json.find? "timeout_seconds" preferences ≠ some (.number n)) :
    preferences.timeout = .ok Subversion.Client.standard.timeout := by
  unfold timeout
  split
  · exact absurd ‹_› (hnumber _)
  · exact absurd ‹_› (hnumber _)
  · rfl

/-- The timeout is a number above zero, unless what is preferred is too large or undefined. -/
theorem timeout_cases (preferences : Preferences) :
    preferences.Excessive ∧ preferences.timeout = .error .tooLarge ∨
    ¬ preferences.Excessive ∧ ∃ seconds, preferences.timeout = .ok seconds ∧
      (preferences.Undefined ∧ seconds = .binary .nan ∨
        ¬ preferences.Undefined ∧ seconds.IsPositive) := by
  unfold Excessive Undefined
  by_cases hnumber : ∃ n, Json.find? "timeout_seconds" preferences = some (.number n)
  · obtain ⟨n | b, hfind⟩ := hnumber
    · have hdefined : some (Json.number (.whole n)) ≠ some (.number (.binary .nan)) := by simp
      rcases timeout_whole hfind with ⟨hbeyond, htimeout⟩ | ⟨hbeyond, seconds, htimeout, hseconds⟩
      · refine .inl ⟨⟨n.toNat, by omega, ?_⟩, htimeout⟩
        rw [hfind, Int.toNat_of_nonneg (by omega)]
      · refine .inr ⟨?_, seconds, htimeout, .inr ⟨hfind ▸ hdefined, hseconds⟩⟩
        rintro ⟨m, hm, hother⟩
        cases hfind.symm.trans hother
        omega
    · obtain ⟨seconds, htimeout, hseconds⟩ := timeout_binary hfind
      refine .inr ⟨?_, seconds, htimeout, ?_⟩
      · rintro ⟨m, -, hother⟩
        cases hfind.symm.trans hother
      · simpa [hfind] using hseconds
  · have hnone := not_exists.mp hnumber
    refine .inr ⟨fun ⟨_, _, hfind⟩ => hnone _ hfind, _, timeout_else hnone,
      .inr ⟨hnone _, isPositive_standard⟩⟩

end Timeout

/-! ## All settings -/

/-- The preferences that a value stands for: the members of an object. -/
def ofJson : Option Json → Preferences
  | some (.object members) => members
  | _ => []

/-- The preferences in a file are the ones in its text. -/
theorem loadWithin_encode (limit : Nat) (cs : List Char) :
    loadWithin limit (some (Text.Utf8.encode cs)) =
      ofJson (Json.parseWithin limit (String.ofList cs)) := by
  unfold loadWithin
  generalize hfile : (some (Text.Utf8.encode cs)).bind Text.Utf8.decode? = found
  obtain rfl : found = some cs := hfile.symm.trans (Text.Utf8.decode?_encode cs)
  dsimp only
  cases Json.parseWithin limit (String.ofList cs) with
  | none => rfl
  | some value => cases value <;> rfl

theorem settings_error {failure : Failure} (h : preferences.timeout = .error failure) :
    preferences.settings = .error failure := by
  rw [settings, h]
  rfl

/-- Once there is a timeout, the other settings are there and sound. -/
theorem settings_ok {seconds : Number} (h : preferences.timeout = .ok seconds) :
    ∃ settings, preferences.settings = .ok settings ∧ settings.client.timeout = seconds ∧
      settings.Sound := by
  rw [settings, h]
  refine ⟨_, rfl, rfl, ?_, ?_, ?_, ?_⟩
  · exact ⟨text_ne_empty (by decide), trimmed_text (by decide)⟩
  · exact trimmed_text (by decide)
  · exact ⟨text_ne_empty (by decide), trimmed_text (by decide)⟩
  · exact ⟨text_ne_empty (by decide), trimmed_text (by decide)⟩

variable {preferences}

/-- Settings can be loaded just if the timeout is not too large. -/
theorem exists_settings_iff :
    (∃ settings, preferences.settings = .ok settings) ↔ ¬ preferences.Excessive := by
  rcases timeout_cases preferences with ⟨hexcess, htimeout⟩ | ⟨hexcess, seconds, htimeout, -⟩
  · simp [settings_error preferences htimeout, hexcess]
  · obtain ⟨settings, hsettings, -⟩ := settings_ok preferences htimeout
    exact iff_of_true ⟨settings, hsettings⟩ hexcess

/-- The lists of patterns in settings are the preferred ones. -/
theorem lists_of_settings {settings : Settings} (h : preferences.settings = .ok settings) :
    settings.includes = preferences.text "includes" Pattern.defaultIncludes false ∧
      settings.excludes = preferences.text "excludes" Pattern.defaultExcludes true := by
  cases htimeout : preferences.timeout with
  | error failure =>
    rw [settings_error preferences htimeout] at h
    cases h
  | ok seconds =>
    rw [Preferences.settings, htimeout] at h
    cases h
    exact ⟨rfl, rfl⟩

/-- **Settings are sound, whatever the file of preferences holds.**  They can be loaded just if
the preferred timeout is not too large for a binary fraction; their texts are then sound, and
their timeout is a number above zero unless an undefined number is preferred, which is then the
timeout. -/
theorem settings_defended (file : Option (List UInt8)) :
    let preferences : Preferences := load file
    preferences.Excessive ∧ preferences.settings = .error .tooLarge ∨
    ¬ preferences.Excessive ∧ ∃ settings, preferences.settings = .ok settings ∧ settings.Sound ∧
      (preferences.Undefined ∧ settings.client.timeout = .binary .nan ∨
        ¬ preferences.Undefined ∧ settings.client.timeout.IsPositive) := by
  intro preferences
  rcases timeout_cases preferences with ⟨hexcess, htimeout⟩ |
    ⟨hexcess, seconds, htimeout, hseconds⟩
  · exact .inl ⟨hexcess, settings_error preferences htimeout⟩
  · obtain ⟨settings, hsettings, rfl, hsound⟩ := settings_ok preferences htimeout
    exact .inr ⟨hexcess, settings, hsettings, hsound, hseconds⟩

/-- The text of a file that holds one preference, the timeout. -/
def preferring (timeout : List Char) : List Char :=
  "\x7b\"timeout_seconds\": ".toList ++ timeout ++ ['}']

theorem timeouts_undefended :
    let huge := load (some (Text.Utf8.encode (preferring ('1' :: List.replicate 309 '0'))))
    let vague := load (some (Text.Utf8.encode (preferring "NaN".toList)))
    huge.settings = .error .tooLarge ∧
      vague.settings.map (·.client.timeout) = .ok (.binary .nan) := by
  intro huge vague
  constructor
  · have h : huge = _ := loadWithin_encode _ _
    rw [h, Json.parseWithin, String.toList_ofList]
    decide +kernel
  · have h : vague = _ := loadWithin_encode _ _
    rw [h, Json.parseWithin, String.toList_ofList]
    decide +kernel

end Preferences
end HeadFinder
