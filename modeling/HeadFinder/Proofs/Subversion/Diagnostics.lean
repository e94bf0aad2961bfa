import HeadFinder.Proofs.Subversion.Targets
import HeadFinder.Proofs.Text.Blank

/-! # Which diagnostics report a missing path

A diagnostic reports a missing path where one of the codes for it stands as a word of its own,
and where the doubtful code does so and words that say it come later on its line.  The scan
finds such a place wherever it is, and the blanks that are taken off a diagnostic first make
no difference.  So a client that refuses a command is told to have missed a path just if its
diagnostic says so, and everything else it says is passed on.
-/
namespace HeadFinder.Subversion
namespace Diagnostic
open Text (isWord isBlank isWord_of_isBlank)

/-! ## Reports -/

/-- A code stands in a text as a word of its own, between `before` and `after`. -/
def Stands (code : String) (before after cs : List Char) : Prop :=
  cs = before ++ code.toList ++ after ∧
    (∀ c, before.getLast? = some c → isWord c = false) ∧
    ∀ c, after.head? = some c → isWord c = false

/-- A text reports that a path is missing: it has a code that always means so, or the doubtful
code and, behind it and before the next line end, words that say so. -/
def Reports (cs : List Char) : Prop :=
  (∃ code ∈ missingCodes, ∃ before after, Stands code before after cs) ∨
    ∃ before after, Stands doubtfulCode before after cs ∧
      ∃ words ∈ missingWords, ∃ line rest,
        after = line ++ words.toList ++ rest ∧ '\n' ∉ line

variable {code : String} {words : String} {before after cs rest : List Char} {c : Char}

/-- What stands at the beginning of a text stands there behind nothing. -/
theorem afterCode?_eq_some :
    afterCode? code cs = some after ↔ Stands code [] after cs := by
  unfold afterCode? Stands
  by_cases hprefix : code.toList.isPrefixOf cs = true
  · obtain ⟨rest, rfl⟩ := List.isPrefixOf_iff_prefix.mp hprefix
    rw [if_pos hprefix, List.drop_left]
    have hrest : code.toList ++ rest = [] ++ code.toList ++ after ↔ rest = after := by simp
    rw [hrest]
    by_cases hword : (rest.head?.map isWord).getD false = true
    · rw [if_pos hword]
      refine iff_of_false (by simp) ?_
      rintro ⟨rfl, -, hafter⟩
      cases hhead : rest.head? with
      | none => simp [hhead] at hword
      | some d => simp [hhead, hafter d hhead] at hword
    · rw [if_neg hword, Option.some.injEq]
      refine ⟨?_, And.left⟩
      rintro rfl
      exact ⟨rfl, by simp, fun d hd => by simpa [hd] using hword⟩
  · rw [if_neg hprefix]
    refine iff_of_false (by simp) ?_
    rintro ⟨rfl, -⟩
    exact hprefix (List.isPrefixOf_iff_prefix.mpr (by simp))

/-- Words are found on the line if they stand behind text without a line end. -/
theorem contains_line (hne : words.toList ≠ []) (hwords : '\n' ∉ words.toList) :
    Text.contains words.toList (after.takeWhile (· ≠ '\n')) = true ↔
      ∃ line rest, after = line ++ words.toList ++ rest ∧ '\n' ∉ line := by
  have hline : ∀ cs : List Char, '\n' ∉ cs → ∀ d ∈ cs, decide (d ≠ '\n') = true :=
    fun cs hcs d hd => decide_eq_true fun heq => hcs (heq ▸ hd)
  rw [Text.contains_iff hne]
  constructor
  · rintro ⟨line, tail, htake⟩
    have hafter := (List.takeWhile_append_dropWhile (p := fun d => decide (d ≠ '\n'))
      (l := after)).symm
    rw [← htake, List.append_assoc] at hafter
    refine ⟨line, _, hafter, fun hmem => ?_⟩
    have hend : '\n' ∈ after.takeWhile (· ≠ '\n') := by
      rw [← htake]
      simp [hmem]
    simpa using List.mem_takeWhile_imp hend
  · rintro ⟨line, tail, rfl, hmem⟩
    refine ⟨line, tail.takeWhile (· ≠ '\n'), ?_⟩
    rw [List.append_assoc, List.append_assoc, List.takeWhile_append_of_pos (hline _ hmem),
      List.takeWhile_append_of_pos (hline _ hwords)]

theorem missingWords_plain : ∀ words ∈ missingWords, words.toList ≠ [] ∧ '\n' ∉ words.toList := by
  decide

/-- A report at the beginning of a text is one behind nothing. -/
theorem reportedHere_iff : reportedHere cs = true ↔
    (∃ code ∈ missingCodes, ∃ after, Stands code [] after cs) ∨
      ∃ after, Stands doubtfulCode [] after cs ∧ ∃ words ∈ missingWords, ∃ line rest,
        after = line ++ words.toList ++ rest ∧ '\n' ∉ line := by
  unfold reportedHere
  rw [Bool.or_eq_true, List.any_eq_true]
  refine or_congr ?_ ?_
  · simp only [Option.isSome_iff_exists, afterCode?_eq_some]
  · simp only [← afterCode?_eq_some]
    cases afterCode? doubtfulCode cs with
    | none => simp
    | some after =>
      simp only [List.any_eq_true, Option.some.injEq, exists_eq_left']
      refine exists_congr fun words => and_congr_right fun hmem => ?_
      exact contains_line (missingWords_plain words hmem).1 (missingWords_plain words hmem).2

/-- The scan finds a report wherever it begins, unless it goes on with a word before it. -/
theorem reportedAfter_iff (previous : Option Char) (cs : List Char) :
    reportedAfter previous cs = true ↔ ∃ before tail, cs = before ++ tail ∧
      reportedHere tail = true ∧ ∀ c, before.getLast?.or previous = some c → isWord c = false := by
  induction cs generalizing previous with
  | nil =>
    refine iff_of_false Bool.false_ne_true ?_
    rintro ⟨before, tail, hnil, hhere, -⟩
    rw [(List.append_eq_nil_iff.mp hnil.symm).2] at hhere
    revert hhere
    decide
  | cons c rest ih =>
    rw [reportedAfter, Bool.or_eq_true, Bool.and_eq_true, ih]
    constructor
    · rintro (⟨hhere, hword⟩ | ⟨before, tail, rfl, hhere, hword⟩)
      · refine ⟨[], c :: rest, rfl, hhere, fun d hd => ?_⟩
        have hprevious : previous = some d := by simpa using hd
        simpa [hprevious] using hword
      · exact ⟨c :: before, tail, rfl, hhere, by simpa [List.getLast?_cons] using hword⟩
    · rintro ⟨before, tail, hcs, hhere, hword⟩
      cases before with
      | nil =>
        left
        rw [hcs, List.nil_append]
        refine ⟨hhere, ?_⟩
        cases previous with
        | none => rfl
        | some d => simp [hword d rfl]
      | cons d before =>
        obtain ⟨rfl, rfl⟩ := List.cons.inj hcs
        exact Or.inr ⟨before, tail, rfl, hhere, by simpa [List.getLast?_cons] using hword⟩

theorem stands_iff : Stands code before after cs ↔ ∃ tail, cs = before ++ tail ∧
    Stands code [] after tail ∧ ∀ c, before.getLast? = some c → isWord c = false := by
  constructor
  · rintro ⟨rfl, hbefore, hafter⟩
    exact ⟨code.toList ++ after, by simp, ⟨by simp, by simp, hafter⟩, hbefore⟩
  · rintro ⟨tail, rfl, ⟨rfl, -, hafter⟩, hbefore⟩
    exact ⟨by simp, hbefore, hafter⟩

/-- **The scan recognizes the reports.** -/
theorem reportsMissing_iff (diagnostic : String) :
    reportsMissing diagnostic = true ↔ Reports diagnostic.toList := by
  unfold reportsMissing Reports
  simp only [reportedAfter_iff, reportedHere_iff, Option.or_none]
  constructor
  · rintro ⟨before, tail, hcs, ⟨code, hcode, after, hstands⟩ | ⟨after, hstands, hwords⟩, hlast⟩
    · exact Or.inl ⟨code, hcode, before, after, stands_iff.mpr ⟨tail, hcs, hstands, hlast⟩⟩
    · exact Or.inr ⟨before, after, stands_iff.mpr ⟨tail, hcs, hstands, hlast⟩, hwords⟩
  · rintro (⟨code, hcode, before, after, hstands⟩ | ⟨before, after, hstands, hwords⟩)
    · obtain ⟨tail, hcs, hstands, hlast⟩ := stands_iff.mp hstands
      exact ⟨before, tail, hcs, Or.inl ⟨code, hcode, after, hstands⟩, hlast⟩
    · obtain ⟨tail, hcs, hstands, hlast⟩ := stands_iff.mp hstands
      exact ⟨before, tail, hcs, Or.inr ⟨after, hstands, hwords⟩, hlast⟩

/-- The words count on the line of the code only. -/
example : reportsMissing "svn: E170000: denied\nnot found" = false := by decide

/-! ## Blanks around a diagnostic -/

/-- A word that neither begins nor ends with a blank. -/
def Firm (word : String) : Prop :=
  word.toList.head?.map isBlank = some false ∧ word.toList.getLast?.map isBlank = some false

section Firm
variable {word : String} {front back : List Char} (hword : Firm word) (hc : isBlank c = true)
include hword hc

/-- A blank before everything stands before a firm word. -/
theorem exists_cons_of_firm (h : c :: cs = front ++ word.toList ++ back) :
    ∃ rest, front = c :: rest ∧ cs = rest ++ word.toList ++ back := by
  cases front with
  | nil =>
    cases hrow : word.toList with
    | nil => simp [Firm, hrow] at hword
    | cons d ds => simp_all [Firm]
  | cons d rest =>
    obtain ⟨rfl, rfl⟩ := List.cons.inj h
    exact ⟨rest, rfl, rfl⟩

/-- A blank behind everything stands behind a firm word. -/
theorem exists_concat_of_firm (h : cs ++ [c] = front ++ word.toList ++ back) :
    ∃ rest, back = rest ++ [c] ∧ cs = front ++ word.toList ++ rest := by
  rcases List.eq_nil_or_concat back with rfl | ⟨rest, d, rfl⟩
  · have hne : word.toList ≠ [] := fun hnil => by simp [Firm, hnil] at hword
    have hlast := congrArg List.getLast? h
    rw [List.append_nil, List.getLast?_concat, List.getLast?_append_of_ne_nil _ hne] at hlast
    simp [Firm, ← hlast, hc] at hword
  · rw [List.concat_eq_append, ← List.append_assoc] at h
    obtain ⟨rfl, hd⟩ := List.append_inj' h rfl
    obtain rfl := (List.cons.inj hd).1
    exact ⟨rest, List.concat_eq_append, rfl⟩

theorem Stands.of_cons (h : Stands word before after (c :: cs)) :
    ∃ front, before = c :: front ∧ Stands word front after cs := by
  obtain ⟨hcs, hbefore, hafter⟩ := h
  obtain ⟨front, rfl, rfl⟩ := exists_cons_of_firm hword hc hcs
  refine ⟨front, rfl, rfl, fun d hd => hbefore d ?_, hafter⟩
  simp [List.getLast?_cons, hd]

theorem Stands.of_concat (h : Stands word before after (cs ++ [c])) :
    ∃ back, after = back ++ [c] ∧ Stands word before back cs := by
  obtain ⟨hcs, hbefore, hafter⟩ := h
  obtain ⟨back, rfl, rfl⟩ := exists_concat_of_firm hword hc hcs
  refine ⟨back, rfl, rfl, hbefore, fun d hd => hafter d ?_⟩
  simp [hd]

end Firm

theorem Stands.cons (h : Stands code before after cs) (hc : isBlank c = true) :
    Stands code (c :: before) after (c :: cs) := by
  obtain ⟨rfl, hbefore, hafter⟩ := h
  refine ⟨rfl, fun d hd => ?_, hafter⟩
  cases hlast : before.getLast? with
  | none =>
    obtain rfl : c = d := by simpa [List.getLast?_cons, hlast] using hd
    exact isWord_of_isBlank hc
  | some e =>
    obtain rfl : e = d := by simpa [List.getLast?_cons, hlast] using hd
    exact hbefore e hlast

theorem Stands.concat (h : Stands code before after cs) (hc : isBlank c = true) :
    Stands code before (after ++ [c]) (cs ++ [c]) := by
  obtain ⟨rfl, hbefore, hafter⟩ := h
  refine ⟨by simp, hbefore, fun d hd => ?_⟩
  cases after with
  | nil =>
    obtain rfl : c = d := by simpa using hd
    exact isWord_of_isBlank hc
  | cons e rest => exact hafter d (by simpa using hd)

theorem firm_codes : (∀ code ∈ missingCodes, Firm code) ∧ Firm doubtfulCode ∧
    ∀ words ∈ missingWords, Firm words := by
  unfold Firm
  decide

/-- A blank before a text makes no difference to what it reports. -/
theorem reports_cons (hc : isBlank c = true) (cs : List Char) :
    Reports (c :: cs) ↔ Reports cs := by
  obtain ⟨hcodes, hdoubtful, -⟩ := firm_codes
  constructor
  · rintro (⟨code, hcode, before, after, h⟩ | ⟨before, after, h, hwords⟩)
    · obtain ⟨front, -, hstands⟩ := h.of_cons (hcodes code hcode) hc
      exact Or.inl ⟨code, hcode, front, after, hstands⟩
    · obtain ⟨front, -, hstands⟩ := h.of_cons hdoubtful hc
      exact Or.inr ⟨front, after, hstands, hwords⟩
  · rintro (⟨code, hcode, before, after, h⟩ | ⟨before, after, h, hwords⟩)
    · exact Or.inl ⟨code, hcode, c :: before, after, h.cons hc⟩
    · exact Or.inr ⟨c :: before, after, h.cons hc, hwords⟩

/-- Nor does a blank behind it. -/
theorem reports_concat (hc : isBlank c = true) (cs : List Char) :
    Reports (cs ++ [c]) ↔ Reports cs := by
  obtain ⟨hcodes, hdoubtful, hmissing⟩ := firm_codes
  constructor
  · rintro (⟨code, hcode, before, after, h⟩ | ⟨before, after, h, words, hwords, line, rest, hafter,
      hline⟩)
    · obtain ⟨back, -, hstands⟩ := h.of_concat (hcodes code hcode) hc
      exact Or.inl ⟨code, hcode, before, back, hstands⟩
    · obtain ⟨back, rfl, hstands⟩ := h.of_concat hdoubtful hc
      obtain ⟨tail, -, hback⟩ := exists_concat_of_firm (hmissing words hwords) hc hafter
      exact Or.inr ⟨before, back, hstands, words, hwords, line, tail, hback, hline⟩
  · rintro (⟨code, hcode, before, after, h⟩ | ⟨before, after, h, words, hwords, line, rest, rfl,
      hline⟩)
    · exact Or.inl ⟨code, hcode, before, after ++ [c], h.concat hc⟩
    · exact Or.inr ⟨before, _, h.concat hc, words, hwords, line, rest ++ [c], by simp, hline⟩

/-- **Trimming a text makes no difference to what it reports.** -/
theorem reports_trim (cs : List Char) : Reports (Text.trim isBlank cs) ↔ Reports cs := by
  obtain ⟨front, back, hcs, hfront, hback⟩ := Text.exists_trim isBlank cs
  have hleft : ∀ row : List Char, (∀ c ∈ row, isBlank c = true) → ∀ cs,
      Reports (row ++ cs) ↔ Reports cs := by
    intro row hrow cs
    induction row with
    | nil => exact Iff.rfl
    | cons c row ih =>
      obtain ⟨hc, hrest⟩ := List.forall_mem_cons.mp hrow
      exact (reports_cons hc _).trans (ih hrest)
  have hright : ∀ row : List Char, (∀ c ∈ row, isBlank c = true) → ∀ cs,
      Reports (cs ++ row) ↔ Reports cs := by
    intro row hrow cs
    induction row generalizing cs with
    | nil => rw [List.append_nil]
    | cons c row ih =>
      obtain ⟨hc, hrest⟩ := List.forall_mem_cons.mp hrow
      rw [List.append_cons, ih hrest, reports_concat hc]
  generalize Text.trim isBlank cs = middle at hcs
  rw [hcs, hright back hback, hleft front hfront]

theorem reportsMissing_strip (diagnostic : String) :
    reportsMissing (Text.strip diagnostic) = true ↔ Reports diagnostic.toList := by
  rw [reportsMissing_iff, Text.strip, String.toList_ofList, reports_trim]

end Diagnostic

/-! ## Refused queries -/

section Refused
variable {π : Type} {process : Process π} {client : Client} {root identity path : String}
  {depth : Depth} {revision : Revision} {state : π} {status : Int} {output diagnostic : String}

/-- A query that the client refuses fails with what its diagnostic stands for. -/
theorem entries_refused (hstatus : status ≠ 0)
    (hending : (process ⟨client, depth, (Connection.ofRoot root identity client).target path
      revision⟩ state).1 = .exit status output diagnostic) :
    ((Connection.ofRoot root identity client).entries process depth path revision state).outcome =
      .error ((⟨client, depth, pegged (Text.trimEndSlashes root) (Path.join [path]) revision⟩ :
        Command).refusal status diagnostic) := by
  have hroot := Text.trimEndSlashes_idem root
  rw [← ofRoot_trimEndSlashes, target_ofRoot hroot] at hending
  rw [← ofRoot_trimEndSlashes, outcome_entries process client hroot, hending,
    Command.interpret_exit hstatus]

/-- What a diagnostic stands for that reports a missing path. -/
theorem refusal_of_reports (hrevision : -1 ≤ revision) (hshort : Numeral.Short revision.toNat)
    (h : Diagnostic.Reports diagnostic.toList) : ∃ missing,
    (⟨client, depth, pegged root path revision⟩ : Command).refusal status diagnostic =
      .nodeMissing missing revision := by
  have hread : revision = Revision.latest ∨ ∃ n : Nat, Numeral.Short n ∧ revision = n :=
    (latest_or_natural hrevision).imp_right fun ⟨n, hn⟩ =>
      ⟨n, by rwa [hn, Int.toNat_natCast] at hshort, hn⟩
  obtain ⟨missing, hpegged⟩ := missing_pegged client depth root path hread
  refine ⟨missing, ?_⟩
  rw [Command.refusal, if_pos ((Diagnostic.reportsMissing_strip diagnostic).mpr h), hpegged]

/-- Any other diagnostic stands for the same failure whatever the command. -/
theorem refusal_of_not_reports (h : ¬ Diagnostic.Reports diagnostic.toList) (status : Int) :
    ∃ failure, (∀ command : Command, command.refusal status diagnostic = failure) ∧
      failure.isRemote = true ∧ failure.isMissing = false ∧
      failure.message = if Text.strip diagnostic = ""
        then "svn info failed with exit status " ++ toString status
        else Text.strip diagnostic := by
  have hsilent := mt (Diagnostic.reportsMissing_strip diagnostic).mp h
  unfold Command.refusal
  simp only [if_neg hsilent]
  by_cases hempty : Text.strip diagnostic = ""
  · exact ⟨.exitStatus status, fun _ => if_pos hempty, rfl, rfl, (if_pos hempty).symm⟩
  · exact ⟨.refused (Text.strip diagnostic), fun _ => if_neg hempty, rfl, rfl,
      (if_neg hempty).symm⟩

end Refused

/-- **A refused query is for want of a node just if the diagnostic reports a missing path.**
Where the client refuses to answer about a path of an open session, listing the path fails for
want of a node, and checking it finds it absent, if one of the codes for that stands in the
diagnostic as a word of its own, or the doubtful one does so and words that say it follow on its
line, as long as the number of the revision has no more digits than are read of a number.
Otherwise, whatever the revision, both fail alike: with a remote failure that is not for want of
a node and that is worded as the diagnostic without the blanks around it or, where that leaves
nothing, names the exit status. -/
theorem refusals_recognized {π : Type} (process : Process π) (root identity : String)
    (client : Client) (path : String) {revision : Revision} (hrevision : -1 ≤ revision)
    (state : π) {status : Int} (hstatus : status ≠ 0) (diagnostic : String)
    (hending : ∀ depth, ∃ output, (process ⟨client, depth,
      (Connection.ofRoot root identity client).target path revision⟩ state).1 =
        .exit status output diagnostic) :
    let host : Host π := ⟨state, some (.ofRoot root identity client)⟩
    let listed := ((Host.remote process client).list path revision host).outcome
    let checked := ((Host.remote process client).check path revision host).outcome
    (Numeral.Short revision.toNat →
      ((∃ missing told, listed = .error (.nodeMissing missing told)) ↔
        Diagnostic.Reports diagnostic.toList) ∧
      (checked = .ok .absent ↔ Diagnostic.Reports diagnostic.toList)) ∧
    (¬ Diagnostic.Reports diagnostic.toList →
      ∃ failure, listed = .error failure ∧ checked = .error failure ∧
        failure.isRemote = true ∧ failure.isMissing = false ∧
        failure.message = if Text.strip diagnostic = ""
          then "svn info failed with exit status " ++ toString status
          else Text.strip diagnostic) := by
  intro host listed checked
  obtain ⟨output, hlisting⟩ := hending .immediates
  obtain ⟨output', hchecking⟩ := hending .empty
  have hlisted : listed = .error ((⟨client, .immediates, pegged (Text.trimEndSlashes root)
      (Path.join [path]) revision⟩ : Command).refusal status diagnostic) :=
    congrArg (Except.map Connection.nodeOf) (entries_refused hstatus hlisting)
  have hchecked : checked = Connection.kindOf (.error ((⟨client, .empty,
      pegged (Text.trimEndSlashes root) (Path.join [path]) revision⟩ : Command).refusal status
        diagnostic)) :=
    congrArg Connection.kindOf (entries_refused hstatus hchecking)
  by_cases h : Diagnostic.Reports diagnostic.toList
  · refine ⟨fun hshort => ?_, absurd h⟩
    obtain ⟨missing, hmissing⟩ := refusal_of_reports hrevision hshort h
    obtain ⟨missing', hmissing'⟩ := refusal_of_reports hrevision hshort h
    rw [hmissing] at hlisted
    rw [hmissing'] at hchecked
    exact ⟨iff_of_true ⟨missing, revision, hlisted⟩ h, iff_of_true hchecked h⟩
  · obtain ⟨failure, hrefusal, hremote, hmissing, hmessage⟩ := refusal_of_not_reports h status
    have hkind : Connection.kindOf (.error failure) = .error failure := by
      cases failure <;> first | rfl | cases hmissing
    rw [hrefusal] at hlisted hchecked
    rw [hkind] at hchecked
    refine ⟨fun _ => ⟨iff_of_false ?_ h, iff_of_false ?_ h⟩,
      fun _ => ⟨failure, hlisted, hchecked, hremote, hmissing, hmessage⟩⟩
    · rintro ⟨missing, told, htold⟩
      rw [Except.error.inj (hlisted.symm.trans htold)] at hmissing
      cases hmissing
    · rw [hchecked]
      simp

theorem refusals_recognized_doubtful :
    let diagnostic := " svn: E170000: URL 'svn://h/r/a' non-existent in revision 7\n"
    let process : Process Unit := fun _ state => (.exit 1 "" diagnostic, state)
    let host : Host Unit := ⟨(), some (.ofRoot "svn://h/r" "u" .standard)⟩
    (-1 : Revision) ≤ 7 ∧ (1 : Int) ≠ 0 ∧
    (∀ depth, ∃ output, (process ⟨.standard, depth,
      (Connection.ofRoot "svn://h/r" "u" .standard).target "a" 7⟩ ()).1 =
        .exit 1 output diagnostic) ∧
    (∃ missing told, ((Host.remote process .standard).list "a" 7 host).outcome =
      .error (.nodeMissing missing told)) ∧
    ((Host.remote process .standard).check "a" 7 host).outcome = .ok .absent := by
  intro diagnostic process host
  have hrevision : (-1 : Revision) ≤ 7 := by decide
  have hstatus : (1 : Int) ≠ 0 := by decide
  have hending : ∀ depth, ∃ output, (process ⟨.standard, depth,
      (Connection.ofRoot "svn://h/r" "u" .standard).target "a" 7⟩ ()).1 =
        .exit 1 output diagnostic := fun _ => ⟨"", rfl⟩
  have hshort : Numeral.Short (Int.toNat 7) :=
    Nat.lt_of_lt_of_le (by decide : 7 < 10 ^ 1) (Nat.pow_le_pow_right (by decide) (by decide))
  have hreports : Diagnostic.Reports diagnostic.toList :=
    (Diagnostic.reportsMissing_iff diagnostic).mp (by decide)
  obtain ⟨hmissing, -⟩ := refusals_recognized process "svn://h/r" "u" .standard "a" hrevision ()
    hstatus diagnostic hending
  obtain ⟨hlisted, hchecked⟩ := hmissing hshort
  exact ⟨hrevision, hstatus, hending, hlisted.mpr hreports, hchecked.mpr hreports⟩

end HeadFinder.Subversion
