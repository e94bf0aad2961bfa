import HeadFinder.Proofs.Subversion.Agreement

/-! # What a target stands for

A target is the address of a path with the label of a revision behind an `@`.  The path is
encoded, so that behind the root there is no other `@`; the target is therefore cut at its last
one, and the path is found again in what stands before it.  Where a client finds nothing at a
target, the failure is about the revision of the query, whether that is taken from the query
itself or read from the target.
-/
namespace HeadFinder

namespace Subversion

/-! ## Addresses -/

section Addresses
variable {root path path' : String} {revision revision' : Revision}

/-- A connection is the same with or without slashes behind its root. -/
theorem ofRoot_trimEndSlashes (root identity : String) (client : Client) :
    Connection.ofRoot (Text.trimEndSlashes root) identity client =
      Connection.ofRoot root identity client := by
  unfold Connection.ofRoot
  rw [Text.trimEndSlashes_idem]

/-- What an address has behind the root is the path, encoded with a slash before it. -/
theorem address_eq (root : String) (hpath : path ≠ "") :
    address root path = root ++ Text.Percent.encode ("/" ++ path) := by
  unfold address
  rw [if_neg hpath, Text.Percent.encode_append, Text.Percent.encode_slash, String.append_assoc]

/-- **A path is found again in its address.** -/
theorem locate_address (hroot : Text.trimEndSlashes root = root) (hpath : Text.Tidy path)
    (identity : String) (client : Client) :
    (Connection.ofRoot root identity client).locate (address root path) = .ok path := by
  have hinside : address root path = root ∨
      Text.begins (root ++ "/") (address root path) = true := by
    unfold address
    split
    · exact Or.inl rfl
    · exact Or.inr (Text.begins_iff_exists.mpr ⟨_, rfl⟩)
  have hguard : ¬ (decide (address root path ≠ root) &&
      !Text.begins (root ++ "/") (address root path)) = true := by
    rcases hinside with hsame | hbegins
    · simp [hsame]
    · simp [hbegins]
  have hfound : Path.join [Text.Percent.decode (Text.dropFirst root.length (address root path))] =
      path := by
    by_cases hempty : path = ""
    · have hrest : Text.dropFirst root.length root = "" := by
        have hdrop := Text.dropFirst_append root ""
        rwa [String.append_empty] at hdrop
      rw [address, if_pos hempty, hrest, hempty]
      decide
    · rw [address_eq root hempty, Text.dropFirst_append, Text.Percent.decode_encode,
        Path.join_congr_trim (Text.trimSlashes_slash_append path), Path.join_singleton hpath]
  unfold Connection.locate Connection.ofRoot
  dsimp only
  rw [hroot, trimEndSlashes_address hroot hpath, if_neg hguard, hfound]

theorem address_inj (hroot : Text.trimEndSlashes root = root) (hpath : Text.Tidy path)
    (hpath' : Text.Tidy path') : address root path' = address root path ↔ path' = path := by
  refine ⟨fun haddress => ?_, fun hsame => by rw [hsame]⟩
  have hlocate := locate_address hroot hpath' "" .standard
  rw [haddress, locate_address hroot hpath] at hlocate
  exact (Except.ok.inj hlocate).symm

/-- What stands in an address behind the root holds no `@`. -/
theorem exists_inside (root path : String) :
    ∃ inside, address root path = root ++ inside ∧ '@' ∉ inside.toList := by
  by_cases hempty : path = ""
  · exact ⟨"", by rw [address, if_pos hempty, String.append_empty], by decide⟩
  · refine ⟨Text.Percent.encode ("/" ++ path), address_eq root hempty, fun hat => ?_⟩
    rcases Text.Percent.plain_of_mem_encode hat with h | h <;> revert h <;> decide

/-- **Targets are the same for the same path and the same label only.** -/
theorem pegged_inj (hroot : Text.trimEndSlashes root = root) (hpath : Text.Tidy path)
    (hpath' : Text.Tidy path') : pegged root path' revision' = pegged root path revision ↔
      path' = path ∧ revision'.label = revision.label := by
  constructor
  · intro heq
    have hcut := cutLast_pegged root path' revision'
    rw [heq, cutLast_pegged] at hcut
    obtain ⟨haddress, hlabel⟩ := Prod.mk.inj (Option.some.inj hcut)
    exact ⟨(address_inj hroot hpath hpath').mp (String.toList_injective haddress.symm),
      String.toList_injective hlabel.symm⟩
  · rintro ⟨rfl, hlabel⟩
    unfold pegged
    rw [hlabel]

end Addresses

/-! ## Missing targets -/

/-- Whether the client finds nothing at a target: it refuses and reports that, or it answers
without an entry. -/
def Ending.FindsNothing : Ending → Prop
  | .exit status output diagnostic =>
    if status = 0 then Entry.parse output = .ok []
    else Diagnostic.reportsMissing (Text.strip diagnostic) = true
  | _ => False

theorem Ending.findsNothing_exit {status : Int} (h : status ≠ 0) (output diagnostic : String) :
    (exit status output diagnostic).FindsNothing ↔
      Diagnostic.reportsMissing (Text.strip diagnostic) = true :=
  iff_of_eq (if_neg h)

/-- An answer that cannot be read is not for want of a node. -/
theorem Entry.parse_isMissing {output : String} {failure : Failure}
    (h : Entry.parse output = .error failure) : failure.isMissing = false := by
  unfold Entry.parse at h
  split at h
  · cases h
    rfl
  · rcases mapM_ofElement_cases _ with ⟨entries, hentries, -⟩ | ⟨cause, hcause, _, -, hcannot⟩
    · cases hentries.symm.trans h
    · cases hcause.symm.trans h
      have hother := Numeral.readInteger_error hcannot
      cases failure <;> first | rfl | cases hother

section Endings
variable {command : Command} {ending : Ending}

/-- What the client makes of finding nothing. -/
theorem Ending.FindsNothing.interpret (h : ending.FindsNothing) (command : Command) :
    command.interpret ending = .ok [] ∨ command.interpret ending = .error command.missing := by
  cases ending with
  | exit status output diagnostic =>
    by_cases hstatus : status = 0
    · subst hstatus
      exact Or.inl h
    · right
      rw [Command.interpret_exit hstatus, Command.refusal,
        if_pos ((Ending.findsNothing_exit hstatus output diagnostic).mp h)]
  | noProgram | timeout | trouble reason | unrunnable reason => cases h

theorem findsNothing_of_nil (h : command.interpret ending = .ok []) : ending.FindsNothing := by
  cases ending with
  | exit status output diagnostic =>
    by_cases hstatus : status = 0
    · subst hstatus
      exact h
    · rw [Command.interpret_exit hstatus] at h
      cases h
  | noProgram | timeout | trouble reason | unrunnable reason => cases h

/-- A node is missing in an answer only if the target is reported to be missing. -/
theorem findsNothing_of_nodeMissing {missing : String} {told : Revision}
    (h : command.interpret ending = .error (.nodeMissing missing told)) :
    ending.FindsNothing ∧ command.missing = .nodeMissing missing told := by
  cases ending with
  | exit status output diagnostic =>
    by_cases hstatus : status = 0
    · subst hstatus
      cases Entry.parse_isMissing h
    · rw [Command.interpret_exit hstatus] at h
      rw [Ending.findsNothing_exit hstatus]
      have hrefusal := Except.error.inj h
      unfold Command.refusal at hrefusal
      by_cases hreport : Diagnostic.reportsMissing (Text.strip diagnostic) = true
      · rw [if_pos hreport] at hrefusal
        exact ⟨hreport, hrefusal⟩
      · rw [if_neg hreport] at hrefusal
        split at hrefusal <;> cases hrefusal
  | noProgram | timeout | trouble reason | unrunnable reason => cases h

end Endings

/-- A revision from the latest on is the latest or a number. -/
theorem latest_or_natural {revision : Revision} (h : -1 ≤ revision) :
    revision = Revision.latest ∨ ∃ n : Nat, revision = n := by
  by_cases hsign : revision < 0
  · exact Or.inl (Int.le_antisymm (Int.le_sub_one_of_lt hsign) h)
  · exact Or.inr (Int.eq_ofNat_of_zero_le (Int.not_lt.mp hsign))

/-- What is told of a missing target is its revision. -/
theorem told_of_missing {client : Client} {depth : Depth} {root path missing : String}
    {revision told : Revision} (h : -1 ≤ revision)
    (hmissing : (⟨client, depth, pegged root path revision⟩ : Command).missing =
      .nodeMissing missing told) : told = revision := by
  have hread : revision = Revision.latest ∨ ∃ n : Nat, Numeral.Short n ∧ revision = n := by
    refine (latest_or_natural h).imp_right fun ⟨n, hn⟩ => ⟨n, ?_, hn⟩
    by_contra hlong
    rw [hn, missing_pegged_natural, Numeral.readInteger_toString_long hlong] at hmissing
    cases hmissing
  obtain ⟨missing', hpegged⟩ := missing_pegged client depth root path hread
  rw [hpegged] at hmissing
  exact (Failure.nodeMissing.inj hmissing).2.symm

section Queries
variable {π : Type} {process : Process π} {client : Client} {root identity path : String}
  {depth : Depth} {revision : Revision} {state : π}

/-- **A query that fails for want of a node fails for want of one at its own revision**, and
because the client found nothing. -/
theorem entries_nodeMissing (hroot : Text.trimEndSlashes root = root) (hrevision : -1 ≤ revision)
    {missing : String} {told : Revision}
    (h : ((Connection.ofRoot root identity client).entries process depth path revision
      state).outcome = .error (.nodeMissing missing told)) :
    told = revision ∧
      (process ⟨client, depth, pegged root (Path.join [path]) revision⟩ state).1.FindsNothing := by
  rw [outcome_entries process client hroot identity] at h
  split at h
  · rename_i failure hinterpret
    cases h
    obtain ⟨hnothing, hmissing⟩ := findsNothing_of_nodeMissing hinterpret
    exact ⟨told_of_missing hrevision hmissing, hnothing⟩
  · rename_i hinterpret
    cases h
    exact ⟨rfl, findsNothing_of_nil hinterpret⟩
  · cases h

/-- Where the client finds nothing, a query fails for want of a node, if the number of its
revision can be read. -/
theorem exists_nodeMissing (hroot : Text.trimEndSlashes root = root) (hrevision : -1 ≤ revision)
    (hshort : Numeral.Short revision.toNat)
    (hnothing : (process ⟨client, depth, pegged root (Path.join [path]) revision⟩
      state).1.FindsNothing) :
    ∃ missing, ((Connection.ofRoot root identity client).entries process depth path revision
      state).outcome = .error (.nodeMissing missing revision) := by
  have hread : revision = Revision.latest ∨ ∃ n : Nat, Numeral.Short n ∧ revision = n :=
    (latest_or_natural hrevision).imp_right fun ⟨n, hn⟩ =>
      ⟨n, by rwa [hn, Int.toNat_natCast] at hshort, hn⟩
  obtain ⟨missing, hpegged⟩ := missing_pegged client depth root (Path.join [path]) hread
  rw [outcome_entries process client hroot identity]
  rcases hnothing.interpret ⟨client, depth, pegged root (Path.join [path]) revision⟩ with
    hnil | hmissing
  · exact ⟨Path.join [path], by rw [hnil]⟩
  · exact ⟨missing, by rw [hmissing, hpegged]⟩

end Queries

/-! ## Queries -/

/-- **The target of a query tells the query.**  Whatever the root, a target is cut at its last
`@` into an address and the label of the revision, and the address is that of the path: behind
the root it holds no `@`, and the path is found again in it, with all that its characters are.
So targets are the same only for the same path and the same label.  A node is listed as missing
at no other revision than that of the query, and only where the client finds nothing; and where
it does, the node is listed as missing, as long as the number of the revision has no more
digits than are read of a number. -/
theorem targets_tell {π : Type} (process : Process π) (root identity : String) (client : Client)
    (path : String) {revision : Revision} (hrevision : -1 ≤ revision) (state : π) :
    let connection := Connection.ofRoot root identity client
    let target := connection.target path revision
    let listed := ((Host.remote process client).list path revision ⟨state, some connection⟩).outcome
    let ending := (process ⟨client, .immediates, target⟩ state).1
    (∃ url, Text.cutLast '@' target.toList = some (url.toList, revision.label.toList) ∧
      connection.locate url = .ok (Path.join [path]) ∧
      ∃ inside, url = connection.root ++ inside ∧ '@' ∉ inside.toList) ∧
    (∀ path' revision', connection.target path' revision' = target ↔
      Path.join [path'] = Path.join [path] ∧ revision'.label = revision.label) ∧
    (∀ missing told, listed = .error (.nodeMissing missing told) →
      told = revision ∧ ending.FindsNothing) ∧
    (ending.FindsNothing → Numeral.Short revision.toNat →
      ∃ missing, listed = .error (.nodeMissing missing revision)) := by
  intro connection target listed ending
  have hroot := Text.trimEndSlashes_idem root
  have hconnection : connection = Connection.ofRoot (Text.trimEndSlashes root) identity client :=
    (ofRoot_trimEndSlashes root identity client).symm
  have htarget : ∀ path revision, connection.target path revision =
      pegged (Text.trimEndSlashes root) (Path.join [path]) revision := fun path revision => by
    rw [hconnection, target_ofRoot hroot]
  have hlisted : listed = ((Connection.ofRoot (Text.trimEndSlashes root) identity client).entries
      process .immediates path revision state).outcome.map Connection.nodeOf := by
    rw [← hconnection]
    rfl
  have hending : ending = (process ⟨client, .immediates,
      pegged (Text.trimEndSlashes root) (Path.join [path]) revision⟩ state).1 := by
    rw [← htarget]
  obtain ⟨inside, hinside, hat⟩ := exists_inside (Text.trimEndSlashes root) (Path.join [path])
  refine ⟨⟨address (Text.trimEndSlashes root) (Path.join [path]), ?_, ?_, inside, hinside, hat⟩,
    ?_, ?_, ?_⟩
  · rw [← cutLast_pegged, ← htarget]
  · rw [hconnection]
    exact locate_address hroot (Path.tidy_join [path]) identity client
  · intro path' revision'
    show connection.target path' revision' = connection.target path revision ↔ _
    rw [htarget, htarget]
    exact pegged_inj hroot (Path.tidy_join [path]) (Path.tidy_join [path'])
  · intro missing told hmissing
    rw [hlisted] at hmissing
    rw [hending]
    exact entries_nodeMissing hroot hrevision (nodeOf_error hmissing)
  · intro hnothing hshort
    rw [hending] at hnothing
    obtain ⟨missing, hentries⟩ := exists_nodeMissing hroot hrevision hshort hnothing
    exact ⟨missing, by rw [hlisted, hentries]; rfl⟩

theorem targets_tell_marked :
    let connection := Connection.ofRoot "svn://user@h/r/" "u" .standard
    let process : Process Unit := fun _ state =>
      (.exit 1 "" "svn: warning: W170000: URL non-existent\n", state)
    (-1 : Revision) ≤ 7 ∧
    connection.target "/a@1 50%/é?" 7 = "svn://user@h/r/a%401%2050%25/%C3%A9%3F@7" ∧
    connection.locate "svn://user@h/r/a%401%2050%25/%C3%A9%3F" = .ok "a@1 50%/é?" ∧
    ∃ missing, ((Host.remote process .standard).list "/a@1 50%/é?" 7
      ⟨(), some connection⟩).outcome = .error (.nodeMissing missing 7) := by
  intro connection process
  have hrevision : (-1 : Revision) ≤ 7 := by decide
  have htarget : connection.target "/a@1 50%/é?" 7 =
      "svn://user@h/r/a%401%2050%25/%C3%A9%3F@7" := by decide
  have hpath : Path.join ["/a@1 50%/é?"] = "a@1 50%/é?" := by decide
  have hshort : Numeral.Short (Int.toNat 7) :=
    Nat.lt_of_lt_of_le (by decide : 7 < 10 ^ 1) (Nat.pow_le_pow_right (by decide) (by decide))
  have hnothing : ((process ⟨.standard, .immediates, connection.target "/a@1 50%/é?" 7⟩
      ()).1).FindsNothing := by
    rw [Ending.findsNothing_exit (by decide)]
    decide
  obtain ⟨⟨url, hcut, hlocate, -⟩, -, -, hmissing⟩ :=
    targets_tell process "svn://user@h/r/" "u" .standard "/a@1 50%/é?" hrevision ()
  have hurl : url = "svn://user@h/r/a%401%2050%25/%C3%A9%3F" := by
    have hknown : Text.cutLast '@' (connection.target "/a@1 50%/é?" 7).toList =
        some ("svn://user@h/r/a%401%2050%25/%C3%A9%3F".toList, "7".toList) := by
      rw [htarget]
      decide
    exact String.toList_injective (congrArg Prod.fst (Option.some.inj (hcut.symm.trans hknown)))
  rw [hurl, hpath] at hlocate
  exact ⟨hrevision, htarget, hlocate, hmissing hnothing hshort⟩

end Subversion
end HeadFinder
