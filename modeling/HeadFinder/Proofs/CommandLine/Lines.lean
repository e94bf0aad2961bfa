import HeadFinder.CommandLine.Run
import HeadFinder.Proofs.Report.Lines

/-! # Lines of runs

A run reports heads as lines and a remote failure as a line of its own behind the log.  What the
names and the failure's message bring along is escaped, but for tabs and line ends; so the lines
are as they should be just if none of them is in it.
-/
namespace HeadFinder.CommandLine
open Report

variable {π : Type}

/-- What a run finds out under given settings, with what it notes on the way. -/
def Request.pursuit (process : Subversion.Process π) (request : Request) (settings : Settings)
    (state : π) : Reply (Subversion.Host π) Finding :=
  request.goal.pursue (Subversion.Host.remote process (request.client settings))
    (request.project settings) request.limit (Subversion.Host.idle state)

/-- A remote failure ends a run with a remark on it. -/
theorem ofFailure_of_isRemote {failure : Failure} (h : failure.isRemote = true) :
    Exit.ofFailure failure = (.status 2, remark (sanitize failure.message)) := by
  unfold Exit.ofFailure
  split
  · cases h
  · rw [if_pos h]

theorem perform_of_error {process : Subversion.Process π} {request : Request}
    {settings : Settings} {state : π} {failure : Failure}
    (h : (request.pursuit process settings state).outcome = .error failure)
    (hremote : failure.isRemote = true) (terminal : Bool) :
    (request.perform process terminal settings state).1 = ⟨.status 2, "",
      logText request.verbosity (request.pursuit process settings state).notes ++
        remark (sanitize failure.message)⟩ := by
  unfold Request.pursuit at h ⊢
  simp only [Request.perform, h, ofFailure_of_isRemote hremote]

theorem remark_eq_framed (text : String) :
    remark (sanitize text) = framed "branchscan: " text "" := by
  rw [remark, framed, String.append_empty]

theorem begins_remark (text : String) : Text.begins "branchscan: " (remark text) = true := by
  rw [Text.begins, List.isPrefixOf_iff_prefix, remark, String.append_assoc, String.toList_append]
  exact List.prefix_append ..

/-- **Lines of what comes from elsewhere.**  The report of any heads ends a line for each head and
one more for each line end in a name.  Besides, it holds just those control characters of the
names that are tabs or line ends; so it is one line to a head, which says the escaped name and
the revision, just if no name has any.  Likewise a remote failure ends every run with status 2
and, behind the log, with a remark in the program's name, which is a single line just if the
failure's message has none. -/
theorem output_lines (process : Subversion.Process π) (terminal : Bool) (request : Request)
    (settings : Settings) (state : π) :
    (∀ heads : List Head,
      (plain heads).toList.count '\n' =
        heads.length + (heads.map fun head => head.name.toList.count '\n').sum ∧
      (∀ c, Controls c → (c ∈ (plain heads).toList ↔
        ∃ head ∈ heads, c = '\n' ∨ Moves c ∧ c ∈ head.name.toList)) ∧
      (Ruled heads (plain heads) ↔ ∀ head ∈ heads, Unbroken head.name)) ∧
    ∀ failure, (request.pursuit process settings state).outcome = .error failure →
      failure.isRemote = true → ∃ text,
        (request.perform process terminal settings state).1 = ⟨.status 2, "",
          logText request.verbosity (request.pursuit process settings state).notes ++ text⟩ ∧
        Text.begins "branchscan: " text = true ∧
        text.toList.count '\n' = failure.message.toList.count '\n' + 1 ∧
        (∀ c, Controls c →
          (c ∈ text.toList ↔ c = '\n' ∨ Moves c ∧ c ∈ failure.message.toList)) ∧
        (IsLine text ↔ Unbroken failure.message) := by
  refine ⟨fun heads => ⟨count_plain heads, fun c hc => mem_plain hc, ruled_plain_iff⟩, ?_⟩
  intro failure hfailure hremote
  have hname : Inert "branchscan: " := by decide
  refine ⟨_, perform_of_error hfailure hremote terminal, begins_remark _, ?_⟩
  rw [remark_eq_framed]
  exact ⟨count_framed hname inert_empty, fun c hc => mem_framed hname inert_empty hc,
    isLine_framed_iff hname inert_empty⟩

/-- A line end in a name or in a diagnostic makes two lines of one. -/
theorem line_end_breaks : plain [⟨"a\nb", 1, none⟩] = "a\nb@1\n" ∧
    ¬ Ruled [⟨"a\nb", 1, none⟩] (plain [⟨"a\nb", 1, none⟩]) ∧
    Exit.ofFailure (.refused "svn: E170013: Unable to connect\nsvn: E000111: Connection refused") =
      (.status 2, "branchscan: svn: E170013: Unable to connect\n" ++
        "svn: E000111: Connection refused\n") := by
  refine ⟨by decide, fun h => absurd h.count (by decide), by decide⟩

end HeadFinder.CommandLine
