import HeadFinder.Proofs.Discovery.Fixed
import HeadFinder.Proofs.Roster

/-! # Stopping early only truncates

On a remote with fixed answers, a search does the same for every receiver until the
receiver has had enough: its account is the beginning of that of a search for a receiver
that collects everything (`search_cut_short`).  What a limit lets through and what a name
selects are therefore found in the collected heads.
-/
namespace HeadFinder

namespace Receiver

/-- A collecting receiver enters what it hears into its roster, with a limit or without. -/
theorem hear_collecting (events : List Event) (roster : Roster) :
    collecting.hear events roster = roster.addAll (Event.heads events) :=
  hear_eq_foldl collecting events roster

theorem hear_upTo (limit : Nat) (events : List Event) (roster : Roster) :
    (upTo limit).hear events roster = roster.addAll (Event.heads events) :=
  hear_eq_foldl (upTo limit) events roster

/-- A receiver that waits for a name holds the last head of that name. -/
theorem hear_selecting (name : String) (events : List Event) (found : Option Head) :
    (selecting name).hear events found =
      ((Event.heads events).reverse.find? fun head => head.name = name).or found := by
  rw [hear_eq_foldl]
  generalize Event.heads events = heads
  induction heads generalizing found with
  | nil => rfl
  | cons head rest ih =>
    rw [List.foldl_cons, ih, List.reverse_cons, List.find?_append, Option.or_assoc]
    congr 1
    by_cases hname : head.name = name
    · simp [selecting, hname]
    · simp [selecting, hname]

/-- If the heads agree, it holds the head of that name. -/
theorem hear_selecting_eq_some {name : String} {events : List Event} {head : Head}
    (hagree : Agree (Event.heads events)) :
    (selecting name).hear events none = some head ↔
      head ∈ Event.heads events ∧ head.name = name := by
  have hfound : ∀ other, (selecting name).hear events none = some other →
      other ∈ Event.heads events ∧ other.name = name := by
    intro other h
    rw [hear_selecting, Option.or_none] at h
    have hname := List.find?_some h
    exact ⟨List.mem_reverse.mp (List.mem_of_find?_eq_some h), by simpa using hname⟩
  refine ⟨hfound head, fun ⟨hmem, hname⟩ => ?_⟩
  cases h : (selecting name).hear events none with
  | none =>
    rw [hear_selecting, Option.or_none] at h
    have hnot := List.find?_eq_none.mp h head (List.mem_reverse.mpr hmem)
    simp [hname] at hnot
  | some other =>
    obtain ⟨hother, hother'⟩ := hfound other h
    rw [hagree head hmem other hother (hother'.trans hname.symm)]

end Receiver

namespace Discovery
open Access

/-! ## What receivers hold when the heads agree -/

section Held
variable {events all : List Event}

/-- A limit is never passed: the last report was heard below it. -/
theorem Heeded.length_le {limit : Nat}
    (h : Heeded (Receiver.upTo limit) Roster.empty events) :
    ((Receiver.upTo limit).hear events Roster.empty).heads.length ≤ limit := by
  rcases List.eq_nil_or_concat events with rfl | ⟨before, event, rfl⟩
  · exact Nat.zero_le limit
  · rw [List.concat_eq_append] at h ⊢
    have hbelow : ((Receiver.upTo limit).hear before Roster.empty).heads.length < limit :=
      of_decide_eq_true (h before event [] rfl)
    rw [Receiver.hear_append]
    cases event with
    | reported head => exact Nat.le_trans (Roster.length_add_le head _) hbelow
    | _ => exact Nat.le_of_lt hbelow

theorem agree_of_begins (hagree : Agree (Event.heads all)) (hbegins : events <+: all) :
    Event.heads events <+: Event.heads all ∧ Agree (Event.heads events) := by
  obtain ⟨rest, rfl⟩ := hbegins
  rw [Event.heads_append] at hagree ⊢
  exact ⟨List.prefix_append _ _, hagree.mono fun _ => List.mem_append_left _⟩

/-- A limit lets the first heads through. -/
theorem Heeded.heads_eq_take {limit : Nat}
    (h : Heeded (Receiver.upTo limit) Roster.empty events)
    (hagree : Agree (Event.heads all)) (hbegins : events <+: all)
    (hall : (Receiver.upTo limit).observing ((Receiver.upTo limit).hear events Roster.empty) = true →
      events = all) :
    ((Receiver.upTo limit).hear events Roster.empty).heads =
      (Receiver.collecting.hear all Roster.empty).heads.take limit := by
  have hlength := h.length_le
  have hfirst := Roster.heads_prefix_of_begins hagree (agree_of_begins hagree hbegins).1
  rw [Receiver.hear_upTo] at hlength hall ⊢
  rw [Receiver.hear_collecting]
  by_cases hfull : (Roster.empty.addAll (Event.heads events)).heads.length = limit
  · rw [← hfull]
    exact List.prefix_iff_eq_take.mp hfirst
  · -- Below the limit nothing has been cut off.
    have hevents : events = all := hall (decide_eq_true (by omega))
    rw [← hevents, List.take_of_length_le hlength]

/-- A name selects its head. -/
theorem selected_iff {name : String} {head : Head} (hagree : Agree (Event.heads all))
    (hbegins : events <+: all)
    (hall : (Receiver.selecting name).observing ((Receiver.selecting name).hear events none) =
      true → events = all) :
    (Receiver.selecting name).hear events none = some head ↔
      head ∈ (Receiver.collecting.hear all Roster.empty).heads ∧ head.name = name := by
  obtain ⟨hfirst, hagreeFirst⟩ := agree_of_begins hagree hbegins
  have hmem : head ∈ (Receiver.collecting.hear all Roster.empty).heads ↔
      head ∈ Event.heads all := by
    rw [Receiver.hear_collecting, Roster.mem_heads_addAll hagree]
    exact or_iff_right List.not_mem_nil
  rw [hmem]
  cases hheld : (Receiver.selecting name).hear events none with
  | none =>
    -- Nothing was cut off, and nothing has been found.
    rw [← hall (by rw [hheld]; rfl), ← Receiver.hear_selecting_eq_some hagreeFirst, hheld]
  | some other =>
    obtain ⟨hother, hname⟩ := (Receiver.hear_selecting_eq_some hagreeFirst).mp hheld
    constructor
    · rintro ⟨⟩
      exact ⟨hfirst.subset hother, hname⟩
    · rintro ⟨hhead, hname'⟩
      rw [hagree head hhead other (hfirst.subset hother) (hname.trans hname'.symm)]

end Held

/-! ## Searches for different receivers -/

section CutShort
variable {σ ρ : Type} {remote : Remote σ}
variable {answer : String → Revision → Except Failure Node} {kind : String → Revision → Kind}

/-- **A receiver that has enough only cuts the search short.**  Up to there everything is
as for a receiver that collects all heads. -/
theorem search_cut_short (hfixed : remote.Fixed answer kind) (receiver : Receiver ρ)
    (quest : Quest) (demands : Option Acceptance) (state : σ) (wants : ρ) :
    let run := (search remote receiver (quest.demanding demands)).perform
      (Session.start state wants)
    let collected := (search remote Receiver.collecting (quest.demanding demands)).perform
      (Session.start state Roster.empty)
    run.1 = .ok (receiver.observing run.2.receiver) ∧
      run.2.receiver = receiver.hear run.2.account wants ∧
      Heeded receiver wants run.2.account ∧ run.2.account <+: collected.2.account ∧
      (receiver.observing run.2.receiver = true → run.2.account = collected.2.account) := by
  intro run collected
  have hwhole : collected.1 = .ok true :=
    (hfixed.completes (fun _ => rfl) quest demands state Roster.empty).1
  have hreplied := hfixed.replied receiver (quest.demanding demands) state wants
  have hreplied' := hfixed.replied Receiver.collecting (quest.demanding demands) state Roster.empty
  -- A search that succeeds has heeded its receiver.
  have hheeded : ∀ goOn, run.1 = .ok goOn → run.1 = .ok (receiver.observing run.2.receiver) ∧
      run.2.receiver = receiver.hear run.2.account wants ∧
      Heeded receiver wants run.2.account := by
    intro goOn hrun
    have hends := search_heeded remote receiver (quest.demanding demands)
      (Session.start state wants)
    have hgrew : (Session.start state wants).Grew receiver (Heeded receiver wants) run.2 :=
      (hends.mono (fun _ _ h => h.2) (fun _ _ h => h.2)).perform
    exact ⟨(told_of_ends hends).1 goOn hrun ▸ hrun, hgrew.of_start⟩
  have hparts : Parting run collected :=
    search_parts remote remote (quest.demanding demands) receiver Receiver.collecting rfl
  rcases hparts with (⟨hsame, haccount⟩ | hforked) | ⟨hstop, hshorter⟩ | ⟨hstop, -⟩
  · obtain ⟨hrun, hheard, hevents⟩ := hheeded true (hsame.symm.trans hwhole)
    exact ⟨hrun, hheard, hevents, haccount ▸ List.prefix_refl _, fun _ => haccount.symm⟩
  · -- Both remotes give the fixed answers, so no question has two of them.
    obtain ⟨_, _, _, _, -, -, -, hne⟩ := hreplied.of_forked hreplied' hforked
    exact absurd rfl hne
  · obtain ⟨hrun, hheard, hevents⟩ := hheeded false hstop
    refine ⟨hrun, hheard, hevents, hshorter, fun hobserving => ?_⟩
    rw [hobserving, hstop] at hrun
    cases hrun
  · cases hwhole.symm.trans hstop

end CutShort

/-- **Stopping early only truncates.**  Let the answers of a remote be fixed and the names
that it lists have no slash, and let the criterion be made of demands.  What a receiver
with a limit holds after a search are the first heads of those that a receiver without one
collects; a receiver that waits for a name holds the collected head of that name, and none
exactly if there is none.  Neither search calls the remote other than the collecting search
does: the one account is the beginning of the other. -/
theorem search_truncates {σ : Type} (remote : Remote σ)
    (answer : String → Revision → Except Failure Node) (kind : String → Revision → Kind)
    (hfixed : remote.Fixed answer kind)
    (hslash : ∀ path revision, ∀ child ∈ childrenOf (answer path revision).toOption,
      '/' ∉ child.name.toList)
    (quest : Quest) (demands : Option Acceptance) (state : σ) :
    let collected := (search remote Receiver.collecting (quest.demanding demands)).perform
      (Session.start state Roster.empty)
    collected.1 = .ok true ∧
      (∀ limit : Int, 1 ≤ limit → ∃ receiver, Receiver.limited limit = .ok receiver ∧
        let limited := (search remote receiver (quest.demanding demands)).perform
          (Session.start state Roster.empty)
        (∃ goOn, limited.1 = .ok goOn) ∧
          limited.2.receiver.heads = collected.2.receiver.heads.take limit.toNat ∧
          limited.2.account <+: collected.2.account) ∧
      ∀ name,
        let selected := (search remote (Receiver.selecting name) (quest.demanding demands)).perform
          (Session.start state none)
        (∃ goOn, selected.1 = .ok goOn) ∧
          (∀ head, selected.2.receiver = some head ↔
            head ∈ collected.2.receiver.heads ∧ head.name = name) ∧
          selected.2.account <+: collected.2.account := by
  intro collected
  have hobserving : ∀ wants, Receiver.collecting.observing wants = true := fun _ => rfl
  obtain ⟨hwhole, hheard, htours⟩ :=
    hfixed.completes hobserving quest demands state Roster.empty
  have hagree : Agree (Event.heads collected.2.account) := by
    intro head hhead other hother hname
    rw [htours.heads, hfixed.mem_heads] at hhead hother
    exact hother.eq_of_name hfixed.distinct hslash hhead hname
  have hcollected : collected.2.receiver =
      Receiver.collecting.hear collected.2.account Roster.empty := hheard
  refine ⟨hwhole, fun limit hlimit => ⟨Receiver.upTo limit.toNat, ?_, ?_⟩, fun name => ?_⟩
  · unfold Receiver.limited
    rw [if_neg (by omega)]
  · intro limited
    obtain ⟨hrun, hheard, hheeded, hbegins, hall⟩ := search_cut_short hfixed
      (Receiver.upTo limit.toNat) quest demands state Roster.empty
    refine ⟨⟨_, hrun⟩, ?_, hbegins⟩
    rw [hheard] at hall
    rw [hcollected, ← hheeded.heads_eq_take hagree hbegins hall, ← hheard]
  · intro selected
    obtain ⟨hrun, hheard, -, hbegins, hall⟩ := search_cut_short hfixed
      (Receiver.selecting name) quest demands state none
    refine ⟨⟨_, hrun⟩, fun head => ?_, hbegins⟩
    rw [hheard] at hall
    rw [hcollected, ← selected_iff hagree hbegins hall, ← hheard]

/-- The first line comes up twice, and counts once. -/
theorem search_truncates_overlap :
    let collected := (search (Remote.ofAnswers lines linesKind) Receiver.collecting
      (overlap.demanding none)).perform (Session.start () Roster.empty)
    let selected := (search (Remote.ofAnswers lines linesKind) (Receiver.selecting "trunk/y")
      (overlap.demanding none)).perform (Session.start () none)
    Event.heads collected.2.account = [⟨"trunk/x", 1, some 1000⟩, ⟨"trunk/x", 1, some 1000⟩,
      ⟨"trunk/y", 2, some 2000⟩] ∧
      (∃ receiver, Receiver.limited 2 = .ok receiver ∧
        ((search (Remote.ofAnswers lines linesKind) receiver (overlap.demanding none)).perform
          (Session.start () Roster.empty)).2.receiver.heads =
            [⟨"trunk/x", 1, some 1000⟩, ⟨"trunk/y", 2, some 2000⟩]) ∧
      selected.2.receiver = some ⟨"trunk/y", 2, some 2000⟩ := by
  intro collected selected
  obtain ⟨-, hlimits, hnames⟩ := search_truncates (Remote.ofAnswers lines linesKind) lines linesKind
    fixed_lines (fun path revision child hchild => (plain_lines path revision child hchild).2)
    overlap none ()
  have hroster : collected.2.receiver.heads =
      [⟨"trunk/x", 1, some 1000⟩, ⟨"trunk/y", 2, some 2000⟩] := rfl
  refine ⟨rfl, ?_, ?_⟩
  · obtain ⟨receiver, hreceiver, -, htake, -⟩ := hlimits 2 (by decide)
    refine ⟨receiver, hreceiver, ?_⟩
    rw [htake]
    rfl
  · obtain ⟨-, hselected, -⟩ := hnames "trunk/y"
    refine (hselected _).mpr ⟨?_, rfl⟩
    rw [hroster]
    decide

end Discovery
end HeadFinder
