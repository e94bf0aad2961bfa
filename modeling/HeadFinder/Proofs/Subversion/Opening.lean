import HeadFinder.Proofs.Subversion.Failures
import HeadFinder.Proofs.Text.Search
import HeadFinder.Proofs.Text.Trim
import Mathlib.Data.List.Chain

/-! # Opening a session

The address of a session need not exist; what is asked about is the address and then one
ancestor after another, each the address before it without its last segment, until one is not
reported missing.  The ancestors keep the scheme and something of the host, and there is one
for each slash behind that, so the asking comes to an end.
-/
namespace HeadFinder.Subversion
open Text (Foremost)

/-! ## Ancestors -/

/-- What stands between the scheme and the host of an address. -/
def schemeEnd : List Char := "://".toList

section HostStart
variable {cs front start : List Char}

theorem hostStart_of_foremost (h : Foremost schemeEnd front cs) :
    hostStart cs = front.length + 3 := by
  have hle : front.length ≤ cs.length := by
    have := h.1.length_le
    rw [List.length_append] at this
    omega
  rcases Text.seek_cases (by decide : schemeEnd ≠ []) cs with ⟨front', h', hseek⟩ | ⟨habsent, -⟩
  · have hsame : front'.length = front.length :=
      Nat.le_antisymm (h'.2 front h.1) (h.2 front' h'.1)
    unfold schemeEnd at hseek
    unfold hostStart
    rw [hseek]
    dsimp only
    rw [List.length_drop]
    omega
  · exact absurd h.1 (habsent front)

theorem hostStart_of_absent (h : ∀ front, ¬ front ++ schemeEnd <+: cs) : hostStart cs = 2 := by
  rcases Text.seek_cases (by decide : schemeEnd ≠ []) cs with ⟨front, hfront, -⟩ | ⟨-, hseek⟩
  · exact absurd hfront.1 (h front)
  · unfold schemeEnd at hseek
    unfold hostStart
    rw [hseek]

/-- The host begins at the same place in whatever reaches into it. -/
theorem hostStart_within (hstart : start <+: cs) (hlt : hostStart cs < start.length) :
    hostStart start = hostStart cs := by
  rcases Text.seek_cases (by decide : schemeEnd ≠ []) cs with ⟨front, hfront, -⟩ | ⟨habsent, -⟩
  · rw [hostStart_of_foremost hfront] at hlt ⊢
    refine hostStart_of_foremost (hfront.within hstart ?_)
    rw [List.length_append]
    exact Nat.le_of_lt hlt
  · rw [hostStart_of_absent habsent]
    exact hostStart_of_absent fun front h => habsent front (h.trans hstart)

end HostStart

/-- The address above an address: what stands before its last slash, if that reaches into the
host. -/
def above? (url : String) : Option String :=
  match Text.cutLast '/' url.toList with
  | some (before, _) =>
    if hostStart url.toList < before.length then some (String.ofList before) else none
  | none => none

/-- What stands before the slashes behind a place, from the first slash to the last. -/
def cuts (host : Nat) (cs : List Char) : List String :=
  cs.zipIdx.filterMap fun (c, i) =>
    if c = '/' && host < i then some (String.ofList (cs.take i)) else none

theorem ancestors_eq (url : String) : ancestors url =
    Text.trimEndSlashes url ::
      (cuts (hostStart (Text.trimEndSlashes url).toList)
        (Text.trimEndSlashes url).toList).reverse := by
  unfold ancestors cuts
  dsimp only
  rw [String.ofList_toList]

section Cuts
variable {host : Nat} {cs before after : List Char} {target : String}

theorem of_mem_cuts (h : target ∈ cuts host cs) :
    target.toList <+: cs ∧ host < target.toList.length := by
  obtain ⟨⟨c, i⟩, hmem, hcut⟩ := List.mem_filterMap.mp h
  have hi := List.snd_lt_of_mem_zipIdx hmem
  dsimp only at hcut
  split at hcut
  · rename_i hslash
    rw [Bool.and_eq_true, decide_eq_true_iff, decide_eq_true_iff] at hslash
    rw [← Option.some.inj hcut, String.toList_ofList, List.length_take]
    exact ⟨List.take_prefix _ _, by omega⟩
  · cases hcut

theorem cuts_of_not_mem (h : '/' ∉ cs) : cuts host cs = [] := by
  refine List.filterMap_eq_nil_iff.mpr fun ⟨c, i⟩ hmem => ?_
  have hne : c ≠ '/' := by
    rintro rfl
    exact h (List.fst_mem_of_mem_zipIdx hmem)
  exact if_neg (by simp [hne])

theorem cuts_of_length_le (h : cs.length ≤ host) : cuts host cs = [] := by
  refine List.filterMap_eq_nil_iff.mpr fun ⟨c, i⟩ hmem => ?_
  have hi := List.snd_lt_of_mem_zipIdx hmem
  exact if_neg (by simp; omega)

/-- The last cut is that at the last slash. -/
theorem cuts_append (h : '/' ∉ after) : cuts host (before ++ '/' :: after) =
    cuts host before ++ if host < before.length then [String.ofList before] else [] := by
  have hbefore : before.zipIdx.filterMap (fun (c, i) =>
      if c = '/' && host < i then some (String.ofList ((before ++ '/' :: after).take i))
      else none) =
      cuts host before := by
    refine List.filterMap_congr fun ⟨c, i⟩ hmem => ?_
    have hi := List.snd_lt_of_mem_zipIdx hmem
    dsimp only at hi ⊢
    rw [List.take_append_of_le_length (by omega)]
  have hafter : (after.zipIdx (before.length + 1)).filterMap (fun (c, i) =>
      if c = '/' && host < i then some (String.ofList ((before ++ '/' :: after).take i))
      else none) =
      [] := by
    refine List.filterMap_eq_nil_iff.mpr fun ⟨c, i⟩ hmem => if_neg ?_
    have hne : c ≠ '/' := by
      rintro rfl
      exact h (List.fst_mem_of_mem_zipIdx hmem)
    simp [hne]
  rw [cuts, List.zipIdx_append, List.filterMap_append, hbefore, Nat.zero_add, List.zipIdx_cons,
    List.filterMap_cons, hafter]
  by_cases hhost : host < before.length
  · simp [hhost]
  · simp [hhost]

end Cuts

/-- The addresses from one upwards until there is none above. -/
inductive Climb : String → List String → Prop
  | last {url : String} (h : above? url = none) : Climb url [url]
  | up {url parent : String} {urls : List String} (h : above? url = some parent)
      (rest : Climb parent urls) : Climb url (url :: urls)

theorem climb_cuts (cs : List Char) :
    Climb (String.ofList cs) (String.ofList cs :: (cuts (hostStart cs) cs).reverse) := by
  induction hlength : cs.length using Nat.strong_induction_on generalizing cs with
  | _ n ih =>
    by_cases hslash : '/' ∈ cs
    · obtain ⟨before, after, rfl, hafter⟩ := Text.exists_last hslash
      have habove : above? (String.ofList (before ++ '/' :: after)) =
          if hostStart (before ++ '/' :: after) < before.length
            then some (String.ofList before) else none := by
        unfold above?
        rw [String.toList_ofList, Text.cutLast_append hafter]
      rw [cuts_append hafter]
      by_cases hhost : hostStart (before ++ '/' :: after) < before.length
      · rw [if_pos hhost] at habove ⊢
        rw [List.reverse_append, List.reverse_singleton, List.singleton_append,
          ← hostStart_within (List.prefix_append _ _) hhost]
        refine .up habove (ih before.length ?_ before rfl)
        rw [← hlength, List.length_append, List.length_cons]
        omega
      · rw [if_neg hhost] at habove ⊢
        rw [cuts_of_length_le (Nat.not_lt.mp hhost)]
        exact .last habove
    · rw [cuts_of_not_mem hslash]
      refine .last ?_
      unfold above?
      rw [String.toList_ofList, Text.cutLast_eq_none hslash]

/-- **The ancestors of an address are reached by going up from it, one after another.** -/
theorem climb_ancestors (url : String) : Climb (Text.trimEndSlashes url) (ancestors url) := by
  rw [ancestors_eq]
  have hclimb := climb_cuts (Text.trimEndSlashes url).toList
  rwa [String.ofList_toList] at hclimb

/-- Repeated slashes are cut one by one, and the host is kept. -/
example : ancestors "http://h//r/a/" =
    ["http://h//r/a", "http://h//r", "http://h/", "http://h"] := by
  decide

/-- Going up is to leave out the last segment. -/
theorem of_above? {url parent : String} (h : above? url = some parent) :
    ∃ name, '/' ∉ name.toList ∧ url = parent ++ "/" ++ name := by
  by_cases hslash : '/' ∈ url.toList
  · obtain ⟨before, after, hcut, hafter⟩ := Text.exists_last hslash
    unfold above? at h
    rw [hcut, Text.cutLast_append hafter] at h
    dsimp only at h
    split at h
    · obtain rfl := Option.some.inj h
      refine ⟨String.ofList after, by rwa [String.toList_ofList], String.toList_injective ?_⟩
      rw [hcut]
      simp
    · cases h
  · unfold above? at h
    rw [Text.cutLast_eq_none hslash] at h
    cases h

section Climb
variable {url : String} {urls : List String}

theorem Climb.isChain (h : Climb url urls) :
    urls.IsChain fun target next => above? target = some next := by
  induction h with
  | last _ => exact .singleton _
  | up habove hrest ih =>
    cases hrest with
    | last _ => exact .cons_cons habove ih
    | up _ _ => exact .cons_cons habove ih

theorem Climb.ne_nil (h : Climb url urls) : urls ≠ [] := by
  cases h <;> exact List.cons_ne_nil _ _

theorem Climb.head? (h : Climb url urls) : urls.head? = some url := by
  cases h <;> rfl

theorem Climb.above?_getLast (h : Climb url urls) :
    ∀ last ∈ urls.getLast?, above? last = none := by
  induction h with
  | last habove =>
    intro last hlast
    rw [← Option.some.inj hlast]
    exact habove
  | up habove hrest ih =>
    intro last hlast
    refine ih last ?_
    cases hrest <;> exact hlast

/-- An address and its ancestors keep the scheme and something of the host. -/
theorem keeps_host {scheme : List Char}
    (h : Foremost schemeEnd scheme (Text.trimEndSlashes url).toList) {target : String}
    (htarget : target ∈ ancestors url) :
    ∃ c, scheme ++ schemeEnd ++ [c] <+: target.toList := by
  rw [ancestors_eq, List.mem_cons] at htarget
  have hbegins : scheme ++ schemeEnd <+: target.toList ∧ target.toList ≠ scheme ++ schemeEnd := by
    rcases htarget with rfl | htarget
    · refine ⟨h.1, fun hbare => ?_⟩
      -- The address would end in a slash.
      have hlast : (Text.trimEndSlashes url).toList.getLast? = some '/' := by
        rw [hbare, List.getLast?_append]
        rfl
      unfold Text.trimEndSlashes at hlast
      rw [String.toList_ofList] at hlast
      cases Text.getLast?_trimEnd hlast
    · obtain ⟨hbegin, hlt⟩ := of_mem_cuts (List.mem_reverse.mp htarget)
      rw [hostStart_of_foremost h] at hlt
      have hlength : (scheme ++ schemeEnd).length < target.toList.length := by
        rw [List.length_append]
        exact hlt
      refine ⟨List.prefix_of_prefix_length_le h.1 hbegin (Nat.le_of_lt hlength), fun hbare => ?_⟩
      rw [hbare] at hlength
      exact Nat.lt_irrefl _ hlength
  obtain ⟨⟨rest, hrest⟩, hmore⟩ := hbegins
  cases rest with
  | nil => exact absurd (hrest.symm.trans (List.append_nil _)) hmore
  | cons c rest => exact ⟨c, rest, by rw [← hrest, List.append_assoc _ [c]]; rfl⟩

end Climb

/-! ## Probes -/

/-- Whether a run of the client reported that its target is missing. -/
def Missing (probe : Command × Ending) : Prop :=
  ∃ path revision, probe.1.interpret probe.2 = .error (.nodeMissing path revision)

/-- The command that asks about an address. -/
def inquiry (client : Client) (target : String) : Command :=
  ⟨client, .empty, target⟩

/-- What comes of asking about targets in turn: it goes on past those that are reported
missing, and is over with the first that is not, or when there are no more. -/
inductive Probed (client : Client) (url : String) :
    List String → List (Command × Ending) → Except Failure (List Entry) → Prop
  | exhausted : Probed client url [] [] (.error (.noRepository url))
  | missing {target : String} {targets : List String} {ending : Ending}
      {probes : List (Command × Ending)} {outcome : Except Failure (List Entry)}
      (h : Missing (inquiry client target, ending))
      (later : Probed client url targets probes outcome) :
      Probed client url (target :: targets) ((inquiry client target, ending) :: probes) outcome
  | answered {target : String} {targets : List String} {ending : Ending}
      (h : ¬ Missing (inquiry client target, ending)) :
      Probed client url (target :: targets) [(inquiry client target, ending)]
        ((inquiry client target).interpret ending)

section Probes
variable {π : Type} {process : Process π} {client : Client} {url : String}

theorem probe_of_missing {target : String} (targets : List String) {state : π}
    (h : Missing (inquiry client target, (process (inquiry client target) state).1)) :
    (probe process client url (target :: targets) state).outcome =
        (probe process client url targets (process (inquiry client target) state).2).outcome ∧
      (probe process client url (target :: targets) state).state =
        (probe process client url targets (process (inquiry client target) state).2).state := by
  obtain ⟨path, revision, hmissing⟩ := h
  have houtcome : (Command.query process (inquiry client target) state).outcome =
      .error (.nodeMissing path revision) := hmissing
  unfold inquiry at *
  rw [probe]
  dsimp only
  rw [houtcome]
  exact ⟨rfl, rfl⟩

theorem probe_of_answered {target : String} (targets : List String) {state : π}
    (h : ¬ Missing (inquiry client target, (process (inquiry client target) state).1)) :
    probe process client url (target :: targets) state =
      Command.query process (inquiry client target) state := by
  unfold inquiry at *
  rw [probe]
  dsimp only
  split
  · rename_i path revision houtcome
    exact absurd ⟨path, revision, houtcome⟩ h
  · rfl

/-- What is asked is kept as it was. -/
theorem probe_recorded (targets : List String) (state : π) (past : List (Command × Ending)) :
    let reply := probe process.recorded client url targets (state, past)
    ∃ probes, reply.state.2 = past ++ probes ∧
      Probed client url targets probes reply.outcome := by
  induction targets generalizing state past with
  | nil => exact ⟨[], (List.append_nil _).symm, .exhausted⟩
  | cons target targets ih =>
    dsimp only at ih ⊢
    by_cases hmissing : Missing (inquiry client target, (process (inquiry client target) state).1)
    · have hrecorded := @probe_of_missing _ process.recorded client url target targets
        (state, past) hmissing
      obtain ⟨probes, hpast, hprobed⟩ := ih (process (inquiry client target) state).2
        (past ++ [(inquiry client target, (process (inquiry client target) state).1)])
      rw [hrecorded.1, hrecorded.2]
      exact ⟨_, hpast.trans (List.append_assoc _ _ _), .missing hmissing hprobed⟩
    · have hrecorded := @probe_of_answered _ process.recorded client url target targets
        (state, past) hmissing
      rw [hrecorded]
      exact ⟨_, rfl, .answered hmissing⟩

end Probes

section Probed
variable {client : Client} {url : String} {targets : List String}
  {probes : List (Command × Ending)} {outcome : Except Failure (List Entry)}

/-- Targets are asked about in their order. -/
theorem Probed.asked (h : Probed client url targets probes outcome) :
    probes.map Prod.fst <+: targets.map (inquiry client) := by
  induction h with
  | exhausted => exact List.nil_prefix
  | missing _ _ ih => exact List.cons_prefix_cons.mpr ⟨rfl, ih⟩
  | answered _ => exact List.cons_prefix_cons.mpr ⟨rfl, List.nil_prefix⟩

theorem Probed.in_order (h : Probed client url targets probes outcome) :
    probes.map (·.1.target) <+: targets := by
  have hmap := h.asked.map Command.target
  have htargets : (targets.map (inquiry client)).map Command.target = targets := by
    rw [List.map_map]
    exact List.map_id targets
  rwa [htargets, List.map_map] at hmap

theorem Probed.commands (h : Probed client url targets probes outcome) :
    ∀ probe ∈ probes, probe.1 = inquiry client probe.1.target := by
  intro probe hprobe
  obtain ⟨target, -, htarget⟩ := List.mem_map.mp (h.asked.subset (List.mem_map_of_mem hprobe))
  rw [← htarget]
  rfl

/-- All targets before the last that is asked about are missing. -/
theorem Probed.missing_before (h : Probed client url targets probes outcome) :
    ∀ probe ∈ probes.dropLast, Missing probe := by
  induction h with
  | exhausted => exact fun _ hprobe => nomatch hprobe
  | answered _ => exact fun _ hprobe => nomatch hprobe
  | @missing target targets ending probes outcome hmissing later ih =>
    cases probes with
    | nil => exact fun _ hprobe => nomatch hprobe
    | cons next probes => exact List.forall_mem_cons.mpr ⟨hmissing, ih⟩

/-- The last answer decides, if it is one; else all targets have been asked about. -/
theorem Probed.decided (h : Probed client url targets probes outcome) (hne : targets ≠ []) :
    ∃ last, probes.getLast? = some last ∧
      ((¬ Missing last ∧ outcome = last.1.interpret last.2) ∨
        (Missing last ∧ outcome = .error (.noRepository url) ∧
          probes.map (·.1.target) = targets)) := by
  induction h with
  | exhausted => exact absurd rfl hne
  | answered hanswered => exact ⟨_, rfl, .inl ⟨hanswered, rfl⟩⟩
  | @missing target targets ending probes outcome hmissing later ih =>
    cases later with
    | exhausted => exact ⟨_, rfl, .inr ⟨hmissing, rfl, rfl⟩⟩
    | missing _ _ =>
      obtain ⟨last, hlast, hdecided⟩ := ih (List.cons_ne_nil _ _)
      refine ⟨last, hlast, hdecided.imp_right fun ⟨hlastMissing, houtcome, hall⟩ => ?_⟩
      exact ⟨hlastMissing, houtcome, congrArg (target :: ·) hall⟩
    | answered _ =>
      obtain ⟨last, hlast, hdecided⟩ := ih (List.cons_ne_nil _ _)
      refine ⟨last, hlast, hdecided.imp_right fun ⟨hlastMissing, houtcome, hall⟩ => ?_⟩
      exact ⟨hlastMissing, houtcome, congrArg (target :: ·) hall⟩

end Probed

/-! ## Sessions -/

/-- What the entries about an address open: the repository of the first, if that has a root. -/
def opened (client : Client) (url : String) : List Entry → Except Failure Connection
  | [] => .error (.noRoot url)
  | first :: _ =>
    if first.root = "" then .error (.noRoot url)
    else .ok (.ofRoot first.root first.identity client)

theorem opened_isRemote {client : Client} {url : String} {entries : List Entry} {failure : Failure}
    (h : opened client url entries = .error failure) : failure.isRemote = true := by
  unfold opened at h
  split at h
  · rw [← Except.error.inj h]
    rfl
  · split at h
    · rw [← Except.error.inj h]
      rfl
    · cases h

theorem open_eq {π : Type} (process : Process π) (client : Client) (url : String) (state : π) :
    (Connection.open process client url state).outcome =
        (probe process client url (ancestors url) state).outcome.bind (opened client url) ∧
      (Connection.open process client url state).state =
        (probe process client url (ancestors url) state).state := by
  unfold Connection.open
  dsimp only
  cases (probe process client url (ancestors url) state).outcome with
  | error failure => exact ⟨rfl, rfl⟩
  | ok entries =>
    cases entries with
    | nil => exact ⟨rfl, rfl⟩
    | cons first rest =>
      dsimp only [Except.bind, opened]
      split <;> exact ⟨rfl, rfl⟩

/-- **Opening a session asks about the address and then its ancestors.**  The first target is
the address without slashes at its end, and each further one is that before it, cut at its last
slash; if there is a scheme, all keep it and at least one character of the host.  A further
target is asked about only when the one before is reported missing.  So the last target alone
decides: if it is missing too, there is none above it, and no repository is found; if there is
an answer, its first entry tells the repository, and without an entry or a root there is none;
and any other failure is that of opening.  No failure of opening says that a node is missing.
Keeping account of the questions does not change the outcome. -/
theorem opening_climbs {π : Type} (process : Process π) (client : Client) (url : String)
    (state : π) :
    let opening := Connection.open process.recorded client url (state, [])
    let probes := opening.state.2
    let targets := probes.map (·.1.target)
    opening.outcome = (Connection.open process client url state).outcome ∧
    (∀ probe ∈ probes, probe.1 = ⟨client, .empty, probe.1.target⟩) ∧
    targets.head? = some (Text.trimEndSlashes url) ∧
    targets.IsChain (fun target next => above? target = some next ∧
      ∃ name, '/' ∉ name.toList ∧ target = next ++ "/" ++ name) ∧
    (∀ scheme, Foremost "://".toList scheme (Text.trimEndSlashes url).toList →
      ∀ target ∈ targets, ∃ c, scheme ++ "://".toList ++ [c] <+: target.toList) ∧
    (∀ probe ∈ probes.dropLast, Missing probe) ∧
    ∃ last, probes.getLast? = some last ∧
      (Missing last → above? last.1.target = none ∧
        opening.outcome = .error (.noRepository url)) ∧
      (¬ Missing last →
        opening.outcome = (last.1.interpret last.2).bind (opened client url)) ∧
      ∀ failure, opening.outcome = .error failure → failure.isMissing = false ∧
        (failure.isRemote = true ∨ last.1.interpret last.2 = .error failure) := by
  intro opening probes targets
  obtain ⟨kept, hkept, hprobed⟩ := @probe_recorded π process client url (ancestors url) state []
  obtain ⟨hopened, hstate⟩ := open_eq process.recorded client url (state, [])
  obtain rfl : probes = kept := (congrArg Prod.snd hstate).trans hkept
  have hclimb := climb_ancestors url
  have htargets := hprobed.in_order
  obtain ⟨last, hlast, hdecided⟩ := hprobed.decided hclimb.ne_nil
  have hone : targets ≠ [] := by
    intro hnil
    rw [List.map_eq_nil_iff.mp hnil] at hlast
    cases hlast
  refine ⟨(open_same process client url (state, [])).outcome, hprobed.commands, ?_, ?_, ?_,
    hprobed.missing_before, last, hlast, ?_, ?_, ?_⟩
  · obtain ⟨more, hmore⟩ := htargets
    rw [← hclimb.head?, ← hmore, List.head?_append_of_ne_nil _ hone]
  · have hchain := List.IsChain.prefix hclimb.isChain htargets
    exact hchain.imp fun _ _ habove => ⟨habove, of_above? habove⟩
  · exact fun scheme hscheme target htarget => keeps_host hscheme (htargets.subset htarget)
  · intro hmissing
    rcases hdecided with ⟨hanswered, -⟩ | ⟨-, houtcome, hall⟩
    · exact absurd hmissing hanswered
    · refine ⟨hclimb.above?_getLast _ ?_, hopened.trans (by rw [houtcome]; rfl)⟩
      rw [← hall, List.getLast?_map, hlast]
      rfl
  · intro hanswered
    rcases hdecided with ⟨-, houtcome⟩ | ⟨hmissing, -⟩
    · rw [← houtcome]
      exact hopened
    · exact absurd hmissing hanswered
  · intro failure hfailure
    refine ⟨open_error hfailure, ?_⟩
    have hfailed := hopened.symm.trans hfailure
    rcases hdecided with ⟨-, houtcome⟩ | ⟨-, houtcome, -⟩
    · rw [houtcome] at hfailed
      cases hinterpret : last.1.interpret last.2 with
      | error cause =>
        rw [hinterpret] at hfailed
        exact Or.inr (congrArg Except.error (Except.error.inj hfailed))
      | ok entries =>
        rw [hinterpret] at hfailed
        exact Or.inl (opened_isRemote hfailed)
    · rw [houtcome] at hfailed
      rw [← Except.error.inj hfailed]
      exact Or.inl rfl

end HeadFinder.Subversion
