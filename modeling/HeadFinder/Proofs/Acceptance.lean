import HeadFinder.Acceptance
import HeadFinder.Proofs.Access

/-! # What acceptance comes to

Demands ask at the revision of the candidate and nowhere else.  As long as every question
has an answer, their verdict is `holds` of what is found, and a question that fails makes
them fail.  All of this goes by the inquiries that the demands are made of.
-/
namespace HeadFinder

namespace Inquiry

/-- All questions are about one revision. -/
def AsksAt (revision : Revision) : Inquiry → Prop
  | verdict _ => True
  | failure _ => True
  | note _ _ next => next.AsksAt revision
  | check _ asked next => asked = revision ∧ ∀ answer, (next answer).AsksAt revision

theorem AsksAt.andThen {revision : Revision} {inquiry next : Inquiry}
    (h : inquiry.AsksAt revision) (hnext : next.AsksAt revision) :
    (inquiry.andThen next).AsksAt revision := by
  induction inquiry with
  | verdict accepted =>
    cases accepted with
    | true => exact hnext
    | false => trivial
  | failure cause => trivial
  | note level text rest ih => exact ih h
  | check path asked rest ih => exact ⟨h.1, fun answer => ih answer (h.2 answer)⟩

theorem asksAt_exists? {probe : Probe} {path : String} {next : Bool → Inquiry}
    (h : ∀ found, (next found).AsksAt probe.revision) :
    (exists? probe path next).AsksAt probe.revision := by
  refine ⟨rfl, fun answer => ?_⟩
  cases answer with
  | ok kind => exact h _
  | error cause => trivial

/-- A question that fails makes the inquiry fail with it, and nothing else does. -/
def Strict : Inquiry → Prop
  | verdict _ => True
  | failure _ => False
  | note _ _ next => next.Strict
  | check _ _ next =>
    (∀ cause, next (.error cause) = failure cause) ∧ ∀ kind, (next (.ok kind)).Strict

theorem Strict.andThen {inquiry next : Inquiry} (h : inquiry.Strict) (hnext : next.Strict) :
    (inquiry.andThen next).Strict := by
  induction inquiry with
  | verdict accepted =>
    cases accepted with
    | true => exact hnext
    | false => trivial
  | failure cause => exact h.elim
  | note level text rest ih => exact ih h
  | check path asked rest ih =>
    refine ⟨fun cause => ?_, fun kind => ih _ (h.2 kind)⟩
    show (rest (.error cause)).andThen next = failure cause
    rw [h.1 cause]
    rfl

theorem strict_exists? {probe : Probe} {path : String} {next : Bool → Inquiry}
    (h : ∀ found, (next found).Strict) : (exists? probe path next).Strict :=
  ⟨fun _ => rfl, fun _ => h _⟩

section Gives
open Access
variable {σ ρ : Type} {remote : Remote σ} {channel : String} {Calm : σ → Prop}

/-- Two inquiries in turn: the second is made if the first accepts. -/
theorem ends_run_andThen {inquiry next : Inquiry} {session : Session σ ρ}
    {done : Bool → Session σ ρ → Prop} {failed : Failure → Session σ ρ → Prop} :
    Ends ((inquiry.andThen next).run remote channel) session done failed ↔
      Ends (inquiry.run remote channel) session
        (fun accepted after =>
          if accepted then Ends (next.run remote channel) after done failed
          else done false after) failed := by
  induction inquiry generalizing session with
  | verdict accepted => cases accepted <;> exact Iff.rfl
  | failure cause => exact Iff.rfl
  | note level text rest ih =>
    rw [andThen, run, run, ends_bind, ends_bind, ends_note, ends_note]
    exact ih
  | check path revision rest ih =>
    rw [andThen, run, run, ends_bind, ends_bind, Access.check, ends_attempt_call,
      ends_attempt_call]
    exact ih _

/-- From every session with a calm remote the inquiry comes to this verdict, and it
leaves the remote calm. -/
def Gives {σ : Type} (ρ : Type) (remote : Remote σ) (channel : String) (Calm : σ → Prop)
    (inquiry : Inquiry) (accepted : Bool) : Prop :=
  ∀ session : Session σ ρ, Calm session.remote →
    Ends (inquiry.run remote channel) session
      (fun given after => given = accepted ∧ Calm after.remote) (fun _ _ => False)

theorem gives_verdict (accepted : Bool) : Gives ρ remote channel Calm (verdict accepted) accepted :=
  fun _ hcalm => ⟨rfl, hcalm⟩

theorem Gives.note {inquiry : Inquiry} {accepted : Bool}
    (h : Gives ρ remote channel Calm inquiry accepted) (level : Level) (text : String) :
    Gives ρ remote channel Calm (note level text inquiry) accepted := by
  intro session hcalm
  rw [run, ends_bind, ends_note]
  exact h _ hcalm

theorem Gives.andThen {inquiry next : Inquiry} {first second : Bool}
    (h : Gives ρ remote channel Calm inquiry first)
    (hnext : Gives ρ remote channel Calm next second) :
    Gives ρ remote channel Calm (inquiry.andThen next) (first && second) := by
  intro session hcalm
  rw [ends_run_andThen]
  refine (h session hcalm).mono ?_ (fun _ _ h => h)
  rintro given after ⟨rfl, hafter⟩
  cases given with
  | true => exact hnext after hafter
  | false => exact ⟨rfl, hafter⟩

/-- What a calm remote says about the paths below a candidate, which it never fails
to say. -/
def Finds {σ : Type} (remote : Remote σ) (Calm : σ → Prop) (probe : Probe)
    (found : String → Bool) : Prop :=
  ∀ path state, Calm state →
    let reply := remote.check (Path.join [probe.root, path]) probe.revision state
    Calm reply.state ∧ ∃ kind, reply.outcome = .ok kind ∧ found path = decide (kind ≠ .absent)

theorem gives_exists? {probe : Probe} {found : String → Bool}
    (hfinds : Finds remote Calm probe found) {path : String} {next : Bool → Inquiry}
    {accepted : Bool} (h : Gives ρ remote channel Calm (next (found path)) accepted) :
    Gives ρ remote channel Calm (exists? probe path next) accepted := by
  intro session hcalm
  obtain ⟨hafter, kind, houtcome, hfound⟩ := hfinds path session.remote hcalm
  rw [exists?, run, ends_bind, Access.check, ends_attempt_call, houtcome]
  rw [hfound] at h
  exact h _ hafter

end Gives

end Inquiry

/-- Whether enough of the paths are found. -/
def Quota.meets (found : String → Bool) (paths : List String) : Quota → Bool
  | all => paths.all found
  | any => paths.any found

namespace Acceptance
open Inquiry

mutual

/-- Whether demands are met by what is found below a candidate. -/
def holds (found : String → Bool) : Acceptance → Bool
  | required quota paths =>
    paths.isEmpty || quota.meets found paths
  | allOf members => allHold found members

/-- Whether several demands are met. -/
def allHold (found : String → Bool) : List Acceptance → Bool
  | [] => true
  | member :: rest => holds found member && allHold found rest

end

theorem askPaths_asksAt (quota : Quota) (probe : Probe) (paths : List String) :
    (askPaths quota probe paths).AsksAt probe.revision := by
  induction paths with
  | nil => trivial
  | cons path rest ih =>
    refine asksAt_exists? fun found => ?_
    cases quota with
    | all =>
      cases found with
      | true => exact ih
      | false => trivial
    | any =>
      cases found with
      | true => trivial
      | false => exact ih

mutual

/-- **Demands ask at the revision of the candidate only.** -/
theorem ask_asksAt (probe : Probe) :
    ∀ acceptance : Acceptance, (acceptance.ask probe).AsksAt probe.revision
  | required quota paths => by
    rw [ask]
    split
    · trivial
    · exact askPaths_asksAt quota probe paths
  | allOf members => by
    rw [ask]
    exact askEach_asksAt probe members

theorem askEach_asksAt (probe : Probe) :
    ∀ members : List Acceptance, (askEach probe members).AsksAt probe.revision
  | [] => by
    rw [askEach]
    trivial
  | member :: rest => by
    rw [askEach]
    exact (ask_asksAt probe member).andThen (askEach_asksAt probe rest)

end

theorem askPaths_strict (quota : Quota) (probe : Probe) (paths : List String) :
    (askPaths quota probe paths).Strict := by
  induction paths with
  | nil => trivial
  | cons path rest ih =>
    refine strict_exists? fun found => ?_
    cases quota with
    | all =>
      cases found with
      | true => exact ih
      | false => trivial
    | any =>
      cases found with
      | true => trivial
      | false => exact ih

mutual

/-- **Demands pass over no failure.** -/
theorem ask_strict (probe : Probe) : ∀ acceptance : Acceptance, (acceptance.ask probe).Strict
  | required quota paths => by
    rw [ask]
    split
    · trivial
    · exact askPaths_strict quota probe paths
  | allOf members => by
    rw [ask]
    exact askEach_strict probe members

theorem askEach_strict (probe : Probe) :
    ∀ members : List Acceptance, (askEach probe members).Strict
  | [] => by
    rw [askEach]
    trivial
  | member :: rest => by
    rw [askEach]
    exact (ask_strict probe member).andThen (askEach_strict probe rest)

end

section Gives
variable {σ ρ : Type} {remote : Remote σ} {channel : String} {Calm : σ → Prop}
variable {probe : Probe} {found : String → Bool}

theorem askPaths_gives (hfinds : Finds remote Calm probe found) (quota : Quota)
    (paths : List String) :
    Gives ρ remote channel Calm (askPaths quota probe paths) (quota.meets found paths) := by
  induction paths with
  | nil => cases quota <;> exact gives_verdict _
  | cons path rest ih =>
    refine gives_exists? hfinds (Gives.note ?_ _ _)
    cases quota with
    | all =>
      rw [Quota.meets, List.all_cons]
      cases found path with
      | true => exact ih
      | false => exact gives_verdict false
    | any =>
      rw [Quota.meets, List.any_cons]
      cases found path with
      | true => exact gives_verdict true
      | false => exact ih

mutual

/-- **Demands are judged by what is found.** -/
theorem ask_gives (hfinds : Finds remote Calm probe found) :
    ∀ acceptance : Acceptance,
      Gives ρ remote channel Calm (acceptance.ask probe) (acceptance.holds found)
  | required quota paths => by
    rw [ask, holds]
    cases hempty : paths.isEmpty with
    | true => exact gives_verdict true
    | false => exact askPaths_gives hfinds quota paths
  | allOf members => by
    rw [ask, holds]
    exact askEach_gives hfinds members

theorem askEach_gives (hfinds : Finds remote Calm probe found) :
    ∀ members : List Acceptance,
      Gives ρ remote channel Calm (askEach probe members) (allHold found members)
  | [] => by
    rw [askEach, allHold]
    exact gives_verdict true
  | member :: rest => by
    rw [askEach, allHold]
    exact (ask_gives hfinds member).andThen (askEach_gives hfinds rest)

end

end Gives

end Acceptance
end HeadFinder
