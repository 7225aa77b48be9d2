import Gatehouse.Listen.Listener

/-!
# Connections with their provenance

A tagged listener stamps each connection with where it came from and leaves all else as it is.
-/

namespace Gatehouse.Listen

/-- A connection and where it came from. -/
structure Tagged (κ : Type) where
  connection : κ
  provenance : Provenance
deriving DecidableEq, Repr

/-- A listener all of whose connections come from one place. -/
structure TaggedListener (σ : Type) where
  inner : σ
  provenance : Provenance

/-- Stamps what an accept returns. -/
def tag {κ : Type} (p : Provenance) (r : Accepted κ) : Accepted (Tagged κ) := r.map fun c => ⟨c, p⟩

instance {σ ε κ : Type} [Listener σ ε κ] : Listener (TaggedListener σ) ε (Tagged κ) where
  step? s e := (Listener.step? s.inner e).map ({ s with inner := · })
  moves s := Listener.moves s.inner
  answers s := (Listener.answers s.inner).map fun (r, t) =>
    (tag s.provenance r, { s with inner := t })
  close? s := (Listener.close? s.inner).map ({ s with inner := · })
  closeResult? s := Listener.closeResult? s.inner
  address s := Listener.address s.inner

end Gatehouse.Listen
