import Acceptor.Fault

/-!
# Operations

An `Operation σ α` works on a thing of type `σ` in steps, and gives an `α`. A step that is refused ends it with a fault
and undoes nothing: `perform` leaves the thing behind as the steps before have left it. So an operation that changes
nothing when it is refused is one that makes its checks first.
-/

namespace Acceptor

abbrev Operation (σ : Type) : Type → Type := EStateM Fault σ

namespace Operation

variable {σ α : Type}

/-- A check looks at values only. -/
instance : MonadLift (Except Fault) (Operation σ) where
  monadLift x := fun s => match x with
    | .ok a => .ok a s
    | .error fault => .error fault s

/-- What the operation leaves behind, and its result. -/
def perform (op : Operation σ α) (s : σ) : σ × Except Fault α :=
  match op.run s with
  | .ok a t => (t, .ok a)
  | .error fault t => (t, .error fault)

/-- What is left behind by an operation that is not refused. -/
def outcome (op : Operation σ α) (s : σ) : Except Fault σ := (op.perform s).2.map fun _ => (op.perform s).1

end Operation

end Acceptor
