import TraceArchive.Document.Issue

/-!
# Checked values

Reading a document gives a value or all of its issues.  Reading two parts next to each other reads
the second also when the first is refused, so that the issues of every member are listed, in
order.

* `apply_eq_ok_iff`: two parts give a value only when both do.
* `under_eq_ok_iff`: a place does not change what is read.
-/

set_option autoImplicit false

namespace TraceArchive

universe u

/-- A value that was read, or the issues for which it was refused. -/
inductive Checked (α : Type u) where
  | ok (value : α)
  | refused (issues : List Issue)
  deriving Repr

namespace Checked

variable {α β : Type u}

/-- A refusal of the part at hand. -/
def fail (cause : Cause) : Checked α :=
  .refused [⟨[], cause⟩]

/-- The function and its argument are both read; the issues of both are listed. -/
def apply (f : Checked (α → β)) (x : Checked α) : Checked β :=
  match f, x with
  | .ok g, .ok a => .ok (g a)
  | .ok _, .refused issues => .refused issues
  | .refused issues, .ok _ => .refused issues
  | .refused first, .refused second => .refused (first ++ second)

instance : Applicative Checked where
  pure := .ok
  seq f x := apply f (x ())

/-- A value that was read is looked at further. -/
def andThen (x : Checked α) (next : α → Checked β) : Checked β :=
  match x with
  | .ok a => next a
  | .refused issues => .refused issues

/-- The issues of a part, as seen from the whole. -/
def under (step : Step) : Checked α → Checked α
  | .ok a => .ok a
  | .refused issues => .refused (issues.map fun issue => ⟨step :: issue.place, issue.cause⟩)

/-- A list of parts, all of them read. -/
def all : List (Checked α) → Checked (List α)
  | [] => .ok []
  | x :: rest => apply (apply (.ok List.cons) x) (all rest)

theorem apply_eq_ok_iff
    {f : Checked (α → β)}
    {x : Checked α}
    {b : β} :
    apply f x = .ok b ↔ ∃ g a, f = .ok g ∧ x = .ok a ∧ g a = b := by
  cases f <;> cases x <;> simp [apply]

theorem andThen_eq_ok_iff
    {x : Checked α}
    {next : α → Checked β}
    {b : β} :
    andThen x next = .ok b ↔ ∃ a, x = .ok a ∧ next a = .ok b := by
  cases x <;> simp [andThen]

theorem under_eq_ok_iff
    {step : Step}
    {x : Checked α}
    {a : α} :
    under step x = .ok a ↔ x = .ok a := by
  cases x <;> simp [under]

end Checked
end TraceArchive
