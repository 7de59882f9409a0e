import RegistryBundle.Value.Basic

/-!
# Located issues

A document is checked against a schema as a whole: every part that does not fit is reported, each
with the way to it.

* `Checked` is a value or all issues; its applicative structure collects the issues of
  all parts (`issues_seq`);
* `Checked.under` puts a step in front of the way to each issue.
-/

namespace RegistryBundle

/-- What does not fit at a place. -/
inductive IssueKind where
  | missing
  | textExpected
  | textEncoding
  | octetsExpected
  | wholeExpected
  | wholeUnreadable
  | wholeFromFraction
  | wholeTooLarge
  | notFinite
  | truthExpected
  | truthUnreadable
  | listExpected
  | mappingExpected
  | recordExpected
  /-- A value that the schema refuses although its type fits. -/
  | refused
deriving DecidableEq, Repr

/-- One step on the way to a place. -/
inductive Step where
  | name (s : String)
  | index (n : Int)
deriving DecidableEq, Repr

/-- What does not fit, and where. -/
structure Issue where
  kind : IssueKind
  path : List Step
deriving DecidableEq, Repr

/-- A value, or everything that does not fit. -/
inductive Checked (α : Type) where
  | fits (a : α)
  | issues (all : List Issue)
deriving Repr

namespace Checked

/-- The issues of a check. -/
def all : Checked α → List Issue
  | fits _ => []
  | issues all => all

/-- A single issue, at the place itself. -/
def issue (kind : IssueKind) : Checked α :=
  issues [⟨kind, []⟩]

/-- A function of the value. -/
def map (f : α → β) : Checked α → Checked β
  | fits a => fits (f a)
  | issues all => issues all

/-- A function and its argument, with the issues of both. -/
def seq (f : Checked (α → β)) (x : Unit → Checked α) : Checked β :=
  match f, x () with
  | fits f, fits a => fits (f a)
  | fits _, issues all => issues all
  | issues all, fits _ => issues all
  | issues these, issues those => issues (these ++ those)

instance : Applicative Checked where
  pure := fits
  map := map
  seq := seq

/-- A further check of a value that fits. -/
def andThen (x : Checked α) (f : α → Checked β) : Checked β :=
  match x with
  | fits a => f a
  | issues all => issues all

/-- The issues one step further away. -/
def under (step : Step) : Checked α → Checked α
  | fits a => fits a
  | issues all => issues (all.map fun i => { i with path := step :: i.path })

/-- Each of several checks. -/
def each : List (Checked α) → Checked (List α)
  | [] => pure []
  | x :: rest => List.cons <$> x <*> each rest

/-- A check of two parts reports the issues of both. -/
theorem issues_seq (f : Checked (α → β)) (x : Checked α) : (f <*> x).all = f.all ++ x.all := by
  cases f <;> cases x <;> simp [Seq.seq, seq, all]

end Checked

end RegistryBundle
