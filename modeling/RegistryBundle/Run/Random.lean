import RegistryBundle.Failure

/-!
# Random octets

A source of random octets delivers the octets of one endless stream, each octet once. A faithful
source delivers as many as asked for; any other may deliver fewer or more, or fail.

* `Randomness.draw` takes octets and moves on in the stream;
* `draw_faithful`: a faithful source delivers the next octets of its stream.
-/

namespace RegistryBundle

/-- What a source does when asked. -/
inductive Reply where
  /-- The next octets of the stream, this many. -/
  | octets (count : Nat)
  /-- The source fails. -/
  | failed
  /-- The source refuses the request. -/
  | refused
deriving DecidableEq, Repr

/-- A stream of octets, and what the source does at each request, by its number and its size. -/
structure RandomSource where
  octet : Nat → UInt8
  reply : Nat → Int → Reply

namespace RandomSource

/-- A source that delivers as many octets as asked for. -/
def Faithful (s : RandomSource) : Prop :=
  ∀ request count, s.reply request (count : Nat) = .octets count

/-- The octets of the stream from a position on. -/
def octets (s : RandomSource) (position count : Nat) : List UInt8 :=
  (List.range count).map fun i => s.octet (position + i)

end RandomSource

/-- A source with what was taken from it. -/
structure Randomness where
  source : RandomSource
  /-- How many octets of the stream were delivered. -/
  position : Nat := 0
  /-- How many requests were made. -/
  requests : Nat := 0

namespace Randomness

/-- Octets asked for, and the source after that. -/
def draw (r : Randomness) (size : Int) : Except Failure (List UInt8) × Randomness :=
  let after := { r with requests := r.requests + 1 }
  match r.source.reply r.requests size with
  | .octets count => (.ok (r.source.octets r.position count),
      { after with position := r.position + count })
  | .failed => (.error (.random .failed), after)
  | .refused => (.error (.breach .range), after)

/-- A faithful source delivers the next octets of its stream. -/
theorem draw_faithful {r : Randomness} (h : r.source.Faithful) (count : Nat) :
    r.draw (count : Int) = (.ok (r.source.octets r.position count),
      { r with position := r.position + count, requests := r.requests + 1 }) := by
  simp [draw, h r.requests count]

end Randomness

end RegistryBundle
