import RegistryBundle.Value.Basic

/-!
# The order of keys

A mapping is written with its keys in ascending order, if they can be compared with each other:
numbers by what they denote, texts by code points, bytes by octets, dates and moments by time. Keys
of two kinds cannot be compared, and then the entries keep the order in which they were made.

* `Value.before?` compares two keys;
* `Value.sortByKey` puts entries in that order.

A NaN compares with nothing, so among keys with a NaN the order is the one that insertion
by halving leaves behind.
-/

namespace RegistryBundle

/-- The elements up to the first that breaks `keep` with its predecessor, and the rest. -/
def spanRun (keep : α → α → Bool) (previous : α) : List α → List α × List α
  | [] => ([], [])
  | x :: rest =>
    if keep previous x then
      let (run, tail) := spanRun keep x rest
      (x :: run, tail)
    else ([], x :: rest)

/-- The place for `x` after everything it is not below, found by halving the
range from `low` to `high`. -/
def placeByHalving (below : α → α → Bool) (sorted : Array α) (x : α) : Nat → Nat → Nat → Nat
  | 0, low, _ => low
  | fuel + 1, low, high =>
    if low < high then
      let mid := (low + high) / 2
      match sorted[mid]? with
      | some y =>
        if below x y then placeByHalving below sorted x fuel low mid
        else placeByHalving below sorted x fuel (mid + 1) high
      | none => low
    else low

/-- Sorting by insertion: the first run stays, turned round if it falls, and each later element goes
to its place by halving. -/
def insertionSort (below : α → α → Bool) : List α → List α
  | [] => []
  | [x] => [x]
  | x :: y :: rest =>
    let (run, tail) :=
      if below y x then
        let (run, tail) := spanRun (fun a b => below b a) y rest
        ((x :: y :: run).reverse, tail)
      else
        let (run, tail) := spanRun (fun a b => !below b a) y rest
        (x :: y :: run, tail)
    tail.foldl (fun sorted z =>
      let place := placeByHalving below sorted.toArray z sorted.length 0 sorted.length
      sorted.take place ++ z :: sorted.drop place) run

namespace Value

/-- Whether one key stands before another; none if the two cannot be compared. -/
def before? (a b : Value) : Option Bool :=
  match a.bare, b.bare with
  | str s, str t => some (s < t)
  | bytes x, bytes y => some (x.toList < y.toList)
  | date x, date y => some (x.dayNumber < y.dayNumber)
  | moment x, moment y =>
    if x.offset.isSome == y.offset.isSome then
      some (x.universalSeconds < y.universalSeconds ||
        (x.universalSeconds == y.universalSeconds && x.microsecond < y.microsecond))
    else none
  | x, y =>
    match x.quantity?, y.quantity? with
    | some p, some q => some (p.compare q == some .lt)
    | _, _ => none

/-- Whether one key stands before another, keys that cannot be compared never. -/
def before (a b : Value) : Bool :=
  (before? a b).getD false

/-- Whether a key is a NaN. -/
def isNaN (v : Value) : Bool :=
  match v.bare with
  | float .nan => true
  | _ => false

/-- The entries by ascending key, if all keys can be compared with the first; what a
key carries goes with it. -/
def sortByKey (entries : List (Value × α)) : List (Value × α) :=
  match entries with
  | [] => []
  | [e] => [e]
  | e :: rest =>
    if rest.all fun f => (before? e.1 f.1).isSome then
      if entries.any fun f => f.1.isNaN then insertionSort (fun f g => before f.1 g.1) entries
      else entries.mergeSort fun f g => !before g.1 f.1
    else entries

end Value

end RegistryBundle
