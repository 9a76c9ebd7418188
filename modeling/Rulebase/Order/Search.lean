/-!
# Search by halving

In a list ordered for a test, the elements that fail it stand before those that pass. Halving finds
where the first part ends; the members with a given key are then a window between two such ends.
-/

namespace Rulebase.Order

/-- The end of the elements that fail the test, between two indices. -/
def search {α : Type} (test : α → Bool) (xs : List α) (low high : Nat) : Nat :=
  if low < high then
    match xs[(low + high) / 2]? with
    | none => low
    | some x =>
      if test x then search test xs low ((low + high) / 2)
      else search test xs ((low + high) / 2 + 1) high
  else low
termination_by high - low

def search? {α ε : Type} (test : α → Except ε Bool) (xs : List α) (low high : Nat) : Except ε Nat :=
  if low < high then
    match xs[(low + high) / 2]? with
    | none => .ok low
    | some x =>
      match test x with
      | .error e => .error e
      | .ok true => search? test xs low ((low + high) / 2)
      | .ok false => search? test xs ((low + high) / 2 + 1) high
  else .ok low
termination_by high - low

variable {α κ : Type}

/-- Where an element with a key goes: after every element whose key does not come later. -/
def slot (before : κ → κ → Bool) (key : α → κ) (k : κ) (xs : List α) : Nat :=
  search (fun x => before k (key x)) xs 0 xs.length

/-- The elements that can have a key: a list of one element is taken whole, and a longer one is
searched for the window of the key. -/
def candidates (before : κ → κ → Bool) (key : α → κ) (k : κ) (xs : List α) : List α :=
  match xs with
  | [] => []
  | [x] => [x]
  | xs =>
    let low := search (fun x => !before (key x) k) xs 0 xs.length
    let high := search (fun x => before k (key x)) xs low xs.length
    (xs.drop low).take (high - low)

end Rulebase.Order
