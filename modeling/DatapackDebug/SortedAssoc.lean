namespace DatapackDebug

/-!
# Sorted association lists

Maps whose order an answer can show are lists of pairs, sorted by key, each key once.

* `SortedAssoc.insert` — the last value of a key wins;
* `SortedAssoc.find?`, `SortedAssoc.erase` — look-up and removal;
* `SortedAssoc.ofList` — all pairs of a list, inserted in order.
-/

namespace SortedAssoc

variable {κ α : Type}

/-- The list with the value of a key set. -/
def insert (cmp : κ → κ → Ordering) (k : κ) (v : α) : List (κ × α) → List (κ × α)
  | [] => [(k, v)]
  | (k', v') :: rest =>
    match cmp k k' with
    | .lt => (k, v) :: (k', v') :: rest
    | .eq => (k, v) :: rest
    | .gt => (k', v') :: insert cmp k v rest

/-- The value of a key. -/
def find? (cmp : κ → κ → Ordering) (k : κ) : List (κ × α) → Option α
  | [] => none
  | (k', v) :: rest => if cmp k k' == .eq then some v else find? cmp k rest

/-- The list without a key. -/
def erase (cmp : κ → κ → Ordering) (k : κ) (m : List (κ × α)) : List (κ × α) :=
  m.filter fun (k', _) => cmp k k' != .eq

/-- The pairs of a list by key; of pairs with the same key the last. -/
def ofList (cmp : κ → κ → Ordering) (pairs : List (κ × α)) : List (κ × α) :=
  pairs.foldl (fun m (k, v) => insert cmp k v m) []

end SortedAssoc

end DatapackDebug
