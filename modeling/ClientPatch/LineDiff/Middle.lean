import ClientPatch.LineDiff

/-!
# The middle of a shortest difference

Two lists span a grid: a step to the right drops an item of the old list, a step down takes one
of the new list, and where both items agree a diagonal step costs nothing. Searches from both
corners go one paid step further at a time and remember, for every diagonal, how far they came.
Where they meet lies the middle of a shortest path. The search only proposes a place to split
at; any place gives a correct difference.
-/

namespace ClientPatch

/-- How far a search came on each diagonal, from `-radius` on. -/
structure Reach where
  /-- The number of the first diagonal, negated. -/
  radius : Nat
  /-- The old items passed, by diagonal. -/
  passed : Array Nat

namespace Reach

/-- A search that has not begun. -/
def start (radius : Nat) : Reach := ⟨radius, Array.replicate (2 * radius + 1) 0⟩

/-- The old items passed on a diagonal. -/
def get (r : Reach) (k : Int) : Nat := r.passed.getD (k + r.radius).toNat 0

/-- Another number of old items passed on a diagonal. -/
def set (r : Reach) (k : Int) (x : Nat) : Reach :=
  { r with passed := r.passed.setIfInBounds (k + r.radius).toNat x }

/-- The old items passed when a search comes to diagonal `k` with its `d`-th paid step. -/
def enter (r : Reach) (d k : Int) : Nat :=
  if k = -d ∨ (k ≠ d ∧ r.get (k - 1) < r.get (k + 1)) then r.get (k + 1)
  else r.get (k - 1) + 1

end Reach

section Search

variable {α : Type} [DecidableEq α]

/-- The number of equal items from `x` in one and `y` in the other array; `fuel` bounds it. -/
def runLength (a b : Array α) : (fuel : Nat) → (x y : Nat) → Nat
  | 0, _, _ => 0
  | fuel + 1, x, y =>
    match a[x]?, b[y]? with
    | some u, some v => if u = v then runLength a b fuel (x + 1) (y + 1) + 1 else 0
    | _, _ => 0

/-- Follow the diagonals `ks` from one corner, one paid step further. `meets k x` tells whether
the other search was met on the way, and then the place where the free steps begin is given. -/
def advance (a b : Array α) (d : Int) (meets : Int → Nat → Bool) :
    List Int → Reach → Except (Nat × Nat × Nat) Reach
  | [], r => .ok r
  | k :: ks, r =>
    let x := r.enter d k
    let y := ((x : Int) - k).toNat
    let free := if x < a.size ∧ y < b.size then runLength a b a.size x y else 0
    let r := r.set k (x + free)
    if meets k (x + free) then .error (x, y, free) else advance a b d meets ks r

/-- The diagonals of the `d`-th paid step, from the highest down. -/
def diagonals (d : Nat) : List Int :=
  (List.range (d + 1)).map fun (i : Nat) => (d : Int) - 2 * (i : Int)

/-- Search from both corners from the `d`-th paid step on; `fuel` bounds their number. `ra` and
`rb` are the arrays read backwards. -/
def searchMiddle (a b ra rb : Array α) : (fuel d : Nat) → (forward backward : Reach) →
    Option (Nat × Nat)
  | 0, _, _, _ => none
  | fuel + 1, d, forward, backward =>
    let n := a.size
    let delta : Int := (n : Int) - b.size
    let odd := delta % 2 ≠ 0
    let meetsForward (k : Int) (x : Nat) : Bool :=
      odd && (k - delta).natAbs + 1 ≤ d && n ≤ x + backward.get (-(k - delta))
    match advance a b d meetsForward (diagonals d) forward with
    | .error (x, y, _) => some (x, y)
    | .ok forward =>
      let meetsBackward (k : Int) (x : Nat) : Bool :=
        !odd && (k - delta).natAbs ≤ d && n ≤ x + forward.get (-(k - delta))
      match advance ra rb d meetsBackward (diagonals d) backward with
      | .error (x, y, free) => some (n - (x + free), b.size - (y + free))
      | .ok backward => searchMiddle a b ra rb fuel (d + 1) forward backward

/-- A place in the middle of a shortest difference. -/
def middle (old new : List α) : Option (Nat × Nat) :=
  let steps := (old.length + new.length + 1) / 2 + 1
  searchMiddle old.toArray new.toArray old.reverse.toArray new.reverse.toArray steps 0
    (.start steps) (.start steps)

end Search

end ClientPatch
