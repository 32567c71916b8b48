import ClientPatch.LineDiff.Middle

/-!
# The difference of two lists

The common start and the common end are kept. What is left is split in the middle of a shortest
path and each half is treated alike. Then the blocks are tidied: an added block slides over kept
items equal to its own, first up as far as it goes and then down, and joins blocks of its kind
on the way. At last, between two kept blocks, what is removed is told before what is added.
-/

namespace ClientPatch

section Split

variable {α : Type} [DecidableEq α]

/-- A block of items, unless there are none. -/
def blockOf (make : List α → DiffBlock α) (items : List α) : List (DiffBlock α) :=
  if items.isEmpty then [] else [make items]

/-- The difference of two lists by repeated halving, at most `fuel` deep. -/
def halve : (fuel : Nat) → (old new : List α) → List (DiffBlock α)
  | 0, old, new => blockOf .remove old ++ blockOf .add new
  | fuel + 1, old, new =>
    let front := commonPrefix old new
    let old := old.drop front.length
    let new := new.drop front.length
    let back := commonSuffix old new
    let old := old.take (old.length - back.length)
    let new := new.take (new.length - back.length)
    let between :=
      if old.isEmpty || new.isEmpty then blockOf .remove old ++ blockOf .add new
      else
        match middle old new with
        | some (x, y) =>
          halve fuel (old.take x) (new.take y) ++ halve fuel (old.drop x) (new.drop y)
        | none => blockOf .remove old ++ blockOf .add new
    blockOf .keep front ++ between ++ blockOf .keep back

end Split

section Slide

variable {α : Type} [DecidableEq α]

/-- A difference with one of its blocks in view. -/
structure BlockView (α : Type) where
  /-- The blocks before, the nearest first. -/
  before : List (DiffBlock α)
  /-- The block in view. -/
  block : DiffBlock α
  /-- The blocks behind. -/
  after : List (DiffBlock α)

/-- The whole difference. -/
def BlockView.blocks (v : BlockView α) : List (DiffBlock α) :=
  v.before.reverse ++ v.block :: v.after

/-- Keep `items` in front of blocks; a kept block there takes them in. -/
def keepBefore (items : List α) : List (DiffBlock α) → List (DiffBlock α)
  | .keep xs :: bs => .keep (items ++ xs) :: bs
  | bs => .keep items :: bs

/-- Keep `items` behind blocks that are read backwards; a kept block there takes them in. -/
def keepAfter (items : List α) : List (DiffBlock α) → List (DiffBlock α)
  | .keep xs :: bs => .keep (xs ++ items) :: bs
  | bs => .keep items :: bs

/-- Move the block in view up past one block, or part of one; nothing when it cannot move. -/
def BlockView.up (v : BlockView α) : Option (BlockView α) :=
  match v.before, v.block with
  | .keep xs :: bs, .add ys =>
    let shared := commonSuffix xs ys
    let rest := xs.take (xs.length - shared.length)
    if shared.isEmpty then
      if xs.isEmpty then some ⟨bs, .add ys, v.after⟩ else none
    else
      some ⟨blockOf .keep rest ++ bs,
        .add (shared ++ ys.take (ys.length - shared.length)), keepBefore shared v.after⟩
  | .keep xs :: bs, .remove ys => if xs.isEmpty then some ⟨bs, .remove ys, v.after⟩ else none
  | .remove xs :: bs, .add ys => some ⟨bs, .add ys, .remove xs :: v.after⟩
  | .add xs :: bs, .remove ys => some ⟨bs, .remove ys, .add xs :: v.after⟩
  | .add xs :: bs, .add ys => some ⟨bs, .add (xs ++ ys), v.after⟩
  | .remove xs :: bs, .remove ys => some ⟨bs, .remove (xs ++ ys), v.after⟩
  | _, _ => none

/-- Move the block in view down past one block, or part of one; nothing when it cannot move. -/
def BlockView.down (v : BlockView α) : Option (BlockView α) :=
  match v.after, v.block with
  | .keep xs :: bs, .add ys =>
    let shared := commonPrefix xs ys
    let rest := xs.drop shared.length
    if shared.isEmpty then
      if xs.isEmpty then some ⟨v.before, .add ys, bs⟩ else none
    else
      some ⟨keepAfter shared v.before, .add (ys.drop shared.length ++ shared),
        blockOf .keep rest ++ bs⟩
  | .keep xs :: bs, .remove ys => if xs.isEmpty then some ⟨v.before, .remove ys, bs⟩ else none
  | .remove xs :: bs, .add ys => some ⟨.remove xs :: v.before, .add ys, bs⟩
  | .add xs :: bs, .remove ys => some ⟨.add xs :: v.before, .remove ys, bs⟩
  | .add xs :: bs, .add ys => some ⟨v.before, .add (ys ++ xs), bs⟩
  | .remove xs :: bs, .remove ys => some ⟨v.before, .remove (ys ++ xs), bs⟩
  | _, _ => none

/-- Repeat a move until it cannot be made, at most `fuel` times. -/
def exhaust (move : BlockView α → Option (BlockView α)) : (fuel : Nat) → BlockView α →
    BlockView α
  | 0, v => v
  | fuel + 1, v =>
    match move v with
    | some v => exhaust move fuel v
    | none => v

/-- Slide every block of one kind up and then down; `fuel` bounds the moves and the blocks. -/
def slideAll (bound : Nat) (isKind : DiffBlock α → Bool) : (fuel : Nat) →
    (before after : List (DiffBlock α)) → List (DiffBlock α)
  | 0, before, after => before.reverse ++ after
  | _, before, [] => before.reverse
  | fuel + 1, before, b :: after =>
    if isKind b then
      let v := exhaust BlockView.down bound (exhaust BlockView.up bound ⟨before, b, after⟩)
      slideAll bound isKind fuel (v.block :: v.before) v.after
    else slideAll bound isKind fuel (b :: before) after

/-- Whether a block is removed. -/
def DiffBlock.isRemove : DiffBlock α → Bool
  | .remove _ => true
  | _ => false

/-- Whether a block is added. -/
def DiffBlock.isAdd : DiffBlock α → Bool
  | .add _ => true
  | _ => false

/-- The removed blocks slid first, then the added ones. -/
def slide (bs : List (DiffBlock α)) : List (DiffBlock α) :=
  let bound := bs.length + 2 * (bs.flatMap DiffBlock.items).length + 1
  let bs := slideAll bound DiffBlock.isRemove (3 * bound) [] bs
  slideAll bound DiffBlock.isAdd (3 * bound) [] bs

end Slide

section Order

variable {α : Type}

/-- Between kept blocks, what is removed before what is added. -/
def orderBlocks (removed added : List α) : List (DiffBlock α) → List (DiffBlock α)
  | [] => [.remove removed, .add added]
  | .keep xs :: bs => .remove removed :: .add added :: .keep xs :: orderBlocks [] [] bs
  | .remove xs :: bs => orderBlocks (removed ++ xs) added bs
  | .add xs :: bs => orderBlocks removed (added ++ xs) bs

end Order

section Difference

variable {α : Type} [DecidableEq α]

/-- The difference of two lists. -/
def difference (old new : List α) : List (DiffBlock α) :=
  orderBlocks [] [] (slide (halve (old.length + new.length + 1) old new))

end Difference

/-- A line that one side of a difference has and the other has not. -/
structure LineChange where
  /-- Whether the line is of the new text. -/
  isAdded : Bool
  /-- The line, with its end if it has one. -/
  line : Text
  deriving DecidableEq, Repr

/-- The changed lines of a block. -/
def DiffBlock.changes : DiffBlock Text → List LineChange
  | .keep _ => []
  | .remove ls => ls.map (⟨false, ·⟩)
  | .add ls => ls.map (⟨true, ·⟩)

/-- The changed lines between two texts, in order. -/
def lineChanges (old new : Text) : List LineChange :=
  (difference (linesOf old) (linesOf new)).flatMap DiffBlock.changes

end ClientPatch
