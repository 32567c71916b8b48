import ClientPatch.Text

/-!
# Differences between two texts, line by line

A difference is a list of blocks of lines that are kept, removed or added. The kept and removed
blocks make up the old text and the kept and added blocks the new one; `oldLines` and `newLines`
read a difference so.
-/

namespace ClientPatch

/-- The lines of a text, each with its end: a line feed, a carriage return, or a carriage return
and a line feed. The last line may lack its end. -/
def linesOf : Text → List Text
  | [] => []
  | '\r' :: '\n' :: t => ['\r', '\n'] :: linesOf t
  | c :: t =>
    if c = '\n' ∨ c = '\r' then [c] :: linesOf t
    else
      match linesOf t with
      | [] => [[c]]
      | l :: ls => (c :: l) :: ls

/-- The lines make up the text. -/
theorem flatten_linesOf (t : Text) : (linesOf t).flatten = t := by
  fun_induction linesOf t with
  | case1 => rfl
  | case2 t ih => simp [ih]
  | case3 c t _ h ih => simp [ih]
  | case4 c t _ h hl ih => simp_all
  | case5 c t _ h l ls hl ih => simp_all

/-- A block of a difference. -/
inductive DiffBlock (α : Type) where
  /-- Items of both sides. -/
  | keep (items : List α)
  /-- Items of the old side. -/
  | remove (items : List α)
  /-- Items of the new side. -/
  | add (items : List α)
  deriving DecidableEq, Repr

namespace DiffBlock

variable {α : Type}

/-- The items of a block. -/
def items : DiffBlock α → List α
  | keep xs => xs
  | remove xs => xs
  | add xs => xs

/-- The items of a block on the old side. -/
def oldItems : DiffBlock α → List α
  | keep xs => xs
  | remove xs => xs
  | add _ => []

/-- The items of a block on the new side. -/
def newItems : DiffBlock α → List α
  | keep xs => xs
  | remove _ => []
  | add xs => xs

/-- The old side of a difference. -/
def oldLines (bs : List (DiffBlock α)) : List α := bs.flatMap oldItems

/-- The new side of a difference. -/
def newLines (bs : List (DiffBlock α)) : List α := bs.flatMap newItems

end DiffBlock

section CommonParts

variable {α : Type} [DecidableEq α]

/-- The longest common start of two lists. -/
def commonPrefix : List α → List α → List α
  | a :: as, b :: bs => if a = b then a :: commonPrefix as bs else []
  | _, _ => []

/-- The longest common end of two lists. -/
def commonSuffix (as bs : List α) : List α := (commonPrefix as.reverse bs.reverse).reverse

end CommonParts

end ClientPatch
