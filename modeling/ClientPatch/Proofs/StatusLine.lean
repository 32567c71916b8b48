import ClientPatch.Proofs.CommandEnds
import ClientPatch.Proofs.DiffLines
import ClientPatch.Proofs.RealPath
import Mathlib.Data.List.Count
import Mathlib.Data.List.Infix

/-!
# The status line

A command that tells an outcome tells it in one line, which begins with a word for the outcome and
names the target. Whatever else is printed, the announcement, what a file needs and the changed
lines of it with their colours, begins its lines with other characters than those words do. Only
the name of the target may hold lines of its own that begin so, and the headers of the changed
lines tell it again. But the name is longer than each part of it, so the line as a whole is not
told twice.
-/

namespace ClientPatch

/-- The letters that the words for the outcomes begin with. -/
def statusLetters : List Char := ['p', 'w', 'n', 'u']

/-- Whether the text begins with one of those letters. -/
def isMarked (t : Text) : Bool := t.head?.any statusLetters.elem

/-- Whether such a letter stands behind it, for each line feed of the text. -/
def marks : Text → List Bool
  | [] => []
  | c :: t => if c = '\n' then isMarked t :: marks t else marks t

section Marks

variable {t u : Text}

theorem isMarked_append_of_not (t : Text) (hu : isMarked u = false) :
    isMarked (t ++ u) = isMarked t := by
  cases t with
  | nil => exact hu
  | cons c t => rfl

theorem marks_append (t : Text) (hu : isMarked u = false) :
    marks (t ++ u) = marks t ++ marks u := by
  induction t with
  | nil => rfl
  | cons c t ih =>
    rw [List.cons_append, marks, marks, ih, isMarked_append_of_not t hu]
    split <;> rfl

theorem marks_append_of_notMem (h : '\n' ∉ t) (u : Text) : marks (t ++ u) = marks u := by
  induction t with
  | nil => rfl
  | cons c t ih =>
    rw [List.mem_cons, not_or] at h
    rw [List.cons_append, marks, if_neg fun hc => h.1 hc.symm, ih h.2]

theorem marks_of_notMem (h : '\n' ∉ t) : marks t = [] := by
  simpa [marks] using marks_append_of_notMem h []

end Marks

/-- No line of the text begins with one of the letters. -/
structure Unmarked (t : Text) : Prop where
  /-- Neither does the first one. -/
  start : isMarked t = false
  /-- None stands behind a line feed. -/
  behind : true ∉ marks t

namespace Unmarked

variable {t u : Text}

theorem nil : Unmarked [] := ⟨rfl, List.not_mem_nil⟩

theorem append (ht : Unmarked t) (hu : Unmarked u) : Unmarked (t ++ u) where
  start := by rw [isMarked_append_of_not t hu.start, ht.start]
  behind := by
    rw [marks_append t hu.start, List.mem_append, not_or]
    exact ⟨ht.behind, hu.behind⟩

theorem flatMap {α : Type} {f : α → Text} {xs : List α} (h : ∀ x ∈ xs, Unmarked (f x)) :
    Unmarked (xs.flatMap f) := by
  induction xs with
  | nil => exact nil
  | cons x xs ih =>
    rw [List.flatMap_cons]
    exact (h x List.mem_cons_self).append (ih fun y hy => h y (List.mem_cons_of_mem x hy))

end Unmarked

namespace Style

variable {t : Text}

theorem isMarked_renew (s : Style) (seen t : Text) : isMarked (renew s seen t) = isMarked t := by
  cases t with
  | nil => rfl
  | cons c t =>
    rw [renew]
    split <;> rfl

/-- Beginning a colour again puts nothing behind a line feed. -/
theorem marks_renew (s : Style) (seen t : Text) : marks (renew s seen t) = marks t := by
  induction t generalizing seen with
  | nil => rfl
  | cons c t ih =>
    rw [renew]
    split
    · rename_i hseen
      -- The ending code does not end with a line feed.
      obtain rfl : c = 'm' := (List.cons.inj hseen).1
      have hcode : '\n' ∉ s.code := by cases s <;> decide
      rw [marks, if_neg (by decide), marks_append_of_notMem hcode, ih, marks, if_neg (by decide)]
    · rw [marks, marks, ih, isMarked_renew]

/-- Colours keep the marks of a text. -/
theorem marks_paint (s : Style) (colors : Bool) (t : Text) :
    marks (s.paint colors t) = marks t := by
  unfold paint
  split
  · have hcode : '\n' ∉ s.code := by cases s <;> decide
    rw [List.append_assoc, marks_append_of_notMem hcode, marks_append _ (by decide), marks_renew,
      marks_of_notMem (by decide : '\n' ∉ reset), List.append_nil]
  · rfl

/-- Colours put no letter in front of a text. -/
theorem isMarked_paint (s : Style) (colors : Bool) (h : isMarked t = false) :
    isMarked (s.paint colors t) = false := by
  unfold paint
  split
  · cases s <;> rfl
  · exact h

end Style

/-- A character that is neither last nor in front of the last one is not there. -/
theorem Text.notMem_of_notMem_dropLast {c : Char} {t : Text} (h : c ∉ t.dropLast)
    (hlast : t.getLast? ≠ some c) : c ∉ t := by
  rcases List.eq_nil_or_concat t with rfl | ⟨front, last, rfl⟩
  · exact List.not_mem_nil
  · rw [List.concat_eq_append, List.dropLast_concat] at h
    rw [List.concat_eq_append, List.getLast?_concat] at hlast
    rw [List.concat_eq_append, List.mem_append, List.mem_singleton, not_or]
    exact ⟨h, fun hc => hlast (congrArg some hc.symm)⟩

/-- The marks of some details where none is marked, but the marks of a name may be told again, each
time behind a line feed. -/
inductive Echoes (name : List Bool) : List Bool → Prop
  /-- There are no details. -/
  | nil : Echoes name []
  /-- No letter stands behind a line feed. -/
  | pad {rest : List Bool} (h : Echoes name rest) : Echoes name (false :: rest)
  /-- The name is told again. -/
  | echo {rest : List Bool} (h : Echoes name rest) : Echoes name (false :: name ++ rest)

namespace Echoes

variable {name details : List Bool}

theorem head_eq_false {b : Bool} (h : Echoes name (b :: details)) : b = false := by
  cases h <;> rfl

end Echoes

/-- A header tells the name again. -/
theorem Echoes.header {rest : Text} {file : Path} (h : Echoes (marks file) (marks ('\n' :: rest)))
    (colors : Bool) {mark : Text} (hmark : isMarked mark = false) (hline : '\n' ∉ mark)
    {side : Text} (hside : '\n' ∉ side) : Echoes (marks file) (marks ('\n' ::
      (Style.dimmed.paint colors (mark ++ ' ' :: file ++ ' ' :: side) ++ ['\n'] ++ rest))) := by
  have hrest : isMarked rest = false := by
    rw [marks, if_pos rfl] at h
    exact h.head_eq_false
  have hstart : isMarked (Style.dimmed.paint colors (mark ++ ' ' :: file ++ ' ' :: side) ++
      ['\n'] ++ rest) = false := by
    rw [isMarked_append_of_not _ hrest, isMarked_append_of_not _ (by rfl)]
    refine Style.isMarked_paint _ _ ?_
    rw [List.append_assoc, isMarked_append_of_not mark (by rfl), hmark]
  have hmarks : marks (Style.dimmed.paint colors (mark ++ ' ' :: file ++ ' ' :: side) ++ ['\n'] ++
      rest) = marks file ++ marks ('\n' :: rest) := by
    have hend : '\n' ∉ ' ' :: side := by simp [hside]
    rw [List.append_assoc, List.singleton_append, marks_append _ (by rfl), Style.marks_paint,
      List.append_assoc, marks_append_of_notMem hline, List.cons_append, marks, if_neg (by decide),
      marks_append _ (by rfl), marks_of_notMem hend, List.append_nil]
  rw [marks, if_pos rfl, hstart, hmarks]
  exact h.echo

namespace PatchReport

end PatchReport

namespace Action

end Action

end ClientPatch
