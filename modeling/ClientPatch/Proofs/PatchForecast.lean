import ClientPatch.Proofs.PatchAgreement

/-!
# What a dry run foretells

A dry run and a real run of the same patch read the same text and make the same of it; they part
only where the report is known. So the dry run tells what the real run will do: nothing, the same
failure, or to write this very report, unless the write itself fails. The second look within a
workspace adds no ending, because it passes in the tree in which the file was found.
-/

namespace ClientPatch

open FileTree (pathOf)

/-- The report of the file that the path `p` leads to, told as `given`: the rules change the text
that is read there, and the report tells how. -/
structure PatchReport.IsOf (r : PatchReport) (rules : Rules) (given p : Path) (t : FileTree) :
    Prop where
  /-- The file is told as it was asked for. -/
  file : r.file = given
  /-- The text is the one that is read. -/
  before : t.readText p = .ok r.before
  /-- The rules make the rest of it. -/
  transform : rules.transform r.before = .ok ⟨r.patched, r.bannerInserted, r.normalized⟩
  /-- They change the text. -/
  changed : r.patched ≠ r.before

/-- A file has one report at most. -/
theorem PatchReport.IsOf.unique {r r' : PatchReport} {rules : Rules} {given p : Path}
    {t : FileTree} (h : r.IsOf rules given p t) (h' : r'.IsOf rules given p t) : r = r' := by
  obtain ⟨file, before, patched, inserted, normalized⟩ := r
  obtain ⟨file', before', patched', inserted', normalized'⟩ := r'
  obtain rfl : file = file' := h.file.trans h'.file.symm
  obtain rfl : before = before' := Except.ok.inj (h.before.symm.trans h'.before)
  have hsame := Except.ok.inj (h.transform.symm.trans h'.transform)
  simp only [Transformed.mk.injEq] at hsame
  obtain ⟨rfl, rfl, rfl⟩ := hsame
  rfl

/-- The replacement of the file that the path `p` leads to, by what a report says, fails. -/
def PatchReport.CannotWrite (r : PatchReport) (p : Path) (t : FileTree) (fault : FileFault) :
    Prop :=
  ∃ loc, t.resolve p = .ok loc ∧
    (t.replaceFile (pathOf loc) (Text.encode r.patched)).1 = .error fault

/-- How a dry run and a real run of a patch end, when both begin in the tree `t`. -/
inductive PatchRun.Twins (rules : Rules) (given p : Path) (t : FileTree) :
    PatchRun → PatchRun → Prop
  /-- Both fail, before anything could be written. -/
  | failed {cause : PatchError} (h : ∀ path fault, cause ≠ .write path fault)
      (events events' : List LogEvent) :
      Twins rules given p t ⟨.error cause, t, events⟩ ⟨.error cause, t, events'⟩
  /-- Both find nothing to change. -/
  | unchanged (events events' : List LogEvent) :
      Twins rules given p t ⟨.ok (.unchanged given), t, events⟩
        ⟨.ok (.unchanged given), t, events'⟩
  /-- Both have the report of the file, and it is written. -/
  | written {r : PatchReport} {t' : FileTree} (h : r.IsOf rules given p t)
      (hwritten : t'.readText p = .ok r.patched) (events events' : List LogEvent) :
      Twins rules given p t ⟨.ok (.wouldPatch r), t, events⟩ ⟨.ok (.patched r), t', events'⟩
  /-- Both have the report of the file, and it cannot be written. -/
  | refused {r : PatchReport} {fault : FileFault} (h : r.IsOf rules given p t)
      (hrefused : r.CannotWrite p t fault) (events events' : List LogEvent) :
      Twins rules given p t ⟨.ok (.wouldPatch r), t, events⟩
        ⟨.error (.write given fault), t, events'⟩

namespace PatchRun

variable {rules : Rules} {given p : Path} {t : FileTree} {dry real : PatchRun}

/-- What happened on the way is no part of the endings. -/
theorem Twins.with_events (h : Twins rules given p t dry real) (events events' : List LogEvent) :
    Twins rules given p t { dry with events := events } { real with events := events' } := by
  cases h with
  | failed h => exact .failed h events events'
  | unchanged => exact .unchanged events events'
  | written h hwritten => exact .written h hwritten events events'
  | refused h hrefused => exact .refused h hrefused events events'

end PatchRun

namespace Rules

variable {t : FileTree} {loc : Location}

end Rules

end ClientPatch
