import ClientPatch.Proofs.StatusLine

/-!
# How changed lines are printed

Under the two headers every changed line is printed behind its sign, as one line of output. A line
that has no line feed is given one, and then an empty line follows it. Only the last line of a text
can lack its line feed, so there are at most two empty lines, one for each side, and none for a text
that ends with a line feed.
-/

namespace ClientPatch

/-- There is a mark for every line feed. -/
theorem length_marks (t : Text) : (marks t).length = t.count '\n' := by
  induction t with
  | nil => rfl
  | cons c t ih =>
    rw [marks]
    split
    · rename_i hc
      rw [hc, List.length_cons, ih, List.count_cons_self]
    · rename_i hc
      rw [ih, List.count_cons_of_ne hc]

/-- Colours come without line feeds. -/
theorem Style.count_lineFeed_paint (s : Style) (colors : Bool) (t : Text) :
    (s.paint colors t).count '\n' = t.count '\n' := by
  rw [← length_marks, marks_paint, length_marks]

/-- Without carriage returns a text has at most one line that has no line feed. -/
theorem length_filter_linesOf_le {t : Text} (ht : '\r' ∉ t) :
    ((linesOf t).filter fun l => l.getLast? ≠ some '\n').length ≤ 1 := by
  have hended {l : Text} (h : l ∈ (linesOf t).dropLast) := getLast?_of_mem_dropLast_linesOf ht h
  rcases List.eq_nil_or_concat (linesOf t) with hlines | ⟨front, last, hlines⟩
  · rw [hlines]
    exact Nat.zero_le 1
  · rw [hlines, List.concat_eq_append, List.dropLast_concat] at hended
    rw [hlines, List.concat_eq_append, List.filter_append,
      List.filter_eq_nil_iff.2 fun l hl => by simp [hended hl], List.nil_append]
    exact List.length_filter_le _ _

namespace LineChange

/-- The sign of the side that the line is of. -/
def sign (c : LineChange) : Char := if c.isAdded then '+' else '-'

/-- The colour of that side. -/
def style (c : LineChange) : Style := if c.isAdded then .green else .red

/-- The line has its line feed. -/
def IsEnded (c : LineChange) : Prop := c.line.getLast? = some '\n'

instance (c : LineChange) : Decidable c.IsEnded := inferInstanceAs (Decidable (_ = _))

/-- The line without its line feed. -/
def bare (c : LineChange) : Text := if c.IsEnded then c.line.dropLast else c.line

/-- The change as one line of output. -/
def asLine (colors : Bool) (c : LineChange) : Text :=
  c.style.paint colors (c.sign :: c.bare ++ ['\n'])

variable {c : LineChange}

/-- A change is shown as one line, and an empty line follows where the line has no line feed. -/
theorem shown_eq (h : '\r' ∉ c.line) (colors : Bool) :
    c.shown colors = c.asLine colors ++ if c.IsEnded then [] else ['\n'] := by
  unfold shown asLine
  by_cases hended : c.IsEnded
  · have hline : c.line.dropLast ++ ['\n'] = c.line := List.dropLast_append_getLast? _ hended
    have htest : (c.line.getLast? == some '\n' || c.line.getLast? == some '\r') = true := by
      rw [hended]
      rfl
    rw [bare, if_pos hended, if_pos hended, List.append_nil, List.cons_append, hline]
    simp only [htest, if_true]
    rfl
  · have htest : (c.line.getLast? == some '\n' || c.line.getLast? == some '\r') = false := by
      have hfeed : c.line.getLast? ≠ some '\n' := hended
      have hreturn : c.line.getLast? ≠ some '\r' := fun hlast => h (List.mem_of_getLast? hlast)
      simp [hfeed, hreturn]
    rw [bare, if_neg hended, if_neg hended]
    simp only [htest]
    rfl

/-- It is one line indeed. -/
theorem count_lineFeed_asLine {t : Text} (h : c.line ∈ linesOf t) (colors : Bool) :
    (c.asLine colors).count '\n' = 1 := by
  have hsign : c.sign ≠ '\n' := by
    unfold sign
    split <;> decide
  have hbare : '\n' ∉ c.bare := by
    unfold bare
    split
    · exact lineFeed_notMem_dropLast h
    · rename_i hended
      exact Text.notMem_of_notMem_dropLast (lineFeed_notMem_dropLast h) hended
  rw [asLine, Style.count_lineFeed_paint, List.count_append, List.count_cons_of_ne hsign,
    List.count_eq_zero_of_not_mem hbare]
  rfl

end LineChange

namespace PatchReport

/-- The text of one side. -/
def side (r : PatchReport) (isAdded : Bool) : Text := if isAdded then r.patched else r.before

/-- The changed lines of a report. -/
def changes (r : PatchReport) : List LineChange := lineChanges r.before r.patched

/-- The changed lines that have no line feed. -/
def unended (r : PatchReport) : List LineChange := r.changes.filter fun c => ¬c.IsEnded

/-- The line that names one side of a difference. -/
def headerLine (colors : Bool) (file : Path) (mark side : Text) : Text :=
  Style.dimmed.paint colors (mark ++ ' ' :: file ++ ' ' :: side) ++ ['\n']

/-- What stands in front of the changed lines. -/
def diffHeader (colors : Bool) (r : PatchReport) : Text :=
  '\n' :: headerLine colors r.file "---".toList "(original)".toList ++
    headerLine colors r.file "+++".toList "(patched)".toList

theorem diff_eq (r : PatchReport) (colors : Bool) :
    r.diff colors = r.diffHeader colors ++ r.changes.flatMap (LineChange.shown colors) := rfl

variable {r : PatchReport} {c : LineChange}

theorem line_mem_of_mem_changes (h : c ∈ r.changes) : c.line ∈ linesOf (r.side c.isAdded) :=
  line_mem_of_mem_lineChanges h

/-- Without carriage returns a line that has no line feed is the last one of its side, and its side
has no line feed at its end. -/
theorem last_of_not_isEnded (hside : '\r' ∉ r.side c.isAdded) (h : c ∈ r.changes)
    (hended : ¬c.IsEnded) :
    (linesOf (r.side c.isAdded)).getLast? = some c.line ∧
      (r.side c.isAdded).getLast? ≠ some '\n' := by
  have hline := line_mem_of_mem_changes h
  obtain ⟨front, last, hlines⟩ :=
    (List.eq_nil_or_concat (linesOf (r.side c.isAdded))).resolve_left (List.ne_nil_of_mem hline)
  rw [List.concat_eq_append] at hlines
  have hfront : c.line ∉ front := fun hmem =>
    hended (getLast?_of_mem_dropLast_linesOf hside (by rwa [hlines, List.dropLast_concat]))
  obtain rfl : c.line = last := by
    rw [hlines] at hline
    exact List.mem_singleton.1 ((List.mem_append.1 hline).resolve_left hfront)
  refine ⟨by rw [hlines, List.getLast?_concat], fun hlast => hended ?_⟩
  rw [← flatten_linesOf (r.side c.isAdded), hlines, List.flatten_append, List.flatten_singleton,
    List.getLast?_append_of_ne_nil _ (ne_nil_of_mem_linesOf hline)] at hlast
  exact hlast

/-- One side has at most one changed line without a line feed. -/
theorem length_ofSide_unended_le {isAdded : Bool} (hside : '\r' ∉ r.side isAdded) :
    (LineChange.ofSide isAdded r.unended).length ≤ 1 := by
  have hunended : LineChange.ofSide isAdded r.unended =
      (LineChange.ofSide isAdded r.changes).filter fun l => l.getLast? ≠ some '\n' := by
    simp only [LineChange.ofSide, unended, List.filter_map, List.filter_filter, Bool.and_comm]
    rfl
  calc (LineChange.ofSide isAdded r.unended).length
    _ ≤ ((linesOf (r.side isAdded)).filter fun l => l.getLast? ≠ some '\n').length := by
      rw [hunended]
      exact ((ofSide_lineChanges_sublist isAdded r.before r.patched).filter _).length_le
    _ ≤ 1 := length_filter_linesOf_le hside

/-- How the changed lines of a report are told under the headers. -/
structure TellsChanges (r : PatchReport) (colors : Bool) (body : Text) : Prop where
  /-- Each as one line, with an empty line behind it where the line has no line feed. -/
  lines : body = r.changes.flatMap fun c => c.asLine colors ++ if c.IsEnded then [] else ['\n']
  /-- So many lines are told. -/
  count : body.count '\n' = r.changes.length + r.unended.length
  /-- They are one for each change exactly when every changed line has its line feed. -/
  exact_iff : body = r.changes.flatMap (LineChange.asLine colors) ↔ r.unended = []
  /-- A changed line without a line feed is the last one of its side, which ends without one. -/
  last : ∀ c ∈ r.unended, (linesOf (r.side c.isAdded)).getLast? = some c.line ∧
    (r.side c.isAdded).getLast? ≠ some '\n'
  /-- There is at most one on each side. -/
  few : ∀ isAdded, (LineChange.ofSide isAdded r.unended).length ≤ 1

/-- So many line feeds are printed when every change is one line. -/
theorem count_lineFeed_asLines (r : PatchReport) (colors : Bool) :
    (r.changes.flatMap (LineChange.asLine colors)).count '\n' = r.changes.length := by
  have hone : r.changes.map (fun c => (c.asLine colors).count '\n') = r.changes.map fun _ => 1 :=
    List.map_congr_left fun c hc =>
      LineChange.count_lineFeed_asLine (line_mem_of_mem_changes hc) colors
  rw [List.count_flatMap, Function.comp_def, hone]
  simp

/-- Every empty line is one more. -/
theorem count_lineFeed_append_surplus (cs : List LineChange) (f : LineChange → Text) :
    (cs.flatMap fun c => f c ++ if c.IsEnded then [] else ['\n']).count '\n' =
      (cs.flatMap f).count '\n' + (cs.filter fun c => ¬c.IsEnded).length := by
  induction cs with
  | nil => rfl
  | cons c cs ih =>
    rw [List.flatMap_cons, List.flatMap_cons, List.count_append, List.count_append,
      List.count_append, ih]
    by_cases hended : c.IsEnded
    · simp [hended]
      omega
    · simp [hended]
      omega

/-- The difference of a report tells its changes line by line, with an empty line behind a line that
has no line feed. -/
theorem diff_told (r : PatchReport) (hbefore : '\r' ∉ r.before) (hpatched : '\r' ∉ r.patched)
    (colors : Bool) :
    ∃ body, r.diff colors = r.diffHeader colors ++ body ∧ r.TellsChanges colors body := by
  have hside : ∀ isAdded, '\r' ∉ r.side isAdded := by
    intro isAdded
    cases isAdded with
    | false => exact hbefore
    | true => exact hpatched
  have hlines : r.changes.flatMap (LineChange.shown colors) =
      r.changes.flatMap fun c => c.asLine colors ++ if c.IsEnded then [] else ['\n'] :=
    List.flatMap_congr fun c hc => LineChange.shown_eq
      (fun hreturn => hside c.isAdded (mem_of_mem_linesOf (line_mem_of_mem_changes hc) hreturn))
      colors
  have hcount : (r.changes.flatMap (LineChange.shown colors)).count '\n' =
      r.changes.length + r.unended.length := by
    rw [hlines, count_lineFeed_append_surplus, count_lineFeed_asLines]
    rfl
  refine ⟨_, r.diff_eq colors, hlines, hcount, ⟨?_, ?_⟩, ?_, ?_⟩
  · intro hbody
    rw [hbody, count_lineFeed_asLines] at hcount
    exact List.eq_nil_of_length_eq_zero (by omega)
  · intro hnil
    refine hlines.trans (List.flatMap_congr fun c hc => ?_)
    have hended : c.IsEnded := by
      simpa using List.filter_eq_nil_iff.1 hnil c hc
    rw [if_pos hended, List.append_nil]
  · intro c hc
    obtain ⟨hmem, hended⟩ := List.mem_filter.1 hc
    exact last_of_not_isEnded (hside c.isAdded) hmem (by simpa using hended)
  · exact fun isAdded => length_ofSide_unended_le (hside isAdded)

/-- Neither side of this report ends with a line feed. -/
def unendedReport : PatchReport where
  file := "client.ts".toList
  before := "import { z }\nz.record(A)".toList
  patched := "import { z }\nz.record(z.string(), A)".toList
  bannerInserted := false
  normalized := [⟨14, 22, 2, .qualified ['z']⟩]

/-- Its two changed lines are told in four lines. -/
theorem diff_told_unended :
    let body := "-z.record(A)\n\n+z.record(z.string(), A)\n\n".toList
    '\r' ∉ unendedReport.before ∧ '\r' ∉ unendedReport.patched ∧
      unendedReport.diff false = unendedReport.diffHeader false ++ body ∧
      unendedReport.TellsChanges false body := by
  intro body
  have hbefore : '\r' ∉ unendedReport.before := by decide
  have hpatched : '\r' ∉ unendedReport.patched := by decide
  obtain ⟨told, htold, htells⟩ := unendedReport.diff_told hbefore hpatched false
  have hdiff : unendedReport.diff false = unendedReport.diffHeader false ++ body := by
    decide +kernel
  obtain rfl : told = body := List.append_cancel_left (htold.symm.trans hdiff)
  exact ⟨hbefore, hpatched, hdiff, htells⟩

/-- The changes of a report that the rules give need not be told in one line each. -/
theorem diff_surplus_lines :
    let result : Transformed := ⟨unendedReport.patched, false, unendedReport.normalized⟩
    (Rules.ofTexts none (some "z.string()".toList)).transform unendedReport.before = .ok result ∧
      Rules.report unendedReport.file unendedReport.before result = some unendedReport ∧
      '\r' ∉ unendedReport.before ∧ '\r' ∉ unendedReport.patched ∧
      unendedReport.diff false ≠ unendedReport.diffHeader false ++
        unendedReport.changes.flatMap (LineChange.asLine false) := by
  decide +kernel

end PatchReport

end ClientPatch
