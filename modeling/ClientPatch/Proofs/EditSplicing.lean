import ClientPatch.Proofs.EditRefusal

/-!
# Edits are made in place

A text is cut twice while an edit list is made, to check an edit and to make it, and neither cut can
miss. A check takes the slice of a span only when the span and its two ends have passed. The edits
are made on one buffer that grows and shrinks on the way, but always behind the edits still to
come: in front of the edit that was made last the buffer is the original text. So each of them
finds its span between characters and the text that it announced.
-/

namespace ClientPatch

namespace Text

instance (t : Text) (n : Nat) : Decidable (t.IsBoundary n) :=
  decidable_of_iff ((t.splitAt? n).isSome = true) <| by
    cases h : t.splitAt? n with
    | none => simpa using not_isBoundary_of_splitAt? h
    | some p => simpa using isBoundary_of_splitAt? h

/-- The bytes from `start` up to, and without, `stop`; nothing also when they run backwards. -/
def strictSlice? (start stop : Nat) (t : Text) : Option Text :=
  if start ≤ stop then t.slice? start stop else none

/-- The two texts have the same bytes in front of byte `n`, and a boundary there. -/
def AgreeUpTo (n : Nat) (t u : Text) : Prop :=
  ∃ front rest rest', t = front ++ rest ∧ u = front ++ rest' ∧ front.size = n

theorem agreeUpTo_size (t : Text) : AgreeUpTo t.size t t := ⟨t, [], [], by simp, by simp, rfl⟩

end Text

namespace Edit

variable {content buffer : Text} {e : Edit} {es done rest : List Edit} {n : Nat}

/-- The check of an edit step by step: its span, then one end after the other, then the slice
between them against the announced text. There is no answer when that slice is not there. -/
def checkBySlice? (content : Text) (e : Edit) : Option (Except EditError Unit) :=
  if e.start > e.stop ∨ e.stop > content.size then
    some (.error (.badSpan e.toSpan content.size))
  else
    match [e.start, e.stop].find? fun n => ¬content.IsBoundary n with
    | some n => some (.error (.insideCharacter n))
    | none =>
      (content.strictSlice? e.start e.stop).map fun found =>
        if found = e.before then .ok () else .error (.unexpectedText e.toSpan e.before found)

/-- Behind the checks of a span that can be cut out, the slice is compared. -/
theorem checkBySlice?_of_canSlice (h : content.CanSlice e.start e.stop) {found : Text}
    (hfound : content.slice? e.start e.stop = some found) :
    checkBySlice? content e = some (if found = e.before then .ok () else
      .error (.unexpectedText e.toSpan e.before found)) := by
  have hle := h.le
  have hsize := h.stop_le
  have hends : ([e.start, e.stop].find? fun n => ¬content.IsBoundary n) = none := by
    simp [h.start_boundary, h.stop_boundary]
  rw [checkBySlice?, if_neg (by omega)]
  simp only [hends, Text.strictSlice?, if_pos hle, hfound, Option.map_some]

/-- The check always comes to an answer, and takes no slice that is not there. -/
theorem checkBySlice?_eq (content : Text) (e : Edit) :
    checkBySlice? content e = some (check content e) := by
  cases hcheck : check content e with
  | ok _ =>
    have hfit := check_eq_ok_iff.1 hcheck
    rw [checkBySlice?_of_canSlice (hfit.start_boundary.canSlice hfit.stop_boundary hfit.start_le)
      hfit.slice, if_pos rfl]
  | error err =>
    cases misfit_of_check hcheck with
    | badSpan h => rw [checkBySlice?, if_pos h]
    | startInside hle hsize h =>
      rw [checkBySlice?, if_neg (by omega)]
      simp [h]
    | stopInside hle hsize hstart h =>
      rw [checkBySlice?, if_neg (by omega)]
      simp [hstart, h]
    | @otherText found hle hfound h =>
      obtain ⟨hstart, hstop, -⟩ := Text.bounds_of_slice? hle hfound
      rw [checkBySlice?_of_canSlice (hstart.canSlice hstop hle) hfound, if_neg h]

/-- An edit that fits one of two texts, and lies in the part that they have in common, cuts both
behind the same front. -/
theorem exists_common_front (hfit : Fits content e) (h : Text.AgreeUpTo n content buffer)
    (hle : e.stop ≤ n) : ∃ front z z', content = front ++ (e.before ++ z) ∧
      buffer = front ++ (e.before ++ z') ∧ e.start = front.size ∧
      e.stop = e.start + e.before.size := by
  obtain ⟨shared, rest, rest', hcontent, rfl, rfl⟩ := h
  obtain ⟨front, z, hspan, hstart, hstop⟩ := fits_iff.1 hfit
  have hsize : (front ++ e.before).size ≤ shared.size := by
    rw [Text.size_append]
    omega
  obtain ⟨m, rfl, -⟩ := Text.append_split
    ((List.append_assoc ..).trans (hspan.symm.trans hcontent)) hsize
  exact ⟨front, z, m ++ rest', hspan, by simp only [List.append_assoc], hstart, hstop⟩

/-- In that part it fits both texts. -/
theorem Fits.of_agreeUpTo (hfit : Fits content e) (h : Text.AgreeUpTo n content buffer)
    (hle : e.stop ≤ n) : Fits buffer e := by
  obtain ⟨front, -, z, -, hbuffer, hstart, hstop⟩ := exists_common_front hfit h hle
  exact fits_iff.2 ⟨front, z, hbuffer, hstart, hstop⟩

/-- One edit is made: it lies in front of what was changed before, and what stands in front of it
is not changed. -/
theorem exists_splice (hfit : Fits content e) (h : Text.AgreeUpTo n content buffer)
    (hle : e.stop ≤ n) :
    ∃ buffer', splice buffer e = .ok buffer' ∧ Text.AgreeUpTo e.start content buffer' := by
  obtain ⟨front, z, z', hcontent, hbuffer, hstart, hstop⟩ := exists_common_front hfit h hle
  have hcut : buffer.cut? e.start e.stop = some (front, e.before, z') :=
    Text.cut?_eq_some_iff.2 ⟨hbuffer, hstart.symm, by omega⟩
  exact ⟨front ++ e.text ++ z', by rw [splice, hcut],
    front, e.before ++ z, e.text ++ z', hcontent, by simp, hstart.symm⟩

/-- Where the last of some edits that are made from the back begins; `n` when there are none. -/
def reached (n : Nat) (done : List Edit) : Nat := ((done.getLast?).map (·.start)).getD n

theorem reached_cons (n : Nat) (e : Edit) (done : List Edit) :
    reached n (e :: done) = reached e.start done := by
  rw [reached, reached, List.getLast?_cons]
  cases done.getLast? <;> rfl

/-- Edits that stand one before another are made one after another, and what stands in front of the
last one is the original text. -/
theorem exists_foldlM_splice (hfit : ∀ e ∈ done, Fits content e)
    (hapart : done.Pairwise fun later earlier => earlier.stop ≤ later.start)
    (h : Text.AgreeUpTo n content buffer) (hle : ∀ e ∈ done, e.stop ≤ n) :
    ∃ buffer', done.foldlM splice buffer = .ok buffer' ∧
      Text.AgreeUpTo (reached n done) content buffer' := by
  induction done generalizing n buffer with
  | nil => exact ⟨buffer, rfl, h⟩
  | cons e done ih =>
    obtain ⟨he, hapart⟩ := List.pairwise_cons.1 hapart
    obtain ⟨next, hsplice, hnext⟩ := exists_splice (hfit e List.mem_cons_self) h
      (hle e List.mem_cons_self)
    obtain ⟨buffer', hrest, hbuffer'⟩ :=
      ih (fun a ha => hfit a (List.mem_cons_of_mem e ha)) hapart hnext he
    refine ⟨buffer', ?_, by rwa [reached_cons]⟩
    rw [List.foldlM_cons, hsplice]
    exact hrest

/-- The edits of an accepted list stand one before another in the order in which they are made. -/
theorem Accepted.pairwise_ordered {edits : List Edit} (h : Accepted content edits) :
    (ordered edits).Pairwise fun later earlier => earlier.stop ≤ later.start := by
  have hpair := h.pairwise_leftToRight
  rwa [h.leftToRight_eq, List.pairwise_reverse] at hpair

/-- An edit is about to be made on a buffer, after others that were planned on `content`. -/
structure InPlace (content : Text) (done : List Edit) (buffer : Text) (e : Edit) : Prop where
  /-- The span is there, and it begins and ends between characters. -/
  canSlice : buffer.CanSlice e.start e.stop
  /-- It holds the announced text. -/
  slice : buffer.slice? e.start e.stop = some e.before
  /-- In front of the edit that was made last nothing has changed. -/
  untouched : ∀ last ∈ done.getLast?, Text.AgreeUpTo last.start content buffer

theorem Accepted.exists_inPlace {edits : List Edit} (h : Accepted content edits)
    (horder : ordered edits = done ++ e :: rest) :
    ∃ buffer, done.foldlM splice content = .ok buffer ∧ InPlace content done buffer e := by
  have hfit : ∀ a ∈ done ++ e :: rest, Fits content a := fun a ha =>
    h.fits a ((ordered_perm edits).mem_iff.1 (horder ▸ ha))
  have hapart := h.pairwise_ordered
  rw [horder, List.pairwise_append] at hapart
  obtain ⟨hdone, -, hbetween⟩ := hapart
  obtain ⟨buffer, hbuffer, hagree⟩ := exists_foldlM_splice
    (fun a ha => hfit a (List.mem_append_left _ ha)) hdone content.agreeUpTo_size
    fun a ha => (hfit a (List.mem_append_left _ ha)).stop_le
  have he : Fits content e := hfit e (by simp)
  have hle : e.stop ≤ reached content.size done := by
    unfold reached
    cases hlast : done.getLast? with
    | none => exact he.stop_le
    | some last => exact hbetween last (List.mem_of_getLast? hlast) e List.mem_cons_self
  have hfits := he.of_agreeUpTo hagree hle
  refine ⟨buffer, hbuffer, hfits.start_boundary.canSlice hfits.stop_boundary hfits.start_le,
    hfits.slice, fun last hlast => ?_⟩
  rw [reached, hlast] at hagree
  exact hagree

/-- Neither cut of an edit list misses. The check of each edit takes no slice that is not there. If
the checks and the look at neighbours pass, then each edit, whichever were made before it, finds its
span in the buffer with the announced text, the buffer is the original text in front of the edit
that was made last, and the last edit leaves the text that is answered. -/
theorem splices_inPlace (content : Text) (edits : List Edit) :
    (∀ e ∈ edits, checkBySlice? content e = some (check content e)) ∧
      ((ordered edits).forM (check content) = .ok () → firstCollision (ordered edits) = none →
        (∀ done e rest, ordered edits = done ++ e :: rest →
          ∃ buffer, done.foldlM splice content = .ok buffer ∧ InPlace content done buffer e) ∧
        ∃ out, (ordered edits).foldlM splice content = .ok out ∧
          applyAll content edits = .ok out) := by
  refine ⟨fun e _ => checkBySlice?_eq content e, fun hchecks hnone => ?_⟩
  have hacc := checked_iff_accepted.1 ⟨hchecks, hnone⟩
  refine ⟨fun done e rest horder => hacc.exists_inPlace horder, ?_⟩
  obtain ⟨out, hout, -⟩ := hacc.exists_applyAll
  refine ⟨out, ?_, hout⟩
  simp only [applyAll, hchecks, hnone] at hout
  exact hout

/-- A character is replaced when a text has been put in behind it, and one in front of it is still
to come. -/
theorem splices_inPlace_touching :
    let content := ['z', 'é', '(', 'x']
    let behind := insert 3 ['日']
    let accent : Edit := ⟨⟨1, 3⟩, ['e'], ['é']⟩
    let front := insert 1 ['a']
    let edits := [behind, accent, front]
    let buffer := ['z', 'é', '日', '(', 'x']
    (ordered edits).forM (check content) = .ok () ∧ firstCollision (ordered edits) = none ∧
      ordered edits = [behind] ++ accent :: [front] ∧
      [behind].foldlM splice content = .ok buffer ∧ InPlace content [behind] buffer accent := by
  intro content behind accent front edits buffer
  have horder : ordered edits = [behind] ++ accent :: [front] :=
    List.mergeSort_of_pairwise (by decide)
  have hchecks : (ordered edits).forM (check content) = .ok () := by
    rw [horder]
    rfl
  have hnone : firstCollision (ordered edits) = none := by
    rw [horder]
    decide
  have hbuffer : [behind].foldlM splice content = .ok buffer := rfl
  obtain ⟨buffer', hbuffer', hplace⟩ :=
    ((splices_inPlace content edits).2 hchecks hnone).1 [behind] accent [front] horder
  obtain rfl : buffer' = buffer := Except.ok.inj (hbuffer'.symm.trans hbuffer)
  exact ⟨hchecks, hnone, horder, hbuffer, hplace⟩

end Edit

end ClientPatch
