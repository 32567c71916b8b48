import ClientPatch.Proofs.EditWeave

/-!
# Why an edit list is refused

An edit that does not fit a text has one misfit: the checks of its span come first, then those of
the two ends, and the announced text last. Of a list in which some edit does not fit, the misfit is
told that comes first in the order of making, which is by the span downwards and for equal spans by
the position in the list. Only when all edits fit is a conflict told, and it is the first one
between neighbours in that order. So the positions in the list matter for nothing but the choice
between two edits with the same span that both announce a wrong text.
-/

namespace ClientPatch

namespace Edit

/-- What is wrong with a span in which a text is announced. Each case leaves out the ones
before. -/
inductive Misfit (content : Text) (span : Span) (before : Text) : EditError → Prop
  /-- The span runs backwards or past the end. -/
  | badSpan (h : span.stop < span.start ∨ content.size < span.stop) :
      Misfit content span before (.badSpan span content.size)
  /-- The span begins inside a character. -/
  | startInside (hle : span.start ≤ span.stop) (hsize : span.stop ≤ content.size)
      (h : ¬content.IsBoundary span.start) :
      Misfit content span before (.insideCharacter span.start)
  /-- The span ends inside a character. -/
  | stopInside (hle : span.start ≤ span.stop) (hsize : span.stop ≤ content.size)
      (hstart : content.IsBoundary span.start) (h : ¬content.IsBoundary span.stop) :
      Misfit content span before (.insideCharacter span.stop)
  /-- The span holds another text than the announced one. -/
  | otherText {found : Text} (hle : span.start ≤ span.stop)
      (hfound : content.slice? span.start span.stop = some found) (h : found ≠ before) :
      Misfit content span before (.unexpectedText span before found)

end Edit

namespace Text

theorem isBoundary_of_splitAt? {n : Nat} {t a b : Text} (h : splitAt? n t = some (a, b)) :
    t.IsBoundary n := by
  obtain ⟨rfl, hsize⟩ := splitAt?_eq_some_iff.1 h
  exact ⟨a, b, rfl, hsize⟩

theorem not_isBoundary_of_splitAt? {n : Nat} {t : Text} (h : splitAt? n t = none) :
    ¬t.IsBoundary n := by
  rintro ⟨a, b, rfl, rfl⟩
  rw [splitAt?_size_append] at h
  cases h

/-- What can be cut out of a text lies between two of its boundaries. -/
theorem bounds_of_slice? {start stop : Nat} {t m : Text} (hle : start ≤ stop)
    (h : t.slice? start stop = some m) :
    t.IsBoundary start ∧ t.IsBoundary stop ∧ stop ≤ t.size := by
  obtain ⟨⟨a, m, z⟩, hcut, rfl⟩ := Option.map_eq_some_iff.1 h
  obtain ⟨rfl, ha, hm⟩ := cut?_eq_some_iff.1 hcut
  have hstop : (a ++ m).size = stop := by
    rw [size_append]
    omega
  refine ⟨⟨a, m ++ z, rfl, ha⟩, ⟨a ++ m, z, by simp, hstop⟩, ?_⟩
  simp only [size_append] at hstop ⊢
  omega

end Text

namespace Edit

variable {content : Text} {e : Edit} {span : Span} {before before' : Text} {err err' : EditError}

/-- The check of one edit tells its misfit. -/
theorem misfit_of_check (h : check content e = .error err) :
    Misfit content e.toSpan e.before err := by
  rw [check] at h
  split at h
  · rename_i hspan
    cases h
    exact .badSpan hspan
  · rename_i hspan
    have hle : e.start ≤ e.stop := by omega
    have hsize : e.stop ≤ content.size := by omega
    split at h
    · rename_i hstart
      cases h
      exact .startInside hle hsize (Text.not_isBoundary_of_splitAt? hstart)
    · rename_i a rest hstart
      obtain ⟨hcontent, ha⟩ := Text.splitAt?_eq_some_iff.1 hstart
      split at h
      · rename_i hstop
        cases h
        refine .stopInside hle hsize (Text.isBoundary_of_splitAt? hstart) ?_
        -- The second cut is made in what the first one leaves.
        rintro ⟨x, z, hx, hxsize⟩
        obtain ⟨m, rfl, hrest⟩ := Text.append_split (hcontent.trans hx) (by omega)
        rw [Text.size_append] at hxsize
        exact Text.not_isBoundary_of_splitAt? hstop ⟨m, z, hrest, by omega⟩
      · rename_i found z hstop
        obtain ⟨hrest, hfound⟩ := Text.splitAt?_eq_some_iff.1 hstop
        split at h
        · cases h
        · rename_i hne
          cases h
          refine .otherText hle ?_ hne
          rw [Text.slice?, Text.cut?_eq_some_iff.2 ⟨by rw [hrest, hcontent], ha, hfound⟩]
          rfl

/-- An edit with a misfit does not fit. -/
theorem Misfit.not_fits (h : Misfit content e.toSpan e.before err) : ¬Fits content e := by
  intro hfit
  cases h with
  | badSpan h =>
    have hle := hfit.start_le
    have hsize := hfit.stop_le
    omega
  | startInside _ _ h => exact h hfit.start_boundary
  | stopInside _ _ _ h => exact h hfit.stop_boundary
  | otherText _ hfound h =>
    rw [hfit.slice] at hfound
    exact h (Option.some.inj hfound).symm

/-- The misfit is a matter of the span, and only the announced text is told besides. -/
theorem Misfit.eq_or (h : Misfit content span before err)
    (h' : Misfit content span before' err') :
    err = err' ∨ ∃ found, err = .unexpectedText span before found ∧
      err' = .unexpectedText span before' found := by
  cases h with
  | badSpan h =>
    cases h' with
    | badSpan => exact Or.inl rfl
    | startInside hle hsize => omega
    | stopInside hle hsize => omega
    | otherText hle hfound =>
      have hsize := (Text.bounds_of_slice? hle hfound).2.2
      omega
  | startInside hle hsize h =>
    cases h' with
    | badSpan h' => omega
    | startInside => exact Or.inl rfl
    | stopInside _ _ hstart => exact absurd hstart h
    | otherText _ hfound => exact absurd (Text.bounds_of_slice? hle hfound).1 h
  | stopInside hle hsize hstart h =>
    cases h' with
    | badSpan h' => omega
    | startInside _ _ h' => exact absurd hstart h'
    | stopInside => exact Or.inl rfl
    | otherText _ hfound => exact absurd (Text.bounds_of_slice? hle hfound).2.1 h
  | otherText hle hfound h =>
    have hbounds := Text.bounds_of_slice? hle hfound
    cases h' with
    | badSpan h' => omega
    | startInside _ _ h' => exact absurd hbounds.1 h'
    | stopInside _ _ _ h' => exact absurd hbounds.2.1 h'
    | otherText _ hfound' =>
      obtain rfl := Option.some.inj (hfound.symm.trans hfound')
      exact Or.inr ⟨_, rfl, rfl⟩

/-- An edit has one misfit. -/
theorem Misfit.unique (h : Misfit content span before err)
    (h' : Misfit content span before err') : err = err' := by
  rcases h.eq_or h' with heq | ⟨found, rfl, rfl⟩
  · exact heq
  · rfl

/-- Checking one edit after another stops at the first one that does not fit. -/
theorem exists_of_forM_check {order : List Edit} (h : order.forM (check content) = .error err) :
    ∃ front e rest, order = front ++ e :: rest ∧ (∀ a ∈ front, Fits content a) ∧
      Misfit content e.toSpan e.before err := by
  induction order with
  | nil => cases h
  | cons e order ih =>
    change (check content e >>= fun _ => order.forM (check content)) = .error err at h
    cases hcheck : check content e with
    | error cause =>
      rw [hcheck] at h
      cases h
      exact ⟨[], e, order, rfl, by simp, misfit_of_check hcheck⟩
    | ok _ =>
      rw [hcheck] at h
      obtain ⟨front, a, rest, rfl, hfront, ha⟩ := ih h
      exact ⟨e :: front, a, rest, rfl,
        List.forall_mem_cons.2 ⟨check_eq_ok_iff.1 hcheck, hfront⟩, ha⟩

/-- The look at neighbours stops at the first collision: in front of it, and up to the edit that is
made first of the two, there is none. -/
theorem exists_of_firstCollision {order : List Edit} {first second : Edit}
    (h : firstCollision order = some (first, second)) :
    ∃ front rest, order = front ++ second :: first :: rest ∧ collides second first = true ∧
      firstCollision (front ++ [second]) = none := by
  fun_induction firstCollision order with
  | case1 later earlier rest hcollides =>
    cases h
    exact ⟨[], rest, rfl, hcollides, rfl⟩
  | case2 later earlier rest hcollides ih =>
    obtain ⟨front, rest', horder, hsecond, hnone⟩ := ih h
    refine ⟨later :: front, rest', by rw [horder]; rfl, hsecond, ?_⟩
    cases front with
    | nil =>
      obtain rfl : earlier = second := (List.cons.inj horder).1
      simp [firstCollision, hcollides]
    | cons b front =>
      obtain rfl : earlier = b := (List.cons.inj horder).1
      simpa [firstCollision, hcollides] using hnone
  | case3 => cases h

/-- Of two edits of a list, each with its position, the first one is made first: it has the greater
start, or for one start the greater stop, or for one span the earlier position. -/
def Leads (a b : Edit × Nat) : Prop :=
  b.1.start < a.1.start ∨ b.1.start = a.1.start ∧
    (b.1.stop < a.1.stop ∨ b.1.stop = a.1.stop ∧ a.2 < b.2)

theorem Leads.asymm {a b : Edit × Nat} (h : Leads a b) : ¬Leads b a := by
  unfold Leads at *
  omega

/-- The edits of a list with their positions, in the order of making. -/
def queue (edits : List Edit) : List (Edit × Nat) :=
  edits.zipIdx.mergeSort (List.zipIdxLE isMadeBefore)

theorem map_queue (edits : List Edit) : (queue edits).map (·.1) = ordered edits :=
  List.mergeSort_zipIdx

theorem mem_queue_iff {edits : List Edit} {a : Edit × Nat} :
    a ∈ queue edits ↔ a ∈ edits.zipIdx := List.mem_mergeSort

theorem leads_of_zipIdxLE {a b : Edit × Nat} (h : List.zipIdxLE isMadeBefore a b = true)
    (hne : a.2 ≠ b.2) : Leads a b := by
  rw [List.zipIdxLE] at h
  split at h
  · rename_i hab
    rw [isMadeBefore_iff] at hab
    split at h
    · rename_i hba
      rw [isMadeBefore_iff] at hba
      have hle : a.2 ≤ b.2 := of_decide_eq_true h
      unfold Leads
      omega
    · rename_i hba
      rw [isMadeBefore_iff] at hba
      unfold Leads
      omega
  · cases h

/-- In the queue every edit leads the ones behind it. -/
theorem pairwise_queue (edits : List Edit) : (queue edits).Pairwise Leads := by
  have hsorted : (queue edits).Pairwise fun a b => List.zipIdxLE isMadeBefore a b = true :=
    List.pairwise_mergeSort (List.zipIdxLE_trans isMadeBefore_trans)
      (List.zipIdxLE_total isMadeBefore_total) edits.zipIdx
  have hpositions : (queue edits).Pairwise fun a b => a.2 ≠ b.2 := by
    have hnodup : (edits.zipIdx.map (·.2)).Nodup := by
      rw [List.zipIdx_map_snd]
      exact List.nodup_range'
    have hperm := (List.mergeSort_perm edits.zipIdx (List.zipIdxLE isMadeBefore)).map (·.2)
    exact List.pairwise_map.1 (hperm.nodup_iff.2 hnodup)
  exact (hsorted.and hpositions).imp fun hab => leads_of_zipIdxLE hab.1 hab.2

/-- Two edits of a list, each with its position, that come one right after the other in the order
of making and compete for a place. -/
structure Clash (edits : List Edit) (later earlier : Edit × Nat) : Prop where
  /-- The one that is made first is on the list. -/
  later_mem : later ∈ edits.zipIdx
  /-- So is the other one. -/
  earlier_mem : earlier ∈ edits.zipIdx
  /-- They stand at different positions. -/
  apart : later.2 ≠ earlier.2
  /-- The one is made before the other. -/
  leads : Leads later earlier
  /-- No edit of the list is made between them. -/
  adjacent : ∀ a ∈ edits.zipIdx, Leads later a → ¬Leads a earlier
  /-- They compete for a place. -/
  conflict : Conflict later.1 earlier.1

/-- Why an edit list is refused. -/
inductive Refusal (content : Text) (edits : List Edit) : EditError → Prop
  /-- An edit does not fit, and of those that do not it is the one that is made first. -/
  | misfit {a : Edit × Nat} {err : EditError} (ha : a ∈ edits.zipIdx)
      (h : Misfit content a.1.toSpan a.1.before err)
      (hfirst : ∀ b ∈ edits.zipIdx, ¬Fits content b.1 → b = a ∨ Leads a b) :
      Refusal content edits err
  /-- All edits fit, two neighbours compete for a place, and no other two neighbours do so of which
  one is made before. -/
  | overlap {first second : Edit × Nat} (hfit : ∀ e ∈ edits, Fits content e)
      (h : Clash edits second first)
      (hfirst : ∀ later earlier, Clash edits later earlier → later = second ∨ Leads second later) :
      Refusal content edits (.overlap first.1.toSpan second.1.toSpan)

section Refused

variable {edits : List Edit}

theorem Leads.isMadeBefore {a b : Edit × Nat} (h : Leads a b) : isMadeBefore a.1 b.1 = true := by
  rw [isMadeBefore_iff]
  unfold Leads at h
  omega

theorem exists_queue_eq {front rest : List Edit} {e : Edit}
    (h : ordered edits = front ++ e :: rest) : ∃ qfront a qrest,
      queue edits = qfront ++ a :: qrest ∧ qfront.map (·.1) = front ∧ a.1 = e ∧
        qrest.map (·.1) = rest := by
  rw [← map_queue, List.map_eq_append_iff] at h
  obtain ⟨qfront, qback, hqueue, hfront, hback⟩ := h
  obtain ⟨a, qrest, rfl, ha, hrest⟩ := List.map_eq_cons_iff.1 hback
  exact ⟨qfront, a, qrest, hqueue, hfront, ha, hrest⟩

theorem leads_of_queue {qfront qrest : List (Edit × Nat)} {a : Edit × Nat}
    (hqueue : queue edits = qfront ++ a :: qrest) :
    (∀ b ∈ qfront, Leads b a) ∧ ∀ b ∈ qrest, Leads a b := by
  have hpair := pairwise_queue edits
  rw [hqueue] at hpair
  obtain ⟨-, hback, hcross⟩ := List.pairwise_append.1 hpair
  exact ⟨fun b hb => hcross b hb a List.mem_cons_self, (List.pairwise_cons.1 hback).1⟩

theorem mem_zipIdx_of_queue {qfront qrest : List (Edit × Nat)} {a : Edit × Nat}
    (hqueue : queue edits = qfront ++ a :: qrest) : a ∈ edits.zipIdx := by
  rw [← mem_queue_iff, hqueue]
  exact List.mem_append_right qfront List.mem_cons_self

/-- Every edit of the list stands in the queue: in front of a given place, there, or behind it. -/
theorem cases_of_queue {qfront qrest : List (Edit × Nat)} {a b : Edit × Nat}
    (hqueue : queue edits = qfront ++ a :: qrest) (hb : b ∈ edits.zipIdx) :
    b ∈ qfront ∨ b = a ∨ b ∈ qrest := by
  rwa [← mem_queue_iff, hqueue, List.mem_append, List.mem_cons] at hb

theorem mem_of_mem_zipIdx {a : Edit × Nat} (h : a ∈ edits.zipIdx) : a.1 ∈ edits :=
  List.mem_of_getElem? (List.mem_zipIdx_iff_getElem?.1 h)

theorem exists_mem_zipIdx {e : Edit} (h : e ∈ edits) : ∃ a ∈ edits.zipIdx, a.1 = e := by
  obtain ⟨i, hi⟩ := List.mem_iff_getElem?.1 h
  exact ⟨(e, i), List.mem_zipIdx_iff_getElem?.2 hi, rfl⟩

theorem collides_iff_of_leads {a b : Edit × Nat} (hfit : ∀ e ∈ edits, Fits content e)
    (ha : a ∈ edits.zipIdx) (hb : b ∈ edits.zipIdx) (h : Leads a b) :
    collides a.1 b.1 = true ↔ Conflict a.1 b.1 :=
  collides_iff_conflict h.isMadeBefore (hfit a.1 (mem_of_mem_zipIdx ha)).start_le
    (hfit b.1 (mem_of_mem_zipIdx hb)).start_le

theorem refusal_of_forM_check (h : (ordered edits).forM (check content) = .error err) :
    Refusal content edits err := by
  obtain ⟨front, e, rest, horder, hfront, he⟩ := exists_of_forM_check h
  obtain ⟨qfront, a, qrest, hqueue, rfl, rfl, -⟩ := exists_queue_eq horder
  refine .misfit (mem_zipIdx_of_queue hqueue) he fun b hb hnot => ?_
  rcases cases_of_queue hqueue hb with hb | hb | hb
  · exact absurd (hfront b.1 (List.mem_map_of_mem hb)) hnot
  · exact Or.inl hb
  · exact Or.inr ((leads_of_queue hqueue).2 b hb)

/-- At one position stands one edit. -/
theorem eq_of_position {a b : Edit × Nat} (ha : a ∈ edits.zipIdx) (hb : b ∈ edits.zipIdx)
    (h : a.2 = b.2) : a = b := by
  rw [List.mem_zipIdx_iff_getElem?] at ha hb
  rw [h, hb] at ha
  exact Prod.ext (Option.some.inj ha).symm h

theorem Leads.apart {a b : Edit × Nat} (h : Leads a b) (ha : a ∈ edits.zipIdx)
    (hb : b ∈ edits.zipIdx) : a.2 ≠ b.2 := by
  intro hpos
  rw [eq_of_position ha hb hpos] at h
  exact h.asymm h

/-- Neighbours in the queue are neighbours in the order of making. -/
theorem clash_of_queue {qfront qrest : List (Edit × Nat)} {later earlier : Edit × Nat}
    (hqueue : queue edits = qfront ++ later :: earlier :: qrest)
    (hfit : ∀ e ∈ edits, Fits content e) (hcollides : collides later.1 earlier.1 = true) :
    Clash edits later earlier := by
  have hqueue' : queue edits = (qfront ++ [later]) ++ earlier :: qrest := by simp [hqueue]
  have hlater := mem_zipIdx_of_queue hqueue
  have hearlier := mem_zipIdx_of_queue hqueue'
  have hlead := (leads_of_queue hqueue).2 earlier List.mem_cons_self
  have hconflict := (collides_iff_of_leads hfit hlater hearlier hlead).1 hcollides
  refine ⟨hlater, hearlier, hlead.apart hlater hearlier, hlead, fun a ha hla hae => ?_, hconflict⟩
  rcases cases_of_queue hqueue ha with ha | rfl | ha
  · exact ((leads_of_queue hqueue).1 a ha).asymm hla
  · exact hla.asymm hla
  · rcases List.mem_cons.1 ha with rfl | ha
    · exact hae.asymm hae
    · exact ((leads_of_queue hqueue').2 a ha).asymm hae

/-- Of neighbours that compete for a place none comes in front of the first collision. -/
theorem Clash.notMem_front {qfront qrest : List (Edit × Nat)} {later earlier second : Edit × Nat}
    (h : Clash edits later earlier) (hqueue : queue edits = qfront ++ second :: qrest)
    (hfit : ∀ e ∈ edits, Fits content e)
    (hnone : firstCollision (qfront.map (·.1) ++ [second.1]) = none) : later ∉ qfront := by
  intro hmem
  have hlater := (leads_of_queue hqueue).1 later hmem
  have hmade : qfront.map (·.1) ++ [second.1] <+: ordered edits :=
    ⟨qrest.map (·.1), by rw [← map_queue, hqueue]; simp⟩
  have hfree := (firstCollision_eq_none_iff fun e he =>
    (hfit e ((ordered_perm edits).mem_iff.1 (hmade.subset he))).start_le).1 hnone
  have hcollides :=
    (collides_iff_of_leads hfit h.later_mem h.earlier_mem h.leads).2 h.conflict
  -- Behind `later`, the other edit is among those that are free of collisions, or it comes after
  -- `second`, which is then made between the two.
  obtain ⟨x, y, rfl⟩ := List.append_of_mem hmem
  have hqueue' : queue edits = x ++ later :: ((y ++ [second]) ++ qrest) := by simp [hqueue]
  rcases cases_of_queue hqueue' h.earlier_mem with hmem | rfl | hmem
  · exact ((leads_of_queue hqueue').1 earlier hmem).asymm h.leads
  · exact h.leads.asymm h.leads
  · rcases List.mem_append.1 hmem with hmem | hmem
    · rw [List.map_append, List.append_assoc] at hfree
      have hbehind := (List.pairwise_cons.1 (List.pairwise_append.1 hfree).2.1).1 earlier.1
        (by simpa using List.mem_map_of_mem (f := (·.1)) hmem)
      rw [hcollides] at hbehind
      cases hbehind
    · exact h.adjacent second (mem_zipIdx_of_queue hqueue) hlater
        ((leads_of_queue hqueue).2 earlier hmem)

theorem refusal_of_firstCollision {first second : Edit} (hfit : ∀ e ∈ edits, Fits content e)
    (h : firstCollision (ordered edits) = some (first, second)) :
    Refusal content edits (.overlap first.toSpan second.toSpan) := by
  obtain ⟨front, rest, horder, hcollides, hnone⟩ := exists_of_firstCollision h
  obtain ⟨qfront, b, qback, hqueue, rfl, rfl, hback⟩ := exists_queue_eq horder
  obtain ⟨a, qrest, rfl, rfl, -⟩ := List.map_eq_cons_iff.1 hback
  refine .overlap hfit (clash_of_queue hqueue hfit hcollides) fun later earlier hclash => ?_
  rcases cases_of_queue hqueue hclash.later_mem with hmem | heq | hmem
  · exact absurd hmem (hclash.notMem_front hqueue hfit hnone)
  · exact Or.inl heq
  · exact Or.inr ((leads_of_queue hqueue).2 later hmem)

/-- What is told of a refused list is why it is refused. -/
theorem refusal_of_applyAll (h : applyAll content edits = .error err) :
    Refusal content edits err := by
  have htold := h
  simp only [applyAll] at htold
  split at htold
  · rename_i cause hcheck
    cases htold
    exact refusal_of_forM_check hcheck
  · rename_i u hcheck
    split at htold
    · rename_i first second hfirst
      cases htold
      refine refusal_of_firstCollision (fun e he => ?_) hfirst
      exact forM_check_eq_ok_iff.1 hcheck e ((ordered_perm edits).mem_iff.2 he)
    · rename_i hnone
      obtain ⟨out, hout, -⟩ := (checked_iff_accepted.1 ⟨hcheck, hnone⟩).exists_applyAll
      rw [h] at hout
      cases hout

theorem Accepted.not_conflict (h : Accepted content edits) {a b : Edit × Nat}
    (ha : a ∈ edits.zipIdx) (hb : b ∈ edits.zipIdx) (hne : a.2 ≠ b.2) : ¬Conflict a.1 b.1 := by
  have hpair : edits.zipIdx.Pairwise fun a b => ¬Conflict a.1 b.1 := by
    rw [← List.pairwise_map (f := Prod.fst) (R := fun a b => ¬Conflict a b), List.zipIdx_map_fst]
    exact h.apart
  have : Std.Symm fun a b : Edit × Nat => ¬Conflict a.1 b.1 := ⟨fun _ _ hn hc => hn hc.symm⟩
  exact hpair.forall ha hb fun heq => hne (congrArg Prod.snd heq)

/-- A list that there is a reason to refuse is not accepted. -/
theorem Refusal.not_accepted (h : Refusal content edits err) : ¬Accepted content edits := by
  intro hacc
  cases h with
  | misfit ha hmisfit => exact hmisfit.not_fits (hacc.fits _ (mem_of_mem_zipIdx ha))
  | overlap _ hclash =>
    exact hacc.not_conflict hclash.later_mem hclash.earlier_mem hclash.apart hclash.conflict

theorem eq_or_leads {a b : Edit × Nat} (ha : a ∈ edits.zipIdx) (hb : b ∈ edits.zipIdx) :
    a = b ∨ Leads a b ∨ Leads b a := by
  by_cases hpos : a.2 = b.2
  · exact Or.inl (eq_of_position ha hb hpos)
  · unfold Leads
    omega

/-- There is one reason to refuse a list. -/
theorem Refusal.unique {err' : EditError} (h : Refusal content edits err)
    (h' : Refusal content edits err') : err = err' := by
  have heq {a b : Edit × Nat} (hab : b = a ∨ Leads a b) (hba : a = b ∨ Leads b a) : a = b := by
    rcases hab with rfl | hab
    · rfl
    · exact hba.resolve_right hab.asymm
  cases h with
  | misfit ha hmisfit hfirst =>
    cases h' with
    | misfit ha' hmisfit' hfirst' =>
      obtain rfl := heq (hfirst _ ha' hmisfit'.not_fits) (hfirst' _ ha hmisfit.not_fits)
      exact hmisfit.unique hmisfit'
    | overlap hfit => exact absurd (hfit _ (mem_of_mem_zipIdx ha)) hmisfit.not_fits
  | overlap hfit hclash hfirst =>
    cases h' with
    | misfit ha' hmisfit' => exact absurd (hfit _ (mem_of_mem_zipIdx ha')) hmisfit'.not_fits
    | overlap _ hclash' hfirst' =>
      obtain rfl := heq (hfirst _ _ hclash') (hfirst' _ _ hclash)
      rcases eq_or_leads hclash.earlier_mem hclash'.earlier_mem with rfl | hlead | hlead
      · rfl
      · exact absurd hlead (hclash'.adjacent _ hclash.earlier_mem hclash.leads)
      · exact absurd hlead (hclash.adjacent _ hclash'.earlier_mem hclash'.leads)

theorem applyAll_eq_error_iff :
    applyAll content edits = .error err ↔ Refusal content edits err := by
  refine ⟨refusal_of_applyAll, fun h => ?_⟩
  cases happly : applyAll content edits with
  | ok out => exact absurd (accepted_of_applyAll happly) h.not_accepted
  | error cause => rw [h.unique (refusal_of_applyAll happly)]

end Refused

section Permuted

variable {edits edits' : List Edit}

/-- A permutation of a list is made in the same order, as far as spans tell. -/
theorem map_toSpan_ordered (hp : edits'.Perm edits) :
    (ordered edits').map (·.toSpan) = (ordered edits).map (·.toSpan) := by
  have hsorted (es : List Edit) : ((ordered es).map (·.toSpan)).Pairwise fun a b =>
      b.start < a.start ∨ b.start = a.start ∧ b.stop ≤ a.stop :=
    List.pairwise_map.2 ((ordered_pairwise es).imp isMadeBefore_iff.1)
  refine List.Perm.eq_of_pairwise (fun a b _ _ hab hba => ?_) (hsorted edits') (hsorted edits)
    (((ordered_perm edits').trans (hp.trans (ordered_perm edits).symm)).map _)
  rcases a with ⟨start, stop⟩
  rcases b with ⟨start', stop'⟩
  simp only [Span.mk.injEq] at *
  omega

theorem collides_congr {a b a' b' : Edit} (ha : a'.toSpan = a.toSpan) (hb : b'.toSpan = b.toSpan) :
    collides a' b' = collides a b := by
  simp only [collides, isInsertion, ha, hb]

/-- The first collision is a matter of the spans. -/
theorem firstCollision_congr {order order' : List Edit}
    (h : order'.map (·.toSpan) = order.map (·.toSpan)) :
    (firstCollision order').map (fun p => (p.1.toSpan, p.2.toSpan)) =
      (firstCollision order).map (fun p => (p.1.toSpan, p.2.toSpan)) := by
  induction order generalizing order' with
  | nil => rw [List.map_eq_nil_iff.1 h]
  | cons later order ih =>
    obtain ⟨later', order', rfl, hlater, horder⟩ := List.map_eq_cons_iff.1 h
    cases order with
    | nil =>
      rw [List.map_eq_nil_iff.1 horder]
      rfl
    | cons earlier rest =>
      obtain ⟨earlier', rest', rfl, hearlier, -⟩ := List.map_eq_cons_iff.1 horder
      rw [firstCollision, firstCollision, collides_congr hlater hearlier]
      split
      · simp only [Option.map_some, hlater, hearlier]
      · exact ih horder

theorem exists_first_misfit (hnot : ¬∀ e ∈ edits, Fits content e) : ∃ a ∈ edits.zipIdx, ∃ err,
    applyAll content edits = .error err ∧ Misfit content a.1.toSpan a.1.before err ∧
      ∀ b ∈ edits.zipIdx, ¬Fits content b.1 → b = a ∨ Leads a b := by
  cases happly : applyAll content edits with
  | ok out => exact absurd (accepted_of_applyAll happly).fits hnot
  | error err =>
    cases refusal_of_applyAll happly with
    | misfit ha hmisfit hfirst => exact ⟨_, ha, _, rfl, hmisfit, hfirst⟩
    | overlap hfit => exact absurd hfit hnot

/-- When all edits fit, a permutation of the list has the same answer. -/
theorem applyAll_perm_of_fits (hfit : ∀ e ∈ edits, Fits content e) (hp : edits'.Perm edits) :
    applyAll content edits' = applyAll content edits := by
  have hcheck (es : List Edit) (hes : es.Perm edits) :
      (ordered es).forM (check content) = .ok () :=
    forM_check_eq_ok_iff.2 fun e he => hfit e (hes.mem_iff.1 ((ordered_perm es).mem_iff.1 he))
  have hspans := firstCollision_congr (map_toSpan_ordered hp)
  cases hfirst : firstCollision (ordered edits) with
  | none => exact (checked_iff_accepted.1 ⟨hcheck edits (.refl edits), hfirst⟩).applyAll_perm hp
  | some p =>
    rw [hfirst, Option.map_some, Option.map_eq_some_iff] at hspans
    obtain ⟨p', hfirst', hspans⟩ := hspans
    obtain ⟨hone, htwo⟩ := Prod.mk.inj hspans
    simp only [applyAll, hcheck edits (.refl edits), hcheck edits' hp, hfirst, hfirst', hone, htwo]

/-- Two edits of a list with one span announce different texts, and which of them is told of
depends on their order. -/
def ToldApart (content : Text) (edits edits' : List Edit) : Prop :=
  ∃ a ∈ edits.zipIdx, ∃ b ∈ edits.zipIdx, a.2 ≠ b.2 ∧ a.1.toSpan = b.1.toSpan ∧ ∃ found,
    applyAll content edits = .error (.unexpectedText a.1.toSpan a.1.before found) ∧
      applyAll content edits' = .error (.unexpectedText a.1.toSpan b.1.before found)

theorem isMadeBefore_of_eq_or_leads {a b : Edit × Nat} (h : b = a ∨ Leads a b) :
    isMadeBefore a.1 b.1 = true := by
  rcases h with rfl | h
  · rw [isMadeBefore_iff]
    omega
  · exact h.isMadeBefore

theorem toSpan_eq_of_isMadeBefore {a b : Edit} (hab : isMadeBefore a b = true)
    (hba : isMadeBefore b a = true) : a.toSpan = b.toSpan := by
  rw [isMadeBefore_iff] at hab hba
  have hstart : a.start = b.start := by omega
  have hstop : a.stop = b.stop := by omega
  exact congrArg₂ Span.mk hstart hstop

/-- When some edit does not fit, a permutation of the list tells of one with the same span. -/
theorem applyAll_perm_of_misfit (hnot : ¬∀ e ∈ edits, Fits content e) (hp : edits'.Perm edits) :
    applyAll content edits' = applyAll content edits ∨ ToldApart content edits edits' := by
  have hnot' : ¬∀ e ∈ edits', Fits content e := fun h =>
    hnot fun e he => h e (hp.mem_iff.2 he)
  obtain ⟨a, ha, err, happly, hmisfit, hfirst⟩ := exists_first_misfit hnot
  obtain ⟨a', ha', err', happly', hmisfit', hfirst'⟩ := exists_first_misfit hnot'
  -- The edit that one list tells of is on the other list too, and there it is not made before the
  -- one that is told of.
  obtain ⟨b, hb, hba⟩ := exists_mem_zipIdx (hp.mem_iff.1 (mem_of_mem_zipIdx ha'))
  obtain ⟨b', hb', hba'⟩ := exists_mem_zipIdx (hp.mem_iff.2 (mem_of_mem_zipIdx ha))
  have hle := hfirst b hb (hba ▸ hmisfit'.not_fits)
  have hle' := hfirst' b' hb' (hba' ▸ hmisfit.not_fits)
  have hspan : a.1.toSpan = b.1.toSpan :=
    toSpan_eq_of_isMadeBefore (isMadeBefore_of_eq_or_leads hle)
      (hba ▸ hba' ▸ isMadeBefore_of_eq_or_leads hle')
  rw [← hba, ← hspan] at hmisfit'
  rcases hmisfit.eq_or hmisfit' with rfl | ⟨found, rfl, rfl⟩
  · exact Or.inl (happly'.trans happly.symm)
  · rcases hle with rfl | hlead
    · exact Or.inl (happly'.trans happly.symm)
    · exact Or.inr ⟨a, ha, b, hb, hlead.apart ha hb, hspan, found, happly, happly'⟩

end Permuted

/-- A refused list tells of the edit that does not fit and is made first of those, or, when all
fit, of the neighbours that compete for a place and are made first of those; and it tells nothing
else. A permutation of the list has the same answer, but for the announced text where two edits
with one span announce different ones. -/
theorem applyAll_refused (content : Text) (edits : List Edit) :
    (∀ err, applyAll content edits = .error err ↔ Refusal content edits err) ∧
      ∀ edits', edits'.Perm edits →
        applyAll content edits' = applyAll content edits ∨ ToldApart content edits edits' := by
  refine ⟨fun err => applyAll_eq_error_iff, fun edits' hp => ?_⟩
  by_cases hfit : ∀ e ∈ edits, Fits content e
  · exact Or.inl (applyAll_perm_of_fits hfit hp)
  · exact applyAll_perm_of_misfit hfit hp

/-- Two edits of one character announce different wrong texts: the one that comes first in the list
is told of, and an edit further left that runs backwards is not. -/
theorem applyAll_refused_twice :
    let content := ['a', 'é', 'b']
    let one : Edit := ⟨⟨1, 3⟩, ['x'], ['e']⟩
    let other : Edit := ⟨⟨1, 3⟩, [], ['c']⟩
    let backwards : Edit := ⟨⟨1, 0⟩, ['y'], []⟩
    let told (before : Text) : EditError := .unexpectedText ⟨1, 3⟩ before ['é']
    Refusal content [one, other, backwards] (told ['e']) ∧
      Refusal content [other, one, backwards] (told ['c']) ∧
      ToldApart content [one, other, backwards] [other, one, backwards] := by
  intro content one other backwards told
  have hone : applyAll content [one, other, backwards] = .error (told ['e']) := by
    rw [applyAll, ordered, List.mergeSort_of_pairwise (by decide)]
    rfl
  have hother : applyAll content [other, one, backwards] = .error (told ['c']) := by
    rw [applyAll, ordered, List.mergeSort_of_pairwise (by decide)]
    rfl
  refine ⟨((applyAll_refused content _).1 _).1 hone, ((applyAll_refused content _).1 _).1 hother,
    ((applyAll_refused content _).2 _ (List.Perm.swap one other [backwards])).resolve_left ?_⟩
  rw [hone, hother]
  intro h
  cases h

end Edit

end ClientPatch
