import ClientPatch.Proofs.EditConflict

/-!
# Edits made from left to right

An edit list is made from the end of the text to its start, on one buffer. What comes out is
what a single reading from left to right gives, in which every edit finds its place in the
original text. The bridge between the two is the relation `Woven`, which cuts the text into
the parts that are kept and the spans of the edits, and the result into the same kept parts
and the texts of the edits. Both ways of making the edits follow it, one from its head and
the other from its tail.
-/

namespace ClientPatch.Edit

/-- The order from left to right, by the start, and for one start by the end. -/
def isLeftOf (a b : Edit) : Bool :=
  a.start < b.start || (a.start == b.start && a.stop ≤ b.stop)

/-- The edits from left to right. -/
def leftToRight (edits : List Edit) : List Edit := edits.mergeSort isLeftOf

/-- The text from the cursor on, with the edits made on the way: what stands before the next
edit is copied, its text is put down, the cursor moves to its end, and at last the rest is
copied. -/
def weave? (content : Text) (cursor : Nat) : List Edit → Option Text
  | [] => (content.splitAt? cursor).map (·.2)
  | e :: es =>
    match content.slice? cursor e.start, weave? content e.stop es with
    | some kept, some rest => some (kept ++ e.text ++ rest)
    | _, _ => none

/-- `Woven k rest es out` says that a text which goes on with `rest` at byte `k` goes on with
`out` once the edits are made: the same kept parts, and between them the texts of the edits in
place of the texts that they announce. -/
inductive Woven : Nat → Text → List Edit → Text → Prop
  | nil {k : Nat} {rest : Text} : Woven k rest [] rest
  | cons {k : Nat} {kept rest out : Text} {e : Edit} {es : List Edit}
      (hstart : e.start = k + kept.size) (hstop : e.stop = e.start + e.before.size)
      (h : Woven e.stop rest es out) :
      Woven k (kept ++ (e.before ++ rest)) (e :: es) (kept ++ (e.text ++ out))

namespace Woven

variable {k : Nat} {rest out : Text} {es : List Edit}

theorem cons_insert {kept : Text} {offset : Nat} (text : Text) (hoffset : offset = k + kept.size)
    (h : Woven offset rest es out) :
    Woven k (kept ++ rest) (insert offset text :: es) (kept ++ (text ++ out)) := by
  have hcons := @cons k kept rest out (insert offset text) es hoffset rfl h
  exact hcons

/-- Every woven edit fits the text it is woven into. -/
theorem fits (h : Woven k rest es out) (pre : Text) (hk : pre.size = k) :
    ∀ e ∈ es, Fits (pre ++ rest) e := by
  induction h generalizing pre with
  | nil => simp
  | @cons k kept rest out e es hstart hstop h ih =>
    intro e' he'
    rcases List.mem_cons.1 he' with rfl | he'
    · exact fits_iff.2 ⟨pre ++ kept, rest, by simp, by simp [hstart, hk], hstop⟩
    · have hfit := ih (pre ++ kept ++ e.before) (by simp only [Text.size_append]; omega)
        e' he'
      simpa only [List.append_assoc] using hfit

theorem le_start (h : Woven k rest es out) : ∀ e ∈ es, k ≤ e.start := by
  induction h with
  | nil => simp
  | @cons k kept rest out e es hstart hstop h ih =>
    refine List.forall_mem_cons.2 ⟨by omega, fun a ha => ?_⟩
    have hle := ih a ha
    omega

/-- Woven edits stand one after another. -/
theorem pairwise_stop_le (h : Woven k rest es out) :
    es.Pairwise fun a b => a.stop ≤ b.start := by
  induction h with
  | nil => exact .nil
  | cons _ _ h ih => exact List.pairwise_cons.2 ⟨h.le_start, ih⟩

/-- What stands before all edits stands before the result as well. -/
theorem drop_kept {p : Text} (h : Woven k (p ++ rest) es out)
    (hp : ∀ e ∈ es, k + p.size ≤ e.start) :
    ∃ out', out = p ++ out' ∧ Woven (k + p.size) rest es out' := by
  generalize ht : p ++ rest = t at h
  cases h with
  | nil => exact ⟨rest, ht.symm, nil⟩
  | @cons k kept rest' out e es hstart hstop h =>
    have hle := hp e List.mem_cons_self
    obtain ⟨m, hkept, hrest⟩ := Text.append_split ht (by omega)
    subst hkept hrest
    refine ⟨m ++ (e.text ++ out), by simp, cons ?_ hstop h⟩
    rw [hstart, Text.size_append]
    omega

/-- Reading from left to right follows a weave from its head. -/
theorem weave?_eq (h : Woven k rest es out) (pre : Text) (hk : pre.size = k) :
    weave? (pre ++ rest) k es = some out := by
  induction h generalizing pre with
  | nil => rw [weave?, Text.splitAt?_eq_some_iff.2 ⟨rfl, hk⟩]; rfl
  | @cons k kept rest out e es hstart hstop h ih =>
    have hrest := ih (pre ++ kept ++ e.before) (by simp only [Text.size_append]; omega)
    simp only [List.append_assoc] at hrest
    have hkept : Text.slice? k e.start (pre ++ (kept ++ (e.before ++ rest))) = some kept := by
      rw [Text.slice?, Text.cut?_eq_some_iff.2 ⟨rfl, hk, by omega⟩]
      rfl
    rw [weave?, hkept, hrest]
    simp only [List.append_assoc]

/-- Making the edits on one buffer from the last to the first follows a weave from its tail:
when an edit is made, all before its end is still as it was. -/
theorem foldlM_splice (h : Woven k rest es out) (pre : Text) (hk : pre.size = k) :
    es.reverse.foldlM splice (pre ++ rest) = .ok (pre ++ out) := by
  induction h generalizing pre with
  | nil => rfl
  | @cons k kept rest out e es hstart hstop h ih =>
    have hrest := ih (pre ++ kept ++ e.before) (by simp only [Text.size_append]; omega)
    simp only [List.append_assoc] at hrest
    have hcut : Text.cut? e.start e.stop (pre ++ (kept ++ (e.before ++ out))) =
        some (pre ++ kept, e.before, out) :=
      Text.cut?_eq_some_iff.2 ⟨by simp, by rw [Text.size_append]; omega, by omega⟩
    rw [List.reverse_cons, List.foldlM_append, hrest]
    change (splice (pre ++ (kept ++ (e.before ++ out))) e >>= fun t => pure t) = _
    rw [splice, hcut]
    simp only [List.append_assoc]
    rfl

end Woven

/-- Fitting edits that stand one after another can be woven in. -/
theorem exists_woven (pre rest : Text) {es : List Edit}
    (hfit : ∀ e ∈ es, Fits (pre ++ rest) e) (hs : es.Pairwise fun a b => a.stop ≤ b.start)
    (hpre : ∀ e ∈ es, pre.size ≤ e.start) : ∃ out, Woven pre.size rest es out := by
  induction es generalizing pre rest with
  | nil => exact ⟨rest, .nil⟩
  | cons e es ih =>
    obtain ⟨he, hs⟩ := List.pairwise_cons.1 hs
    obtain ⟨a, z, hc, hstart, hstop⟩ := fits_iff.1 (hfit e List.mem_cons_self)
    obtain ⟨kept, rfl, rfl⟩ := Text.append_split hc (hstart ▸ hpre e List.mem_cons_self)
    have hstart' : e.start = pre.size + kept.size := by rw [hstart, Text.size_append]
    have hsize : (pre ++ kept ++ e.before).size = e.stop := by
      simp only [Text.size_append]
      omega
    obtain ⟨out, hout⟩ := ih (pre ++ kept ++ e.before) z
      (fun e' he' => by simpa only [List.append_assoc] using hfit e' (List.mem_cons_of_mem e he'))
      hs (fun e' he' => hsize ▸ he e' he')
    exact ⟨kept ++ (e.text ++ out), .cons hstart' hstop (hsize ▸ hout)⟩

private theorem conflict_of_span_eq {a b : Edit} (hs : a.start = b.start) (he : a.stop = b.stop)
    (ha : a.start ≤ a.stop) : Conflict a b := by
  rw [conflict_iff ha (by omega)]
  by_cases hp : a.start = a.stop
  · exact Or.inr ⟨hp, by omega, hs⟩
  · exact Or.inl (by omega)

/-- An accepted list has one order of making: no two of its edits have the same span. -/
theorem Accepted.eq_ordered {content : Text} {edits es : List Edit}
    (h : Accepted content edits) (hp : es.Perm edits)
    (hs : es.Pairwise fun a b => isMadeBefore a b = true) : es = ordered edits := by
  refine List.Perm.eq_of_pairwise (fun a b ha hb hab hba => ?_) hs (ordered_pairwise edits)
    (hp.trans (ordered_perm edits).symm)
  have ha := hp.mem_iff.1 ha
  have hb := (ordered_perm edits).mem_iff.1 hb
  rw [isMadeBefore_iff] at hab hba
  by_contra hne
  have : Std.Symm fun a b => ¬Conflict a b := ⟨fun _ _ hn hc => hn hc.symm⟩
  exact h.apart.forall ha hb hne
    (conflict_of_span_eq (by omega) (by omega) (h.fits a ha).start_le)

/-- Read from the left, an accepted list is the order of making turned round. -/
theorem Accepted.leftToRight_eq {content : Text} {edits : List Edit}
    (h : Accepted content edits) : leftToRight edits = (ordered edits).reverse := by
  have hsorted : (leftToRight edits).Pairwise fun a b => isMadeBefore b a = true :=
    List.pairwise_mergeSort (fun a b c hab hbc => isMadeBefore_trans c b a hbc hab)
      (fun a b => isMadeBefore_total b a) edits
  have hperm : (leftToRight edits).reverse.Perm edits :=
    (List.reverse_perm _).trans (List.mergeSort_perm edits isLeftOf)
  rw [← h.eq_ordered hperm (List.pairwise_reverse.2 hsorted), List.reverse_reverse]

/-- From left to right the spans of an accepted list stand one after another. -/
theorem Accepted.pairwise_leftToRight {content : Text} {edits : List Edit}
    (h : Accepted content edits) :
    (leftToRight edits).Pairwise fun a b => a.stop ≤ b.start := by
  have h' := h.perm (ordered_perm edits).symm
  rw [h.leftToRight_eq, List.pairwise_reverse]
  refine ((ordered_pairwise edits).and h'.apart).imp_of_mem fun {a b} ha hb hab => ?_
  obtain ⟨ho, hn⟩ := hab
  have ha := (h'.fits a ha).start_le
  have hb := (h'.fits b hb).start_le
  rw [conflict_iff ha hb] at hn
  rw [isMadeBefore_iff] at ho
  unfold SamePoint at hn
  omega

/-- An accepted list is made, and what comes out is woven from left to right. -/
theorem Accepted.exists_applyAll {content : Text} {edits : List Edit}
    (h : Accepted content edits) :
    ∃ out, applyAll content edits = .ok out ∧ Woven 0 content (leftToRight edits) out := by
  have hmem {e : Edit} (he : e ∈ leftToRight edits) : e ∈ edits :=
    (List.mergeSort_perm edits isLeftOf).mem_iff.1 he
  obtain ⟨out, hout⟩ := exists_woven [] content (fun e he => h.fits e (hmem he))
    h.pairwise_leftToRight (fun e _ => Nat.zero_le e.start)
  obtain ⟨hchecks, hnone⟩ := checked_iff_accepted.2 h
  have hfold := hout.foldlM_splice [] rfl
  rw [h.leftToRight_eq, List.reverse_reverse] at hfold
  refine ⟨out, ?_, hout⟩
  simp only [applyAll, hchecks, hnone]
  exact hfold

theorem accepted_of_applyAll {content out : Text} {edits : List Edit}
    (h : applyAll content edits = .ok out) : Accepted content edits := by
  refine checked_iff_accepted.1 ?_
  simp only [applyAll] at h
  split at h
  · cases h
  · rename_i u hchecks
    split at h
    · cases h
    · rename_i hnone
      exact ⟨hchecks, hnone⟩

/-- An accepted list may be permuted. -/
theorem Accepted.applyAll_perm {content : Text} {edits edits' : List Edit}
    (h : Accepted content edits) (hp : edits'.Perm edits) :
    applyAll content edits' = applyAll content edits := by
  have horder : ordered edits' = ordered edits :=
    h.eq_ordered ((ordered_perm edits').trans hp) (ordered_pairwise edits')
  simp only [applyAll, horder]

/-- Woven edits are accepted unless two of them are insertions at one offset. -/
theorem Woven.accepted {content out : Text} {es : List Edit} (h : Woven 0 content es out)
    (hs : es.Pairwise fun a b => ¬SamePoint a b) : Accepted content es := by
  have hfit : ∀ e ∈ es, Fits content e := h.fits [] rfl
  refine ⟨hfit, (h.pairwise_stop_le.and hs).imp_of_mem fun {a b} ha hb hab hc => ?_⟩
  rw [conflict_iff (hfit a ha).start_le (hfit b hb).start_le] at hc
  have hlt := hc.resolve_right hab.2
  omega

/-- What comes out of woven edits is then the weave. -/
theorem Woven.applyAll_eq {content out : Text} {es : List Edit} (h : Woven 0 content es out)
    (hs : es.Pairwise fun a b => ¬SamePoint a b) : applyAll content es = .ok out := by
  have hacc := h.accepted hs
  have hsorted : leftToRight es = es := by
    refine List.mergeSort_of_pairwise (h.pairwise_stop_le.imp_of_mem fun {a b} ha hb hab => ?_)
    have hle := (hacc.fits a ha).start_le
    have hle' := (hacc.fits b hb).start_le
    simp only [isLeftOf, Bool.or_eq_true, Bool.and_eq_true, decide_eq_true_eq, beq_iff_eq]
    omega
  obtain ⟨out', happly, hwoven⟩ := hacc.exists_applyAll
  rw [hsorted] at hwoven
  have hout := (hwoven.weave?_eq [] rfl).symm.trans (h.weave?_eq [] rfl)
  rw [happly, Option.some.inj hout]

/-- An edit list is made exactly when every edit fits the text and no two edits conflict. What
comes out is then the reading from left to right, and every permutation of the list gives the
same. -/
theorem applyAll_exact (content : Text) (edits : List Edit) :
    ((∃ out, applyAll content edits = .ok out) ↔
      (∀ e ∈ edits, Fits content e) ∧ edits.Pairwise fun a b => ¬Conflict a b) ∧
    ∀ out, applyAll content edits = .ok out →
      weave? content 0 (leftToRight edits) = some out ∧
      ∀ edits', edits'.Perm edits → applyAll content edits' = .ok out := by
  refine ⟨⟨?_, ?_⟩, ?_⟩
  · rintro ⟨out, h⟩
    have hacc := accepted_of_applyAll h
    exact ⟨hacc.fits, hacc.apart⟩
  · rintro ⟨hfit, hapart⟩
    obtain ⟨out, h, -⟩ := Accepted.exists_applyAll ⟨hfit, hapart⟩
    exact ⟨out, h⟩
  · intro out h
    have hacc := accepted_of_applyAll h
    obtain ⟨out', h', hwoven⟩ := hacc.exists_applyAll
    obtain rfl : out' = out := Except.ok.inj (h'.symm.trans h)
    refine ⟨hwoven.weave?_eq [] rfl, fun edits' hp => ?_⟩
    have horder : ordered edits' = ordered edits :=
      hacc.eq_ordered ((ordered_perm edits').trans hp) (ordered_pairwise edits')
    rw [← h]
    simp only [applyAll, horder]

/-- Insertions at both ends of a replaced character keep their sides, in any order of the
list. -/
theorem applyAll_exact_touching :
    let content := ['z', 'é', '(', 'x']
    let edits := [insert 3 ['b'], ⟨⟨1, 3⟩, ['e'], ['é']⟩, insert 1 ['a']]
    let out := ['z', 'a', 'e', 'b', '(', 'x']
    applyAll content edits = .ok out ∧
      weave? content 0 (leftToRight edits) = some out ∧
      applyAll content edits.reverse = .ok out := by
  intro content edits out
  have hordered : ordered edits = edits := List.mergeSort_of_pairwise (by decide)
  have h : applyAll content edits = .ok out := by
    rw [applyAll, hordered]
    rfl
  obtain ⟨hweave, hperm⟩ := (applyAll_exact content edits).2 out h
  exact ⟨h, hweave, hperm edits.reverse (List.reverse_perm edits)⟩

end ClientPatch.Edit
