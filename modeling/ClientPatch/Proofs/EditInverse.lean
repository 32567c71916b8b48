import ClientPatch.Proofs.EditWeave
import Mathlib

/-!
# Taking edits back

An edit list that was made can be taken back by one edit for each of its edits, with the two texts
exchanged. The span of such an edit is where the new text stands, which is as far from the old
place as the edits further left have lengthened the text. Read the other way round, the weave of
the list is the weave of these edits. So they are accepted unless two of them are insertions at one
place, and for that it is enough to look at neighbours: between edits that are no neighbours
something stands if something stands next to one of them.
-/

namespace ClientPatch.Edit

/-- By how many bytes an edit lengthens the text. -/
def growth (e : Edit) : Int := e.text.size - ((e.stop : Int) - e.start)

/-- By how many bytes the edits in front of position `i` lengthen the text. -/
def shift (es : List Edit) (i : Nat) : Int := ((es.take i).map growth).sum

/-- The edit that takes `e` back where the text in front of it is longer by `d` bytes. -/
def inverse (d : Int) (e : Edit) : Edit :=
  ⟨⟨(e.start + d).toNat, (e.start + d + e.text.size).toNat⟩, e.before, e.text⟩

/-- The edits that take back a list of edits, which stand from left to right. -/
def inverses (es : List Edit) : List Edit := es.mapIdx fun i e => inverse (shift es i) e

/-- The same behind a place where the text is longer by `d` bytes already. -/
def inversesFrom (d : Int) (es : List Edit) : List Edit :=
  es.mapIdx fun i e => inverse (d + shift es i) e

/-- Where the two edits touch, one of them puts in a text. -/
def KeptApart (a b : Edit) : Prop := a.stop = b.start → ¬(a.text = [] ∧ b.text = [])

theorem shift_zero (es : List Edit) : shift es 0 = 0 := rfl

theorem shift_succ (e : Edit) (es : List Edit) (i : Nat) :
    shift (e :: es) (i + 1) = growth e + shift es i := by
  rw [shift, List.take_succ_cons, List.map_cons, List.sum_cons, shift]

theorem inversesFrom_zero (es : List Edit) : inversesFrom 0 es = inverses es := by
  simp only [inversesFrom, inverses, Int.zero_add]

theorem inversesFrom_cons (d : Int) (e : Edit) (es : List Edit) :
    inversesFrom d (e :: es) = inverse d e :: inversesFrom (d + growth e) es := by
  simp only [inversesFrom, List.mapIdx_cons, shift_zero, shift_succ, Int.add_zero, Int.add_assoc]

/-- Behind a kept part of `n` bytes the inverse of an edit stands behind the same part, and the
place behind it has moved by the growth of the edit as well. -/
theorem span_inverse {k k' n : Nat} {d : Int} {e : Edit} (hk : (k' : Int) = k + d)
    (hstart : e.start = k + n) :
    (inverse d e).start = k' + n ∧ (inverse d e).stop = k' + n + e.text.size ∧
      ((inverse d e).stop : Int) = e.stop + (d + growth e) := by
  simp only [inverse, growth]
  omega

namespace Woven

variable {k k' : Nat} {d : Int} {rest out : Text} {es : List Edit}

/-- A weave may be read the other way round. -/
theorem inversesFrom (h : Woven k rest es out) (hk : (k' : Int) = k + d) :
    Woven k' out (Edit.inversesFrom d es) rest := by
  induction h generalizing k' d with
  | nil => exact nil
  | @cons k kept rest out e es hstart hstop h ih =>
    obtain ⟨hplace, hend, hbehind⟩ := span_inverse hk hstart
    rw [inversesFrom_cons]
    exact @cons k' kept out rest (inverse d e) _ hplace (hplace ▸ hend) (ih hbehind)

/-- The inverses stand at true places. -/
theorem place_nonneg (h : Woven k rest es out) (hk : (k' : Int) = k + d) {i : Nat} {e : Edit}
    (he : es[i]? = some e) : 0 ≤ e.start + (d + shift es i) := by
  induction h generalizing k' d i with
  | nil => cases he
  | @cons k kept rest out a es hstart hstop h ih =>
    obtain ⟨hplace, hend, hbehind⟩ := span_inverse hk hstart
    cases i with
    | zero =>
      obtain rfl : a = e := Option.some.inj he
      rw [shift_zero]
      omega
    | succ i =>
      have hnext := ih hbehind he
      rw [shift_succ]
      omega

/-- The inverse of an edit without a text stands in front of the end of the next one. -/
theorem lt_stop_inverse {e next : Edit} (h : Woven e.stop rest (next :: es) out)
    (hk : (k' : Int) = e.stop + d) (hapart : KeptApart e next) (hempty : e.text = []) :
    k' < (inverse d next).stop := by
  cases h with
  | @cons _ kept _ _ _ _ hstart hstop h =>
    obtain ⟨-, hend, -⟩ := span_inverse hk hstart
    by_cases htouch : e.stop = next.start
    · have htext : next.text.size ≠ 0 := fun hzero =>
        hapart htouch ⟨hempty, Text.size_eq_zero_iff.1 hzero⟩
      omega
    · omega

/-- No two inverses are insertions at one place, when no two neighbours that touch take out
texts only. -/
theorem pairwise_inversesFrom (h : Woven k rest es out) (hk : (k' : Int) = k + d)
    (hapart : es.IsChain KeptApart) :
    (Edit.inversesFrom d es).Pairwise fun a b => ¬SamePoint a b := by
  induction h generalizing k' d with
  | nil => exact .nil
  | @cons k kept rest out e es hstart hstop h ih =>
    obtain ⟨hplace, hend, hbehind⟩ := span_inverse hk hstart
    rw [inversesFrom_cons]
    refine List.pairwise_cons.2 ⟨fun a ha hsame => ?_, ih hbehind hapart.of_cons⟩
    obtain ⟨hpoint, hpoint', hplaces⟩ := hsame
    have hempty : e.text = [] := Text.size_eq_zero_iff.1 (by omega)
    cases es with
    | nil => cases ha
    | cons next es =>
      have hlt := h.lt_stop_inverse hbehind (List.isChain_cons_cons.1 hapart).1 hempty
      have hwoven := (h.inversesFrom hbehind).pairwise_stop_le
      rw [inversesFrom_cons] at ha hwoven
      -- The inverses further right begin behind the one of the next edit.
      rcases List.mem_cons.1 ha with rfl | ha
      · omega
      · have hle := (List.pairwise_cons.1 hwoven).1 a ha
        omega

end Woven

/-- A list that was made can be taken back, by the inverses of its edits in any order, when of any
two neighbours that touch one put in a text. -/
theorem applyAll_inverses {content out : Text} {edits : List Edit}
    (h : applyAll content edits = .ok out) (hapart : (leftToRight edits).IsChain KeptApart) :
    (∀ i e, (leftToRight edits)[i]? = some e → 0 ≤ e.start + shift (leftToRight edits) i) ∧
      ∀ es, es.Perm (inverses (leftToRight edits)) →
        Accepted out es ∧ applyAll out es = .ok content := by
  obtain ⟨out', hout, hwoven⟩ := (accepted_of_applyAll h).exists_applyAll
  obtain rfl : out' = out := Except.ok.inj (hout.symm.trans h)
  have hplace : ((0 : Nat) : Int) = ((0 : Nat) : Int) + 0 := rfl
  have hback := hwoven.inversesFrom hplace
  have hpairs := hwoven.pairwise_inversesFrom hplace hapart
  rw [inversesFrom_zero] at hback hpairs
  refine ⟨fun i e he => ?_, fun es hp => ?_⟩
  · have hnonneg := hwoven.place_nonneg hplace he
    rwa [Int.zero_add] at hnonneg
  · have hacc := hback.accepted hpairs
    exact ⟨hacc.perm hp.symm, (hacc.applyAll_perm hp).trans (hback.applyAll_eq hpairs)⟩

/-- A character of two bytes is taken out between two insertions, and put in again between the
places where they stand. -/
theorem applyAll_inverses_touching :
    let content := ['(', 'é', 'x']
    let edits := [insert 3 ['c'], ⟨⟨1, 3⟩, [], ['é']⟩, insert 1 ['a', 'b']]
    let out := ['(', 'a', 'b', 'c', 'x']
    applyAll content edits = .ok out ∧ (leftToRight edits).IsChain KeptApart ∧
      applyAll out [insert 3 ['é'], ⟨⟨1, 3⟩, [], ['a', 'b']⟩, ⟨⟨3, 4⟩, [], ['c']⟩] = .ok content := by
  intro content edits out
  have hordered : ordered edits = edits := List.mergeSort_of_pairwise (by decide)
  have h : applyAll content edits = .ok out := by
    rw [applyAll, hordered]
    rfl
  have hread : leftToRight edits = edits.reverse := by
    rw [(accepted_of_applyAll h).leftToRight_eq, hordered]
  have hapart : (leftToRight edits).IsChain KeptApart := by
    rw [hread]
    simp [edits, KeptApart, insert]
  refine ⟨h, hapart, ((applyAll_inverses h hapart).2 _ ?_).2⟩
  rw [hread]
  decide

/-- The inverses of two neighbours that only take out texts are insertions at one place. -/
example : inverses [⟨⟨0, 1⟩, [], ['a']⟩, ⟨⟨1, 2⟩, [], ['b']⟩] =
    [insert 0 ['a'], insert 0 ['b']] := by decide

end ClientPatch.Edit
