import ClientPatch.Edit
import Mathlib.Data.List.Pairwise

/-!
# Edits that fit and edits in conflict

Whether an edit fits a text is a matter of that text alone, and whether two edits conflict a
matter of their spans alone. The checks of an edit list are exact for both: every edit passes
its check when all fit, and the look at neighbours in the order of making finds a collision
when any two edits of the list conflict. The second holds because in that order the spans of
edits without a collision lie one before the other, and this is carried from neighbours to
all pairs.
-/

namespace ClientPatch

namespace Text

/-- Byte `n` is the start of a character of the text, or its end. -/
def IsBoundary (t : Text) (n : Nat) : Prop := ∃ a b, t = a ++ b ∧ size a = n

/-- The bytes from `start` up to, and without, `stop`; nothing when they cannot be cut out. -/
def slice? (start stop : Nat) (t : Text) : Option Text := (cut? start stop t).map (·.2.1)

/-- The text can be cut at two places, the second one not in front of the first, and what stands
between them can be taken out. -/
structure CanSlice (t : Text) (start stop : Nat) : Prop where
  /-- The places come in order. -/
  le : start ≤ stop
  /-- They are within the text. -/
  stop_le : stop ≤ t.size
  /-- The first one is between characters. -/
  start_boundary : t.IsBoundary start
  /-- So is the second one. -/
  stop_boundary : t.IsBoundary stop
  /-- There is a text between them. -/
  slice : ∃ m, t.slice? start stop = some m

theorem IsBoundary.canSlice {t : Text} {start stop : Nat} (hstart : t.IsBoundary start)
    (hstop : t.IsBoundary stop) (hle : start ≤ stop) : t.CanSlice start stop := by
  refine ⟨hle, ?_, hstart, hstop, ?_⟩
  · obtain ⟨a, b, rfl, rfl⟩ := hstop
    rw [size_append]
    omega
  · obtain ⟨a, b, rfl, rfl⟩ := hstart
    obtain ⟨c, d, hcut, rfl⟩ := hstop
    obtain ⟨m, rfl, rfl⟩ := append_split hcut hle
    refine ⟨m, ?_⟩
    rw [slice?, cut?_eq_some_iff.2 ⟨rfl, rfl, by rw [size_append]; omega⟩]
    rfl

end Text

namespace Edit

/-- The edit can be made on `content`. -/
structure Fits (content : Text) (e : Edit) : Prop where
  /-- The span does not run backwards. -/
  start_le : e.start ≤ e.stop
  /-- The span does not run past the end. -/
  stop_le : e.stop ≤ content.size
  /-- The span begins between characters. -/
  start_boundary : content.IsBoundary e.start
  /-- The span ends between characters. -/
  stop_boundary : content.IsBoundary e.stop
  /-- The span holds the announced text. -/
  slice : content.slice? e.start e.stop = some e.before

/-- A fitting edit divides the text into what stands before, in and after its span. -/
theorem fits_iff {content : Text} {e : Edit} :
    Fits content e ↔ ∃ a z, content = a ++ (e.before ++ z) ∧
      e.start = a.size ∧ e.stop = e.start + e.before.size := by
  constructor
  · intro h
    obtain ⟨⟨a, m, z⟩, hcut, hm⟩ := Option.map_eq_some_iff.1 h.slice
    obtain ⟨hc, ha, hs⟩ := Text.cut?_eq_some_iff.1 hcut
    subst hm
    have hle := h.start_le
    exact ⟨a, z, hc, ha.symm, by omega⟩
  · rintro ⟨a, z, rfl, hstart, hstop⟩
    have hcut := Text.cut?_eq_some_iff.2
      (⟨rfl, hstart.symm, by omega⟩ : a ++ (e.before ++ z) = a ++ (e.before ++ z) ∧
        a.size = e.start ∧ e.before.size = e.stop - e.start)
    refine ⟨by omega, ?_, ⟨a, e.before ++ z, rfl, hstart.symm⟩,
      ⟨a ++ e.before, z, by simp, ?_⟩, by rw [Text.slice?, hcut]; rfl⟩
    · simp only [Text.size_append]
      omega
    · rw [Text.size_append]
      omega

/-- The check of one edit passes exactly the fitting ones. -/
theorem check_eq_ok_iff {content : Text} {e : Edit} :
    check content e = .ok () ↔ Fits content e := by
  constructor
  · intro h
    obtain ⟨a, z, hcut⟩ := cut?_of_check h
    obtain ⟨hc, ha, hs⟩ := Text.cut?_eq_some_iff.1 hcut
    have hle : e.start ≤ e.stop := by
      by_contra hlt
      rw [check, if_pos (Or.inl (by omega))] at h
      cases h
    exact fits_iff.2 ⟨a, z, hc, ha.symm, by omega⟩
  · intro h
    obtain ⟨a, z, hc, hstart, hstop⟩ := fits_iff.1 h
    have hin : ¬(e.start > e.stop ∨ e.stop > content.size) := by
      have h₁ := h.start_le
      have h₂ := h.stop_le
      omega
    have ha : content.splitAt? e.start = some (a, e.before ++ z) :=
      Text.splitAt?_eq_some_iff.2 ⟨hc.symm, hstart.symm⟩
    have hz : Text.splitAt? (e.stop - e.start) (e.before ++ z) = some (e.before, z) :=
      Text.splitAt?_eq_some_iff.2 ⟨rfl, by omega⟩
    rw [check, if_neg hin, ha]
    simp only [hz, if_true]

theorem forM_check_eq_ok_iff {content : Text} {edits : List Edit} :
    edits.forM (check content) = .ok () ↔ ∀ e ∈ edits, Fits content e := by
  induction edits with
  | nil => simp [List.forM, pure, Except.pure]
  | cons e edits ih =>
    change (check content e >>= fun _ => edits.forM (check content)) = .ok () ↔ _
    rw [List.forall_mem_cons, ← ih, ← check_eq_ok_iff]
    cases check content e with
    | error err => simp [bind, Except.bind]
    | ok u => simp [bind, Except.bind]

/-- Some byte lies in both spans. -/
def Meets (a b : Edit) : Prop := ∃ n, (a.start ≤ n ∧ n < a.stop) ∧ b.start ≤ n ∧ n < b.stop

/-- The first edit is an insertion strictly inside the span of the second. -/
def IsInside (a b : Edit) : Prop := a.start = a.stop ∧ b.start < a.start ∧ a.start < b.stop

/-- Both edits are insertions at one offset. -/
def SamePoint (a b : Edit) : Prop := a.start = a.stop ∧ b.start = b.stop ∧ a.start = b.start

/-- The two edits compete for a place. -/
def Conflict (a b : Edit) : Prop := Meets a b ∨ IsInside a b ∨ IsInside b a ∨ SamePoint a b

/-- For spans that do not run backwards the first three kinds of conflict are one comparison. -/
theorem conflict_iff {a b : Edit} (ha : a.start ≤ a.stop) (hb : b.start ≤ b.stop) :
    Conflict a b ↔ (a.start < b.stop ∧ b.start < a.stop) ∨ SamePoint a b := by
  constructor
  · rintro (⟨n, h₁, h₂⟩ | h | h | h)
    · exact Or.inl (by omega)
    · exact Or.inl (by unfold IsInside at h; omega)
    · exact Or.inl (by unfold IsInside at h; omega)
    · exact Or.inr h
  · rintro (h | h)
    · by_cases hpa : a.start = a.stop
      · exact Or.inr (Or.inl (by unfold IsInside; omega))
      · by_cases hpb : b.start = b.stop
        · exact Or.inr (Or.inr (Or.inl (by unfold IsInside; omega)))
        · exact Or.inl ⟨max a.start b.start, by omega, by omega⟩
    · exact Or.inr (Or.inr (Or.inr h))

theorem Conflict.symm {a b : Edit} (h : Conflict a b) : Conflict b a := by
  rcases h with ⟨n, h₁, h₂⟩ | h | h | ⟨h₁, h₂, h₃⟩
  · exact Or.inl ⟨n, h₂, h₁⟩
  · exact Or.inr (Or.inr (Or.inl h))
  · exact Or.inr (Or.inl h)
  · exact Or.inr (Or.inr (Or.inr ⟨h₂, h₁, h₃.symm⟩))

/-- The order of making is by the start, and for one start by the end, both downwards. -/
theorem isMadeBefore_iff {a b : Edit} :
    isMadeBefore a b = true ↔ b.start < a.start ∨ b.start = a.start ∧ b.stop ≤ a.stop := by
  simp [isMadeBefore]

/-- A collision is an overreach of the edit made later, or an insertion at the same offset. -/
theorem collides_iff {later earlier : Edit} :
    collides later earlier = true ↔ later.start < earlier.stop ∨ SamePoint later earlier := by
  simp [collides, isInsertion, SamePoint, and_assoc]

/-- In the order of making a collision is a conflict. -/
theorem collides_iff_conflict {later earlier : Edit} (ho : isMadeBefore later earlier = true)
    (hl : later.start ≤ later.stop) (he : earlier.start ≤ earlier.stop) :
    collides later earlier = true ↔ Conflict later earlier := by
  rw [collides_iff, conflict_iff hl he]
  rw [isMadeBefore_iff] at ho
  refine or_congr_left' fun hn => ?_
  unfold SamePoint at hn
  omega

/-- Of three edits the outer two collide only if two neighbours do: the span of the middle one
keeps them apart. -/
private theorem apart_trans {a b c : Edit} (hb : b.start ≤ b.stop)
    (hab : collides a b = false) (hbc : collides b c = false) : collides a c = false := by
  rw [Bool.eq_false_iff, ne_eq, collides_iff] at hab hbc ⊢
  unfold SamePoint at *
  omega

/-- The look at neighbours finds a collision if there is one between any two edits. -/
theorem firstCollision_eq_none_iff {order : List Edit} (hw : ∀ e ∈ order, e.start ≤ e.stop) :
    firstCollision order = none ↔ order.Pairwise fun a b => collides a b = false := by
  induction order with
  | nil => simp [firstCollision]
  | cons a rest ih =>
    cases rest with
    | nil => simp [firstCollision]
    | cons b rest =>
      have hw' := fun e he => hw e (List.mem_cons_of_mem a he)
      rw [firstCollision, List.pairwise_cons]
      constructor
      · intro h
        split at h
        · cases h
        · rename_i hab
          have hab : collides a b = false := by simpa using hab
          have hrest := (ih hw').1 h
          refine ⟨fun c hc => ?_, hrest⟩
          rcases List.mem_cons.1 hc with rfl | hc
          · exact hab
          · exact apart_trans (hw' b List.mem_cons_self) hab
              ((List.pairwise_cons.1 hrest).1 c hc)
      · rintro ⟨hab, hrest⟩
        rw [hab b List.mem_cons_self]
        exact (ih hw').2 hrest

theorem isMadeBefore_trans (a b c : Edit) (hab : isMadeBefore a b = true)
    (hbc : isMadeBefore b c = true) : isMadeBefore a c = true := by
  rw [isMadeBefore_iff] at *
  omega

theorem isMadeBefore_total (a b : Edit) : (isMadeBefore a b || isMadeBefore b a) = true := by
  rw [Bool.or_eq_true, isMadeBefore_iff, isMadeBefore_iff]
  omega

theorem ordered_perm (edits : List Edit) : (ordered edits).Perm edits :=
  List.mergeSort_perm edits isMadeBefore

theorem ordered_pairwise (edits : List Edit) :
    (ordered edits).Pairwise fun a b => isMadeBefore a b = true :=
  List.pairwise_mergeSort isMadeBefore_trans isMadeBefore_total edits

/-- An edit list that can be made on `content`: every edit fits and no two conflict. -/
structure Accepted (content : Text) (edits : List Edit) : Prop where
  /-- Every edit fits the text. -/
  fits : ∀ e ∈ edits, Fits content e
  /-- No two edits compete for a place. -/
  apart : edits.Pairwise fun a b => ¬Conflict a b

theorem Accepted.perm {content : Text} {edits edits' : List Edit} (h : Accepted content edits)
    (hp : edits.Perm edits') : Accepted content edits' where
  fits := fun e he => h.fits e (hp.mem_iff.2 he)
  apart := (hp.pairwise_iff fun hab hc => hab hc.symm).1 h.apart

/-- The checks and the look at neighbours pass exactly the accepted lists. -/
theorem checked_iff_accepted {content : Text} {edits : List Edit} :
    ((ordered edits).forM (check content) = .ok () ∧ firstCollision (ordered edits) = none) ↔
      Accepted content edits := by
  have hperm := ordered_perm edits
  have hpair := ordered_pairwise edits
  rw [forM_check_eq_ok_iff]
  have hconf (hw : ∀ e ∈ ordered edits, Fits content e) :
      firstCollision (ordered edits) = none ↔
        (ordered edits).Pairwise fun a b => ¬Conflict a b := by
    have hiff {a b : Edit} (ha : a ∈ ordered edits) (hb : b ∈ ordered edits)
        (hab : isMadeBefore a b = true) : collides a b = false ↔ ¬Conflict a b := by
      rw [Bool.eq_false_iff, ne_eq,
        collides_iff_conflict hab (hw a ha).start_le (hw b hb).start_le]
    rw [firstCollision_eq_none_iff fun e he => (hw e he).start_le]
    constructor
    · intro h
      exact (hpair.and h).imp_of_mem fun ha hb hab => (hiff ha hb hab.1).1 hab.2
    · intro h
      exact (hpair.and h).imp_of_mem fun ha hb hab => (hiff ha hb hab.1).2 hab.2
  constructor
  · rintro ⟨hw, hn⟩
    exact Accepted.perm ⟨hw, (hconf hw).1 hn⟩ hperm
  · intro h
    have h' := h.perm hperm.symm
    exact ⟨h'.fits, (hconf h'.fits).2 h'.apart⟩

end Edit

end ClientPatch
