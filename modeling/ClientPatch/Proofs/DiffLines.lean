import ClientPatch.LineDiff.Script

/-!
# What a difference is made of

However a difference is split and tidied, it stays a difference of the two lists: what is kept and
removed makes up the old list, and what is kept and added the new one. So the removed lines of a
difference are lines of the old text in their order, and the added ones lines of the new text. As
such each has a line feed at its end or nowhere.
-/

namespace ClientPatch

namespace DiffBlock

variable {α : Type}

/-- The two lists that the blocks are a difference of. -/
def sides (bs : List (DiffBlock α)) : List α × List α := (oldLines bs, newLines bs)

@[simp] theorem sides_nil : sides ([] : List (DiffBlock α)) = ([], []) := rfl

@[simp] theorem sides_cons (b : DiffBlock α) (bs : List (DiffBlock α)) :
    sides (b :: bs) = (b.oldItems ++ (sides bs).1, b.newItems ++ (sides bs).2) := rfl

@[simp] theorem sides_append (bs cs : List (DiffBlock α)) :
    sides (bs ++ cs) = ((sides bs).1 ++ (sides cs).1, (sides bs).2 ++ (sides cs).2) := by
  simp only [sides, oldLines, newLines, List.flatMap_append]

attribute [simp] oldItems newItems

end DiffBlock

open DiffBlock (sides)

section Blocks

variable {α : Type}

@[simp] theorem sides_blockOf_keep (items : List α) :
    sides (blockOf .keep items) = (items, items) := by
  cases items <;> simp [blockOf]

@[simp] theorem sides_blockOf_remove (items : List α) :
    sides (blockOf .remove items) = (items, []) := by
  cases items <;> simp [blockOf]

@[simp] theorem sides_blockOf_add (items : List α) :
    sides (blockOf .add items) = ([], items) := by
  cases items <;> simp [blockOf]

@[simp] theorem reverse_blockOf (make : List α → DiffBlock α) (items : List α) :
    (blockOf make items).reverse = blockOf make items := by
  cases items <;> simp [blockOf]

@[simp] theorem sides_keepBefore (items : List α) (bs : List (DiffBlock α)) :
    sides (keepBefore items bs) = (items ++ (sides bs).1, items ++ (sides bs).2) := by
  unfold keepBefore
  split <;> simp

@[simp] theorem sides_reverse_keepAfter (items : List α) (bs : List (DiffBlock α)) :
    sides (keepAfter items bs).reverse =
      ((sides bs.reverse).1 ++ items, (sides bs.reverse).2 ++ items) := by
  unfold keepAfter
  split <;> simp

/-- Telling what is removed before what is added keeps both sides. -/
theorem sides_orderBlocks (removed added : List α) (bs : List (DiffBlock α)) :
    sides (orderBlocks removed added bs) = (removed ++ (sides bs).1, added ++ (sides bs).2) := by
  fun_induction orderBlocks removed added bs with
  | case1 removed added => simp
  | case2 removed added xs bs ih => simp [ih]
  | case3 removed added xs bs ih => simp [ih]
  | case4 removed added xs bs ih => simp [ih]

theorem sides_exhaust {move : BlockView α → Option (BlockView α)}
    (hmove : ∀ v v', move v = some v' → sides v'.blocks = sides v.blocks) (fuel : Nat)
    (v : BlockView α) : sides (exhaust move fuel v).blocks = sides v.blocks := by
  induction fuel generalizing v with
  | zero => rfl
  | succ fuel ih =>
    rw [exhaust]
    split
    · rename_i v' hv
      rw [ih, hmove v v' hv]
    · rfl

end Blocks

section Difference

variable {α : Type} [DecidableEq α]

theorem commonPrefix_isPrefix_left (as bs : List α) : commonPrefix as bs <+: as := by
  fun_induction commonPrefix as bs with
  | case1 as b bs ih => exact (List.prefix_cons_inj b).2 ih
  | case2 => exact List.nil_prefix
  | case3 => exact List.nil_prefix

theorem commonPrefix_isPrefix_right (as bs : List α) : commonPrefix as bs <+: bs := by
  fun_induction commonPrefix as bs with
  | case1 as b bs ih => exact (List.prefix_cons_inj b).2 ih
  | case2 => exact List.nil_prefix
  | case3 => exact List.nil_prefix

theorem commonSuffix_isSuffix_left (as bs : List α) : commonSuffix as bs <:+ as := by
  rw [commonSuffix, ← List.reverse_prefix, List.reverse_reverse]
  exact commonPrefix_isPrefix_left _ _

theorem commonSuffix_isSuffix_right (as bs : List α) : commonSuffix as bs <:+ bs := by
  rw [commonSuffix, ← List.reverse_prefix, List.reverse_reverse]
  exact commonPrefix_isPrefix_right _ _

/-- Halving splits both lists alike. -/
theorem sides_halve (fuel : Nat) (old new : List α) : sides (halve fuel old new) = (old, new) := by
  induction fuel generalizing old new with
  | zero => simp [halve]
  | succ fuel ih =>
    unfold halve
    dsimp only
    have hold := List.prefix_iff_eq_append.1 (commonPrefix_isPrefix_left old new)
    have hnew := List.prefix_iff_eq_append.1 (commonPrefix_isPrefix_right old new)
    generalize commonPrefix old new = front at hold hnew ⊢
    generalize old.drop front.length = oldRest at hold ⊢
    generalize new.drop front.length = newRest at hnew ⊢
    have hold' := List.suffix_iff_eq_append.1 (commonSuffix_isSuffix_left oldRest newRest)
    have hnew' := List.suffix_iff_eq_append.1 (commonSuffix_isSuffix_right oldRest newRest)
    generalize commonSuffix oldRest newRest = back at hold' hnew' ⊢
    generalize oldRest.take (oldRest.length - back.length) = oldMid at hold' ⊢
    generalize newRest.take (newRest.length - back.length) = newMid at hnew' ⊢
    subst hold' hnew' hold hnew
    -- What lies between the common ends is split anywhere, or replaced as a whole.
    split
    · simp
    · have hsplit : ∀ x y, sides (halve fuel (oldMid.take x) (newMid.take y) ++
          halve fuel (oldMid.drop x) (newMid.drop y)) = (oldMid, newMid) := by
        intro x y
        simp [ih]
      split
      · rw [DiffBlock.sides_append, DiffBlock.sides_append, hsplit]
        simp
      · simp

/-- Moving the block in view up keeps both sides. -/
theorem sides_up {v v' : BlockView α} (h : v.up = some v') : sides v'.blocks = sides v.blocks := by
  obtain ⟨before, block, after⟩ := v
  unfold BlockView.up at h
  dsimp only at h
  split at h
  · rename_i xs bs ys
    split at h
    · split at h
      · rename_i hxs
        cases h
        simp [BlockView.blocks, List.isEmpty_iff.1 hxs]
      · cases h
    · -- What an added block has in common with the kept one in front of it changes places with it.
      cases h
      have hxs := List.suffix_iff_eq_append.1 (commonSuffix_isSuffix_left xs ys)
      have hys := List.suffix_iff_eq_append.1 (commonSuffix_isSuffix_right xs ys)
      generalize commonSuffix xs ys = shared at hxs hys ⊢
      generalize xs.take (xs.length - shared.length) = xs' at hxs ⊢
      generalize ys.take (ys.length - shared.length) = ys' at hys ⊢
      subst hxs hys
      simp [BlockView.blocks]
  · split at h
    · rename_i hxs
      cases h
      simp [BlockView.blocks, List.isEmpty_iff.1 hxs]
    · cases h
  · cases h
    simp [BlockView.blocks]
  · cases h
    simp [BlockView.blocks]
  · cases h
    simp [BlockView.blocks]
  · cases h
    simp [BlockView.blocks]
  · cases h

/-- So does moving it down. -/
theorem sides_down {v v' : BlockView α} (h : v.down = some v') :
    sides v'.blocks = sides v.blocks := by
  obtain ⟨before, block, after⟩ := v
  unfold BlockView.down at h
  dsimp only at h
  split at h
  · rename_i xs bs ys
    split at h
    · split at h
      · rename_i hxs
        cases h
        simp [BlockView.blocks, List.isEmpty_iff.1 hxs]
      · cases h
    · cases h
      have hxs := List.prefix_iff_eq_append.1 (commonPrefix_isPrefix_left xs ys)
      have hys := List.prefix_iff_eq_append.1 (commonPrefix_isPrefix_right xs ys)
      generalize commonPrefix xs ys = shared at hxs hys ⊢
      generalize xs.drop shared.length = xs' at hxs ⊢
      generalize ys.drop shared.length = ys' at hys ⊢
      subst hxs hys
      simp [BlockView.blocks]
  · split at h
    · rename_i hxs
      cases h
      simp [BlockView.blocks, List.isEmpty_iff.1 hxs]
    · cases h
  · cases h
    simp [BlockView.blocks]
  · cases h
    simp [BlockView.blocks]
  · cases h
    simp [BlockView.blocks]
  · cases h
    simp [BlockView.blocks]
  · cases h

/-- Sliding blocks past others keeps both sides. -/
theorem sides_slideAll (bound : Nat) (isKind : DiffBlock α → Bool) (fuel : Nat)
    (before after : List (DiffBlock α)) :
    sides (slideAll bound isKind fuel before after) = sides (before.reverse ++ after) := by
  induction fuel generalizing before after with
  | zero => rfl
  | succ fuel ih =>
    cases after with
    | nil => simp [slideAll]
    | cons b after =>
      rw [slideAll]
      split
      · have hview : sides (exhaust BlockView.down bound
            (exhaust BlockView.up bound ⟨before, b, after⟩)).blocks =
              sides (before.reverse ++ b :: after) := by
          rw [sides_exhaust fun _ _ => sides_down, sides_exhaust fun _ _ => sides_up]
          rfl
        rw [ih, ← hview]
        simp [BlockView.blocks]
      · rw [ih]
        simp

/-- A difference of two lists is made of them. -/
theorem sides_difference (old new : List α) : sides (difference old new) = (old, new) := by
  unfold difference slide
  dsimp only
  simp only [sides_orderBlocks, sides_slideAll, List.reverse_nil, List.nil_append, sides_halve]

end Difference

/-- A line has a line feed at its end or nowhere. -/
theorem lineFeed_notMem_dropLast {t l : Text} (h : l ∈ linesOf t) : '\n' ∉ l.dropLast := by
  fun_induction linesOf t generalizing l with
  | case1 => cases h
  | case2 t ih =>
    rcases List.mem_cons.1 h with rfl | h
    · decide
    · exact ih h
  | case3 c t _ hc ih =>
    rcases List.mem_cons.1 h with rfl | h
    · exact List.not_mem_nil
    · exact ih h
  | case4 c t _ hc hl ih =>
    obtain rfl := List.mem_singleton.1 h
    exact List.not_mem_nil
  | case5 c t _ hc first ls hl ih =>
    rw [hl] at ih
    rcases List.mem_cons.1 h with rfl | h
    · cases first with
      | nil => exact List.not_mem_nil
      | cons d first =>
        rw [List.dropLast_cons_cons, List.mem_cons, not_or]
        exact ⟨fun he => hc (.inl he.symm), ih List.mem_cons_self⟩
    · exact ih (List.mem_cons_of_mem first h)

/-- No line is empty. -/
theorem ne_nil_of_mem_linesOf {t l : Text} (h : l ∈ linesOf t) : l ≠ [] := by
  fun_induction linesOf t generalizing l with
  | case1 => cases h
  | case2 t ih =>
    rcases List.mem_cons.1 h with rfl | h
    · exact List.cons_ne_nil _ _
    · exact ih h
  | case3 c t _ hc ih =>
    rcases List.mem_cons.1 h with rfl | h
    · exact List.cons_ne_nil _ _
    · exact ih h
  | case4 c t _ hc hl ih =>
    obtain rfl := List.mem_singleton.1 h
    exact List.cons_ne_nil _ _
  | case5 c t _ hc first ls hl ih =>
    rw [hl] at ih
    rcases List.mem_cons.1 h with rfl | h
    · exact List.cons_ne_nil _ _
    · exact ih (List.mem_cons_of_mem first h)

/-- What stands in a line stands in the text. -/
theorem mem_of_mem_linesOf {t l : Text} (h : l ∈ linesOf t) {c : Char} (hc : c ∈ l) : c ∈ t := by
  rw [← flatten_linesOf t]
  exact List.mem_flatten_of_mem h hc

/-- Without carriage returns every line but the last ends with a line feed. -/
theorem getLast?_of_mem_dropLast_linesOf {t l : Text} (ht : '\r' ∉ t)
    (h : l ∈ (linesOf t).dropLast) : l.getLast? = some '\n' := by
  fun_induction linesOf t generalizing l with
  | case1 => cases h
  | case2 t ih => exact absurd List.mem_cons_self ht
  | case3 c t _ hc ih =>
    rw [List.mem_cons, not_or] at ht
    obtain rfl : c = '\n' := hc.resolve_right fun hc => ht.1 hc.symm
    cases hl : linesOf t with
    | nil =>
      rw [hl] at h
      cases h
    | cons first ls =>
      rw [hl, List.dropLast_cons_cons, ← hl] at h
      rcases List.mem_cons.1 h with rfl | h
      · rfl
      · exact ih ht.2 h
  | case4 c t _ hc hl ih => cases h
  | case5 c t _ hc first ls hl ih =>
    rw [List.mem_cons, not_or] at ht
    rw [hl] at ih
    cases ls with
    | nil => cases h
    | cons second ls =>
      rw [List.dropLast_cons_cons] at h ih
      rcases List.mem_cons.1 h with rfl | h
      · have hlast := ih ht.2 List.mem_cons_self
        cases first with
        | nil => cases hlast
        | cons d first => rwa [List.getLast?_cons_cons]
      · exact ih ht.2 (List.mem_cons_of_mem first h)

namespace LineChange

/-- The changed lines of one side, in order. -/
def ofSide (isAdded : Bool) (cs : List LineChange) : List Text :=
  (cs.filter (·.isAdded == isAdded)).map (·.line)

theorem ofSide_append (isAdded : Bool) (cs ds : List LineChange) :
    ofSide isAdded (cs ++ ds) = ofSide isAdded cs ++ ofSide isAdded ds := by
  simp [ofSide]

/-- The changed lines of one side are some of the lines of that side. -/
theorem ofSide_changes_sublist (isAdded : Bool) (bs : List (DiffBlock Text)) :
    (ofSide isAdded (bs.flatMap DiffBlock.changes)).Sublist
      (if isAdded then (sides bs).2 else (sides bs).1) := by
  induction bs with
  | nil => exact List.nil_sublist _
  | cons b bs ih =>
    rw [List.flatMap_cons, ofSide_append, DiffBlock.sides_cons]
    cases isAdded with
    | false =>
      refine List.Sublist.append ?_ ih
      cases b <;> simp [ofSide, DiffBlock.changes, List.filter_map, Function.comp_def]
    | true =>
      refine List.Sublist.append ?_ ih
      cases b <;> simp [ofSide, DiffBlock.changes, List.filter_map, Function.comp_def]

end LineChange

/-- The changed lines of one side are some of the lines of its text, in their order. -/
theorem ofSide_lineChanges_sublist (isAdded : Bool) (old new : Text) :
    (LineChange.ofSide isAdded (lineChanges old new)).Sublist
      (linesOf (if isAdded then new else old)) := by
  have h := LineChange.ofSide_changes_sublist isAdded (difference (linesOf old) (linesOf new))
  rw [sides_difference] at h
  cases isAdded <;> exact h

/-- A changed line is a line of the text of its side. -/
theorem line_mem_of_mem_lineChanges {old new : Text} {c : LineChange}
    (h : c ∈ lineChanges old new) : c.line ∈ linesOf (if c.isAdded then new else old) := by
  refine (ofSide_lineChanges_sublist c.isAdded old new).subset ?_
  exact List.mem_map_of_mem (List.mem_filter.2 ⟨h, by simp⟩)

end ClientPatch
