import ClientPatch.Proofs.RulesCommute
import Mathlib

/-!
# The calls of a source in what the rules make of it

The rules keep the calls of a source: each of them is found again in what comes out, in the
same form, behind the bytes and the lines that were put in before it, and no other call is
found. A piece stands behind a parenthesis and shows in no scan, so what follows it is scanned
as what followed the parenthesis: the scan of the result is the scan of the source, part by
part, and its place is moved by the line in front and by the pieces so far.
-/

namespace ClientPatch

/-- A call that is found lies in the text that was scanned. -/
theorem bounds_of_mem_callSitesFrom {k : Cursor} {t : Text} {s : CallSite}
    (hs : s ∈ callSitesFrom k t) :
    k.offset ≤ s.call.offset ∧ s.call.offset + recordToken.size ≤ k.offset + t.size := by
  obtain ⟨before, ht, hcall⟩ := mem_callSitesFrom_iff.1 hs
  have hoffset : s.call.offset = k.offset + before.size := by
    rw [hcall, Cursor.call, Cursor.offset_advance]
  have hsize : t.size = before.size + (recordToken.size + s.rest.size) := by
    rw [ht, Text.size_append, Text.size_append]
  omega

/-- The calls of a scan that passes a seam behind the end of a call. -/
theorem map_call_callSitesFrom_append {x : Text} (hx : EndsCall x) (k : Cursor) (y : Text) :
    (callSitesFrom k (x ++ y)).map (·.call) =
      (callSitesFrom k x).map (·.call) ++ (callSitesFrom (k.advance x) y).map (·.call) := by
  rw [callSitesFrom_append hx, List.map_append, List.map_map]
  rfl

/-- The calls of a scan from a place behind more bytes and lines. -/
theorem map_call_callSitesFrom_moved (k : Cursor) (bytes lines : Nat) (t : Text) :
    (callSitesFrom (k.moved bytes lines) t).map (·.call) =
      ((callSitesFrom k t).map (·.call)).map fun c => c.moved bytes lines := by
  rw [callSitesFrom_moved, List.map_map, List.map_map]
  rfl

/-- How many of the calls begin before a place. -/
def RecordCall.countBefore (calls : List RecordCall) (offset : Nat) : Nat :=
  calls.countP fun c => c.offset < offset

namespace Inserted

variable {piece t out : Text} {start : Nat} {calls : List RecordCall}

/-- The calls that get a piece do not begin before the place that the text goes on from. -/
theorem le_offset (h : Inserted piece start calls t out) : ∀ c ∈ calls, start ≤ c.offset := by
  induction h with
  | nil => simp
  | @cons start a t out c calls hoffset hargs h ih =>
    intro d hd
    rcases List.mem_cons.1 hd with rfl | hd
    · omega
    · have hlater := ih d hd
      omega

/-- The calls of the result are those of the text, each moved by the pieces before it. -/
theorem map_call_callSitesFrom (h : Inserted piece start calls t out) (hpiece : IsInert piece)
    {k : Cursor} (hk : k.offset = start) (bytes lines : Nat) :
    (callSitesFrom (k.moved bytes lines) out).map (·.call) =
      ((callSitesFrom k t).map (·.call)).map fun c =>
        c.moved (bytes + RecordCall.countBefore calls c.offset * piece.size)
          (lines + RecordCall.countBefore calls c.offset * piece.count '\n') := by
  induction h generalizing k bytes lines with
  | nil =>
    rw [map_call_callSitesFrom_moved]
    simp [RecordCall.countBefore]
  | @cons start a t out c calls hoffset hargs h ih =>
    subst hk
    have hends := endsCall_token a
    have hstart : (k.advance (a ++ recordToken)).offset = c.argsStart := by
      rw [Cursor.offset_advance, Text.size_append]
      omega
    have hname : (k.advance (a ++ recordToken)).name = [] := by
      have htoken : a ++ recordToken = (a ++ recordToken.dropLast) ++ ['('] := by
        simp [recordToken]
      rw [Cursor.name_advance, htoken]
      exact foldl_extendName_concat (by decide) _ _
    -- The part up to the piece is scanned as before, and no piece stands in it.
    have hbefore : ∀ d ∈ (callSitesFrom k (a ++ recordToken)).map (·.call),
        RecordCall.countBefore (c :: calls) d.offset = 0 := by
      intro d hd
      obtain ⟨s, hs, rfl⟩ := List.mem_map.1 hd
      have hle := (bounds_of_mem_callSitesFrom hs).2
      rw [Text.size_append] at hle
      refine List.countP_eq_zero.2 fun x hx => ?_
      rw [decide_eq_true_eq, Nat.not_lt]
      rcases List.mem_cons.1 hx with rfl | hx
      · omega
      · have hlater := h.le_offset x hx
        omega
    -- Behind the piece one piece more has been put in.
    have hbehind : ∀ d ∈ (callSitesFrom (k.advance (a ++ recordToken)) t).map (·.call),
        RecordCall.countBefore (c :: calls) d.offset =
          RecordCall.countBefore calls d.offset + 1 := by
      intro d hd
      obtain ⟨s, hs, rfl⟩ := List.mem_map.1 hd
      have hle := (bounds_of_mem_callSitesFrom hs).1
      rw [hstart, hargs, size_recordToken] at hle
      refine List.countP_cons_of_pos ?_
      rw [decide_eq_true_eq]
      omega
    have hmoved : ((k.moved bytes lines).advance (a ++ recordToken)).moved piece.size
          (piece.count '\n') =
        (k.advance (a ++ recordToken)).moved (bytes + piece.size)
          (lines + piece.count '\n') := by
      rw [Cursor.advance_moved]
      simp only [Cursor.moved, Nat.add_assoc]
    have hpassed : ((k.moved bytes lines).advance (a ++ recordToken)).name = [] := by
      rw [Cursor.advance_moved]
      exact hname
    rw [← List.append_assoc, ← List.append_assoc a recordToken t,
      map_call_callSitesFrom_append hends, map_call_callSitesFrom_append hends,
      hpiece.callSitesFrom_append hpassed, hmoved, ih hstart, List.map_append]
    refine congrArg₂ (· ++ ·) ?_ (List.map_congr_left fun d hd => ?_)
    · rw [map_call_callSitesFrom_moved]
      refine List.map_congr_left fun d hd => ?_
      rw [hbefore d hd, Nat.zero_mul, Nat.zero_mul, Nat.add_zero, Nat.add_zero]
    · rw [hbehind d hd, Nat.add_mul, Nat.add_mul, Nat.one_mul, Nat.one_mul,
        Nat.add_assoc, Nat.add_assoc, Nat.add_comm piece.size, Nat.add_comm (piece.count '\n')]

end Inserted

/-- The calls of the source are the calls of the result, moved by what was put in before them. -/
structure Transformed.KeepsCalls (banner keyType : Option Text) (source : Text) (t : Transformed) :
    Prop where
  /-- There are as many calls as before, and each has its form. -/
  forms : (recordCalls t.contents).map (·.form) = (recordCalls source).map (·.form)
  /-- Each stands behind the line in front and behind one piece for every call before it that
  was given its key. -/
  offsets : (recordCalls t.contents).map (·.offset) = (recordCalls source).map fun c =>
    c.offset + (t.line banner).size + (keyPiece keyType).size *
      RecordCall.countBefore t.normalized (c.offset + (t.line banner).size)
  /-- Unless the banner or the key type has more than one line, each stands one line further down
  when the line was put in, and else on the line where it stood. -/
  lines : (∀ b ∈ banner, '\n' ∉ b) → (∀ key ∈ keyType, '\n' ∉ key) →
    (recordCalls t.contents).map (·.line) =
      (recordCalls source).map fun c => c.line + if t.bannerInserted then 1 else 0

/-- A banner of one line puts in one line, or none. -/
theorem Transformed.count_line {banner : Option Text} (h : ∀ b ∈ banner, '\n' ∉ b)
    (t : Transformed) : (t.line banner).count '\n' = if t.bannerInserted then 1 else 0 := by
  unfold line
  split
  · have hnone : (banner.getD []).count '\n' = 0 := by
      refine List.count_eq_zero.2 ?_
      cases banner with
      | none => exact List.not_mem_nil
      | some b => exact h b rfl
    rw [List.count_append, hnone]
    rfl
  · rfl

/-- A key type on one line puts in no line. -/
theorem count_keyPiece {keyType : Option Text} (h : ∀ key ∈ keyType, '\n' ∉ key) :
    (keyPiece keyType).count '\n' = 0 := by
  refine List.count_eq_zero.2 ?_
  cases keyType with
  | none => exact List.not_mem_nil
  | some key =>
    intro hmem
    rcases List.mem_append.1 hmem with hmem | hmem
    · exact h key rfl ((Text.trim_isInfix key).subset hmem)
    · revert hmem
      decide

theorem isInert_keyPiece {keyType : Option Text} (h : ∀ key ∈ keyType, ¬recordToken <:+: key) :
    IsInert (keyPiece keyType) := by
  cases keyType with
  | none => exact isInert_nil
  | some key => exact isInert_insertion fun hin => h key rfl (hin.trans (Text.trim_isInfix key))

namespace Rules

/-- The rules move the calls of a source, and make and lose none. -/
theorem Makes.recordCalls_eq {rules : Rules} {source out : Text} (h : rules.Makes source out)
    (hfree : rules.BannerFree) (hpiece : IsInert rules.piece) :
    recordCalls out = (recordCalls source).map fun c =>
      c.moved
        ((rules.bannerLine source).size +
          RecordCall.countBefore (rules.lacking (rules.bannered source))
            (c.offset + (rules.bannerLine source).size) * rules.piece.size)
        ((rules.bannerLine source).count '\n' +
          RecordCall.countBefore (rules.lacking (rules.bannered source))
            (c.offset + (rules.bannerLine source).size) * rules.piece.count '\n') := by
  have hcalls := Inserted.map_call_callSitesFrom h hpiece (rfl : Cursor.start.offset = 0) 0 0
  have hbannered := congrArg (List.map (·.call)) (callSites_bannered hfree source)
  rw [callSites, List.map_map] at hbannered
  rw [hbannered, List.map_map] at hcalls
  rw [recordCalls, recordCalls, List.map_map]
  refine hcalls.trans (List.map_congr_left fun s _ => ?_)
  simp only [Function.comp_apply, CallSite.call_moved, RecordCall.moved, Nat.zero_add,
    Nat.add_assoc]

/-- Whatever the banner and the key type, as long as neither holds a call: the rules make and
lose no call of a source and change the form of none, and each call moves by the line in front
and by the pieces before it. -/
theorem transform_keepsCalls {banner keyType : Option Text}
    (hbanner : ∀ b ∈ banner, ¬recordToken <:+: b)
    (hkey : ∀ key ∈ keyType, ¬recordToken <:+: key) (source : Text) :
    ∃ t, (ofTexts banner keyType).transform source = .ok t ∧
      t.KeepsCalls banner keyType source := by
  obtain ⟨out, htransform, hmakes⟩ := exists_transform (ofTexts banner keyType) source
  have hfree : (ofTexts banner keyType).BannerFree := by
    intro b hb
    cases banner with
    | none => cases hb
    | some text =>
      cases hb
      exact hbanner text rfl
  have hpiece : IsInert (ofTexts banner keyType).piece := by
    rw [piece_ofTexts]
    exact isInert_keyPiece hkey
  have hcalls := hmakes.recordCalls_eq hfree hpiece
  rw [piece_ofTexts] at hcalls
  have hline := line_eq_bannerLine banner keyType source out
    ((ofTexts banner keyType).lacking ((ofTexts banner keyType).bannered source))
  refine ⟨_, htransform, ?_, ?_, fun hb hk => ?_⟩
  · rw [hcalls, List.map_map]
    rfl
  · rw [hcalls, List.map_map, hline]
    refine List.map_congr_left fun c _ => ?_
    simp only [Function.comp_apply, RecordCall.moved, Nat.mul_comm, Nat.add_assoc]
  · rw [hcalls, List.map_map, ← Transformed.count_line hb, hline, count_keyPiece hk]
    refine List.map_congr_left fun c _ => ?_
    simp only [Function.comp_apply, RecordCall.moved, Nat.mul_zero, Nat.add_zero]

/-- Calls in each other's arguments, one of which has its key. -/
private def interleaved : Text := "z.record(a.record( .record ,b\n$1.record(.record(c".toList

/-- The same behind a banner and with the keys. -/
private def interleavedResult : Text :=
  "#z.record\nz.record(.record, a.record( .record ,b\n$1.record(.record, .record(.record, c".toList

private theorem transform_interleaved :
    ((ofTexts (some "#z.record".toList) (some " .record ".toList)).transform
      interleaved).toOption.map (·.contents) = some interleavedResult := by
  cbv

/-- The banner and the key type end in the middle of a call. -/
theorem transform_keepsCalls_partial_call :
    (∀ b ∈ some "#z.record".toList, ¬recordToken <:+: b) ∧
      (∀ key ∈ some " .record ".toList, ¬recordToken <:+: key) ∧
      ∃ t, (ofTexts (some "#z.record".toList) (some " .record ".toList)).transform
          interleaved = .ok t ∧
        t.KeepsCalls (some "#z.record".toList) (some " .record ".toList) interleaved ∧
        recordCalls t.contents = [⟨11, 19, 2, .qualified ['z']⟩, ⟨29, 37, 2, .qualified ['a']⟩,
          ⟨51, 59, 3, .qualified ['$', '1']⟩, ⟨68, 76, 3, .method⟩] := by
  have hbanner : ∀ b ∈ some "#z.record".toList, ¬recordToken <:+: b := by
    intro b hb
    cases hb
    rw [← Text.hasInfix_iff]
    decide
  have hkey : ∀ key ∈ some " .record ".toList, ¬recordToken <:+: key := by
    intro key hk
    cases hk
    rw [← Text.hasInfix_iff]
    decide
  obtain ⟨t, ht, hkeeps⟩ := transform_keepsCalls hbanner hkey interleaved
  have hresult := transform_interleaved
  rw [ht] at hresult
  have hcontents : t.contents = interleavedResult := Option.some.inj hresult
  refine ⟨hbanner, hkey, t, ht, hkeeps, ?_⟩
  rw [hcontents]
  decide +kernel

end Rules

end ClientPatch
