import ClientPatch.RecordCall

/-!
# The scan for record calls

The scan finds a record call at exactly the occurrences of its characters, and two of them never
overlap: the point only begins them and the parenthesis only ends them. A place in the scan
depends on nothing but the text before it. The arguments of a call carry the key when they
follow a small grammar, and the test for it is exact.
-/

namespace ClientPatch

/-- The call whose point comes right after a text that stands at the start of the source. -/
def RecordCall.after (before : Text) : RecordCall where
  offset := before.size
  argsStart := before.size + recordToken.size
  line := 1 + before.count '\n'
  form := .after (before.foldl extendName [])

namespace RecordCall

@[simp] theorem offset_after (before : Text) : (after before).offset = before.size := rfl

@[simp] theorem argsStart_after (before : Text) :
    (after before).argsStart = before.size + recordToken.size := rfl

@[simp] theorem line_after (before : Text) : (after before).line = 1 + before.count '\n' := rfl

end RecordCall

/-- The call behind some more bytes and lines. -/
def RecordCall.moved (c : RecordCall) (bytes lines : Nat) : RecordCall :=
  { c with
    offset := c.offset + bytes
    argsStart := c.argsStart + bytes
    line := c.line + lines }

/-- The same with the text behind it. -/
def CallSite.moved (s : CallSite) (bytes lines : Nat) : CallSite :=
  { s with call := s.call.moved bytes lines }

@[simp] theorem CallSite.call_moved (s : CallSite) (bytes lines : Nat) :
    (s.moved bytes lines).call = s.call.moved bytes lines := rfl

@[simp] theorem CallSite.rest_moved (s : CallSite) (bytes lines : Nat) :
    (s.moved bytes lines).rest = s.rest := rfl

/-- The arguments follow the grammar of a call with its key: blanks, the key type, blanks and a
comma. -/
def IsKeyed (keyType arguments : Text) : Prop :=
  ∃ w₁ w₂ rest, arguments = w₁ ++ (keyType ++ (w₂ ++ ',' :: rest)) ∧
    (∀ c ∈ w₁, Text.isBlank c = true) ∧ ∀ c ∈ w₂, Text.isBlank c = true

/-- No name goes on behind a character that is in none. -/
theorem foldl_extendName_concat {c : Char} (h : isNameChar c = false) (t name : Text) :
    (t ++ [c]).foldl extendName name = [] := by
  simp [extendName, h]

namespace Cursor

/-- The place after some more text. -/
def advance (k : Cursor) (t : Text) : Cursor := t.foldl next k

@[simp] theorem advance_nil (k : Cursor) : k.advance [] = k := rfl

@[simp] theorem advance_cons (k : Cursor) (c : Char) (t : Text) :
    k.advance (c :: t) = (k.next c).advance t := rfl

@[simp] theorem offset_advance (k : Cursor) (t : Text) :
    (k.advance t).offset = k.offset + t.size := by
  induction t generalizing k with
  | nil => simp
  | cons c t ih => rw [advance_cons, ih, next, Text.size_cons, Nat.add_assoc]

theorem line_advance (k : Cursor) (t : Text) :
    (k.advance t).line = k.line + t.count '\n' := by
  induction t generalizing k with
  | nil => simp
  | cons c t ih =>
    rw [advance_cons, ih, next]
    by_cases hc : c = '\n'
    · subst hc
      rw [List.count_cons_self, Nat.add_comm (t.count '\n'), ← Nat.add_assoc]
      rfl
    · rw [List.count_cons_of_ne hc, if_neg hc]

theorem name_advance (k : Cursor) (t : Text) :
    (k.advance t).name = t.foldl extendName k.name := by
  induction t generalizing k with
  | nil => rfl
  | cons c t ih => rw [advance_cons, ih, next, List.foldl_cons]

/-- From the start of a source, a place is known by the text before it. -/
theorem call_advance_start (before : Text) :
    (start.advance before).call = RecordCall.after before := by
  simp only [call, RecordCall.after, offset_advance, line_advance, name_advance, start,
    Nat.zero_add]

/-- The place behind some more bytes and lines, where the same name ends. -/
def moved (k : Cursor) (bytes lines : Nat) : Cursor :=
  { k with offset := k.offset + bytes, line := k.line + lines }

theorem next_moved (k : Cursor) (bytes lines : Nat) (c : Char) :
    (k.moved bytes lines).next c = (k.next c).moved bytes lines := by
  have hoffset : k.offset + bytes + c.utf8Size = k.offset + c.utf8Size + bytes :=
    Nat.add_right_comm _ _ _
  by_cases hc : c = '\n'
  · simp only [next, moved, hoffset, if_pos hc, Nat.add_right_comm k.line lines 1]
  · simp only [next, moved, hoffset, if_neg hc]

theorem advance_moved (k : Cursor) (bytes lines : Nat) (t : Text) :
    (k.moved bytes lines).advance t = (k.advance t).moved bytes lines := by
  induction t generalizing k with
  | nil => rfl
  | cons c t ih => rw [advance_cons, advance_cons, next_moved, ih]

theorem call_moved (k : Cursor) (bytes lines : Nat) :
    (k.moved bytes lines).call = k.call.moved bytes lines := by
  simp only [call, moved, RecordCall.moved, Nat.add_right_comm k.offset bytes]

/-- A text behind which the same name ends only moves the place. -/
theorem advance_eq_moved {k : Cursor} {t : Text} (h : t.foldl extendName k.name = k.name) :
    k.advance t = k.moved t.size (t.count '\n') := by
  have hoffset := offset_advance k t
  have hline := line_advance k t
  have hname := (name_advance k t).trans h
  rcases hk : k.advance t with ⟨offset, line, name⟩
  rw [hk] at hoffset hline hname
  subst hoffset hline hname
  rfl

end Cursor

/-- No call begins within the characters of another one. -/
theorem callSitesFrom_token (k : Cursor) (rest : Text) :
    callSitesFrom k (recordToken ++ rest) =
      ⟨k.call, rest⟩ :: callSitesFrom (k.advance recordToken) rest := by
  simp [recordToken, callSitesFrom, Text.dropPrefix?, Cursor.advance]

/-- From a place behind more bytes and lines a scan finds the same calls, moved as the place. -/
theorem callSitesFrom_moved (k : Cursor) (bytes lines : Nat) (t : Text) :
    callSitesFrom (k.moved bytes lines) t =
      (callSitesFrom k t).map fun s => s.moved bytes lines := by
  induction t generalizing k with
  | nil => rfl
  | cons c t ih =>
    rw [callSitesFrom, callSitesFrom, Cursor.next_moved, ih, Cursor.call_moved]
    cases Text.dropPrefix? recordToken (c :: t) <;> rfl

/-- A scan finds exactly the occurrences of the characters of a call. -/
theorem mem_callSitesFrom_iff {k : Cursor} {t : Text} {s : CallSite} :
    s ∈ callSitesFrom k t ↔
      ∃ before, t = before ++ (recordToken ++ s.rest) ∧ s.call = (k.advance before).call := by
  induction t generalizing k with
  | nil => simp [callSitesFrom, recordToken]
  | cons c t ih =>
    have hlater : s ∈ callSitesFrom (k.next c) t ↔ ∃ before, c :: t =
        c :: before ++ (recordToken ++ s.rest) ∧ s.call = (k.advance (c :: before)).call := by
      simp [ih]
    have hsplit : s ∈ callSitesFrom k (c :: t) ↔
        (c :: t = recordToken ++ s.rest ∧ s.call = k.call) ∨ s ∈ callSitesFrom (k.next c) t := by
      rw [callSitesFrom]
      split
      · rename_i arguments h
        have h := Text.dropPrefix?_eq_some_iff.1 h
        rw [List.mem_cons, h, List.append_cancel_left_eq]
        refine or_congr_left ?_
        rcases s with ⟨call, rest⟩
        simp [and_comm, eq_comm]
      · rename_i h
        refine (or_iff_right fun hc => ?_).symm
        rw [Text.dropPrefix?_eq_some_iff.2 hc.1] at h
        cases h
    rw [hsplit, hlater]
    constructor
    · rintro (⟨ht, hs⟩ | ⟨before, ht, hs⟩)
      · exact ⟨[], ht, hs⟩
      · exact ⟨c :: before, ht, hs⟩
    · rintro ⟨before, ht, hs⟩
      cases before with
      | nil => exact Or.inl ⟨ht, hs⟩
      | cons d before =>
        obtain rfl : c = d := (List.cons.inj ht).1
        exact Or.inr ⟨before, ht, hs⟩

/-- The calls of a scan come in order, each after the parenthesis of the one before. -/
theorem pairwise_callSitesFrom (k : Cursor) (t : Text) :
    (callSitesFrom k t).Pairwise fun a b => a.call.argsStart ≤ b.call.offset := by
  induction t generalizing k with
  | nil => simp [callSitesFrom]
  | cons c t ih =>
    rw [callSitesFrom]
    split
    · rename_i arguments h
      refine List.pairwise_cons.2 ⟨fun s hs => ?_, ih (k.next c)⟩
      have htoken := callSitesFrom_token k arguments
      rw [← Text.dropPrefix?_eq_some_iff.1 h, callSitesFrom, h] at htoken
      rw [(List.cons.inj htoken).2] at hs
      obtain ⟨before, -, hcall⟩ := mem_callSitesFrom_iff.1 hs
      rw [hcall]
      simp only [Cursor.call, Cursor.offset_advance]
      omega
    · exact ih (k.next c)

/-- The calls of a source are the occurrences of the characters of a call, placed by the text
before them. -/
theorem mem_callSites_iff {source : Text} {s : CallSite} :
    s ∈ callSites source ↔
      ∃ before, source = before ++ (recordToken ++ s.rest) ∧ s.call = .after before := by
  simp only [callSites, mem_callSitesFrom_iff, Cursor.call_advance_start]

/-- The text ends with a character that only ends a call, or is in none. No call can then begin
in it and end beyond it. -/
def EndsCall (x : Text) : Prop := ∀ c ∈ x.getLast?, c ∉ recordToken.dropLast

theorem endsCall_token (x : Text) : EndsCall (x ++ recordToken) := by
  intro c hc
  rw [List.getLast?_append, show recordToken.getLast? = some '(' from rfl] at hc
  obtain rfl : '(' = c := Option.some.inj hc
  decide

/-- A call in two parts stands in one of them when the first part ends calls. -/
theorem call_in_append {x y p q : Text} (hx : EndsCall x)
    (h : x ++ y = p ++ (recordToken ++ q)) :
    (∃ m, x = p ++ (recordToken ++ m) ∧ q = m ++ y) ∨
      ∃ m, p = x ++ m ∧ y = m ++ (recordToken ++ q) := by
  rcases List.append_eq_append_iff.1 h with ⟨m, hp, hy⟩ | ⟨m, hxm, hm⟩
  · exact Or.inr ⟨m, hp, hy⟩
  · rcases List.append_eq_append_iff.1 hm with ⟨m', hm', hq⟩ | ⟨m', htoken, hy⟩
    · exact Or.inl ⟨m', by rw [hxm, hm'], hq⟩
    · by_cases hne : m' = []
      · rw [hne, List.append_nil] at htoken
        exact Or.inl ⟨[], by simp [hxm, htoken], by simp [hy, hne]⟩
      · rcases List.eq_nil_or_concat m with rfl | ⟨m, d, rfl⟩
        · exact Or.inr ⟨[], by simp [hxm], by simpa using hm.symm⟩
        · -- The call would cross the seam after `d`, which is then none of its last characters.
          refine absurd ?_ (hx d (by simp [hxm]))
          rw [htoken, List.dropLast_append_of_ne_nil hne]
          simp

/-- A call that ends before the end of another one ends before its start. -/
theorem call_before_token {a p m : Text} (h : a ++ recordToken = p ++ (recordToken ++ m))
    (hm : m ≠ []) : ∃ m', m = m' ++ recordToken ∧ a = p ++ (recordToken ++ m') := by
  have hsplit : (p ++ recordToken) ++ m = a ++ (recordToken ++ []) := by
    rw [List.append_nil, h, List.append_assoc]
  rcases call_in_append (endsCall_token p) hsplit with ⟨m', -, hnil⟩ | ⟨m', ha, hm'⟩
  · exact absurd (List.append_eq_nil_iff.1 hnil.symm).2 hm
  · exact ⟨m', by rw [hm', List.append_nil], by rw [ha, List.append_assoc]⟩

/-- A scan passes a seam behind the end of a call as if the scans of both parts were joined. -/
theorem callSitesFrom_append {x : Text} (hx : EndsCall x) (k : Cursor) (y : Text) :
    callSitesFrom k (x ++ y) =
      (callSitesFrom k x).map (fun s => { s with rest := s.rest ++ y }) ++
        callSitesFrom (k.advance x) y := by
  induction x generalizing k with
  | nil => rfl
  | cons c x ih =>
    have hends : EndsCall x := by
      intro d hd
      refine hx d ?_
      rw [List.getLast?_cons, hd]
      rfl
    have hrest := ih hends (k.next c)
    have hcross : ∀ arguments, Text.dropPrefix? recordToken ((c :: x) ++ y) = some arguments →
        ∃ m, Text.dropPrefix? recordToken (c :: x) = some m ∧ arguments = m ++ y := by
      intro arguments h
      have hcall : (c :: x) ++ y = recordToken ++ arguments := Text.dropPrefix?_eq_some_iff.1 h
      rcases call_in_append (p := []) hx hcall with ⟨m, hm, harguments⟩ | ⟨m, hm, -⟩
      · exact ⟨m, Text.dropPrefix?_eq_some_iff.2 hm, harguments⟩
      · cases hm
    rw [List.cons_append, callSitesFrom, callSitesFrom, hrest, Cursor.advance_cons]
    cases hfirst : Text.dropPrefix? recordToken (c :: x) with
    | some m =>
      have hcall : c :: (x ++ y) = recordToken ++ (m ++ y) := by
        rw [← List.append_assoc, ← Text.dropPrefix?_eq_some_iff.1 hfirst, List.cons_append]
      simp only [Text.dropPrefix?_eq_some_iff.2 hcall, List.map_cons, List.cons_append]
    | none =>
      have hnone : Text.dropPrefix? recordToken (c :: (x ++ y)) = none := by
        rw [Option.eq_none_iff_forall_ne_some]
        intro arguments h
        obtain ⟨m, hm, -⟩ := hcross arguments h
        rw [hfirst] at hm
        cases hm
      simp only [hnone]

/-- A text that holds no call has none to be found. -/
theorem callSitesFrom_eq_nil {x : Text} (hfree : ¬recordToken <:+: x) (k : Cursor) :
    callSitesFrom k x = [] := by
  refine List.eq_nil_iff_forall_not_mem.2 fun s hs => ?_
  obtain ⟨before, hx, -⟩ := mem_callSitesFrom_iff.1 hs
  exact hfree ⟨before, s.rest, by rw [hx, List.append_assoc]⟩

/-- Nothing of the text shows in a scan: it holds no call and begins none, and no name goes on
behind it. -/
structure IsInert (x : Text) : Prop where
  /-- It holds no call. -/
  free : ¬recordToken <:+: x
  /-- It begins no call. -/
  ends : EndsCall x
  /-- Behind it no name goes on. -/
  name : x.foldl extendName [] = []

theorem isInert_nil : IsInert [] where
  free := by decide
  ends := by simp [EndsCall]
  name := rfl

/-- A scan passes over such a text, and only its place has moved. -/
theorem IsInert.callSitesFrom_append {x : Text} (hx : IsInert x) {k : Cursor}
    (hk : k.name = []) (y : Text) :
    callSitesFrom k (x ++ y) = callSitesFrom (k.moved x.size (x.count '\n')) y := by
  have hname : x.foldl extendName k.name = k.name := by rw [hk, hx.name]
  rw [ClientPatch.callSitesFrom_append hx.ends, callSitesFrom_eq_nil hx.free,
    Cursor.advance_eq_moved hname]
  rfl

/-- Characters that are in no call do not help to make one up. -/
theorem token_infix_append_iff {x y : Text} (hy : ∀ c ∈ y, c ∉ recordToken) :
    recordToken <:+: x ++ y ↔ recordToken <:+: x := by
  refine ⟨fun h => ?_, fun h => h.trans (List.prefix_append x y).isInfix⟩
  rcases List.infix_append_iff_ne_nil.1 h with h | h | ⟨u, v, -, hv, htoken, -, hsuff⟩
  · exact h
  · exact absurd (List.mem_cons_self : '.' ∈ recordToken) (hy '.' (h.subset List.mem_cons_self))
  · obtain ⟨d, hd⟩ := List.exists_mem_of_ne_nil v hv
    exact absurd (by rw [htoken]; exact List.mem_append_right u hd) (hy d (hsuff.subset hd))

theorem token_infix_append_left_iff {x y : Text} (hx : ∀ c ∈ x, c ∉ recordToken) :
    recordToken <:+: x ++ y ↔ recordToken <:+: y := by
  refine ⟨fun h => ?_, fun h => h.trans (List.suffix_append x y).isInfix⟩
  rcases List.infix_append_iff_ne_nil.1 h with h | h | ⟨u, v, hu, -, htoken, hpre, -⟩
  · exact absurd (List.mem_cons_self : '.' ∈ recordToken) (hx '.' (h.subset List.mem_cons_self))
  · exact h
  · obtain ⟨d, hd⟩ := List.exists_mem_of_ne_nil u hu
    exact absurd (by rw [htoken]; exact List.mem_append_left v hd) (hx d (hpre.subset hd))

theorem notMem_token_of_isBlank {c : Char} (h : Text.isBlank c = true) : c ∉ recordToken := by
  intro hc
  have hall : recordToken.all (fun d => !Text.isBlank d) = true := by decide
  have hnot := List.all_eq_true.1 hall c hc
  rw [h] at hnot
  cases hnot

private theorem trimStart_blanks {w t : Text} (hw : ∀ c ∈ w, Text.isBlank c = true) :
    Text.trimStart (w ++ t) = Text.trimStart t :=
  List.dropWhile_append_of_pos hw

private theorem trimStart_of_head {t : Text} (ht : ∀ c ∈ t.head?, Text.isBlank c = false) :
    Text.trimStart t = t := by
  cases t with
  | nil => rfl
  | cons c t => rw [Text.trimStart, List.dropWhile_cons_of_neg (by simp [ht c rfl])]

private theorem exists_trimStart (t : Text) :
    ∃ w, t = w ++ Text.trimStart t ∧ ∀ c ∈ w, Text.isBlank c = true :=
  ⟨t.takeWhile Text.isBlank, List.takeWhile_append_dropWhile.symm,
    fun c hc => List.all_eq_true.1 List.all_takeWhile c hc⟩

/-- The text `core` is what is left of `t` without the blanks at its two ends. -/
structure Text.IsTrimOf (core t : Text) : Prop where
  /-- Only blanks stand around it. -/
  around : ∃ w₁ w₂, t = w₁ ++ (core ++ w₂) ∧ (∀ c ∈ w₁, isBlank c = true) ∧
    ∀ c ∈ w₂, isBlank c = true
  /-- It does not begin with a blank. -/
  head : ∀ c ∈ core.head?, isBlank c = false
  /-- It does not end with a blank. -/
  last : ∀ c ∈ core.getLast?, isBlank c = false

theorem Text.isTrimOf_trim (t : Text) : (trim t).IsTrimOf t where
  around := by
    obtain ⟨w₁, hw₁, hb₁⟩ := exists_trimStart t
    obtain ⟨w₂, hw₂, hb₂⟩ := exists_trimStart (trimStart t).reverse
    refine ⟨w₁, w₂.reverse, ?_, hb₁, fun c hc => hb₂ c (List.mem_reverse.1 hc)⟩
    have hback : trimStart t = trim t ++ w₂.reverse := by
      rw [trim, trimEnd, ← trimStart, ← List.reverse_append, ← hw₂, List.reverse_reverse]
    rw [← hback, ← hw₁]
  head := fun c hc => isBlank_head?_trim hc
  last := by
    intro c hc
    have hnot := List.head?_dropWhile_not isBlank (trimStart t).reverse
    rw [trim, trimEnd, List.getLast?_reverse] at hc
    rw [hc] at hnot
    exact hnot

/-- The test for the key accepts exactly the grammar, and no key type that begins with a
blank. -/
theorem hasKey_iff {keyType arguments : Text} :
    hasKey keyType arguments = true ↔
      (∀ c ∈ keyType.head?, Text.isBlank c = false) ∧ IsKeyed keyType arguments := by
  constructor
  · intro h
    rw [hasKey] at h
    split at h
    · cases h
    · rename_i rest hrest
      have hrest := Text.dropPrefix?_eq_some_iff.1 hrest
      obtain ⟨w₁, hw₁, hb₁⟩ := exists_trimStart arguments
      obtain ⟨w₂, hw₂, hb₂⟩ := exists_trimStart rest
      obtain ⟨r, hr⟩ := List.head?_eq_some_iff.1 (eq_of_beq h)
      refine ⟨fun c hc => ?_, w₁, w₂, r, ?_, hb₁, hb₂⟩
      · have hnot := List.head?_dropWhile_not Text.isBlank arguments
        rw [← Text.trimStart, hrest, List.head?_append, hc] at hnot
        exact hnot
      · rw [← hr, ← hw₂, ← hrest, ← hw₁]
  · rintro ⟨hhead, w₁, w₂, rest, rfl, hb₁, hb₂⟩
    have hcomma : Text.trimStart (w₂ ++ ',' :: rest) = ',' :: rest := by
      rw [trimStart_blanks hb₂]
      rfl
    rw [hasKey, trimStart_blanks hb₁]
    cases keyType with
    | nil =>
      rw [List.nil_append, hcomma]
      rfl
    | cons c keyType =>
      rw [trimStart_of_head (by simpa using hhead),
        Text.dropPrefix?_eq_some_iff.2 rfl]
      simp only [hcomma]
      rfl

/-- For a rule's own key type the test is the grammar. -/
theorem hasKey_trim_iff {keyType arguments : Text} :
    hasKey (Text.trim keyType) arguments = true ↔ IsKeyed (Text.trim keyType) arguments := by
  rw [hasKey_iff]
  exact and_iff_right fun c hc => Text.isBlank_head?_trim hc

end ClientPatch
