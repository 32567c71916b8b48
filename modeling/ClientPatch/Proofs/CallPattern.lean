import Mathlib.Data.List.DropRight
import ClientPatch.Pattern
import ClientPatch.Proofs.CallScan

/-!
# Record calls as matches of a pattern

The occurrences of `.record(` are also what a search for a pattern finds, an optional name and the
characters of a call. The search is leftmost, so a name is taken whole; it goes on behind the
parenthesis, where no name goes on, so no match hides the name of the next one. Lines are counted
from one call to the next. Both ways give the same calls, each with the name that ends right before
its point.
-/

namespace ClientPatch

/-- The characters that a name may begin with. -/
def isNameStart (c : Char) : Bool := c.isAlpha || c == '_' || c == '$'

theorem isNameChar_eq (c : Char) : isNameChar c = (isNameStart c || c.isDigit) := by
  rw [isNameChar, isNameStart, Char.isAlphanum]
  cases c.isAlpha <;> cases c.isDigit <;> simp

/-- No name begins with a digit. -/
theorem isDigit_of_isNameStart {c : Char} (h : isNameStart c = true) : c.isDigit = false := by
  have hranges : isNameStart c = (decide (c.val ≥ 'A'.val ∧ c.val ≤ 'Z'.val) ||
      (decide (c.val ≥ 'a'.val) && decide (c.val ≤ 'z'.val)) || c == '_' || c == '$') := rfl
  simp only [hranges, Bool.or_eq_true, Bool.and_eq_true, decide_eq_true_eq, beq_iff_eq,
    UInt32.le_iff_toNat_le, ge_iff_le] at h
  rcases h with ((h | h) | rfl) | rfl
  · simp only [Char.isDigit, Bool.and_eq_false_iff, decide_eq_false_iff_not,
      UInt32.le_iff_toNat_le, ge_iff_le]
    have h₁ : 'A'.val.toNat = 65 := rfl
    have h₂ : '9'.val.toNat = 57 := rfl
    omega
  · simp only [Char.isDigit, Bool.and_eq_false_iff, decide_eq_false_iff_not,
      UInt32.le_iff_toNat_le, ge_iff_le]
    have h₁ : 'a'.val.toNat = 97 := rfl
    have h₂ : '9'.val.toNat = 57 := rfl
    omega
  · rfl
  · rfl

/-- A name: all its characters are those of names, and the first one may begin a name. -/
structure IsName (n : Text) : Prop where
  /-- It begins as names do. -/
  start : ∃ c cs, n = c :: cs ∧ isNameStart c = true
  /-- It goes on as names do. -/
  all : ∀ c ∈ n, isNameChar c = true

/-- The name that a text ends with: the characters of names at its end, as many as there are,
without the digits that they begin with. -/
def nameAtEnd (before : Text) : Text := (before.rtakeWhile isNameChar).dropWhile Char.isDigit

/-- The scan knows the name that ends where it stands. -/
theorem foldl_extendName (before : Text) :
    before.foldl extendName [] = (nameAtEnd before).reverse := by
  induction before using List.reverseRecOn with
  | nil => rfl
  | append_singleton before c ih =>
    rw [List.foldl_concat, ih, nameAtEnd, nameAtEnd]
    by_cases hc : isNameChar c = true
    · rw [List.rtakeWhile_concat_pos _ _ _ hc, List.dropWhile_append]
      by_cases hrun : (before.rtakeWhile isNameChar).dropWhile Char.isDigit = []
      · rw [hrun, extendName]
        by_cases hdigit : c.isDigit = true <;> simp [hc, hdigit]
      · simp [extendName, hc, hrun]
    · rw [List.rtakeWhile_concat_neg _ _ _ hc]
      simp [extendName, hc]

/-- In front of the name that a text ends with stands the rest of the text. -/
theorem exists_append_nameAtEnd (before : Text) : ∃ front, before = front ++ nameAtEnd before := by
  obtain ⟨x, hx⟩ := List.rtakeWhile_suffix isNameChar before
  obtain ⟨y, hy⟩ := List.dropWhile_suffix (l := before.rtakeWhile isNameChar) Char.isDigit
  exact ⟨x ++ y, by rw [List.append_assoc, nameAtEnd, hy, hx]⟩

theorem isName_nameAtEnd {before : Text} (h : nameAtEnd before ≠ []) :
    IsName (nameAtEnd before) := by
  have hall : ∀ c ∈ nameAtEnd before, isNameChar c = true := fun c hc =>
    List.mem_rtakeWhile_imp ((List.dropWhile_suffix Char.isDigit).subset hc)
  obtain ⟨c, cs, hcs⟩ := List.exists_cons_of_ne_nil h
  refine ⟨⟨c, cs, hcs, ?_⟩, hall⟩
  have hdigit : c.isDigit = false := by
    have hnot := List.head?_dropWhile_not Char.isDigit (before.rtakeWhile isNameChar)
    rw [← nameAtEnd, hcs] at hnot
    simpa using hnot
  have hc := hall c (hcs ▸ List.mem_cons_self)
  rwa [isNameChar_eq, hdigit, Bool.or_false] at hc

/-- No longer name ends there. -/
theorem length_le_nameAtEnd (front : Text) {name : Text} (h : IsName name) :
    name.length ≤ (nameAtEnd (front ++ name)).length := by
  have hrun : (front ++ name).rtakeWhile isNameChar = front.rtakeWhile isNameChar ++ name := by
    rw [List.rtakeWhile, List.rtakeWhile, List.reverse_append, List.takeWhile_append_of_pos,
      List.reverse_append, List.reverse_reverse]
    exact fun c hc => h.all c (List.mem_reverse.1 hc)
  have hname : name.dropWhile Char.isDigit = name := by
    obtain ⟨c, cs, rfl, hc⟩ := h.start
    rw [List.dropWhile_cons_of_neg (by simp [isDigit_of_isNameStart hc])]
  rw [nameAtEnd, hrun, List.dropWhile_append]
  split
  · rw [hname]
  · rw [List.length_append]
    omega

/-- The pattern of a record call: `([A-Za-z_$][A-Za-z0-9_$]*)?\.record\(`. -/
def callPattern : Pattern :=
  .andThen (.optional (.group (.andThen (.oneOf isNameStart) (.many isNameChar))))
    (.literal recordToken)

/-- The way to match a call behind a name. -/
def callWay (name rest : Text) : PatternWay where
  text := name ++ recordToken
  group := if name = [] then none else some ([], name)
  rest := rest

/-- The group of the pattern matches names. -/
theorem mem_ways_name {t text rest : Text} {group : Option (Text × Text)} :
    ⟨text, group, rest⟩ ∈ (Pattern.andThen (.oneOf isNameStart) (.many isNameChar)).ways t ↔
      t = text ++ rest ∧ IsName text ∧ group = none := by
  rw [Pattern.mem_ways_andThen]
  constructor
  · rintro ⟨⟨first, g, after⟩, hfirst, ⟨cs, g', rest'⟩, hcs, heq⟩
    obtain ⟨c, hc, rfl, rfl, rfl⟩ := Pattern.mem_ways_oneOf.1 hfirst
    obtain ⟨hafter, hall, rfl⟩ := Pattern.mem_ways_many.1 hcs
    obtain rfl : after = cs ++ rest' := hafter
    cases heq
    refine ⟨rfl, ⟨⟨c, cs, rfl, hc⟩, List.forall_mem_cons.2 ⟨?_, hall⟩⟩, rfl⟩
    rw [isNameChar_eq, hc, Bool.true_or]
  · rintro ⟨rfl, ⟨⟨c, cs, rfl, hc⟩, hall⟩, rfl⟩
    exact ⟨⟨[c], none, cs ++ rest⟩, Pattern.mem_ways_oneOf.2 ⟨c, hc, rfl, rfl, rfl⟩,
      ⟨cs, none, rest⟩, Pattern.mem_ways_many.2
        ⟨rfl, fun d hd => hall d (List.mem_cons_of_mem c hd), rfl⟩, rfl⟩

/-- A way to match a call is a name, or none, in front of the characters of a call. -/
theorem mem_ways_callPattern {t : Text} {a : PatternWay} :
    a ∈ callPattern.ways t ↔ ∃ name rest, (name = [] ∨ IsName name) ∧
      t = name ++ (recordToken ++ rest) ∧ a = callWay name rest := by
  rw [callPattern, Pattern.mem_ways_andThen]
  constructor
  · rintro ⟨⟨name, group, after⟩, hname, ⟨token, g, rest⟩, htoken, rfl⟩
    obtain ⟨hafter, rfl, rfl⟩ := Pattern.mem_ways_literal.1 htoken
    obtain rfl : after = recordToken ++ rest := hafter
    rcases Pattern.mem_ways_optional.1 hname with hgroup | hnone
    · obtain ⟨rfl, g, hg⟩ := Pattern.mem_ways_group.1 hgroup
      obtain ⟨ht, hisName, -⟩ := mem_ways_name.1 hg
      refine ⟨name, rest, Or.inr hisName, ht, ?_⟩
      obtain ⟨c, cs, rfl, -⟩ := hisName.start
      rfl
    · cases hnone
      exact ⟨[], rest, Or.inl rfl, rfl, rfl⟩
  · rintro ⟨name, rest, hname, rfl, rfl⟩
    have htoken : ⟨recordToken, none, rest⟩ ∈
        (Pattern.literal recordToken).ways (recordToken ++ rest) :=
      Pattern.mem_ways_literal.2 ⟨rfl, rfl, rfl⟩
    rcases hname with rfl | hname
    · exact ⟨_, Pattern.mem_ways_optional.2 (Or.inr rfl), _, htoken, rfl⟩
    · refine ⟨⟨name, some ([], name), recordToken ++ rest⟩,
        Pattern.mem_ways_optional.2 (Or.inl (Pattern.mem_ways_group.2
          ⟨rfl, none, mem_ways_name.2 ⟨rfl, hname, rfl⟩⟩)), _, htoken, ?_⟩
      obtain ⟨c, cs, rfl, -⟩ := hname.start
      rfl

/-- A name is read off in one way. -/
theorem name_unique {name name' rest rest' : Text} (h : ∀ c ∈ name, isNameChar c = true)
    (h' : ∀ c ∈ name', isNameChar c = true)
    (heq : name ++ (recordToken ++ rest) = name' ++ (recordToken ++ rest')) :
    name = name' ∧ rest = rest' := by
  have htake : ∀ {n r : Text}, (∀ c ∈ n, isNameChar c = true) →
      (n ++ (recordToken ++ r)).takeWhile isNameChar = n := by
    intro n r hn
    rw [List.takeWhile_append_of_pos hn]
    exact List.append_nil n
  have hname : name = name' := by rw [← htake h, heq, htake h']
  subst hname
  exact ⟨rfl, List.append_cancel_left (List.append_cancel_left heq)⟩

/-- Where a call stands behind a name, or behind none, it is matched with the name. -/
theorem head?_ways_callPattern {name : Text} (h : name = [] ∨ IsName name) (rest : Text) :
    (callPattern.ways (name ++ (recordToken ++ rest))).head? = some (callWay name rest) := by
  have hall : ∀ {n : Text}, n = [] ∨ IsName n → ∀ c ∈ n, isNameChar c = true := by
    rintro n (rfl | hn)
    · simp
    · exact hn.all
  have hmem := mem_ways_callPattern.2 ⟨name, rest, h, rfl, rfl⟩
  obtain ⟨a, as, hways⟩ := List.exists_cons_of_ne_nil (List.ne_nil_of_mem hmem)
  have ha : a ∈ callPattern.ways (name ++ (recordToken ++ rest)) := by
    rw [hways]
    exact List.mem_cons_self
  obtain ⟨name', rest', h', heq, rfl⟩ := mem_ways_callPattern.1 ha
  obtain ⟨rfl, rfl⟩ := name_unique (hall h) (hall h') heq
  rw [hways, List.head?_cons]

/-- A text without a call is searched in vain. -/
theorem find_callPattern_eq_none {t : Text} (h : ¬recordToken <:+: t) :
    callPattern.find t = none := by
  refine Pattern.find_eq_none fun front u ht => List.eq_nil_iff_forall_not_mem.2 fun a ha => ?_
  obtain ⟨name, rest, -, hu, -⟩ := mem_ways_callPattern.1 ha
  exact h ⟨front ++ name, rest, by rw [ht, hu]; simp⟩

/-- The search finds the first call, with the name in front of it. -/
theorem find_callPattern {before rest : Text}
    (hfirst : ∀ b r, before ++ (recordToken ++ rest) = b ++ (recordToken ++ r) →
      before.length ≤ b.length) :
    ∃ front, before = front ++ nameAtEnd before ∧
      callPattern.find (before ++ (recordToken ++ rest)) =
        some (front, callWay (nameAtEnd before) rest) := by
  obtain ⟨front, hfront⟩ := exists_append_nameAtEnd before
  have hname : nameAtEnd before = [] ∨ IsName (nameAtEnd before) := by
    by_cases hnil : nameAtEnd before = []
    · exact Or.inl hnil
    · exact Or.inr (isName_nameAtEnd hnil)
  refine ⟨front, hfront, ?_⟩
  generalize hn : nameAtEnd before = name at hfront hname
  rw [hfront, List.append_assoc]
  refine Pattern.find_append (head?_ways_callPattern hname rest) fun x c y hxy => ?_
  refine List.eq_nil_iff_forall_not_mem.2 fun a ha => ?_
  -- A match further left would give the call a longer name.
  obtain ⟨longer, rest', hlonger, heq, -⟩ := mem_ways_callPattern.1 ha
  have hle : (x ++ (c :: y ++ name)).length ≤ (x ++ longer).length := by
    have hbefore : before = x ++ (c :: y ++ name) := by rw [hfront, hxy]; simp
    rw [← hbefore]
    refine hfirst _ rest' ?_
    rw [List.append_assoc, ← heq, hbefore]
    simp
  have hisName : IsName longer := by
    refine hlonger.resolve_left ?_
    rintro rfl
    simp only [List.length_append, List.length_cons, List.length_nil] at hle
    omega
  have hsame : longer = c :: y ++ name := by
    rw [← List.append_assoc] at heq
    rcases List.append_eq_append_iff.1 heq with ⟨m, hm, htoken⟩ | ⟨m, hm, -⟩
    · cases m with
      | nil => rw [hm, List.append_nil]
      | cons d m =>
        obtain rfl : '.' = d := (List.cons.inj htoken).1
        exact absurd (hisName.all '.' (by rw [hm]; simp)) (by decide)
    · rw [hm] at hle
      simp only [List.length_append] at hle
      obtain rfl : m = [] := List.length_eq_zero_iff.1 (by omega)
      rw [hm, List.append_nil]
  have hcontra := length_le_nameAtEnd x hisName
  have hbefore : x ++ longer = before := by rw [hsame, hfront, hxy]; simp
  rw [hbefore, hn, hsame] at hcontra
  simp only [List.length_append, List.length_cons] at hcontra
  omega

/-- A scan comes to the first call of a text and goes on behind it. -/
theorem exists_first_call {t : Text} (h : recordToken <:+: t) (k : Cursor) :
    ∃ before rest, t = before ++ (recordToken ++ rest) ∧
      (∀ b r, t = b ++ (recordToken ++ r) → before.length ≤ b.length) ∧
      callSitesFrom k t = ⟨(k.advance before).call, rest⟩ ::
        callSitesFrom ((k.advance before).advance recordToken) rest := by
  induction t generalizing k with
  | nil => simp [recordToken] at h
  | cons c t ih =>
    cases hdrop : Text.dropPrefix? recordToken (c :: t) with
    | some rest =>
      have ht := Text.dropPrefix?_eq_some_iff.1 hdrop
      exact ⟨[], rest, ht, fun _ _ _ => Nat.zero_le _, by rw [ht, callSitesFrom_token]; rfl⟩
    | none =>
      have hnot : ∀ r, c :: t ≠ recordToken ++ r := by
        intro r hr
        rw [Text.dropPrefix?_eq_some_iff.2 hr] at hdrop
        cases hdrop
      have hlater : recordToken <:+: t := by
        rcases List.infix_cons_iff.1 h with ⟨r, hr⟩ | h
        · exact absurd hr.symm (hnot r)
        · exact h
      obtain ⟨before, rest, ht, hfirst, hscan⟩ := ih hlater (k.next c)
      refine ⟨c :: before, rest, by rw [ht]; rfl, fun b r hb => ?_, ?_⟩
      · cases b with
        | nil => exact absurd hb (hnot r)
        | cons d b => exact Nat.succ_le_succ (hfirst b r (List.cons.inj hb).2)
      · rw [callSitesFrom, hdrop, hscan]
        rfl

/-- The point of a call that is matched, and what it stands after. -/
def PatternMatch.point (m : PatternMatch) : Nat × CallForm :=
  match m.group with
  | some (stop, name) => (stop, .qualified name)
  | none => (m.start, .method)

/-- The calls of matches in a source. The byte `scanned` is on the line `line`, and lines are
counted on from there; nothing comes of matches between which the source cannot be cut. -/
def callsOfMatches (source : Text) :
    (scanned line : Nat) → List PatternMatch → Option (List RecordCall)
  | _, _, [] => some []
  | scanned, line, m :: ms =>
    let (offset, form) := m.point
    if offset < scanned then none
    else
      match Text.cut? scanned offset source with
      | none => none
      | some (_, between, _) =>
        let line := line + between.count '\n'
        (callsOfMatches source offset line ms).map (⟨offset, m.stop, line, form⟩ :: ·)

/-- A match with the name in front of the point tells the place of the call. -/
theorem point_matchAt (front name rest : Text) (start : Nat) :
    ((callWay name rest).matchAt (start + front.size)).point =
      (start + (front ++ name).size, CallForm.after name.reverse) := by
  by_cases hname : name = []
  · subst hname
    simp [callWay, PatternWay.matchAt, PatternMatch.point, CallForm.after]
  · simp [callWay, PatternWay.matchAt, PatternMatch.point, CallForm.after, hname, Nat.add_assoc]

/-- From a place where no name ends, searching for the pattern finds the calls of a scan. The lines
are counted on from the end of `passed`, where the last call was. -/
theorem exists_matches {source t : Text} (passed gap : Text) {k : Cursor} {line : Nat}
    (hsource : source = passed ++ (gap ++ t)) (hoffset : k.offset = (passed ++ gap).size)
    (hline : k.line = line + gap.count '\n') (hname : k.name = []) :
    ∃ ms, callPattern.Matches k.offset t ms ∧
      callsOfMatches source passed.size line ms = some ((callSitesFrom k t).map (·.call)) := by
  -- Each match leaves a shorter text behind it.
  induction hlength : t.length using Nat.strong_induction_on generalizing t passed gap k line with
  | _ n ih =>
    by_cases hcall : recordToken <:+: t
    · obtain ⟨before, rest, rfl, hfirst, hscan⟩ := exists_first_call hcall k
      obtain ⟨front, hfront, hfind⟩ := find_callPattern hfirst
      have hfound : (k.advance before).call =
          ⟨k.offset + before.size, k.offset + before.size + recordToken.size,
            line + (gap ++ before).count '\n', .after (nameAtEnd before).reverse⟩ := by
        simp only [Cursor.call, Cursor.offset_advance, Cursor.line_advance, Cursor.name_advance,
          hname, foldl_extendName, hline, List.count_append, Nat.add_assoc]
      have hbehind : k.offset + front.size + (callWay (nameAtEnd before) rest).text.size =
          ((k.advance before).advance recordToken).offset := by
        have hsize := congrArg Text.size hfront
        simp only [Cursor.offset_advance, callWay, Text.size_append] at hsize ⊢
        omega
      have hends : ((k.advance before).advance recordToken).name = [] := by
        rw [Cursor.name_advance]
        exact foldl_extendName_concat (c := '(') rfl recordToken.dropLast _
      have hshorter : rest.length < n := by
        rw [← hlength]
        simp only [List.length_append, recordToken, List.length_cons]
        omega
      have hsource' : source = (passed ++ (gap ++ before)) ++ (recordToken ++ rest) := by
        simp only [hsource, List.append_assoc]
      have hoffset' : ((k.advance before).advance recordToken).offset =
          ((passed ++ (gap ++ before)) ++ recordToken).size := by
        simp only [Cursor.offset_advance, hoffset, Text.size_append, Nat.add_assoc]
      have hline' : ((k.advance before).advance recordToken).line =
          line + (gap ++ before).count '\n' + recordToken.count '\n' := by
        simp only [Cursor.line_advance, hline, List.count_append, Nat.add_assoc]
      obtain ⟨ms, hms, hcalls⟩ := ih rest.length hshorter _ _ hsource' hoffset' hline' hends rfl
      rw [← hbehind] at hms
      refine ⟨_, .found hfind hms, ?_⟩
      have hpoint := point_matchAt front (nameAtEnd before) rest k.offset
      have hplace : k.offset + before.size = (passed ++ (gap ++ before)).size := by
        simp only [hoffset, Text.size_append, Nat.add_assoc]
      have hcut : Text.cut? passed.size (k.offset + before.size) source =
          some (passed, gap ++ before, recordToken ++ rest) := by
        rw [Text.cut?_eq_some_iff]
        refine ⟨by simp only [hsource, List.append_assoc], rfl, ?_⟩
        simp only [hplace, Text.size_append]
        omega
      have hstop : ((callWay (nameAtEnd before) rest).matchAt (k.offset + front.size)).stop =
          k.offset + before.size + recordToken.size := by
        rw [PatternWay.matchAt, hbehind, Cursor.offset_advance, Cursor.offset_advance]
      rw [← hfront] at hpoint
      rw [hscan, List.map_cons, hfound, callsOfMatches, hpoint, hstop]
      dsimp only
      rw [if_neg (by rw [hplace, Text.size_append]; omega), hcut]
      dsimp only
      rw [hplace, hcalls]
      rfl
    · refine ⟨[], .finished (find_callPattern_eq_none hcall), ?_⟩
      rw [callSitesFrom_eq_nil hcall]
      rfl

/-- The call stands right behind a text that the source begins with, under the name at the end of
that text if there is one. -/
structure RecordCall.StandsAfter (call : RecordCall) (before : Text) : Prop where
  /-- The point is behind the text. -/
  offset : call.offset = before.size
  /-- The arguments begin eight bytes further on. -/
  argsStart : call.argsStart = call.offset + 8
  /-- The lines that end in the text are counted. -/
  line : call.line = 1 + before.count '\n'
  /-- The name is the one that the text ends with. -/
  form : call.form =
    if nameAtEnd before = [] then .method else .qualified (nameAtEnd before)

theorem RecordCall.standsAfter_after (before : Text) : (after before).StandsAfter before where
  offset := rfl
  argsStart := rfl
  line := rfl
  form := by
    rw [after, foldl_extendName, CallForm.after]
    by_cases hname : nameAtEnd before = []
    · rw [if_pos hname, hname]
      rfl
    · rw [if_neg hname, List.isEmpty_reverse, List.reverse_reverse, if_neg (by simpa using hname)]

/-- The calls are those of the source: one for each occurrence of the characters of a call, in
order. -/
structure AreCallsOf (calls : List RecordCall) (source : Text) : Prop where
  /-- There is a call at every occurrence. -/
  complete : ∀ before rest, source = before ++ (recordToken ++ rest) →
    ∃ call ∈ calls, call.StandsAfter before
  /-- There is none elsewhere. -/
  sound : ∀ call ∈ calls, ∃ before rest, source = before ++ (recordToken ++ rest) ∧
    call.StandsAfter before
  /-- No two are at one place. -/
  ordered : calls.Pairwise fun a b => a.offset < b.offset

/-- The record calls of a source are the occurrences of the characters of a call, each once, in
order, and under the name in front of it; and searching for the pattern of a call, from one match
to the next, finds the same ones. -/
theorem recordCalls_exact (source : Text) :
    AreCallsOf (recordCalls source) source ∧
      ∃ ms, callPattern.Matches 0 source ms ∧
        callsOfMatches source 0 1 ms = some (recordCalls source) := by
  refine ⟨⟨fun before rest hsource => ?_, fun call hcall => ?_, ?_⟩, ?_⟩
  · have hsite : ⟨.after before, rest⟩ ∈ callSites source :=
      mem_callSites_iff.2 ⟨before, hsource, rfl⟩
    exact ⟨_, List.mem_map_of_mem hsite, RecordCall.standsAfter_after before⟩
  · obtain ⟨site, hsite, rfl⟩ := List.mem_map.1 hcall
    obtain ⟨before, hsource, hcall⟩ := mem_callSites_iff.1 hsite
    exact ⟨before, site.rest, hsource, hcall ▸ RecordCall.standsAfter_after before⟩
  · refine List.pairwise_map.2 ((pairwise_callSitesFrom .start source).imp_of_mem ?_)
    intro a b ha _ hab
    obtain ⟨before, -, hcall⟩ := mem_callSites_iff.1 ha
    rw [hcall, RecordCall.argsStart_after, size_recordToken] at hab
    rw [hcall, RecordCall.offset_after]
    omega
  · exact exists_matches [] [] (k := .start) rfl rfl rfl rfl

/-- Calls right behind one another, digits and letters in front of names, and a name on another
line than its point. -/
example : recordCalls "7a.record(.record.record(é9.record(z\n.record(".toList =
    [⟨2, 10, 1, .qualified ['a']⟩, ⟨17, 25, 1, .qualified "record".toList⟩,
      ⟨28, 36, 1, .method⟩, ⟨38, 46, 2, .method⟩] := by decide +kernel

end ClientPatch
