import ClientPatch.Patch
import ClientPatch.Proofs.KeyInsertion

/-!
# What the rules do to a source

The rules never fail on a source. They put the banner line in front where it is missing, and
then one piece, the key type with a comma, at exactly the calls that end beyond the banner and
lack their key. Nothing else changes, the report names these calls by their places between
the two steps, and a report of nothing done means that the text is the same.
-/

namespace ClientPatch

namespace Rules

/-- The line that the banner rule puts in front of a source; nothing when the rule is off or
the banner is there. -/
def bannerLine (rules : Rules) (source : Text) : Text :=
  match rules.banner with
  | none => []
  | some b => if b.isPresent source then [] else b.text ++ ['\n']

/-- The source with its banner. -/
def bannered (rules : Rules) (source : Text) : Text := rules.bannerLine source ++ source

/-- The number of bytes of the banner; zero when its rule is off. -/
def bannerSize (rules : Rules) : Nat := (rules.banner.map fun b => b.text.size).getD 0

/-- The text begins with the banner, unless its rule is off. -/
def Begins (rules : Rules) (t : Text) : Prop := ∀ b ∈ rules.banner, b.text <+: t

/-- What the record rule puts in front of arguments; nothing when the rule is off. -/
def piece (rules : Rules) : Text := (rules.record.map (·.insertion)).getD []

/-- The calls beyond the banner that lack their key. -/
def lacking (rules : Rules) (t : Text) : List RecordCall := (rules.recordPlan t).map (·.1)

theorem bannerLine_eq_nil_iff (rules : Rules) (source : Text) :
    rules.bannerLine source = [] ↔ rules.Begins source := by
  unfold bannerLine Begins
  cases rules.banner with
  | none => simp
  | some b =>
    by_cases hp : b.isPresent source = true
    · simpa [hp] using Text.hasPrefix_iff.1 hp
    · simpa [hp] using fun h => hp (Text.hasPrefix_iff.2 h)

theorem begins_bannered (rules : Rules) (source : Text) :
    rules.Begins (rules.bannered source) := by
  intro b hb
  unfold bannered bannerLine
  rw [hb]
  by_cases hp : b.isPresent source = true
  · simpa [hp] using Text.hasPrefix_iff.1 hp
  · simp [hp]

/-- Behind a banner that is there, its end is found at its size. -/
theorem bannerEnd_eq {rules : Rules} {t : Text} (h : rules.Begins t) :
    rules.bannerEnd t = rules.bannerSize := by
  unfold bannerEnd bannerSize
  cases hb : rules.banner with
  | none => rfl
  | some b =>
    have hp : b.isPresent t = true := Text.hasPrefix_iff.2 (h b hb)
    simp only [hp, if_true]
    rfl

theorem bannerEnd_bannered (rules : Rules) (source : Text) :
    rules.bannerEnd (rules.bannered source) = rules.bannerSize :=
  bannerEnd_eq (rules.begins_bannered source)

private theorem applyAll_front (line source : Text) :
    Edit.applyAll source [Edit.insert 0 line] = .ok (line ++ source) := by
  have hw : Edit.Woven 0 ([] ++ source) [Edit.insert 0 line] ([] ++ (line ++ source)) :=
    .cons_insert line rfl .nil
  exact hw.applyAll_eq (List.pairwise_singleton _ _)

theorem bannerStep_eq (rules : Rules) (source : Text) :
    rules.bannerStep source =
      .ok (rules.bannered source, !(rules.bannerLine source).isEmpty) := by
  unfold bannerStep bannered bannerLine
  cases rules.banner with
  | none => rfl
  | some b =>
    by_cases hp : b.isPresent source = true
    · simp [Banner.plan, hp]
    · simp [Banner.plan, hp, applyAll_front]

/-- The calls of the plan are those of the scan that lack the key and end beyond the banner. -/
theorem lacking_eq (rules : Rules) (t : Text) :
    rules.lacking t = match rules.record with
      | none => []
      | some r => ((callSites t).filter fun s =>
          decide (rules.bannerEnd t < s.call.argsStart) && !hasKey r.keyType s.rest).map
            (·.call) := by
  unfold lacking recordPlan
  cases rules.record with
  | none => rfl
  | some r =>
    simp only [RecordKey.plan, RecordKey.missing, List.filter_map, List.map_map,
      List.filter_filter, Function.comp_def]

/-- A call is on the plan when it ends beyond the banner and what follows it is no key. -/
theorem mem_lacking_iff {rules : Rules} {t : Text} {c : RecordCall} :
    c ∈ rules.lacking t ↔ ∃ r ∈ rules.record, ∃ p q, t = p ++ (recordToken ++ q) ∧
      c = RecordCall.after p ∧ rules.bannerEnd t < c.argsStart ∧
      hasKey r.keyType q = false := by
  rw [lacking_eq]
  cases rules.record with
  | none => simp
  | some r =>
    simp only [List.mem_map, List.mem_filter, mem_callSites_iff, Bool.and_eq_true,
      decide_eq_true_eq, Bool.not_eq_true', Option.mem_some_iff, exists_eq_left']
    constructor
    · rintro ⟨s, ⟨⟨p, ht, hs⟩, hlt, hkey⟩, rfl⟩
      exact ⟨p, s.rest, ht, hs, hlt, hkey⟩
    · rintro ⟨p, q, ht, rfl, hlt, hkey⟩
      exact ⟨⟨RecordCall.after p, q⟩, ⟨⟨p, ht, rfl⟩, hlt, hkey⟩, rfl⟩

/-- The calls of the plan come in order, each after the parenthesis of the one before. -/
theorem pairwise_lacking (rules : Rules) (t : Text) :
    (rules.lacking t).Pairwise fun a b => a.argsStart ≤ b.offset := by
  rw [lacking_eq]
  cases rules.record with
  | none => exact List.Pairwise.nil
  | some r => exact List.pairwise_map.2 ((pairwise_callSitesFrom .start t).filter _)

/-- The edits of the plan put the piece in at its calls. -/
theorem map_recordPlan (rules : Rules) (t : Text) :
    (rules.recordPlan t).map (·.2) =
      (rules.lacking t).map fun c => Edit.insert c.argsStart rules.piece := by
  unfold lacking recordPlan piece
  cases rules.record with
  | none => rfl
  | some r =>
    simp only [RecordKey.plan, RecordKey.edit, List.filter_map, List.map_map,
      Function.comp_def, Option.map_some, Option.getD_some]

/-- The source with its banner, and with the piece at the calls of the plan, is `out`. -/
def Makes (rules : Rules) (source out : Text) : Prop :=
  Inserted rules.piece 0 (rules.lacking (rules.bannered source)) (rules.bannered source) out

/-- The rules never fail. -/
theorem exists_transform (rules : Rules) (source : Text) :
    ∃ out, rules.transform source = .ok ⟨out, !(rules.bannerLine source).isEmpty,
        rules.lacking (rules.bannered source)⟩ ∧ rules.Makes source out := by
  have hpair := rules.pairwise_lacking (rules.bannered source)
  have hstands : ∀ c ∈ rules.lacking (rules.bannered source),
      c.StandsIn 0 (rules.bannered source) := by
    intro c hc
    obtain ⟨r, -, p, q, ht, rfl, -⟩ := mem_lacking_iff.1 hc
    exact ⟨p, q, ht, (Nat.zero_add p.size).symm, rfl⟩
  obtain ⟨out, hout⟩ := Inserted.exists_of_calls rules.piece hstands hpair
  refine ⟨out, ?_, hout⟩
  have happly := hout.woven.applyAll_eq hout.pairwise_apart
  rw [transform, bannerStep_eq]
  simp only [map_recordPlan, happly]
  rfl

theorem size_bannerLine_le (rules : Rules) (source : Text) :
    (rules.bannerLine source).size ≤ rules.bannerSize + 1 := by
  unfold bannerLine bannerSize
  cases rules.banner with
  | none => simp
  | some b =>
    by_cases hp : b.isPresent source = true
    · simp [hp]
    · have hend : Char.utf8Size '\n' = 1 := rfl
      simp [hp, hend]

theorem bannerSize_lt_argsStart {rules : Rules} {source : Text} {c : RecordCall}
    (hc : c ∈ rules.lacking (rules.bannered source)) : rules.bannerSize < c.argsStart := by
  obtain ⟨_, _, _, _, _, _, hlt, _⟩ := mem_lacking_iff.1 hc
  rwa [bannerEnd_bannered] at hlt

/-- The calls of the plan end behind the line. -/
theorem size_bannerLine_le_argsStart {rules : Rules} {source : Text} {c : RecordCall}
    (hc : c ∈ rules.lacking (rules.bannered source)) :
    (rules.bannerLine source).size ≤ c.argsStart := by
  have hlt := bannerSize_lt_argsStart hc
  have hle := rules.size_bannerLine_le source
  omega

/-- The line stays in front of what comes out. -/
theorem Makes.exists_append {rules : Rules} {source out : Text} (h : rules.Makes source out) :
    ∃ tail, out = rules.bannerLine source ++ tail :=
  Inserted.exists_append h fun _ hc => size_bannerLine_le_argsStart hc

/-- Taking out the pieces and the line restores the source. -/
theorem Makes.woven_restore {rules : Rules} {source out : Text} (h : rules.Makes source out) :
    Edit.Woven 0 out
      (⟨⟨0, (rules.bannerLine source).size⟩, [], rules.bannerLine source⟩ ::
        (rules.lacking (rules.bannered source)).mapIdx (removal rules.piece)) source := by
  obtain ⟨tail, rfl⟩ := h.exists_append
  have hremoval := Inserted.woven_removal h 0
  simp only [Nat.zero_mul, Nat.add_zero] at hremoval
  obtain ⟨source', heq, hwoven⟩ := hremoval.drop_kept fun e he => by
    obtain ⟨i, hi, rfl⟩ := List.mem_mapIdx.1 he
    have hle := size_bannerLine_le_argsStart (List.getElem_mem hi)
    change 0 + _ ≤ _ + i * _
    omega
  obtain rfl : source = source' := List.append_cancel_left heq
  have hstop : (rules.bannerLine source).size = 0 + (rules.bannerLine source).size :=
    (Nat.zero_add _).symm
  rw [← hstop] at hwoven
  exact @Edit.Woven.cons 0 [] tail source
    ⟨⟨0, (rules.bannerLine source).size⟩, [], rules.bannerLine source⟩ _ rfl hstop hwoven

/-- A file that was found is left alone exactly when the rules leave its text alone. -/
theorem patchLocated_unchanged_iff {rules : Rules} {source : Text} {t : Transformed}
    (ht : rules.transform source = .ok t) (workspace : Option Workspace) (mode : PatchMode)
    (located : LocatedTarget) {tree : FileTree}
    (hread : tree.readText located.canonical = .ok source) :
    (rules.patchLocated workspace mode located tree).answer = .ok (.unchanged located.given) ↔
      t.contents = source := by
  rw [patchLocated, hread]
  simp only [ht, report]
  by_cases hsame : t.contents = source
  · simp [hsame]
  · simp only [hsame, if_false, iff_false]
    cases mode with
    | dryRun => simp
    | write =>
      dsimp only
      split <;> simp

end Rules

/-- The line that a result tells of: the banner with its line end, when it was put in. -/
def Transformed.line (banner : Option Text) (t : Transformed) : Text :=
  if t.bannerInserted then banner.getD [] ++ ['\n'] else []

/-- What the rule for a key type puts in front of arguments; nothing when it is off. -/
def keyPiece (keyType : Option Text) : Text :=
  (keyType.map fun key => Text.trim key ++ [',', ' ']).getD []

/-- The result tells of all that was done to the source, and nothing else was done. -/
structure Transformed.IsExact (banner keyType : Option Text) (source : Text) (t : Transformed) :
    Prop where
  /-- The banner was put in when the source did not begin with it. -/
  inserted_iff : t.bannerInserted = true ↔ ∃ b ∈ banner, ¬b <+: source
  /-- Without the record rule no call is told of. -/
  off : keyType = none → t.normalized = []
  /-- The calls are those that a scan of the source with its line finds beyond the banner and
  without their key, in the order of the scan. -/
  scanned : ∀ key ∈ keyType, t.normalized =
    ((callSites (t.line banner ++ source)).filter fun s =>
      decide ((banner.map Text.size).getD 0 < s.call.argsStart) &&
        !hasKey (Text.trim key) s.rest).map (·.call)
  /-- They are the occurrences of the characters of a call beyond the banner and without their
  key, placed by the text before them. -/
  mem_iff : ∀ c, c ∈ t.normalized ↔ ∃ key ∈ keyType, ∃ p q,
    t.line banner ++ source = p ++ (recordToken ++ q) ∧ c = RecordCall.after p ∧
      (banner.map Text.size).getD 0 < c.argsStart ∧ ¬IsKeyed (Text.trim key) q
  /-- They come in the order of their places. -/
  ordered : t.normalized.Pairwise fun a b => a.offset < b.offset
  /-- The piece is put in at every one of them. -/
  woven : Edit.weave? (t.line banner ++ source) 0
    (t.normalized.map fun c => Edit.insert c.argsStart (keyPiece keyType)) = some t.contents
  /-- In what comes out each stands with its piece, moved by the pieces before it. -/
  call_at : ∀ (i : Nat) (hi : i < t.normalized.length), ∃ x y,
    t.contents = x ++ (recordToken ++ (keyPiece keyType ++ y)) ∧
      x.size = t.normalized[i].offset + i * (keyPiece keyType).size
  /-- Taking out the line and the pieces gives back the source. -/
  restored : Edit.weave? t.contents 0 (⟨⟨0, (t.line banner).size⟩, [], t.line banner⟩ ::
    t.normalized.mapIdx (removal (keyPiece keyType))) = some source
  /-- The line and the pieces are all that is added. -/
  size : t.contents.size =
    source.size + (t.line banner).size + t.normalized.length * (keyPiece keyType).size
  /-- Nothing is told of exactly when nothing is changed. -/
  noop_iff : t.isNoop = true ↔ t.contents = source

namespace Rules

theorem bannerSize_ofTexts (banner keyType : Option Text) :
    (ofTexts banner keyType).bannerSize = (banner.map Text.size).getD 0 := by
  cases banner <;> rfl

theorem piece_ofTexts (banner keyType : Option Text) :
    (ofTexts banner keyType).piece = keyPiece keyType := by
  cases keyType <;> rfl

theorem begins_ofTexts {banner keyType : Option Text} {t : Text} :
    (ofTexts banner keyType).Begins t ↔ ∀ b ∈ banner, b <+: t := by
  cases banner <;> simp [ofTexts, Begins]

/-- The line in front is there exactly when it is told of. -/
theorem line_eq_bannerLine (banner keyType : Option Text) (source out : Text)
    (calls : List RecordCall) :
    Transformed.line banner
        ⟨out, !((ofTexts banner keyType).bannerLine source).isEmpty, calls⟩ =
      (ofTexts banner keyType).bannerLine source := by
  unfold Transformed.line bannerLine ofTexts
  cases banner with
  | none => rfl
  | some b =>
    by_cases hp : (Banner.mk b).isPresent source = true
    · simp [hp]
    · simp [hp]

/-- A source without change is one without a line to put in and without a call on the plan. -/
theorem isNoop_iff {banner keyType : Option Text} {source out : Text} {calls : List RecordCall}
    (hoff : keyType = none → calls = [])
    (hsize : out.size = source.size + ((ofTexts banner keyType).bannerLine source).size +
      calls.length * (keyPiece keyType).size)
    (hout : (ofTexts banner keyType).bannerLine source = [] → calls = [] → out = source) :
    Transformed.isNoop ⟨out, !((ofTexts banner keyType).bannerLine source).isEmpty, calls⟩ =
        true ↔ out = source := by
  simp only [Transformed.isNoop, Bool.not_not, Bool.and_eq_true, List.isEmpty_iff]
  constructor
  · rintro ⟨hline, hcalls⟩
    exact hout hline hcalls
  · rintro rfl
    have hzero : ((ofTexts banner keyType).bannerLine out).size = 0 := by omega
    refine ⟨Text.size_eq_zero_iff.1 hzero, ?_⟩
    cases keyType with
    | none => exact hoff rfl
    | some key =>
      have hpiece : 0 < (keyPiece (some key)).size := by
        have hend : Text.size [',', ' '] = 2 := rfl
        simp only [keyPiece, Option.map_some, Option.getD_some, Text.size_append, hend]
        omega
      have hmul : calls.length * (keyPiece (some key)).size = 0 := by omega
      exact List.length_eq_zero_iff.1 ((Nat.mul_eq_zero.1 hmul).resolve_right (by omega))

/-- The rules change a source by pure insertion and tell exactly what they did. -/
theorem Makes.isExact {banner keyType : Option Text} {source out : Text}
    (h : (ofTexts banner keyType).Makes source out) :
    Transformed.IsExact banner keyType source
      ⟨out, !((ofTexts banner keyType).bannerLine source).isEmpty,
        (ofTexts banner keyType).lacking ((ofTexts banner keyType).bannered source)⟩ := by
  have hrestore := h.woven_restore
  have hend : (ofTexts banner keyType).bannerEnd ((ofTexts banner keyType).bannered source) =
      (banner.map Text.size).getD 0 := by
    rw [bannerEnd_bannered, bannerSize_ofTexts]
  have hoff : keyType = none →
      (ofTexts banner keyType).lacking ((ofTexts banner keyType).bannered source) = [] := by
    rintro rfl
    rw [lacking_eq]
    rfl
  have hsize := Inserted.size_out h
  rw [bannered, Text.size_append, piece_ofTexts, Nat.add_comm (Text.size _)] at hsize
  rw [piece_ofTexts] at hrestore
  rw [Makes, piece_ofTexts] at h
  refine ⟨?_, hoff, ?_, ?_, ?_, ?_, ?_, ?_, ?_, ?_⟩
  all_goals simp only [line_eq_bannerLine]
  · rw [Bool.not_eq_true', List.isEmpty_eq_false_iff, ne_eq, bannerLine_eq_nil_iff,
      begins_ofTexts]
    cases banner <;> simp
  · rintro key rfl
    rw [lacking_eq, hend]
    rfl
  · intro c
    rw [mem_lacking_iff, hend]
    cases keyType with
    | none => simp [ofTexts]
    | some key =>
      simp only [ofTexts, Option.map_some, Option.mem_some_iff, exists_eq_left']
      refine exists_congr fun p => exists_congr fun q => ?_
      rw [← hasKey_trim_iff, Bool.not_eq_true]
      rfl
  · refine (pairwise_lacking _ _).imp_of_mem fun {a b} ha _ hab => ?_
    obtain ⟨_, _, p, _, _, rfl, _⟩ := mem_lacking_iff.1 ha
    have hargs : (RecordCall.after p).argsStart = (RecordCall.after p).offset + 8 := rfl
    omega
  · exact h.woven.weave?_eq [] rfl
  · intro i hi
    obtain ⟨x, y, hout, hx⟩ := h.exists_call_at i hi
    exact ⟨x, y, hout, by rw [← hx, Nat.zero_add]⟩
  · exact hrestore.weave?_eq [] rfl
  · exact hsize
  · refine isNoop_iff hoff hsize fun hline hcalls => ?_
    rw [hcalls] at h
    cases h
    rw [bannered, hline]
    rfl

/-- The rules never fail. What comes out is the source with the banner line in front where it
was missing, and with the key put in at exactly the calls beyond the banner that lack it; the
report names just these, and a file is left alone exactly when nothing is reported. -/
theorem transform_exact (banner keyType : Option Text) (source : Text) :
    ∃ t, (ofTexts banner keyType).transform source = .ok t ∧
      t.IsExact banner keyType source ∧
      ∀ (workspace : Option Workspace) (mode : PatchMode) (located : LocatedTarget)
        (tree : FileTree), tree.readText located.canonical = .ok source →
        (((ofTexts banner keyType).patchLocated workspace mode located tree).answer =
          .ok (.unchanged located.given) ↔ t.isNoop = true) := by
  obtain ⟨out, htransform, hmakes⟩ := exists_transform (ofTexts banner keyType) source
  have hexact := hmakes.isExact
  refine ⟨_, htransform, hexact, fun workspace mode located tree hread => ?_⟩
  rw [patchLocated_unchanged_iff htransform workspace mode located hread, hexact.noop_iff]

/-- A file with one call in the arguments of another one, which has its key. -/
private def nestedTree : FileTree where
  entries := [([['f']], .file (Text.encode ".record(é.record(k ,x".toList) 420 0)]
  workingDirectory := some []

private theorem readText_nestedTree :
    nestedTree.readText ['/', 'f'] = .ok ".record(é.record(k ,x".toList := rfl

private theorem transform_nestedTree :
    ((ofTexts (some ['#']) (some [' ', 'k'])).transform ".record(é.record(k ,x".toList).toOption =
      some ⟨"#\n.record(k, é.record(k ,x".toList, true, [⟨2, 10, 2, .method⟩]⟩ := by
  decide +kernel

/-- A call in the arguments of another one keeps its key, and the file is not left alone. -/
theorem transform_exact_nested_call :
    nestedTree.readText ['/', 'f'] = .ok ".record(é.record(k ,x".toList ∧
      Transformed.IsExact (some ['#']) (some [' ', 'k']) ".record(é.record(k ,x".toList
        ⟨"#\n.record(k, é.record(k ,x".toList, true, [⟨2, 10, 2, .method⟩]⟩ ∧
      ((ofTexts (some ['#']) (some [' ', 'k'])).patchLocated none .dryRun
        ⟨['/', 'f'], ['/', 'f']⟩ nestedTree).answer ≠ .ok (.unchanged ['/', 'f']) := by
  obtain ⟨t, ht, hexact, hunchanged⟩ :=
    transform_exact (some ['#']) (some [' ', 'k']) ".record(é.record(k ,x".toList
  have hresult := transform_nestedTree
  rw [ht] at hresult
  cases hresult
  refine ⟨readText_nestedTree, hexact, fun h => ?_⟩
  have hnoop := (hunchanged none .dryRun ⟨['/', 'f'], ['/', 'f']⟩ nestedTree
    readText_nestedTree).1 h
  exact absurd hnoop (by decide)

end Rules

end ClientPatch
