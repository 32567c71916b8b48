import ClientPatch.Proofs.CallStructure
import ClientPatch.Proofs.CommandEnds
import ClientPatch.Proofs.PatchFrame
import Mathlib.Tactic.Choose

/-!
# What the status of a file says

A report counts lines after the banner was put in, while the status of a file is about the file
as it is. With a valid configuration the banner is one line without a call, so the lines that a
status tells are those of the calls that lack their key in the file itself, and no call is left
out because it stands too near to the banner. With whatever banner, no call of a report stands
on the line that was put in, so there is always a line to take away.
-/

namespace ClientPatch

open FileTree (pathOf)

/-- The lines of the calls that lack their key, one for each call, in the order of the source. -/
def LackingLines (keyType : Option Text) (source : Text) (lines : List Nat) : Prop :=
  ∃ befores : List Text, befores.Pairwise (fun p q => p.size < q.size) ∧
    (∀ p, p ∈ befores ↔ ∃ key ∈ keyType, ∃ q, source = p ++ (recordToken ++ q) ∧
      ¬IsKeyed (Text.trim key) q) ∧
    lines = befores.map fun p => 1 + p.count '\n'

/-- What a file with this text needs: a banner, and a key for the calls on these lines. -/
structure Config.Asks (c : Config) (source : Text) (bannerMissing : Bool) (lines : List Nat) :
    Prop where
  /-- The banner is missing when its rule is on and the text does not begin with it. -/
  banner : bannerMissing = true ↔ c.banner.enabled = true ∧ ¬c.banner.text <+: source
  /-- The lines are those of the calls that lack their key; none when the rule is off. -/
  record : LackingLines (if c.record.enabled then some c.record.keyType else none) source lines

/-- The status of a file that needs a banner, or a key for the calls on some lines. -/
def needsText (colors : Bool) (file : Path) (bannerMissing : Bool) (lines : List Nat) : Text :=
  "needs patch: ".toList ++ file ++ '\n' ::
    ((if bannerMissing then needLine colors "banner missing".toList else []) ++
      lines.flatMap fun n =>
        needLine colors ("line ".toList ++ Text.ofNat n ++ ": record call without key type".toList))

theorem PatchReport.needs_eq (colors : Bool) (r : PatchReport) :
    r.needs colors = needsText colors r.file r.bannerInserted (r.normalized.map r.lineOf) := by
  unfold needs needsText
  rw [List.flatMap_map]

/-- A scan for calls without their key finds their lines. -/
theorem lackingLines_missing (key source : Text) :
    LackingLines (some key) source (((RecordKey.ofText key).missing source).map (·.line)) := by
  have hsites : ∀ s ∈ callSites source,
      ∃ p, source = p ++ (recordToken ++ s.rest) ∧ s.call = RecordCall.after p :=
    fun s hs => mem_callSites_iff.1 hs
  choose! before hsource hcall using hsites
  refine ⟨((callSites source).filter fun s => !hasKey (Text.trim key) s.rest).map before,
    ?_, fun p => ?_, ?_⟩
  · refine List.pairwise_map.2 (List.Pairwise.filter _ ?_)
    refine (pairwise_callSitesFrom .start source).imp_of_mem fun {a b} ha hb hab => ?_
    rw [hcall a ha, hcall b hb] at hab
    simp only [RecordCall.argsStart_after, RecordCall.offset_after, size_recordToken] at hab
    omega
  · simp only [List.mem_map, List.mem_filter, Bool.not_eq_true', Option.mem_some_iff,
      exists_eq_left', ← hasKey_trim_iff, Bool.not_eq_true]
    constructor
    · rintro ⟨s, ⟨hs, hkey⟩, rfl⟩
      exact ⟨s.rest, hsource s hs, hkey⟩
    · rintro ⟨q, ht, hkey⟩
      have hs : ⟨RecordCall.after p, q⟩ ∈ callSites source := mem_callSites_iff.2 ⟨p, ht, rfl⟩
      refine ⟨_, ⟨hs, hkey⟩, ?_⟩
      have hbefore := hsource _ hs
      rw [ht] at hbefore
      exact (List.append_cancel_right hbefore).symm
  · rw [RecordKey.missing, List.map_map, List.map_map]
    refine List.map_congr_left fun s hs => ?_
    rw [Function.comp_apply, Function.comp_apply, hcall s (List.mem_of_mem_filter hs),
      RecordCall.line_after]

/-- With its rule off no call lacks a key. -/
theorem lackingLines_none (source : Text) : LackingLines none source [] :=
  ⟨[], List.Pairwise.nil, by simp, rfl⟩

namespace Rules

variable {banner keyType : Option Text} {source : Text} {t : Transformed}

/-- A report of a source tells the lines of the source itself, when the banner is one line without
a call. -/
theorem lackingLines_normalized (hfree : ∀ b ∈ banner, ¬recordToken <:+: b)
    (hline : ∀ b ∈ banner, '\n' ∉ b) (ht : (ofTexts banner keyType).transform source = .ok t) :
    LackingLines keyType source
      (t.normalized.map fun c => c.line - if t.bannerInserted then 1 else 0) := by
  obtain ⟨out, htransform, -⟩ := exists_transform (ofTexts banner keyType) source
  rw [htransform] at ht
  cases ht
  have hbanner : (ofTexts banner keyType).BannerFree := by
    intro b hb
    cases banner with
    | none => cases hb
    | some text =>
      cases hb
      exact hfree text rfl
  have hbegins := (ofTexts banner keyType).begins_bannered source
  rw [← Transformed.count_line hline, line_eq_bannerLine]
  simp only [lacking_eq_missing hbanner hbegins]
  cases keyType with
  | none => exact lackingLines_none source
  | some key =>
    have hlines := lackingLines_missing key source
    simp only [ofTexts, Option.map_some, Option.getD_some] at hbanner ⊢
    rw [missing_bannered hbanner, List.map_map]
    simpa only [Function.comp_def, RecordCall.moved, Nat.add_sub_cancel] using hlines

/-- A call beyond a line that was put in does not stand on the first line. -/
theorem one_lt_line {rules : Rules} {c : RecordCall}
    (hc : c ∈ rules.lacking (rules.bannered source)) (hline : rules.bannerLine source ≠ []) :
    1 < c.line := by
  have hlt := bannerSize_lt_argsStart hc
  obtain ⟨r, -, p, q, htext, rfl, -, -⟩ := mem_lacking_iff.1 hc
  obtain ⟨b, hb, hput⟩ : ∃ b, rules.bannerSize = Text.size b ∧
      rules.bannerLine source = b ++ ['\n'] := by
    unfold bannerLine at hline ⊢
    unfold bannerSize
    cases hrule : rules.banner with
    | none =>
      rw [hrule] at hline
      exact absurd rfl hline
    | some b =>
      rw [hrule] at hline
      by_cases hp : b.isPresent source = true
      · simp [hp] at hline
      · exact ⟨b.text, rfl, by simp [hp]⟩
  have hends : EndsCall (b ++ ['\n']) := by
    intro d hd
    rw [List.getLast?_concat] at hd
    obtain rfl : '\n' = d := Option.some.inj hd
    decide
  rw [bannered, hput] at htext
  rcases call_in_append hends htext with ⟨m, hcall, -⟩ | ⟨m, rfl, -⟩
  · -- A call that ends with the line would be its last character.
    have hsize := congrArg Text.size hcall
    have hend : Text.size ['\n'] = 1 := rfl
    simp only [Text.size_append, hend] at hsize
    rw [hb, RecordCall.argsStart_after] at hlt
    obtain rfl : m = [] := Text.size_eq_zero_iff.1 (by omega)
    have hlast := congrArg List.getLast? hcall
    rw [List.append_nil, List.getLast?_concat, List.getLast?_append,
      show recordToken.getLast? = some '(' from rfl] at hlast
    exact absurd (Option.some.inj hlast) (by decide)
  · have hcount : 0 < (b ++ ['\n'] ++ m).count '\n' := List.count_pos_iff.2 (by simp)
    rw [RecordCall.line_after]
    omega

/-- A report says that the banner was missing when its rule is on and the source does not begin
with it. -/
theorem bannerInserted_iff (ht : (ofTexts banner keyType).transform source = .ok t) :
    t.bannerInserted = true ↔ ∃ b ∈ banner, ¬b <+: source := by
  obtain ⟨out, htransform, hmakes⟩ := exists_transform (ofTexts banner keyType) source
  rw [htransform] at ht
  cases ht
  exact hmakes.isExact.inserted_iff

/-- No call of a report stands on the line that was put in, whatever the banner. -/
theorem lt_line_of_mem_normalized (ht : (ofTexts banner keyType).transform source = .ok t)
    {c : RecordCall} (hc : c ∈ t.normalized) : (if t.bannerInserted then 1 else 0) < c.line := by
  obtain ⟨out, htransform, -⟩ := exists_transform (ofTexts banner keyType) source
  rw [htransform] at ht
  cases ht
  by_cases hline : (ofTexts banner keyType).bannerLine source = []
  · obtain ⟨_, _, p, _, _, rfl, _⟩ := mem_lacking_iff.1 hc
    rw [hline, RecordCall.line_after]
    exact Nat.lt_of_lt_of_le Nat.zero_lt_one (Nat.le_add_right 1 _)
  · have hput : (!((ofTexts banner keyType).bannerLine source).isEmpty) = true := by
      simpa using hline
    rw [hput]
    exact one_lt_line hc hline

end Rules

/-- Under a valid configuration a report asks for what the file itself needs. -/
theorem Config.asks_of_transform {c : Config} (hc : c.issues = []) {source : Text}
    {t : Transformed} (ht : c.rules.transform source = .ok t) :
    c.Asks source t.bannerInserted
      (t.normalized.map fun call => call.line - if t.bannerInserted then 1 else 0) := by
  obtain ⟨-, hline, hfree⟩ := bannerIssue_eq_none_iff.1 (issues_eq_nil_iff.1 hc).2.1
  have hrule : ∀ b, b ∈ (if c.banner.enabled then some c.banner.text else none) ↔
      c.banner.enabled = true ∧ c.banner.text = b := by
    intro b
    rw [Option.mem_def, Option.ite_none_right_eq_some, Option.some_inj]
  constructor
  · rw [Rules.bannerInserted_iff ht]
    constructor
    · rintro ⟨b, hb, hmissing⟩
      obtain ⟨hon, rfl⟩ := (hrule b).1 hb
      exact ⟨hon, hmissing⟩
    · rintro ⟨hon, hmissing⟩
      exact ⟨c.banner.text, (hrule _).2 ⟨hon, rfl⟩, hmissing⟩
  · refine Rules.lackingLines_normalized (fun b hb => ?_) (fun b hb => ?_) ht
    · obtain ⟨-, rfl⟩ := (hrule b).1 hb
      exact hfree
    · obtain ⟨-, rfl⟩ := (hrule b).1 hb
      exact hline

namespace Config

variable {c : Config} {t : FileTree} {w : Workspace} {target : Path} {outcome : PatchOutcome}

/-- When a file is told to need a patch, it is told what the file needs as it is. -/
theorem asks_of_status (hc : c.issues = []) (ht : t.WellFormed) (colors : Bool)
    (hanswer : (c.rules.patchWithin w .dryRun target t).answer = .ok outcome)
    (hneeds : "needs patch: ".toList <+: outcome.status colors) :
    ∃ source missing lines, t.readText (w.pathTo target) = .ok source ∧
      c.Asks source missing lines ∧
      outcome.status colors = needsText colors target missing lines := by
  rcases Rules.patchWithin_ends ht c.rules w .dryRun target noRefusals rfl with
    ⟨cause, events, hrun⟩ | ⟨loc, hp, -, hends⟩
  · rw [hrun] at hanswer
    cases hanswer
  · generalize c.rules.patchWithin w .dryRun target t = run at hanswer hends
    cases hends with
    | failed cause events => cases hanswer
    | unchanged events happlied hsame =>
      cases hanswer
      obtain ⟨r, hr⟩ := PatchOutcome.needs_isPrefix_status_iff.1 hneeds
      rcases hr with hr | hr <;> cases hr
    | wouldPatch events hmode happlied hne =>
      cases hanswer
      have hread := FileTree.readText_of_file hp happlied.file
      exact ⟨_, _, _, hread, asks_of_transform hc happlied.transform, PatchReport.needs_eq ..⟩
    | patched events hmode happlied hne => cases hmode

end Config

namespace Command

/-- A status command that finds a file in need of a patch tells what the file needs as it is. -/
theorem asks_of_run {c : Command} {s : Surroundings} {t : FileTree} (ht : t.WellFormed)
    (haction : c.action = .status) (hneeds : "needs patch: ".toList <+: (c.run s t).stdout) :
    ∃ dir config origin w source missing lines, t.workingDirectory = some dir ∧
      Config.loadOrDefault t c.target.config (pathOf dir) = .ok (config, origin) ∧
      Workspace.ofPath t ((c.target.root <|> config.target.root).getD (pathOf dir)) = .ok w ∧
      t.readText (w.pathTo (chooseTarget c.target.file s.target config.target.file)) =
        .ok source ∧
      config.Asks source missing lines ∧
      (c.run s t).stdout = needsText s.colors
        (chooseTarget c.target.file s.target config.target.file) missing lines := by
  have hsilent : ¬"needs patch: ".toList <+: [] := by simp
  have hends := c.run_ends s t
  generalize c.run s t = run at hneeds hends ⊢
  cases hends with
  | lost log h => exact absurd hneeds hsilent
  | failed log h hpatch =>
    rw [haction] at hneeds
    exact absurd hneeds hsilent
  | told log h hpatch =>
    rw [haction] at hneeds hpatch
    obtain ⟨dir, config, origin, w, hdir, hload, hw, rfl⟩ :=
      TargetOptions.exists_of_resolve h
    obtain ⟨source, missing, lines, hread, hasks, htext⟩ :=
      Config.asks_of_status (Config.issues_loadOrDefault hload) ht s.colors hpatch hneeds
    refine ⟨dir, config, origin, w, source, missing, lines, hdir, hload, hw, hread, hasks, ?_⟩
    rw [haction]
    exact htext

/-- When a file is told to need a patch, then for every valid configuration, and for the one that
a status command finds, the status is about the file as it is: the banner is missing when its
rule is on and the file does not begin with it, and the lines are those of the calls that lack
their key, in order and one for each. Whatever the banner, there is a line to take away from
that of every call in a report. -/
theorem run_status_asks :
    (∀ (c : Config) (w : Workspace) (target : Path) (t : FileTree) (colors : Bool)
      (outcome : PatchOutcome), c.issues = [] → t.WellFormed →
      (c.rules.patchWithin w .dryRun target t).answer = .ok outcome →
      "needs patch: ".toList <+: outcome.status colors →
      ∃ source missing lines, t.readText (w.pathTo target) = .ok source ∧
        c.Asks source missing lines ∧
        outcome.status colors = needsText colors target missing lines) ∧
    (∀ (c : Command) (s : Surroundings) (t : FileTree), t.WellFormed → c.action = .status →
      "needs patch: ".toList <+: (c.run s t).stdout →
      ∃ dir config origin w source missing lines, t.workingDirectory = some dir ∧
        Config.loadOrDefault t c.target.config (pathOf dir) = .ok (config, origin) ∧
        Workspace.ofPath t ((c.target.root <|> config.target.root).getD (pathOf dir)) = .ok w ∧
        t.readText (w.pathTo (chooseTarget c.target.file s.target config.target.file)) =
          .ok source ∧
        config.Asks source missing lines ∧
        (c.run s t).stdout = needsText s.colors
          (chooseTarget c.target.file s.target config.target.file) missing lines) ∧
    ∀ (banner keyType : Option Text) (source : Text) (t : Transformed),
      (Rules.ofTexts banner keyType).transform source = .ok t →
      ∀ c ∈ t.normalized, (if t.bannerInserted then 1 else 0) < c.line := by
  refine ⟨?_, ?_, ?_⟩
  · intro c w target t colors outcome hc ht hanswer hneeds
    exact Config.asks_of_status hc ht colors hanswer hneeds
  · intro c s t ht haction hneeds
    exact asks_of_run ht haction hneeds
  · intro banner keyType source t ht c hc
    exact Rules.lt_line_of_mem_normalized ht hc

/-- A configuration with a banner of its own, and a file with a call that has no key on its
second line. -/
private def markedTree : FileTree where
  entries := [([['w']], .directory {}),
    ([['w'], "zod-client-patcher.toml".toList], .file (Text.encode "banner.text='#'".toList) 420
      0),
    ([['w'], ['f']], .file (Text.encode "a\n.record(x\n.record(z.string() ,y".toList) 420 0)]
  workingDirectory := some [['w']]

private def fileNamed : Surroundings := ⟨some ['f'], none, false⟩

private def lookAtFile : Command := ⟨.status, {}, false⟩

private def statusOfFile : Text :=
  "needs patch: f\n  - banner missing\n  - line 2: record call without key type\n".toList

private theorem stdout_lookAtFile :
    (lookAtFile.run fileNamed markedTree).stdout = statusOfFile := by
  decide +kernel

/-- The second line is told, although in the text with the banner the call stands on the third;
so it is under the standard configuration. A banner of two lines moves a call even further. -/
theorem run_status_asks_second_line :
    markedTree.WellFormed ∧
      (lookAtFile.run fileNamed markedTree).stdout = statusOfFile ∧
      (∃ config w source missing lines, markedTree.readText (Workspace.pathTo w ['f']) =
          .ok source ∧ Config.Asks config source missing lines ∧
        (lookAtFile.run fileNamed markedTree).stdout = needsText false ['f'] missing lines) ∧
      (∃ outcome source missing lines,
        (({} : Config).rules.patchWithin ⟨[['w']]⟩ .dryRun ['f'] markedTree).answer =
          .ok outcome ∧
        markedTree.readText "/w/f".toList = .ok source ∧
        Config.Asks {} source missing lines ∧
        outcome.status true = needsText true ['f'] missing lines) ∧
      ∃ t, (Rules.ofTexts (some "b\n.record(".toList) (some ['k'])).transform ".record(x".toList =
          .ok t ∧ t.bannerInserted = true ∧ t.normalized = [⟨11, 19, 3, .method⟩] ∧
        ∀ c ∈ t.normalized, (if t.bannerInserted then 1 else 0) < c.line := by
  have hwell : markedTree.WellFormed := .of_entries (by decide +kernel) (by decide +kernel)
  obtain ⟨hvalid, hcommand, hshift⟩ := run_status_asks
  refine ⟨hwell, stdout_lookAtFile, ?_, ?_, ?_⟩
  · obtain ⟨dir, config, origin, w, source, missing, lines, -, -, -, hread, hasks, htext⟩ :=
      hcommand lookAtFile fileNamed markedTree hwell rfl (by rw [stdout_lookAtFile]; decide)
    exact ⟨config, w, source, missing, lines, hread, hasks, htext⟩
  · have hneeds : (({} : Config).rules.patchWithin ⟨[['w']]⟩ .dryRun ['f']
        markedTree).answer.toOption.any
          (fun o => Text.hasPrefix "needs patch: ".toList (o.status true)) = true := by
      decide +kernel
    cases hanswer : (({} : Config).rules.patchWithin ⟨[['w']]⟩ .dryRun ['f']
        markedTree).answer with
    | error e =>
      rw [hanswer] at hneeds
      cases hneeds
    | ok outcome =>
      rw [hanswer] at hneeds
      obtain ⟨source, missing, lines, hread, hasks, htext⟩ := hvalid {} ⟨[['w']]⟩ ['f'] markedTree
        true outcome Config.issues_default hwell hanswer (Text.hasPrefix_iff.1 hneeds)
      exact ⟨outcome, source, missing, lines, rfl, hread, hasks, htext⟩
  · have hresult : ((Rules.ofTexts (some "b\n.record(".toList) (some ['k'])).transform
        ".record(x".toList).toOption.map (fun t => (t.bannerInserted, t.normalized)) =
          some (true, [⟨11, 19, 3, .method⟩]) := by decide +kernel
    cases ht : (Rules.ofTexts (some "b\n.record(".toList) (some ['k'])).transform
        ".record(x".toList with
    | error e =>
      rw [ht] at hresult
      cases hresult
    | ok t =>
      rw [ht] at hresult
      obtain ⟨hput, hcalls⟩ := Prod.ext_iff.1 (Option.some.inj hresult)
      exact ⟨t, rfl, hput, hcalls, hshift _ _ _ t ht⟩

end Command

end ClientPatch
