import ClientPatch.Proofs.ConfigLoaded

/-!
# What validation finds

A configuration has four parts that are looked at apart from each other: the target, the banner
line, the key type, and the choice of rules. Each part has at most one fault, the first of its own
that applies, and no part changes the faults of another one. Every way of loading a text goes
through this look, and the ways differ in nothing but the origin that an error names.
-/

namespace ClientPatch

/-- The parts of a configuration that are validated apart from each other. -/
inductive ConfigPart where
  /-- The target file. -/
  | target
  /-- The banner line. -/
  | banner
  /-- The key type. -/
  | keyType
  /-- Which rules are on. -/
  | choice
  deriving DecidableEq, Repr

/-- The parts in the order in which their faults are told. -/
def ConfigPart.all : List ConfigPart := [.target, .banner, .keyType, .choice]

theorem ConfigPart.mem_all (part : ConfigPart) : part ∈ all := by
  cases part <;> decide

/-- The part that is at fault. -/
def ConfigIssue.part : ConfigIssue → ConfigPart
  | .missing .targetFile => .target
  | .missing .bannerText => .banner
  | .missing .keyType => .keyType
  | .bannerLines => .banner
  | .bannerCall => .banner
  | .keyComma => .keyType
  | .keyCall => .keyType
  | .nothingEnabled => .choice

namespace Config

/-- Two configurations say the same in a part. -/
def Agree : (part : ConfigPart) → (c c' : Config) → Prop
  | .target, c, c' => c.target.file = c'.target.file
  | .banner, c, c' => c.banner.text = c'.banner.text
  | .keyType, c, c' => c.record.keyType = c'.record.keyType
  | .choice, c, c' =>
    c.banner.enabled = c'.banner.enabled ∧ c.record.enabled = c'.record.enabled

/-- The text says something. -/
def SaysSomething (t : Text) : Prop := ∃ c ∈ t, Text.isBlank c = false

/-- A part can be worked with. Whether a rule is on does not matter for its text. -/
def Sound (c : Config) : ConfigPart → Prop
  | .target => c.target.file ≠ []
  | .banner => SaysSomething c.banner.text ∧ '\n' ∉ c.banner.text ∧ ¬recordToken <:+: c.banner.text
  | .keyType =>
    SaysSomething c.record.keyType ∧ ',' ∉ c.record.keyType ∧ ¬recordToken <:+: c.record.keyType
  | .choice => c.banner.enabled = true ∨ c.record.enabled = true

/-- What is wrong with a configuration. Of the faults of a text only the first is told. -/
inductive Faulty (c : Config) : ConfigIssue → Prop
  /-- There is no target. -/
  | noTarget (h : c.target.file = []) : Faulty c (.missing .targetFile)
  /-- The banner is blank. -/
  | blankBanner (h : ¬SaysSomething c.banner.text) : Faulty c (.missing .bannerText)
  /-- The banner has several lines. -/
  | bannerLines (hsome : SaysSomething c.banner.text) (h : '\n' ∈ c.banner.text) :
      Faulty c .bannerLines
  /-- The banner, of one line, holds a call. -/
  | bannerCall (hsome : SaysSomething c.banner.text) (hline : '\n' ∉ c.banner.text)
      (h : recordToken <:+: c.banner.text) : Faulty c .bannerCall
  /-- The key type is blank. -/
  | blankKey (h : ¬SaysSomething c.record.keyType) : Faulty c (.missing .keyType)
  /-- The key type holds a comma. -/
  | keyComma (hsome : SaysSomething c.record.keyType) (h : ',' ∈ c.record.keyType) :
      Faulty c .keyComma
  /-- The key type, without a comma, holds a call. -/
  | keyCall (hsome : SaysSomething c.record.keyType) (hcomma : ',' ∉ c.record.keyType)
      (h : recordToken <:+: c.record.keyType) : Faulty c .keyCall
  /-- Both rules are off. -/
  | nothingEnabled (hbanner : c.banner.enabled = false) (hrecord : c.record.enabled = false) :
      Faulty c .nothingEnabled

/-- The fault of one part, if it has one. -/
def issueOf (c : Config) : ConfigPart → Option ConfigIssue
  | .target => targetIssue c.target
  | .banner => bannerIssue c.banner
  | .keyType => recordIssue c.record
  | .choice => choiceIssue c

theorem issues_eq_filterMap (c : Config) : c.issues = ConfigPart.all.filterMap c.issueOf := rfl

theorem saysSomething_iff {t : Text} : SaysSomething t ↔ ¬Text.isBlankText t = true := by
  simp [SaysSomething, Text.isBlankText]

variable {c c' : Config} {part : ConfigPart} {i : ConfigIssue}

/-- The first fault of a text that must not hold a certain character: it is blank, it holds the
character, or it holds a call. -/
def textIssue (forbidden : Char) (blank holds call : ConfigIssue) (t : Text) :
    Option ConfigIssue :=
  if Text.isBlankText t then some blank
  else if t.elem forbidden then some holds
  else if Text.hasInfix recordToken t then some call
  else none

theorem bannerIssue_eq (b : BannerConfig) :
    bannerIssue b = textIssue '\n' (.missing .bannerText) .bannerLines .bannerCall b.text := rfl

theorem recordIssue_eq (r : RecordConfig) :
    recordIssue r = textIssue ',' (.missing .keyType) .keyComma .keyCall r.keyType := rfl

/-- Each fault of a text leaves out the ones before. -/
theorem textIssue_eq_some_iff {forbidden : Char} {blank holds call : ConfigIssue} {t : Text} :
    textIssue forbidden blank holds call t = some i ↔
      (¬SaysSomething t ∧ i = blank) ∨ (SaysSomething t ∧ forbidden ∈ t ∧ i = holds) ∨
        (SaysSomething t ∧ forbidden ∉ t ∧ recordToken <:+: t ∧ i = call) := by
  rw [saysSomething_iff, ← Text.hasInfix_iff, textIssue]
  by_cases hblank : Text.isBlankText t = true
  · simp [hblank, @eq_comm _ i]
  · by_cases hholds : forbidden ∈ t
    · simp [hblank, hholds, @eq_comm _ i]
    · by_cases hcall : Text.hasInfix recordToken t = true
      · simp [hblank, hholds, hcall, @eq_comm _ i]
      · simp [hblank, hholds, hcall]

/-- The fault that is told of a part is one of its own, and it is there. -/
theorem faulty_of_issueOf (h : c.issueOf part = some i) : i.part = part ∧ c.Faulty i := by
  cases part with
  | target =>
    rw [issueOf, targetIssue] at h
    split_ifs at h with hfile
    cases h
    exact ⟨rfl, .noTarget (List.isEmpty_iff.1 hfile)⟩
  | banner =>
    rw [issueOf, bannerIssue_eq, textIssue_eq_some_iff] at h
    rcases h with ⟨hblank, rfl⟩ | ⟨hsome, hlines, rfl⟩ | ⟨hsome, hline, hcall, rfl⟩
    · exact ⟨rfl, .blankBanner hblank⟩
    · exact ⟨rfl, .bannerLines hsome hlines⟩
    · exact ⟨rfl, .bannerCall hsome hline hcall⟩
  | keyType =>
    rw [issueOf, recordIssue_eq, textIssue_eq_some_iff] at h
    rcases h with ⟨hblank, rfl⟩ | ⟨hsome, hcomma, rfl⟩ | ⟨hsome, hcomma, hcall, rfl⟩
    · exact ⟨rfl, .blankKey hblank⟩
    · exact ⟨rfl, .keyComma hsome hcomma⟩
    · exact ⟨rfl, .keyCall hsome hcomma hcall⟩
  | choice =>
    rw [issueOf, choiceIssue] at h
    split_ifs at h with hon
    cases h
    rw [Bool.or_eq_true, not_or, Bool.not_eq_true, Bool.not_eq_true] at hon
    exact ⟨rfl, .nothingEnabled hon.1 hon.2⟩

/-- A fault that is there is the one that is told of its part. -/
theorem Faulty.issueOf_eq (h : c.Faulty i) : c.issueOf i.part = some i := by
  cases h with
  | noTarget h => simp [ConfigIssue.part, issueOf, targetIssue, h]
  | blankBanner h => exact textIssue_eq_some_iff.2 (.inl ⟨h, rfl⟩)
  | bannerLines hsome h => exact textIssue_eq_some_iff.2 (.inr (.inl ⟨hsome, h, rfl⟩))
  | bannerCall hsome hline h => exact textIssue_eq_some_iff.2 (.inr (.inr ⟨hsome, hline, h, rfl⟩))
  | blankKey h => exact textIssue_eq_some_iff.2 (.inl ⟨h, rfl⟩)
  | keyComma hsome h => exact textIssue_eq_some_iff.2 (.inr (.inl ⟨hsome, h, rfl⟩))
  | keyCall hsome hcomma h =>
    exact textIssue_eq_some_iff.2 (.inr (.inr ⟨hsome, hcomma, h, rfl⟩))
  | nothingEnabled hbanner hrecord =>
    simp [ConfigIssue.part, issueOf, choiceIssue, hbanner, hrecord]

/-- A part has no fault exactly when it is sound. -/
theorem issueOf_eq_none_iff : c.issueOf part = none ↔ c.Sound part := by
  cases part with
  | target => simp [issueOf, targetIssue, Sound]
  | banner => rw [issueOf, bannerIssue_eq_none_iff, Sound, saysSomething_iff, Bool.not_eq_true]
  | keyType => rw [issueOf, recordIssue_eq_none_iff, Sound, saysSomething_iff, Bool.not_eq_true]
  | choice =>
    rw [issueOf, choiceIssue, Sound, ← Bool.or_eq_true]
    split <;> simp [*]

instance (c : Config) (part : ConfigPart) : Decidable (c.Sound part) :=
  decidable_of_iff (c.issueOf part = none) issueOf_eq_none_iff

/-- A part alone decides its fault. -/
theorem issueOf_congr (h : Agree part c c') : c.issueOf part = c'.issueOf part := by
  cases part with
  | target =>
    rw [Agree] at h
    rw [issueOf, issueOf, targetIssue, targetIssue, h]
  | banner =>
    rw [Agree] at h
    rw [issueOf, issueOf, bannerIssue, bannerIssue, h]
  | keyType =>
    rw [Agree] at h
    rw [issueOf, issueOf, recordIssue, recordIssue, h]
  | choice =>
    rw [Agree] at h
    rw [issueOf, issueOf, choiceIssue, choiceIssue, h.1, h.2]

theorem mem_issues_iff : i ∈ c.issues ↔ c.issueOf i.part = some i := by
  rw [issues_eq_filterMap, List.mem_filterMap]
  constructor
  · rintro ⟨part, -, h⟩
    obtain ⟨rfl, -⟩ := faulty_of_issueOf h
    exact h
  · intro h
    exact ⟨i.part, i.part.mem_all, h⟩

/-- There is one fault for each part that is not sound, in the order of the parts. -/
theorem map_part_issues (c : Config) :
    c.issues.map ConfigIssue.part = ConfigPart.all.filter fun part => ¬c.Sound part := by
  rw [issues_eq_filterMap, List.map_filterMap, ← List.filterMap_eq_filter]
  refine List.filterMap_congr fun part _ => ?_
  cases h : c.issueOf part with
  | none =>
    simp [Option.guard, issueOf_eq_none_iff.1 h]
  | some i =>
    have hsound : ¬c.Sound part := fun hsound => by
      rw [issueOf_eq_none_iff.2 hsound] at h
      cases h
    simp [Option.guard, hsound, (faulty_of_issueOf h).1]

/-- Where one part is mended, its fault goes and all others stay. -/
theorem issues_of_mended (hothers : ∀ other, other ≠ part → Agree other c c')
    (hsound : c'.Sound part) : c'.issues = c.issues.filter fun i => i.part ≠ part := by
  rw [issues_eq_filterMap, issues_eq_filterMap, List.filter_filterMap]
  refine List.filterMap_congr fun other _ => ?_
  by_cases hother : other = part
  · subst hother
    rw [issueOf_eq_none_iff.2 hsound]
    cases h : c.issueOf other with
    | none => rfl
    | some i => simp [Option.filter, (faulty_of_issueOf h).1]
  · rw [← issueOf_congr (hothers other hother)]
    cases h : c.issueOf other with
    | none => rfl
    | some i => simp [Option.filter, (faulty_of_issueOf h).1, hother]

/-- Validation tells what is wrong with a configuration, part by part. -/
structure Validated (c : Config) : Prop where
  /-- It accepts exactly the configurations of which every part is sound. -/
  accepted : c.issues = [] ↔ ∀ part, c.Sound part
  /-- It tells one fault for each part that is not sound, in the order of the parts. -/
  parts : c.issues.map ConfigIssue.part = ConfigPart.all.filter fun part => ¬c.Sound part
  /-- It tells what is wrong, and of the faults of a text the first. -/
  told : ∀ i, i ∈ c.issues ↔ c.Faulty i
  /-- The fault of a part is a matter of that part. -/
  own : ∀ c' part, Agree part c c' → ∀ i : ConfigIssue, i.part = part →
    (i ∈ c.issues ↔ i ∈ c'.issues)
  /-- Where one part is mended, its fault goes and all others stay. -/
  mended : ∀ c' part, (∀ other, other ≠ part → Agree other c c') → c'.Sound part →
    c'.issues = c.issues.filter fun i => i.part ≠ part

theorem validated (c : Config) : c.Validated where
  accepted := by
    rw [← List.map_eq_nil_iff (f := ConfigIssue.part), map_part_issues, List.filter_eq_nil_iff]
    simp [ConfigPart.mem_all]
  parts := map_part_issues c
  told := by
    intro i
    rw [mem_issues_iff]
    exact ⟨fun h => (faulty_of_issueOf h).2, fun h => h.issueOf_eq⟩
  own := by
    rintro c' part hagree i rfl
    rw [mem_issues_iff, mem_issues_iff, issueOf_congr hagree]
  mended := fun _ _ => issues_of_mended

/-- A way to load a text: the origin that an error names, and the answer. -/
inductive LoadsAs (t : Text) : Text → Except ConfigError Config → Prop
  /-- The text is given. -/
  | inline : LoadsAs t inlineOrigin (ofText inlineOrigin t)
  /-- It is in a file. -/
  | file {tree : FileTree} {p : Path} (h : tree.readText p = .ok t) :
      LoadsAs t p (load tree p)
  /-- It is in the file that is named, whatever the directory holds. -/
  | named {tree : FileTree} {p directory : Path} (h : tree.readText p = .ok t) :
      LoadsAs t p ((loadOrDefault tree (some p) directory).map (·.1))
  /-- It is in the file of the usual name in the directory. -/
  | found {tree : FileTree} {p directory : Path} (hfound : discover tree directory = some p)
      (h : tree.readText p = .ok t) : LoadsAs t p ((loadOrDefault tree none directory).map (·.1))

/-- Every way of loading comes to the same answer but for the origin. -/
theorem LoadsAs.eq_ofText {t origin : Text} {answer : Except ConfigError Config}
    (h : LoadsAs t origin answer) : answer = ofText origin t := by
  have hload {tree : FileTree} {p : Path} (h : tree.readText p = .ok t) :
      load tree p = ofText p t := by
    rw [load, h]
  have hsource {tree : FileTree} {given : Option Path} {p directory : Path}
      (hsource : (given <|> discover tree directory) = some p) (h : tree.readText p = .ok t) :
      (loadOrDefault tree given directory).map (·.1) = ofText p t := by
    unfold loadOrDefault
    rw [hsource]
    dsimp only
    rw [hload h]
    cases ofText p t <;> rfl
  cases h with
  | inline => rfl
  | file h => exact hload h
  | named h => exact hsource rfl h
  | found hfound h => exact hsource hfound h

/-- The ways to load a text agree, and what they accept is valid. -/
structure LoadedAlike (t : Text) : Prop where
  /-- If one of them gives a configuration, all give the same. -/
  ok : ∀ {origin origin' answer answer'}, LoadsAs t origin answer → LoadsAs t origin' answer' →
    ∀ c, answer = .ok c → answer' = .ok c
  /-- If one of them fails, all fail alike, each with its own origin. -/
  error : ∀ {origin origin' answer answer'}, LoadsAs t origin answer →
    LoadsAs t origin' answer' → ∀ e, answer = .error e →
      ∃ fault, e = .refused origin fault ∧ answer' = .error (.refused origin' fault)
  /-- The faults that an error tells are those of the configuration that the text describes. -/
  issues : ∀ {origin answer}, LoadsAs t origin answer → ∀ origin' issues,
    answer = .error (.refused origin' (.invalid issues)) →
      ∃ c, (Toml.document? t).bind ofTree = some c ∧ issues = c.issues ∧ issues ≠ []
  /-- A configuration that is given has no faults. -/
  valid : ∀ {origin answer}, LoadsAs t origin answer → ∀ c, answer = .ok c → c.issues = []

theorem ofText_eq_error {origin t : Text} {e : ConfigError} (h : ofText origin t = .error e) :
    ∃ fault, e = .refused origin fault ∧ parse t = .error fault := by
  unfold ofText at h
  split at h
  · cases h
  · rename_i fault hparse
    cases h
    exact ⟨fault, rfl, hparse⟩

theorem ofText_eq_ok_iff {origin t : Text} {c : Config} :
    ofText origin t = .ok c ↔ parse t = .ok c := by
  unfold ofText
  cases parse t <;> simp

theorem exists_of_parse_eq_invalid {t : Text} {issues : List ConfigIssue}
    (h : parse t = .error (.invalid issues)) :
    ∃ c, (Toml.document? t).bind ofTree = some c ∧ issues = c.issues ∧ issues ≠ [] := by
  unfold parse at h
  split at h
  · cases h
  · rename_i c hc
    split at h
    · cases h
    · rename_i hne
      cases h
      exact ⟨c, hc, rfl, hne⟩

theorem loadedAlike (t : Text) : LoadedAlike t where
  ok := by
    rintro origin origin' answer answer' h h' c hc
    rw [h.eq_ofText, ofText_eq_ok_iff] at hc
    rw [h'.eq_ofText, ofText_eq_ok_iff, hc]
  error := by
    rintro origin origin' answer answer' h h' e he
    rw [h.eq_ofText] at he
    obtain ⟨fault, rfl, hfault⟩ := ofText_eq_error he
    exact ⟨fault, rfl, by rw [h'.eq_ofText, ofText, hfault]⟩
  issues := by
    rintro origin answer h origin' issues he
    rw [h.eq_ofText] at he
    obtain ⟨fault, hfault, hparse⟩ := ofText_eq_error he
    cases hfault
    exact exists_of_parse_eq_invalid hparse
  valid := by
    rintro origin answer h c hc
    rw [h.eq_ofText] at hc
    exact issues_ofText hc

/-- Where no file is named and none is found, the default configuration is loaded. -/
theorem loadOrDefault_of_not_found {tree : FileTree} {directory : Path}
    (h : discover tree directory = none) : loadOrDefault tree none directory = .ok ({}, none) := by
  unfold loadOrDefault
  rw [h]
  rfl

/-- Validation tells all faults of every configuration, one for each part at fault. All ways to load
a text go through it and agree but for the origin. What any way of loading gives has no faults, and
neither has the default configuration, which is loaded where there is no file. -/
theorem validation_exact :
    (∀ c : Config, c.Validated) ∧ (∀ t, LoadedAlike t) ∧ (∀ c : Config, c.Loaded → c.issues = []) ∧
      ({} : Config).issues = [] ∧ ∀ tree directory, discover tree directory = none →
        loadOrDefault tree none directory = .ok ({}, none) :=
  ⟨validated, loadedAlike, fun _ h => h.issues_eq_nil, issues_default,
    fun _ _ => loadOrDefault_of_not_found⟩

/-- Every part of this configuration is at fault, the banner line in two ways. -/
def faultyConfig : Config where
  target := { file := [] }
  banner := { enabled := false, text := "\n.record(".toList }
  record := { enabled := false, keyType := " k, v".toList }

/-- When its key type is mended, the other faults stay, and no file means no fault. -/
theorem validation_exact_every_part :
    let mended := { faultyConfig with record := { faultyConfig.record with keyType := ['k'] } }
    faultyConfig.issues = [.missing .targetFile, .bannerLines, .keyComma, .nothingEnabled] ∧
      (∀ other, other ≠ .keyType → Agree other faultyConfig mended) ∧ mended.Sound .keyType ∧
      mended.issues = [.missing .targetFile, .bannerLines, .nothingEnabled] ∧
      discover ⟨[], none, {}⟩ ['/'] = none ∧
      loadOrDefault ⟨[], none, {}⟩ none ['/'] = .ok ({}, none) := by
  intro mended
  have hissues : faultyConfig.issues =
      [.missing .targetFile, .bannerLines, .keyComma, .nothingEnabled] := by decide
  have hothers : ∀ other, other ≠ .keyType → Agree other faultyConfig mended := by
    intro other hother
    cases other with
    | keyType => exact absurd rfl hother
    | choice => exact ⟨rfl, rfl⟩
    | _ => exact rfl
  have hsound : mended.Sound .keyType := by decide
  obtain ⟨hvalidated, -, -, -, hdefault⟩ := validation_exact
  have hmended := (hvalidated faultyConfig).mended mended .keyType hothers hsound
  rw [hissues] at hmended
  have hnone : discover ⟨[], none, {}⟩ ['/'] = none := by decide
  exact ⟨hissues, hothers, hsound, hmended, hnone, hdefault _ _ hnone⟩

end Config

end ClientPatch
