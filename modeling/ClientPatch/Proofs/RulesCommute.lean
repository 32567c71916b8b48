import ClientPatch.Proofs.RulesSettled

/-!
# Rules one after another, in any order

Without a record call in the banner and in the key type the two rules do not look at each
other's work. The line in front moves the calls of a source and makes none, and the pieces come
behind a call, so behind whatever part of the banner a source begins with. So the rules
commute, and a run of steps, each with one of the rules or both, ends with the same text as
both rules at once, as soon as both have had their turn.
-/

namespace ClientPatch

namespace Inserted

variable {piece t out : Text} {k : Nat} {calls : List RecordCall}

/-- The calls may stand at other places, as long as the text moves with them. -/
theorem shift (h : Inserted piece k calls t out) {d : Nat} {moved : List RecordCall}
    (hoffset : moved.map (·.offset) = calls.map fun c => c.offset + d)
    (hargs : ∀ c ∈ moved, c.argsStart = c.offset + recordToken.size) :
    Inserted piece (k + d) moved t out := by
  induction h generalizing moved with
  | nil =>
    obtain rfl : moved = [] := by simpa using hoffset
    exact nil
  | @cons k a t out c calls hc hca h ih =>
    cases moved with
    | nil => cases hoffset
    | cons m moved =>
      obtain ⟨hm, hmoved⟩ : m.offset = c.offset + d ∧ _ := List.cons.inj hoffset
      have hma := hargs m List.mem_cons_self
      have hrest := ih hmoved fun d hd => hargs d (List.mem_cons_of_mem m hd)
      have hstart : c.argsStart + d = m.argsStart := by
        rw [hma, hm, hca]
        exact Nat.add_right_comm _ _ _
      rw [hstart] at hrest
      exact cons (by omega) hma hrest

/-- A text in front of all calls stays in front. -/
theorem behind {front : Text} (h : Inserted piece (k + front.size) calls t out) :
    Inserted piece k calls (front ++ t) (front ++ out) := by
  cases h with
  | nil => exact nil
  | @cons _ a t out c calls hoffset hargs h =>
    rw [← List.append_assoc front a, ← List.append_assoc front a]
    refine cons ?_ hargs h
    rw [hoffset, Text.size_append, Nat.add_assoc]

/-- Putting pieces in does not change whether a text begins with one that holds no call. -/
theorem isPrefix_iff (h : Inserted piece k calls t out) {w : Text}
    (hfree : ¬recordToken <:+: w) : w <+: out ↔ w <+: t := by
  refine ⟨fun hw => ?_, fun hw => h.isPrefix_of_free hw hfree⟩
  cases h with
  | nil => exact hw
  | @cons k a t out c calls hoffset hargs h =>
    have hseam : a ++ recordToken <+: a ++ (recordToken ++ (piece ++ out)) :=
      ⟨piece ++ out, List.append_assoc a recordToken _⟩
    rcases List.prefix_or_prefix_of_prefix hw hseam with hle | hle
    · exact hle.trans ⟨t, List.append_assoc a recordToken t⟩
    · exact absurd ((List.suffix_append a recordToken).isInfix.trans hle.isInfix) hfree

end Inserted

namespace Rules

/-- What the rules make of a source is one text. -/
theorem Makes.unique {rules : Rules} {source out out' : Text} (h : rules.Makes source out)
    (h' : rules.Makes source out') : out = out' := by
  have hw := Inserted.woven h |>.weave?_eq [] rfl
  rw [Inserted.woven h' |>.weave?_eq [] rfl] at hw
  exact (Option.some.inj hw).symm

theorem Makes.exists_transform {rules : Rules} {source out : Text} (h : rules.Makes source out) :
    ∃ t, rules.transform source = .ok t ∧ t.contents = out := by
  obtain ⟨out', htransform, hmakes⟩ := Rules.exists_transform rules source
  exact ⟨_, htransform, hmakes.unique h⟩

/-- The banner of the rules holds no call. -/
def BannerFree (rules : Rules) : Prop := ∀ b ∈ rules.banner, ¬recordToken <:+: b.text

/-- The rules without the banner rule. -/
def recordOnly (rules : Rules) : Rules := { rules with banner := none }

/-- The rules without the record rule. -/
def bannerOnly (rules : Rules) : Rules := { rules with record := none }

section

variable {rules : Rules} {source out : Text}

theorem bannered_recordOnly (rules : Rules) (source : Text) :
    rules.recordOnly.bannered source = source := rfl

/-- A banner that is there is not put in again. -/
theorem bannered_bannered (rules : Rules) (source : Text) :
    rules.bannered (rules.bannered source) = rules.bannered source := by
  have hline := (rules.bannerLine_eq_nil_iff _).2 (rules.begins_bannered source)
  conv_lhs => rw [bannered, hline, List.nil_append]

/-- The banner rule alone puts the line in front. -/
theorem makes_bannerOnly (rules : Rules) (source : Text) :
    rules.bannerOnly.Makes source (rules.bannered source) := by
  have hnone : rules.bannerOnly.lacking (rules.bannerOnly.bannered source) = [] := by
    rw [lacking_eq]
    rfl
  rw [Makes, hnone]
  exact .nil

/-- Without a call in the banner the plan is all calls that lack their key. -/
theorem lacking_eq_missing (hfree : rules.BannerFree) {t : Text} (ht : rules.Begins t) :
    rules.lacking t = (rules.record.map fun r => r.missing t).getD [] := by
  have hbeyond : ∀ s ∈ callSites t, rules.bannerEnd t < s.call.argsStart := by
    intro s hs
    obtain ⟨p, hp, hcall⟩ := mem_callSites_iff.1 hs
    rw [bannerEnd_eq ht, hcall]
    refine Nat.lt_of_not_le fun hle => ?_
    unfold bannerSize at hle
    cases hb : rules.banner with
    | none =>
      rw [hb, RecordCall.after, size_recordToken] at hle
      exact absurd hle (by simp)
    | some b =>
      rw [hb] at hle
      exact hfree b hb (token_infix_of_isPrefix (ht b hb) hp hle)
  rw [lacking_eq]
  cases rules.record with
  | none => rfl
  | some r =>
    refine congrArg (List.map _) (List.filter_congr fun s hs => ?_)
    rw [decide_eq_true (hbeyond s hs), Bool.true_and]

theorem lacking_recordOnly (rules : Rules) (t : Text) :
    rules.recordOnly.lacking t = (rules.record.map fun r => r.missing t).getD [] := by
  have hfree : rules.recordOnly.BannerFree := fun _ hb => nomatch hb
  have hbegins : rules.recordOnly.Begins t := fun _ hb => nomatch hb
  exact lacking_eq_missing hfree hbegins

/-- Both rules are the banner rule and then the record rule. -/
theorem makes_iff_recordOnly (hfree : rules.BannerFree) :
    rules.Makes source out ↔ rules.recordOnly.Makes (rules.bannered source) out := by
  rw [Makes, Makes, bannered_recordOnly, lacking_recordOnly,
    lacking_eq_missing hfree (rules.begins_bannered source)]
  rfl

/-- Nothing of the line that the banner rule puts in shows in a scan. -/
theorem isInert_bannerLine (hfree : rules.BannerFree) (source : Text) :
    IsInert (rules.bannerLine source) := by
  unfold bannerLine
  cases hb : rules.banner with
  | none => exact isInert_nil
  | some b =>
    by_cases hp : b.isPresent source = true
    · simpa only [hp, if_true] using isInert_nil
    · simp only [if_neg hp]
      refine ⟨?_, ?_, foldl_extendName_concat (by decide) b.text []⟩
      · rw [token_infix_append_iff (by simp [recordToken])]
        exact hfree b hb
      · intro c hc
        rw [List.getLast?_append] at hc
        obtain rfl : '\n' = c := Option.some.inj hc
        decide

/-- The line in front moves the calls of a source and makes none. -/
theorem callSites_bannered (hfree : rules.BannerFree) (source : Text) :
    callSites (rules.bannered source) = (callSites source).map fun s =>
      s.moved (rules.bannerLine source).size ((rules.bannerLine source).count '\n') := by
  rw [callSites, bannered, (isInert_bannerLine hfree source).callSitesFrom_append rfl,
    callSitesFrom_moved]
  rfl

/-- So it does with the calls that lack their key. -/
theorem missing_bannered (hfree : rules.BannerFree) (r : RecordKey) (source : Text) :
    r.missing (rules.bannered source) = (r.missing source).map fun c =>
      c.moved (rules.bannerLine source).size ((rules.bannerLine source).count '\n') := by
  simp only [RecordKey.missing, callSites_bannered hfree, List.filter_map, List.map_map,
    Function.comp_def, CallSite.call_moved, CallSite.rest_moved]

/-- The record rule works on a text with its line as on the text behind the line. -/
theorem Makes.bannered (hfree : rules.BannerFree) (h : rules.recordOnly.Makes source out) :
    rules.recordOnly.Makes (rules.bannered source) (rules.bannered out) := by
  rw [Makes, bannered_recordOnly] at h ⊢
  -- The banner rule looks at the beginning only, which is the same before and after the pieces.
  have hline : rules.bannerLine out = rules.bannerLine source := by
    have hbegins : rules.Begins out ↔ rules.Begins source :=
      forall₂_congr fun b hb => h.isPrefix_iff (hfree b hb)
    unfold bannerLine
    cases hb : rules.banner with
    | none => rfl
    | some b =>
      have hiff : b.isPresent out = b.isPresent source := by
        rw [Bool.eq_iff_iff]
        simpa [Begins, hb, Banner.isPresent, Text.hasPrefix_iff] using hbegins
      simp only [hiff]
  have hmissing := fun r => missing_bannered hfree r source
  rw [Rules.bannered] at hmissing
  rw [Rules.bannered, Rules.bannered, hline]
  refine Inserted.behind (h.shift ?_ fun c hc => ?_)
  · rw [lacking_recordOnly, lacking_recordOnly]
    cases rules.record with
    | none => rfl
    | some r =>
      simp only [Option.map_some, Option.getD_some, hmissing, List.map_map]
      rfl
  · obtain ⟨_, _, _, _, _, rfl, _⟩ := mem_lacking_iff.1 hc
    rfl

end

end Rules

/-- A step of a run: one of the two rules alone, or both. -/
inductive RuleStep where
  /-- The banner rule. -/
  | banner
  /-- The record rule. -/
  | record
  /-- The banner rule and then the record rule. -/
  | both
  deriving DecidableEq, Repr

namespace RuleStep

/-- The rules of a step, for a banner and a key type. -/
def rules (banner key : Text) : RuleStep → Rules
  | .banner => .ofTexts (some banner) none
  | .record => .ofTexts none (some key)
  | .both => .ofTexts (some banner) (some key)

/-- Whether the banner rule has its turn. -/
def hasBanner : RuleStep → Bool
  | .record => false
  | _ => true

/-- Whether the record rule has its turn. -/
def hasRecord : RuleStep → Bool
  | .banner => false
  | _ => true

/-- The text after the steps, each of them on what the one before made. -/
def run (banner key : Text) : List RuleStep → Text → Except EditError Text
  | [], source => .ok source
  | step :: steps, source =>
    match (step.rules banner key).transform source with
    | .error e => .error e
    | .ok t => run banner key steps t.contents

/-- The text after the rules that had their turn, where the record rule makes `keyed` of the
source. -/
def stage (rules : Rules) (source keyed : Text) (bannerDone recordDone : Bool) : Text :=
  let t := if recordDone then keyed else source
  if bannerDone then rules.bannered t else t

section

variable {banner key source keyed : Text}

/-- A step gives its rules their turn; a rule that had its turn before has nothing to do. -/
theorem makes_stage (hbanner : ¬recordToken <:+: banner)
    (hkeyed : (Rules.ofTexts none (some key)).Makes source keyed)
    (hfixed : (Rules.ofTexts none (some key)).Makes keyed keyed)
    (step : RuleStep) (bannerDone recordDone : Bool) :
    (step.rules banner key).Makes
      (stage (.ofTexts (some banner) (some key)) source keyed bannerDone recordDone)
      (stage (.ofTexts (some banner) (some key)) source keyed (bannerDone || step.hasBanner)
        (recordDone || step.hasRecord)) := by
  have hfree : (Rules.ofTexts (some banner) (some key)).BannerFree := by
    rintro b hb
    cases hb
    exact hbanner
  have hrecord : (Rules.ofTexts none (some key)).Makes (if recordDone then keyed else source)
      keyed := by
    cases recordDone with
    | false => exact hkeyed
    | true => exact hfixed
  cases step with
  | banner =>
    simp only [hasBanner, hasRecord, Bool.or_true, Bool.or_false]
    have hmakes := Rules.makes_bannerOnly (.ofTexts (some banner) (some key))
      (stage (.ofTexts (some banner) (some key)) source keyed bannerDone recordDone)
    cases bannerDone with
    | false => exact hmakes
    | true =>
      simp only [stage, if_true, Rules.bannered_bannered] at hmakes ⊢
      exact hmakes
  | record =>
    simp only [hasBanner, hasRecord, Bool.or_true, Bool.or_false]
    cases bannerDone with
    | false => exact hrecord
    | true => exact Rules.Makes.bannered hfree hrecord
  | both =>
    simp only [hasBanner, hasRecord, Bool.or_true]
    refine (Rules.makes_iff_recordOnly hfree).2 ?_
    have hmakes := Rules.Makes.bannered hfree hrecord
    cases bannerDone with
    | false => exact hmakes
    | true =>
      simp only [stage, if_true, Rules.bannered_bannered] at hmakes ⊢
      exact hmakes

/-- A run gives their turn to the rules of all its steps. -/
theorem run_stage (hbanner : ¬recordToken <:+: banner)
    (hkeyed : (Rules.ofTexts none (some key)).Makes source keyed)
    (hfixed : (Rules.ofTexts none (some key)).Makes keyed keyed)
    (steps : List RuleStep) (bannerDone recordDone : Bool) :
    run banner key steps
        (stage (.ofTexts (some banner) (some key)) source keyed bannerDone recordDone) =
      .ok (stage (.ofTexts (some banner) (some key)) source keyed
        (bannerDone || steps.any hasBanner) (recordDone || steps.any hasRecord)) := by
  -- What a run has made so far depends only on which rules have had their turn.
  induction steps generalizing bannerDone recordDone with
  | nil => simp [run]
  | cons step steps ih =>
    obtain ⟨t, ht, hcontents⟩ :=
      (makes_stage hbanner hkeyed hfixed step bannerDone recordDone).exists_transform
    rw [run, ht]
    dsimp only
    rw [hcontents, ih, List.any_cons, List.any_cons, Bool.or_assoc, Bool.or_assoc]

end

/-- A run of steps ends with the text that both rules make of the source at once, when both had
their turn in it, in whatever order and however often. -/
theorem run_confluent {banner key : Text} (hbanner : ¬recordToken <:+: banner)
    (hkey : ¬recordToken <:+: key) (source : Text) (steps : List RuleStep)
    (hsteps : .both ∈ steps ∨ (.banner ∈ steps ∧ .record ∈ steps)) :
    ∃ t, (Rules.ofTexts (some banner) (some key)).transform source = .ok t ∧
      run banner key steps source = .ok t.contents := by
  obtain ⟨keyed, -, hkeyed⟩ := Rules.exists_transform (.ofTexts none (some key)) source
  have hfixed : (Rules.ofTexts none (some key)).Makes keyed keyed := by
    have hsettled := hkeyed.settled fun k hk => by
      cases hk
      exact hkey
    rw [Rules.Makes, Rules.bannered, (Rules.bannerLine_eq_nil_iff _ _).2 hsettled.begins,
      List.nil_append, hsettled.lacking_eq_nil]
    exact .nil
  obtain ⟨t, ht, hcontents⟩ :=
    (makes_stage hbanner hkeyed hfixed .both false false).exists_transform
  refine ⟨t, ht, ?_⟩
  have hrun := run_stage hbanner hkeyed hfixed steps false false
  have hdone : steps.any hasBanner = true ∧ steps.any hasRecord = true := by
    simp only [List.any_eq_true]
    rcases hsteps with hboth | ⟨hb, hr⟩
    · exact ⟨⟨.both, hboth, rfl⟩, ⟨.both, hboth, rfl⟩⟩
    · exact ⟨⟨.banner, hb, rfl⟩, ⟨.record, hr, rfl⟩⟩
  rw [hdone.1, hdone.2] at hrun
  rw [hcontents]
  exact hrun

/-- The source begins with the middle of a banner that itself ends within a call, and the record
rule has its turn before and after the banner rule. -/
theorem run_confluent_partial_banner :
    ∃ t, (Rules.ofTexts (some "#.record".toList) (some [' ', 'k'])).transform
        "#.rec.record(x".toList = .ok t ∧
      run "#.record".toList [' ', 'k'] [.record, .banner, .record] "#.rec.record(x".toList =
        .ok t.contents := by
  refine run_confluent (fun h => ?_) (fun h => ?_) _ _ (Or.inr ⟨by decide, by decide⟩)
  · rw [← Text.hasInfix_iff] at h
    revert h
    decide
  · rw [← Text.hasInfix_iff] at h
    revert h
    decide

end RuleStep

end ClientPatch
