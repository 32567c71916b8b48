import ClientPatch.Proofs.CallPattern
import ClientPatch.Proofs.PatchFrame
import ClientPatch.Proofs.RulesExact

/-!
# The rules run through on every source

Nothing that the rules do to a source can fail, whatever the banner and the key type are. The
points of the calls are boundaries of the source and come in order, so that the source can be cut
from each to the next and behind each parenthesis. The insertions that are planned stand at
different boundaries and announce nothing, so that the check of edits accepts them: the banner on
the source, and the keys on the source with its banner. A patch therefore never ends with a refused
edit.
-/

namespace ClientPatch

/-- The calls of a source can be looked for by cutting the source. -/
structure ScansThrough (source : Text) : Prop where
  /-- From the start, and from the point of each call, it can be cut up to the next point. -/
  between : (0 :: (recordCalls source).map (·.offset)).IsChain source.CanSlice
  /-- It can be cut behind the parenthesis of each call, and what is looked at for a key follows. -/
  behind : ∀ s ∈ callSites source, ∃ front,
    source.splitAt? s.call.argsStart = some (front, s.rest)
  /-- Searching for the pattern of a call comes to an end. -/
  searched : ∃ ms, callPattern.Matches 0 source ms
  /-- So does counting lines from each of its matches to the next one. -/
  counted : ∀ ms, callPattern.Matches 0 source ms →
    callsOfMatches source 0 1 ms = some (recordCalls source)

theorem scansThrough (source : Text) : ScansThrough source where
  between := by
    have hpoint : ∀ c ∈ recordCalls source, source.IsBoundary c.offset := by
      intro c hc
      obtain ⟨s, hs, rfl⟩ := List.mem_map.1 hc
      obtain ⟨before, hsource, hcall⟩ := mem_callSites_iff.1 hs
      exact ⟨before, recordToken ++ s.rest, hsource, by rw [hcall]; rfl⟩
    have hstart : source.IsBoundary 0 := ⟨[], source, rfl, rfl⟩
    -- A call ends in front of the next one, and so its point stands in front as well.
    have hordered : (recordCalls source).Pairwise fun a b => a.offset ≤ b.offset := by
      refine List.pairwise_map.2 ((pairwise_callSitesFrom .start source).imp_of_mem ?_)
      intro a b ha _ hab
      obtain ⟨before, -, hcall⟩ := mem_callSites_iff.1 ha
      rw [hcall, RecordCall.argsStart_after] at hab
      rw [hcall, RecordCall.offset_after]
      omega
    refine List.Pairwise.isChain (List.pairwise_cons.2 ⟨fun n hn => ?_, List.pairwise_map.2 ?_⟩)
    · obtain ⟨c, hc, rfl⟩ := List.mem_map.1 hn
      exact hstart.canSlice (hpoint c hc) (Nat.zero_le c.offset)
    · exact hordered.imp_of_mem fun ha hb hab => (hpoint _ ha).canSlice (hpoint _ hb) hab
  behind := by
    intro s hs
    obtain ⟨before, hsource, hcall⟩ := mem_callSites_iff.1 hs
    refine ⟨before ++ recordToken, Text.splitAt?_eq_some_iff.2 ⟨?_, ?_⟩⟩
    · rw [List.append_assoc, hsource]
    · rw [hcall, Text.size_append, RecordCall.argsStart_after]
  searched := (exists_matches [] [] (k := .start) rfl rfl rfl rfl).imp fun _ h => h.1
  counted := by
    intro ms hms
    obtain ⟨ns, hns, hcounted⟩ := exists_matches [] [] (k := .start) (t := source) rfl rfl rfl rfl
    rw [hms.unique hns]
    exact hcounted

/-- A piece can be put in at the arguments of any calls of a source. -/
theorem accepted_insertions (piece : Text) {source : Text} {calls : List RecordCall}
    (h : calls.Sublist (recordCalls source)) :
    Edit.Accepted source (calls.map fun c => Edit.insert c.argsStart piece) := by
  have hstands : ∀ c ∈ calls, c.StandsIn 0 source := by
    intro c hc
    obtain ⟨s, hs, rfl⟩ := List.mem_map.1 (h.subset hc)
    obtain ⟨before, hsource, hcall⟩ := mem_callSites_iff.1 hs
    exact ⟨before, s.rest, hsource, by rw [hcall, Nat.zero_add]; rfl, by rw [hcall]; rfl⟩
  have hordered : calls.Pairwise fun a b => a.argsStart ≤ b.offset :=
    (List.pairwise_map.2 (pairwise_callSitesFrom .start source)).sublist h
  obtain ⟨out, hout⟩ := Inserted.exists_of_calls piece hstands hordered
  exact hout.woven.accepted hout.pairwise_apart

theorem Banner.accepted_plan {b : Banner} {source : Text} {e : Edit} (h : e ∈ b.plan source) :
    Edit.Accepted source [e] := by
  rw [plan] at h
  split at h
  · cases h
  · cases h
    have hwoven : Edit.Woven 0 ([] ++ source) [Edit.insert 0 (b.text ++ ['\n'])]
        ([] ++ (b.text ++ ['\n'] ++ source)) := .cons_insert _ rfl .nil
    exact hwoven.accepted (List.pairwise_singleton _ _)

theorem RecordKey.accepted_plan (r : RecordKey) (source : Text) :
    Edit.Accepted source ((r.plan source).map (·.2)) := by
  have hedits : (r.plan source).map (·.2) =
      (r.missing source).map fun c => Edit.insert c.argsStart r.insertion := by
    rw [plan, List.map_map]
    rfl
  rw [hedits]
  exact accepted_insertions r.insertion (List.filter_sublist.map _)

namespace Rules

theorem accepted_recordPlan (rules : Rules) (source : Text) :
    Edit.Accepted source ((rules.recordPlan source).map (·.2)) := by
  rw [map_recordPlan]
  refine accepted_insertions rules.piece ?_
  rw [lacking_eq]
  cases rules.record with
  | none => exact List.nil_sublist _
  | some r => exact List.filter_sublist.map _

/-- A file that was found is never left for a refused edit. -/
theorem patchLocated_ne_edit (rules : Rules) (workspace : Option Workspace) (mode : PatchMode)
    (found : LocatedTarget) (tree : FileTree) (cause : EditError) :
    (rules.patchLocated workspace mode found tree).answer ≠ .error (.edit cause) := by
  intro h
  cases stopsAt_of_patchLocated h with
  | @refused before _ _ hrefused =>
    obtain ⟨out, htransform, -⟩ := exists_transform rules before
    rw [htransform] at hrefused
    cases hrefused

theorem patch_ne_edit (rules : Rules) (mode : PatchMode) (target : Path) (tree : FileTree)
    (cause : EditError) : (rules.patch mode target tree).answer ≠ .error (.edit cause) := by
  unfold patch
  split
  · split
    · nofun
    · exact patchLocated_ne_edit rules none mode _ tree cause
  · nofun

theorem patchWithin_ne_edit (rules : Rules) (w : Workspace) (mode : PatchMode) (target : Path)
    (tree : FileTree) (cause : EditError) :
    (rules.patchWithin w mode target tree).answer ≠ .error (.edit cause) := by
  unfold patchWithin
  split
  · nofun
  · nofun
  · exact patchLocated_ne_edit rules (some w) mode _ tree cause

/-- The rules get through a source without a refusal on the way. -/
structure RunsThrough (rules : Rules) (source : Text) : Prop where
  /-- The banner's edit is accepted. -/
  banner : ∀ b ∈ rules.banner, ∀ e ∈ b.plan source, Edit.Accepted source [e]
  /-- The banner is dealt with, and on the text that comes of it the calls can be looked for and
  their edits are accepted, those for every call that lacks the key as well as those that are left
  when the calls in the banner are passed over. -/
  record : ∃ contents inserted, rules.bannerStep source = .ok (contents, inserted) ∧
    ScansThrough contents ∧
    (∀ r ∈ rules.record, Edit.Accepted contents ((r.plan contents).map (·.2))) ∧
    Edit.Accepted contents ((rules.recordPlan contents).map (·.2))
  /-- A text comes of both rules. -/
  result : ∃ t, rules.transform source = .ok t

theorem runsThrough (rules : Rules) (source : Text) : rules.RunsThrough source where
  banner := fun _ _ _ he => Banner.accepted_plan he
  record := ⟨rules.bannered source, !(rules.bannerLine source).isEmpty,
    bannerStep_eq rules source, scansThrough _, fun r _ => r.accepted_plan _,
    rules.accepted_recordPlan _⟩
  result := by
    obtain ⟨out, htransform, -⟩ := exists_transform rules source
    exact ⟨_, htransform⟩

/-- Whatever the rules are, they get through every source, and no patch, within a workspace or
without, fails by a refused edit. -/
theorem transform_total (rules : Rules) :
    (∀ source, rules.RunsThrough source) ∧
      ∀ mode target tree cause,
        (rules.patch mode target tree).answer ≠ .error (.edit cause) ∧
          ∀ w, (rules.patchWithin w mode target tree).answer ≠ .error (.edit cause) := by
  refine ⟨rules.runsThrough, fun mode target tree cause => ⟨?_, fun w => ?_⟩⟩
  · exact rules.patch_ne_edit mode target tree cause
  · exact rules.patchWithin_ne_edit w mode target tree cause

end Rules

end ClientPatch
