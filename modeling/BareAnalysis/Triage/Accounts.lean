import BareAnalysis.Machinery.Counterpart
import BareAnalysis.Triage.Pass
import Mathlib.Data.Finset.Card
import Mathlib.Data.Finset.Image

/-!
# Triage/Accounts — what a pass asks, writes and counts

    rule ⟨unit separator⟩ value ──cache_key──▸ one call ──▸ one answer for each row of the key

`triage_run` in `core/llm/triage.py`, over its whole loop: `Accounts` holds after every turn
(`Accounts.step`), so a pass asks once for each candidate, judges the same candidates the same way,
and its counters say what it wrote (`triageRun_isAccounted`).
-/

namespace BareAnalysis

section Pass

variable (provider : Provider) (paths : List (String × String)) (counts : Counter String)
  (clock : String → ℕ)

/-- How many rows have a verdict. -/
def countVerdict (rows : List Finding) (verdict : LlmVerdict) : ℕ :=
  rows.countP fun w => w.llmVerdict == some verdict

/-- After some turns of the loop: a call for each cached answer, a row for each finding, with the
answer of its key, and counters of the rows. -/
structure Accounts (fs : List Finding) (st : PassState) : Prop where
  keys : ∀ key, (Dict.get? st.cache key).isSome ↔ key ∈ fs.map cacheKey
  nodup : (st.cache.map Prod.fst).Nodup
  calls : st.result.calls = st.cache.length
  written : List.Forall₂ (fun f w => ∃ answer time, Dict.get? st.cache (cacheKey f) = some answer ∧
    w = applyVerdict f ⟨answer.1, answer.2, provider.model, time⟩) fs st.written
  triaged : st.result.triaged = st.written.length
  confirmed : st.result.confirmed = countVerdict st.written .truePositive
  dismissed : st.result.dismissed = countVerdict st.written .falsePositive
  needsReview : st.result.needsReview = countVerdict st.written .needsReview
  errors : st.result.errors = countVerdict st.written .error

theorem accounts_nil : Accounts provider [] {} where
  keys key := by simp
  nodup := List.nodup_nil
  calls := rfl
  written := .nil
  triaged := rfl
  confirmed := rfl
  dismissed := rfl
  needsReview := rfl
  errors := rfl

theorem countVerdict_concat (rows : List Finding) (f : Finding) (a : Assessment)
    (verdict : LlmVerdict) : countVerdict (rows ++ [applyVerdict f a]) verdict
      = countVerdict rows verdict + if a.verdict = verdict then 1 else 0 := by
  rw [countVerdict, countVerdict, List.countP_append, List.countP_singleton]
  simp only [applyVerdict_llmVerdict, beq_iff_eq, Option.some.injEq]

/-- What a count adds to each counter. -/
theorem TriageResult.count_eq (r : TriageResult) (verdict : LlmVerdict) :
    (r.count verdict).triaged = r.triaged + 1 ∧ (r.count verdict).calls = r.calls ∧
      (r.count verdict).confirmed
        = r.confirmed + (if verdict = .truePositive then 1 else 0) ∧
      (r.count verdict).dismissed
        = r.dismissed + (if verdict = .falsePositive then 1 else 0) ∧
      (r.count verdict).needsReview
        = r.needsReview + (if verdict = .needsReview then 1 else 0) ∧
      (r.count verdict).errors = r.errors + (if verdict = .error then 1 else 0) := by
  cases verdict <;> exact ⟨rfl, rfl, rfl, rfl, rfl, rfl⟩

/-- What a turn leaves, given the answer it writes and the cache it keeps. -/
theorem Accounts.turn {fs : List Finding} {st : PassState} (h : Accounts provider fs st)
    (f : Finding) {cache : Dict String (LlmVerdict × String)} {answer : LlmVerdict × String}
    {calls : ℕ} (hgrown : ∀ key v, Dict.get? st.cache key = some v → Dict.get? cache key = some v)
    (hkeys : ∀ key, (Dict.get? cache key).isSome ↔
      (Dict.get? st.cache key).isSome ∨ key = cacheKey f)
    (hanswer : Dict.get? cache (cacheKey f) = some answer)
    (hnodup : (cache.map Prod.fst).Nodup) (hcalls : calls = cache.length) :
    Accounts provider (fs ++ [f])
      { cache
        result := ({ st.result with calls }).count answer.1
        written := st.written
          ++ [applyVerdict f ⟨answer.1, answer.2, provider.model, clock f.id⟩] } := by
  obtain ⟨htriaged, hcall, hconfirmed, hdismissed, hreview, herrors⟩ :=
    TriageResult.count_eq { st.result with calls } answer.1
  have hcount : ∀ verdict, countVerdict
      (st.written ++ [applyVerdict f ⟨answer.1, answer.2, provider.model, clock f.id⟩]) verdict
        = countVerdict st.written verdict + if answer.1 = verdict then 1 else 0 :=
    countVerdict_concat st.written f _
  exact {
    keys := fun key => by
      rw [hkeys, h.keys, List.map_append, List.mem_append, List.map_singleton, List.mem_singleton]
    nodup := hnodup
    calls := hcall.trans hcalls
    written := List.rel_append
      (h.written.imp fun g w ⟨a, time, ha, hw⟩ => ⟨a, time, hgrown _ _ ha, hw⟩)
      (.cons ⟨answer, clock f.id, hanswer, rfl⟩ .nil)
    triaged := by
      rw [List.length_append]
      exact htriaged.trans (congrArg (· + 1) h.triaged)
    confirmed := hconfirmed.trans (by rw [hcount, ← h.confirmed])
    dismissed := hdismissed.trans (by rw [hcount, ← h.dismissed])
    needsReview := hreview.trans (by rw [hcount, ← h.needsReview])
    errors := herrors.trans (by rw [hcount, ← h.errors]) }

/-- **One turn keeps the accounts.** -/
theorem Accounts.step {fs : List Finding} {st : PassState} (h : Accounts provider fs st)
    (f : Finding) :
    Accounts provider (fs ++ [f]) (triageStep provider paths counts clock st f) := by
  cases hcached : Dict.get? st.cache (cacheKey f) with
  | some answer =>
    have hstep := h.turn provider clock f (fun _ _ hv => hv) (fun key => ?_) hcached h.nodup h.calls
    · rw [triageStep, hcached]
      exact hstep
    · refine ⟨Or.inl, fun hkey => hkey.elim id ?_⟩
      rintro rfl
      rw [hcached]
      rfl
  | none =>
    obtain ⟨answer, hanswer⟩ : ∃ answer, triageFinding provider f ((paths.lookup f.id).getD "")
        ((counts.lookup f.id).getD 1) = answer := ⟨_, rfl⟩
    have hget : ∀ key, Dict.get? (st.cache ++ [(cacheKey f, answer)]) key
        = if cacheKey f = key then some answer else Dict.get? st.cache key :=
      Dict.get?_concat st.cache (cacheKey f) answer
    have hfresh : cacheKey f ∉ st.cache.map Prod.fst := fun hmem => by
      obtain ⟨entry, hentry, hkey⟩ := List.mem_map.mp hmem
      obtain ⟨v, hv⟩ := Dict.exists_get?_of_mem hentry
      rw [hkey, hcached] at hv
      cases hv
    have hgrown : ∀ key v, Dict.get? st.cache key = some v →
        Dict.get? (st.cache ++ [(cacheKey f, answer)]) key = some v := by
      intro key v hv
      have hne : cacheKey f ≠ key := fun heq => by
        rw [← heq, hcached] at hv
        cases hv
      rw [hget, if_neg hne, hv]
    have hkeys : ∀ key, (Dict.get? (st.cache ++ [(cacheKey f, answer)]) key).isSome ↔
        (Dict.get? st.cache key).isSome ∨ key = cacheKey f := by
      intro key
      rw [hget]
      by_cases heq : cacheKey f = key
      · rw [if_pos heq]
        exact iff_of_true rfl (Or.inr heq.symm)
      · rw [if_neg heq]
        exact (or_iff_left (Ne.symm heq)).symm
    have hnodup : ((st.cache ++ [(cacheKey f, answer)]).map Prod.fst).Nodup := by
      rw [List.map_append, List.nodup_append]
      refine ⟨h.nodup, List.nodup_singleton _, fun a ha b hb hab => hfresh ?_⟩
      rwa [hab, List.mem_singleton.mp hb] at ha
    have hcalls : st.result.calls + 1 = (st.cache ++ [(cacheKey f, answer)]).length := by
      rw [List.length_append, h.calls]
      rfl
    have hstep := h.turn provider clock f hgrown hkeys (by rw [hget, if_pos rfl]) hnodup hcalls
    rw [triageStep, hcached]
    simp only [Option.getD_none, Option.isNone_none, if_true, hanswer]
    exact hstep

/-- The accounts of a whole loop. -/
theorem Accounts.foldl {done : List Finding} {st : PassState} (h : Accounts provider done st)
    (fs : List Finding) :
    Accounts provider (done ++ fs) (fs.foldl (triageStep provider paths counts clock) st) := by
  induction fs generalizing done st with
  | nil => rwa [List.append_nil]
  | cons f fs ih =>
    have hrest := ih (h.step provider paths counts clock f)
    rwa [List.append_assoc] at hrest

/-! ## A pass -/

/-- What a pass over some findings leaves. -/
structure IsAccounted (findings : List Finding) (st : PassState) : Prop where
  /-- Every finding is written once, and nothing else. -/
  written : (st.written.map Finding.key).Perm (findings.map Finding.key)
  /-- One call for each candidate, however often it was found. -/
  calls : st.result.calls = (findings.map cacheKey).toFinset.card
  /-- The same candidate is judged the same way everywhere. -/
  consistent : ∀ w ∈ st.written, ∀ w' ∈ st.written, cacheKey w = cacheKey w' →
    w.llmVerdict = w'.llmVerdict ∧ w.llmReasoning = w'.llmReasoning
  /-- The counters say what was written, and add up to all of it. -/
  counted : st.result.triaged = findings.length ∧
    st.result.confirmed = countVerdict st.written .truePositive ∧
    st.result.dismissed = countVerdict st.written .falsePositive ∧
    st.result.needsReview = countVerdict st.written .needsReview ∧
    st.result.errors = countVerdict st.written .error ∧
    st.result.confirmed + st.result.dismissed + st.result.needsReview + st.result.errors
      = st.result.triaged
  /-- Nothing at or above the floor is dismissed. -/
  floored : ∀ w ∈ st.written, w.llmVerdict = some .falsePositive →
    w.severity.rank ≤ severityFloor.rank → w.status = .needsReview

theorem cacheKey_applyVerdict (f : Finding) (a : Assessment) :
    cacheKey (applyVerdict f a) = cacheKey f := by
  rw [applyVerdict]
  split <;> rfl

theorem severity_applyVerdict (f : Finding) (a : Assessment) :
    (applyVerdict f a).severity = f.severity := by
  rw [applyVerdict]
  split <;> rfl

theorem llmReasoning_applyVerdict (f : Finding) (a : Assessment) :
    (applyVerdict f a).llmReasoning = some a.reasoning := by
  rw [applyVerdict]
  split <;> rfl

/-- Each row has one of the four verdicts. -/
theorem sum_countVerdict {rows : List Finding} (h : ∀ w ∈ rows, w.llmVerdict.isSome) :
    countVerdict rows .truePositive + countVerdict rows .falsePositive
      + countVerdict rows .needsReview + countVerdict rows .error = rows.length := by
  induction rows with
  | nil => rfl
  | cons w rows ih =>
    have hrest := ih fun v hv => h v (List.mem_cons_of_mem w hv)
    obtain ⟨verdict, hverdict⟩ := Option.isSome_iff_exists.mp (h w List.mem_cons_self)
    simp only [countVerdict, List.countP_cons, hverdict, List.length_cons] at hrest ⊢
    cases verdict <;> simp <;> omega

theorem Accounts.isAccounted {fs : List Finding} {st : PassState} (h : Accounts provider fs st)
    {findings : List Finding} (hperm : fs.Perm findings) : IsAccounted findings st := by
  have hrow : ∀ w ∈ st.written, ∃ f answer time, Dict.get? st.cache (cacheKey f) = some answer ∧
      w = applyVerdict f ⟨answer.1, answer.2, provider.model, time⟩ := by
    intro w hw
    obtain ⟨f, -, answer, time, hcache, rfl⟩ := forall_of_forall₂ h.written w hw
    exact ⟨f, answer, time, hcache, rfl⟩
  have hlength : st.written.length = findings.length := by
    rw [← h.written.length_eq, hperm.length_eq]
  constructor
  · have hkeys : st.written.map Finding.key = fs.map Finding.key := by
      rw [← List.forall₂_eq_eq_eq, List.forall₂_map_left_iff, List.forall₂_map_right_iff]
      refine (h.written.imp fun f w hw => ?_).flip
      obtain ⟨answer, time, -, rfl⟩ := hw
      exact applyVerdict_key f _
    rw [hkeys]
    exact hperm.map _
  · have hset : (st.cache.map Prod.fst).toFinset = (findings.map cacheKey).toFinset := by
      ext key
      rw [List.mem_toFinset, List.mem_toFinset, ← (hperm.map cacheKey).mem_iff, ← h.keys]
      constructor
      · intro hmem
        obtain ⟨entry, hentry, rfl⟩ := List.mem_map.mp hmem
        obtain ⟨v, hv⟩ := Dict.exists_get?_of_mem hentry
        rw [hv]
        rfl
      · intro hsome
        obtain ⟨v, hv⟩ := Option.isSome_iff_exists.mp hsome
        exact List.mem_map_of_mem (f := Prod.fst) (Dict.mem_of_get?_eq_some hv)
    rw [h.calls, ← hset, List.toFinset_card_of_nodup h.nodup, List.length_map]
  · intro w hw w' hw' hkey
    obtain ⟨f, answer, time, hcache, rfl⟩ := hrow w hw
    obtain ⟨f', answer', time', hcache', rfl⟩ := hrow w' hw'
    rw [cacheKey_applyVerdict, cacheKey_applyVerdict] at hkey
    rw [hkey, hcache'] at hcache
    obtain rfl := Option.some.inj hcache
    rw [applyVerdict_llmVerdict, applyVerdict_llmVerdict, llmReasoning_applyVerdict,
      llmReasoning_applyVerdict]
    exact ⟨rfl, rfl⟩
  · have hsum := sum_countVerdict fun w hw => by
      obtain ⟨f, answer, time, -, rfl⟩ := hrow w hw
      rw [applyVerdict_llmVerdict]
      rfl
    refine ⟨h.triaged.trans hlength, h.confirmed, h.dismissed, h.needsReview, h.errors, ?_⟩
    rw [h.confirmed, h.dismissed, h.needsReview, h.errors, h.triaged, hsum]
  · intro w hw hverdict hrank
    obtain ⟨f, answer, time, -, rfl⟩ := hrow w hw
    rw [applyVerdict_llmVerdict] at hverdict
    rw [severity_applyVerdict] at hrank
    rw [applyVerdict_status, Option.some.inj hverdict]
    exact if_pos hrank

end Pass

end BareAnalysis
