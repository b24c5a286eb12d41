import BareAnalysis.Api.Views

/-!
# Api/Listing — the findings of a run, up to a limit

    matching rows ──LIMIT n, in no order──▸ rows ──_to_out, is_new──▸ ──sorted──▸ response

`list_findings` of `api/routers/findings.py`.  The database cuts before anything is filtered by
newness or put in order, so which rows are cut is up to it.
-/

namespace BareAnalysis

/-! ## A cut in no particular order -/

/-- What a query with a limit and no order may return. -/
def IsAnswer {α : Type*} (rows : List α) (limit : ℕ) (answer : List α) : Prop :=
  ∃ order : List α, order.Perm rows ∧ answer = order.take limit

section Cut

variable {α β κ : Type*} [LinearOrder κ] {rows : List α} {limit : ℕ}

/-- A cut that has to cut may leave out any one row. -/
theorem exists_answer_without {x : α} (hx : x ∈ rows) (hcut : limit < rows.length) :
    ∃ answer, IsAnswer rows limit answer ∧ ∃ others, rows.Perm (x :: others) ∧ answer ⊆ others := by
  obtain ⟨before, behind, rfl⟩ := List.append_of_mem hx
  have hperm : (before ++ x :: behind).Perm (x :: (before ++ behind)) := List.perm_middle
  have hlength := hperm.length_eq
  rw [List.length_cons] at hlength
  refine ⟨_, ⟨(before ++ behind) ++ [x], ?_, rfl⟩, before ++ behind, hperm, ?_⟩
  · exact (List.perm_append_singleton x _).trans hperm.symm
  · rw [List.take_append_of_le_length (by omega)]
    exact List.take_subset _ _

/-- **A cut, then a filter and an order**, give what the filter and the order would give first
exactly when there is nothing to cut, or nothing to return. -/
theorem forall_answer_iff (f : α → β) (p : β → Bool) (key : β → κ)
    (hkeys : ((rows.map f).map key).Nodup) :
    (∀ answer, IsAnswer rows limit answer →
        sortBy key ((answer.map f).filter p)
          = (sortBy key ((rows.map f).filter p)).take limit) ↔
      rows.length ≤ limit ∨ limit = 0 ∨ (rows.map f).filter p = [] := by
  constructor
  · intro hanswers
    by_contra hcut
    push Not at hcut
    obtain ⟨hlimit, hpos, hsome⟩ := hcut
    -- Leave out the row that comes first.
    cases hsorted : sortBy key ((rows.map f).filter p) with
    | nil =>
      have hlength := congrArg List.length hsorted
      rw [length_sortBy] at hlength
      exact hsome (List.length_eq_zero_iff.mp hlength)
    | cons first rest =>
      have hfirst : first ∈ (rows.map f).filter p := by
        rw [← @mem_sortBy _ _ _ key, hsorted]
        exact List.mem_cons_self
      obtain ⟨x, hx, rfl⟩ := List.mem_map.mp (List.mem_filter.mp hfirst).1
      obtain ⟨answer, hanswer, others, hperm, hsub⟩ := exists_answer_without hx hlimit
      have hmissing : f x ∉ answer.map f := by
        intro hmem
        obtain ⟨y, hy, hyx⟩ := List.mem_map.mp hmem
        have hnodup := ((hperm.map f).map key).nodup_iff.mp hkeys
        rw [List.map_cons, List.map_cons, List.nodup_cons] at hnodup
        exact hnodup.1 (List.mem_map.mpr ⟨f x, List.mem_map.mpr ⟨y, hsub hy, hyx⟩, rfl⟩)
      have hlisted : f x ∈ sortBy key ((answer.map f).filter p) := by
        rw [hanswers answer hanswer, hsorted]
        obtain ⟨n, rfl⟩ := Nat.exists_eq_succ_of_ne_zero hpos
        exact List.mem_cons_self
      exact hmissing (List.mem_filter.mp (mem_sortBy.mp hlisted)).1
  · rintro hfits answer ⟨order, horder, rfl⟩
    obtain hfits | rfl | hnone := hfits
    · have hsame : ((order.map f).filter p).Perm ((rows.map f).filter p) := (horder.map f).filter p
      rw [List.take_of_length_le (horder.length_eq.trans_le hfits), List.take_of_length_le]
      · refine sortBy_eq_of_perm hsame fun a ha b hb hab => ?_
        exact List.inj_on_of_nodup_map (((horder.map f).map key).nodup_iff.mpr hkeys)
          (List.mem_filter.mp ha).1 (List.mem_filter.mp hb).1 hab
      · rw [length_sortBy]
        exact (List.length_filter_le ..).trans (by rwa [List.length_map])
    · rfl
    · have hnil : ((order.take limit).map f).filter p = [] := by
        rw [List.filter_eq_nil_iff] at hnone ⊢
        intro b hb
        obtain ⟨a, ha, rfl⟩ := List.mem_map.mp hb
        exact hnone _ (List.mem_map_of_mem (horder.subset (List.mem_of_mem_take ha)))
      rw [hnil, hnone, sortBy_nil, List.take_nil]

end Cut

/-! ## `list_findings` -/

/-- How a stored severity sorts; no other text is stored. -/
def severityRank (text : String) : ℕ :=
  (([.critical, .high, .medium, .low, .info] : List Severity).find? fun s => s.value == text).elim 5
    Severity.rank

theorem severityRank_value (s : Severity) : severityRank s.value = s.rank := by
  cases s <;> decide

def DetectedBy.value : DetectedBy → String
  | rule => "rule"
  | both => "both"
  | llm => "llm"

/-- The query's parameters but for newness and the limit; an empty one filters nothing. -/
structure FindingFilters where
  severity : List String := []
  status : List String := []
  category : List String := []
  detectedBy : String := ""

/-- The `where` clauses. -/
def FindingFilters.admits (filters : FindingFilters) (f : Finding) : Bool :=
  (filters.severity.isEmpty || filters.severity.contains f.severity.value)
    && (filters.status.isEmpty || filters.status.contains f.status.value)
    && (filters.category.isEmpty || filters.category.contains f.category)
    && (filters.detectedBy == "" || f.detectedBy.value == filters.detectedBy)

/-- The rows the query is about. -/
def matchingFindings (db : Db) (runId : String) (filters : FindingFilters) : List Finding :=
  (db.findingsOf runId).filter filters.admits

/-- The order of the response. -/
def FindingOut.sortKey (out : FindingOut) : ℕ ×ₗ String ×ₗ String :=
  toLex (severityRank out.severity, toLex (out.ruleId, out.id))

/-- What `list_findings` makes of the rows the query returned. -/
def listFindings (db : Db) (runId : String) (newOnly : Bool) (findings : List Finding) :
    List FindingOut :=
  let results := findings.map fun f => toOut db f (previousFindingIds db runId)
  sortBy FindingOut.sortKey (if newOnly then results.filter (·.isNew) else results)

/-- What is asked for, in order: the matching findings, or those of them that are new. -/
def wantedFindings (db : Db) (runId : String) (filters : FindingFilters) (newOnly : Bool) :
    List FindingOut :=
  sortBy FindingOut.sortKey (((matchingFindings db runId filters).map fun f =>
    toOut db f (previousFindingIds db runId)).filter fun out => !newOnly || out.isNew)

section Complete

variable {db : Db} {runId : String}

/-- A run's findings differ in their ids, and so in where they sort. -/
theorem nodup_sortKeys (filters : FindingFilters) (previousIds : List String) :
    (((matchingFindings db runId filters).map fun f => toOut db f previousIds).map
      FindingOut.sortKey).Nodup := by
  have hkeys : ((matchingFindings db runId filters).map Finding.key).Nodup :=
    db.findings.nodup_keys.sublist ((List.filter_sublist.trans List.filter_sublist).map Finding.key)
  rw [List.map_map]
  refine List.Nodup.map_on (fun f hf g hg hsame => ?_) hkeys.of_map
  have hrun : ∀ f ∈ matchingFindings db runId filters, f.runId = runId := fun f hf =>
    (Db.mem_findingsOf.mp (List.mem_filter.mp hf).1).2
  have hid : f.id = g.id := congrArg (fun key => (ofLex (ofLex key).2).2) hsame
  exact List.inj_on_of_nodup_map hkeys hf hg
    (Prod.ext hid ((hrun f hf).trans (hrun g hg).symm))

/-- **The list is complete up to its limit, whatever rows the database returns**, exactly when it
returns all that match, when nothing is asked for, or when nothing is new that should be. -/
theorem listFindings_complete_iff (filters : FindingFilters) (newOnly : Bool) (limit : ℕ) :
    (∀ findings, IsAnswer (matchingFindings db runId filters) limit findings →
        listFindings db runId newOnly findings
          = (wantedFindings db runId filters newOnly).take limit) ↔
      (matchingFindings db runId filters).length ≤ limit ∨ limit = 0 ∨
        wantedFindings db runId filters newOnly = [] := by
  have hfilter : ∀ results : List FindingOut,
      (if newOnly = true then results.filter (·.isNew) else results)
        = results.filter fun out => !newOnly || out.isNew := by
    intro results
    cases newOnly
    · exact (List.filter_eq_self.mpr fun _ _ => rfl).symm
    · rfl
  have hnil : ∀ outs : List FindingOut, sortBy FindingOut.sortKey outs = [] ↔ outs = [] := by
    intro outs
    rw [← List.length_eq_zero_iff, length_sortBy, List.length_eq_zero_iff]
  simp only [wantedFindings, listFindings, hfilter, hnil]
  exact forall_answer_iff _ _ FindingOut.sortKey (nodup_sortKeys filters _)

end Complete

/-! ## One critical finding and one that is not -/

/-- A finding of a run. -/
def ratedFinding (id : String) (severity : Severity) : Finding where
  id := id
  runId := "run"
  ruleId := "rule"
  category := "secret"
  title := "Secret"
  severity := severity
  confidence := 1
  valueMasked := "hu***"
  valueHash := id

/-- A run with a low finding, stored first, and a critical one. -/
def lowAndCritical : Db where
  findings :=
    ((Table.single (ratedFinding "f1" .low) : Table Finding.key).insert
      (ratedFinding "f2" .critical)).getD ∅

/-- With room for one, the low finding is returned and the critical one is not. -/
theorem listFindings_drops_critical :
    ¬∀ (db : Db) (runId : String) (filters : FindingFilters) (newOnly : Bool) (limit : ℕ)
      (findings : List Finding), IsAnswer (matchingFindings db runId filters) limit findings →
        listFindings db runId newOnly findings
          = (wantedFindings db runId filters newOnly).take limit := by
  intro hclaim
  have hanswer : IsAnswer (matchingFindings lowAndCritical "run" {}) 1 [ratedFinding "f1" .low] :=
    ⟨_, List.Perm.refl _, by decide +kernel⟩
  have heq := congrArg (List.map FindingOut.severity) (hclaim _ _ _ false _ _ hanswer)
  have hreturned : (listFindings lowAndCritical "run" false [ratedFinding "f1" .low]).map
      FindingOut.severity = ["low"] := by decide +kernel
  have hwanted : ((wantedFindings lowAndCritical "run" {} false).take 1).map FindingOut.severity
      = ["critical"] := by decide +kernel
  rw [hreturned, hwanted] at heq
  exact absurd heq (by decide)

end BareAnalysis
