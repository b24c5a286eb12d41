import BareAnalysis.Pipeline.Gate
import BareAnalysis.Pipeline.Runs

/-!
# Pipeline/Baseline — which run a release is measured against

    previous_run_id    written at scan time: the last created of the runs completed by then
    baseline_run_id    taken from the request

Neither reads the moment the gated run was created: a scan that finishes late links to a run created
after it, and a request may name any run, the gated one included.  `baselinePrecedes_iff_linksBack`
says when every baseline is a run from before.
-/

namespace BareAnalysis

open History

/-- The baseline is a completed run from before the gated one, and nothing else is inherited. -/
structure BaselinePrecedes (db : Db) (run : Run) (baselineRunId : Option String) : Prop where
  precedes : ∀ id, (resolveBaseline db run baselineRunId none).runId = some id →
    ∃ previous, db.runs.get? id = some previous ∧ previous.status = .completed ∧
      previous.id ≠ run.id ∧ previous.createdAt < run.createdAt
  inherited : ∀ g ∈ collectGateFindings db run.id (resolveBaseline db run baselineRunId none),
    g.isNew = false → ∃ previous ∈ db.runs.rows, previous.status = .completed ∧
      previous.createdAt < run.createdAt ∧ ∃ f ∈ db.findingsOf previous.id, f.id = g.id

/-- A completed run the request names was created before the gated one. -/
def SuppliedPrecedes (db : Db) (run : Run) (baselineRunId : Option String) : Prop :=
  ∀ id previous, nonempty? baselineRunId = some id → db.runs.get? id = some previous →
    previous.status = .completed → previous.createdAt < run.createdAt

/-- When a scan links, the completed runs of its artifact's name were created before it. -/
def LinksBack (db : Db) (e : RunEvent) : Prop :=
  ∀ runId run root, e = .link runId → db.runs.get? runId = some run →
    rootArtifact db runId = some root → ∀ other ∈ db.runs.rows, other.id ≠ runId →
    other.status = .completed → hasRootNamed db other.id root.name = true →
    other.createdAt < run.createdAt

/-- Every predecessor on record is a run from before. -/
def LinkedBack (db : Db) : Prop :=
  ∀ id run previousId, db.runs.get? id = some run → run.previousRunId = some previousId →
    ∃ previous, db.runs.get? previousId = some previous ∧ previous.createdAt < run.createdAt

/-! ## The link -/

section Link

variable {db : Db} {runId : String} {previous : Run}

theorem mem_linkCandidates {root : Artifact} {other : Run} :
    other ∈ linkCandidates db runId root ↔ other ∈ db.runs.rows ∧ other.id ≠ runId ∧
      other.status = .completed ∧ hasRootNamed db other.id root.name = true := by
  simp [linkCandidates, Table.mem_select, and_assoc]

/-- **A link chooses the last created** of the completed runs of the artifact's name. -/
theorem linkedPrevious_eq_some (h : linkedPrevious db runId = some previous) :
    ∃ root, rootArtifact db runId = some root ∧ previous ∈ linkCandidates db runId root ∧
      ∀ other ∈ linkCandidates db runId root, other.createdAt ≤ previous.createdAt := by
  obtain ⟨root, hroot, hhead⟩ := Option.bind_eq_some_iff.mp h
  obtain ⟨rest, hcand⟩ := List.head?_eq_some_iff.mp hhead
  refine ⟨root, hroot, hcand ▸ List.mem_cons_self, fun other hother => ?_⟩
  have hsorted : (linkCandidates db runId root).Pairwise fun a b =>
      OrderDual.toDual a.createdAt ≤ OrderDual.toDual b.createdAt := pairwise_sortBy _ _
  rw [hcand] at hsorted hother
  obtain rfl | hrest := List.mem_cons.mp hother
  · exact le_rfl
  · exact OrderDual.toDual_le_toDual.mp ((List.pairwise_cons.mp hsorted).1 other hrest)

end Link

/-! ## One event -/

section Step

variable {settings : SweepSettings} {db : Db} {e : RunEvent}

/-- **A link back keeps every predecessor from before.** -/
theorem LinkedBack.step (h : LinkedBack db) (hok : LinksBack db e) :
    LinkedBack (e.step settings db) := by
  intro id run' previousId hrun' hprev
  have hstays : ∀ {pid previous created}, db.runs.get? pid = some previous →
      previous.createdAt < created → ∃ previous', (e.step settings db).runs.get? pid
        = some previous' ∧ previous'.createdAt < created := by
    intro pid previous created hget hlt
    exact ⟨_, e.get?_step_of_some settings db pid hget, by rwa [RunEvent.createdAt_rewrite]⟩
  obtain hmap | ⟨-, upload, -, -, hup⟩ := e.get?_step settings db id
  · rw [hrun'] at hmap
    obtain ⟨run, hrun, rfl⟩ := Option.map_eq_some_iff.mp hmap.symm
    rw [RunEvent.createdAt_rewrite]
    obtain hsame | ⟨previous, he, hlink, hset⟩ := e.previousRunId_rewrite settings db id run
    · obtain ⟨previous, hget, hlt⟩ := h id run previousId hrun (hsame ▸ hprev)
      exact hstays hget hlt
    · obtain ⟨root, hroot, hmem, -⟩ := linkedPrevious_eq_some hlink
      obtain ⟨hrow, hne, hdone, hname⟩ := mem_linkCandidates.mp hmem
      obtain rfl := Option.some.inj (hset.symm.trans hprev)
      exact hstays (Table.get?_eq_some.mpr ⟨hrow, rfl⟩)
        (hok id run root he hrun hroot previous hrow hne hdone hname)
  · obtain rfl := Option.some.inj (hrun'.symm.trans hup)
    cases hprev

end Step

/-! ## One state -/

section State

variable {db : Db} {run : Run} {baselineRunId : Option String}

/-- What `resolve_baseline` can name: a completed run, asked for or on record. -/
theorem resolveBaseline_cases (db : Db) (run : Run) (baselineRunId : Option String) :
    resolveBaseline db run baselineRunId none = {} ∨
      ∃ id previous source, (nonempty? baselineRunId).or run.previousRunId = some id ∧
        db.runs.get? id = some previous ∧ previous.status = .completed ∧
        resolveBaseline db run baselineRunId none
          = ⟨some id, (db.findingsOf id).map Finding.id, source⟩ := by
  rw [resolveBaseline]
  rcases (nonempty? baselineRunId).or run.previousRunId with - | id
  · exact Or.inl rfl
  · dsimp only
    rcases hget : db.runs.get? id with - | previous
    · exact Or.inl rfl
    · by_cases hdone : previous.status = .completed
      · obtain rfl : previous.id = id := Table.key_of_get? hget
        exact Or.inr ⟨previous.id, previous, _, rfl, hget, hdone, if_neg (not_not_intro hdone)⟩
      · exact Or.inl (if_pos hdone)

/-- **Predecessors from before make the baselines from before**: what is left is what the request
names. -/
theorem LinkedBack.baselinePrecedes_iff (h : LinkedBack db) (hrun : run ∈ db.runs.rows)
    (baselineRunId : Option String) :
    BaselinePrecedes db run baselineRunId ↔ SuppliedPrecedes db run baselineRunId := by
  constructor
  · intro hprec id previous hid hget hdone
    have hresolved : (resolveBaseline db run baselineRunId none).runId = some id := by
      rw [resolveBaseline, hid, Option.some_or]
      dsimp only
      rw [hget]
      dsimp only
      rw [if_neg (not_not_intro hdone), Table.key_of_get? hget]
    obtain ⟨previous', hget', -, -, hlt⟩ := hprec.precedes id hresolved
    obtain rfl := Option.some.inj (hget.symm.trans hget')
    exact hlt
  · intro hsupplied
    obtain hnone | ⟨id, previous, source, hor, hget, hdone, hresolved⟩ :=
      resolveBaseline_cases db run baselineRunId
    · refine ⟨fun id hid => ?_, fun g hg hold => ?_⟩
      · rw [hnone] at hid
        cases hid
      · rw [hnone] at hg
        obtain ⟨f, -, rfl⟩ := List.mem_map.mp hg
        cases hold
    · have hlt : previous.createdAt < run.createdAt := by
        obtain hreq | ⟨-, hrecord⟩ := Option.or_eq_some_iff.mp hor
        · exact hsupplied id previous hreq hget hdone
        · obtain ⟨previous', hget', hlt⟩ := h run.id run id
            (Table.get?_eq_some.mpr ⟨hrun, rfl⟩) hrecord
          obtain rfl := Option.some.inj (hget.symm.trans hget')
          exact hlt
      refine ⟨fun id' hid' => ?_, fun g hg hold => ?_⟩
      · rw [hresolved] at hid'
        obtain rfl := Option.some.inj hid'
        refine ⟨previous, hget, hdone, fun hsame => ?_, hlt⟩
        rw [db.runs.eq_of_key_eq (Table.mem_rows_of_get? hget) hrun hsame] at hlt
        exact absurd hlt (lt_irrefl _)
      · rw [hresolved] at hg
        obtain ⟨f, -, rfl⟩ := List.mem_map.mp hg
        have hmem : f.id ∈ (db.findingsOf id).map Finding.id := by
          simpa [gateFinding] using hold
        obtain ⟨old, hold', hid⟩ := List.mem_map.mp hmem
        exact ⟨previous, Table.mem_rows_of_get? hget, hdone, hlt, old,
          (Table.key_of_get? hget).symm ▸ hold', hid⟩

/-- **A link to a later run gives a later baseline at once.** -/
theorem not_baselinePrecedes_of_not_linksBack {settings : SweepSettings} {e : RunEvent}
    (hbad : ¬LinksBack db e) :
    ∃ run ∈ (e.step settings db).runs.rows, ¬BaselinePrecedes (e.step settings db) run none := by
  simp only [LinksBack, not_forall] at hbad
  obtain ⟨runId, run, root, rfl, hrun, hroot, other, hother, hne, hdone, hname, hnot⟩ := hbad
  have hcand : other ∈ linkCandidates db runId root :=
    mem_linkCandidates.mpr ⟨hother, hne, hdone, hname⟩
  rcases hprev : linkedPrevious db runId with - | previous
  · rw [linkedPrevious, hroot, Option.bind_some, List.head?_eq_none_iff] at hprev
    rw [hprev] at hcand
    cases hcand
  · obtain ⟨root', hroot', hmem, hmax⟩ := linkedPrevious_eq_some hprev
    obtain rfl := Option.some.inj (hroot.symm.trans hroot')
    obtain ⟨hrow, hne', hdone', -⟩ := mem_linkCandidates.mp hmem
    have hget : ((RunEvent.link runId).step settings db).runs.get? runId
        = some { run with previousRunId := some previous.id } := by
      rw [RunEvent.get?_step_of_some settings db runId _ hrun]
      simp [RunEvent.rewrite, hprev]
    have hgetp : ((RunEvent.link runId).step settings db).runs.get? previous.id = some previous := by
      rw [RunEvent.get?_step_of_some settings db previous.id _ (Table.get?_eq_some.mpr ⟨hrow, rfl⟩)]
      simp [RunEvent.rewrite, hne']
    refine ⟨_, Table.mem_rows_of_get? hget, fun hprec => ?_⟩
    obtain ⟨previous', hget', -, -, hlt⟩ := hprec.precedes previous.id (by
      rw [resolveBaseline]
      simp [nonempty?, hgetp, hdone'])
    obtain rfl := Option.some.inj (hgetp.symm.trans hget')
    exact hnot (lt_of_le_of_lt (hmax other hcand) hlt)

end State

/-- **Every baseline is a run from before exactly when every link goes back**: whatever order the
runs are created, claimed, finished and swept in, and whatever run a request names. -/
theorem baselinePrecedes_iff_linksBack (settings : SweepSettings) (events : List RunEvent) :
    (∀ pre, pre <+: events → ∀ run ∈ (after (RunEvent.step settings) {} pre).runs.rows,
        ∀ baselineRunId,
          BaselinePrecedes (after (RunEvent.step settings) {} pre) run baselineRunId ↔
            SuppliedPrecedes (after (RunEvent.step settings) {} pre) run baselineRunId) ↔
      Throughout (RunEvent.step settings) LinksBack {} events := by
  refine forall_prefix_iff_throughout (I := LinkedBack)
    (P := fun db => ∀ run ∈ db.runs.rows, ∀ baselineRunId,
      BaselinePrecedes db run baselineRunId ↔ SuppliedPrecedes db run baselineRunId)
    (fun db e h hok => h.step hok) (fun db h run hrun id => h.baselinePrecedes_iff hrun id) ?_ ?_
    events
  · intro db e _ hbad hall
    obtain ⟨run, hrun, hnot⟩ := @not_baselinePrecedes_of_not_linksBack db settings e hbad
    exact hnot ((hall run hrun none).mpr fun id previous hid => by cases hid)
  · intro id run previousId hrun
    cases hrun

/-! ## A scan overtaken by a later one -/

/-- A key found in a run. -/
def keyOf (runId : String) : Finding where
  id := "finding"
  runId := runId
  ruleId := "aws-secret-key"
  category := "credential"
  title := "AWS secret key"
  severity := .high
  confidence := 1
  valueMasked := "AK…EY"
  valueHash := "c0ffee"

/-- Two uploads of one name with the same key in them: the run created later finishes first. -/
def overtaken : List RunEvent :=
  [.ingest { runId := "slow", artifactId := "a", filename := "app.zip", createdAt := 1 },
    .ingest { runId := "quick", artifactId := "b", filename := "app.zip", createdAt := 2 },
    .claim "slow" 3, .claim "quick" 3, .publish [] [] [keyOf "slow", keyOf "quick"],
    .link "quick", .conclude "quick" 4, .link "slow", .conclude "slow" 5]

/-- **Two ways to inherit one's own findings**: the slow run passes against the run created after
it, and the quick one, blocked without a baseline, passes against itself. -/
theorem overtaken_passes :
    gateDecision (after (RunEvent.step {}) {} overtaken) "slow" {} [] none none
        ⟨2026, 1, 1, by decide, by decide, by decide⟩ = some .pass ∧
      gateDecision (after (RunEvent.step {}) {} overtaken) "quick" {} [] none none
        ⟨2026, 1, 1, by decide, by decide, by decide⟩ = some .blocked ∧
      gateDecision (after (RunEvent.step {}) {} overtaken) "quick" {} [] (some "quick") none
        ⟨2026, 1, 1, by decide, by decide, by decide⟩ = some .pass ∧
      ¬ ∀ events, ∀ run ∈ (after (RunEvent.step {}) {} events).runs.rows, ∀ baselineRunId,
        BaselinePrecedes (after (RunEvent.step {}) {} events) run baselineRunId := by
  refine ⟨by decide +kernel, by decide +kernel, by decide +kernel, fun h => ?_⟩
  obtain ⟨run, hrun, hname, hself⟩ : ∃ run ∈ (after (RunEvent.step {}) {} overtaken).runs.rows,
      run.id = "quick" ∧ (resolveBaseline (after (RunEvent.step {}) {} overtaken) run
        (some "quick") none).runId = some "quick" := by decide +kernel
  obtain ⟨previous, hget, -, hne, -⟩ := (h overtaken run hrun (some "quick")).precedes _ hself
  exact hne ((Table.key_of_get? hget).trans hname.symm)

end BareAnalysis
