import BareAnalysis.Policy.Decision

/-!
# Policy/Monotone — more to judge never helps, and its order never matters

Adding a finding or a degraded stage keeps what blocks a release and what leaves it open, so the
decision never gets laxer (`neverLaxer_of_findings`, `neverLaxer_of_stages`).  The findings are
judged in the order of a key that tells them apart, the waivers are read through an index and the
stages as a set, so the whole verdict does not see the order they came in (`evaluate_eq_of_perm`).
-/

namespace BareAnalysis

/-! ## The decision never gets laxer -/

/-- The second decision is not laxer: a block stands, an open question does not become a pass. -/
def NeverLaxer (before after : GateDecision) : Prop :=
  (before = .blocked → after = .blocked) ∧ (before = .inconclusive → after ≠ .pass)

section Growth

variable (p : Policy) (waivers : List Waiver) (today : Date)

/-- **More of what blocks, more of what leaves open**: the decision is not laxer. -/
theorem neverLaxer_of_imp {fs fs' : List GateFinding} {stages stages' : List String}
    (hblock : HasBlocker fs p waivers today → HasBlocker fs' p waivers today)
    (hstages : stages ≠ [] → stages' ≠ []) :
    NeverLaxer (evaluate fs p waivers stages today).decision
      (evaluate fs' p waivers stages' today).decision := by
  rw [NeverLaxer, decision_eq_blocked_iff, decision_eq_blocked_iff, decision_eq_inconclusive_iff, Ne,
    decision_eq_pass_iff]
  exact ⟨hblock, fun hopen hpass => hpass.2 ⟨hstages hopen.2.1, hopen.2.2⟩⟩

theorem unblockedCount_le_insert (before after : List GateFinding) (f : GateFinding)
    (severity : Severity) :
    unblockedCount (before ++ after) p severity
      ≤ unblockedCount (before ++ f :: after) p severity := by
  rw [unblockedCount, unblockedCount, List.countP_append, List.countP_append]
  exact Nat.add_le_add_left (List.Sublist.countP_le (List.sublist_cons_self f after)) _

/-- Adding a finding keeps everything that blocks. -/
theorem neverLaxer_of_findings (stages : List String) (before after : List GateFinding) (f : GateFinding) :
    NeverLaxer (evaluate (before ++ after) p waivers stages today).decision
      (evaluate (before ++ f :: after) p waivers stages today).decision := by
  refine neverLaxer_of_imp p waivers today ?_ id
  rintro (⟨g, hg, hviolated⟩ | ⟨severity, hpos, hfinite, hover⟩)
  · refine Or.inl ⟨g, ?_, hviolated⟩
    rcases List.mem_append.mp hg with hg | hg
    · exact List.mem_append_left _ hg
    · exact List.mem_append_right _ (List.mem_cons_of_mem _ hg)
  · have hle := unblockedCount_le_insert p before after f severity
    exact Or.inr ⟨severity, by omega, hfinite, by omega⟩

/-- …and so does adding a degraded stage. -/
theorem neverLaxer_of_stages (fs : List GateFinding) (before after : List String) (stage : String) :
    NeverLaxer (evaluate fs p waivers (before ++ after) today).decision
      (evaluate fs p waivers (before ++ stage :: after) today).decision :=
  neverLaxer_of_imp p waivers today id fun _ => by simp

end Growth

/-! ## The verdict does not see the order -/

section Order

variable (p : Policy) (today : Date)

/-- The loop reads the waivers through their index only. -/
theorem perFinding_congr {waiverIndex waiverIndex' : Dict String Waiver}
    (h : ∀ id, waiverIndex.get? id = waiverIndex'.get? id) :
    perFinding p waiverIndex today = perFinding p waiverIndex' today := by
  funext t f
  rw [perFinding_eq_record, perFinding_eq_record, disposition, disposition, inScope]
  simp only [blockedDisposition, h]

theorem gateSortKey_id {f g : GateFinding} (h : gateSortKey f = gateSortKey g) : f.id = g.id := by
  obtain ⟨-, htail⟩ := Prod.mk.inj (congrArg ofLex h)
  exact (Prod.mk.inj (congrArg ofLex htail)).2

/-- Findings told apart by their ids are judged in one order. -/
theorem sortBy_gateSortKey_perm {fs fs' : List GateFinding} (h : fs.Perm fs')
    (hids : (fs.map GateFinding.id).Nodup) : sortBy gateSortKey fs = sortBy gateSortKey fs' :=
  sortBy_eq_of_perm h fun _ hf _ hg hkey =>
    List.inj_on_of_nodup_map hids hf hg (gateSortKey_id hkey)

/-- The stages are read as a set. -/
theorem sortedStages_congr {stages stages' : List String}
    (h : ∀ s, s ∈ stages ↔ s ∈ stages') : sortedStages stages = sortedStages stages' := by
  have hperm : stages.dedup.Perm stages'.dedup :=
    (List.perm_ext_iff_of_nodup (List.nodup_dedup _) (List.nodup_dedup _)).mpr fun s => by
      rw [List.mem_dedup, List.mem_dedup, h]
  exact sortBy_eq_of_perm hperm fun _ _ _ _ hkey => hkey

/-- **The verdict is the same whatever order its inputs come in.** -/
theorem evaluate_eq_of_perm {fs fs' : List GateFinding} (hfs : fs.Perm fs')
    (hids : (fs.map GateFinding.id).Nodup) {waivers waivers' : List Waiver}
    (hwaivers : waivers.Perm waivers') (hw : (waivers.map Waiver.findingId).Nodup)
    {stages stages' : List String} (hstages : ∀ s, s ∈ stages ↔ s ∈ stages') :
    evaluate fs p waivers stages today = evaluate fs' p waivers' stages' today := by
  dsimp only [evaluate]
  rw [sortBy_gateSortKey_perm hfs hids, sortedStages_congr hstages,
    perFinding_congr p today (get?_indexBy_perm hwaivers hw)]

/-- **The gate is monotone and order-independent**: adding a finding with a fresh id or a degraded
stage never makes the decision laxer; permuting findings, waivers or stages, or naming a stage
twice, leaves the whole verdict as it is. -/
theorem evaluate_monotone_orderFree {fs : List GateFinding} (hids : (fs.map GateFinding.id).Nodup)
    {waivers : List Waiver} (hw : (waivers.map Waiver.findingId).Nodup) (stages : List String) :
    (∀ before after f, fs = before ++ after → f.id ∉ fs.map GateFinding.id →
      NeverLaxer (evaluate fs p waivers stages today).decision
        (evaluate (before ++ f :: after) p waivers stages today).decision) ∧
    (∀ before after stage, stages = before ++ after →
      NeverLaxer (evaluate fs p waivers stages today).decision
        (evaluate fs p waivers (before ++ stage :: after) today).decision) ∧
    (∀ fs' waivers' stages', fs.Perm fs' → waivers.Perm waivers' → stages.Perm stages' →
      evaluate fs' p waivers' stages' today = evaluate fs p waivers stages today) ∧
    ∀ stage ∈ stages, evaluate fs p waivers (stage :: stages) today
      = evaluate fs p waivers stages today := by
  refine ⟨?_, ?_, fun fs' waivers' stages' hfs hwaivers hstages => ?_, fun stage hstage => ?_⟩
  · rintro before after f rfl -
    exact neverLaxer_of_findings p waivers today stages before after f
  · rintro before after stage rfl
    exact neverLaxer_of_stages p waivers today fs before after stage
  · exact (evaluate_eq_of_perm p today hfs hids hwaivers hw fun s => hstages.mem_iff).symm
  · refine (evaluate_eq_of_perm p today (.refl fs) hids (.refl waivers) hw fun s => ?_).symm
    rw [List.mem_cons]
    exact ⟨Or.inr, fun h => h.elim (fun heq => heq ▸ hstage) id⟩

end Order

/-- The same key, found under another id. -/
def secondKey : GateFinding := { awsKey with id := "f2" }

/-- Two findings and two stages, in either order. -/
theorem evaluate_monotone_orderFree_awsKey :
    evaluate [secondKey, awsKey] {} [] ["unpack (oom)", "static (oom)"]
        ⟨2026, 1, 1, by decide, by decide, by decide⟩
      = evaluate [awsKey, secondKey] {} [] ["static (oom)", "unpack (oom)"]
        ⟨2026, 1, 1, by decide, by decide, by decide⟩ := by
  have hids : ([awsKey, secondKey].map GateFinding.id).Nodup := by decide
  have hw : (([] : List Waiver).map Waiver.findingId).Nodup := List.nodup_nil
  exact (evaluate_monotone_orderFree {} ⟨2026, 1, 1, by decide, by decide, by decide⟩ hids hw
    ["static (oom)", "unpack (oom)"]).2.2.1 _ [] _ (List.Perm.swap ..) (.refl _) (List.Perm.swap ..)

end BareAnalysis
