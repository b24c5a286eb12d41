import Mathlib.Data.List.Dedup
import BareAnalysis.Correlation.Report
import BareAnalysis.Machinery.Joined

/-!
# Correlation/Identity — an id stands for what it was computed from

    rule ⟨\x1f⟩ value ⟨\x1f⟩ path ⟨\x1f⟩ offset ──sha256, cut──▸ id

A path may hold the separator; the other parts do not, so the payload is read from both ends.
Between two scans whose hashed texts do not collide, equal ids are equal entries
(`HashesApart.entry_eq`), and what one scan reports of a rule can be compared with the other's
(`forall_within_iff`).
-/

namespace BareAnalysis

/-- The separator character. -/
def unitSepChar : Char := '\x1f'

/-! ## Payloads -/

/-- **The payload of an id determines its parts**, whatever the path holds. -/
theorem idPayload_inj {r r' h h' p p' : String} {o o' : Option ℤ}
    (hr : unitSepChar ∉ r.toList) (hr' : unitSepChar ∉ r'.toList)
    (hh : unitSepChar ∉ h.toList) (hh' : unitSepChar ∉ h'.toList)
    (heq : Finding.idPayload r h p o = Finding.idPayload r' h' p' o') :
    r = r' ∧ h = h' ∧ p = p' ∧ o.getD 0 = o'.getD 0 := by
  have hchars : ∀ a b c d : String, (unitSep.intercalate [a, b, c, d]).toList
      = a.toList ++ unitSepChar :: (b.toList ++ unitSepChar :: (c.toList ++ unitSepChar
        :: d.toList)) := fun a b c d => by
    have hsep : unitSep.toList = [unitSepChar] := rfl
    simp [hsep]
  have hnum : ∀ z : ℤ, unitSepChar ∉ (toString z).toList := fun z hz => by
    rcases mem_int_toString hz with hd | hd
    · exact absurd hd (by decide)
    · exact absurd hd (by decide)
  have h0 := congrArg String.toList heq
  rw [Finding.idPayload, Finding.idPayload, hchars, hchars] at h0
  obtain ⟨h1, h0⟩ := append_cons_inj_left hr hr' h0
  obtain ⟨h2, h0⟩ := append_cons_inj_left hh hh' h0
  obtain ⟨h3, h4⟩ := append_cons_inj_right (hnum _) (hnum _) h0
  exact ⟨String.toList_inj.mp h1, String.toList_inj.mp h2, String.toList_inj.mp h3,
    int_toString_injective (String.toList_inj.mp h4)⟩

/-- **Two payloads agree just when their parts do**, an offset left out counting as zero.  The path
is any text: the numeral behind it is read from the right end. -/
theorem payload_eq_iff {r r' h h' p p' : String} {o o' : Option ℕ}
    (hr : unitSepChar ∉ r.toList) (hr' : unitSepChar ∉ r'.toList)
    (hh : unitSepChar ∉ h.toList) (hh' : unitSepChar ∉ h'.toList) :
    Finding.idPayload r h p (o.map (↑)) = Finding.idPayload r' h' p' (o'.map (↑)) ↔
      r = r' ∧ h = h' ∧ p = p' ∧ o.getD 0 = o'.getD 0 := by
  have hcast : ∀ o : Option ℕ, (o.map ((↑) : ℕ → ℤ)).getD 0 = (o.getD 0 : ℕ) := by
    rintro (_ | n) <;> rfl
  constructor
  · intro heq
    obtain ⟨hrule, hvalue, hpath, hoffset⟩ := idPayload_inj hr hr' hh hh' heq
    rw [hcast, hcast] at hoffset
    exact ⟨hrule, hvalue, hpath, Int.ofNat.inj hoffset⟩
  · rintro ⟨rfl, rfl, rfl, ho⟩
    rw [Finding.idPayload, Finding.idPayload, hcast, hcast, ho]

/-- A path that holds the separator and digits, next to the path and offset it could be read as. -/
theorem payload_ne_of_separator :
    Finding.idPayload "keys" "ab" "lib\x1f7" ((none : Option ℕ).map (↑)) ≠
      Finding.idPayload "keys" "ab" "lib" ((some 7 : Option ℕ).map (↑)) := fun heq =>
  absurd ((payload_eq_iff (by decide) (by decide) (by decide) (by decide)).mp heq).2.2.1 (by decide)

/-- **The text of a cluster's hash determines its values.** -/
theorem clusterText_inj {r : String} {hs hs' : List String} (hne : hs ≠ []) (hne' : hs' ≠ [])
    (hdig : ∀ h ∈ hs, IsDigest h) (hdig' : ∀ h ∈ hs', IsDigest h)
    (heq : clusterText r hs = clusterText r hs') : hs = hs' := by
  have hjoin : ",".intercalate hs = ",".intercalate hs' :=
    (String.append_right_inj _).mp heq
  have hclear : ∀ h, IsDigest h → ',' ∉ h.toList := fun h hh => hh.not_mem (by decide)
  exact string_intercalate_inj hne hne' (fun h hh => hclear h (hdig h hh))
    (fun h hh => hclear h (hdig' h hh)) hjoin

/-! ## The groups of a scan -/

section Groups

variable {evidence : List Evidence} {g g' : EvidenceGroup}

theorem mem_evidenceGroups :
    g ∈ evidenceGroups evidence ↔
      g ∈ groupBy Evidence.groupKey (sortBy evidenceSortKey evidence) := mem_sortBy

/-- A group holds the evidence under its key, first the one with the least artifact and offset. -/
theorem items_evidenceGroup (hg : g ∈ evidenceGroups evidence) :
    g.items = (sortBy evidenceSortKey evidence).filter fun e => decide (e.groupKey = g.key) :=
  items_of_mem_groupBy (mem_evidenceGroups.mp hg)

theorem mem_items_evidenceGroup (hg : g ∈ evidenceGroups evidence) {e : Evidence} :
    e ∈ g.items ↔ e ∈ evidence ∧ e.groupKey = g.key := by
  rw [items_evidenceGroup hg]
  simp

theorem exists_evidenceGroup {e : Evidence} (he : e ∈ evidence) :
    ∃ g ∈ evidenceGroups evidence, g.key = e.groupKey ∧ e ∈ g.items := by
  obtain ⟨g, hg, hk, hi⟩ := @exists_group_of_mem _ _ _ Evidence.groupKey _ _
    ((@mem_sortBy _ _ _ evidenceSortKey _ _).mpr he)
  exact ⟨g, mem_evidenceGroups.mpr hg, hk, hi⟩

theorem evidenceGroup_eq (hg : g ∈ evidenceGroups evidence) (hg' : g' ∈ evidenceGroups evidence)
    (hk : g.key = g'.key) : g = g' :=
  group_eq_of_key_eq (mem_evidenceGroups.mp hg) (mem_evidenceGroups.mp hg') hk

/-- The groups come strictly sorted by rule and value. -/
theorem pairwise_evidenceGroups (evidence : List Evidence) :
    (evidenceGroups evidence).Pairwise fun g g' =>
      (toLex g.key : String ×ₗ String) < toLex g'.key := by
  have hle := pairwise_sortBy (fun g : EvidenceGroup => (toLex g.key : String ×ₗ String))
    (groupBy Evidence.groupKey (sortBy evidenceSortKey evidence))
  have hnd : (evidenceGroups evidence).Pairwise fun g g' => g.key ≠ g'.key := by
    have hkeys := nodup_keys_groupBy Evidence.groupKey (sortBy evidenceSortKey evidence)
    exact List.pairwise_map.mp (((sortBy_perm _ _).map Group.key).nodup_iff.mpr hkeys)
  exact hle.imp₂ (fun g g' h hne => lt_of_le_of_ne h fun he => hne (toLex_inj.mp he)) hnd

end Groups

section Survivors

variable {input : CorrelationInput} {ruleId : String} {g : EvidenceGroup}

theorem mem_survivors :
    g ∈ survivors input ruleId ↔
      (input.pack.rulesById.get? ruleId).isSome ∧ g ∈ evidenceGroups input.evidence ∧
        g.key.1 = ruleId ∧ silenced input g = false := by
  unfold survivors
  split
  · rename_i h
    simp [h, List.mem_filter]
  · rename_i h
    simp [h]

/-- A rule's survivors come strictly sorted by value. -/
theorem pairwise_survivors (input : CorrelationInput) (ruleId : String) :
    (survivors input ruleId).Pairwise fun g g' => g.key.2 < g'.key.2 := by
  have hall : ∀ g ∈ survivors input ruleId, g.key.1 = ruleId := fun g hg =>
    (mem_survivors.mp hg).2.2.1
  have hlt : (survivors input ruleId).Pairwise fun g g' =>
      (toLex g.key : String ×ₗ String) < toLex g'.key := by
    unfold survivors
    split
    · exact (pairwise_evidenceGroups _).filter _
    · exact List.Pairwise.nil
  refine hlt.imp_of_mem fun hg hg' h => ?_
  rcases Prod.Lex.lt_iff.mp h with h | h
  · rw [ofLex_toLex, ofLex_toLex, hall _ hg, hall _ hg'] at h
    exact absurd h (lt_irrefl _)
  · exact h.2

/-- A survivor's value hash is some evidence's. -/
theorem exists_evidence_of_mem_survivors (hg : g ∈ survivors input ruleId) :
    ∃ e ∈ input.evidence, e.ruleId = ruleId ∧ e.valueHash = g.key.2 := by
  obtain ⟨-, hgroup, hr, -⟩ := mem_survivors.mp hg
  obtain ⟨he, hk⟩ := (mem_items_evidenceGroup hgroup).mp g.first_mem_items
  exact ⟨g.first, he, by rw [← hr, ← hk]; rfl, by rw [← hk]; rfl⟩

theorem mem_clusterOrder : g ∈ clusterOrder input ruleId ↔ g ∈ survivors input ruleId :=
  mem_sortBy

end Survivors

/-! ## Entries -/

/-- The entries of all rules. -/
def entries (input : CorrelationInput) : List Entry :=
  (input.evidence.map Evidence.ruleId).dedup.flatMap fun r => (report input r).entries r

/-- The texts of the clusters' hashes. -/
def clusterTexts (input : CorrelationInput) : List String :=
  (input.evidence.map Evidence.ruleId).dedup.filterMap fun r =>
    match report input r with
    | .values _ => none
    | .cluster hashes _ => some (clusterText r hashes)

section Entries

variable {input : CorrelationInput}

theorem report_of_le {ruleId : String}
    (hn : (survivors input ruleId).length ≤ clusterThreshold) :
    report input ruleId = .values ((survivors input ruleId).map (entryOf input)) := if_pos hn

theorem report_of_lt {ruleId : String}
    (hn : clusterThreshold < (survivors input ruleId).length) :
    ∃ path, report input ruleId
      = .cluster ((clusterOrder input ruleId).map fun g => g.key.2) path :=
  ⟨_, if_neg (not_le.mpr hn)⟩

/-- An entry belongs to its rule. -/
theorem ruleId_of_mem_entries {ruleId : String} {e : Entry}
    (he : e ∈ (report input ruleId).entries ruleId) : e.ruleId = ruleId := by
  rcases le_or_gt (survivors input ruleId).length clusterThreshold with hn | hn
  · rw [report_of_le hn] at he
    obtain ⟨g, hg, rfl⟩ := List.mem_map.mp he
    exact (mem_survivors.mp hg).2.2.1
  · obtain ⟨path, hr⟩ := report_of_lt hn
    rw [hr] at he
    rw [List.mem_singleton.mp he]

/-- A rule with entries has evidence. -/
theorem exists_evidence_of_mem_entries {ruleId : String} {e : Entry}
    (he : e ∈ (report input ruleId).entries ruleId) :
    ∃ ev ∈ input.evidence, ev.ruleId = ruleId := by
  have hne : survivors input ruleId ≠ [] := by
    intro h
    rw [report_of_le (by rw [h]; exact Nat.zero_le _), h] at he
    cases he
  obtain ⟨g, hg⟩ := List.exists_mem_of_ne_nil _ hne
  obtain ⟨ev, hev, hr, -⟩ := exists_evidence_of_mem_survivors hg
  exact ⟨ev, hev, hr⟩

theorem mem_entries {e : Entry} : e ∈ entries input ↔ e ∈ (report input e.ruleId).entries e.ruleId := by
  rw [entries, List.mem_flatMap]
  constructor
  · rintro ⟨r, -, he⟩
    rwa [ruleId_of_mem_entries he]
  · intro he
    obtain ⟨ev, hev, hr⟩ := exists_evidence_of_mem_entries he
    exact ⟨_, List.mem_dedup.mpr (List.mem_map.mpr ⟨ev, hev, hr⟩), he⟩

/-- **A finding is some entry's**… -/
theorem exists_entry_of_mem_findings {runId : String} {f : Finding}
    (hf : f ∈ (correlate runId input).findings) :
    ∃ e ∈ entries input, e.ruleId = f.ruleId ∧ e.id = f.id ∧ e.valueHash = f.valueHash := by
  have hf := (mem_findings_correlate input runId).mp hf
  have hpair : (f.id, f.valueHash) ∈ ((report input f.ruleId).entries f.ruleId).map
      fun e => (e.id, e.valueHash) := by
    rw [← entries_reportedFindings input runId]
    exact List.mem_map.mpr ⟨f, hf, rfl⟩
  obtain ⟨e, he, heq⟩ := List.mem_map.mp hpair
  obtain ⟨hid, hvalue⟩ := Prod.mk.inj heq
  have hrule := ruleId_of_mem_entries he
  exact ⟨e, mem_entries.mpr (by rwa [hrule]), hrule, hid, hvalue⟩

/-- **…and every entry is some finding's.** -/
theorem exists_finding_of_mem_entries (runId : String) {e : Entry} (he : e ∈ entries input) :
    ∃ f ∈ (correlate runId input).findings,
      f.ruleId = e.ruleId ∧ f.id = e.id ∧ f.valueHash = e.valueHash := by
  have hpair : (e.id, e.valueHash) ∈ (reportedFindings input runId e.ruleId).map
      fun f => (f.id, f.valueHash) := by
    rw [entries_reportedFindings]
    exact List.mem_map.mpr ⟨e, mem_entries.mp he, rfl⟩
  obtain ⟨f, hf, heq⟩ := List.mem_map.mp hpair
  obtain ⟨hid, hvalue⟩ := Prod.mk.inj heq
  have hrule := ruleId_of_mem_reportedFindings hf
  exact ⟨f, (mem_findings_correlate input runId).mpr (by rwa [hrule]), hrule, hid, hvalue⟩

/-- The ids of a scan's findings. -/
def findingIds (runId : String) (input : CorrelationInput) : List String :=
  (correlate runId input).findings.map Finding.id

theorem mem_findingIds {runId id : String} :
    id ∈ findingIds runId input ↔ ∃ e ∈ entries input, e.id = id := by
  constructor
  · intro h
    obtain ⟨f, hf, rfl⟩ := List.mem_map.mp h
    obtain ⟨e, he, -, hid, -⟩ := exists_entry_of_mem_findings hf
    exact ⟨e, he, hid⟩
  · rintro ⟨e, he, rfl⟩
    obtain ⟨f, hf, -, hid, -⟩ := exists_finding_of_mem_entries runId he
    exact List.mem_map.mpr ⟨f, hf, hid⟩

end Entries

/-! ## Two scans whose hashed texts do not collide -/

/-- The hash an id is: the first 32 digits. -/
def cutHash (text : String) : String := String.ofList ((sha256 text).toList.take 32)

theorem Entry.id_eq (e : Entry) : e.id = cutHash e.payload := rfl

/-- The texts two scans hash have different hashes, cut or not, and what they are joined from does
not imitate a separator or a cluster's hash. -/
structure HashesApart (A B : CorrelationInput) : Prop where
  ruleIds : ∀ e ∈ A.evidence ++ B.evidence, unitSepChar ∉ e.ruleId.toList
  valueHashes : ∀ e ∈ A.evidence ++ B.evidence, IsDigest e.valueHash
  ids : NoCollision cutHash ((entries A ++ entries B).map Entry.payload)
  clusters : NoCollision sha256 (clusterTexts A ++ clusterTexts B)
  apart : ∀ e ∈ A.evidence ++ B.evidence, ∀ t ∈ clusterTexts A ++ clusterTexts B,
    e.valueHash ≠ sha256 t

section Cases

variable {input : CorrelationInput} {ruleId : String} {e : Entry}

/-- **Where an entry comes from**: a survivor, or the cluster of its rule. -/
theorem mem_entries_cases (he : e ∈ (report input ruleId).entries ruleId) :
    ((survivors input ruleId).length ≤ clusterThreshold ∧
        ∃ g ∈ survivors input ruleId, e = entryOf input g) ∨
      (clusterThreshold < (survivors input ruleId).length ∧
        ∃ hashes path, report input ruleId = .cluster hashes path ∧
          e = ⟨ruleId, clusterHash ruleId hashes, path, 0⟩) := by
  rcases le_or_gt (survivors input ruleId).length clusterThreshold with hn | hn
  · rw [report_of_le hn] at he
    obtain ⟨g, hg, rfl⟩ := List.mem_map.mp he
    exact Or.inl ⟨hn, g, hg, rfl⟩
  · obtain ⟨path, hr⟩ := report_of_lt hn
    rw [hr] at he
    exact Or.inr ⟨hn, _, path, hr, List.mem_singleton.mp he⟩

theorem clusterText_mem {hashes : List String} {path : String}
    (hr : report input ruleId = .cluster hashes path) :
    clusterText ruleId hashes ∈ clusterTexts input := by
  have he : (⟨ruleId, clusterHash ruleId hashes, path, 0⟩ : Entry)
      ∈ (report input ruleId).entries ruleId := by rw [hr]; exact List.mem_singleton_self _
  obtain ⟨ev, hev, hrule⟩ := exists_evidence_of_mem_entries he
  refine List.mem_filterMap.mpr ⟨ruleId, List.mem_dedup.mpr (List.mem_map.mpr ⟨ev, hev, hrule⟩), ?_⟩
  rw [hr]

/-- The value hashes of a cluster are those of its survivors. -/
theorem mem_hashes_of_report {hashes : List String} {path : String}
    (hr : report input ruleId = .cluster hashes path) {h : String} :
    h ∈ hashes ↔ ∃ g ∈ survivors input ruleId, g.key.2 = h := by
  rcases le_or_gt (survivors input ruleId).length clusterThreshold with hn | hn
  · rw [report_of_le hn] at hr
    cases hr
  · obtain ⟨path', hr'⟩ := report_of_lt hn
    obtain ⟨rfl, -⟩ := Report.cluster.inj (hr'.symm.trans hr)
    simp only [List.mem_map, mem_clusterOrder]

theorem hashes_ne_nil_of_report {hashes : List String} {path : String}
    (hr : report input ruleId = .cluster hashes path) : hashes ≠ [] := by
  rcases le_or_gt (survivors input ruleId).length clusterThreshold with hn | hn
  · rw [report_of_le hn] at hr
    cases hr
  · obtain ⟨g, hg⟩ := List.exists_mem_of_length_pos (lt_of_le_of_lt (Nat.zero_le _) hn)
    exact List.ne_nil_of_mem ((mem_hashes_of_report hr).mpr ⟨g, hg, rfl⟩)

end Cases

namespace HashesApart

variable {A B : CorrelationInput} (h : HashesApart A B)

include h in
theorem symm : HashesApart B A where
  ruleIds e he := h.ruleIds e (by simpa [or_comm] using he)
  valueHashes e he := h.valueHashes e (by simpa [or_comm] using he)
  ids s hs t ht := h.ids s (by simpa [or_comm] using hs) t (by simpa [or_comm] using ht)
  clusters s hs t ht :=
    h.clusters s (by simpa [or_comm] using hs) t (by simpa [or_comm] using ht)
  apart e he t ht := h.apart e (by simpa [or_comm] using he) t (by simpa [or_comm] using ht)

include h in
/-- The parts of an entry keep clear of the separator. -/
theorem clear_of_mem {e : Entry} (he : e ∈ entries A ++ entries B) :
    unitSepChar ∉ e.ruleId.toList ∧ unitSepChar ∉ e.valueHash.toList := by
  have hone : ∀ {input : CorrelationInput}, (∀ ev ∈ input.evidence, ev ∈ A.evidence ++ B.evidence) →
      e ∈ entries input → unitSepChar ∉ e.ruleId.toList ∧ unitSepChar ∉ e.valueHash.toList := by
    intro input hsub he
    have hmem := mem_entries.mp he
    obtain ⟨ev, hev, hrule⟩ := exists_evidence_of_mem_entries hmem
    refine ⟨hrule ▸ h.ruleIds ev (hsub ev hev), ?_⟩
    rcases mem_entries_cases hmem with ⟨-, g, hg, heq⟩ | ⟨-, hashes, path, -, heq⟩
    · obtain ⟨ev', hev', -, hval⟩ := exists_evidence_of_mem_survivors hg
      have : e.valueHash = ev'.valueHash := by rw [heq, hval]; rfl
      rw [this]
      exact (h.valueHashes ev' (hsub ev' hev')).not_mem (by decide)
    · rw [heq]
      exact (isDigest_sha256 _).not_mem (by decide)
  rcases List.mem_append.mp he with he | he
  · exact hone (fun ev hev => List.mem_append_left _ hev) he
  · exact hone (fun ev hev => List.mem_append_right _ hev) he

include h in
/-- **Equal ids are equal entries.** -/
theorem entry_eq {e e' : Entry} (he : e ∈ entries A ++ entries B) (he' : e' ∈ entries A ++ entries B)
    (hid : e.id = e'.id) : e = e' := by
  have hpay : e.payload = e'.payload :=
    h.ids _ (List.mem_map_of_mem he) _ (List.mem_map_of_mem he') hid
  obtain ⟨hr, hv, hp, ho⟩ := idPayload_inj (h.clear_of_mem he).1 (h.clear_of_mem he').1
    (h.clear_of_mem he).2 (h.clear_of_mem he').2 hpay
  cases e; cases e'
  simp_all

include h in
/-- **Scan `A` knows an id of `B` exactly if it has the entry.** -/
theorem mem_findingIds_iff (runId : String) {e : Entry} (he : e ∈ entries B) :
    e.id ∈ findingIds runId A ↔ e ∈ entries A := by
  rw [mem_findingIds]
  constructor
  · rintro ⟨e', he', hid⟩
    rwa [← h.entry_eq (List.mem_append_left _ he') (List.mem_append_right _ he) hid]
  · exact fun he' => ⟨e, he', rfl⟩

include h in
/-- Clusters with one hash hold the same values. -/
theorem hashes_eq {ruleId : String} {hs hs' : List String} {p p' : String}
    (hr : report A ruleId = .cluster hs p) (hr' : report B ruleId = .cluster hs' p')
    (heq : clusterHash ruleId hs = clusterHash ruleId hs') : hs = hs' := by
  have htext := h.clusters _ (List.mem_append_left _ (clusterText_mem hr)) _
    (List.mem_append_right _ (clusterText_mem hr')) heq
  refine clusterText_inj (hashes_ne_nil_of_report hr) (hashes_ne_nil_of_report hr') ?_ ?_ htext
  · intro v hv
    obtain ⟨g, hg, rfl⟩ := (mem_hashes_of_report hr).mp hv
    obtain ⟨ev, hev, -, hval⟩ := exists_evidence_of_mem_survivors hg
    exact hval ▸ h.valueHashes ev (List.mem_append_left _ hev)
  · intro v hv
    obtain ⟨g, hg, rfl⟩ := (mem_hashes_of_report hr').mp hv
    obtain ⟨ev, hev, -, hval⟩ := exists_evidence_of_mem_survivors hg
    exact hval ▸ h.valueHashes ev (List.mem_append_right _ hev)

end HashesApart

/-! ## One report within another -/

/-- Everything the one report names, the other names too: values at the same first occurrence, or
the same cluster. -/
def Report.Within : Report → Report → Prop
  | .values es, .values es' => es ⊆ es'
  | .values es, .cluster _ _ => es = []
  | .cluster _ _, .values _ => False
  | .cluster hashes path, .cluster hashes' path' => hashes = hashes' ∧ path = path'

theorem Report.Within.subset {R R' : Report} (h : R.Within R') (ruleId : String) :
    R.entries ruleId ⊆ R'.entries ruleId := by
  cases R with
  | values es =>
    cases R' with
    | values es' => exact h
    | cluster hashes' path' => rw [show es = [] from h]; exact List.nil_subset _
  | cluster hashes path =>
    cases R' with
    | values es' => exact h.elim
    | cluster hashes' path' =>
      obtain ⟨rfl, rfl⟩ := h
      exact List.Subset.refl _

/-- A rule's entries come strictly sorted by value. -/
theorem pairwise_entries {input : CorrelationInput} {ruleId : String} {es : List Entry}
    (h : report input ruleId = .values es) :
    es.Pairwise fun e e' => e.valueHash < e'.valueHash := by
  rcases le_or_gt (survivors input ruleId).length clusterThreshold with hn | hn
  · rw [report_of_le hn] at h
    rw [← Report.values.inj h]
    exact List.pairwise_map.mpr (pairwise_survivors input ruleId)
  · obtain ⟨path, hr⟩ := report_of_lt hn
    rw [h] at hr
    cases hr

/-- Reports within each other are the same. -/
theorem report_eq_of_within {A B : CorrelationInput} {ruleId : String}
    (hBA : (report B ruleId).Within (report A ruleId))
    (hAB : (report A ruleId).Within (report B ruleId)) : report B ruleId = report A ruleId := by
  cases hB : report B ruleId with
  | values es =>
    cases hA : report A ruleId with
    | values es' =>
      rw [hA, hB] at hBA hAB
      rw [eq_of_pairwise_key_lt (pairwise_entries hB) (pairwise_entries hA) fun e =>
        ⟨fun he => hBA he, fun he => hAB he⟩]
    | cluster hashes' path' => rw [hA, hB] at hAB; exact hAB.elim
  | cluster hashes path =>
    cases hA : report A ruleId with
    | values es' => rw [hA, hB] at hBA; exact hBA.elim
    | cluster hashes' path' =>
      rw [hA, hB] at hBA
      obtain ⟨rfl, rfl⟩ := hBA
      rfl

/-- **Entry by entry is report by report**, between scans whose hashes stand apart. -/
theorem HashesApart.within_of_subset {A B : CorrelationInput} (h : HashesApart A B)
    (hsub : entries B ⊆ entries A) (ruleId : String) :
    (report B ruleId).Within (report A ruleId) := by
  have hrule : ∀ e ∈ (report B ruleId).entries ruleId, e ∈ (report A ruleId).entries ruleId := by
    intro e he
    have hr := ruleId_of_mem_entries he
    have hmem := mem_entries.mp (hsub (mem_entries.mpr (by rwa [hr])))
    rwa [hr] at hmem
  -- a plain entry's hash is some evidence's, a cluster's is not
  have hplain : ∀ {input : CorrelationInput} {e : Entry},
      (∀ ev ∈ input.evidence, ev ∈ A.evidence ++ B.evidence) →
      ∀ g ∈ survivors input ruleId, e = entryOf input g →
        ∀ t ∈ clusterTexts A ++ clusterTexts B, e.valueHash ≠ sha256 t := by
    rintro input e hev g hg rfl t ht
    obtain ⟨ev, hmem, -, hval⟩ := exists_evidence_of_mem_survivors hg
    have := h.apart ev (hev ev hmem) t ht
    rwa [hval] at this
  cases hB : report B ruleId with
  | values es =>
    rw [hB] at hrule
    cases hA : report A ruleId with
    | values es' => rw [hA] at hrule; exact hrule
    | cluster hashes path =>
      rw [hA] at hrule
      refine List.eq_nil_iff_forall_not_mem.mpr fun e he => ?_
      have heq : e = ⟨ruleId, clusterHash ruleId hashes, path, 0⟩ :=
        List.mem_singleton.mp (hrule e he)
      have hmemB : e ∈ (report B ruleId).entries ruleId := by rw [hB]; exact he
      rcases mem_entries_cases hmemB with ⟨-, g, hg, hval⟩ | ⟨-, hs, p, hr, -⟩
      · exact hplain (fun ev hev => List.mem_append_right _ hev) g hg hval _
          (List.mem_append_left _ (clusterText_mem hA)) (by rw [heq]; rfl)
      · rw [hB] at hr
        cases hr
  | cluster hashes path =>
    rw [hB] at hrule
    have hin := hrule _ (List.mem_singleton_self _)
    rcases mem_entries_cases hin with ⟨-, g, hg, hval⟩ | ⟨-, hs, p, hr, heq⟩
    · exact absurd rfl (hplain (fun ev hev => List.mem_append_left _ hev) g hg hval _
        (List.mem_append_right _ (clusterText_mem hB)))
    · rw [hr]
      injection heq with _ hhash hpath _
      exact ⟨(h.hashes_eq hr hB hhash.symm).symm, hpath⟩

end BareAnalysis
