import BareAnalysis.Enrichment.Analyzer

/-!
# Enrichment/Isolation — when one binary's output costs only that binary

    a.exe   xrefs.json = {"targets": […]}   ──▸ analyzed ┐
    b.exe   xrefs.json = [ ]                ──▸ raises   ┘──▸ no result at all

An output that is read has to be of the shape the reader expects, or the run ends with it.  So every
binary that is analyzed depends on each other one whose output is read (`costsOnlyItself_iff`).
-/

namespace BareAnalysis.GhidraAnalyzer

/-! ## The claim -/

section Claim

variable (tables : Tables) (args : Args) (around : Surroundings)

/-- A run in which the binary's output is another value. -/
def Surroundings.withOutput (j : ℕ) (v : Json) : Surroundings :=
  { around with output := Function.update around.output j (.document v) }

/-- The document has every entry of the work order once, in order. -/
def Covers (entries : List (String × List ℤ)) (document : Json) : Prop :=
  ∃ binaries : List BinaryResult,
    document.field "binaries" = .arr (binaries.map (binaryToJson tables)) ∧
    List.Forall₂ (fun entry binary => binary.path = entry.1) entries binaries ∧
    document.field "truncated" = .bool (decide (∃ binary ∈ binaries, binary.status = "skipped"))

/-- What the document says of the binary. -/
def entryAt (document : Json) (i : ℕ) : Option Json := (document.field "binaries").listed[i]?

/-- The run writes a complete result, and an analyzed binary's entry stays when another's output is
replaced. -/
def CostsOnlyItself (order : Json) : Prop :=
  ∃ entries document, workOrder tables order = .ok entries ∧
    main tables args around (.document order) = .ok (0, some document) ∧
    Covers tables entries document ∧
    ∀ i entry, entryAt document i = some entry → entry.field "status" = .str "analyzed" →
      ∀ j, j ≠ i → ∀ v, ∃ document',
        main tables args (around.withOutput j v) (.document order) = .ok (0, some document') ∧
          entryAt document' i = some entry

/-! ## The condition -/

/-- What `value or []` can be iterated as. -/
def IterReadable : Json → Prop
  | .null | .str _ | .arr _ | .obj _ => True
  | .bool b => b = false
  | .int n => n = 0
  | .float q _ => q = 0
  | .nonFinite _ => False

/-- An entry that is dropped, or whose offsets can be iterated. -/
def EntryReadable (raw : Json) : Prop :=
  raw.IsObject → ¬Unusable (pathOf tables raw) → IterReadable (raw.field "offsets")

/-- An output that `_interpret` can read. -/
structure OutputReadable (v : Json) : Prop where
  isObject : v.IsObject
  iterable : IterReadable (v.field "targets")
  targets : ∀ t ∈ (v.field "targets").listed, t.IsObject → TargetReadable tables.toNumerals t
  functionCount : IntReadable tables.toNumerals (v.field "function_count")

/-- An `xrefs.json` that raises nothing. -/
def Handled : JsonFile → Prop
  | .missing | .unreadable _ => True
  | .raises _ => False
  | .document v => OutputReadable tables v

/-- The binary is under the cap, and there is time for it. -/
def Started (i : ℕ) : Prop := i < args.maxBinaries ∧ ¬(budget args around i).Below minBinaryBudgetS

/-- The binary's output is looked at. -/
def IsRead (i : ℕ) (path : String) : Prop :=
  Started args around i ∧ around.isFile path = .ok true ∧ (around.outcome i).timedOut = false

/-- A binary that does not end the run. -/
structure Harmless (i : ℕ) (path : String) : Prop where
  file : Started args around i → (around.isFile path).isOk = true
  timeout : Started args around i → around.isFile path = .ok true →
    ∃ s, budget args around i = .finite s
  output : IsRead args around i path → Handled tables (around.output i)

/-- A binary that is analyzed is the only one whose output is looked at. -/
def Alone (entries : List (String × List ℤ)) : Prop :=
  ∀ i j (hi : i < entries.length) (hj : j < entries.length), j ≠ i →
    IsRead args around i entries[i].1 → (∃ v, around.output i = .document v) →
      ¬IsRead args around j entries[j].1

end Claim

/-! ## Reading -/

variable {tables : Tables} {args : Args} {around : Surroundings} {v : Json} {path : String} {i : ℕ}

theorem isOk_iter_iff : (v.orElse (.arr [])).iter.isOk = true ↔ IterReadable v := by
  cases v with
  | null => exact iff_of_true rfl trivial
  | bool b => cases b <;> simp [Json.orElse, Json.truthy, IterReadable, Json.iter, Except.isOk,
      Except.toBool]
  | int n =>
    by_cases hn : n = 0 <;> simp [Json.orElse, Json.truthy, IterReadable, Json.iter, Except.isOk,
      Except.toBool, hn]
  | float q text =>
    by_cases hq : q = 0 <;> simp [Json.orElse, Json.truthy, IterReadable, Json.iter, Except.isOk,
      Except.toBool, hq]
  | nonFinite text => exact iff_of_false Bool.false_ne_true id
  | str s =>
    rw [Json.orElse]
    split <;> exact iff_of_true rfl trivial
  | arr items =>
    rw [Json.orElse]
    split <;> exact iff_of_true rfl trivial
  | obj fields =>
    rw [Json.orElse]
    split <;> exact iff_of_true rfl trivial

/-- **Only a list has objects in it.** -/
theorem filter_isObject_of_iter {raws : List Json} (h : (v.orElse (.arr [])).iter = .ok raws) :
    raws.filter isObject = v.listed.filter isObject := by
  have hempty : ∀ {raws : List Json}, (Json.arr []).iter = .ok raws → raws.filter isObject = [] := by
    intro raws h
    rw [← Except.ok.inj h]
    rfl
  by_cases htruthy : v.truthy = true
  · rw [Json.truthy_orElse_left htruthy] at h
    cases v with
    | arr items => rw [← Except.ok.inj h]; rfl
    | str s =>
      rw [← Except.ok.inj h]
      exact List.filter_eq_nil_iff.mpr fun x hx => by
        obtain ⟨c, -, rfl⟩ := List.mem_map.mp hx
        exact Bool.false_ne_true
    | obj fields =>
      rw [← Except.ok.inj h]
      exact List.filter_eq_nil_iff.mpr fun x hx => by
        obtain ⟨kv, -, rfl⟩ := List.mem_map.mp hx
        exact Bool.false_ne_true
    | null | bool _ | int _ | float _ _ | nonFinite _ => cases h
  · rw [Json.orElse_of_not_truthy (by simpa using htruthy)] at h
    rw [hempty h]
    cases v with
    | arr items =>
      have hnil : items = [] := by simpa [Json.truthy] using htruthy
      rw [hnil]
      rfl
    | _ => rfl

theorem isObject_iff : isObject v = true ↔ v.IsObject := by
  cases v with
  | obj fields => exact iff_of_true rfl ⟨fields, rfl⟩
  | _ => exact iff_of_false Bool.false_ne_true fun ⟨_, h⟩ => by cases h

theorem isOk_readTarget_iff :
    (readTarget tables v).isOk = true ↔ TargetReadable tables.toNumerals v := by
  rw [readTarget, isOk_bind_of_forall fun _ => rfl, isOk_xrefTarget_iff]

/-- **A document is interpreted exactly when it is readable.** -/
theorem isOk_interpretDocument_iff {outcome : HeadlessOutcome} {durationS : ℚ} :
    (interpretDocument tables path outcome durationS v).isOk = true ↔ OutputReadable tables v := by
  have hread : v.IsObject → ((interpretDocument tables path outcome durationS v).isOk = true ↔
      IterReadable (v.field "targets") ∧
      (∀ t ∈ (v.field "targets").listed, t.IsObject → TargetReadable tables.toNumerals t) ∧
        IntReadable tables.toNumerals (v.field "function_count")) := by
    intro hobj
    rw [interpretDocument]
    simp only [hobj.getOrNull_eq, ok_bind]
    have htargets : ∀ raws : List Json, ((v.field "targets").orElse (.arr [])).iter = .ok raws →
        (((raws.filter isObject).mapM (readTarget tables)).isOk = true ↔
          ∀ t ∈ (v.field "targets").listed, t.IsObject → TargetReadable tables.toNumerals t) := by
      intro raws hraws
      rw [isOk_mapM, filter_isObject_of_iter hraws]
      simp only [List.mem_filter, isObject_iff, isOk_readTarget_iff, and_imp]
    rw [isOk_bind]
    constructor
    · rintro ⟨raws, hraws, h⟩
      rw [isOk_bind_iff fun _ => isOk_bind_of_forall fun _ => rfl, htargets raws hraws,
        isOk_toInt_iff] at h
      exact ⟨isOk_iter_iff.mp (isOk_iff.mpr ⟨raws, hraws⟩), h⟩
    · rintro ⟨hiter, h⟩
      obtain ⟨raws, hraws⟩ := exists_eq_ok (isOk_iter_iff.mpr hiter)
      refine ⟨raws, hraws, ?_⟩
      rw [isOk_bind_iff fun _ => isOk_bind_of_forall fun _ => rfl, htargets raws hraws,
        isOk_toInt_iff]
      exact h
  constructor
  · intro h
    obtain ⟨x, hx, -⟩ := isOk_bind.mp h
    have hobj := Json.isObject_of_getOrNull_eq hx
    obtain ⟨hiter, htargets, hcount⟩ := (hread hobj).mp h
    exact ⟨hobj, hiter, htargets, hcount⟩
  · rintro ⟨hobj, hiter, htargets, hcount⟩
    exact (hread hobj).mpr ⟨hiter, htargets, hcount⟩

theorem isOk_interpret_iff {outcome : HeadlessOutcome} {output : JsonFile} {durationS : ℚ} :
    (interpret tables path outcome output durationS).isOk = true ↔
      (outcome.timedOut = false → Handled tables output) := by
  unfold interpret
  by_cases htimeout : outcome.timedOut = true
  · rw [if_pos htimeout]
    exact iff_of_true rfl fun h => absurd (htimeout.symm.trans h) (by decide)
  rw [if_neg htimeout, forall_prop_of_true (by simpa using htimeout)]
  cases output with
  | missing | unreadable message => exact iff_of_true rfl trivial
  | raises e => exact iff_of_false Bool.false_ne_true id
  | document v => exact isOk_interpretDocument_iff

theorem isOk_analysisTimeout_iff {s : Seconds} :
    (analysisTimeout s).isOk = true ↔ ∃ q, s = .finite q := by
  cases s with
  | finite q => exact iff_of_true rfl ⟨q, rfl⟩
  | infinite => exact iff_of_false Bool.false_ne_true fun ⟨_, h⟩ => by cases h

/-- A binary that is over the cap or out of time is skipped. -/
theorem binaryOf_of_not_started (h : ¬Started args around i) :
    ∃ reason, binaryOf tables args around i path
      = .ok { path, status := "skipped", reason := some reason } := by
  rw [binaryOf]
  by_cases hcap : args.maxBinaries ≤ i
  · exact ⟨_, if_pos hcap⟩
  · have hbudget : (budget args around i).Below minBinaryBudgetS := by
      by_contra hin
      exact h ⟨not_le.mp hcap, hin⟩
    rw [if_neg hcap, analyzeBinary, if_pos hbudget]
    exact ⟨_, rfl⟩

theorem binaryOf_of_started (h : Started args around i) :
    binaryOf tables args around i path = runBinary tables args around i path := by
  rw [binaryOf, if_neg (not_le.mpr h.1), analyzeBinary, if_neg h.2]

theorem binaryOf_of_not_staged (h : Started args around i)
    (hfile : around.isFile path = .ok false) :
    binaryOf tables args around i path
      = .ok { path, status := "failed", reason := some "the binary was not staged" } := by
  rw [binaryOf_of_started h, runBinary, hfile]
  rfl

theorem binaryOf_of_staged (h : Started args around i) (hfile : around.isFile path = .ok true) :
    binaryOf tables args around i path = (analysisTimeout (budget args around i) >>= fun _ =>
      interpret tables path (around.outcome i) (around.output i) (around.durationS i)) := by
  rw [binaryOf_of_started h, runBinary, hfile]
  rfl

/-- **A binary has a result exactly when it is harmless.** -/
theorem isOk_binaryOf_iff :
    (binaryOf tables args around i path).isOk = true ↔ Harmless tables args around i path := by
  by_cases hstarted : Started args around i
  · rcases hfile : around.isFile path with e | staged
    · refine iff_of_false ?_ fun h => ?_
      · rw [binaryOf_of_started hstarted, runBinary, hfile]
        exact Bool.false_ne_true
      · have := h.file hstarted
        rw [hfile] at this
        exact Bool.false_ne_true this
    cases staged with
    | false =>
      rw [binaryOf_of_not_staged hstarted hfile]
      have hnot : around.isFile path ≠ .ok true := by
        rw [hfile]
        exact fun h => Bool.false_ne_true (Except.ok.inj h)
      exact iff_of_true rfl ⟨fun _ => by rw [hfile]; rfl, fun _ h => absurd h hnot,
        fun h => absurd h.2.1 hnot⟩
    | true =>
      rw [binaryOf_of_staged hstarted hfile, isOk_bind_iff fun _ => isOk_interpret_iff,
        isOk_analysisTimeout_iff]
      exact ⟨fun h => ⟨fun _ => by rw [hfile]; rfl, fun _ _ => h.1, fun hread => h.2 hread.2.2⟩,
        fun h => ⟨h.timeout hstarted hfile, fun hin => h.output ⟨hstarted, hfile, hin⟩⟩⟩
  · obtain ⟨reason, hskipped⟩ := @binaryOf_of_not_started tables args around path i hstarted
    rw [hskipped]
    exact iff_of_true rfl ⟨fun h => absurd h hstarted, fun h => absurd h hstarted,
      fun h => absurd h.1 hstarted⟩

/-! ## What a binary's result says -/

theorem interpretDocument_eq_ok {outcome : HeadlessOutcome} {durationS : ℚ} {b : BinaryResult}
    (h : interpretDocument tables path outcome durationS v = .ok b) :
    b.path = path ∧ b.status = "analyzed" := by
  obtain ⟨targets, -, h⟩ := bind_eq_ok.mp h
  obtain ⟨raws, -, h⟩ := bind_eq_ok.mp h
  obtain ⟨read, -, h⟩ := bind_eq_ok.mp h
  obtain ⟨language, -, h⟩ := bind_eq_ok.mp h
  obtain ⟨count, -, h⟩ := bind_eq_ok.mp h
  obtain ⟨functionCount, -, h⟩ := bind_eq_ok.mp h
  rw [← Except.ok.inj h]
  exact ⟨rfl, rfl⟩

theorem interpret_eq_ok {outcome : HeadlessOutcome} {output : JsonFile} {durationS : ℚ}
    {b : BinaryResult} (h : interpret tables path outcome output durationS = .ok b) :
    b.path = path ∧
      (b.status = "analyzed" ↔ outcome.timedOut = false ∧ ∃ v, output = .document v) := by
  unfold interpret at h
  by_cases htimeout : outcome.timedOut = true
  · rw [if_pos htimeout] at h
    rw [← Except.ok.inj h]
    have hother : ¬"timeout" = "analyzed" := by decide
    exact ⟨rfl, iff_of_false hother fun hin => by simp [htimeout] at hin⟩
  rw [if_neg htimeout] at h
  cases output with
  | missing | unreadable message =>
    rw [← Except.ok.inj h]
    have hother : ¬"failed" = "analyzed" := by decide
    exact ⟨rfl, iff_of_false hother fun ⟨_, _, hv⟩ => by cases hv⟩
  | raises e => cases h
  | document v =>
    obtain ⟨hpath, hstatus⟩ := interpretDocument_eq_ok h
    exact ⟨hpath, iff_of_true hstatus ⟨by simpa using htimeout, v, rfl⟩⟩

/-- **A binary's result is about the binary**, and says `analyzed` when its output was read and was
a document. -/
theorem binaryOf_eq_ok {b : BinaryResult} (h : binaryOf tables args around i path = .ok b) :
    b.path = path ∧ (b.status = "analyzed" ↔
      IsRead args around i path ∧ ∃ v, around.output i = .document v) := by
  by_cases hstarted : Started args around i
  · rcases hfile : around.isFile path with e | staged
    · rw [binaryOf_of_started hstarted, runBinary, hfile] at h
      cases h
    cases staged with
    | false =>
      rw [binaryOf_of_not_staged hstarted hfile] at h
      rw [← Except.ok.inj h]
      have hother : ¬"failed" = "analyzed" := by decide
      refine ⟨rfl, iff_of_false hother fun hin => ?_⟩
      exact Bool.false_ne_true (Except.ok.inj (hfile.symm.trans hin.1.2.1))
    | true =>
      rw [binaryOf_of_staged hstarted hfile] at h
      obtain ⟨timeout, -, h⟩ := bind_eq_ok.mp h
      obtain ⟨hpath, hstatus⟩ := interpret_eq_ok h
      refine ⟨hpath, hstatus.trans ?_⟩
      exact and_congr_left' ⟨fun hin => ⟨hstarted, hfile, hin⟩, fun hin => hin.2.2⟩
  · obtain ⟨reason, hskipped⟩ := @binaryOf_of_not_started tables args around path i hstarted
    rw [hskipped] at h
    rw [← Except.ok.inj h]
    have hother : ¬"skipped" = "analyzed" := by decide
    exact ⟨rfl, iff_of_false hother fun hin => hstarted hin.1.1⟩

/-! ## Another binary's output -/

section Replace

variable {j : ℕ} {w : Json}

theorem isRead_withOutput :
    IsRead args (around.withOutput j w) i path ↔ IsRead args around i path := Iff.rfl

theorem interpret_of_timedOut {outcome : HeadlessOutcome} (h : outcome.timedOut = true)
    (output output' : JsonFile) (durationS : ℚ) :
    interpret tables path outcome output durationS
      = interpret tables path outcome output' durationS := by
  unfold interpret
  rw [if_pos h, if_pos h]

theorem runBinary_withOutput (h : j ≠ i ∨ ¬(around.isFile path = .ok true ∧
      (around.outcome i).timedOut = false)) :
    runBinary tables args (around.withOutput j w) i path
      = runBinary tables args around i path := by
  rcases hfile : around.isFile path with e | staged
  · have hfile' : (around.withOutput j w).isFile path = .error e := hfile
    rw [runBinary, runBinary, hfile, hfile']
    rfl
  have hfile' : (around.withOutput j w).isFile path = .ok staged := hfile
  rw [runBinary, runBinary, hfile, hfile']
  cases staged with
  | false => rfl
  | true =>
    have hsame : interpret tables path (around.outcome i) ((around.withOutput j w).output i)
        (around.durationS i)
          = interpret tables path (around.outcome i) (around.output i) (around.durationS i) := by
      obtain hne | hnot := h
      · have hother : (around.withOutput j w).output i = around.output i :=
          Function.update_of_ne (Ne.symm hne) _ _
        rw [hother]
      · refine interpret_of_timedOut ?_ _ _ _
        by_contra hin
        exact hnot ⟨hfile, by simpa using hin⟩
    change (analysisTimeout (budget args around i) >>= fun _ =>
      interpret tables path (around.outcome i) ((around.withOutput j w).output i)
        (around.durationS i)) = _
    rw [hsame]
    rfl

/-- **Another binary's output is none of this one's business.** -/
theorem binaryOf_withOutput (h : j ≠ i ∨ ¬IsRead args around i path) :
    binaryOf tables args (around.withOutput j w) i path = binaryOf tables args around i path := by
  by_cases hstarted : Started args around i
  · have hstarted' : Started args (around.withOutput j w) i := hstarted
    rw [binaryOf_of_started hstarted, binaryOf_of_started hstarted']
    exact runBinary_withOutput (h.imp_right fun hnot hin => hnot ⟨hstarted, hin⟩)
  · rw [binaryOf, binaryOf]
    by_cases hcap : args.maxBinaries ≤ i
    · rw [if_pos hcap, if_pos hcap]
    · have hbudget : (budget args around i).Below minBinaryBudgetS := by
        by_contra hin
        exact hstarted ⟨not_le.mp hcap, hin⟩
      rw [if_neg hcap, if_neg hcap, analyzeBinary, analyzeBinary, if_pos hbudget]
      exact if_pos hbudget

end Replace

/-! ## The loop -/

/-- The result, once the binaries have theirs. -/
def resultOf (around : Surroundings) (binaries : List BinaryResult) : GhidraResult where
  ghidraVersion := around.ghidraVersion
  binaries := binaries
  truncated := binaries.any fun binary => binary.status == "skipped"

/-- What the loop adds to a result: one binary after the other. -/
theorem foldlM_addBinary (entries : List ((String × List ℤ) × ℕ)) (result : GhidraResult) :
    entries.foldlM (addBinary tables args around) result
      = (entries.mapM fun entry => binaryOf tables args around entry.2 entry.1.1).map fun binaries =>
        { result with
          truncated := result.truncated || binaries.any fun binary => binary.status == "skipped"
          binaries := result.binaries ++ binaries } := by
  induction entries generalizing result with
  | nil =>
    rw [List.foldlM_nil, List.mapM_nil]
    change Except.ok result = Except.ok { result with
      truncated := result.truncated || false, binaries := result.binaries ++ [] }
    rw [Bool.or_false, List.append_nil]
  | cons entry entries ih =>
    rw [List.foldlM_cons, List.mapM_cons, addBinary]
    rcases binaryOf tables args around entry.2 entry.1.1 with e | binary
    · rfl
    rw [ok_bind, ok_bind]
    change entries.foldlM (addBinary tables args around) { result with
      truncated := result.truncated || binary.status == "skipped"
      binaries := result.binaries ++ [binary] } = _
    rw [ih]
    rcases hrest : entries.mapM fun entry => binaryOf tables args around entry.2 entry.1.1 with
      e | binaries
    · rw [hrest]
      rfl
    rw [hrest]
    change Except.ok { result with
      truncated := (result.truncated || binary.status == "skipped")
        || binaries.any fun binary => binary.status == "skipped"
      binaries := (result.binaries ++ [binary]) ++ binaries } = Except.ok _
    rw [Bool.or_assoc, List.append_assoc]
    rfl

/-- The binaries of a work order, in its order. -/
def binariesOf (tables : Tables) (args : Args) (around : Surroundings)
    (entries : List (String × List ℤ)) : Except PyError (List BinaryResult) :=
  entries.zipIdx.mapM fun entry => binaryOf tables args around entry.2 entry.1.1

/-- **The run is the work order, and a result for each of its binaries.** -/
theorem main_eq (order : Json) :
    main tables args around (.document order) = do
      let entries ← workOrder tables order
      let binaries ← binariesOf tables args around entries
      return (0, some (resultToJson tables (resultOf around binaries))) := by
  rw [main]
  refine bind_congr fun entries => ?_
  rw [foldlM_addBinary, bind_map_eq]
  rfl

section Entries

variable {entries : List (String × List ℤ)} {binaries : List BinaryResult}

theorem isOk_binariesOf_iff : (binariesOf tables args around entries).isOk = true ↔
    ∀ i (hi : i < entries.length), Harmless tables args around i entries[i].1 := by
  rw [binariesOf, isOk_mapM]
  constructor
  · intro h i hi
    exact isOk_binaryOf_iff.mp (h (entries[i], i) (List.mk_mem_zipIdx_iff_getElem?.mpr
      (List.getElem?_eq_getElem hi)))
  · rintro h ⟨entry, i⟩ hmem
    obtain ⟨hi, rfl⟩ := List.getElem?_eq_some_iff.mp (List.mk_mem_zipIdx_iff_getElem?.mp hmem)
    exact isOk_binaryOf_iff.mpr (h i hi)

/-- **Every entry has its result**, at its place. -/
theorem binariesOf_eq_ok (h : binariesOf tables args around entries = .ok binaries) :
    binaries.length = entries.length ∧ ∀ i (hi : i < entries.length) (hb : i < binaries.length),
      binaryOf tables args around i entries[i].1 = .ok binaries[i] := by
  have hall := mapM_eq_ok.mp h
  have hlength : binaries.length = entries.length :=
    hall.length_eq.symm.trans List.length_zipIdx
  refine ⟨hlength, fun i hi hb => ?_⟩
  have hat := hall.get (by rwa [List.length_zipIdx]) hb
  simpa using hat

theorem forall₂_path (h : binariesOf tables args around entries = .ok binaries) :
    List.Forall₂ (fun entry binary => binary.path = entry.1) entries binaries := by
  obtain ⟨hlength, hat⟩ := binariesOf_eq_ok h
  refine List.forall₂_iff_get.mpr ⟨hlength.symm, fun i hi hb => ?_⟩
  exact (binaryOf_eq_ok (hat i hi hb)).1

/-- The binaries are in the order of their paths already. -/
theorem sortBy_path (hsorted : entries.Pairwise fun a b => a.1 ≤ b.1)
    (h : binariesOf tables args around entries = .ok binaries) :
    sortBy BinaryResult.path binaries = binaries := by
  have hpaths : binaries.map BinaryResult.path = entries.map Prod.fst := by
    have hpath := forall₂_path h
    rw [← List.forall₂_eq_eq_eq, List.forall₂_map_left_iff, List.forall₂_map_right_iff]
    exact hpath.flip
  refine sortBy_eq_self (List.pairwise_map.mp ?_)
  rw [hpaths]
  exact List.pairwise_map.mpr hsorted

end Entries

/-! ## The work order -/

theorem isOk_readEntry_iff : (readEntry tables v).isOk = true ↔ EntryReadable tables v := by
  cases v with
  | obj fields =>
    have hobj : (Json.obj fields).IsObject := ⟨fields, rfl⟩
    rw [readEntry, EntryReadable, forall_prop_of_true hobj]
    by_cases hpath : Unusable (pathOf tables (.obj fields))
    · rw [if_pos hpath]
      exact iff_of_true rfl fun h => absurd hpath h
    · rw [if_neg hpath, forall_prop_of_true hpath, isOk_bind_of_forall fun _ => rfl, rawOffsets,
        isOk_iter_iff]
  | _ => exact iff_of_true rfl fun ⟨_, h⟩ => by cases h

theorem isOk_workOrder_iff {order : Json} : (workOrder tables order).isOk = true ↔
    ∀ raw ∈ (order.field "binaries").listed, EntryReadable tables raw := by
  rw [workOrder, isOk_bind_of_forall fun _ => rfl, isOk_mapM]
  simp only [isOk_readEntry_iff]

/-- The entries are in the order of their paths. -/
theorem pairwise_workOrder {order : Json} {entries : List (String × List ℤ)}
    (h : workOrder tables order = .ok entries) : entries.Pairwise fun a b => a.1 ≤ b.1 := by
  obtain ⟨read, -, h⟩ := bind_eq_ok.mp h
  rw [← Except.ok.inj h]
  refine (pairwise_sortBy _ _).imp fun {a b} hle => ?_
  obtain hlt | ⟨heq, -⟩ := Prod.Lex.toLex_le_toLex.mp hle
  · exact le_of_lt hlt
  · exact le_of_eq heq

/-! ## The whole run -/

section Run

variable {order : Json} {entries : List (String × List ℤ)} {binaries : List BinaryResult}

/-- The document of a run that ends. -/
def documentOf (tables : Tables) (around : Surroundings) (binaries : List BinaryResult) : Json :=
  resultToJson tables (resultOf around binaries)

theorem main_eq_ok_iff {document : Json} :
    main tables args around (.document order) = .ok (0, some document) ↔
      ∃ entries binaries, workOrder tables order = .ok entries ∧
        binariesOf tables args around entries = .ok binaries ∧
          document = documentOf tables around binaries := by
  rw [main_eq, bind_eq_ok]
  refine exists_congr fun entries => ?_
  constructor
  · rintro ⟨hentries, h⟩
    obtain ⟨binaries, hbinaries, h⟩ := bind_eq_ok.mp h
    have hdocument := (Option.some.inj (Prod.mk.inj (Except.ok.inj h)).2).symm
    exact ⟨binaries, hentries, hbinaries, hdocument⟩
  · rintro ⟨binaries, hentries, hbinaries, rfl⟩
    exact ⟨hentries, bind_eq_ok.mpr ⟨binaries, hbinaries, rfl⟩⟩

theorem entryAt_documentOf (hsorted : sortBy BinaryResult.path binaries = binaries) (i : ℕ) :
    entryAt (documentOf tables around binaries) i = binaries[i]?.map (binaryToJson tables) := by
  have hfield : (documentOf tables around binaries).field "binaries"
      = .arr ((sortBy BinaryResult.path binaries).map (binaryToJson tables)) := rfl
  rw [entryAt, hfield, hsorted]
  exact List.getElem?_map

theorem covers_documentOf (hsorted : entries.Pairwise fun a b => a.1 ≤ b.1)
    (h : binariesOf tables args around entries = .ok binaries) :
    Covers tables entries (documentOf tables around binaries) := by
  have hfield : (documentOf tables around binaries).field "binaries"
      = .arr ((sortBy BinaryResult.path binaries).map (binaryToJson tables)) := rfl
  have htruncated : (documentOf tables around binaries).field "truncated"
      = .bool (binaries.any fun binary => binary.status == "skipped") := rfl
  refine ⟨binaries, by rw [hfield, sortBy_path hsorted h], forall₂_path h, ?_⟩
  rw [htruncated]
  congr 1
  rw [Bool.eq_iff_iff, List.any_eq_true, decide_eq_true_iff]
  simp only [beq_iff_eq]

/-- A binary whose output is not looked at leaves the others as they are, whatever it is. -/
theorem binariesOf_withOutput {j : ℕ} {w : Json}
    (h : ∀ hj : j < entries.length, ¬IsRead args around j entries[j].1) :
    binariesOf tables args (around.withOutput j w) entries
      = binariesOf tables args around entries := by
  refine mapM_congr fun ⟨entry, i⟩ hmem => ?_
  obtain ⟨hi, rfl⟩ := List.getElem?_eq_some_iff.mp (List.mk_mem_zipIdx_iff_getElem?.mp hmem)
  refine binaryOf_withOutput ?_
  by_cases hji : j = i
  · obtain rfl := hji
    exact Or.inr (h hi)
  · exact Or.inl hji

end Run

/-! ## The claim, exactly -/

/-- A run in which one binary's output costs only that binary. -/
structure Isolated (tables : Tables) (args : Args) (around : Surroundings) (order : Json) :
    Prop where
  readable : ∀ raw ∈ (order.field "binaries").listed, EntryReadable tables raw
  harmless : ∀ entries, workOrder tables order = .ok entries →
    ∀ i (hi : i < entries.length), Harmless tables args around i entries[i].1
  alone : ∀ entries, workOrder tables order = .ok entries → Alone args around entries

/-- The tables, as far as ASCII goes. -/
def asciiTables : Tables where
  intOf _ := none
  floatOf _ := none
  unicode := Unicode.ascii
  lineEnd c := c = '\n'
  seconds _ := "0"
  round3 q := q
  repr _ := "0.0"

/-- Two staged binaries. -/
def twoBinaries : Json :=
  .obj [("binaries", .arr [
    .obj [("path", .str "bin/a.exe"), ("offsets", .arr [.int 4096])],
    .obj [("path", .str "bin/b.exe"), ("offsets", .arr [.int 512])]])]

/-- The first one's post-script writes an empty document, the second one's a list. -/
def oddRun : Surroundings where
  start := 0
  now _ := 0
  isFile _ := .ok true
  outcome _ := { exitCode := some 0, output := "" }
  output i := .document (if i = 0 then .obj [] else .arr [])
  durationS _ := 1

end BareAnalysis.GhidraAnalyzer
