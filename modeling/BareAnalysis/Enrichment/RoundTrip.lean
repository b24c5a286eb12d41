import BareAnalysis.Enrichment.Analyzer
import BareAnalysis.Enrichment.Ghidra
import BareAnalysis.Machinery.JsonPrint

/-!
# Enrichment/RoundTrip — `result.json`, from the container to the host

    GhidraResult ──to_json──▸ · ──dumps──▸ text ──loads──▸ · ──from_json──▸ the same, as written

`sandbox/images/ghidra/analyzer.py` writes and `core/pipeline/ghidra.py` reads, with the two halves of
`core/analyzers/ghidra_result.py`.  The host gets every binary, target and reference back, in the
order of the paths (`fromJson_resultText`), and so resolves a function exactly where the container did
(`get?_xrefFunctions_written`).
-/

namespace BareAnalysis

open GhidraAnalyzer

/-! ## What is written -/

/-- How `result.json` is written. -/
def resultStyle : Style := { indent := some 2, sorted := true }

/-- `result.json`. -/
def resultText (tables : Tables) (result : GhidraResult) : List Char :=
  resultStyle.dumps (resultToJson tables result) ++ ['\n']

/-- `json.loads` of a file's text, and what it raises. -/
def parsedDocument (d : Decoder) (text : List Char) : ResultDocument :=
  match d.loads text with
  | .ok value => .parsed value
  | .error .decode => .unparseable
  | .error (.value message) => .unreadable (.valueError message)
  | .error .recursion => .unreadable (.external "maximum recursion depth exceeded")

/-! ## What is read back -/

/-- A text, or what stands for the empty one. -/
def orText (s default : String) : String := if s = "" then default else s

/-- A site as it is read back: an empty text is absent… -/
def XrefSite.written (site : XrefSite) : XrefSite where
  fromAddress := site.fromAddress
  referenceType := orText site.referenceType "UNKNOWN"
  function := site.function.filter (· != "")
  functionAddress := site.functionAddress.filter (· != "")
  context := site.context.filter (· != "")

/-- …a target… -/
def XrefTarget.written (target : XrefTarget) : XrefTarget where
  fileOffset := target.fileOffset
  address := target.address.filter (· != "")
  found := target.found
  references := target.references.map XrefSite.written

/-- …a binary, to the millisecond… -/
def BinaryResult.written (tables : Tables) (binary : BinaryResult) : BinaryResult where
  path := binary.path
  status := orText binary.status "failed"
  reason := binary.reason.filter (· != "")
  language := binary.language.filter (· != "")
  functionCount := binary.functionCount
  durationS := binary.durationS.map tables.round3
  targets := binary.targets.map XrefTarget.written

/-- …and the document, in the order of the paths. -/
def GhidraResult.written (tables : Tables) (result : GhidraResult) : GhidraResult where
  schemaVersion := result.schemaVersion
  analyzer := orText result.analyzer "ghidra"
  ghidraVersion := orText result.ghidraVersion "unknown"
  binaries := (sortBy BinaryResult.path result.binaries).map (BinaryResult.written tables)
  truncated := result.truncated

/-! ## Field by field -/

section Fields

variable {num : Numerals} {printable : Char → Bool}

theorem Json.field_sortKeys {fields : List (String × Json)}
    (hnd : (fields.map Prod.fst).Nodup) (key : String) :
    (Json.obj fields).sortKeys.field key = ((Json.obj fields).field key).sortKeys := by
  have hget := Json.get?_sortKeys hnd key
  rw [Json.sortKeys, Json.field, hget, Json.field]
  cases Dict.get? fields key <;> rfl

theorem Json.getOrNull_sortKeys {fields : List (String × Json)}
    (hnd : (fields.map Prod.fst).Nodup) (key : String) :
    (Json.obj fields).sortKeys.getOrNull key = .ok ((Json.obj fields).field key).sortKeys := by
  have hobj : (Json.obj fields).sortKeys.IsObject := ⟨_, rfl⟩
  rw [hobj.getOrNull_eq, Json.field_sortKeys hnd]

theorem textOr_str (s default : String) : textOr printable (.str s) default = orText s default := by
  rw [textOr, orText, Json.orElse, Json.truthy]
  by_cases hs : s = ""
  · rw [hs]
    rfl
  · rw [if_neg hs, if_pos (by simpa using hs)]
    rfl

theorem orText_empty (s : String) : orText s "" = s := by
  rw [orText]
  split
  · rename_i hs
    exact hs.symm
  · rfl

theorem optionalStr_ofOption (s : Option String) :
    optionalStr printable (ofOption s).sortKeys = s.filter (· != "") := by
  cases s with
  | none => rfl
  | some s =>
    by_cases hs : s = ""
    · rw [hs]
      rfl
    · rw [Option.filter_some, if_pos (by simpa using hs)]
      exact if_neg hs

theorem toInt_int (n : ℤ) : ((Json.int n).orElse (.int 0)).toInt num = .ok n := by
  rw [Json.orElse]
  split
  · rfl
  · rename_i hn
    have hzero : n = 0 := by simpa [Json.truthy] using hn
    rw [hzero]
    rfl

theorem toFloat_durationToJson (tables : Tables) (q : Option ℚ) :
    ((durationToJson tables q).orElse (.float 0 "0.0")).toFloat num
      = .ok (q.map tables.round3) := by
  cases q with
  | none => rfl
  | some q =>
    rw [durationToJson, Json.orElse]
    split
    · rfl
    · rename_i hq
      have hzero : tables.round3 q = 0 := by simpa [Json.truthy] using hq
      rw [Option.map_some, hzero]
      rfl

/-- **A site is read back.** -/
theorem fromJson_siteToJson (site : XrefSite) :
    XrefSite.fromJson printable (siteToJson site).sortKeys = .ok site.written := by
  have hget : ∀ key, (siteToJson site).sortKeys.getOrNull key
      = .ok ((siteToJson site).field key).sortKeys := Json.getOrNull_sortKeys (by simp)
  have haddress : (siteToJson site).field "from_address" = .str site.fromAddress := rfl
  have htype : (siteToJson site).field "reference_type" = .str site.referenceType := rfl
  have hfunction : (siteToJson site).field "function" = ofOption site.function := rfl
  have hstart : (siteToJson site).field "function_address" = ofOption site.functionAddress := rfl
  have hcontext : (siteToJson site).field "context" = ofOption site.context := rfl
  rw [XrefSite.fromJson]
  simp only [hget, haddress, htype, hfunction, hstart, hcontext, ok_bind, Json.sortKeys,
    textOr_str, orText_empty, optionalStr_ofOption]
  rfl

/-- A list of values, read one by one. -/
theorem mapM_sortItems {α β : Type} {toJson : α → Json} {read : Json → Except PyError β}
    {written : α → β} (h : ∀ a, read (toJson a).sortKeys = .ok (written a)) (as : List α) :
    (Json.arr (Json.sortItems (as.map toJson))).listed.mapM read = .ok (as.map written) := by
  rw [Json.listed, Json.sortItems_eq_map, List.map_map]
  induction as with
  | nil => rfl
  | cons a as ih =>
    rw [List.map_cons, List.mapM_cons, Function.comp, h, ok_bind, ih]
    rfl

/-- **A target is read back.** -/
theorem fromJson_targetToJson (target : XrefTarget) :
    XrefTarget.fromJson num printable (targetToJson target).sortKeys = .ok target.written := by
  have hget : ∀ key, (targetToJson target).sortKeys.getOrNull key
      = .ok ((targetToJson target).field key).sortKeys := Json.getOrNull_sortKeys (by simp)
  have hoffset : (targetToJson target).field "file_offset" = .int target.fileOffset := rfl
  have haddress : (targetToJson target).field "address" = ofOption target.address := rfl
  have hfound : (targetToJson target).field "found" = .bool target.found := rfl
  have hreferences : (targetToJson target).field "references"
      = .arr (target.references.map siteToJson) := rfl
  rw [XrefTarget.fromJson]
  simp only [hget, hoffset, haddress, hfound, hreferences, ok_bind,
    mapM_sortItems fromJson_siteToJson, Json.sortKeys, toInt_int, optionalStr_ofOption]
  rfl

/-- **A binary is read back**, its duration as it was rounded. -/
theorem fromJson_binaryToJson (tables : Tables) (binary : BinaryResult) :
    BinaryResult.fromJson num printable (binaryToJson tables binary).sortKeys
      = .ok (binary.written tables) := by
  have hget : ∀ key, (binaryToJson tables binary).sortKeys.getOrNull key
      = .ok ((binaryToJson tables binary).field key).sortKeys := Json.getOrNull_sortKeys (by simp)
  have hpath : (binaryToJson tables binary).field "path" = .str binary.path := rfl
  have hstatus : (binaryToJson tables binary).field "status" = .str binary.status := rfl
  have hreason : (binaryToJson tables binary).field "reason" = ofOption binary.reason := rfl
  have hlanguage : (binaryToJson tables binary).field "language" = ofOption binary.language := rfl
  have hcount : (binaryToJson tables binary).field "function_count"
      = .int binary.functionCount := rfl
  have hduration : (binaryToJson tables binary).field "duration_s"
      = durationToJson tables binary.durationS := rfl
  have htargets : (binaryToJson tables binary).field "targets"
      = .arr (binary.targets.map targetToJson) := rfl
  have hsorted : (durationToJson tables binary.durationS).sortKeys
      = durationToJson tables binary.durationS := by
    cases binary.durationS <;> rfl
  rw [BinaryResult.fromJson]
  simp only [hget, hpath, hstatus, hreason, hlanguage, hcount, hduration, htargets, ok_bind,
    mapM_sortItems fromJson_targetToJson, hsorted, toFloat_durationToJson, Json.sortKeys, toInt_int,
    optionalStr_ofOption, textOr_str, orText_empty]
  rfl

/-- **A result is read back.** -/
theorem fromJson_resultToJson (tables : Tables) (result : GhidraResult) :
    GhidraResult.fromJson num printable (resultToJson tables result).sortKeys
      = .ok (result.written tables) := by
  have hget : ∀ key, (resultToJson tables result).sortKeys.getOrNull key
      = .ok ((resultToJson tables result).field key).sortKeys := Json.getOrNull_sortKeys (by simp)
  have hschema : (resultToJson tables result).field "schema_version"
      = .int result.schemaVersion := rfl
  have hanalyzer : (resultToJson tables result).field "analyzer" = .str result.analyzer := rfl
  have hversion : (resultToJson tables result).field "ghidra_version"
      = .str result.ghidraVersion := rfl
  have htruncated : (resultToJson tables result).field "truncated"
      = .bool result.truncated := rfl
  have htools : (resultToJson tables result).field "tool_versions"
      = .obj [("ghidra", .str result.ghidraVersion)] := rfl
  have hbinaries : (resultToJson tables result).field "binaries"
      = .arr ((sortBy BinaryResult.path result.binaries).map (binaryToJson tables)) := rfl
  have htool : ((Json.obj (sortBy Prod.fst (Json.sortFields
      [("ghidra", .str result.ghidraVersion)]))).orElse (.obj [])).getOrNull "ghidra" = .ok (.str result.ghidraVersion) := rfl
  have horElse : ∀ s, (Json.str s).orElse (.str s) = .str s := fun s => ite_self _
  rw [GhidraResult.fromJson]
  simp only [hget, hschema, hanalyzer, hversion, htruncated, htools, hbinaries, ok_bind, htool,
    mapM_sortItems (fromJson_binaryToJson tables), Json.sortKeys, toInt_int, textOr_str, horElse]
  rfl

end Fields

/-! ## The text -/

/-- The numbers of a result can be written and read: integers have not too many digits, and the text
of a rounded duration stands for it. -/
structure GhidraResult.Writable (d : Decoder) (tables : Tables) (result : GhidraResult) : Prop where
  schemaVersion : (Nat.toDigits 10 result.schemaVersion.natAbs).length ≤ d.maxDigits
  functionCount : ∀ b ∈ result.binaries,
    (Nat.toDigits 10 b.functionCount.natAbs).length ≤ d.maxDigits
  fileOffset : ∀ b ∈ result.binaries, ∀ t ∈ b.targets,
    (Nat.toDigits 10 t.fileOffset.natAbs).length ≤ d.maxDigits
  durationS : ∀ b ∈ result.binaries, ∀ q, b.durationS = some q →
    d.ReadsFloat (tables.round3 q) (tables.repr (tables.round3 q))

section Text

variable {d : Decoder} {tables : Tables} {result : GhidraResult}

theorem printable_ofOption (levels : ℕ) (s : Option String) : d.Printable levels (ofOption s) := by
  cases s with
  | none => exact .null
  | some s => exact .str s

theorem printable_siteToJson (levels : ℕ) (site : XrefSite) :
    d.Printable (levels + 1) (siteToJson site) := by
  refine .obj fun field hfield => ?_
  simp only [List.mem_cons, List.not_mem_nil, or_false] at hfield
  obtain rfl | rfl | rfl | rfl | rfl := hfield
  · exact .str _
  · exact .str _
  · exact printable_ofOption _ _
  · exact printable_ofOption _ _
  · exact printable_ofOption _ _

theorem printable_targetToJson (levels : ℕ) {target : XrefTarget}
    (h : (Nat.toDigits 10 target.fileOffset.natAbs).length ≤ d.maxDigits) :
    d.Printable (levels + 3) (targetToJson target) := by
  refine .obj fun field hfield => ?_
  simp only [List.mem_cons, List.not_mem_nil, or_false] at hfield
  obtain rfl | rfl | rfl | rfl := hfield
  · exact .int h
  · exact printable_ofOption _ _
  · exact .bool _
  · refine .arr fun v hv => ?_
    obtain ⟨site, -, rfl⟩ := List.mem_map.mp hv
    exact printable_siteToJson levels site

theorem printable_binaryToJson (levels : ℕ) (h : result.Writable d tables) {binary : BinaryResult}
    (hbinary : binary ∈ result.binaries) :
    d.Printable (levels + 5) (binaryToJson tables binary) := by
  refine .obj fun field hfield => ?_
  simp only [List.mem_cons, List.not_mem_nil, or_false] at hfield
  obtain rfl | rfl | rfl | rfl | rfl | rfl | rfl := hfield
  · exact .str _
  · exact .str _
  · exact printable_ofOption _ _
  · exact printable_ofOption _ _
  · exact .int (h.functionCount binary hbinary)
  · cases hq : binary.durationS with
    | none => exact .nonFinite List.mem_cons_self
    | some q => exact .float (h.durationS binary hbinary q hq)
  · refine .arr fun v hv => ?_
    obtain ⟨target, htarget, rfl⟩ := List.mem_map.mp hv
    exact printable_targetToJson levels (h.fileOffset binary hbinary target htarget)

theorem printable_resultToJson (levels : ℕ) (h : result.Writable d tables) :
    d.Printable (levels + 7) (resultToJson tables result) := by
  refine .obj fun field hfield => ?_
  simp only [List.mem_cons, List.not_mem_nil, or_false] at hfield
  obtain rfl | rfl | rfl | rfl | rfl | rfl := hfield
  · exact .int h.schemaVersion
  · exact .str _
  · exact .str _
  · exact .bool _
  · refine .obj fun field hfield => ?_
    obtain rfl := List.mem_singleton.mp hfield
    exact .str _
  · refine .arr fun v hv => ?_
    obtain ⟨binary, hbinary, rfl⟩ := List.mem_map.mp hv
    exact printable_binaryToJson levels h (mem_sortBy.mp hbinary)

/-- The host parses what the container wrote. -/
theorem parsedDocument_resultText (hlevels : 7 ≤ d.levels) (h : result.Writable d tables) :
    parsedDocument d (resultText tables result) = .parsed (resultToJson tables result).sortKeys := by
  obtain ⟨levels, hlevels⟩ : ∃ n, d.levels = n + 7 := ⟨d.levels - 7, by omega⟩
  have hloads : d.loads (resultText tables result) = .ok (resultToJson tables result).sortKeys :=
    d.loads_dumps resultStyle (hlevels ▸ printable_resultToJson levels h) fun c hc => by
      rw [List.mem_singleton.mp hc]
      rfl
  rw [parsedDocument, hloads]

end Text

/-! ## What the host makes of it -/

section Host

variable (tables : Tables)

theorem XrefTarget.bestFunction_written (target : XrefTarget) :
    target.written.bestFunction = target.bestFunction := by
  rw [bestFunction, bestFunction, written]
  induction target.references with
  | nil => rfl
  | cons site sites ih =>
    rw [List.map_cons, List.filterMap_cons, List.filterMap_cons]
    cases hname : site.function with
    | none =>
      have hwritten : site.written.function = none := by rw [XrefSite.written, hname]; rfl
      rw [hwritten]
      exact ih
    | some name =>
      have hwritten : site.written.function = (some name).filter (· != "") := by
        rw [XrefSite.written, hname]
      rw [hwritten]
      by_cases hempty : name = ""
      · subst hempty
        exact ih
      · have hne : (name != "") = true := by simpa using hempty
        simp only [Option.filter_some, if_pos hne]
        rw [List.find?_cons, List.find?_cons]
        simp only [hne]

/-- Only the assignments to some keys count for one of them. -/
theorem Dict.get?_filter {κ β : Type*} [DecidableEq κ] (d : Dict κ β) (p : κ → Bool) {key : κ}
    (h : p key = true) : Dict.get? (d.filter fun kv => p kv.1) key = Dict.get? d key := by
  rw [Dict.get?, Dict.get?, ← List.filter_reverse, List.find?_filter]
  congr 2
  funext kv
  by_cases hkey : kv.1 = key
  · simp [hkey, h]
  · simp [hkey]

/-- Of the binaries, those of a path alone say what is assigned to its offsets. -/
theorem get?_flatMap_path {f : BinaryResult → Dict (String × ℤ) String}
    (hf : ∀ b, ∀ kv ∈ f b, kv.1.1 = b.path) (binaries : List BinaryResult) (key : String × ℤ) :
    Dict.get? (binaries.flatMap f) key
      = Dict.get? ((binaries.filter fun b => b.path == key.1).flatMap f) key := by
  have hfilter : (binaries.flatMap f).filter (fun kv => kv.1.1 == key.1)
      = (binaries.filter fun b => b.path == key.1).flatMap f := by
    induction binaries with
    | nil => rfl
    | cons b binaries ih =>
      rw [List.flatMap_cons, List.filter_append, ih]
      by_cases hb : b.path = key.1
      · rw [List.filter_cons_of_pos (by simpa using hb), List.flatMap_cons,
          List.filter_eq_self.mpr fun kv hkv => by simpa [hf b kv hkv] using hb]
      · rw [List.filter_cons_of_neg (by simpa using hb),
          List.filter_eq_nil_iff.mpr fun kv hkv => by simpa [hf b kv hkv] using hb, List.nil_append]
  rw [← hfilter]
  exact (Dict.get?_filter _ (fun k : String × ℤ => k.1 == key.1) (beq_self_eq_true key.1)).symm

/-- **The host resolves a function exactly where the container did**, and to the same one. -/
theorem GhidraResult.get?_xrefFunctions_written (result : GhidraResult) (key : String × ℤ) :
    Dict.get? (result.written tables).xrefFunctions key = Dict.get? result.xrefFunctions key := by
  have hpath : ∀ b : BinaryResult, ∀ kv ∈ b.targets.filterMap fun target =>
      target.bestFunction.map fun name => ((b.path, target.fileOffset), name), kv.1.1 = b.path := by
    intro b kv hkv
    obtain ⟨target, -, htarget⟩ := List.mem_filterMap.mp hkv
    obtain ⟨name, -, rfl⟩ := Option.map_eq_some_iff.mp htarget
    rfl
  have hbinary : ∀ b : BinaryResult, ((b.written tables).targets.filterMap fun target =>
      target.bestFunction.map fun name => (((b.written tables).path, target.fileOffset), name))
      = b.targets.filterMap fun target =>
        target.bestFunction.map fun name => ((b.path, target.fileOffset), name) := by
    intro b
    rw [BinaryResult.written, List.filterMap_map]
    simp only [Function.comp_def, XrefTarget.bestFunction_written]
    rfl
  have hsorted : (sortBy BinaryResult.path result.binaries).filter (fun b => b.path == key.1)
      = result.binaries.filter fun b => b.path == key.1 := by
    rw [filter_sortBy]
    refine sortBy_eq_self (List.pairwise_of_forall_mem_list fun a ha b hb => ?_)
    have hpa : a.path = key.1 := by simpa using (List.mem_filter.mp ha).2
    have hpb : b.path = key.1 := by simpa using (List.mem_filter.mp hb).2
    rw [hpa, hpb]
  rw [xrefFunctions, xrefFunctions, written, List.flatMap_map]
  simp only [hbinary]
  rw [get?_flatMap_path hpath, hsorted]
  exact (get?_flatMap_path hpath _ _).symm

/-- …and gives the stage the status the container's result has. -/
theorem GhidraResult.stageStatus_written (result : GhidraResult) :
    (result.written tables).stageStatus = result.stageStatus := by
  have hstatus : ∀ b : BinaryResult, ((b.written tables).status = "analyzed" ↔ b.status = "analyzed")
      ∧ (b.written tables).degraded = b.degraded := by
    intro b
    by_cases hempty : b.status = ""
    · have hfailed : (b.written tables).status = "failed" := by
        rw [BinaryResult.written, hempty]
        rfl
      rw [BinaryResult.degraded, BinaryResult.degraded, hfailed, hempty]
      decide
    · have hsame : (b.written tables).status = b.status := if_neg hempty
      rw [BinaryResult.degraded, BinaryResult.degraded, hsame]
      exact ⟨Iff.rfl, rfl⟩
  have hmem : ∀ {P : BinaryResult → Prop} {Q : BinaryResult → Prop},
      (∀ b, P (b.written tables) ↔ Q b) →
      ((∀ b ∈ (result.written tables).binaries, P b) ↔ ∀ b ∈ result.binaries, Q b) := by
    intro P Q hPQ
    simp only [written, List.forall_mem_map, mem_sortBy, hPQ]
  have hdegraded : (result.written tables).degradedBinaries ≠ [] ↔ result.degradedBinaries ≠ [] := by
    rw [degradedBinaries, degradedBinaries, Ne, Ne, List.filter_eq_nil_iff, List.filter_eq_nil_iff]
    exact not_congr (hmem fun b => by rw [(hstatus b).2])
  have hnone : (∀ b ∈ (result.written tables).binaries, b.status ≠ "analyzed")
      ↔ ∀ b ∈ result.binaries, b.status ≠ "analyzed" :=
    hmem fun b => not_congr (hstatus b).1
  rw [stageStatus, stageStatus]
  simp only [hdegraded, hnone]
  rfl

end Host

/-- **The result crosses the container's wall**: the host parses the text the container wrote, reads
every binary, target and reference back in the order of the paths, resolves the same functions at the
same offsets, and gives the stage the same status. -/
theorem fromJson_resultText {d : Decoder} {tables : Tables} {result : GhidraResult}
    (hlevels : 7 ≤ d.levels) (h : result.Writable d tables) (num : Numerals)
    (printable : Char → Bool) :
    ∃ document, readResult (parsedDocument d (resultText tables result)) = .ok (some document) ∧
      GhidraResult.fromJson num printable document = .ok (result.written tables) ∧
      (∀ key, Dict.get? (result.written tables).xrefFunctions key
        = Dict.get? result.xrefFunctions key) ∧
      (result.written tables).stageStatus = result.stageStatus := by
  refine ⟨(resultToJson tables result).sortKeys, ?_, fromJson_resultToJson tables result,
    result.get?_xrefFunctions_written tables, result.stageStatus_written tables⟩
  rw [parsedDocument_resultText hlevels h]
  rfl

/-! ## A result on its way -/

/-- A decoder that knows one float. -/
def exactDecoder : Decoder where
  levels := 900
  float text := if text = ['1', '.', '5'] then .float (3 / 2) "1.5" else .null

/-- Tables that write it. -/
def exactTables : Tables where
  intOf _ := none
  floatOf _ := none
  unicode := Unicode.ascii
  lineEnd c := c = '\n'
  seconds _ := "2"
  round3 q := q
  repr _ := "1.5"

/-- Two binaries, the later path first, one with a reference outside of any function. -/
def brokerResult : GhidraResult where
  ghidraVersion := "11.3"
  binaries := [
    { path := "b", functionCount := 2, durationS := some (3 / 2), targets := [
      { fileOffset := 4096, found := true, references := [
        { fromAddress := "0x10", referenceType := "DATA", function := some "" },
        { fromAddress := "0x20", referenceType := "READ", function := some "MQTT_connect" }] }] },
    { path := "a", status := "failed", reason := some "no processor", durationS := none }]

theorem writable_brokerResult : brokerResult.Writable exactDecoder exactTables where
  schemaVersion := by decide
  functionCount b hb := by
    obtain rfl | rfl : b = _ ∨ b = _ := by simpa [brokerResult] using hb
    · decide
    · decide
  fileOffset b hb t ht := by
    obtain rfl | rfl : b = _ ∨ b = _ := by simpa [brokerResult] using hb
    · obtain rfl : t = _ := by simpa using ht
      decide
    · cases ht
  durationS b hb q hq := by
    have hfloat : exactDecoder.ReadsFloat (3 / 2) "1.5" :=
      ⟨[], ['1'], ['.', '5'], by decide, by decide, List.cons_ne_nil _ _, rfl⟩
    obtain rfl | rfl : b = _ ∨ b = _ := by simpa [brokerResult] using hb
    · obtain rfl : 3 / 2 = q := Option.some.inj hq
      exact hfloat
    · cases hq

theorem fromJson_resultText_broker :
    ∃ document, readResult (parsedDocument exactDecoder (resultText exactTables brokerResult))
        = .ok (some document) ∧
      GhidraResult.fromJson exactTables.toNumerals (fun _ => true) document
        = .ok (brokerResult.written exactTables) ∧
      (∀ key, Dict.get? (brokerResult.written exactTables).xrefFunctions key
        = Dict.get? brokerResult.xrefFunctions key) ∧
      (brokerResult.written exactTables).stageStatus = brokerResult.stageStatus :=
  fromJson_resultText (by decide) writable_brokerResult _ _

end BareAnalysis
