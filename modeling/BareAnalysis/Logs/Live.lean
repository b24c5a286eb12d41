import BareAnalysis.Logs.Redact
import Mathlib.Data.List.TakeWhile

/-!
# Logs/Live — the log of a stage, while it runs and when it has ended

    raw ──decode──▸ text ──hold back the last line──▸ · ──redact──▸ · ──cap──▸ section

`render_stage_log` of `core/pipeline/logs.py`.  Lines are redacted apart from each other once the
values are given; but the values are those of the whole stream, so what a line shows depends on the
lines after it.
-/

namespace BareAnalysis

/-- `MAX_STORED_LOG_BYTES`. -/
def maxStoredLogBytes : ℕ := 256 * 1024

/-- `_DRIVER_TRUNCATION_MARKER`. -/
def driverTruncationMarker : List Char := "[bare: log truncated]\n".toList

/-- `_STORED_TRUNCATION_NOTE`. -/
def storedTruncationNote : List Char := "\n[bare: stored log truncated]\n".toList

inductive LogStream
  | stdout
  | stderr
  deriving DecidableEq, Repr

def LogStream.name : LogStream → List Char
  | stdout => "stdout".toList
  | stderr => "stderr".toList

/-- `_HEADLINE`. -/
def LogStream.headline (stream : LogStream) : List Char :=
  "--- ".toList ++ stream.name ++ " ---\n".toList

/-- `raw.decode("utf-8", "replace")`. -/
def decodeLog (raw : Bytes) : List Char := Utf8.decode ['\uFFFD'] raw

/-- `text[: text.rfind("\n") + 1]`. -/
def finishedLines (text : List Char) : List Char := rstrip (fun c => decide (c ≠ '\n')) text

/-- `_drop_partial_line`. -/
def dropPartialLine (text : List Char) : List Char :=
  finishedLines (if ['\n'] <:+ text then text.dropLast else text)

/-- What of a stream is redacted, and whether the driver cut it. -/
def readStream (live : Bool) (raw : Bytes) : List Char × Bool :=
  let text := decodeLog raw
  if driverTruncationMarker <:+ text then
    (dropPartialLine (text.take (text.length - driverTruncationMarker.length))
      ++ driverTruncationMarker, true)
  else (if live then finishedLines text else text, false)

/-- A redacted text cut to fit, and whether it was. -/
def capText (text : List Char) : List Char × Bool :=
  let encoded := Utf8.encode text
  if maxStoredLogBytes < encoded.length then
    (Utf8.decode [] (encoded.take maxStoredLogBytes) ++ storedTruncationNote, true)
  else (text, false)

/-- The section of a stream. -/
structure LogSection where
  text : List Char
  truncated : Bool

section Render

variable (interp : Interpreter) (pack : ScanPack) (live : Bool)

def logSection (stream : LogStream) (raw : Bytes) : LogSection :=
  let read := readStream live raw
  let stored := capText (redactLogText interp pack read.1)
  ⟨stream.headline ++ stored.1, read.2 || stored.2⟩

/-- `render_stage_log`. -/
def renderStageLog (stdout stderr : Bytes) : List Char × Bool :=
  let sections := [logSection interp pack live .stdout stdout,
    logSection interp pack live .stderr stderr]
  (['\n'].intercalate (sections.map (·.text)), sections.any (·.truncated))

end Render

variable {interp : Interpreter} {pack : ScanPack} {live : Bool} {stream : LogStream} {raw : Bytes}

/-- **A section is whole** if no driver's marker ends the stream and what is kept fits. -/
theorem truncated_logSection :
    (logSection interp pack live stream raw).truncated = false ↔
      ¬driverTruncationMarker <:+ decodeLog raw ∧
        (Utf8.encode (redactLogText interp pack (readStream live raw).1)).length
          ≤ maxStoredLogBytes := by
  rw [logSection, Bool.or_eq_false_iff, ← not_lt]
  refine and_congr ?_ ?_
  · rw [readStream]
    split <;> simp [*]
  · rw [capText]
    split <;> simp [*]

/-- …and then it is the redacted text. -/
theorem text_logSection (h : (logSection interp pack live stream raw).truncated = false) :
    (logSection interp pack live stream raw).text = stream.headline
      ++ redactLogText interp pack
        (if live then finishedLines (decodeLog raw) else decodeLog raw) := by
  obtain ⟨hmarker, hfits⟩ := truncated_logSection.mp h
  have hread : (readStream live raw).1
      = if live then finishedLines (decodeLog raw) else decodeLog raw := by
    rw [readStream, if_neg hmarker]
  rw [hread] at hfits
  rw [logSection, hread, capText, if_neg (not_lt.mpr hfits)]

/-! ## Finished lines -/

theorem finishedLines_of_not_mem {text : List Char} (h : '\n' ∉ text) : finishedLines text = [] := by
  rw [finishedLines, rstrip, List.reverse_eq_nil_iff, List.dropWhile_eq_nil_iff]
  intro c hc
  exact decide_eq_true fun heq => h (heq ▸ List.mem_reverse.mp hc)

theorem finishedLines_append {b : List Char} (h : '\n' ∉ b) (a : List Char) :
    finishedLines (a ++ '\n' :: b) = a ++ ['\n'] := by
  have hb : ∀ c ∈ b.reverse, decide (c ≠ '\n') = true := fun c hc =>
    decide_eq_true fun heq => h (heq ▸ List.mem_reverse.mp hc)
  rw [finishedLines, rstrip, List.reverse_append, List.reverse_cons, List.append_assoc,
    List.dropWhile_append_of_pos hb]
  rw [List.singleton_append, List.dropWhile_cons_of_neg (by simp), List.reverse_cons,
    List.reverse_reverse]

theorem decodeLog_append_newline (p q : Bytes) :
    decodeLog (p ++ newline :: q) = decodeLog p ++ '\n' :: decodeLog q :=
  Utf8.decode_append_ascii (by decide) p q

/-- **Finished lines stay as they are** when more is printed, wherever a stream was cut. -/
theorem finishedLines_decodeLog {raw₁ raw₂ : Bytes} (h : raw₁ <+: raw₂) :
    finishedLines (decodeLog raw₁) = [] ∨ ∃ lines rest,
      finishedLines (decodeLog raw₁) = lines ++ ['\n'] ∧ decodeLog raw₂ = lines ++ '\n' :: rest := by
  obtain ⟨more, rfl⟩ := h
  have hclear : ∀ {data : Bytes}, newline ∉ data → '\n' ∉ decodeLog data := fun hdata =>
    Utf8.not_mem_decode (by decide) (by decide) (by decide) fun b hb heq =>
      hdata ((UInt8.toNat_inj.mp heq : b = newline) ▸ hb)
  by_cases hline : newline ∈ raw₁
  · -- The last newline of what was printed so far.
    obtain ⟨q, p, hrev, hq⟩ := List.eq_append_cons_of_mem (List.mem_reverse.mpr hline)
    obtain rfl : raw₁ = p.reverse ++ newline :: q.reverse := by
      rw [← List.reverse_reverse raw₁, hrev, List.reverse_append, List.reverse_cons,
        List.append_assoc, List.singleton_append]
    refine Or.inr ⟨decodeLog p.reverse, decodeLog (q.reverse ++ more), ?_, ?_⟩
    · rw [decodeLog_append_newline,
        finishedLines_append (hclear fun hmem => hq (List.mem_reverse.mp hmem))]
    · rw [List.append_assoc, List.cons_append, decodeLog_append_newline]
  · exact Or.inl (finishedLines_of_not_mem (hclear hline))

/-! ## Lines are masked apart -/

section Lines

variable {values : List (List Char)} {text : List Char}

theorem IsMatchable.newline_not_mem {value : List Char} (h : IsMatchable value) : '\n' ∉ value :=
  fun hmem => by
    obtain hascii | htab := h.2 '\n' hmem
    · exact absurd hascii.1 (by decide)
    · exact absurd htab (by decide)

theorem IsMatchable.newline_not_mem_nulWide {value : List Char} (h : IsMatchable value) :
    '\n' ∉ nulWide value := fun hmem => by
  obtain hmem | hnul := mem_nulWide hmem
  · exact h.newline_not_mem hmem
  · exact absurd hnul (by decide)

/-- A mask shows nothing but its value and the glyph. -/
theorem mem_mask {value : List Char} {c : Char} (h : c ∈ mask value) : c ∈ value ∨ c = bullet := by
  rw [mask, List.mem_append, List.mem_append] at h
  obtain (h | h) | h := h
  · rw [keptPrefix] at h
    split at h
    · cases h
    · exact Or.inl (List.mem_of_mem_take h)
  · exact Or.inr (List.eq_of_mem_replicate h)
  · rw [keptSuffix] at h
    split at h
    · cases h
    · exact Or.inl (List.mem_of_mem_drop h)

theorem IsMatchable.newline_not_mem_mask {value : List Char} (h : IsMatchable value) :
    '\n' ∉ mask value := fun hmem => by
  obtain hmem | hbullet := mem_mask hmem
  · exact h.newline_not_mem hmem
  · exact absurd hbullet (by decide)

/-- Masking a value goes line by line… -/
theorem maskValue_append_newline {value : List Char} (h : IsMatchable value) (a b : List Char) :
    maskValue (a ++ '\n' :: b) value = maskValue a value ++ '\n' :: maskValue b value := by
  rw [maskValue, replace_append_cons h.1 _ h.newline_not_mem,
    replace_append_cons (nulWide_ne_nil h.1) _ h.newline_not_mem_nulWide]
  rfl

theorem newline_not_mem_maskValue {value : List Char} (h : IsMatchable value) (htext : '\n' ∉ text) :
    '\n' ∉ maskValue text value := fun hmem => by
  obtain hmem | hmask := mem_replace (nulWide_ne_nil h.1) hmem
  · obtain hmem | hmask := mem_replace h.1 hmem
    · exact htext hmem
    · exact h.newline_not_mem_mask hmask
  · exact h.newline_not_mem_mask hmask

/-- …and so does masking them all. -/
theorem maskValues_append_newline (hvalues : ∀ value ∈ values, IsMatchable value)
    (a b : List Char) :
    maskValues values (a ++ '\n' :: b)
      = maskValues values a ++ '\n' :: maskValues values b := by
  induction values generalizing a b with
  | nil => rfl
  | cons value values ih =>
    simp only [maskValues, List.foldl_cons] at ih ⊢
    rw [maskValue_append_newline (hvalues value List.mem_cons_self)]
    exact ih (fun v hv => hvalues v (List.mem_cons_of_mem value hv)) _ _

theorem newline_not_mem_maskValues (hvalues : ∀ value ∈ values, IsMatchable value)
    (htext : '\n' ∉ text) : '\n' ∉ maskValues values text := by
  induction values generalizing text with
  | nil => exact htext
  | cons value values ih =>
    exact ih (fun v hv => hvalues v (List.mem_cons_of_mem value hv))
      (newline_not_mem_maskValue (hvalues value List.mem_cons_self) htext)

/-- **The lines of a masked text** are the masked lines. -/
theorem splitOn_maskValues (hvalues : ∀ value ∈ values, IsMatchable value) (text : List Char) :
    (maskValues values text).splitOn '\n' = (text.splitOn '\n').map (maskValues values) := by
  by_cases hline : '\n' ∈ text
  · obtain ⟨a, b, htext, ha⟩ := List.eq_append_cons_of_mem hline
    have hlen : b.length < text.length := by
      rw [htext, List.length_append, List.length_cons]
      omega
    rw [htext, maskValues_append_newline hvalues, List.splitOn_append_cons_self,
      List.splitOn_append_cons_self, List.map_append, splitOn_maskValues hvalues b,
      List.splitOn_eq_singleton ha, List.map_singleton,
      List.splitOn_eq_singleton (newline_not_mem_maskValues hvalues ha)]
  · rw [List.splitOn_eq_singleton hline, List.map_singleton,
      List.splitOn_eq_singleton (newline_not_mem_maskValues hvalues hline)]
termination_by text.length

/-- **A masked text starts with masked lines** that other values were masked in exactly when both
mask each of these lines alike. -/
theorem maskValues_prefix_iff {values' : List (List Char)}
    (hvalues : ∀ value ∈ values, IsMatchable value)
    (hvalues' : ∀ value ∈ values', IsMatchable value) (lines rest : List Char) :
    maskValues values (lines ++ ['\n']) <+: maskValues values' (lines ++ '\n' :: rest) ↔
      ∀ line ∈ (lines ++ ['\n']).splitOn '\n', maskValues values line = maskValues values' line := by
  have hlines : (∀ line ∈ (lines ++ ['\n']).splitOn '\n',
      maskValues values line = maskValues values' line) ↔
        (maskValues values lines).splitOn '\n' = (maskValues values' lines).splitOn '\n' := by
    rw [splitOn_maskValues hvalues, splitOn_maskValues hvalues', List.map_inj_left,
      List.splitOn_append_cons_self]
    refine ⟨fun h line hline => h line (List.mem_append_left _ hline), fun h line hline => ?_⟩
    obtain hline | hline := List.mem_append.mp hline
    · exact h line hline
    · obtain rfl : line = [] := List.mem_singleton.mp hline
      rw [maskValues_nil hvalues, maskValues_nil hvalues']
  rw [hlines, maskValues_append_newline hvalues, maskValues_append_newline hvalues']
  constructor
  · rintro ⟨more, hmore⟩
    have hsplit := congrArg (List.splitOn '\n') hmore
    rw [List.append_assoc, List.cons_append, List.splitOn_append_cons_self,
      List.splitOn_append_cons_self] at hsplit
    refine List.append_inj_left hsplit ?_
    rw [splitOn_maskValues hvalues, splitOn_maskValues hvalues', List.length_map, List.length_map]
  · intro heq
    have htext : maskValues values lines = maskValues values' lines := by
      have hjoin := congrArg (['\n'].intercalate) heq
      rwa [List.intercalate_splitOn, List.intercalate_splitOn] at hjoin
    rw [htext, maskValues_nil hvalues]
    exact ⟨maskValues values' rest, by rw [List.append_assoc, List.singleton_append]⟩

end Lines

/-! ## A snapshot and the retained log -/

/-- A section goes on from an earlier one, which ends with a line. -/
def GoesOnFrom (earlier later : List Char) : Prop := earlier <+: later ∧ ['\n'] <:+ earlier

instance (earlier later : List Char) : Decidable (GoesOnFrom earlier later) :=
  inferInstanceAs (Decidable (_ ∧ _))

/-- One stream. -/
theorem goesOnFrom_logSection_iff {raw₁ raw₂ : Bytes} (h : raw₁ <+: raw₂)
    (hlive : (logSection interp pack true stream raw₁).truncated = false)
    (hretained : (logSection interp pack false stream raw₂).truncated = false) :
    GoesOnFrom (logSection interp pack true stream raw₁).text
        (logSection interp pack false stream raw₂).text ↔
      ∀ line ∈ (finishedLines (decodeLog raw₁)).splitOn '\n',
        maskValues (logValues interp pack (finishedLines (decodeLog raw₁))) line
          = maskValues (logValues interp pack (decodeLog raw₂)) line := by
  have hmatch : ∀ text, ∀ value ∈ logValues interp pack text, IsMatchable value :=
    fun _ _ => isMatchable_of_mem_logValues
  rw [text_logSection hlive, text_logSection hretained, if_pos rfl, if_neg Bool.false_ne_true,
    redactLogText_eq, redactLogText_eq, GoesOnFrom, List.prefix_append_right_inj]
  obtain hnone | ⟨lines, rest, hlines, hrest⟩ := finishedLines_decodeLog h
  · have hheadline : ['\n'] <:+ stream.headline := by cases stream <;> decide
    rw [hnone, maskValues_nil (hmatch []), List.append_nil]
    refine iff_of_true ⟨List.nil_prefix, hheadline⟩ fun line hline => ?_
    obtain rfl : line = [] := List.mem_singleton.mp hline
    rw [maskValues_nil (hmatch _), maskValues_nil (hmatch _)]
  · rw [hlines, hrest, ← maskValues_prefix_iff (hmatch _) (hmatch _) lines rest]
    refine and_iff_left ?_
    rw [maskValues_append_newline (hmatch _), maskValues_nil (hmatch _), ← List.append_assoc]
    exact List.suffix_append _ _

/-- **A snapshot has no more lines than the retained log**, whatever is masked in them. -/
theorem length_lines_logSection_le {raw₁ raw₂ : Bytes} (h : raw₁ <+: raw₂)
    (hlive : (logSection interp pack true stream raw₁).truncated = false)
    (hretained : (logSection interp pack false stream raw₂).truncated = false) :
    ((logSection interp pack true stream raw₁).text.splitOn '\n').length
      ≤ ((logSection interp pack false stream raw₂).text.splitOn '\n').length := by
  have hredacted : ∀ text, (redactLogText interp pack text).splitOn '\n'
      = (text.splitOn '\n').map (maskValues (logValues interp pack text)) := fun text => by
    rw [redactLogText_eq, splitOn_maskValues fun _ => isMatchable_of_mem_logValues]
  obtain ⟨front, hheadline⟩ : ∃ front, stream.headline = front ++ ['\n'] :=
    ⟨"--- ".toList ++ stream.name ++ " ---".toList, by cases stream <;> decide⟩
  have hpos : ∀ text : List Char, 1 ≤ (text.splitOn '\n').length := fun text =>
    List.length_pos_iff.mpr (List.splitOn_ne_nil _ _)
  rw [text_logSection hlive, text_logSection hretained, if_pos rfl, if_neg Bool.false_ne_true,
    hheadline, List.append_assoc, List.append_assoc, List.singleton_append, List.singleton_append,
    List.splitOn_append_cons_self, List.splitOn_append_cons_self, List.length_append,
    List.length_append, hredacted, hredacted, List.length_map, List.length_map]
  refine Nat.add_le_add_left ?_ _
  obtain hnone | ⟨lines, rest, hlines, hrest⟩ := finishedLines_decodeLog h
  · rw [hnone]
    exact hpos _
  · rw [hlines, hrest, List.splitOn_append_cons_self, List.splitOn_append_cons_self,
      List.length_append, List.length_append]
    exact Nat.add_le_add_left (hpos rest) _

/-- What a container printed. -/
def printed (stdout stderr : Bytes) : LogStream → Bytes
  | .stdout => stdout
  | .stderr => stderr

/-- A rule that asks for a keyword next to its value. -/
def nearbyPack : ScanPack where
  version := "1"
  rules := [{ literalRule "password" "hunter2-secret" with requiresNearby := ["password"] }]
  hash := ""

end BareAnalysis
