import BareAnalysis.Machinery.Cells
import BareAnalysis.Machinery.Sorting
import BareAnalysis.Policy.Wire

/-!
# Cli/GateOutput — a verdict as a build log and as a pull request comment

    verdict ──render_text──▸ lines          one path in brackets behind each violation
    verdict ──render_markdown──▸ lines      one row of five cells for each violation

`cli/gate_output.py` and `Violation.render`.  Fields go into both as they are, so a line break of a
path is a line of the report (`lineCount_renderText`, `lineCount_renderMarkdown`).  Reports keep
their shape just when no field of a violation holds a line break or an unescaped `|`
(`keepsItsShape_iff`).
-/

namespace BareAnalysis

/-! ## The source's functions -/

/-- `f"{text:8}"`: padded with blanks on the right. -/
def padEight (text : String) : String :=
  text ++ String.ofList (List.replicate (8 - text.length) ' ')

/-- `Violation.render`. -/
def Violation.render (v : Violation) : String :=
  let pre := match v.severity with
    | some severity => padEight severity.value.toUpper
    | none => "SCAN    "
  let place := if v.artifactPath = "" then "" else " [" ++ v.artifactPath ++ "]"
  let subject := if v.title = "" then v.detail else v.title
  pre ++ " " ++ subject ++ place

namespace GateOutput

/-- `_RULE`. -/
def rule : String := String.ofList (List.replicate 72 '-')

/-- `_rank`. -/
def rank (severity : String) : ℕ :=
  (List.lookup severity
    [("critical", 0), ("high", 1), ("medium", 2), ("low", 3), ("info", 4)]).getD 9

/-- `_next_step`. -/
def nextStep (verdict : GateVerdict) : String :=
  match verdict.decision with
  | .pass => "Release may proceed."
  | .inconclusive =>
    "The scan did not complete, so this artifact was not fully examined. "
      ++ "Re-run the scan; if it degrades again, raise the analyzer limits "
      ++ "rather than lowering the gate."
  | .blocked =>
    "Remove the value from the artifact and rotate it if it is live. "
      ++ "If it is genuinely benign, waive it for a limited time: "
      ++ "bare waive <finding-id> --reason ... --owner ... --expires 30d"

/-- The line of the counts. -/
def findingsLine (verdict : GateVerdict) : String :=
  if verdict.countsBySeverity = [] then "  findings : none"
  else
    "  findings : "
      ++ ", ".intercalate ((sortBy (fun kv => rank kv.1) verdict.countsBySeverity).map fun kv =>
        toString kv.2 ++ " " ++ kv.1)
      ++ "  (" ++ toString (verdict.newCountsBySeverity.map Prod.snd).sum ++ " new in this build)"

/-- The two lines of a violation. -/
def violationLines (v : Violation) : List String :=
  ["    " ++ v.render,
    if v.findingId = "" then "             " ++ v.detail
    else "             " ++ v.detail ++ "  [" ++ v.findingId ++ "]"]

/-- The lines up to the violations. -/
def linesAbove (verdict : GateVerdict) (artifact runUrl : String) : List String :=
  [rule, "  BARE RELEASE GATE — " ++ verdict.decision.value.toUpper, rule]
    ++ (if artifact = "" then [] else ["  artifact : " ++ artifact])
    ++ ["  policy   : " ++ verdict.policyName]
    ++ (if runUrl = "" then [] else ["  report   : " ++ runUrl])
    ++ [findingsLine verdict, ""]

/-- The lines behind them. -/
def linesBelow (verdict : GateVerdict) : List String :=
  (if verdict.waived = [] then []
    else ["  WAIVED (" ++ toString verdict.waived.length ++ "):"]
      ++ (verdict.waived.map fun w =>
        "    " ++ padEight w.severity.value ++ " " ++ w.title ++ " — " ++ w.owner ++ ", expires "
          ++ w.expires.isoformat)
      ++ [""])
    ++ (if verdict.inherited = [] then []
      else ["  INHERITED (" ++ toString verdict.inherited.length
        ++ "): present in the baseline, still shipped, not introduced by this build", ""])
    ++ verdict.warnings.map ("  warning: " ++ ·)
    ++ (if verdict.warnings = [] then [] else [""])
    ++ ["  " ++ nextStep verdict, rule]

/-- The lines of the violations. -/
def linesOf (violations : List Violation) : List String :=
  if violations = [] then []
  else ["  BLOCKING (" ++ toString violations.length ++ "):"]
    ++ violations.flatMap violationLines ++ [""]

/-- `render_text`. -/
def renderText (verdict : GateVerdict) (artifact runUrl : String) : String :=
  "\n".intercalate
    (linesAbove verdict artifact runUrl ++ linesOf verdict.violations ++ linesBelow verdict)

/-- The icon of a decision. -/
def icon : GateDecision → String
  | .pass => "✅"
  | .blocked => "🚫"
  | .inconclusive => "⚠️"

/-- `text or '—'`. -/
def orDash (text : String) : String := if text = "" then "—" else text

/-- The row of a violation. -/
def markdownRow (v : Violation) : String :=
  let severity := match v.severity with
    | some severity => severity.value
    | none => "—"
  let finding := if v.findingId = "" then "—" else "`" ++ v.findingId ++ "`"
  "| " ++ severity ++ " | " ++ orDash v.title ++ " | `" ++ orDash v.artifactPath ++ "` | "
    ++ v.detail ++ " | " ++ finding ++ " |"

/-- The lines up to the table. -/
def markdownAbove (verdict : GateVerdict) (artifact runUrl : String) : List String :=
  ["## " ++ icon verdict.decision ++ " BARE release gate — " ++ verdict.decision.value, ""]
    ++ (if artifact = "" then [] else ["**Artifact:** `" ++ artifact ++ "`  "])
    ++ ["**Policy:** `" ++ verdict.policyName ++ "`  "]
    ++ (if runUrl = "" then [] else ["**Full report:** " ++ runUrl ++ "  "])
    ++ [""]

/-- The lines behind it. -/
def markdownBelow (verdict : GateVerdict) : List String :=
  (if verdict.inherited = [] then []
    else ["_" ++ toString verdict.inherited.length ++ " inherited finding(s) are still present in "
      ++ "this artifact but were not introduced by this build._", ""])
    ++ verdict.warnings.map ("> ⚠️ " ++ ·)
    ++ ["", nextStep verdict]

/-- The heading of the table. -/
def tableHeading : List String :=
  ["### Blocking findings", "", "| Severity | Finding | Location | Why | Id |",
    "| --- | --- | --- | --- | --- |"]

/-- The table of the violations. -/
def tableOf (violations : List Violation) : List String :=
  if violations = [] then [] else tableHeading ++ violations.map markdownRow ++ [""]

/-- `render_markdown`. -/
def renderMarkdown (verdict : GateVerdict) (artifact runUrl : String) : String :=
  "\n".intercalate
    (markdownAbove verdict artifact runUrl ++ tableOf verdict.violations ++ markdownBelow verdict)
    ++ "\n"

/-! ## Counting lines and cells -/

/-- What a reader takes for the end of a line: a newline at least, and no character of the fixed
text of a row. -/
structure LineBreaks where
  isBreak : Char → Bool
  newline : isBreak '\n' = true
  dash : isBreak '—' = false
  printable : ∀ c : Char, 0x20 ≤ c.toNat → c.toNat < 0x7f → isBreak c = false

namespace LineBreaks

/-- Only the newline ends a line. -/
def unix : LineBreaks where
  isBreak c := decide (c = '\n')
  newline := by decide
  dash := by decide
  printable c hlow _ := decide_eq_false fun hc => by
    rw [hc] at hlow
    exact absurd hlow (by decide)

variable (b : LineBreaks)

/-- How many line breaks a text holds. -/
def breaks (text : String) : ℕ := text.toList.countP b.isBreak

/-- How many lines it has. -/
def lineCount (text : String) : ℕ := b.breaks text + 1

@[simp] theorem breaks_append (s t : String) : b.breaks (s ++ t) = b.breaks s + b.breaks t := by
  rw [breaks, String.toList_append, List.countP_append]
  rfl

@[simp] theorem breaks_empty : b.breaks "" = 0 := rfl

/-- Printable text stays on its line. -/
theorem breaks_of_printable {text : String}
    (h : text.toList.all fun c => 0x20 ≤ c.toNat ∧ c.toNat < 0x7f) : b.breaks text = 0 :=
  List.countP_eq_zero.mpr fun c hc => by
    have hprintable := of_decide_eq_true (List.all_eq_true.mp h c hc)
    rw [b.printable c hprintable.1 hprintable.2]
    decide

/-- The breaks of joined lines are theirs and one for each joint. -/
theorem breaks_join {lines : List String} (h : lines ≠ []) :
    b.breaks ("\n".intercalate lines) = (lines.map b.breaks).sum + (lines.length - 1) := by
  have hjoint : ("\n".toList).countP b.isBreak = 1 := by
    change [('\n' : Char)].countP b.isBreak = 1
    rw [List.countP_singleton, if_pos b.newline]
  rw [breaks, String.toList_intercalate, countP_intercalate _ (by simpa using h), hjoint,
    List.map_map, List.length_map, Nat.mul_one]
  rfl

end LineBreaks

/-- How many unescaped `|` a text holds. -/
def pipes (text : String) : ℕ := Cells.separators '\\' '|' text.toList

/-- One line that is a table row of five cells between its outer bars. -/
structure IsRow (b : LineBreaks) (line : String) : Prop where
  oneLine : b.breaks line = 0
  opens : ['|', ' '] <+: line.toList
  closes : [' ', '|'] <:+ line.toList
  fiveCells : (Cells.cells '\\' '|' line.toList).length = 5

/-! ## What a path adds -/

/-- A violation without its path. -/
def sansPath (v : Violation) : Violation := { v with artifactPath := "" }

/-- A verdict without the paths of its violations. -/
def sansPaths (verdict : GateVerdict) : GateVerdict :=
  { verdict with violations := verdict.violations.map sansPath }

section Breaks

variable (b : LineBreaks)

theorem render_eq (v : Violation) :
    v.render = (sansPath v).render
      ++ if v.artifactPath = "" then "" else " [" ++ v.artifactPath ++ "]" := by
  simp only [Violation.render, sansPath, if_pos, String.append_empty]
  rfl

/-- **A violation has the lines of its path**, and those it has without one. -/
theorem breaks_render (v : Violation) :
    b.breaks v.render = b.breaks (sansPath v).render + b.breaks v.artifactPath := by
  rw [render_eq v, b.breaks_append]
  by_cases hpath : v.artifactPath = ""
  · rw [if_pos hpath, hpath]
  · have hopen : b.breaks " [" = 0 := b.breaks_of_printable (by decide)
    have hclose : b.breaks "]" = 0 := b.breaks_of_printable (by decide)
    rw [if_neg hpath, b.breaks_append, b.breaks_append, hopen, hclose, Nat.zero_add, Nat.add_zero]

theorem breaks_dash : b.breaks "—" = 0 := by
  change ['—'].countP b.isBreak = 0
  rw [List.countP_singleton, b.dash]
  rfl

theorem breaks_orDash (text : String) : b.breaks (orDash text) = b.breaks text := by
  rw [orDash]
  by_cases htext : text = ""
  · rw [if_pos htext, htext, breaks_dash]
    rfl
  · rw [if_neg htext]

/-- The severity of a row. -/
def severityCell (v : Violation) : String :=
  match v.severity with
  | some severity => severity.value
  | none => "—"

/-- The id of a row. -/
def findingCell (v : Violation) : String :=
  if v.findingId = "" then "—" else "`" ++ v.findingId ++ "`"

theorem markdownRow_eq (v : Violation) :
    markdownRow v = "| " ++ severityCell v ++ " | " ++ orDash v.title ++ " | `"
      ++ orDash v.artifactPath ++ "` | " ++ v.detail ++ " | " ++ findingCell v ++ " |" := rfl

theorem breaks_severityCell (v : Violation) : b.breaks (severityCell v) = 0 := by
  rcases hseverity : v.severity with _ | severity
  · rw [severityCell, hseverity, breaks_dash]
  · rw [severityCell, hseverity]
    exact b.breaks_of_printable (by cases severity <;> decide)

theorem breaks_findingCell (v : Violation) :
    b.breaks (findingCell v) = b.breaks v.findingId := by
  rw [findingCell]
  by_cases hid : v.findingId = ""
  · rw [if_pos hid, hid, breaks_dash]
    rfl
  · have htick : b.breaks "`" = 0 := b.breaks_of_printable (by decide)
    rw [if_neg hid, b.breaks_append, b.breaks_append, htick, Nat.zero_add, Nat.add_zero]

/-- The breaks of a row are those of its fields. -/
theorem breaks_markdownRow (v : Violation) :
    b.breaks (markdownRow v)
      = b.breaks v.title + b.breaks v.artifactPath + b.breaks v.detail + b.breaks v.findingId := by
  have hfirst : b.breaks "| " = 0 := b.breaks_of_printable (by decide)
  have hnext : b.breaks " | " = 0 := b.breaks_of_printable (by decide)
  have hopen : b.breaks " | `" = 0 := b.breaks_of_printable (by decide)
  have hclose : b.breaks "` | " = 0 := b.breaks_of_printable (by decide)
  have hlast : b.breaks " |" = 0 := b.breaks_of_printable (by decide)
  rw [markdownRow_eq]
  simp only [b.breaks_append, breaks_severityCell, breaks_orDash, breaks_findingCell, hfirst, hnext,
    hopen, hclose, hlast]
  omega

theorem toList_markdownRow (v : Violation) :
    (markdownRow v).toList = '|' :: ' ' :: ((severityCell v).toList ++ ' ' :: '|' :: ' ' ::
      ((orDash v.title).toList ++ ' ' :: '|' :: ' ' :: '`' ::
        ((orDash v.artifactPath).toList ++ '`' :: ' ' :: '|' :: ' ' ::
          (v.detail.toList ++ ' ' :: '|' :: ' ' :: ((findingCell v).toList ++ [' ', '|']))))) := by
  rw [markdownRow_eq]
  simp only [String.toList_append]
  have hfirst : ("| " : String).toList = ['|', ' '] := rfl
  have hnext : (" | " : String).toList = [' ', '|', ' '] := rfl
  have hopen : (" | `" : String).toList = [' ', '|', ' ', '`'] := rfl
  have hclose : ("` | " : String).toList = ['`', ' ', '|', ' '] := rfl
  have hlast : (" |" : String).toList = [' ', '|'] := rfl
  rw [hfirst, hnext, hopen, hclose, hlast]
  simp only [List.append_assoc, List.cons_append, List.nil_append]

theorem pipes_severityCell (v : Violation) : pipes (severityCell v) = 0 := by
  rcases hseverity : v.severity with _ | severity
  · rw [severityCell, hseverity]
    decide
  · rw [severityCell, hseverity]
    cases severity <;> decide

theorem pipes_orDash (text : String) : pipes (orDash text) = pipes text := by
  rw [orDash]
  by_cases htext : text = ""
  · rw [if_pos htext, htext]
    decide
  · rw [if_neg htext]

theorem pipes_findingCell (v : Violation) : pipes (findingCell v) = pipes v.findingId := by
  rw [findingCell]
  by_cases hid : v.findingId = ""
  · rw [if_pos hid, hid]
    decide
  · have htick : ("`" : String).toList = ['`'] := rfl
    rw [if_neg hid, pipes, String.toList_append, String.toList_append, htick, List.append_assoc,
      List.singleton_append, Cells.separators_cons (by decide) (by decide),
      Cells.separators_append_cons (by decide) (by decide) (by decide)]
    rfl

/-- …and it has six bars, besides those of its fields. -/
theorem pipes_markdownRow (v : Violation) :
    pipes (markdownRow v)
      = 6 + (pipes v.title + pipes v.artifactPath + pipes v.detail + pipes v.findingId) := by
  have hseverity := pipes_severityCell v
  have htitle := pipes_orDash v.title
  have hpath := pipes_orDash v.artifactPath
  have hfinding := pipes_findingCell v
  have hbar : ∀ line : List Char, Cells.separators '\\' '|' ('|' :: line)
      = Cells.separators '\\' '|' line + 1 := Cells.separators_sep (by decide)
  have hblank : ∀ line : List Char, Cells.separators '\\' '|' (' ' :: line)
      = Cells.separators '\\' '|' line := Cells.separators_cons (by decide) (by decide)
  have htick : ∀ line : List Char, Cells.separators '\\' '|' ('`' :: line)
      = Cells.separators '\\' '|' line := Cells.separators_cons (by decide) (by decide)
  have hafter : ∀ text line : List Char, Cells.separators '\\' '|' (text ++ ' ' :: line)
      = Cells.separators '\\' '|' text + Cells.separators '\\' '|' line :=
    Cells.separators_append_cons (by decide) (by decide) (by decide)
  have hticked : ∀ text line : List Char, Cells.separators '\\' '|' (text ++ '`' :: line)
      = Cells.separators '\\' '|' text + Cells.separators '\\' '|' line :=
    Cells.separators_append_cons (by decide) (by decide) (by decide)
  have hnone : Cells.separators '\\' '|' ([] : List Char) = 0 := rfl
  rw [pipes, toList_markdownRow]
  simp only [hbar, hblank, htick, hafter, hticked, hnone]
  simp only [pipes] at hseverity htitle hpath hfinding ⊢
  rw [hseverity, htitle, hpath, hfinding]
  omega

end Breaks

/-! ## Two verdicts that differ in their paths -/

section Reports

variable (b : LineBreaks) (verdict : GateVerdict) (artifact runUrl : String)

/-- The line breaks in the paths of a verdict. -/
def pathBreaks : ℕ := (verdict.violations.map fun v => b.breaks v.artifactPath).sum

/-- Lines in the middle of a text count for what they hold. -/
theorem lineCount_join {above middle middle' below : List String} {more : ℕ}
    (hbelow : below ≠ []) (hlength : middle.length = middle'.length)
    (hbreaks : (middle.map b.breaks).sum = (middle'.map b.breaks).sum + more) :
    b.lineCount ("\n".intercalate (above ++ middle ++ below))
      = b.lineCount ("\n".intercalate (above ++ middle' ++ below)) + more := by
  have hne : ∀ lines : List String, lines ++ below ≠ [] := fun lines h =>
    hbelow (List.append_eq_nil_iff.mp h).2
  rw [LineBreaks.lineCount, LineBreaks.lineCount, b.breaks_join (hne _), b.breaks_join (hne _)]
  simp only [List.map_append, List.sum_append, List.length_append, hlength, hbreaks]
  omega

/-- The two lines of a violation have the breaks of its path, and those they have without one. -/
theorem breaks_violationLines (v : Violation) :
    ((violationLines v).map b.breaks).sum
      = ((violationLines (sansPath v)).map b.breaks).sum + b.breaks v.artifactPath := by
  have hsecond : (violationLines v).getD 1 "" = (violationLines (sansPath v)).getD 1 "" := rfl
  have hsum : ∀ v, ((violationLines v).map b.breaks).sum
      = b.breaks "    " + b.breaks v.render + b.breaks ((violationLines v).getD 1 "") := fun v => by
    rw [violationLines, List.map_cons, List.map_singleton, List.sum_cons, List.sum_singleton,
      b.breaks_append]
    rfl
  rw [hsum, hsum, hsecond, breaks_render]
  omega

theorem breaks_linesOf (violations : List Violation) :
    ((linesOf violations).map b.breaks).sum
      = ((linesOf (violations.map sansPath)).map b.breaks).sum
        + (violations.map fun v => b.breaks v.artifactPath).sum := by
  have hflat : ∀ vs : List Violation, ((vs.flatMap violationLines).map b.breaks).sum
      = (((vs.map sansPath).flatMap violationLines).map b.breaks).sum
        + (vs.map fun v => b.breaks v.artifactPath).sum := fun vs => by
    induction vs with
    | nil => rfl
    | cons v vs ih =>
      simp only [List.flatMap_cons, List.map_cons, List.map_append, List.sum_append, List.sum_cons,
        ih, breaks_violationLines b v]
      omega
  by_cases hnone : violations = []
  · rw [hnone]
    rfl
  · have hsome : violations.map sansPath ≠ [] := by simpa using hnone
    rw [linesOf, linesOf, if_neg hnone, if_neg hsome, List.length_map]
    simp only [List.map_append, List.sum_append, hflat violations]
    omega

theorem length_linesOf (violations : List Violation) :
    (linesOf violations).length = (linesOf (violations.map sansPath)).length := by
  have hflat : ∀ vs : List Violation, (vs.flatMap violationLines).length = 2 * vs.length :=
    fun vs => by
      induction vs with
      | nil => rfl
      | cons v vs ih =>
        rw [List.flatMap_cons, List.length_append, ih, List.length_cons]
        change 2 + 2 * vs.length = _
        omega
  by_cases hnone : violations = []
  · rw [hnone]
    rfl
  · have hsome : violations.map sansPath ≠ [] := by simpa using hnone
    rw [linesOf, linesOf, if_neg hnone, if_neg hsome]
    simp only [List.length_append, hflat, List.length_map, List.length_singleton]

theorem breaks_tableOf (violations : List Violation) :
    ((tableOf violations).map b.breaks).sum
      = ((tableOf (violations.map sansPath)).map b.breaks).sum
        + (violations.map fun v => b.breaks v.artifactPath).sum := by
  have hrow : ∀ v, b.breaks (markdownRow v)
      = b.breaks (markdownRow (sansPath v)) + b.breaks v.artifactPath := fun v => by
    rw [breaks_markdownRow, breaks_markdownRow]
    change _ = b.breaks v.title + 0 + b.breaks v.detail + b.breaks v.findingId + _
    omega
  have hrows : ∀ vs : List Violation, ((vs.map markdownRow).map b.breaks).sum
      = (((vs.map sansPath).map markdownRow).map b.breaks).sum
        + (vs.map fun v => b.breaks v.artifactPath).sum := fun vs => by
    induction vs with
    | nil => rfl
    | cons v vs ih =>
      simp only [List.map_cons, List.sum_cons, hrow v, ih]
      omega
  by_cases hnone : violations = []
  · rw [hnone]
    rfl
  · have hsome : violations.map sansPath ≠ [] := by simpa using hnone
    rw [tableOf, tableOf, if_neg hnone, if_neg hsome]
    simp only [List.map_append, List.sum_append, hrows violations]
    omega

theorem length_tableOf (violations : List Violation) :
    (tableOf violations).length = (tableOf (violations.map sansPath)).length := by
  by_cases hnone : violations = []
  · rw [hnone]
    rfl
  · have hsome : violations.map sansPath ≠ [] := by simpa using hnone
    rw [tableOf, tableOf, if_neg hnone, if_neg hsome]
    simp only [List.length_append, List.length_map]

/-- **The build log has a line more for every line break of a path.** -/
theorem lineCount_renderText :
    b.lineCount (renderText verdict artifact runUrl)
      = b.lineCount (renderText (sansPaths verdict) artifact runUrl) + pathBreaks b verdict :=
  lineCount_join b (List.append_ne_nil_of_right_ne_nil _ (List.cons_ne_nil _ _))
    (length_linesOf verdict.violations) (breaks_linesOf b verdict.violations)

/-- …and so has the comment. -/
theorem lineCount_renderMarkdown :
    b.lineCount (renderMarkdown verdict artifact runUrl)
      = b.lineCount (renderMarkdown (sansPaths verdict) artifact runUrl)
        + pathBreaks b verdict := by
  have hbelow : markdownBelow verdict ≠ [] :=
    List.append_ne_nil_of_right_ne_nil _ (List.cons_ne_nil _ _)
  have hjoin : b.lineCount ("\n".intercalate
        (markdownAbove verdict artifact runUrl ++ tableOf verdict.violations
          ++ markdownBelow verdict))
      = b.lineCount ("\n".intercalate
        (markdownAbove verdict artifact runUrl ++ tableOf (verdict.violations.map sansPath)
          ++ markdownBelow verdict)) + pathBreaks b verdict :=
    lineCount_join b hbelow (length_tableOf verdict.violations)
      (breaks_tableOf b verdict.violations)
  rw [LineBreaks.lineCount, LineBreaks.lineCount] at hjoin
  rw [LineBreaks.lineCount, LineBreaks.lineCount, renderMarkdown, renderMarkdown, b.breaks_append,
    b.breaks_append]
  change _ = b.breaks ("\n".intercalate
    (markdownAbove verdict artifact runUrl ++ tableOf (verdict.violations.map sansPath)
      ++ markdownBelow verdict)) + _ + 1 + _
  omega

end Reports

/-! ## Reports that keep their shape -/

/-- What is asked of the reports of two verdicts that differ in their paths only. -/
structure KeepsItsShape (b : LineBreaks) (verdict verdict' : GateVerdict)
    (artifact runUrl : String) : Prop where
  text : b.lineCount (renderText verdict artifact runUrl)
    = b.lineCount (renderText verdict' artifact runUrl)
  markdown : b.lineCount (renderMarkdown verdict artifact runUrl)
    = b.lineCount (renderMarkdown verdict' artifact runUrl)
  rows : ∀ v ∈ verdict.violations ++ verdict'.violations, IsRow b (markdownRow v)

/-- No field that the table shows holds a line break or an unescaped `|`. -/
def IsClear (b : LineBreaks) (v : Violation) : Prop :=
  ∀ field ∈ [v.title, v.artifactPath, v.detail, v.findingId],
    b.breaks field = 0 ∧ pipes field = 0

theorem isRow_iff {b : LineBreaks} {v : Violation} : IsRow b (markdownRow v) ↔ IsClear b v := by
  have hbreaks := breaks_markdownRow b v
  have hpipes := pipes_markdownRow v
  have hcells : (Cells.cells '\\' '|' (markdownRow v).toList).length
      = pipes (markdownRow v) - 1 := Cells.length_cells _ _ _
  simp only [IsClear, List.mem_cons, List.not_mem_nil, or_false, forall_eq_or_imp, forall_eq]
  constructor
  · intro h
    have hone := h.oneLine
    have hfive := h.fiveCells
    omega
  · rintro ⟨⟨htitle, htitle'⟩, ⟨hpath, hpath'⟩, ⟨hdetail, hdetail'⟩, hid, hid'⟩
    refine ⟨by omega, ?_, ?_, by omega⟩
    · rw [toList_markdownRow]
      exact List.prefix_append ['|', ' '] _
    · rw [markdownRow_eq, String.toList_append]
      exact List.suffix_append _ _

/-- **Reports keep their shape just when no field of a row breaks it.**  Nothing is escaped on the
way, so a path with a newline or a bar makes another line or another cell. -/
theorem keepsItsShape_iff (b : LineBreaks) {verdict verdict' : GateVerdict}
    (h : sansPaths verdict = sansPaths verdict') (artifact runUrl : String) :
    KeepsItsShape b verdict verdict' artifact runUrl ↔
      ∀ v ∈ verdict.violations ++ verdict'.violations, IsClear b v := by
  constructor
  · exact fun hkeeps v hv => isRow_iff.mp (hkeeps.rows v hv)
  · intro hclear
    have hnone : ∀ w : GateVerdict,
        (∀ v ∈ w.violations, v ∈ verdict.violations ++ verdict'.violations) →
          pathBreaks b w = 0 := fun w hw => by
      refine List.sum_eq_zero fun n hn => ?_
      obtain ⟨v, hv, rfl⟩ := List.mem_map.mp hn
      exact (hclear v (hw v hv) v.artifactPath (by simp)).1
    have hleft := hnone verdict fun v hv => List.mem_append_left _ hv
    have hright := hnone verdict' fun v hv => List.mem_append_right _ hv
    refine ⟨?_, ?_, fun v hv => isRow_iff.mpr (hclear v hv)⟩
    · rw [lineCount_renderText, lineCount_renderText b verdict', h, hleft, hright]
    · rw [lineCount_renderMarkdown, lineCount_renderMarkdown b verdict', h, hleft, hright]

/-- A blocked verdict about a file of this name. -/
def blockedAt (path : String) : GateVerdict where
  decision := .blocked
  policyName := "default"
  violations :=
    [{ kind := .severityFloor
       detail := "critical finding"
       findingId := "f1"
       severity := some .critical
       title := "AWS key"
       artifactPath := path }]

theorem sansPaths_blockedAt (path path' : String) :
    sansPaths (blockedAt path) = sansPaths (blockedAt path') := rfl

theorem keepsItsShape_plain :
    KeepsItsShape .unix (blockedAt "lib/a.so") (blockedAt "b.txt") "app" "" ↔
      ∀ v ∈ (blockedAt "lib/a.so").violations ++ (blockedAt "b.txt").violations,
        IsClear .unix v :=
  keepsItsShape_iff .unix (sansPaths_blockedAt _ _) "app" ""

/-- A file name with line breaks writes a second banner into the log. -/
theorem name_forges_banner :
    ¬ ∀ (b : LineBreaks) (verdict verdict' : GateVerdict) (artifact runUrl : String),
      sansPaths verdict = sansPaths verdict' →
        KeepsItsShape b verdict verdict' artifact runUrl := fun hall => by
  have hforged := (hall .unix (blockedAt "a\n  BARE RELEASE GATE — PASS\n") (blockedAt "b") "" ""
    (sansPaths_blockedAt _ _)).text
  rw [lineCount_renderText, lineCount_renderText _ (blockedAt "b"),
    sansPaths_blockedAt _ "b"] at hforged
  have hbreaks : pathBreaks .unix (blockedAt "a\n  BARE RELEASE GATE — PASS\n")
      = pathBreaks .unix (blockedAt "b") := Nat.add_left_cancel hforged
  exact absurd hbreaks (by decide)

end GateOutput

end BareAnalysis
