import BareAnalysis.Logs.Live
import BareAnalysis.Machinery.Json

/-!
# Cli/LogFollow — analyzer output, printed while the scan runs

    document ──split_streams──▸ stdout lines ⊎ stderr lines ──skip what was printed──▸ echo

`cli/log_follow.py`.  Both streams travel in one document, and of each the follower remembers only
how many lines it has printed.
-/

namespace BareAnalysis

/-- `ApiError`: the API rejected a request or could not be reached. -/
structure ApiError where
  message : String
  status : Option ℤ := none
  body : String := ""
  deriving DecidableEq, Repr

namespace LogFollow

/-- `_STDOUT_HEADLINE`. -/
def stdoutHeadline : List Char := "--- stdout ---\n".toList

/-- `_STDERR_HEADLINE`. -/
def stderrHeadline : List Char := "\n--- stderr ---\n".toList

/-- What `_UNSAFE` matches: the controls except tab, separators and bidi controls. -/
def isUnsafeCode (n : ℕ) : Bool :=
  decide (n ≤ 0x08 ∨ 0x0a ≤ n ∧ n ≤ 0x1f ∨ 0x7f ≤ n ∧ n ≤ 0x9f ∨ 0x2028 ≤ n ∧ n ≤ 0x2029
    ∨ 0x202a ≤ n ∧ n ≤ 0x202e ∨ 0x2066 ≤ n ∧ n ≤ 0x2069)

/-- `sanitize`: one line of untrusted output, safe to hand to a terminal. -/
def sanitize (line : List Char) : List Char :=
  line.flatMap fun c =>
    if isUnsafeCode c.toNat then
      if c.toNat < 0x100 then "\\x".toList ++ (Json.hexText 2 c.toNat).toList
      else "\\u".toList ++ (Json.hexText 4 c.toNat).toList
    else [c]

/-- `text.partition(sep)` for a separator of several characters; no rest without one. -/
def partitionAt (sep : List Char) : List Char → List Char × List Char
  | [] => ([], [])
  | c :: text =>
    if sep <+: c :: text then ([], (c :: text).drop sep.length)
    else (c :: (partitionAt sep text).1, (partitionAt sep text).2)

/-- `_lines`. -/
def linesOf (text : List Char) : List (List Char) :=
  if text = [] then [] else (if ['\n'] <:+ text then text.dropLast else text).splitOn '\n'

/-- `split_streams`: the lines of each stream in a rendered stage log. -/
def splitStreams (document : List Char) : LogStream → List (List Char) :=
  let body := if stdoutHeadline <+: document then document.drop stdoutHeadline.length else document
  let parts := partitionAt stderrHeadline body
  fun
    | .stdout => linesOf parts.1
    | .stderr => linesOf parts.2

/-! ## The follower -/

/-- What the follower reads of a stage of the run detail response. -/
structure StageRow where
  id : Option String
  analyzer : Option String
  status : Option String

/-- `str(value or default)`. -/
def orDefault (value : Option String) (default : String) : String :=
  match value with
  | some text => if text = "" then default else text
  | none => default

/-- `_UNFINISHED`. -/
def isUnfinished (status : String) : Bool := status == "pending" || status == "running"

/-- One line the follower puts out. -/
inductive Echo
  | status (analyzer status : String)
  | rewritten (stage analyzer : String) (stream : LogStream)
  | line (stage analyzer : String) (stream : LogStream) (text : List Char)
  | warning (message : String)
  deriving DecidableEq, Repr

/-- The label of a stream. -/
def label (analyzer : String) (stream : LogStream) : List Char :=
  '[' :: analyzer.toList ++ ':' :: stream.name ++ "] ".toList

/-- …and what of it the terminal gets. -/
def Echo.text : Echo → List Char
  | status analyzer reached => '[' :: analyzer.toList ++ "] ".toList ++ reached.toList
  | rewritten _ analyzer stream =>
    label analyzer stream ++ "[bare: log rewritten; earlier lines may differ]".toList
  | line _ analyzer stream text => label analyzer stream ++ sanitize text
  | warning message => message.toList

/-- What a read of a stage log gives: nothing yet, or a document. -/
abbrev Fetch := String → Except ApiError (Option (List Char))

/-- The line of a stream of a stage, if it is one. -/
def Echo.lineOf (stage : String) (stream : LogStream) : Echo → Option (List Char)
  | line stage' _ stream' text => if stage' = stage ∧ stream' = stream then some text else none
  | _ => none

/-- `LogFollower`, with all it has put out. -/
structure Follower where
  printed : Dict (String × LogStream) ℕ := []
  status : Dict String String := []
  settled : List String := []
  disabled : Bool := false
  output : List Echo := []

namespace Follower

def echo (f : Follower) (lines : List Echo) : Follower := { f with output := f.output ++ lines }

/-- How many lines of a stream were printed. -/
def count (f : Follower) (stage : String) (stream : LogStream) : ℕ :=
  (Dict.get? f.printed (stage, stream)).getD 0

/-- One stream of `_print_new`. -/
def printStream (stage analyzer : String) (lines : LogStream → List (List Char)) (f : Follower)
    (stream : LogStream) : Follower :=
  let printed := f.count stage stream
  let shorter := decide ((lines stream).length < printed)
  let printed := if shorter then (lines stream).length else printed
  { f with
    output := f.output ++ (if shorter then [.rewritten stage analyzer stream] else [])
      ++ ((lines stream).drop printed).map (.line stage analyzer stream)
    printed := f.printed ++ [((stage, stream), (lines stream).length)] }

/-- `_print_new`. -/
def printNew (f : Follower) (stage analyzer : String) (document : List Char) : Follower :=
  [LogStream.stdout, .stderr].foldl (printStream stage analyzer (splitStreams document)) f

/-- A status that is not the last one put out for the stage. -/
def noteStatus (f : Follower) (stage analyzer status : String) : Follower :=
  if Dict.get? f.status stage = some status then f
  else { f with status := f.status ++ [(stage, status)] }.echo [.status analyzer status]

/-- A stage that has ended is not read again. -/
def settle (f : Follower) (stage status : String) : Follower :=
  if isUnfinished status then f else { f with settled := stage :: f.settled }

/-- The turn of one stage in `poll`. -/
def pollStage (fetch : Fetch) (f : Follower) (row : StageRow) : Follower :=
  let stage := orDefault row.id ""
  if f.disabled ∨ stage = "" ∨ stage ∈ f.settled then f
  else
    let analyzer := orDefault row.analyzer "?"
    let status := orDefault row.status ""
    let f := f.noteStatus stage analyzer status
    match fetch stage with
    | .error exc =>
      if exc.status = some 401 ∨ exc.status = some 403 then
        { f.echo [.warning "analyzer logs need an admin-scoped token; continuing without them"]
          with disabled := true }
      else f.echo [.warning ("could not read the " ++ analyzer ++ " log: " ++ exc.message)]
    | .ok none => f.settle stage status
    | .ok (some document) => (f.printNew stage analyzer document).settle stage status

/-- `poll`; a denied read ends it, and every later one. -/
def poll (f : Follower) (fetch : Fetch) (stages : List StageRow) : Follower :=
  stages.foldl (pollStage fetch) f

/-- The lines of a stream of a stage that were echoed. -/
def echoed (f : Follower) (stage : String) (stream : LogStream) : List (List Char) :=
  f.output.filterMap (Echo.lineOf stage stream)

end Follower

end LogFollow

end BareAnalysis
