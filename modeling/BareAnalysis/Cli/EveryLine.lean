import BareAnalysis.Cli.LogFollow
import Mathlib.Data.List.Chain

/-!
# Cli/EveryLine — what the follower prints of growing streams

    snapshot₁ ──▸ snapshot₂ ──▸ ⋯ ──▸ retained log
    lines₁    ⊑   lines₂    ⊑   ⋯  ⊑   lines           each poll prints the difference

The document has one headline between the streams, and a stream can print that line itself.
-/

namespace BareAnalysis.LogFollow

/-! ## Lines -/

theorem linesOf_nil : linesOf [] = [] := if_pos rfl

/-- Lines, and what follows them. -/
theorem linesOf_append_newline (a r : List Char) :
    linesOf (a ++ '\n' :: r) = a.splitOn '\n' ++ linesOf r := by
  have hsuffix : ∀ (x : List Char) (d : Char), ['\n'] <:+ x ++ [d] ↔ d = '\n' := fun x d =>
    ⟨fun ⟨y, hy⟩ => (List.singleton_inj.mp (List.append_inj_right' hy rfl)).symm,
      fun hd => hd ▸ List.suffix_append x ['\n']⟩
  have hne : a ++ '\n' :: r ≠ [] := List.append_ne_nil_of_right_ne_nil _ (List.cons_ne_nil _ _)
  rw [linesOf, if_neg hne]
  obtain rfl | ⟨r, d, rfl⟩ := List.eq_nil_or_concat r
  · rw [if_pos ((hsuffix a '\n').mpr rfl), List.dropLast_concat, linesOf_nil, List.append_nil]
  · have hfront : a ++ '\n' :: (r ++ [d]) = (a ++ '\n' :: r) ++ [d] := by simp
    rw [List.concat_eq_append, hfront, linesOf, if_neg (List.concat_ne_nil d r)]
    simp only [hsuffix]
    split
    · rw [List.dropLast_concat, List.dropLast_concat, List.splitOn_append_cons_self]
    · rw [List.append_assoc, List.cons_append, List.splitOn_append_cons_self]

/-- The finished lines of a text, past one of them. -/
theorem finishedLines_append_newline (a r : List Char) :
    finishedLines (a ++ '\n' :: r) = a ++ '\n' :: finishedLines r := by
  by_cases hmem : '\n' ∈ r
  · obtain ⟨b, c, rfl, hc⟩ := eq_append_cons_of_mem_last hmem
    have hassoc : a ++ '\n' :: (b ++ '\n' :: c) = (a ++ '\n' :: b) ++ '\n' :: c := by simp
    rw [hassoc, finishedLines_append hc, finishedLines_append hc]
    simp
  · rw [finishedLines_append hmem, finishedLines_of_not_mem hmem]

/-- The first line of a text. -/
theorem head_splitOn {line rest : List Char} (h : '\n' ∉ line) :
    (line ++ '\n' :: rest).splitOn '\n' = line :: rest.splitOn '\n' :=
  List.splitOn_append_cons_self_of_not_mem h rest

theorem partitionAt_of_not_mem {sep : List Char} {a : List Char} (h : '\n' ∉ a) (t : List Char) :
    partitionAt ('\n' :: sep) (a ++ '\n' :: t)
      = if sep <+: t then (a, t.drop sep.length)
        else (a ++ '\n' :: (partitionAt ('\n' :: sep) t).1, (partitionAt ('\n' :: sep) t).2) := by
  induction a with
  | nil =>
    rw [List.nil_append, partitionAt]
    simp only [List.cons_prefix_cons, true_and, List.nil_append]
    split <;> rfl
  | cons c a ih =>
    obtain ⟨hc, ha⟩ := not_or.mp (mt List.mem_cons.mpr h)
    rw [List.cons_append, partitionAt, if_neg fun hsep => hc (List.cons_prefix_cons.mp hsep).1,
      ih ha]
    split <;> rfl

/-- **The separator is found where it was put**, if no line before it looks like it. -/
theorem partitionAt_append {line : List Char} (hline : '\n' ∉ line) (err : List Char)
    (out : List Char) (h : line ∉ (out.splitOn '\n').tail) :
    partitionAt ('\n' :: (line ++ ['\n'])) (out ++ '\n' :: (line ++ '\n' :: err)) = (out, err) := by
  have hfound : line ++ ['\n'] <+: line ++ '\n' :: err := ⟨err, by simp⟩
  have hrest : (line ++ '\n' :: err).drop (line ++ ['\n']).length = err := by
    rw [List.length_append, ← List.drop_drop, List.drop_left]
    rfl
  by_cases hmem : '\n' ∈ out
  · obtain ⟨a, t, rfl, ha⟩ := List.eq_append_cons_of_mem hmem
    rw [head_splitOn ha, List.tail_cons] at h
    -- the line after the first one is not the separator
    have hnot : ¬line ++ ['\n'] <+: t ++ '\n' :: (line ++ '\n' :: err) := by
      rintro ⟨s, hs⟩
      have hfirst := congrArg (List.splitOn '\n') hs
      rw [List.append_assoc, List.singleton_append, head_splitOn hline,
        List.splitOn_append_cons_self] at hfirst
      obtain ⟨l, ls, hl⟩ := List.exists_cons_of_ne_nil (List.splitOn_ne_nil '\n' t)
      rw [hl, List.cons_append] at hfirst
      exact h (hl ▸ (List.cons.inj hfirst).1 ▸ List.mem_cons_self)
    have hlen : t.length < (a ++ '\n' :: t).length := by
      rw [List.length_append, List.length_cons]
      omega
    rw [List.append_assoc, List.cons_append, partitionAt_of_not_mem ha, if_neg hnot,
      partitionAt_append hline err t fun hm => h (List.mem_of_mem_tail hm)]
  · rw [partitionAt_of_not_mem hmem, if_pos hfound, hrest]
termination_by out.length

/-! ## Snapshots -/

/-- What a stage has printed when its log is read, and whether it still runs. -/
structure Snapshot where
  live : Bool
  out : LogStream → Bytes

namespace Snapshot

variable (s : Snapshot) (interp : Interpreter) (pack : ScanPack)

/-- The document the endpoint answers with. -/
def document : List Char := (renderStageLog interp pack s.live (s.out .stdout) (s.out .stderr)).1

/-- What of a stream a reader can ask for: the finished lines of a running stage, else all of it. -/
def shown (stream : LogStream) : List Char :=
  if s.live then finishedLines (decodeLog (s.out stream)) else decodeLog (s.out stream)

/-- Redaction changes nothing, and nothing is cut to fit. -/
structure Kept : Prop where
  unredacted : ∀ stream, redactLogText interp pack (readStream s.live (s.out stream)).1
    = (readStream s.live (s.out stream)).1
  fits : ∀ stream, (Utf8.encode (readStream s.live (s.out stream)).1).length ≤ maxStoredLogBytes

/-- The line of the headline of `stderr`. -/
def stderrLine : List Char := "--- stderr ---".toList

/-- **No stream reads like the document**: no line of `stdout` past the first is the headline of
`stderr`, and no stream ends with the marker of a cut, unless it is nothing else. -/
structure Plain : Prop where
  headline : stderrLine ∉ ((s.shown .stdout).splitOn '\n').tail
  marker : ∀ stream, driverTruncationMarker <:+ decodeLog (s.out stream) →
    decodeLog (s.out stream) = driverTruncationMarker

/-- More was printed; what is read of a stage that has ended stays. -/
structure Grows (s s' : Snapshot) : Prop where
  prefixes : ∀ stream, s.out stream <+: s'.out stream
  ended : s.live = false → s' = s

variable {s interp pack}

theorem Plain.readStream_eq (h : s.Plain) (stream : LogStream) :
    (readStream s.live (s.out stream)).1 = s.shown stream := by
  rw [readStream, shown]
  split
  · rw [h.marker stream ‹_›]
    cases s.live <;> decide
  · rfl

/-- **The document of a plain snapshot** has its streams one after the other. -/
theorem Plain.document_eq (h : s.Plain) (hkept : s.Kept interp pack) :
    s.document interp pack = stdoutHeadline ++ (s.shown .stdout
      ++ '\n' :: (stderrLine ++ '\n' :: s.shown .stderr)) := by
  have hsection : ∀ stream, (logSection interp pack s.live stream (s.out stream)).text
      = stream.headline ++ s.shown stream := fun stream => by
    have hfits := hkept.fits stream
    rw [logSection, hkept.unredacted stream, capText, if_neg (not_lt.mpr hfits),
      h.readStream_eq stream]
  have hstdout : LogStream.stdout.headline = stdoutHeadline := by decide
  have hstderr : LogStream.stderr.headline = stderrLine ++ ['\n'] := by decide
  have hjoin : ∀ a b : List Char, ['\n'].intercalate [a, b] = a ++ '\n' :: b := fun a b => by
    simp [List.intercalate, List.intersperse]
  rw [document, renderStageLog]
  simp only [List.map_cons, List.map_nil, hjoin, hsection, hstdout, hstderr, List.append_assoc,
    List.singleton_append]

/-- **The follower finds the lines of the streams.** -/
theorem Plain.splitStreams_eq (h : s.Plain) (hkept : s.Kept interp pack) (stream : LogStream) :
    splitStreams (s.document interp pack) stream = linesOf (s.shown stream) := by
  have hsep : stderrHeadline = '\n' :: (stderrLine ++ ['\n']) := by decide
  have hcut := @partitionAt_append stderrLine (by decide) (s.shown .stderr) (s.shown .stdout)
    h.headline
  rw [splitStreams, h.document_eq hkept, if_pos (List.prefix_append _ _), List.drop_left, hsep]
  cases stream <;> simp only [hcut]

/-- **Lines stay** when more is printed. -/
theorem Grows.linesOf_prefix {s' : Snapshot} (h : s.Grows s') (stream : LogStream) :
    linesOf (s.shown stream) <+: linesOf (s'.shown stream) := by
  cases hlive : s.live with
  | false => rw [h.ended hlive]
  | true =>
    rw [shown, hlive, if_pos rfl]
    obtain hnone | ⟨lines, rest, hlines, hrest⟩ := finishedLines_decodeLog (h.prefixes stream)
    · rw [hnone]
      exact List.nil_prefix
    · have hshown : ∃ rest', s'.shown stream = lines ++ '\n' :: rest' := by
        rw [shown, hrest]
        split
        · exact ⟨_, finishedLines_append_newline lines rest⟩
        · exact ⟨rest, rfl⟩
      obtain ⟨rest', hrest'⟩ := hshown
      rw [hlines, hrest', linesOf_append_newline, linesOf_append_newline, linesOf_nil,
        List.append_nil]
      exact List.prefix_append _ _

end Snapshot

/-! ## Polls -/

/-- The id the follower files a stage under. -/
def StageRow.key (row : StageRow) : String := orDefault row.id ""

/-- What the server answers while one poll goes on. -/
structure Poll where
  stages : List StageRow
  fetch : Fetch

/-- A read the follower gives up after. -/
def IsDenied (read : Except ApiError (Option (List Char))) : Prop :=
  ∃ exc, read = .error exc ∧ (exc.status = some 401 ∨ exc.status = some 403)

section Poll

variable (interp : Interpreter) (pack : ScanPack) (stage : String)

/-- A poll that reads the log of a stage; a stage is listed once, and its status tells whether the
log is the last one. -/
structure Poll.Reads (p : Poll) (s : Snapshot) : Prop where
  nodup : (p.stages.map StageRow.key).Nodup
  listed : ∃ row ∈ p.stages, row.key = stage ∧ isUnfinished (orDefault row.status "") = s.live
  fetched : p.fetch stage = .ok (some (s.document interp pack))
  notDenied : ∀ row ∈ p.stages, ¬IsDenied (p.fetch row.key)

variable {interp pack stage} {f : Follower} {fetch : Fetch} {s s' : Snapshot}

namespace Follower

theorem echoed_echo {lines : List Echo} (stream : LogStream)
    (h : ∀ e ∈ lines, e.lineOf stage stream = none) :
    (f.echo lines).echoed stage stream = f.echoed stage stream := by
  rw [echoed, echo, List.filterMap_append, List.filterMap_eq_nil_iff.mpr h, List.append_nil]
  rfl

/-- What one stream adds to what was echoed… -/
theorem echoed_printStream (stage' analyzer : String) (lines : LogStream → List (List Char))
    (f : Follower) (stream' stream : LogStream) :
    (printStream stage' analyzer lines f stream').echoed stage stream = f.echoed stage stream ++
      if stage' = stage ∧ stream' = stream then (lines stream').drop (f.count stage' stream')
      else [] := by
  have hmap : ∀ ls : List (List Char),
      (ls.map (Echo.line stage' analyzer stream')).filterMap (Echo.lineOf stage stream)
        = if stage' = stage ∧ stream' = stream then ls else [] := fun ls => by
    rw [List.filterMap_map]
    by_cases h : stage' = stage ∧ stream' = stream
    · simp only [Function.comp_def, Echo.lineOf, if_pos h, List.filterMap_some]
    · simp only [Function.comp_def, Echo.lineOf, if_neg h, List.filterMap_none]
  rw [echoed, printStream, List.filterMap_append, List.filterMap_append, hmap, echoed,
    List.append_assoc]
  congr 1
  by_cases hshort : (lines stream').length < f.count stage' stream'
  · simp [hshort, Echo.lineOf, List.drop_eq_nil_of_le hshort.le]
  · simp [hshort]

/-- …and how it counts. -/
theorem count_printStream (stage' analyzer : String) (lines : LogStream → List (List Char))
    (f : Follower) (stream' stream : LogStream) :
    (printStream stage' analyzer lines f stream').count stage stream =
      if stage' = stage ∧ stream' = stream then (lines stream').length
      else f.count stage stream := by
  rw [count, printStream, Dict.get?_concat]
  by_cases h : stage' = stage ∧ stream' = stream
  · rw [if_pos h, if_pos (Prod.mk.injEq .. ▸ h)]
    rfl
  · rw [if_neg h, if_neg (Prod.mk.injEq .. ▸ h)]
    rfl

/-- What a document adds… -/
theorem echoed_printNew (stage' analyzer : String) (document : List Char) (stream : LogStream) :
    (f.printNew stage' analyzer document).echoed stage stream = f.echoed stage stream ++
      if stage' = stage then (splitStreams document stream).drop (f.count stage stream) else [] := by
  rw [printNew, List.foldl_cons, List.foldl_cons, List.foldl_nil, echoed_printStream,
    echoed_printStream, count_printStream]
  by_cases h : stage' = stage
  · subst h
    cases stream <;> simp
  · simp [h]

/-- …and how the follower counts after it. -/
theorem count_printNew (stage' analyzer : String) (document : List Char) (stream : LogStream) :
    (f.printNew stage' analyzer document).count stage stream =
      if stage' = stage then (splitStreams document stream).length else f.count stage stream := by
  rw [printNew, List.foldl_cons, List.foldl_cons, List.foldl_nil, count_printStream,
    count_printStream]
  by_cases h : stage' = stage
  · subst h
    cases stream <;> simp
  · simp [h]

/-- What the follower knows of one stage. -/
structure SameStage (stage : String) (f g : Follower) : Prop where
  disabled : g.disabled = f.disabled
  settled : stage ∈ g.settled ↔ stage ∈ f.settled
  echoed : ∀ stream, g.echoed stage stream = f.echoed stage stream
  count : ∀ stream, g.count stage stream = f.count stage stream

theorem SameStage.refl (stage : String) (f : Follower) : SameStage stage f f :=
  ⟨rfl, Iff.rfl, fun _ => rfl, fun _ => rfl⟩

theorem SameStage.trans {g h : Follower} (hfg : SameStage stage f g) (hgh : SameStage stage g h) :
    SameStage stage f h :=
  ⟨hgh.disabled.trans hfg.disabled, hgh.settled.trans hfg.settled,
    fun stream => (hgh.echoed stream).trans (hfg.echoed stream),
    fun stream => (hgh.count stream).trans (hfg.count stream)⟩

theorem sameStage_noteStatus (stage' analyzer status : String) :
    SameStage stage f (f.noteStatus stage' analyzer status) := by
  rw [noteStatus]
  split
  · exact .refl stage f
  · refine ⟨rfl, Iff.rfl, fun stream => ?_, fun _ => rfl⟩
    exact @echoed_echo stage { f with status := f.status ++ [(stage', status)] }
      [.status analyzer status] stream (by simp [Echo.lineOf])

theorem sameStage_printNew {stage' : String} (h : stage' ≠ stage) (analyzer : String)
    (document : List Char) : SameStage stage f (f.printNew stage' analyzer document) := by
  refine ⟨rfl, Iff.rfl, fun stream => ?_, fun stream => ?_⟩
  · rw [echoed_printNew, if_neg h, List.append_nil]
  · rw [count_printNew, if_neg h]

theorem sameStage_settle {stage' : String} (h : stage' ≠ stage) (status : String) :
    SameStage stage f (f.settle stage' status) := by
  rw [settle]
  split
  · exact .refl stage f
  · exact ⟨rfl, by simp [Ne.symm h], fun _ => rfl, fun _ => rfl⟩

/-- **The turn of another stage changes nothing**, unless its read is denied. -/
theorem sameStage_pollStage {row : StageRow} (hrow : row.key ≠ stage)
    (hdenied : ¬IsDenied (fetch row.key)) : SameStage stage f (f.pollStage fetch row) := by
  rw [StageRow.key] at hrow hdenied
  rw [pollStage]
  dsimp only
  split
  · exact .refl stage f
  · refine (sameStage_noteStatus (orDefault row.id "") (orDefault row.analyzer "?")
      (orDefault row.status "")).trans ?_
    generalize f.noteStatus _ _ _ = g
    cases hread : fetch (orDefault row.id "") with
    | error exc =>
      dsimp only
      rw [if_neg fun h => hdenied ⟨exc, hread, h⟩]
      exact ⟨rfl, Iff.rfl, fun stream => echoed_echo stream (by simp [Echo.lineOf]), fun _ => rfl⟩
    | ok fetched =>
      cases fetched with
      | none => exact sameStage_settle hrow _
      | some document => exact (sameStage_printNew hrow _ _).trans (sameStage_settle hrow _)

/-- …so a poll does what the turn of the one stage does. -/
theorem sameStage_foldl {rows : List StageRow} (hrows : ∀ row ∈ rows, row.key ≠ stage)
    (hdenied : ∀ row ∈ rows, ¬IsDenied (fetch row.key)) (f : Follower) :
    SameStage stage f (rows.foldl (pollStage fetch) f) := by
  induction rows generalizing f with
  | nil => exact .refl stage f
  | cons row rows ih =>
    obtain ⟨hrow, hrows⟩ := List.forall_mem_cons.mp hrows
    obtain ⟨hread, hdenied⟩ := List.forall_mem_cons.mp hdenied
    exact (sameStage_pollStage hrow hread).trans (ih hrows hdenied _)

/-- The follower has put out what a snapshot shows of a stage. -/
structure UpTo (f : Follower) (stage : String) (s : Snapshot) : Prop where
  disabled : f.disabled = false
  ended : stage ∈ f.settled → s.live = false
  echoed : ∀ stream, f.echoed stage stream = linesOf (s.shown stream)
  count : ∀ stream, f.count stage stream = (linesOf (s.shown stream)).length

theorem UpTo.same {g : Follower} (h : f.UpTo stage s) (hsame : SameStage stage f g) :
    g.UpTo stage s :=
  ⟨hsame.disabled.trans h.disabled, fun hmem => h.ended (hsame.settled.mp hmem),
    fun stream => (hsame.echoed stream).trans (h.echoed stream),
    fun stream => (hsame.count stream).trans (h.count stream)⟩

/-- Before anything is printed there is nothing to put out. -/
theorem upTo_start (stage : String) : ({} : Follower).UpTo stage ⟨true, fun _ => []⟩ :=
  ⟨rfl, fun h => (nomatch h), fun _ => rfl, fun _ => rfl⟩

/-- **The turn of a stage whose log is read.** -/
theorem UpTo.pollStage {row : StageRow} (h : f.UpTo stage s) (hstage : stage ≠ "")
    (hgrows : s.Grows s') (hkept : s'.Kept interp pack) (hplain : s'.Plain) (hrow : row.key = stage)
    (hstatus : isUnfinished (orDefault row.status "") = s'.live)
    (hfetched : fetch stage = .ok (some (s'.document interp pack))) :
    (f.pollStage fetch row).UpTo stage s' := by
  rw [StageRow.key] at hrow
  rw [Follower.pollStage, hrow]
  dsimp only
  by_cases hsettled : stage ∈ f.settled
  · rw [if_pos (Or.inr (Or.inr hsettled)), hgrows.ended (h.ended hsettled)]
    exact h
  · have hturn : ¬(f.disabled = true ∨ stage = "" ∨ stage ∈ f.settled) := by
      simp [h.disabled, hstage, hsettled]
    rw [if_neg hturn, hfetched]
    have hnoted := h.same (sameStage_noteStatus stage (orDefault row.analyzer "?")
      (orDefault row.status ""))
    have hns : stage ∉ (f.noteStatus stage (orDefault row.analyzer "?")
        (orDefault row.status "")).settled := fun hmem =>
      hsettled ((sameStage_noteStatus stage _ _).settled.mp hmem)
    generalize f.noteStatus stage (orDefault row.analyzer "?") (orDefault row.status "") = g
      at hnoted hns
    have hechoed : ∀ stream, (g.printNew stage (orDefault row.analyzer "?")
        (s'.document interp pack)).echoed stage stream = linesOf (s'.shown stream) := fun stream => by
      rw [echoed_printNew, if_pos rfl, hnoted.echoed, hnoted.count, hplain.splitStreams_eq hkept]
      exact List.prefix_iff_eq_append.mp (hgrows.linesOf_prefix stream)
    have hcount : ∀ stream, (g.printNew stage (orDefault row.analyzer "?")
        (s'.document interp pack)).count stage stream = (linesOf (s'.shown stream)).length :=
      fun stream => by rw [count_printNew, if_pos rfl, hplain.splitStreams_eq hkept]
    dsimp only
    rw [settle, hstatus]
    cases hlive : s'.live with
    | true => exact ⟨hnoted.disabled, fun hmem => absurd hmem hns, hechoed, hcount⟩
    | false => exact ⟨hnoted.disabled, fun _ => hlive, hechoed, hcount⟩

/-- **A poll that reads the log of a stage puts out what is new.** -/
theorem UpTo.poll {p : Poll} (h : f.UpTo stage s) (hstage : stage ≠ "") (hgrows : s.Grows s')
    (hkept : s'.Kept interp pack) (hplain : s'.Plain) (hreads : p.Reads interp pack stage s') :
    (f.poll p.fetch p.stages).UpTo stage s' := by
  obtain ⟨row, hmem, hrow, hstatus⟩ := hreads.listed
  obtain ⟨front, back, hrows⟩ := List.append_of_mem hmem
  have hnodup := hreads.nodup
  rw [hrows, List.map_append, List.map_cons, List.nodup_append, List.nodup_cons] at hnodup
  obtain ⟨-, ⟨hback, -⟩, hfront⟩ := hnodup
  have hdenied : ∀ r ∈ front ++ row :: back, ¬IsDenied (p.fetch r.key) := hrows ▸ hreads.notDenied
  rw [Follower.poll, hrows, List.foldl_append, List.foldl_cons]
  have hbefore := h.same (@sameStage_foldl stage p.fetch front
    (fun r hr heq => hfront r.key (List.mem_map_of_mem hr) row.key List.mem_cons_self
      (heq.trans hrow.symm))
    (fun r hr => hdenied r (List.mem_append_left _ hr)) f)
  have hturn := hbefore.pollStage hstage hgrows hkept hplain hrow hstatus hreads.fetched
  exact hturn.same (sameStage_foldl
    (fun r hr heq => hback (List.mem_map.mpr ⟨r, hr, heq.trans hrow.symm⟩))
    (fun r hr => hdenied r (by simp [hr])) _)

end Follower

/-! ## Runs of polls -/

variable (interp pack stage) in
/-- Polls that read the log of a stage while its streams grow, each with the snapshot it reads. -/
structure ReadsRun (run : List (Poll × Snapshot)) : Prop where
  stage_ne : stage ≠ ""
  grows : (run.map Prod.snd).IsChain Snapshot.Grows
  reads : ∀ read ∈ run, read.1.Reads interp pack stage read.2
  kept : ∀ read ∈ run, read.2.Kept interp pack

/-- The follower after a run of polls. -/
def follow (run : List (Poll × Snapshot)) : Follower :=
  run.foldl (fun f read => f.poll read.1.fetch read.1.stages) {}

/-- **Every line of the output is echoed, once and in order**, if no snapshot reads like the
document. -/
theorem echoes_every_line {run : List (Poll × Snapshot)} (h : ReadsRun interp pack stage run)
    (hplain : ∀ read ∈ run, read.2.Plain) (hlast : (run.map Prod.snd).getLast? = some s) :
    ∀ stream, (follow run).echoed stage stream = linesOf (s.shown stream) := by
  -- the snapshot before the first poll shows nothing
  have hrun : ∀ (run : List (Poll × Snapshot)) (f : Follower) (s₀ : Snapshot),
      f.UpTo stage s₀ → (s₀ :: run.map Prod.snd).IsChain Snapshot.Grows →
      (∀ read ∈ run, read.1.Reads interp pack stage read.2 ∧ read.2.Kept interp pack
        ∧ read.2.Plain) →
      (run.foldl (fun f read => f.poll read.1.fetch read.1.stages) f).UpTo stage
        ((s₀ :: run.map Prod.snd).getLast (List.cons_ne_nil _ _)) := by
    intro run
    induction run with
    | nil => exact fun f s₀ hf _ _ => hf
    | cons read run ih =>
      intro f s₀ hf hchain hread
      obtain ⟨hgrows, hchain⟩ := List.isChain_cons_cons.mp hchain
      obtain ⟨⟨hreads, hkept, hplain⟩, hrest⟩ := List.forall_mem_cons.mp hread
      exact ih _ _ (hf.poll h.stage_ne hgrows hkept hplain hreads) hchain hrest
  have hchain : (⟨true, fun _ => []⟩ :: run.map Prod.snd).IsChain Snapshot.Grows :=
    List.isChain_cons.mpr
      ⟨fun s' _ => ⟨fun _ => List.nil_prefix, fun hlive => (nomatch hlive)⟩, h.grows⟩
  have hend := hrun run {} ⟨true, fun _ => []⟩ (Follower.upTo_start stage) hchain
    fun read hread => ⟨h.reads read hread, h.kept read hread, hplain read hread⟩
  have hne : run.map Prod.snd ≠ [] := fun hnil => by
    rw [hnil] at hlast
    cases hlast
  rw [List.getLast_cons hne, Option.some.inj ((List.getLast?_eq_some_getLast hne).symm.trans hlast)]
    at hend
  exact hend.echoed

end Poll

/-- A poll of one running stage. -/
def runningPoll (s : Snapshot) : Poll × Snapshot :=
  (⟨[⟨some "s1", some "static", some "running"⟩],
    fun _ => .ok (some (s.document asciiInterpreter (literalPack "hunter2-secret")))⟩, s)

theorem reads_runningPoll {s : Snapshot} (h : s.live = true) : (runningPoll s).1.Reads
    asciiInterpreter (literalPack "hunter2-secret") "s1" (runningPoll s).2 where
  nodup := List.nodup_singleton _
  listed := ⟨_, List.mem_singleton_self _, rfl, h.symm⟩
  fetched := rfl
  notDenied := by
    rintro row - ⟨exc, hread, -⟩
    cases hread

/-- A stage that is running. -/
def runningSnapshot (stdout stderr : String) : Snapshot :=
  ⟨true, printed (ascii stdout) (ascii stderr)⟩

/-- Two polls of a stage that prints more. -/
def runningRun (out out' err : String) : List (Poll × Snapshot) :=
  [runningPoll (runningSnapshot out err), runningPoll (runningSnapshot out' err)]

theorem readsRun_runningRun {out out' err : String} (hout : ascii out <+: ascii out')
    (hkept : (runningSnapshot out err).Kept asciiInterpreter (literalPack "hunter2-secret"))
    (hkept' : (runningSnapshot out' err).Kept asciiInterpreter (literalPack "hunter2-secret")) :
    ReadsRun asciiInterpreter (literalPack "hunter2-secret") "s1" (runningRun out out' err) where
  stage_ne := by decide
  grows := by
    refine List.isChain_cons_cons.mpr ⟨⟨fun stream => ?_, fun hlive => (nomatch hlive)⟩,
      List.isChain_singleton _⟩
    cases stream with
    | stdout => exact hout
    | stderr => exact List.prefix_rfl
  reads := by
    intro read hread
    obtain rfl | hread := List.mem_cons.mp hread
    · exact reads_runningPoll rfl
    · obtain rfl := List.mem_singleton.mp hread
      exact reads_runningPoll rfl
  kept := by
    intro read hread
    obtain rfl | hread := List.mem_cons.mp hread
    · exact hkept
    · obtain rfl := List.mem_singleton.mp hread
      exact hkept'

/-- Two polls, and every line so far. -/
theorem echoes_every_line_running :
    (follow (runningRun "a\nb" "a\nb\n" "e\n")).echoed "s1" .stdout
        = linesOf ((runningSnapshot "a\nb\n" "e\n").shown .stdout) ∧
      (follow (runningRun "a\nb" "a\nb\n" "e\n")).echoed "s1" .stderr
        = linesOf ((runningSnapshot "a\nb\n" "e\n").shown .stderr) := by
  have hboth : ∀ stream, (follow (runningRun "a\nb" "a\nb\n" "e\n")).echoed "s1" stream
      = linesOf ((runningSnapshot "a\nb\n" "e\n").shown stream) := by
    refine echoes_every_line (readsRun_runningRun ?_ ?_ ?_) (fun read hread => ?_) rfl
    · decide
    · exact ⟨fun stream => by cases stream <;> decide +kernel,
        fun stream => by cases stream <;> decide +kernel⟩
    · exact ⟨fun stream => by cases stream <;> decide +kernel,
        fun stream => by cases stream <;> decide +kernel⟩
    · obtain rfl | hread := List.mem_cons.mp hread
      · exact ⟨by decide +kernel, fun stream => by cases stream <;> decide +kernel⟩
      · obtain rfl := List.mem_singleton.mp hread
        exact ⟨by decide +kernel, fun stream => by cases stream <;> decide +kernel⟩
  exact ⟨hboth .stdout, hboth .stderr⟩

/-- The polls of a stage whose output has a line like the headline of `stderr`. -/
def spoofedRun : List (Poll × Snapshot) :=
  runningRun "a\n--- stderr ---\nb\n" "a\n--- stderr ---\nb\nc\n" "e\n"

/-- **A line that is never echoed**, under either label. -/
theorem line_lost : ReadsRun asciiInterpreter (literalPack "hunter2-secret") "s1" spoofedRun ∧
    ['c'] ∈ linesOf ((runningSnapshot "a\n--- stderr ---\nb\nc\n" "e\n").shown .stdout) ∧
      ∀ stream, ['c'] ∉ (follow spoofedRun).echoed "s1" stream := by
  refine ⟨readsRun_runningRun (by decide) ?_ ?_, by decide +kernel, fun stream => ?_⟩
  · exact ⟨fun stream => by cases stream <;> decide +kernel,
      fun stream => by cases stream <;> decide +kernel⟩
  · exact ⟨fun stream => by cases stream <;> decide +kernel,
      fun stream => by cases stream <;> decide +kernel⟩
  · cases stream <;> decide +kernel

end BareAnalysis.LogFollow
