import BareAnalysis.Machinery.History
import BareAnalysis.Unpack.Truncation

/-!
# Unpack/Spending — what the budget has charged, and what is really on the disk

    reserve n ──▸ charged + n, pending n ──write──▸ on disk + len,  len ≤ n?

The journal of an extraction is a history of its books, and a moment of the extraction is a prefix of
it.  Every write follows a reservation of its own (`accounted_extraction`); the charges bound the
disk as long as no reservation is negative and none is a guess that falls short
(`budgetHolds_iff_of_python`).
-/

namespace BareAnalysis

open Eff

/-! ## The books -/

/-- The two counters of the budget, what has been written so far (a file that is overwritten counts
each time), and the reservation that was made last and not used. -/
structure Books where
  bytesWritten : ℤ := 0
  filesWritten : ℤ := 0
  bytesOnDisk : ℤ := 0
  filesOnDisk : ℤ := 0
  pending : Option ℤ := none
  deriving DecidableEq

namespace Books

/-- Enter one event. -/
def post (l : Books) : Event → Books
  | .reserved size => { l with
      bytesWritten := l.bytesWritten + size
      filesWritten := l.filesWritten + 1
      pending := some size }
  | .wrote _ _ content _ => { l with
      bytesOnDisk := l.bytesOnDisk + content.length
      filesOnDisk := l.filesOnDisk + 1
      pending := none }
  | _ => { l with pending := none }

end Books

/-- The books at a moment. -/
def booksAt (moment : List Event) : Books := History.after Books.post {} moment

namespace Event

/-- Neither a reservation nor a write. -/
def isQuiet : Event → Bool
  | reserved _ | wrote .. => false
  | _ => true

theorem isQuiet_of_isSilent {e : Event} (h : e.isSilent = true) : e.isQuiet = true := by
  cases e with
  | reserved size => exact absurd h Bool.false_ne_true
  | wrote via p content allowed => exact absurd h Bool.false_ne_true
  | _ => rfl

/-- A reservation is not negative, and a gzip stream delivers no more than was reserved for it. -/
def isCovered : Event → Bool
  | reserved size => decide (0 ≤ size)
  | wrote .gzip _ content allowed => decide ((content.length : ℤ) ≤ allowed)
  | _ => true

end Event

/-- Neither counter has gone down. -/
def CountersGrow (l l' : Books) : Prop :=
  l.bytesWritten ≤ l'.bytesWritten ∧ l.filesWritten ≤ l'.filesWritten

/-- **The budget bounds what is written**: at every moment of the journal what is on the disk is
within both caps, and neither counter ever goes down. -/
structure BudgetHolds (budget : ExtractionBudget) (journal : List Event) : Prop where
  bytes : ∀ moment, moment <+: journal → (booksAt moment).bytesOnDisk ≤ budget.maxTotalBytes
  files : ∀ moment, moment <+: journal → (booksAt moment).filesOnDisk ≤ budget.maxFiles
  grows : ∀ before moment, before <+: moment → moment <+: journal →
    CountersGrow (booksAt before) (booksAt moment)

/-! ## What the extractor enters -/

/-- What the code sees to at each entry: a reservation fits both caps, and a write uses the
reservation just made for it. -/
def Obeys (lib : Libraries) (budget : ExtractionBudget) (l : Books) : Event → Prop
  | .reserved size =>
    l.filesWritten + 1 ≤ budget.maxFiles ∧ l.bytesWritten + size ≤ budget.maxTotalBytes
  | .wrote via _ content allowed => CanWrite lib via content allowed ∧ l.pending = some allowed
  | _ => True

/-- The counters of the budget are those of the books, and without external tools every entry of
the journal obeys. -/
structure Accounted (lib : Libraries) (budget : ExtractionBudget) (x : Extraction) : Prop where
  maxFiles : x.budget.maxFiles = budget.maxFiles
  maxTotalBytes : x.budget.maxTotalBytes = budget.maxTotalBytes
  bytesWritten : x.budget.bytesWritten = (booksAt x.journal).bytesWritten
  filesWritten : x.budget.filesWritten = (booksAt x.journal).filesWritten
  obeys : ToolRan x ∨ History.Throughout Books.post (Obeys lib budget) {} x.journal

section Accounts

variable {lib : Libraries} {budget : ExtractionBudget} {x y : Extraction}

theorem books_append (moment events : List Event) :
    booksAt (moment ++ events) = History.after Books.post (booksAt moment) events :=
  History.after_append _ _ _ _

theorem books_concat (moment : List Event) (e : Event) :
    booksAt (moment ++ [e]) = (booksAt moment).post e :=
  History.after_concat _ _ _ _

/-- Quiet events leave the counters alone, and obey. -/
theorem counters_of_quiet (l : Books) {events : List Event} (h : ∀ e ∈ events, e.isQuiet = true) :
    (History.after Books.post l events).bytesWritten = l.bytesWritten ∧
      (History.after Books.post l events).filesWritten = l.filesWritten ∧
      History.Throughout Books.post (Obeys lib budget) l events := by
  induction events generalizing l with
  | nil => exact ⟨rfl, rfl, trivial⟩
  | cons e events ih =>
    have hquiet := h e List.mem_cons_self
    obtain ⟨hb, hf, hobeys⟩ := ih (l.post e) fun e' he' => h e' (List.mem_cons_of_mem e he')
    cases e with
    | reserved size => exact absurd hquiet Bool.false_ne_true
    | wrote via p content allowed => exact absurd hquiet Bool.false_ne_true
    | _ => exact ⟨hb, hf, trivial, hobeys⟩

theorem toolRan_append {events : List Event} (h : ToolRan x) (hj : y.journal = x.journal ++ events) :
    ToolRan y := by
  obtain ⟨source, hs⟩ := h
  exact ⟨source, by rw [hj]; exact List.mem_append_left _ hs⟩

/-- A step that enters quiet events only and leaves the totals alone. -/
theorem Accounted.of_quiet (h : Accounted lib budget x) {events : List Event}
    (hj : y.journal = x.journal ++ events) (hq : ∀ e ∈ events, e.isQuiet = true)
    (hb : SameTotals x.budget y.budget) : Accounted lib budget y := by
  obtain ⟨-, hfiles, hbytes, hwf, hwb⟩ := hb
  obtain ⟨hcb, hcf, hobeys⟩ := @counters_of_quiet lib budget (booksAt x.journal) _ hq
  refine ⟨hfiles.trans h.maxFiles, hbytes.trans h.maxTotalBytes, ?_, ?_, ?_⟩
  · rw [hwb, h.bytesWritten, hj, books_append, hcb]
  · rw [hwf, h.filesWritten, hj, books_append, hcf]
  · refine h.obeys.imp (fun hran => toolRan_append hran hj) fun hall => ?_
    rw [hj]
    exact (History.throughout_append _ _ _).mpr ⟨hall, hobeys⟩

/-- A reservation within both caps. -/
theorem Accounted.of_reserved (h : Accounted lib budget x) {size : ℤ} {after : ExtractionBudget}
    (hr : x.budget.reserve size = (after, none)) :
    Accounted lib budget ({ x with budget := after }.log [.reserved size]) := by
  obtain ⟨hfiles, hbytes, -, rfl⟩ | ⟨-, -, hne⟩ := reserve_cases hr
  · have hl : booksAt (x.journal ++ [.reserved size])
        = (booksAt x.journal).post (.reserved size) := books_concat _ _
    refine ⟨h.maxFiles, h.maxTotalBytes, ?_, ?_, ?_⟩
    · change x.budget.bytesWritten + size = (booksAt (x.journal ++ [.reserved size])).bytesWritten
      rw [hl, h.bytesWritten]
      rfl
    · change x.budget.filesWritten + 1 = (booksAt (x.journal ++ [.reserved size])).filesWritten
      rw [hl, h.filesWritten]
      rfl
    · refine h.obeys.imp (fun hran => toolRan_append hran rfl) fun hall => ?_
      rw [h.filesWritten, h.maxFiles] at hfiles
      rw [h.bytesWritten, h.maxTotalBytes] at hbytes
      exact (History.throughout_append _ _ _).mpr ⟨hall, ⟨hfiles, hbytes⟩, trivial⟩
  · exact absurd rfl hne

/-- A write, of a Python extractor with its reservation or of a tool. -/
theorem Accounted.of_wrote (h : Accounted lib budget x) {via : Container} {p : Path}
    {content : Bytes} {allowed : ℤ}
    (hw : (CanWrite lib via content allowed ∧ HasReserved allowed x) ∨ ToolRan x) :
    Accounted lib budget
      ({ x with disk := x.disk.put p content }.log [.wrote via p content allowed]) := by
  have hl : booksAt (x.journal ++ [.wrote via p content allowed])
      = (booksAt x.journal).post (.wrote via p content allowed) := books_concat _ _
  refine ⟨h.maxFiles, h.maxTotalBytes, ?_, ?_, ?_⟩
  · change x.budget.bytesWritten
      = (booksAt (x.journal ++ [.wrote via p content allowed])).bytesWritten
    rw [hl, h.bytesWritten]
    rfl
  · change x.budget.filesWritten
      = (booksAt (x.journal ++ [.wrote via p content allowed])).filesWritten
    rw [hl, h.filesWritten]
    rfl
  · obtain ⟨hcan, pre, hlast⟩ | hran := hw
    · refine h.obeys.imp (fun hran => toolRan_append hran rfl) fun hall => ?_
      have hpending : (booksAt x.journal).pending = some allowed := by
        rw [hlast, books_concat]
        rfl
      exact (History.throughout_append _ _ _).mpr ⟨hall, ⟨hcan, hpending⟩, trivial⟩
    · exact Or.inl (toolRan_append hran rfl)

end Accounts

/-- A step keeps the accounts. -/
def KeepsAccounts (lib : Libraries) (budget : ExtractionBudget) (x y : Extraction) : Prop :=
  Accounted lib budget x → Accounted lib budget y

instance (lib : Libraries) (budget : ExtractionBudget) : Std.Refl (KeepsAccounts lib budget) :=
  ⟨fun _ h => h⟩

instance (lib : Libraries) (budget : ExtractionBudget) :
    IsTrans Extraction (KeepsAccounts lib budget) :=
  ⟨fun _ _ _ h h' hx => h' (h hx)⟩

/-- **Every step keeps the accounts.** -/
theorem stepsKeep_accounts (lib : Libraries) (budget : ExtractionBudget) (outputRoot : Path) :
    StepsKeep lib outputRoot (KeepsAccounts lib budget) :=
  .of_silent
    (fun _ _ _ hj hsilent _ _ hb h => h.of_quiet hj (fun e he => Event.isQuiet_of_isSilent (hsilent e he)) hb)
    (fun _ _ _ hr h => h.of_reserved hr)
    (fun _ _ _ _ _ hw h => h.of_wrote hw)
    (fun _ _ h => h.of_quiet rfl (by simp [Event.isQuiet]) (sameTotals_refl _))
    (fun _ _ _ _ h => h.of_quiet rfl (by simp [Event.isQuiet]) (sameTotals_refl _))

/-- A budget of which nothing has been spent. -/
def ExtractionBudget.ofCaps (maxDepth maxFiles maxTotalBytes : ℤ) : ExtractionBudget :=
  { maxDepth := maxDepth, maxFiles := maxFiles, maxTotalBytes := maxTotalBytes }

/-- **An extraction is accounted for**: the counters of the budget are the sums of the reservations
on record, and every write of a Python extractor has its reservation. -/
theorem accounted_extraction (lib : Libraries) (disk : Disk) (maxDepth maxFiles maxTotalBytes : ℤ)
    (artifact outputRoot : Path) (rootName : String) :
    Accounted lib (.ofCaps maxDepth maxFiles maxTotalBytes)
      (extraction lib disk (.ofCaps maxDepth maxFiles maxTotalBytes) artifact outputRoot
        rootName).2 :=
  (stepsKeep_accounts lib (.ofCaps maxDepth maxFiles maxTotalBytes) outputRoot).within_extractTree
    artifact rootName _ ⟨rfl, rfl, rfl, rfl, Or.inr trivial⟩

/-! ## The charges cover the disk -/

/-- `zipfile` and `tarfile` deliver no more for a member than it declares. -/
structure YieldsDeclared (lib : Libraries) : Prop where
  zip : ∀ data infolist, lib.zip data = .ok infolist →
    ∀ info ∈ infolist, info.reader.content.length ≤ info.fileSize
  tar : ∀ data members, lib.tar data = .ok members →
    ∀ member ∈ members, ∀ reader, member.extracted = some reader →
      (reader.content.length : ℤ) ≤ member.size

/-- The charges are within the caps and cover what is on the disk, a reservation not yet used
included. -/
structure Solvent (budget : ExtractionBudget) (l : Books) : Prop where
  pending : 0 ≤ l.pending.getD 0
  bytes : l.bytesOnDisk + l.pending.getD 0 ≤ l.bytesWritten
  files : l.filesOnDisk + (if l.pending.isSome then 1 else 0) ≤ l.filesWritten
  bytesCap : l.bytesWritten ≤ budget.maxTotalBytes
  filesCap : l.filesWritten ≤ budget.maxFiles

section Cover

variable {lib : Libraries} {budget : ExtractionBudget}

/-- **A Python extractor writes no more than it reserved**, a gzip stream apart. -/
theorem length_le_of_canWrite (hyield : YieldsDeclared lib) {via : Container} {p : Path}
    {content : Bytes} {allowed : ℤ} (hcan : CanWrite lib via content allowed) (h0 : 0 ≤ allowed)
    (hcovered : (Event.wrote via p content allowed).isCovered = true) :
    (content.length : ℤ) ≤ allowed := by
  cases via with
  | zip =>
    obtain ⟨data, infolist, hz, info, hi, rfl, rfl⟩ := hcan
    exact_mod_cast hyield.zip data infolist hz info hi
  | tar =>
    obtain ⟨data, members, ht, member, hm, hc, rfl⟩ := hcan
    obtain ⟨reader, hr, rfl⟩ := Option.map_eq_some_iff.mp hc
    exact hyield.tar data members ht member hm reader hr
  | asar =>
    obtain ⟨data, start, hread⟩ := hcan
    unfold readAt at hread
    rw [if_neg (by omega : ¬ allowed = -1), if_neg (by omega : ¬ allowed < -1)] at hread
    split at hread
    · cases hread
    · split at hread
      · cases hread
      · rw [← Except.ok.inj hread, List.length_take]
        omega
  | gzip => exact of_decide_eq_true hcovered
  | _ => exact hcan.elim

/-- **A covered entry keeps the books solvent.** -/
theorem solvent_post (hyield : YieldsDeclared lib) {l : Books} {e : Event} (h : Solvent budget l)
    (ho : Obeys lib budget l e) (hcovered : e.isCovered = true) : Solvent budget (l.post e) := by
  obtain ⟨hp, hb, hf, hbc, hfc⟩ := h
  have hsome : 0 ≤ if l.pending.isSome then (1 : ℤ) else 0 := by split <;> decide
  cases e with
  | reserved size =>
    have hsize : 0 ≤ size := of_decide_eq_true hcovered
    refine ⟨hsize, ?_, ?_, ho.2, ho.1⟩
    · change l.bytesOnDisk + size ≤ l.bytesWritten + size
      omega
    · change l.filesOnDisk + 1 ≤ l.filesWritten + 1
      omega
  | wrote via p content allowed =>
    obtain ⟨hcan, hpending⟩ := ho
    rw [hpending] at hp hb hf
    have hlen := length_le_of_canWrite hyield hcan hp hcovered
    refine ⟨le_rfl, ?_, ?_, hbc, hfc⟩
    · change l.bytesOnDisk + content.length + 0 ≤ l.bytesWritten
      change l.bytesOnDisk + allowed ≤ l.bytesWritten at hb
      omega
    · change l.filesOnDisk + 1 + 0 ≤ l.filesWritten
      exact (Int.add_zero _).trans_le hf
  | _ =>
    refine ⟨le_rfl, ?_, ?_, hbc, hfc⟩
    · change l.bytesOnDisk + 0 ≤ l.bytesWritten
      omega
    · change l.filesOnDisk + 0 ≤ l.filesWritten
      omega

/-- A covered reservation raises the counters, and nothing else moves them. -/
theorem countersGrow_post {l : Books} {e : Event} (hcovered : e.isCovered = true) :
    CountersGrow l (l.post e) := by
  cases e with
  | reserved size =>
    have hsize : 0 ≤ size := of_decide_eq_true hcovered
    exact ⟨Int.le_add_of_nonneg_right hsize, Int.le_add_of_nonneg_right Int.one_nonneg⟩
  | _ => exact ⟨le_rfl, le_rfl⟩

end Cover

/-! ## When the budget holds -/

/-- A negative reservation takes a counter down. -/
theorem reserved_nonneg_of_budgetHolds {budget : ExtractionBudget} {journal : List Event}
    (h : BudgetHolds budget journal) {size : ℤ} (hsize : .reserved size ∈ journal) : 0 ≤ size := by
  obtain ⟨pre, post, rfl⟩ := List.append_of_mem hsize
  have hstep : pre ++ [.reserved size] <+: pre ++ .reserved size :: post := by
    exact ⟨post, List.append_assoc _ _ _⟩
  have hgrow := (h.grows pre _ (List.prefix_append pre _) hstep).1
  rw [books_concat] at hgrow
  change (booksAt pre).bytesWritten ≤ (booksAt pre).bytesWritten + size at hgrow
  omega

/-- Solvent books are within the caps. -/
theorem Solvent.within_caps {budget : ExtractionBudget} {l : Books} (h : Solvent budget l) :
    l.bytesOnDisk ≤ budget.maxTotalBytes ∧ l.filesOnDisk ≤ budget.maxFiles := by
  obtain ⟨hp, hb, hf, hbc, hfc⟩ := h
  have hsome : 0 ≤ if l.pending.isSome then (1 : ℤ) else 0 := by split <;> decide
  omega

/-- **Covered entries that obey are within the budget.** -/
theorem budgetHolds_of_covered {lib : Libraries} (hyield : YieldsDeclared lib)
    {budget : ExtractionBudget} (hfiles : 0 ≤ budget.maxFiles) (hbytes : 0 ≤ budget.maxTotalBytes)
    {journal : List Event} (hobeys : History.Throughout Books.post (Obeys lib budget) {} journal)
    (hcovered : ∀ e ∈ journal, e.isCovered = true) : BudgetHolds budget journal := by
  have hlast : ∀ (pre : List Event) e, pre ++ [e] <+: journal → e.isCovered = true :=
    fun pre e hpre => hcovered e (hpre.subset (List.mem_append_right pre (List.mem_singleton_self e)))
  have hboth : History.Throughout Books.post
      (fun l e => Obeys lib budget l e ∧ e.isCovered = true) {} journal :=
    (History.throughout_iff _ _).mpr fun pre e hpre =>
      ⟨(History.throughout_iff _ _).mp hobeys pre e hpre, hlast pre e hpre⟩
  have hsolvent : ∀ moment, moment <+: journal → Solvent budget (booksAt moment) := fun _ hm =>
    History.invariant_of_throughout (fun l e hl he => solvent_post hyield hl he.1 he.2)
      ⟨le_rfl, le_rfl, le_rfl, hbytes, hfiles⟩ hboth hm
  have hgrow : History.Throughout Books.post (fun l e => CountersGrow l (l.post e)) {} journal :=
    (History.throughout_iff _ _).mpr fun pre e hpre => countersGrow_post (hlast pre e hpre)
  refine ⟨fun _ hm => (hsolvent _ hm).within_caps.1, fun _ hm => (hsolvent _ hm).within_caps.2, ?_⟩
  exact (History.forall_later_iff_throughout (R := CountersGrow) (fun l => ⟨le_rfl, le_rfl⟩)
    (fun _ _ _ h h' => ⟨h.1.trans h'.1, h.2.trans h'.2⟩) {} journal).mpr hgrow

/-- **The budget bounds what the Python extractors write exactly when no reservation is negative**,
over caps that are not negative themselves, as long as no gzip stream delivers more than the guess
reserved for it. -/
theorem budgetHolds_iff_of_python (lib : Libraries) (hyield : YieldsDeclared lib) (disk : Disk)
    (maxDepth maxFiles maxTotalBytes : ℤ) (artifact outputRoot : Path) (rootName : String)
    (journal : List Event)
    (hjournal : (extraction lib disk (.ofCaps maxDepth maxFiles maxTotalBytes) artifact outputRoot
      rootName).2.journal = journal)
    (hpython : ∀ source, .ranTool source ∉ journal)
    (hgzip : ∀ p content allowed, .wrote .gzip p content allowed ∈ journal →
      (content.length : ℤ) ≤ allowed) :
    BudgetHolds (.ofCaps maxDepth maxFiles maxTotalBytes) journal ↔
      0 ≤ maxFiles ∧ 0 ≤ maxTotalBytes ∧ ∀ size, .reserved size ∈ journal → 0 ≤ size := by
  constructor
  · intro h
    exact ⟨h.files [] List.nil_prefix, h.bytes [] List.nil_prefix,
      fun size => reserved_nonneg_of_budgetHolds h⟩
  · rintro ⟨hfiles, hbytes, hsizes⟩
    have hobeys := (accounted_extraction lib disk maxDepth maxFiles maxTotalBytes artifact outputRoot
      rootName).obeys
    rw [ToolRan, hjournal] at hobeys
    obtain ⟨source, hran⟩ | hobeys := hobeys
    · exact absurd hran (hpython source)
    · refine budgetHolds_of_covered hyield hfiles hbytes hobeys fun e he => ?_
      cases e with
      | reserved size => exact decide_eq_true (hsizes size he)
      | wrote via p content allowed =>
        cases via with
        | gzip => exact decide_eq_true (hgzip p content allowed he)
        | _ => rfl
      | _ => rfl

/-! ## Spending what was never charged -/

theorem yieldsDeclared_asarLibs (text : Bytes) (directory : Json) :
    YieldsDeclared (asarLibs text directory) where
  zip data infolist h := by cases h
  tar data members h := by cases h

/-- … of an ASAR in an ASAR, which stays within its caps. -/
theorem budgetHolds_nested : BudgetHolds (.ofCaps 8 20000 64) nestedJournal :=
  (budgetHolds_iff_of_python (asarLibs nestedText nestedDirectory) (yieldsDeclared_asarLibs _ _)
    (diskWith (asarFile nestedText (List.replicate 16 1))) 8 20000 64 ["in", "app.asar"] ["out"]
    "app.asar" nestedJournal (by decide +kernel) (by simp [nestedJournal])
    (by simp [nestedJournal])).mpr (by simp [nestedJournal])

/-- The directory of an ASAR that declares a size of -1, which `read` takes for "to the end". -/
def endlessText : Bytes :=
  ascii "\x7b\"files\":\x7b\"a\":\x7b\"size\":-1,\"offset\":\"0\"\x7d\x7d\x7d"

def endlessDirectory : Json :=
  .obj [("files", .obj [("a", .obj [("size", .int (-1)), ("offset", .str "0")])])]

/-- **Sixteen bytes past a cap of four**, with a counter that goes from 0 to -1. -/
theorem endless_entry_over_cap :
    ¬ BudgetHolds (.ofCaps 8 20000 4)
      (extraction (asarLibs endlessText endlessDirectory)
        (diskWith (asarFile endlessText (List.replicate 16 1))) (.ofCaps 8 20000 4)
        ["in", "app.asar"] ["out"] "app.asar").2.journal := by
  intro h
  have hbytes := h.bytes _ (List.prefix_refl _)
  revert hbytes
  decide +kernel

end BareAnalysis
