import BareAnalysis.Unpack.Steps

/-!
# Unpack/Truncation — whether the result says that extraction stopped early

    stop at a cap ──too deep, refused──▸ noted ──▸ truncated
              └────exhausted───────────▸ nothing

Three kinds of stop, two of which leave a note.  `saysWhenStopped_iff` says that the third is the
only way for the result to be silent about a stop.
-/

namespace BareAnalysis

open Eff

/-- `Extractor(budget).extract_tree(artifact, output_root, root_name=…)`, with the disk it finds. -/
def extraction (lib : Libraries) (disk : Disk) (budget : ExtractionBudget)
    (artifact outputRoot : Path) (rootName : String) : Except ExtractionError Unit × Extraction :=
  exec (extractTree lib artifact outputRoot rootName) { disk := disk, budget := budget }

namespace Event

/-- A cap kept a file from being opened that `detect` says to unpack, or a member from being
written. -/
def isCapStop : Event → Bool
  | tooDeep _ wanted | exhausted _ wanted => wanted
  | refused _ => true
  | _ => false

/-- The stops that leave a note. -/
def isNoted : Event → Bool
  | tooDeep _ _ | refused _ => true
  | _ => false

end Event

/-- **The result says so when extraction stopped early.** -/
def SaysWhenStopped (x : Extraction) : Prop :=
  (∃ e ∈ x.journal, e.isCapStop = true) → x.truncated = true

/-! ## Notes -/

/-- Between two states there is a note exactly for the stops that leave one. -/
def NotesStops (x y : Extraction) : Prop :=
  ∃ events, y.journal = x.journal ++ events ∧
    (y.budget.exceeded = [] ↔ x.budget.exceeded = [] ∧ ∀ e ∈ events, e.isNoted = false)

instance : Std.Refl NotesStops := ⟨fun x => ⟨[], by simp, by simp⟩⟩

instance : IsTrans Extraction NotesStops := ⟨by
  rintro x y z ⟨es, hj, hn⟩ ⟨es', hj', hn'⟩
  refine ⟨es ++ es', by rw [hj', hj, List.append_assoc], ?_⟩
  rw [hn', hn, and_assoc]
  refine and_congr_right fun _ => ⟨?_, fun h => ⟨?_, ?_⟩⟩
  · rintro ⟨h, h'⟩ e he
    rcases List.mem_append.mp he with he | he
    · exact h e he
    · exact h' e he
  · exact fun e he => h e (List.mem_append_left _ he)
  · exact fun e he => h e (List.mem_append_right _ he)⟩

/-- A step that leaves the budget's notes alone and records no noted stop. -/
theorem NotesStops.of_silent {x y : Extraction} {events : List Event}
    (hj : y.journal = x.journal ++ events) (hb : y.budget.exceeded = x.budget.exceeded)
    (he : ∀ e ∈ events, e.isNoted = false) : NotesStops x y :=
  ⟨events, hj, by rw [hb]; exact ⟨fun h => ⟨h, he⟩, fun h => h.1⟩⟩

/-- A stop that is noted, and its note. -/
theorem NotesStops.of_noted {x y : Extraction} {e : Event} (hj : y.journal = x.journal ++ [e])
    (hb : y.budget.exceeded ≠ []) (he : e.isNoted = true) : NotesStops x y := by
  refine ⟨[e], hj, fun h => absurd h hb, fun h => ?_⟩
  rw [h.2 e (List.mem_singleton_self e)] at he
  cases he

/-- **Every step keeps the notes in line with the stops.** -/
theorem stepsKeep_notesStops (lib : Libraries) (outputRoot : Path) :
    StepsKeep lib outputRoot NotesStops where
  error x text := .of_silent (List.append_nil _).symm rfl (by simp)
  dirs x p := .of_silent (List.append_nil _).symm rfl (by simp)
  reserved x size budget hb := by
    rcases reserve_cases hb with ⟨-, -, -, rfl⟩ | ⟨-, -, hne⟩
    · exact .of_silent rfl rfl (by simp [Event.isNoted])
    · exact absurd rfl hne
  refused x size budget e hb := by
    rcases reserve_cases hb with ⟨-, -, hne, -⟩ | ⟨-, hnote, -⟩
    · cases hne
    · exact .of_noted rfl hnote rfl
  tooDeep x depth budget e source wanted hb := by
    rcases checkDepth_cases hb with ⟨-, -, hne⟩ | ⟨-, -, hnote, -⟩
    · cases hne
    · exact .of_noted rfl hnote rfl
  exhausted x source wanted _ := .of_silent rfl rfl (by simp [Event.isNoted])
  opened x source := .of_silent rfl rfl (by simp [Event.isNoted])
  ranTool x source := .of_silent rfl rfl (by simp [Event.isNoted])
  wrote x via p content allowed _ := .of_silent rfl rfl (by simp [Event.isNoted])
  removed x p := .of_silent rfl rfl (by simp [Event.isNoted])
  kept x written := .of_silent rfl rfl fun e he => by
    obtain ⟨w, -, rfl⟩ := List.mem_map.mp he
    rfl
  listed x node child _ := .of_silent rfl rfl (by simp [Event.isNoted])

/-! ## No stop goes unrecorded -/

/-- The journal only grows. -/
def JournalGrows (x y : Extraction) : Prop := x.journal ⊆ y.journal

instance : Std.Refl JournalGrows := ⟨fun _ => List.Subset.refl _⟩

instance : IsTrans Extraction JournalGrows := ⟨fun _ _ _ h h' => List.Subset.trans h h'⟩

theorem NotesStops.grows {x y : Extraction} (h : NotesStops x y) : JournalGrows x y := by
  obtain ⟨es, hj, -⟩ := h
  rw [JournalGrows, hj]
  exact List.subset_append_left _ _

/-- **A file that `detect` says to unpack is opened, or a cap is on record as having stopped the
walk there.** -/
theorem opened_or_stopped {lib : Libraries} {outputRoot : Path} {levels : ℕ} {source : Path}
    {pathInTree : String} {depth : ℤ} {x : Extraction}
    (hwanted : (detect lib x.disk source).shouldUnpack = true) :
    ∃ e ∈ (exec (walk lib outputRoot levels source pathInTree depth) x).2.journal,
      e = .opened source ∨ e = .tooDeep source true ∨ e = .exhausted source true := by
  have hkeep := stepsKeep_notesStops lib outputRoot
  obtain ⟨recur, hrec, heq⟩ : ∃ recur, (∀ p name d, Within NotesStops (recur p name d)) ∧
      walk lib outputRoot levels source pathInTree depth
        = walkBody lib outputRoot recur source pathInTree depth := by
    cases levels with
    | zero => exact ⟨fun _ _ _ => pure (), fun _ _ _ => within_pure (), rfl⟩
    | succ levels => exact ⟨_, hkeep.within_walk levels, rfl⟩
  rw [heq, walkBody, exec_bind, exec_get]
  dsimp only
  rcases x.budget.checkDepth depth with ⟨budget, _ | e⟩
  · dsimp only
    by_cases hex : x.budget.isExhausted = true
    · rw [if_pos hex]
      exact ⟨_, List.mem_append_right _ (List.mem_singleton_self _), by simp [hwanted]⟩
    · -- whatever follows the opening only adds to the journal
      rw [if_neg hex, hwanted, Bool.not_true, if_neg Bool.false_ne_true, exec_bind, record,
        exec_modify]
      exact ⟨.opened source, (hkeep.within_unpack hrec source _ pathInTree depth _).grows
        (List.mem_append_right _ (List.mem_singleton_self _)), Or.inl rfl⟩
  · exact ⟨_, List.mem_append_right _ (List.mem_singleton_self _), by simp [hwanted]⟩

/-! ## The silent stop -/

/-- **The result is silent about a stop exactly when the only stops were those of an exhausted
budget**: it says when it was stopped if and only if a file skipped for an exhausted budget comes
with a note, made for another stop or before. -/
theorem saysWhenStopped_iff (lib : Libraries) (disk : Disk) (budget : ExtractionBudget)
    (artifact outputRoot : Path) (rootName : String) :
    SaysWhenStopped (extraction lib disk budget artifact outputRoot rootName).2 ↔
      ((∃ source, .exhausted source true
          ∈ (extraction lib disk budget artifact outputRoot rootName).2.journal) →
        budget.exceeded ≠ [] ∨
          ∃ e ∈ (extraction lib disk budget artifact outputRoot rootName).2.journal,
            e.isNoted = true) := by
  obtain ⟨events, hj, hn⟩ := (stepsKeep_notesStops lib outputRoot).within_extractTree artifact rootName
    { disk := disk, budget := budget }
  change (extraction lib disk budget artifact outputRoot rootName).2.journal = [] ++ events at hj
  change (extraction lib disk budget artifact outputRoot rootName).2.budget.exceeded = [] ↔ _ at hn
  set x := (extraction lib disk budget artifact outputRoot rootName).2
  rw [List.nil_append] at hj
  have htrunc : x.truncated = true ↔ budget.exceeded ≠ [] ∨ ∃ e ∈ x.journal, e.isNoted = true := by
    have hne : x.truncated = true ↔ x.budget.exceeded ≠ [] := by
      rw [Extraction.truncated, Bool.not_eq_true', List.isEmpty_eq_false_iff]
    rw [hne, ne_eq, hn, hj]
    constructor
    · intro h
      by_contra hnone
      push Not at hnone
      exact h ⟨hnone.1, fun e he => Bool.eq_false_iff.mpr (hnone.2 e he)⟩
    · rintro (h | ⟨e, he, hnoted⟩) ⟨hnil, hall⟩
      · exact h hnil
      · rw [hall e he] at hnoted
        cases hnoted
  unfold SaysWhenStopped
  rw [htrunc]
  constructor
  · rintro h ⟨source, hsource⟩
    exact h ⟨_, hsource, rfl⟩
  · rintro h ⟨e, he, hstop⟩
    cases e with
    | exhausted source wanted =>
      obtain rfl : wanted = true := hstop
      exact h ⟨source, he⟩
    | tooDeep source wanted => exact Or.inr ⟨_, he, rfl⟩
    | refused size => exact Or.inr ⟨_, he, rfl⟩
    | _ => cases hstop

/-! ## Landing on the cap -/

/-- Libraries that decode one ASAR directory, and nothing else. -/
def asarLibs (text : Bytes) (directory : Json) : Libraries where
  isAlnum := Char.isAlphanum
  isAlpha := Char.isAlpha
  lower := id
  repr := fun name => "'" ++ name ++ "'"
  refuses := fun _ => none
  directorySize := 4096
  zip := fun _ => .error "File is not a zip file"
  tar := fun _ => .error "file could not be opened successfully"
  isTar := fun _ => .ok false
  gunzip := fun _ => ⟨[], some "Not a gzipped file"⟩
  loads := fun data => if data = text then .ok directory else .error "Expecting value"
  sevenZip := none
  unsquashfs := none

/-- An ASAR with this directory text, and these bytes after it. -/
def asarFile (text data : Bytes) : Bytes :=
  List.replicate 12 0 ++ [UInt8.ofNat text.length, 0, 0, 0] ++ text ++ data

/-- A disk that holds the artifact and nothing else. -/
def diskWith (content : Bytes) : Disk where
  files := .single (["in", "app.asar"], content)
  dirs := [["in"]]

/-- The directory of an ASAR that holds another. -/
def nestedText : Bytes :=
  ascii "\x7b\"files\":\x7b\"b.asar\":\x7b\"size\":16,\"offset\":\"0\"\x7d\x7d\x7d"

def nestedDirectory : Json :=
  .obj [("files", .obj [("b.asar", .obj [("size", .int 16), ("offset", .str "0")])])]

/-- What is done with it, where the budget allows. -/
def nestedJournal : List Event :=
  let child := ["out", "d0_app.asar", "b.asar"]
  let content := List.replicate 16 1
  [.opened ["in", "app.asar"], .reserved 16, .wrote .asar child content 16, .kept ⟨child, content⟩,
    .listed ⟨child, content⟩, .opened child]

/-- **A silent stop**: the one file of the artifact takes the one file the budget allows, and what is
in it is never looked at. -/
theorem exhausted_without_note :
    ¬ SaysWhenStopped (extraction (asarLibs nestedText nestedDirectory)
      (diskWith (asarFile nestedText (List.replicate 16 1))) { maxFiles := 1 } ["in", "app.asar"]
      ["out"] "app.asar").2 := by
  intro h
  have hstop := h ⟨.exhausted ["out", "d0_app.asar", "b.asar"] true, by decide +kernel, rfl⟩
  revert hstop
  decide +kernel

end BareAnalysis
