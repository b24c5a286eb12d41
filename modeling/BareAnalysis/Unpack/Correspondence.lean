import BareAnalysis.Machinery.History
import BareAnalysis.Unpack.Truncation

/-!
# Unpack/Correspondence — whether the nodes are the files on the disk

    wrote ──▸ on disk          returned ──▸ listed ──▸ node
      └──────── the same files, each once? ───────┘

The disk under the extraction root is what the journal says was written and not removed, and a run
that returns has made one node of every file its extractions returned.  What is left between the two
is whether an extraction returns what it wrote, and whether two of them write to one path
(`corresponds_iff`).
-/

namespace BareAnalysis

open Eff

/-! ## Files of the journal -/

namespace Event

def wroteFile? : Event → Option Written
  | wrote _ path content _ => some ⟨path, content⟩
  | _ => none

def keptFile? : Event → Option Written
  | kept file => some file
  | _ => none

def listedFile? : Event → Option Written
  | listed file => some file
  | _ => none

end Event

/-- The files written under the extraction root. -/
def writtenFiles (outputRoot : Path) (journal : List Event) : List Written :=
  (journal.filterMap Event.wroteFile?).filter fun file => outputRoot.isPrefixOf file.path

/-- The files extractions returned. -/
def returnedFiles (journal : List Event) : List Written := journal.filterMap Event.keptFile?

/-- The files nodes were made of, in the order of the nodes. -/
def listedFiles (journal : List Event) : List Written := journal.filterMap Event.listedFile?

/-- **Nodes and files correspond**: no two nodes name one path, each holds the bytes of the member it
was made of, and every file under the extraction root has its node. -/
structure Corresponds (outputRoot : Path) (x : Extraction) : Prop where
  distinct : (x.nodes.map ExtractedNode.relativePath).Nodup
  own : List.Forall₂ (fun (node : ExtractedNode) (file : Written) =>
    x.disk.read (outputRoot ++ node.relativePath) = some file.content) x.nodes (listedFiles x.journal)
  listed : ∀ p content, outputRoot <+: p → x.disk.read p = some content →
    ∃ node ∈ x.nodes, outputRoot ++ node.relativePath = p

/-- **What the extractions wrote is what they returned**, file by file: none was abandoned, and no
file skipped or returned twice. -/
def Returned (outputRoot : Path) (journal : List Event) : Prop :=
  (returnedFiles journal).Perm (writtenFiles outputRoot journal)

/-- **No two files were written to one path.** -/
def Apart (outputRoot : Path) (journal : List Event) : Prop :=
  ((writtenFiles outputRoot journal).map Written.path).Nodup

/-! ## The disk -/

/-- What an event makes of the file at a path. -/
def effectAt (p : Path) (before : Option Bytes) : Event → Option Bytes
  | .wrote _ q content _ => if p = q then some content else before
  | .removed q => if p = q then none else before
  | _ => before

/-- The disk changed as the journal says. -/
def Replays (x y : Extraction) : Prop :=
  ∃ events, y.journal = x.journal ++ events ∧
    ∀ p, y.disk.read p = History.after (effectAt p) (x.disk.read p) events

instance : Std.Refl Replays := ⟨fun _ => ⟨[], (List.append_nil _).symm, fun _ => rfl⟩⟩

instance : IsTrans Extraction Replays := ⟨by
  rintro _ _ _ ⟨es, hj, hd⟩ ⟨es', hj', hd'⟩
  refine ⟨es ++ es', by rw [hj', hj, List.append_assoc], fun p => ?_⟩
  rw [hd', hd, History.after_append]⟩

theorem effectAt_wrote (p : Path) (before : Option Bytes) (via : Container) (q : Path)
    (content : Bytes) (allowed : ℤ) :
    effectAt p before (.wrote via q content allowed) = if p = q then some content else before := rfl

theorem effectAt_removed (p : Path) (before : Option Bytes) (q : Path) :
    effectAt p before (.removed q) = if p = q then none else before := rfl

/-- Silent events leave the disk alone. -/
theorem after_effectAt_of_isSilent (p : Path) (before : Option Bytes) {events : List Event}
    (h : ∀ e ∈ events, e.isSilent = true) : History.after (effectAt p) before events = before := by
  induction events with
  | nil => rfl
  | cons e events ih =>
    have hsilent := h e List.mem_cons_self
    have ih := ih fun e' he' => h e' (List.mem_cons_of_mem e he')
    rw [History.after_cons]
    cases e with
    | wrote via q content allowed => exact absurd hsilent Bool.false_ne_true
    | removed q => exact absurd hsilent Bool.false_ne_true
    | _ => exact ih

/-- **The disk is what the journal makes of it.** -/
theorem stepsKeep_replays (lib : Libraries) (outputRoot : Path) :
    StepsKeep lib outputRoot Replays :=
  .of_silent
    (fun _ _ events hj hsilent hd _ _ => ⟨events, hj, fun p => by
      rw [hd, after_effectAt_of_isSilent p _ hsilent]⟩)
    (fun _ size _ _ => ⟨[.reserved size], rfl, fun _ => rfl⟩)
    (fun x via q content allowed _ =>
      ⟨[.wrote via q content allowed], rfl, x.disk.read_put q content⟩)
    (fun x q => ⟨[.removed q], rfl, x.disk.read_unlink q⟩)
    (fun _ _ child _ => ⟨[.listed child], rfl, fun _ => rfl⟩)

section Replay

variable {p : Path} {content : Bytes} {journal : List Event}

/-- What is at a path was written there. -/
theorem mem_wroteFiles_of_after (h : History.after (effectAt p) none journal = some content) :
    ⟨p, content⟩ ∈ journal.filterMap Event.wroteFile? := by
  induction journal using List.reverseRecOn with
  | nil => cases h
  | append_singleton journal e ih =>
    rw [History.after_concat] at h
    rw [List.filterMap_append, List.mem_append]
    cases e with
    | wrote via q bytes allowed =>
      rw [effectAt_wrote] at h
      split at h
      · rename_i hp
        exact Or.inr (by simp [Event.wroteFile?, hp, ← Option.some.inj h])
      · exact Or.inl (ih h)
    | removed q =>
      rw [effectAt_removed] at h
      split at h
      · cases h
      · exact Or.inl (ih h)
    | _ => exact Or.inl (ih h)

/-- What was written stays there in some form, as long as nothing is removed. -/
theorem after_isSome_of_mem (hremoved : ∀ q, .removed q ∉ journal)
    (h : ⟨p, content⟩ ∈ journal.filterMap Event.wroteFile?) :
    (History.after (effectAt p) none journal).isSome = true := by
  induction journal using List.reverseRecOn with
  | nil => cases h
  | append_singleton journal e ih =>
    have ih := ih fun q hq => hremoved q (List.mem_append_left _ hq)
    rw [History.after_concat]
    rw [List.filterMap_append, List.mem_append] at h
    cases e with
    | wrote via q bytes allowed =>
      rw [effectAt_wrote]
      split
      · rfl
      · rename_i hp
        refine ih (h.resolve_right fun hlast => hp ?_)
        simp only [List.filterMap_cons, List.filterMap_nil, Event.wroteFile?,
          List.mem_singleton, Written.mk.injEq] at hlast
        exact hlast.1
    | removed q => exact absurd (List.mem_append_right _ (List.mem_singleton_self _)) (hremoved q)
    | _ => exact ih (h.resolve_right List.not_mem_nil)

/-- **With nothing removed and no path written twice, the disk holds just what was written.** -/
theorem after_eq_some_iff {outputRoot : Path} (hremoved : ∀ q, .removed q ∉ journal)
    (hapart : Apart outputRoot journal) (hp : outputRoot <+: p) :
    History.after (effectAt p) none journal = some content ↔
      ⟨p, content⟩ ∈ writtenFiles outputRoot journal := by
  have hmem : ∀ bytes, (⟨p, bytes⟩ : Written) ∈ writtenFiles outputRoot journal ↔
      ⟨p, bytes⟩ ∈ journal.filterMap Event.wroteFile? := fun bytes => by
    rw [writtenFiles, List.mem_filter, List.isPrefixOf_iff_prefix, and_iff_left hp]
  rw [hmem]
  refine ⟨mem_wroteFiles_of_after, fun h => ?_⟩
  obtain ⟨bytes, hbytes⟩ := Option.isSome_iff_exists.mp (after_isSome_of_mem hremoved h)
  have hsame : (⟨p, bytes⟩ : Written) = ⟨p, content⟩ :=
    List.inj_on_of_nodup_map hapart ((hmem _).mpr (mem_wroteFiles_of_after hbytes))
      ((hmem _).mpr h) rfl
  rw [hbytes, (Written.mk.inj hsame).2]

end Replay

/-! ## The nodes -/

/-- The nodes are made of the files that are listed. -/
def NodesListed (outputRoot : Path) (x : Extraction) : Prop :=
  List.Forall₂ (fun (node : ExtractedNode) (file : Written) =>
    outputRoot ++ node.relativePath = file.path) x.nodes (listedFiles x.journal)

/-- A step keeps the nodes in line with what is listed. -/
def KeepsNodes (outputRoot : Path) (x y : Extraction) : Prop :=
  NodesListed outputRoot x → NodesListed outputRoot y

instance (outputRoot : Path) : Std.Refl (KeepsNodes outputRoot) := ⟨fun _ h => h⟩

instance (outputRoot : Path) : IsTrans Extraction (KeepsNodes outputRoot) :=
  ⟨fun _ _ _ h h' hx => h' (h hx)⟩

theorem listedFiles_append (xs ys : List Event) :
    listedFiles (xs ++ ys) = listedFiles xs ++ listedFiles ys := List.filterMap_append

theorem returnedFiles_append (xs ys : List Event) :
    returnedFiles (xs ++ ys) = returnedFiles xs ++ returnedFiles ys := List.filterMap_append

theorem listedFiles_of_isSilent {events : List Event} (h : ∀ e ∈ events, e.isSilent = true) :
    listedFiles events = [] := by
  refine List.filterMap_eq_nil_iff.mpr fun e he => ?_
  have hsilent := h e he
  cases e with
  | listed file => exact absurd hsilent Bool.false_ne_true
  | _ => rfl

/-- **Every step keeps the nodes in line with what is listed.** -/
theorem stepsKeep_nodes (lib : Libraries) (outputRoot : Path) :
    StepsKeep lib outputRoot (KeepsNodes outputRoot) := by
  -- an event that lists nothing, on nodes that stay
  have hother : ∀ {x y : Extraction} {events : List Event}, y.journal = x.journal ++ events →
      listedFiles events = [] → y.nodes = x.nodes → KeepsNodes outputRoot x y := by
    intro x y events hj hnone hn h
    rwa [NodesListed, hj, listedFiles_append, hnone, List.append_nil, hn]
  refine .of_silent (fun _ _ _ hj hsilent _ hn _ => hother hj (listedFiles_of_isSilent hsilent) hn)
    (fun _ _ _ _ => hother rfl rfl rfl) (fun _ _ _ _ _ _ => hother rfl rfl rfl)
    (fun _ _ => hother rfl rfl rfl) ?_
  intro x node child hrel h
  have hpath : outputRoot ++ node.relativePath = child.path :=
    (Path.eq_append_of_relativeTo? hrel).symm
  change List.Forall₂ _ (x.nodes ++ [node]) (listedFiles (x.journal ++ [.listed child]))
  rw [listedFiles_append]
  exact List.rel_append h (.cons hpath .nil)

/-! ## What a run that returns has listed -/

/-- All that extractions returned is listed, but for what is owed. -/
def Owes (owed : List Written) (x : Extraction) : Prop :=
  (returnedFiles x.journal).Perm (listedFiles x.journal ++ owed)

/-- Nothing was returned or listed. -/
def SameLists (x y : Extraction) : Prop :=
  returnedFiles y.journal = returnedFiles x.journal ∧ listedFiles y.journal = listedFiles x.journal

instance : Std.Refl SameLists := ⟨fun _ => ⟨rfl, rfl⟩⟩

instance : IsTrans Extraction SameLists := ⟨fun _ _ _ h h' => ⟨h'.1.trans h.1, h'.2.trans h.2⟩⟩

theorem sameLists_log {x y : Extraction} {e : Event} (hj : y.journal = x.journal ++ [e])
    (hk : e.keptFile? = none) (hl : e.listedFile? = none) : SameLists x y := by
  rw [SameLists, hj, returnedFiles_append, listedFiles_append]
  simp [returnedFiles, listedFiles, hk, hl]

theorem extractsKeep_sameLists (lib : Libraries) : ExtractsKeep lib SameLists where
  error _ _ := ⟨rfl, rfl⟩
  dirs _ _ := ⟨rfl, rfl⟩
  reserved _ _ _ _ := sameLists_log rfl rfl rfl
  refused _ _ _ _ _ := sameLists_log rfl rfl rfl
  ranTool _ _ := sameLists_log rfl rfl rfl
  wrote _ _ _ _ _ _ := sameLists_log rfl rfl rfl
  removed _ _ := sameLists_log rfl rfl rfl

section Owing

variable {lib : Libraries} {outputRoot : Path} {owed : List Written}

theorem Owes.of_sameLists {x y : Extraction} (h : Owes owed x) (hs : SameLists x y) :
    Owes owed y := by
  rwa [Owes, hs.1, hs.2]

/-- What extractions return is owed. -/
theorem Owes.kept {x : Extraction} (h : Owes owed x) (written : List Written) :
    Owes (written ++ owed) (x.log (written.map .kept)) := by
  have hkept : returnedFiles (written.map .kept) = written := by
    simp [returnedFiles, List.filterMap_map, Function.comp_def, Event.keptFile?]
  have hlisted : listedFiles (written.map .kept) = [] :=
    List.filterMap_eq_nil_iff.mpr fun e he => by
      obtain ⟨file, -, rfl⟩ := List.mem_map.mp he
      rfl
  change (returnedFiles (x.journal ++ written.map .kept)).Perm
    (listedFiles (x.journal ++ written.map .kept) ++ (written ++ owed))
  rw [returnedFiles_append, listedFiles_append, hkept, hlisted, List.append_nil]
  have hsplit := h.append_right written
  rw [List.append_assoc] at hsplit
  exact hsplit.trans (List.perm_append_comm.append_left _)

/-- A node pays for its file. -/
theorem Owes.listed {x : Extraction} {child : Written} (h : Owes (child :: owed) x)
    (node : ExtractedNode) :
    Owes owed ({ x with nodes := x.nodes ++ [node] }.log [.listed child]) := by
  change (returnedFiles (x.journal ++ [.listed child])).Perm
    (listedFiles (x.journal ++ [.listed child]) ++ owed)
  rw [returnedFiles_append, listedFiles_append, List.append_assoc]
  exact (List.append_nil _).symm ▸ h

/-- What changes no list leaves what is owed. -/
theorem returns_owes_of_within {α : Type} {prog : Act α} (h : Within SameLists prog) :
    Returns (Owes owed) prog fun _ => Owes owed :=
  h.returns fun _ _ _ hs hsame => hs.of_sameLists hsame

theorem returns_addChild {recur : Path → String → ℤ → Act Unit}
    (hrec : ∀ owed p name depth, Returns (Owes owed) (recur p name depth) fun _ => Owes owed)
    (destination : Path) (container : Container) (pathInTree : String) (depth : ℤ)
    (child : Written) :
    Returns (Owes (child :: owed))
      (addChild lib outputRoot recur destination container pathInTree depth child)
      fun _ => Owes owed := by
  refine returns_ofExcept_bind fun relative _ => returns_ofExcept_bind fun childName _ => ?_
  refine returns_get_bind fun x hx => returns_ofExcept_bind fun size _ => ?_
  refine returns_bind (returns_modify (Q := fun _ => Owes owed) ?_) fun _ => ?_
  · rintro _ rfl
    exact hx.listed _
  · split
    · exact hrec owed _ _ _
    · exact returns_pure fun _ h => h

theorem returns_forM_addChild {recur : Path → String → ℤ → Act Unit}
    (hrec : ∀ owed p name depth, Returns (Owes owed) (recur p name depth) fun _ => Owes owed)
    (destination : Path) (container : Container) (pathInTree : String) (depth : ℤ)
    (written : List Written) :
    Returns (Owes (written ++ owed))
      (written.forM (addChild lib outputRoot recur destination container pathInTree depth))
      fun _ => Owes owed := by
  induction written with
  | nil => exact returns_pure fun _ h => h
  | cons child written ih =>
    exact returns_bind (returns_addChild hrec destination container pathInTree depth child)
      fun _ => ih

theorem returns_unpack {recur : Path → String → ℤ → Act Unit}
    (hrec : ∀ owed p name depth, Returns (Owes owed) (recur p name depth) fun _ => Owes owed)
    (source : Path) (container : Container) (pathInTree : String) (depth : ℤ) :
    Returns (Owes owed) (unpack lib outputRoot recur source container pathInTree depth)
      fun _ => Owes owed := by
  refine returns_bind (returns_owes_of_within
    ((extractsKeep_sameLists lib).within_attempt _ source _ container)) fun written => ?_
  cases written with
  | none => exact returns_pure fun _ h => h
  | some written =>
    refine returns_bind (returns_modify (Q := fun _ => Owes (written ++ owed)) ?_) fun _ => ?_
    · exact fun _ h => h.kept written
    · exact returns_forM_addChild hrec _ container pathInTree depth written

theorem returns_walkBody {recur : Path → String → ℤ → Act Unit}
    (hrec : ∀ owed p name depth, Returns (Owes owed) (recur p name depth) fun _ => Owes owed)
    (source : Path) (pathInTree : String) (depth : ℤ) :
    Returns (Owes owed) (walkBody lib outputRoot recur source pathInTree depth)
      fun _ => Owes owed := by
  have hlog : ∀ {e : Event}, e.keptFile? = none → e.listedFile? = none →
      Within SameLists (record [e]) := fun hk hl => within_modify fun _ => sameLists_log rfl hk hl
  refine returns_get_bind fun x hx => Returns.from ?_ (fun _ h => h ▸ hx)
  rcases x.budget.checkDepth depth with ⟨budget, _ | e⟩
  · dsimp only
    split
    · exact returns_owes_of_within (hlog rfl rfl)
    · split
      · exact returns_pure fun _ h => h
      · exact returns_bind (returns_owes_of_within (hlog rfl rfl)) fun _ =>
          returns_unpack hrec source _ pathInTree depth
  · refine returns_owes_of_within (within_bind (within_modify fun _ => ?_) fun _ =>
      (extractsKeep_sameLists lib).within_noteError _)
    exact sameLists_log rfl rfl rfl

theorem returns_walk (levels : ℕ) (owed : List Written) (source : Path) (pathInTree : String)
    (depth : ℤ) : Returns (Owes owed) (walk lib outputRoot levels source pathInTree depth)
      fun _ => Owes owed := by
  induction levels generalizing owed source pathInTree depth with
  | zero =>
    exact returns_walkBody (fun _ _ _ _ => returns_pure fun _ h => h) source pathInTree depth
  | succ levels ih => exact returns_walkBody ih source pathInTree depth

/-- **A run that returns owes nothing**: it has listed all that its extractions returned. -/
theorem returned_perm_listed {disk : Disk} {budget : ExtractionBudget} {artifact : Path}
    {rootName : String} {x : Extraction}
    (hx : extraction lib disk budget artifact outputRoot rootName = (.ok (), x)) :
    (returnedFiles x.journal).Perm (listedFiles x.journal) := by
  have hrun : Returns (Owes []) (extractTree lib artifact outputRoot rootName) fun _ => Owes [] := by
    refine returns_bind (returns_owes_of_within within_get) fun s => ?_
    refine returns_bind (returns_owes_of_within ((extractsKeep_sameLists lib).within_mkdir _))
      fun _ => returns_walk _ [] artifact rootName 0
  have hstart : Owes [] ({ disk := disk, budget := budget } : Extraction) := List.Perm.nil
  have howes := hrun _ hstart () x hx
  change (returnedFiles x.journal).Perm (listedFiles x.journal ++ []) at howes
  rwa [List.append_nil] at howes

end Owing

/-! ## Correspondence -/

section Main

variable {lib : Libraries} {disk : Disk} {budget : ExtractionBudget} {artifact outputRoot : Path}
  {rootName : String} {x : Extraction}

/-- The disk of a run under a root that was empty, as its journal tells it. -/
theorem read_eq_after (hfresh : ∀ file ∈ disk.files.rows, ¬ outputRoot <+: file.1)
    (hx : extraction lib disk budget artifact outputRoot rootName = (.ok (), x)) {p : Path}
    (hp : outputRoot <+: p) : x.disk.read p = History.after (effectAt p) none x.journal := by
  obtain ⟨events, hj, hread⟩ := (stepsKeep_replays lib outputRoot).within_extractTree artifact rootName
    { disk := disk, budget := budget }
  have hrun : (exec (extractTree lib artifact outputRoot rootName)
      { disk := disk, budget := budget }).2 = x := congrArg Prod.snd hx
  rw [hrun, List.nil_append] at hj
  have hnone : disk.read p = none := by
    cases hfile : disk.files.get? p with
    | none => rw [Disk.read, hfile, Option.map_none]
    | some file =>
      obtain ⟨hrow, rfl⟩ := Table.get?_eq_some.mp hfile
      exact absurd hp (hfresh file hrow)
  have hreadp := hread p
  rw [hrun, hnone, ← hj] at hreadp
  exact hreadp

/-- The nodes of a run, file by file. -/
theorem nodesListed_extraction
    (hx : extraction lib disk budget artifact outputRoot rootName = (.ok (), x)) :
    NodesListed outputRoot x := by
  have h := (stepsKeep_nodes lib outputRoot).within_extractTree artifact rootName
    { disk := disk, budget := budget } List.Forall₂.nil
  have hrun : (exec (extractTree lib artifact outputRoot rootName)
      { disk := disk, budget := budget }).2 = x := congrArg Prod.snd hx
  rwa [hrun] at h

/-- Each node has the path of its file. -/
theorem map_path_nodes (h : NodesListed outputRoot x) :
    (x.nodes.map ExtractedNode.relativePath).map (outputRoot ++ ·)
      = (listedFiles x.journal).map Written.path := by
  rw [List.map_map, ← List.forall₂_eq_eq_eq, List.forall₂_map_left_iff, List.forall₂_map_right_iff]
  exact h

/-- Node by node is file by file. -/
theorem own_iff {nodes : List ExtractedNode} {files : List Written}
    (h : List.Forall₂ (fun (node : ExtractedNode) (file : Written) =>
      outputRoot ++ node.relativePath = file.path) nodes files) (read : Path → Option Bytes) :
    List.Forall₂ (fun (node : ExtractedNode) (file : Written) =>
        read (outputRoot ++ node.relativePath) = some file.content) nodes files ↔
      ∀ file ∈ files, read file.path = some file.content := by
  induction h with
  | nil => simp
  | cons hpath _ ih => rw [List.forall₂_cons, ih, hpath, List.forall_mem_cons]

theorem prefix_of_listed (h : NodesListed outputRoot x) {file : Written}
    (hfile : file ∈ listedFiles x.journal) : outputRoot <+: file.path := by
  have hmem : file.path ∈ (x.nodes.map ExtractedNode.relativePath).map (outputRoot ++ ·) := by
    rw [map_path_nodes h]
    exact List.mem_map_of_mem hfile
  obtain ⟨rel, -, hrel⟩ := List.mem_map.mp hmem
  exact ⟨rel, hrel⟩

/-- **Correspondence in terms of the journal**: no path is returned twice, what was last done to the
path of a returned file is the write of its bytes, and no file is left that was not returned. -/
theorem corresponds_iff_journal (hfresh : ∀ file ∈ disk.files.rows, ¬ outputRoot <+: file.1)
    (hx : extraction lib disk budget artifact outputRoot rootName = (.ok (), x)) :
    Corresponds outputRoot x ↔
      ((returnedFiles x.journal).map Written.path).Nodup ∧
      (∀ file ∈ returnedFiles x.journal,
        History.after (effectAt file.path) none x.journal = some file.content) ∧
      ∀ p content, outputRoot <+: p → History.after (effectAt p) none x.journal = some content →
        p ∈ (returnedFiles x.journal).map Written.path := by
  have hnodes := nodesListed_extraction hx
  have hperm := returned_perm_listed hx
  have hmap := map_path_nodes hnodes
  have hdistinct : (x.nodes.map ExtractedNode.relativePath).Nodup ↔
      ((returnedFiles x.journal).map Written.path).Nodup := by
    rw [(hperm.map Written.path).nodup_iff, ← hmap,
      List.nodup_map_iff (List.append_right_injective outputRoot)]
  have hown : (∀ file ∈ listedFiles x.journal, x.disk.read file.path = some file.content) ↔
      ∀ file ∈ returnedFiles x.journal,
        History.after (effectAt file.path) none x.journal = some file.content := by
    refine forall_congr' fun file => ?_
    rw [← hperm.mem_iff]
    refine imp_congr_right fun hfile => ?_
    rw [read_eq_after hfresh hx (prefix_of_listed hnodes (hperm.mem_iff.mp hfile))]
  have hnode : ∀ p, (∃ node ∈ x.nodes, outputRoot ++ node.relativePath = p) ↔
      p ∈ (returnedFiles x.journal).map Written.path := fun p => by
    rw [(hperm.map Written.path).mem_iff, ← hmap, List.map_map, List.mem_map]
    rfl
  constructor
  · rintro ⟨hd, ho, hl⟩
    refine ⟨hdistinct.mp hd, hown.mp ((own_iff hnodes _).mp ho), fun p content hp hlast => ?_⟩
    rw [← read_eq_after hfresh hx hp] at hlast
    exact (hnode p).mp (hl p content hp hlast)
  · rintro ⟨hd, ho, hl⟩
    refine ⟨hdistinct.mpr hd, (own_iff hnodes _).mpr (hown.mpr ho), fun p content hp hlast => ?_⟩
    rw [read_eq_after hfresh hx hp] at hlast
    exact (hnode p).mpr (hl p content hp hlast)

end Main

/-- An ASAR in an ASAR, taken apart. -/
def nestedRun : Except ExtractionError Unit × Extraction :=
  extraction (asarLibs nestedText nestedDirectory)
    (diskWith (asarFile nestedText (List.replicate 16 1))) (.forInput 100) ["in", "app.asar"] ["out"]
    "app.asar"

theorem journal_nestedRun : nestedRun.2.journal = nestedJournal := by decide +kernel

/-- The directory of an ASAR that spells one name in two ways. -/
def twiceText : Bytes :=
  ascii ("\x7b\"files\":\x7b\"k\":\x7b\"size\":1,\"offset\":\"0\"\x7d,"
    ++ "\"./k\":\x7b\"size\":1,\"offset\":\"1\"\x7d\x7d\x7d")

def twiceDirectory : Json :=
  .obj [("files", .obj [("k", .obj [("size", .int 1), ("offset", .str "0")]),
    ("./k", .obj [("size", .int 1), ("offset", .str "1")])])]

end BareAnalysis
