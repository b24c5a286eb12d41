import Mathlib.Logic.Relation
import BareAnalysis.Unpack.Truncation

/-!
# Unpack/WellFormed — the tree of an extraction

    root ──▸ node ──▸ node ──▸ …        at most max_depth + 1 levels, each under an earlier node

However containers hold one another, the walk calls itself no deeper than the depth cap allows
(`exec_extractTreeOver`), and a node is listed under the walk that found it (`isTree_extraction`).
-/

namespace BareAnalysis

open Eff

variable {lib : Libraries}

/-! ## How deep the walk goes -/

section Depth

variable (lib) (outputRoot : Path) (beyond : Path → String → ℤ → Act Unit)

/-- `_walk`, with `beyond` called in its place when so many calls are open. -/
def walkOver : ℕ → Path → String → ℤ → Act Unit
  | 0 => beyond
  | calls + 1 => walkBody lib outputRoot (walkOver calls)

/-- `Extractor.extract_tree` on that walk. -/
def extractTreeOver (calls : ℕ) (artifact : Path) (rootName : String) : Act Unit := do
  mkdir lib outputRoot
  walkOver lib outputRoot beyond calls artifact rootName 0

variable {lib outputRoot beyond}

/-- **Calls enough to pass the depth cap are enough**: what is beyond them is not called. -/
theorem agreeOn_walkOver {levels calls : ℕ} {depth cap : ℤ} (hlevels : cap + 1 - depth ≤ levels)
    (hcalls : cap + 1 - depth < calls) (hpos : 0 < calls) (source : Path) (pathInTree : String) :
    AgreeOn (fun x => x.budget.maxDepth = cap) (walk lib outputRoot levels source pathInTree depth)
      (walkOver lib outputRoot beyond calls source pathInTree depth) := by
  have hcaps := fun levels => (stepsKeep_sameCaps lib outputRoot).within_walk levels
  induction levels generalizing calls depth source pathInTree with
  | zero =>
    obtain ⟨calls, rfl⟩ := Nat.exists_eq_succ_of_ne_zero hpos.ne'
    -- past the cap, whatever the children's walk would be
    have hdeep : ¬ depth ≤ cap := by omega
    exact agreeOn_walkBody (fun _ _ _ => within_pure ()) (fun hd => absurd hd hdeep) source
      pathInTree
  | succ levels ih =>
    obtain ⟨calls, rfl⟩ := Nat.exists_eq_succ_of_ne_zero hpos.ne'
    refine agreeOn_walkBody (hcaps levels) (fun hd p name => ?_) source pathInTree
    exact ih (by omega) (by omega) (by omega) p name

/-- **The recursion is bounded by the depth cap.** -/
theorem exec_extractTreeOver {calls : ℕ} {x : Extraction}
    (hcalls : (x.budget.maxDepth + 1).toNat < calls) (artifact : Path) (rootName : String) :
    exec (extractTreeOver lib outputRoot beyond calls artifact rootName) x
      = exec (extractTree lib artifact outputRoot rootName) x := by
  have hmkdir : Keeps (fun y => y.budget.maxDepth = x.budget.maxDepth) (mkdir lib outputRoot) :=
    keeps_maxDepth ((stepsKeep_sameCaps lib outputRoot).within_mkdir outputRoot) _
  have hwalk : AgreeOn (fun y => y.budget.maxDepth = x.budget.maxDepth)
      (walk lib outputRoot (x.budget.maxDepth + 1).toNat artifact rootName 0)
      (walkOver lib outputRoot beyond calls artifact rootName 0) :=
    agreeOn_walkOver (by omega) (by omega) (by omega) artifact rootName
  rw [extractTree, exec_get_bind]
  exact (agreeOn_bind hmkdir (fun _ => hwalk) x rfl).symm

end Depth

/-! ## What is listed under what -/

section Tree

variable (rootName : String)

/-- The root, or a node that is listed. -/
def StandsAt (nodes : List ExtractedNode) (path : String) (depth : ℤ) : Prop :=
  (depth = 0 → path = rootName) ∧
    (depth ≠ 0 → ∃ p ∈ nodes, p.pathInTree = path ∧ p.depth = depth)

/-- A node one level below its parent, with a path that extends its parent's. -/
structure Attached (maxDepth : ℤ) (nodes : List ExtractedNode) (node : ExtractedNode) : Prop where
  depth_pos : 1 ≤ node.depth
  depth_le : node.depth ≤ maxDepth + 1
  parent : ∃ path, node.parentPathInTree = some path ∧
    StandsAt rootName nodes path (node.depth - 1) ∧ ∃ name, node.pathInTree = path ++ " → " ++ name

/-- **The nodes form a tree**: each is attached to the root or to an earlier one. -/
def IsTree (maxDepth : ℤ) (nodes : List ExtractedNode) : Prop :=
  ∀ ahead node rest, nodes = ahead ++ node :: rest → Attached rootName maxDepth ahead node

/-- Nodes are added one after the other. -/
def AddsNodes (maxDepth : ℤ) : List ExtractedNode → List ExtractedNode → Prop :=
  Relation.ReflTransGen fun nodes nodes' =>
    ∃ node, Attached rootName maxDepth nodes node ∧ nodes' = nodes ++ [node]

/-- Between two states the tree grows, under one depth cap. -/
structure GrowsTree (x y : Extraction) : Prop where
  maxDepth : y.budget.maxDepth = x.budget.maxDepth
  nodes : AddsNodes rootName x.budget.maxDepth x.nodes y.nodes

instance : Std.Refl (GrowsTree rootName) := ⟨fun _ => ⟨rfl, .refl⟩⟩

instance : IsTrans Extraction (GrowsTree rootName) :=
  ⟨fun _ _ _ h h' => ⟨h'.maxDepth.trans h.maxDepth, h.nodes.trans (h.maxDepth ▸ h'.nodes)⟩⟩

variable {rootName} {maxDepth depth : ℤ} {nodes nodes' : List ExtractedNode} {path : String}
  {x y : Extraction}

theorem AddsNodes.subset (h : AddsNodes rootName maxDepth nodes nodes') : nodes ⊆ nodes' := by
  induction h with
  | refl => exact List.Subset.refl nodes
  | tail _ hstep ih =>
    obtain ⟨node, -, rfl⟩ := hstep
    exact List.Subset.trans ih (List.subset_append_left _ _)

theorem StandsAt.mono (h : StandsAt rootName nodes path depth) (hsub : nodes ⊆ nodes') :
    StandsAt rootName nodes' path depth := by
  refine ⟨h.1, fun hne => ?_⟩
  obtain ⟨p, hp, hpath⟩ := h.2 hne
  exact ⟨p, hsub hp, hpath⟩

theorem isTree_of_addsNodes (h : AddsNodes rootName maxDepth [] nodes) :
    IsTree rootName maxDepth nodes := by
  induction h with
  | refl =>
    intro ahead node rest heq
    exact absurd heq.symm (List.append_ne_nil_of_right_ne_nil _ (List.cons_ne_nil _ _))
  | tail _ hstep ih =>
    obtain ⟨added, hadded, rfl⟩ := hstep
    intro ahead node rest heq
    obtain rfl | ⟨rest, last, rfl⟩ := List.eq_nil_or_concat rest
    · obtain ⟨rfl, hlast⟩ := List.append_inj' heq rfl
      exact List.head_eq_of_cons_eq hlast ▸ hadded
    · rw [List.concat_eq_append, ← List.cons_append, ← List.append_assoc] at heq
      exact ih ahead node rest (List.append_inj' heq rfl).1

/-- No node has the path of the root: paths only get longer. -/
theorem length_lt_of_addsNodes (h : AddsNodes rootName maxDepth [] nodes) :
    ∀ n ∈ nodes, rootName.length < n.pathInTree.length := by
  induction h with
  | refl => exact fun n hn => nomatch hn
  | tail _ hstep ih =>
    obtain ⟨added, hadded, rfl⟩ := hstep
    intro n hn
    obtain hn | hn := List.mem_append.mp hn
    · exact ih n hn
    · obtain rfl := List.mem_singleton.mp hn
      obtain ⟨path, -, hstands, name, hname⟩ := hadded.parent
      have hle : rootName.length ≤ path.length := by
        by_cases hdepth : n.depth - 1 = 0
        · rw [hstands.1 hdepth]
        · obtain ⟨p, hp, rfl, -⟩ := hstands.2 hdepth
          exact (ih p hp).le
      have harrow : " → ".length = 3 := rfl
      rw [hname, String.length_append, String.length_append]
      omega

/-! ## The walk lists a tree -/

theorem growsTree_of_nodes (hdepth : y.budget.maxDepth = x.budget.maxDepth)
    (hnodes : y.nodes = x.nodes) : GrowsTree rootName x y :=
  ⟨hdepth, hnodes ▸ .refl⟩

/-- **An extraction of one container lists nothing.** -/
theorem extractsKeep_growsTree (lib : Libraries) (rootName : String) :
    ExtractsKeep lib (GrowsTree rootName) where
  error _ _ := growsTree_of_nodes rfl rfl
  dirs _ _ := growsTree_of_nodes rfl rfl
  reserved x size budget hb := by
    obtain ⟨-, -, -, rfl⟩ | ⟨hsame, -, -⟩ := reserve_cases hb
    · exact growsTree_of_nodes rfl rfl
    · exact growsTree_of_nodes hsame.1 rfl
  refused x size budget e hb := by
    obtain ⟨-, -, -, rfl⟩ | ⟨hsame, -, -⟩ := reserve_cases hb
    · exact growsTree_of_nodes rfl rfl
    · exact growsTree_of_nodes hsame.1 rfl
  ranTool _ _ := growsTree_of_nodes rfl rfl
  wrote _ _ _ _ _ _ := growsTree_of_nodes rfl rfl
  removed _ _ := growsTree_of_nodes rfl rfl

/-- A walk of a file that is listed. -/
def Listed (rootName path : String) (depth : ℤ) (x : Extraction) : Prop :=
  StandsAt rootName x.nodes path depth

/-- …where the depth cap lets its children be listed. -/
def MayList (rootName path : String) (depth : ℤ) (x : Extraction) : Prop :=
  StandsAt rootName x.nodes path depth ∧ depth ≤ x.budget.maxDepth

theorem MayList.of_growsTree (hx : MayList rootName path depth x) (h : GrowsTree rootName x y) :
    MayList rootName path depth y :=
  ⟨hx.1.mono h.nodes.subset, h.maxDepth ▸ hx.2⟩

variable {outputRoot : Path} {recur : Path → String → ℤ → Act Unit}

theorem withinFrom_addChild (hrec : ∀ p name, WithinFrom (Listed rootName name (depth + 1))
      (GrowsTree rootName) (recur p name (depth + 1))) (hdepth : 0 ≤ depth) (destination : Path)
    (container : Container) (child : Written) :
    WithinFrom (MayList rootName path depth) (GrowsTree rootName)
      (addChild lib outputRoot recur destination container path depth child) := by
  refine withinFrom_ofExcept_bind fun relative _ => withinFrom_ofExcept_bind fun childName _ => ?_
  refine withinFrom_bind within_get.from (fun x hx => hx) fun x => ?_
  refine withinFrom_ofExcept_bind fun size _ => fun y hy => ?_
  rw [exec_modify_bind]
  set node : ExtractedNode :=
    { pathInTree := path ++ " → " ++ childName.asPosix
      relativePath := relative
      parentPathInTree := some path
      depth := depth + 1
      sizeBytes := size
      container := (detect lib x.disk child.path).container.value
      extractedBy := container.value }
  have hattached : Attached rootName y.budget.maxDepth y.nodes node := by
    refine ⟨Int.le_add_of_nonneg_left hdepth, Int.add_le_add_right hy.2 1, path, rfl, ?_, _, rfl⟩
    rw [show node.depth - 1 = depth from Int.add_sub_cancel depth 1]
    exact hy.1
  set y' : Extraction := { y with nodes := y.nodes ++ [node] }.log [.listed child]
  have hstep : GrowsTree rootName y y' := ⟨rfl, .single ⟨node, hattached, rfl⟩⟩
  refine IsTrans.trans _ _ _ hstep ?_
  split
  · refine hrec _ _ y' ⟨fun hzero => absurd hzero (by omega), fun _ => ?_⟩
    exact ⟨node, List.mem_append_right _ (List.mem_singleton_self node), rfl, rfl⟩
  · exact Std.Refl.refl y'

theorem withinFrom_unpack (hrec : ∀ p name, WithinFrom (Listed rootName name (depth + 1))
      (GrowsTree rootName) (recur p name (depth + 1))) (hdepth : 0 ≤ depth) (source : Path)
    (container : Container) :
    WithinFrom (MayList rootName path depth) (GrowsTree rootName)
      (unpack lib outputRoot recur source container path depth) := by
  have hattempt := (extractsKeep_growsTree lib rootName).within_attempt path source
    (outputRoot ++ [slugify lib.isAlnum path depth]) container
  refine withinFrom_bind hattempt.from (fun x hx => hx.of_growsTree (hattempt x)) fun written => ?_
  cases written with
  | none => exact (within_pure ()).from
  | some written =>
    have hkept : Within (GrowsTree rootName) (record (written.map .kept)) :=
      within_modify fun _ => growsTree_of_nodes rfl rfl
    refine withinFrom_bind hkept.from (fun x hx => hx.of_growsTree (hkept x)) fun _ => ?_
    have hchild : ∀ child, WithinFrom (MayList rootName path depth) (GrowsTree rootName)
        (addChild lib outputRoot recur (outputRoot ++ [slugify lib.isAlnum path depth]) container
          path depth child) :=
      fun child => withinFrom_addChild hrec hdepth _ container child
    exact withinFrom_forM hchild (fun child x hx => hx.of_growsTree (hchild child x hx)) written

theorem withinFrom_walkBody (hrec : ∀ p name, WithinFrom (Listed rootName name (depth + 1))
      (GrowsTree rootName) (recur p name (depth + 1))) (hdepth : 0 ≤ depth) (source : Path) :
    WithinFrom (Listed rootName path depth) (GrowsTree rootName)
      (walkBody lib outputRoot recur source path depth) := by
  refine withinFrom_get_bind fun x hx => ?_
  rcases hc : x.budget.checkDepth depth with ⟨budget, _ | e⟩
  · obtain ⟨hle, -⟩ | ⟨-, -, -, hne⟩ := checkDepth_cases hc
    · dsimp only
      split
      · exact growsTree_of_nodes rfl rfl
      · split
        · exact Std.Refl.refl x
        · have hopened : GrowsTree rootName x (x.log [.opened source]) :=
            growsTree_of_nodes rfl rfl
          rw [record, exec_modify_bind]
          exact IsTrans.trans _ _ _ hopened (withinFrom_unpack hrec hdepth source _ _ ⟨hx, hle⟩)
    · exact absurd rfl hne
  · obtain ⟨-, -, hnone⟩ | ⟨-, hsame, -, -⟩ := checkDepth_cases hc
    · cases hnone
    · exact growsTree_of_nodes hsame.1 rfl

theorem withinFrom_walk (levels : ℕ) (hdepth : 0 ≤ depth) (source : Path) :
    WithinFrom (Listed rootName path depth) (GrowsTree rootName)
      (walk lib outputRoot levels source path depth) := by
  induction levels generalizing depth source path with
  | zero => exact withinFrom_walkBody (fun _ _ => (within_pure ()).from) hdepth source
  | succ levels ih =>
    exact withinFrom_walkBody (fun p _ => ih (Int.le_add_one hdepth) p) hdepth source

/-- **Node by node**, from none. -/
theorem addsNodes_extraction (lib : Libraries) (disk : Disk) (budget : ExtractionBudget)
    (artifact outputRoot : Path) (rootName : String) :
    AddsNodes rootName budget.maxDepth []
      (extraction lib disk budget artifact outputRoot rootName).2.nodes := by
  have hmkdir := (extractsKeep_growsTree lib rootName).within_mkdir outputRoot
  have hroot : ∀ x : Extraction, Listed rootName rootName 0 x :=
    fun x => ⟨fun _ => rfl, fun hne => absurd rfl hne⟩
  have hwalk : ∀ levels, Within (GrowsTree rootName)
      (walk lib outputRoot levels artifact rootName 0) :=
    fun levels x => withinFrom_walk levels le_rfl artifact x (hroot x)
  have hgrows : Within (GrowsTree rootName) (extractTree lib artifact outputRoot rootName) :=
    within_bind (fun x => Std.Refl.refl x) fun _ => within_bind hmkdir fun _ => hwalk _
  exact (hgrows { disk := disk, budget := budget }).nodes

/-- **The nodes of an extraction form a tree**, however it ends. -/
theorem isTree_extraction (lib : Libraries) (disk : Disk) (budget : ExtractionBudget)
    (artifact outputRoot : Path) (rootName : String) :
    IsTree rootName budget.maxDepth
      (extraction lib disk budget artifact outputRoot rootName).2.nodes :=
  isTree_of_addsNodes (addsNodes_extraction lib disk budget artifact outputRoot rootName)

end Tree

end BareAnalysis
