import BareAnalysis.Pipeline.FreshIds
import BareAnalysis.Unpack.WellFormed

/-!
# Pipeline/Parents — the rows of an extracted tree stand under their parents' rows

    nodes ──to_dict──▸ payload ──by depth and path──▸ rows, each with the id of its parent's row

`_materialise_tree` looks a parent up by its path, and falls back to the root.  The nodes of an
extraction with distinct paths never need it.
-/

namespace BareAnalysis

open Eff

/-! ## What is handed over -/

/-- `ExtractionBudget.to_dict`. -/
def ExtractionBudget.toDict (b : ExtractionBudget) : Json :=
  .obj [("max_depth", .int b.maxDepth), ("max_files", .int b.maxFiles),
    ("max_total_bytes", .int b.maxTotalBytes), ("files_written", .int b.filesWritten),
    ("bytes_written", .int b.bytesWritten), ("truncated", .bool !b.exceeded.isEmpty),
    ("reasons", .arr (b.exceeded.map .str))]

/-- `ExtractedNode.to_dict`. -/
def ExtractedNode.toDict (n : ExtractedNode) : Json :=
  .obj [("path_in_tree", .str n.pathInTree), ("relative_path", .str n.relativePath.asPosix),
    ("parent_path_in_tree", n.parentPathInTree.elim .null .str), ("depth", .int n.depth),
    ("size_bytes", .int n.sizeBytes), ("container", .str n.container),
    ("extracted_by", .str n.extractedBy), ("sha256", .str n.sha256)]

/-- `ExtractionResult.to_dict`, of nodes that were hashed. -/
def Extraction.toDict (digest : ExtractedNode → String) (x : Extraction) : Json :=
  .obj [("nodes", .arr (x.nodes.map fun n => { n with sha256 := digest n }.toDict)),
    ("budget", x.budget.toDict), ("errors", .arr (x.errors.map .str)),
    ("truncated", .bool x.truncated)]

/-- What is read of a node. -/
def ExtractedNode.received (digest : ExtractedNode → String) (n : ExtractedNode) : UnpackNode where
  relativePath := n.relativePath.asPosix
  pathInTree := n.pathInTree
  parentPathInTree := n.parentPathInTree
  depth := n.depth
  sha256 := digest n
  sizeBytes := n.sizeBytes
  extractedBy := some n.extractedBy

/-- A text is a hash, or none. -/
theorem asStr_orElse (text : String) : ((Json.str text).orElse (.str "")).asStr = .ok text := by
  by_cases hempty : text = ""
  · rw [hempty]
    rfl
  · have htruthy : (Json.str text).truthy = true := bne_iff_ne.mpr hempty
    rw [Json.orElse, if_pos htruthy]
    rfl

theorem ofJson_toDict (digest : ExtractedNode → String) (n : ExtractedNode) :
    UnpackNode.ofJson { n with sha256 := digest n }.toDict = .ok (n.received digest) := by
  have hread : UnpackNode.ofJson { n with sha256 := digest n }.toDict
      = ((Json.str (digest n)).orElse (.str "")).asStr >>= fun sha =>
        .ok { n.received digest with sha256 := sha } := by
    obtain ⟨path, relative, - | parent, depth, size, container, by', sha⟩ := n
    · rfl
    · rfl
  rw [hread, asStr_orElse]
  rfl

/-- **What was extracted is received.** -/
theorem unpackNodes_toDict (digest : ExtractedNode → String) (x : Extraction) :
    unpackNodes (x.toDict digest) = .ok (x.nodes.map (·.received digest)) := by
  have hread : unpackNodes (x.toDict digest)
      = (x.nodes.map fun n => { n with sha256 := digest n }.toDict).mapM UnpackNode.ofJson := rfl
  rw [hread, List.mapM_map]
  exact mapM_eq_ok_of_forall fun n _ => ofJson_toDict digest n

/-! ## Rows and their parents -/

section Rows

variable (root : Artifact)

/-- The row of a node's parent: the root's, or one of those made of the nodes. -/
def IsParentRow (rows : List Artifact) (node : UnpackNode) (row : Artifact) : Prop :=
  (node.depth = 1 ∧ row = root) ∨ (node.depth ≠ 1 ∧ row ∈ rows ∧
    node.parentPathInTree = some row.pathInTree ∧ row.depth = node.depth - 1)

/-- The row of a node, under its parent's. -/
def IsRowOf (rows : List Artifact) (node : UnpackNode) (row : Artifact) : Prop :=
  row.pathInTree = node.pathInTree ∧ row.depth = node.depth ∧
    ∃ parent, IsParentRow root rows node parent ∧ row.parentId = some parent.id

/-- The parent of a node is not found, and the root stands in for it. -/
def FallsBack (byPath : Dict String String) (node : UnpackNode) : Prop :=
  node.parentPathInTree ≠ some root.pathInTree ∧
    Dict.get? byPath (node.parentPathInTree.getD "") = none

/-- **Every node has its row under its parent's**, and none falls back to the root. -/
structure RowsUnderParents (w : ScanWorld) (run : Run) (nodes : List UnpackNode) : Prop where
  rows : List.Forall₂ (IsRowOf root (treeRows w run root nodes).1) (orderedNodes nodes)
    (treeRows w run root nodes).1
  noFallback : ∀ ahead node rest, orderedNodes nodes = ahead ++ node :: rest →
    ¬FallsBack root (ahead.foldl (materialiseNode w run root) ([], [])).2 node

/-- Nodes with distinct paths, each under the root or one level below another. -/
structure IsForest (nodes : List UnpackNode) : Prop where
  paths : (nodes.map UnpackNode.pathInTree).Nodup
  apart : ∀ n ∈ nodes, n.pathInTree ≠ root.pathInTree
  top : ∀ n ∈ nodes, n.depth = 1 → n.parentPathInTree = some root.pathInTree
  below : ∀ n ∈ nodes, n.depth ≠ 1 →
    ∃ p ∈ nodes, n.parentPathInTree = some p.pathInTree ∧ p.depth = n.depth - 1

section Found

variable {root} {w : ScanWorld} {run : Run} {nodes ahead rest : List UnpackNode}
  {node : UnpackNode} {rows rows' : List Artifact} {row : Artifact}

theorem IsRowOf.mono (h : IsRowOf root rows node row) (hsub : rows ⊆ rows') :
    IsRowOf root rows' node row := by
  obtain ⟨hpath, hdepth, parent, hparent, hid⟩ := h
  refine ⟨hpath, hdepth, parent, ?_, hid⟩
  obtain htop | ⟨hne, hmem, hup⟩ := hparent
  · exact Or.inl htop
  · exact Or.inr ⟨hne, hsub hmem, hup⟩

/-- Parents come first. -/
theorem mem_ahead (hsplit : orderedNodes nodes = ahead ++ node :: rest) {p : UnpackNode}
    (hp : p ∈ nodes) (hdepth : p.depth = node.depth - 1) : p ∈ ahead := by
  have hsorted := pairwise_sortBy (fun n => (toLex (n.depth, n.pathInTree) : ℤ ×ₗ String)) nodes
  rw [← orderedNodes, hsplit] at hsorted
  have hmem : p ∈ ahead ++ node :: rest := hsplit ▸ mem_sortBy.mpr hp
  obtain hp | hp := List.mem_append.mp hmem
  · exact hp
  · obtain rfl | hp := List.mem_cons.mp hp
    · omega
    · have hle := (List.pairwise_cons.mp (List.pairwise_append.mp hsorted).2.1).1 p hp
      obtain hlt | ⟨heq, -⟩ := Prod.Lex.toLex_le_toLex.mp hle
      · exact absurd hlt (by omega)
      · exact absurd heq (by omega)

/-- **The row of the parent is found by its path.** -/
theorem IsForest.find_parent (h : IsForest root nodes)
    (hsplit : orderedNodes nodes = ahead ++ node :: rest)
    (hrows : List.Forall₂ (IsRowOf root rows) ahead rows) (hne : node.depth ≠ 1) :
    ∃ q ∈ rows, node.parentPathInTree = some q.pathInTree ∧ q.depth = node.depth - 1 ∧
      q.pathInTree ≠ root.pathInTree ∧
      Dict.get? (rows.map fun a => (a.pathInTree, a.id)) q.pathInTree = some q.id := by
  have hinside : ∀ n ∈ ahead ++ node :: rest, n ∈ nodes := fun n hn => mem_sortBy.mp (hsplit ▸ hn)
  obtain ⟨p, hp, hparent, hdepth⟩ :=
    h.below node (hinside node (List.mem_append_right _ List.mem_cons_self)) hne
  have hahead := mem_ahead hsplit hp hdepth
  obtain ⟨row, hrow, hpath, -⟩ := forall_of_forall₂ hrows.flip p hahead
  obtain ⟨id, hid⟩ : ∃ id, Dict.get? (rows.map fun a => (a.pathInTree, a.id)) row.pathInTree
      = some id := Dict.exists_get?_of_mem (List.mem_map_of_mem hrow)
  obtain ⟨q, hq, heq⟩ := List.mem_map.mp (Dict.mem_of_get?_eq_some hid)
  obtain ⟨hqpath, rfl⟩ := Prod.mk.inj heq
  obtain ⟨n, hn, hnpath, hndepth, -⟩ := forall_of_forall₂ hrows q hq
  have hsame : n = p := List.inj_on_of_nodup_map h.paths
    (hinside n (List.mem_append_left _ hn)) hp (hnpath.symm.trans (hqpath.trans hpath))
  subst hsame
  refine ⟨q, hq, hnpath ▸ hparent, hndepth.trans hdepth, hnpath ▸ h.apart n hp, ?_⟩
  rw [hqpath]
  exact hid

/-- **One turn of the loop** puts a node under its parent. -/
theorem IsForest.isRowOf_materialiseNode (h : IsForest root nodes)
    (hsplit : orderedNodes nodes = ahead ++ node :: rest)
    (hrows : List.Forall₂ (IsRowOf root rows) ahead rows) :
    ∃ row, materialiseNode w run root (rows, rows.map fun a => (a.pathInTree, a.id)) node
        = (rows ++ [row], (rows ++ [row]).map fun a => (a.pathInTree, a.id)) ∧
      IsRowOf root rows node row := by
  have hmem : node ∈ nodes := by
    have hin : node ∈ orderedNodes nodes :=
      hsplit ▸ List.mem_append_right _ List.mem_cons_self
    exact mem_sortBy.mp hin
  refine ⟨_, Prod.ext rfl ?_, rfl, rfl, ?_⟩
  · rw [List.map_append]
    rfl
  by_cases hdepth : node.depth = 1
  · exact ⟨root, Or.inl ⟨hdepth, rfl⟩, congrArg some (if_pos (h.top node hmem hdepth))⟩
  · obtain ⟨q, hq, hparent, hup, hapart, hfound⟩ := h.find_parent hsplit hrows hdepth
    refine ⟨q, Or.inr ⟨hdepth, hq, hparent, hup⟩, congrArg some ?_⟩
    rw [hparent, if_neg fun heq => hapart (Option.some.inj heq), Option.getD_some, hfound,
      Option.getD_some]

/-- …and all turns put all nodes under theirs. -/
theorem IsForest.foldl_materialiseNode (h : IsForest root nodes) (w : ScanWorld) (run : Run)
    (hsplit : orderedNodes nodes = ahead ++ rest) :
    ∃ rows, ahead.foldl (materialiseNode w run root) ([], [])
        = (rows, rows.map fun a => (a.pathInTree, a.id)) ∧
      List.Forall₂ (IsRowOf root rows) ahead rows := by
  induction ahead using List.reverseRecOn generalizing rest with
  | nil => exact ⟨[], rfl, .nil⟩
  | append_singleton ahead node ih =>
    rw [List.append_assoc, List.singleton_append] at hsplit
    obtain ⟨rows, hfold, hrows⟩ := ih hsplit
    obtain ⟨row, hstep, hrow⟩ := h.isRowOf_materialiseNode hsplit hrows
    refine ⟨rows ++ [row], ?_, ?_⟩
    · rw [List.foldl_append, hfold]
      exact hstep
    · have hsub : rows ⊆ rows ++ [row] := List.subset_append_left _ _
      exact List.rel_append (hrows.imp fun _ _ hr => hr.mono hsub) (.cons (hrow.mono hsub) .nil)

/-- **The rows of a forest stand under their parents' rows.** -/
theorem IsForest.rowsUnderParents (h : IsForest root nodes) (w : ScanWorld) (run : Run) :
    RowsUnderParents root w run nodes where
  rows := by
    obtain ⟨rows, hfold, hrows⟩ := h.foldl_materialiseNode w run (List.append_nil _).symm
    have htree : treeRows w run root nodes = (rows, rows.map fun a => (a.pathInTree, a.id)) := hfold
    rw [htree]
    exact hrows
  noFallback ahead node rest hsplit := by
    rintro ⟨hroot, hmissing⟩
    obtain ⟨rows, hfold, hrows⟩ := h.foldl_materialiseNode w run hsplit
    have hmem : node ∈ nodes := by
      have hin : node ∈ orderedNodes nodes :=
        hsplit ▸ List.mem_append_right _ List.mem_cons_self
      exact mem_sortBy.mp hin
    by_cases hdepth : node.depth = 1
    · exact hroot (h.top node hmem hdepth)
    · obtain ⟨q, -, hparent, -, -, hfound⟩ := h.find_parent hsplit hrows hdepth
      rw [hfold, hparent, Option.getD_some, hfound] at hmissing
      cases hmissing

end Found

end Rows

/-! ## From the extraction to the rows -/

section Main

variable (lib : Libraries) (disk : Disk) (budget : ExtractionBudget) (artifact outputRoot : Path)
  (root : Artifact)

/-- `extract_tree` of an artifact, under the name its row has. -/
def extractedTree : Extraction :=
  (extraction lib disk budget artifact outputRoot root.pathInTree).2

/-- **The extraction ends, with a tree** whose rows stand under their parents'. -/
structure ExtractsTree : Prop where
  terminates : ∀ beyond calls, (budget.maxDepth + 1).toNat < calls →
    exec (extractTreeOver lib outputRoot beyond calls artifact root.pathInTree)
        { disk := disk, budget := budget }
      = extraction lib disk budget artifact outputRoot root.pathInTree
  tree : IsTree root.pathInTree budget.maxDepth
    (extractedTree lib disk budget artifact outputRoot root).nodes
  parents : ((extractedTree lib disk budget artifact outputRoot root).nodes.map
      ExtractedNode.pathInTree).Nodup →
    ∀ digest w run, ∃ nodes,
      unpackNodes ((extractedTree lib disk budget artifact outputRoot root).toDict digest) = .ok nodes ∧
        RowsUnderParents root w run nodes

variable {budget root}

/-- The nodes of a tree with distinct paths are received as a forest. -/
theorem isForest_received {nodes : List ExtractedNode}
    (hadds : AddsNodes root.pathInTree budget.maxDepth [] nodes)
    (hpaths : (nodes.map ExtractedNode.pathInTree).Nodup) (digest : ExtractedNode → String) :
    IsForest root (nodes.map (·.received digest)) := by
  have htree := isTree_of_addsNodes hadds
  refine ⟨?_, ?_, ?_, ?_⟩
  · rw [List.map_map]
    exact hpaths
  · rw [List.forall_mem_map]
    intro n hn heq
    have hlt := length_lt_of_addsNodes hadds n hn
    have hlength := congrArg String.length heq
    exact absurd hlength hlt.ne'
  · rw [List.forall_mem_map]
    intro n hn hdepth
    obtain ⟨ahead, rest, rfl⟩ := List.append_of_mem hn
    obtain ⟨path, hparent, hstands, -⟩ := (htree ahead n rest rfl).parent
    have hzero : n.depth - 1 = 0 := sub_eq_zero.mpr hdepth
    exact hparent.trans (congrArg some (hstands.1 hzero))
  · rw [List.forall_mem_map]
    intro n hn hdepth
    obtain ⟨ahead, rest, rfl⟩ := List.append_of_mem hn
    obtain ⟨path, hparent, hstands, -⟩ := (htree ahead n rest rfl).parent
    obtain ⟨p, hp, rfl, hup⟩ := hstands.2 fun hzero => hdepth (sub_eq_zero.mp hzero)
    exact ⟨_, List.mem_map_of_mem (List.mem_append_left _ hp), hparent, hup⟩

variable (budget root)

end Main

example : (extractedTree (asarLibs nestedText nestedDirectory)
    (diskWith (asarFile nestedText (List.replicate 16 1))) (.forInput 100) ["in", "app.asar"] ["out"]
    { id := "a", runId := "run", parentId := none, name := "app.asar"
      pathInTree := "app.asar" }).nodes.map (fun n => (n.pathInTree, n.depth))
      = [("app.asar → b.asar", 1)] := by
  decide +kernel

end BareAnalysis
