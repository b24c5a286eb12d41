import BareAnalysis.Correlation.ReadOff
import BareAnalysis.Machinery.Counterpart
import BareAnalysis.Pipeline.Trace

/-!
# Pipeline/FreshIds — the same scan under other artifact ids

    root, node, node, ⋯ ──artifact ids──▸ staged paths ──▸ evidence ──▸ reports
                    ╲
                     ──other ids───────▸ the same, renamed

A run draws a fresh id for every artifact.  A scan that reads the same files under other ids stores
the same evidence for their counterparts, and reports the same if the ids fall in the same order.
-/

namespace BareAnalysis

/-! ## The rows of a tree -/

section Rows

variable (w : ScanWorld) (run : Run) (root : Artifact)

/-- The nodes of a tree, parents before their children. -/
def orderedNodes (nodes : List UnpackNode) : List UnpackNode :=
  sortBy (fun n => (toLex (n.depth, n.pathInTree) : ℤ ×ₗ String)) nodes

/-- The loop over the nodes adds a row for each, and notes its id under its path. -/
theorem foldl_materialiseNode (nodes : List UnpackNode) :
    ∃ rows : List Artifact,
      nodes.foldl (materialiseNode w run root) ([], [])
        = (rows, rows.map fun a => (a.pathInTree, a.id)) ∧
      rows.map Artifact.pathInTree = nodes.map UnpackNode.pathInTree ∧
      ∀ a ∈ rows, a.runId = run.id ∧ ∃ n, a.id = w.artifactId n := by
  induction nodes using List.reverseRecOn with
  | nil => exact ⟨[], rfl, rfl, fun a ha => by cases ha⟩
  | append_singleton nodes node ih =>
    obtain ⟨rows, hrows, hpaths, hall⟩ := ih
    rw [List.foldl_append, hrows]
    refine ⟨rows ++ [_], Prod.ext rfl ?_, ?_, ?_⟩
    · rw [List.map_append]
      rfl
    · rw [List.map_append, List.map_append, hpaths]
      rfl
    · intro a ha
      obtain ha | ha := List.mem_append.mp ha
      · exact hall a ha
      · obtain rfl := List.mem_singleton.mp ha
        exact ⟨rfl, rows.length, rfl⟩

variable (nodes : List UnpackNode)

theorem byPath_treeRows : (treeRows w run root nodes).2
    = (treeRows w run root nodes).1.map fun a => (a.pathInTree, a.id) := by
  obtain ⟨rows, hrows, -⟩ := foldl_materialiseNode w run root (orderedNodes nodes)
  have htree : treeRows w run root nodes = _ := hrows
  rw [htree]

theorem paths_treeRows : (treeRows w run root nodes).1.map Artifact.pathInTree
    = (orderedNodes nodes).map UnpackNode.pathInTree := by
  obtain ⟨rows, hrows, hpaths, -⟩ := foldl_materialiseNode w run root (orderedNodes nodes)
  have htree : treeRows w run root nodes = _ := hrows
  rw [htree]
  exact hpaths

variable {w run root nodes} in
theorem of_mem_treeRows {a : Artifact} (ha : a ∈ (treeRows w run root nodes).1) :
    a.runId = run.id ∧ ∃ n, a.id = w.artifactId n := by
  obtain ⟨rows, hrows, -, hall⟩ := foldl_materialiseNode w run root (orderedNodes nodes)
  have htree : treeRows w run root nodes = _ := hrows
  rw [htree] at ha
  exact hall a ha

/-- The ids of a scan's artifacts, the root first. -/
def artifactIds : List String := root.id :: (treeRows w run root nodes).1.map Artifact.id

end Rows

/-! ## Two scans of the same files -/

/-- The evidence of a scan, with another run and other artifacts. -/
def Evidence.moved (runId : String) (ρ : String → String) (e : Evidence) : Evidence :=
  { e with runId, artifactId := ρ e.artifactId }

section Moved

variable {w w' : ScanWorld} {run run' : Run} {root root' : Artifact} {nodes : List UnpackNode}
  {ρ : String → String}
  (hids : artifactIds w' run' root' nodes = (artifactIds w run root nodes).map ρ)

include hids in
theorem id_root_eq : root'.id = ρ root.id := (List.cons.inj hids).1

include hids in
/-- The paths of the tree lead to the counterparts. -/
theorem byPath_eq : (treeRows w' run' root' nodes).2
    = (treeRows w run root nodes).2.map fun kv => (kv.1, ρ kv.2) := by
  have hrows := (List.cons.inj hids).2
  have hpaths : (treeRows w' run' root' nodes).1.map Artifact.pathInTree
      = (treeRows w run root nodes).1.map Artifact.pathInTree := by
    rw [paths_treeRows, paths_treeRows]
  rw [byPath_treeRows, byPath_treeRows, ← List.zip_map', hrows, hpaths, List.map_map, List.map_map,
    List.zip_map']
  rfl

/-- An id the tree notes is one it drew. -/
theorem exists_artifactId_of_get? {path id : String}
    (h : (treeRows w run root nodes).2.get? path = some id) : ∃ n, id = w.artifactId n := by
  have hmem := Dict.mem_of_get?_eq_some h
  rw [byPath_treeRows] at hmem
  obtain ⟨a, ha, heq⟩ := List.mem_map.mp hmem
  obtain ⟨n, hn⟩ := (of_mem_treeRows ha).2
  exact ⟨n, (Prod.mk.inj heq).2.symm.trans hn⟩

include hids in
/-- **A staged file belongs to the counterpart of its artifact.** -/
theorem stagedPaths_eq (hname : root'.name = root.name) (hne : ∀ n, w.artifactId n ≠ "")
    (hne' : ∀ n, w'.artifactId n ≠ "") (tree : Option FileTree) :
    stagedPaths root' tree nodes (treeRows w' run' root' nodes).2
      = (stagedPaths root tree nodes (treeRows w run root nodes).2).map fun kv => (kv.1, ρ kv.2) := by
  rcases tree with - | tree
  · rw [stagedPaths, stagedPaths, id_root_eq hids, hname]
    rfl
  rw [stagedPaths, stagedPaths, id_root_eq hids, hname, List.map_cons, List.map_filterMap]
  refine congrArg _ (List.filterMap_congr fun node _ => ?_)
  rcases hget : (treeRows w run root nodes).2.get? node.pathInTree with - | id
  · rw [byPath_eq hids, Dict.get?_mapValues, hget]
    rfl
  · have hget' : (treeRows w' run' root' nodes).2.get? node.pathInTree = some (ρ id) := by
      rw [byPath_eq hids, Dict.get?_mapValues, hget, Option.map_some]
    obtain ⟨n, rfl⟩ := exists_artifactId_of_get? hget
    obtain ⟨m, hm⟩ := exists_artifactId_of_get? hget'
    rw [hget', hm]
    dsimp only
    rw [if_neg (hne n), if_neg (hne' m), Option.map_some, ← hm]

/-! ## The evidence -/

section Evidence

variable (hretain : run'.retainPlaintext = run.retainPlaintext)

include hretain in
/-- A match is the same match of the counterpart. -/
theorem evidenceOf_eq (artifactId : String) (item : Json) :
    evidenceOf run' (ρ artifactId) item
      = (evidenceOf run artifactId item).map (Evidence.moved run'.id ρ) := by
  rw [evidenceOf, evidenceOf, hretain]
  cases run.retainPlaintext with
  | false =>
    simp only [map_bind_eq, Bool.false_eq_true, if_false]
    rfl
  | true =>
    simp only [map_bind_eq, if_true]
    rfl

/-- The readers of a scanned file's artifact agree. -/
theorem attributedTo_eq (hroot : root'.id = ρ root.id) (staged : Dict String String)
    (path : Json) : attributedTo (staged.map fun kv => (kv.1, ρ kv.2)) root' path
      = (attributedTo staged root path).map ρ := by
  rcases path with - | b | n | ⟨q, text⟩ | text | path | items | fields
  case str =>
    rw [attributedTo, attributedTo, Dict.get?_mapValues, hroot]
    cases staged.get? path <;> rfl
  case arr | obj => rfl
  all_goals exact congrArg Except.ok hroot

include hretain in
theorem entryEvidence_eq (hroot : root'.id = ρ root.id) (staged : Dict String String)
    (entry : Json) : entryEvidence run' (staged.map fun kv => (kv.1, ρ kv.2)) root' entry
      = (entryEvidence run staged root entry).map (List.map (Evidence.moved run'.id ρ)) := by
  rw [entryEvidence, entryEvidence, map_bind_eq]
  refine bind_congr fun path => ?_
  rw [attributedTo_eq hroot, bind_map_eq, map_bind_eq]
  refine bind_congr fun artifactId => ?_
  rw [map_bind_eq]
  refine bind_congr fun found => ?_
  rw [map_bind_eq]
  refine bind_congr fun items => ?_
  exact mapM_map _ fun item _ => evidenceOf_eq hretain artifactId item

include hretain in
/-- **The evidence is that of the counterparts.** -/
theorem toEvidence_eq (hroot : root'.id = ρ root.id) (staged : Dict String String)
    (payload : Json) : toEvidence run' payload (staged.map fun kv => (kv.1, ρ kv.2)) root'
      = (toEvidence run payload staged root).map (List.map (Evidence.moved run'.id ρ)) := by
  rw [toEvidence, toEvidence, map_bind_eq]
  refine bind_congr fun listed => ?_
  rw [map_bind_eq]
  refine bind_congr fun files => ?_
  rw [mapM_map _ fun entry _ => entryEvidence_eq hretain hroot staged entry, bind_map_eq,
    map_bind_eq]
  refine bind_congr fun found => ?_
  exact congrArg Except.ok List.map_flatten.symm

end Evidence

/-- A match belongs to its run and to the artifact it was found in. -/
theorem of_evidenceOf {artifactId : String} {item : Json} {e : Evidence}
    (h : evidenceOf run artifactId item = .ok e) :
    e.runId = run.id ∧ e.artifactId = artifactId := by
  -- the evidence of the artifact is the evidence moved to it
  have hmoved := @evidenceOf_eq run run (fun _ => artifactId) rfl artifactId item
  rw [h] at hmoved
  have heq := Except.ok.inj hmoved
  exact ⟨congrArg Evidence.runId heq, congrArg Evidence.artifactId heq⟩

/-- **Evidence belongs to the run, and to its root or a staged file's artifact.** -/
theorem of_toEvidence {payload : Json} {staged : Dict String String}
    {evidence : List Evidence} (h : toEvidence run payload staged root = .ok evidence) {e : Evidence}
    (he : e ∈ evidence) : e.runId = run.id ∧
      (e.artifactId = root.id ∨ ∃ path, staged.get? path = some e.artifactId) := by
  obtain ⟨listed, -, h⟩ := bind_eq_ok.mp h
  obtain ⟨files, -, h⟩ := bind_eq_ok.mp h
  obtain ⟨found, hfound, h⟩ := bind_eq_ok.mp h
  obtain rfl := Except.ok.inj h
  obtain ⟨es, hes, he⟩ := List.mem_flatten.mp he
  obtain ⟨entry, -, hentry⟩ := mem_of_mapM_eq_ok hfound hes
  obtain ⟨path, -, hentry⟩ := bind_eq_ok.mp hentry
  obtain ⟨artifactId, hattributed, hentry⟩ := bind_eq_ok.mp hentry
  obtain ⟨_, -, hentry⟩ := bind_eq_ok.mp hentry
  obtain ⟨items, -, hentry⟩ := bind_eq_ok.mp hentry
  obtain ⟨item, -, hitem⟩ := mem_of_mapM_eq_ok hentry he
  obtain ⟨hrun, hartifact⟩ := of_evidenceOf hitem
  refine ⟨hrun, ?_⟩
  rw [hartifact]
  rcases path with - | b | n | ⟨q, text⟩ | text | path | items | fields
  case str =>
    rcases hget : staged.get? path with - | id
    · rw [attributedTo, hget] at hattributed
      exact Or.inl (Except.ok.inj hattributed).symm
    · rw [attributedTo, hget] at hattributed
      exact Or.inr ⟨path, hget.trans (congrArg some (Except.ok.inj hattributed))⟩
  case arr | obj => cases hattributed
  all_goals exact Or.inl (Except.ok.inj hattributed).symm

/-- **…so it belongs to one of the scan's artifacts.** -/
theorem mem_artifactIds_of_toEvidence {payload : Json} {tree : Option FileTree}
    {evidence : List Evidence}
    (h : toEvidence run payload (stagedPaths root tree nodes (treeRows w run root nodes).2) root
      = .ok evidence) {e : Evidence} (he : e ∈ evidence) :
    e.artifactId ∈ artifactIds w run root nodes := by
  have hroot : root.id ∈ artifactIds w run root nodes := List.mem_cons_self
  obtain hid | ⟨path, hget⟩ := (of_toEvidence h he).2
  · rw [hid]
    exact hroot
  have hmem := Dict.mem_of_get?_eq_some hget
  rcases tree with - | tree
  · rw [(Prod.mk.inj (List.mem_singleton.mp hmem)).2]
    exact hroot
  obtain heq | hmem := List.mem_cons.mp hmem
  · rw [(Prod.mk.inj heq).2]
    exact hroot
  obtain ⟨node, -, hnode⟩ := List.mem_filterMap.mp hmem
  rcases hby : (treeRows w run root nodes).2.get? node.pathInTree with - | id
  · rw [hby] at hnode
    cases hnode
  · rw [hby] at hnode
    dsimp only at hnode
    split at hnode
    · cases hnode
    obtain ⟨-, rfl⟩ := Prod.mk.inj (Option.some.inj hnode)
    have hrow := Dict.mem_of_get?_eq_some hby
    rw [byPath_treeRows] at hrow
    obtain ⟨a, ha, heq⟩ := List.mem_map.mp hrow
    rw [← (Prod.mk.inj heq).2]
    exact List.mem_cons_of_mem _ (List.mem_map_of_mem ha)

end Moved

/-! ## The reports -/

section Artifacts

variable {w : ScanWorld} {run : Run} {db after : Db} {steps : ScanSteps}
  (h : RanThrough w run db steps after) (hingested : db.artifactsOf run.id = [steps.root])

include h hingested

/-- After a scan a run has its root and the rows of its tree. -/
theorem artifactsOf_eq : after.artifactsOf run.id
    = steps.root :: (treeRows w run steps.root steps.nodes).1 := by
  have htree : (treeRows w run steps.root steps.nodes).1.filter (fun a => a.runId == run.id)
      = (treeRows w run steps.root steps.nodes).1 :=
    List.filter_eq_self.mpr fun a ha => by simpa using (of_mem_treeRows ha).1
  have hroot : db.artifacts.rows.filter (fun a => a.runId == run.id) = [steps.root] := hingested
  rw [Db.artifactsOf, Table.select, h.artifactRows, List.filter_append, hroot, htree]
  rfl

theorem ids_artifactsOf : (after.artifactsOf run.id).map Artifact.id
    = artifactIds w run steps.root steps.nodes := by
  rw [artifactsOf_eq h hingested]
  rfl

/-- No two artifacts of a scan share an id. -/
theorem nodup_artifactIds : (artifactIds w run steps.root steps.nodes).Nodup := by
  rw [← ids_artifactsOf h hingested]
  exact after.artifacts.nodup_keys.sublist (List.filter_sublist.map Artifact.id)

end Artifacts

/-- The two scans read the same: file name, tree, matches, rules and suppressions, under artifact
ids that fall in the same order. -/
structure ReadsSame (w w' : ScanWorld) (run run' : Run) (db db' : Db) (steps steps' : ScanSteps) :
    Prop where
  name : steps'.root.name = steps.root.name
  pathInTree : steps'.root.pathInTree = steps.root.pathInTree
  retainPlaintext : run'.retainPlaintext = run.retainPlaintext
  pack : steps'.pack = steps.pack
  tree : (w'.unpack steps'.root.name steps'.content).2 = (w.unpack steps.root.name steps.content).2
  nodes : steps'.nodes = steps.nodes
  staticPayload : steps'.staticPayload = steps.staticPayload
  suppressions : ∀ ruleId valueHash path,
    isSuppressed (indexSuppressions db'.suppressions) ruleId valueHash path
      = isSuppressed (indexSuppressions db.suppressions) ruleId valueHash path
  order : SameOrder (artifactIds w run steps.root steps.nodes)
    (artifactIds w' run' steps'.root steps'.nodes) "" ""

section Twins

variable {w w' : ScanWorld} {run run' : Run} {db db' after after' : Db} {steps steps' : ScanSteps}
  (h : RanThrough w run db steps after) (h' : RanThrough w' run' db' steps' after')
  (hsame : ReadsSame w w' run run' db db' steps steps')
  (hingested : db.artifactsOf run.id = [steps.root])
  (hingested' : db'.artifactsOf run'.id = [steps'.root])

/-- The id the artifact in the same place has in the other scan. -/
def twinId (w w' : ScanWorld) (run run' : Run) (steps steps' : ScanSteps) : String → String :=
  counterpart (artifactIds w run steps.root steps.nodes)
    (artifactIds w' run' steps'.root steps'.nodes) ""

include hsame in
theorem length_artifactIds_eq : (artifactIds w' run' steps'.root steps'.nodes).length
    = (artifactIds w run steps.root steps.nodes).length := by
  have hpaths := congrArg List.length ((paths_treeRows w' run' steps'.root steps.nodes).trans
    (paths_treeRows w run steps.root steps.nodes).symm)
  rw [List.length_map, List.length_map] at hpaths
  rw [artifactIds, artifactIds, List.length_cons, List.length_cons, List.length_map, List.length_map,
    hsame.nodes, hpaths]

include h hsame hingested in
theorem artifactIds_eq : artifactIds w' run' steps'.root steps.nodes
    = (artifactIds w run steps.root steps.nodes).map (twinId w w' run run' steps steps') := by
  rw [twinId, map_counterpart (nodup_artifactIds h hingested) (length_artifactIds_eq hsame),
    hsame.nodes]

include h h' hsame hingested in
/-- **The evidence is the other scan's, moved.** -/
theorem evidence_eq (hne : ∀ n, w.artifactId n ≠ "") (hne' : ∀ n, w'.artifactId n ≠ "") :
    steps'.evidence
      = steps.evidence.map (Evidence.moved run'.id (twinId w w' run run' steps steps')) := by
  have hids := artifactIds_eq h hsame hingested
  have hevidence := h'.evidence
  rw [hsame.staticPayload, hsame.tree, hsame.nodes, stagedPaths_eq hids hsame.name hne hne',
    toEvidence_eq hsame.retainPlaintext (id_root_eq hids), h.evidence] at hevidence
  exact (Except.ok.inj hevidence).symm

include h h' hsame hingested hingested' in
/-- **An artifact's path is its twin's.** -/
theorem pathOf_twinId {id : String} (hid : id ∈ artifactIds w run steps.root steps.nodes) :
    pathOf ((after'.artifactsOf run'.id).map fun a => (a.id, a.pathInTree))
        (twinId w w' run run' steps steps' id)
      = pathOf ((after.artifactsOf run.id).map fun a => (a.id, a.pathInTree)) id := by
  have hpaths : (after'.artifactsOf run'.id).map Artifact.pathInTree
      = (after.artifactsOf run.id).map Artifact.pathInTree := by
    rw [artifactsOf_eq h hingested, artifactsOf_eq h' hingested', List.map_cons, List.map_cons,
      paths_treeRows, paths_treeRows, hsame.pathInTree, hsame.nodes]
  have hrenamed : (after'.artifactsOf run'.id).map (fun a => (a.id, a.pathInTree))
      = ((after.artifactsOf run.id).map fun a => (a.id, a.pathInTree)).map
          fun kv => (twinId w w' run run' steps steps' kv.1, kv.2) := by
    rw [← List.zip_map', ids_artifactsOf h' hingested', hpaths, hsame.nodes,
      artifactIds_eq h hsame hingested, ← ids_artifactsOf h hingested, List.map_map, List.map_map,
      List.zip_map']
    rfl
  rw [pathOf, pathOf, hrenamed, Dict.get?_mapKeys]
  intro kv hkv heq
  obtain ⟨a, ha, rfl⟩ := List.mem_map.mp hkv
  refine counterpart_inj (nodup_artifactIds h hingested) (nodup_artifactIds h' hingested')
    (length_artifactIds_eq hsame) ?_ hid heq
  rw [← ids_artifactsOf h hingested]
  exact List.mem_map_of_mem ha

include h h' hsame hingested hingested' in
/-- **Scans that read the same report the same.** -/
theorem ReadsSame.report_eq (hne : ∀ n, w.artifactId n ≠ "") (hne' : ∀ n, w'.artifactId n ≠ "")
    (ruleId : String) : report (correlationInput after' run' steps'.pack steps'.evidence) ruleId
      = report (correlationInput after run steps.pack steps.evidence) ruleId := by
  have hmem : ∀ e ∈ steps.evidence, e.artifactId ∈ artifactIds w run steps.root steps.nodes :=
    fun e he => mem_artifactIds_of_toEvidence h.evidence he
  have hrelabels : Relabels (Evidence.moved run'.id (twinId w w' run run' steps steps'))
      (correlationInput after run steps.pack steps.evidence)
      (correlationInput after' run' steps'.pack steps'.evidence) :=
    { pack := hsame.pack
      evidence := evidence_eq h h' hsame hingested hne hne'
      groupKey := fun _ _ => rfl
      offset := fun _ _ => rfl
      path := fun e he => pathOf_twinId h h' hsame hingested hingested' (hmem e he)
      order := fun a ha b hb _ => counterpart_le hsame.order (hmem a ha) (hmem b hb)
      silenced := fun e _ => by
        have hsuppressed := hsame.suppressions e.ruleId e.valueHash e.path
        rwa [← h.suppressions, ← h'.suppressions] at hsuppressed }
  exact hrelabels.report_eq ruleId

end Twins

end BareAnalysis
