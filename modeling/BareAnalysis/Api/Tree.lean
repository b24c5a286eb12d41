import BareAnalysis.Foundations.Session
import BareAnalysis.Machinery.Rose
import BareAnalysis.Machinery.Sorting

/-!
# Api/Tree — the artifact tree, bounded

    rows of a run ──by depth and path, the first 500──▸ by parent ──from the root──▸ ArtifactOut

`_build_tree` of `api/routers/runs.py`.  The rows that are kept hold the parent of each of them, so
the tree that is built from the root holds them all (`showsTree_buildTree`).
-/

namespace BareAnalysis.ArtifactTree

/-- `MAX_TREE_NODES`. -/
def maxTreeNodes : ℕ := 500

/-- `ArtifactOut`, but for its children. -/
structure ArtifactNode where
  id : String
  name : String
  pathInTree : String
  depth : ℤ
  sha256 : String
  sizeBytes : ℤ
  kind : Option String
  findingCount : ℕ
  deriving DecidableEq, Repr

/-- `ArtifactOut`. -/
abbrev ArtifactOut := Rose ArtifactNode

/-- Rows by depth, then by path. -/
def treeKey (a : Artifact) : ℤ ×ₗ String := toLex (a.depth, a.pathInTree)

/-- The rows of a run, in the order of the query. -/
def orderedRows (db : Db) (runId : String) : List Artifact := sortBy treeKey (db.artifactsOf runId)

/-- The node of a row. -/
def nodeOf (counts : Counter String) (a : Artifact) : ArtifactNode where
  id := a.id
  name := a.name
  pathInTree := a.pathInTree
  depth := a.depth
  sha256 := a.sha256
  sizeBytes := a.sizeBytes
  kind := a.kind
  findingCount := (counts.lookup a.id).getD 0

/-- `build`, for trees of no more than so many levels. -/
def build (byParent : List (Group (Option String) Artifact)) (counts : Counter String) :
    ℕ → Artifact → Option ArtifactOut
  | 0, _ => none
  | levels + 1, a => do
    return .node (nodeOf counts a) (← (itemsUnder byParent (some a.id)).mapM
      (build byParent counts levels))

/-- `_build_tree`: the root, if there is one, and whether the tree was capped. -/
def buildTree (db : Db) (runId : String) (levels : ℕ) : Option (Option ArtifactOut × Bool) :=
  let artifacts := (orderedRows db runId).take (maxTreeNodes + 1)
  if artifacts = [] then some (none, false)
  else
    let truncated := decide (maxTreeNodes < artifacts.length)
    let artifacts := artifacts.take maxTreeNodes
    let counts := countBy (·.artifactId) (db.locationsOf runId)
    let byParent := groupBy (·.parentId) artifacts
    match itemsUnder byParent none with
    | root :: _ => (build byParent counts levels root).map fun tree => (some tree, truncated)
    | [] => some (none, truncated)

/-! ## What is shown -/

/-- The rows form a tree: there is one root, and every other row stands a level below its parent. -/
structure IsArtifactTree (rows : List Artifact) : Prop where
  root : ∃ root ∈ rows, root.parentId = none ∧ ∀ a ∈ rows, a.parentId = none → a = root
  parent : ∀ a ∈ rows, ∀ id, a.parentId = some id → ∃ p ∈ rows, p.id = id ∧ a.depth = p.depth + 1

/-- **The tree shows the first rows**, each once and under its own parent. -/
structure ShowsTree (db : Db) (runId : String) (tree : ArtifactOut) : Prop where
  rows : tree.values.Perm (((orderedRows db runId).take maxTreeNodes).map
    (nodeOf (countBy (·.artifactId) (db.locationsOf runId))))
  root : ∃ a ∈ orderedRows db runId, a.parentId = none ∧ tree.value.id = a.id
  children : ∀ t ∈ tree.subtrees, t.children.map (·.value.id)
    = (((orderedRows db runId).take maxTreeNodes).filter fun a => a.parentId = some t.value.id).map
      (·.id)
  pathOrder : ∀ t ∈ tree.subtrees,
    (t.children.map (·.value.pathInTree)).Pairwise (· ≤ ·)
  counts : ∀ node ∈ tree.values, node.findingCount
    = (db.locationsOf runId).countP fun l => l.artifactId = node.id

section Proofs

variable {db : Db} {runId : String} {counts : Counter String} {kept rows : List Artifact}

/-- The children of a row among those that are kept. -/
def childrenIn (kept : List Artifact) (a : Artifact) : List Artifact :=
  kept.filter fun c => c.parentId = some a.id

/-- **The tree is grown from the rows that are kept.** -/
theorem build_eq (levels : ℕ) (a : Artifact) :
    build (groupBy (·.parentId) kept) counts levels a
      = (Rose.grow (childrenIn kept) levels a).map (Rose.map (nodeOf counts)) := by
  induction levels generalizing a with
  | zero => rfl
  | succ levels ih =>
    rw [build, Rose.grow, itemsUnder_groupBy, funext ih, Rose.mapM_map_option]
    have hchildren : (kept.filter fun c => decide (c.parentId = some a.id)) = childrenIn kept a :=
      rfl
    rw [hchildren]
    cases (childrenIn kept a).mapM (Rose.grow (childrenIn kept) levels) with
    | none => rfl
    | some ts => exact congrArg some (by rw [Rose.map, Rose.mapAll_eq])

/-- A row ahead of one that is kept is kept. -/
theorem mem_take_of_key_lt {κ α : Type} [LinearOrder κ] {key : α → κ} {l : List α} {n : ℕ}
    {a b : α} (h : l.Pairwise fun a b => key a ≤ key b) (ha : a ∈ l.take n) (hb : b ∈ l)
    (hlt : key b < key a) : b ∈ l.take n := by
  rw [← List.take_append_drop n l] at h hb
  obtain hb | hb := List.mem_append.mp hb
  · exact hb
  · exact absurd ((List.pairwise_append.mp h).2.2 a ha b hb) (not_le.mpr hlt)

/-- What the first rows have, if all rows form a tree. -/
structure IsTop (rows kept : List Artifact) : Prop where
  sublist : kept.Sublist rows
  sorted : rows.Pairwise fun a b => treeKey a ≤ treeKey b
  closed : ∀ a ∈ kept, ∀ p ∈ rows, treeKey p < treeKey a → p ∈ kept
  ids : (rows.map (·.id)).Nodup
  tree : IsArtifactTree rows

theorem IsTop.eq_of_id (h : IsTop rows kept) {a b : Artifact} (ha : a ∈ kept) (hb : b ∈ kept)
    (hid : a.id = b.id) : a = b :=
  List.inj_on_of_nodup_map h.ids (h.sublist.subset ha) (h.sublist.subset hb) hid

theorem treeKey_lt {a b : Artifact} (h : a.depth < b.depth) : treeKey a < treeKey b :=
  Prod.Lex.toLex_lt_toLex.mpr (Or.inl h)

/-- **A row that is kept has its parent kept.** -/
theorem IsTop.parent_mem (h : IsTop rows kept) {a : Artifact} (ha : a ∈ kept) {id : String}
    (hid : a.parentId = some id) : ∃ p ∈ kept, p.id = id ∧ a.depth = p.depth + 1 := by
  obtain ⟨p, hp, hpid, hdepth⟩ := h.tree.parent a (h.sublist.subset ha) id hid
  exact ⟨p, h.closed a ha p hp (treeKey_lt (by omega)), hpid, hdepth⟩

theorem IsTop.layered (h : IsTop rows kept) :
    Rose.Layered (· ∈ kept) (childrenIn kept) Artifact.depth where
  closed p _ c hc := (List.mem_filter.mp hc).1
  depth p hp c hc := by
    obtain ⟨hc, hparent⟩ := List.mem_filter.mp hc
    obtain ⟨q, hq, hid, hdepth⟩ := h.parent_mem hc (of_decide_eq_true hparent)
    rw [hdepth, h.eq_of_id hq hp hid]
  parent p hp p' hp' c hc hc' := by
    have hid := of_decide_eq_true (List.mem_filter.mp hc).2
    have hid' := of_decide_eq_true (List.mem_filter.mp hc').2
    exact h.eq_of_id hp hp' (Option.some.inj (hid.symm.trans hid'))
  nodup p _ := ((h.ids.of_map _).sublist h.sublist).filter _

theorem countP_lt_of_imp {α : Type} {l : List α} {r q : α → Bool} {c : α} (hc : c ∈ l)
    (himp : ∀ b, r b = true → q b = true) (hq : q c = true) (hr : r c = false) :
    l.countP r < l.countP q := by
  have hboth : l.countP r = (l.filter q).countP r := by
    rw [List.countP_filter]
    refine List.countP_congr fun b _ => ?_
    rw [Bool.and_eq_true]
    exact ⟨fun h => ⟨h, himp b h⟩, And.left⟩
  rw [hboth, List.countP_eq_length_filter (p := q), List.countP_lt_length_iff]
  exact ⟨c, List.mem_filter.mpr ⟨hc, hq⟩, hr⟩

/-- A tree is no higher than there are rows below its root's level. -/
def heightIn (kept : List Artifact) (a : Artifact) : ℕ :=
  kept.countP fun b => decide (a.depth < b.depth)

theorem IsTop.heightIn_lt (h : IsTop rows kept) {p c : Artifact} (hp : p ∈ kept)
    (hc : c ∈ childrenIn kept p) : heightIn kept c < heightIn kept p := by
  have hdepth := h.layered.depth p hp c hc
  refine countP_lt_of_imp (h.layered.closed p hp c hc) (fun b hb => ?_) ?_ ?_
  · rw [decide_eq_true_eq] at hb ⊢
    omega
  · exact decide_eq_true (by omega)
  · exact decide_eq_false (lt_irrefl _)

/-- **Every row that is kept stands below the root.** -/
theorem IsTop.below_root (h : IsTop rows kept) {root : Artifact}
    (honly : ∀ a ∈ rows, a.parentId = none → a = root) {a : Artifact} (ha : a ∈ kept) :
    Rose.Below (childrenIn kept) root a := by
  induction hn : kept.countP fun b => decide (b.depth < a.depth) using Nat.strong_induction_on
    generalizing a with
  | h n ih =>
    cases hparent : a.parentId with
    | none =>
      rw [honly a (h.sublist.subset ha) hparent]
      exact .refl
    | some id =>
      obtain ⟨p, hp, rfl, hdepth⟩ := h.parent_mem ha hparent
      refine Relation.ReflTransGen.tail (ih _ ?_ hp rfl) (List.mem_filter.mpr
        ⟨ha, decide_eq_true hparent⟩)
      rw [← hn]
      refine countP_lt_of_imp hp (fun b hb => ?_) ?_ ?_
      · rw [decide_eq_true_eq] at hb ⊢
        omega
      · exact decide_eq_true (by omega)
      · exact decide_eq_false (lt_irrefl _)

/-- The first rows in the order of the query. -/
theorem isTop_take (h : IsArtifactTree (db.artifactsOf runId)) (n : ℕ) :
    IsTop (orderedRows db runId) ((orderedRows db runId).take n) where
  sublist := List.take_sublist _ _
  sorted := pairwise_sortBy _ _
  closed a ha p hp hlt := mem_take_of_key_lt (pairwise_sortBy _ _) ha hp hlt
  ids := by
    refine ((sortBy_perm treeKey _).map Artifact.id).nodup_iff.mpr ?_
    exact db.artifacts.nodup_keys.sublist (List.filter_sublist.map _)
  tree :=
    { root := by
        obtain ⟨root, hroot, hnone, honly⟩ := h.root
        exact ⟨root, mem_sortBy.mpr hroot, hnone, fun a ha => honly a (mem_sortBy.mp ha)⟩
      parent := fun a ha id hid => by
        obtain ⟨p, hp, hpid, hdepth⟩ := h.parent a (mem_sortBy.mp ha) id hid
        exact ⟨p, mem_sortBy.mpr hp, hpid, hdepth⟩ }

/-- **The root is kept**: no row is ahead of all others but the root. -/
theorem IsTop.root_mem {n : ℕ} (h : IsTop rows (rows.take (n + 1))) {root : Artifact}
    (hroot : root ∈ rows) (honly : ∀ a ∈ rows, a.parentId = none → a = root) :
    root ∈ rows.take (n + 1) := by
  cases rows with
  | nil => cases hroot
  | cons first rest =>
    have hmem : first ∈ (first :: rest).take (n + 1) := by
      rw [List.take_succ_cons]
      exact List.mem_cons_self
    cases hparent : first.parentId with
    | none =>
      rw [← honly first List.mem_cons_self hparent]
      exact hmem
    | some id =>
      obtain ⟨p, hp, -, hdepth⟩ := h.tree.parent first List.mem_cons_self id hparent
      obtain rfl | hp := List.mem_cons.mp hp
      · omega
      · have hle := (List.pairwise_cons.mp h.sorted).1 p hp
        exact absurd (treeKey_lt (by omega)) (not_lt.mpr hle)

/-- **The rows that are kept grow one tree**, in which each of them stands once. -/
theorem IsTop.exists_tree (h : IsTop rows kept) {root : Artifact} (hroot : root ∈ kept)
    (honly : ∀ a ∈ rows, a.parentId = none → a = root) {levels : ℕ}
    (hlevels : kept.length ≤ levels) :
    ∃ t, Rose.grow (childrenIn kept) levels root = some t ∧ t.values.Perm kept := by
  have hheight : heightIn kept root < levels := by
    refine lt_of_lt_of_le ?_ hlevels
    rw [heightIn, List.countP_lt_length_iff]
    exact ⟨root, hroot, decide_eq_false (lt_irrefl _)⟩
  have hlower : ∀ p, p ∈ kept → ∀ c ∈ childrenIn kept p, c ∈ kept ∧
      heightIn kept c < heightIn kept p :=
    fun p hp c hc => ⟨h.layered.closed p hp c hc, h.heightIn_lt hp hc⟩
  obtain ⟨t, ht⟩ := Rose.exists_grow hlower hroot hheight
  refine ⟨t, ht, ?_⟩
  have hnodup : kept.Nodup := (h.ids.of_map _).sublist h.sublist
  rw [List.perm_ext_iff_of_nodup (Rose.nodup_values h.layered hroot ht) hnodup]
  intro a
  rw [Rose.mem_values_iff ht]
  exact ⟨fun hbelow => (h.layered.depth_le hroot hbelow).1, h.below_root honly⟩

/-- The children of a row stand in path order. -/
theorem IsTop.pathOrder (h : IsTop rows kept) {p : Artifact} (hp : p ∈ kept) :
    ((childrenIn kept p).map (·.pathInTree)).Pairwise (· ≤ ·) := by
  have hsorted : (childrenIn kept p).Pairwise fun a b => treeKey a ≤ treeKey b :=
    h.sorted.sublist (List.filter_sublist.trans h.sublist)
  refine List.pairwise_map.mpr (hsorted.imp_of_mem fun {a b} ha hb hle => ?_)
  have hdepth : a.depth = b.depth := by
    rw [h.layered.depth p hp a ha, h.layered.depth p hp b hb]
  obtain hlt | ⟨-, hle⟩ := Prod.Lex.toLex_le_toLex.mp hle
  · exact absurd hlt (by omega)
  · exact hle

end Proofs

/-! ## It is shown -/

/-- What is built if the rows that are kept have one root. -/
theorem buildTree_eq {db : Db} {runId : String} (levels : ℕ) {root : Artifact}
    (hroot : root ∈ (orderedRows db runId).take maxTreeNodes) (hnone : root.parentId = none)
    (honly : ∀ a ∈ orderedRows db runId, a.parentId = none → a = root) :
    buildTree db runId levels
      = ((Rose.grow (childrenIn ((orderedRows db runId).take maxTreeNodes)) levels root).map
          (Rose.map (nodeOf (countBy (·.artifactId) (db.locationsOf runId))))).map
        fun tree => (some tree, decide (maxTreeNodes < (db.artifactsOf runId).length)) := by
  have htake : ((orderedRows db runId).take (maxTreeNodes + 1)).take maxTreeNodes
      = (orderedRows db runId).take maxTreeNodes := by
    rw [List.take_take, Nat.min_eq_left (Nat.le_succ _)]
  have hne : (orderedRows db runId).take (maxTreeNodes + 1) ≠ [] := by
    intro hnil
    rw [hnil, List.take_nil] at htake
    rw [← htake] at hroot
    cases hroot
  have hcapped : decide (maxTreeNodes < ((orderedRows db runId).take (maxTreeNodes + 1)).length)
      = decide (maxTreeNodes < (db.artifactsOf runId).length) := by
    rw [List.length_take, orderedRows, length_sortBy, decide_eq_decide]
    omega
  have hheads : ∃ rest, itemsUnder (groupBy (·.parentId) ((orderedRows db runId).take maxTreeNodes))
      none = root :: rest := by
    rw [itemsUnder_groupBy]
    cases hl : ((orderedRows db runId).take maxTreeNodes).filter
        fun a => decide (a.parentId = none) with
    | nil =>
      exact absurd (List.mem_filter.mpr ⟨hroot, decide_eq_true hnone⟩) (by rw [hl]; exact nofun)
    | cons first rest =>
      have hfirst : first ∈ ((orderedRows db runId).take maxTreeNodes).filter
          fun a => decide (a.parentId = none) := by
        rw [hl]
        exact List.mem_cons_self
      obtain ⟨hin, hnil⟩ := List.mem_filter.mp hfirst
      rw [honly first (List.mem_of_mem_take hin) (of_decide_eq_true hnil)]
      exact ⟨rest, rfl⟩
  obtain ⟨rest, hrest⟩ := hheads
  rw [buildTree, if_neg hne]
  simp only [htake, hcapped, hrest, build_eq]

/-- **The tree that is returned shows the first rows**, and says if there are more, if the rows of
the run form a tree. -/
theorem showsTree_buildTree (db : Db) (runId : String) (levels : ℕ)
    (h : IsArtifactTree (db.artifactsOf runId)) (hlevels : maxTreeNodes ≤ levels) :
    ∃ tree, buildTree db runId levels
        = some (some tree, decide (maxTreeNodes < (db.artifactsOf runId).length)) ∧
      ShowsTree db runId tree := by
  obtain ⟨root, hmem, hnone, honly⟩ := (isTop_take h maxTreeNodes).tree.root
  have htop := isTop_take h maxTreeNodes
  have hroot : root ∈ (orderedRows db runId).take maxTreeNodes := htop.root_mem hmem honly
  have hlength : ((orderedRows db runId).take maxTreeNodes).length ≤ levels :=
    (List.length_take_le _ _).trans hlevels
  obtain ⟨t, hgrow, hperm⟩ := htop.exists_tree hroot honly hlength
  have hcall := buildTree_eq levels hroot hnone honly
  rw [hgrow, Option.map_some, Option.map_some] at hcall
  refine ⟨_, hcall, ?_⟩
  have hinside : ∀ s ∈ t.subtrees, s.value ∈ (orderedRows db runId).take maxTreeNodes :=
    fun s hs => hperm.subset (List.mem_map_of_mem hs)
  refine
    { rows := ?_
      root := ⟨root, hmem, hnone, ?_⟩
      children := ?_
      pathOrder := ?_
      counts := ?_ }
  · rw [Rose.values_map]
    exact hperm.map _
  · rw [Rose.value_map, Rose.value_of_grow hgrow]
    rfl
  · rw [Rose.subtrees_map, List.forall_mem_map]
    intro s hs
    rw [Rose.children_map, List.map_map, Rose.value_map]
    have hchildren := congrArg (List.map Artifact.id) (Rose.children_of_mem_subtrees hgrow s hs)
    rw [List.map_map] at hchildren
    rw [List.map_congr_left fun u _ => (?_ : _ = (Artifact.id ∘ Rose.value) u), hchildren]
    · rfl
    · exact congrArg ArtifactNode.id (Rose.value_map u)
  · rw [Rose.subtrees_map, List.forall_mem_map]
    intro s hs
    rw [Rose.children_map, List.map_map]
    have hchildren := congrArg (List.map Artifact.pathInTree)
      (Rose.children_of_mem_subtrees hgrow s hs)
    rw [List.map_map] at hchildren
    rw [List.map_congr_left fun u _ => (?_ : _ = (Artifact.pathInTree ∘ Rose.value) u), hchildren]
    · exact htop.pathOrder (hinside s hs)
    · exact congrArg ArtifactNode.pathInTree (Rose.value_map u)
  · rw [Rose.values_map, List.forall_mem_map]
    exact fun a _ => lookup_countBy _ _ _

/-- A delivery and the file in it. -/
def delivery : Artifact where
  id := "a"
  runId := "run"
  parentId := none
  name := "drop.zip"
  pathInTree := "drop.zip"

def script : Artifact where
  id := "b"
  runId := "run"
  parentId := some "a"
  name := "app.js"
  pathInTree := "drop.zip → app.js"
  depth := 1

/-- The rows of their run, with a secret in the file. -/
def oneArchive : Db where
  artifacts := { rows := [script, delivery], nodup_keys := by decide }
  locations := [
    { findingId := "f", runId := "run", artifactId := "b", pathInTree := "drop.zip → app.js"
      offset := some 7 }]

theorem isArtifactTree_oneArchive : IsArtifactTree (oneArchive.artifactsOf "run") where
  root := ⟨delivery, by decide, rfl, by decide⟩
  parent a ha id hid := by
    have ha' : a ∈ [script, delivery] := ha
    obtain rfl | rfl := List.mem_pair.mp ha'
    · obtain rfl := Option.some.inj hid
      exact ⟨delivery, by decide, rfl, rfl⟩
    · cases hid

theorem showsTree_oneArchive : ∃ tree, buildTree oneArchive "run" maxTreeNodes
      = some (some tree, decide (maxTreeNodes < (oneArchive.artifactsOf "run").length)) ∧
    ShowsTree oneArchive "run" tree :=
  showsTree_buildTree oneArchive "run" maxTreeNodes isArtifactTree_oneArchive le_rfl

end BareAnalysis.ArtifactTree
