import BareAnalysis.Machinery.CodePoints
import BareAnalysis.Machinery.Effects
import BareAnalysis.Foundations.Tables
import BareAnalysis.Machinery.Sorting
import BareAnalysis.Unpack.Detect

/-!
# Unpack/MemberNames — a member's name, from the bytes of a TAR to the tree

    name ──surrogateescape──▸ _safe_join ──▸ child_name ──▸ "parent → child_name" ──▸ node

The walk of `core/unpack/extractor.py` once more, for names that are bytes: `Unpack/Extractor` has
texts in their place.  What the budget, the disk and the decoders of other formats do is left open,
as the steps of a machine.  `WalkState.extracted` is no part of the program: it records what each
node was made of.
-/

namespace BareAnalysis.MemberNames

open CodePoints Eff

/-! ## What the walk is given -/

/-- `tarfile.TarInfo`, its name as the archive has it, with what `extractfile` gives. -/
structure Member where
  name : Bytes
  isFile : Bool := true
  size : ℤ
  extracted : Option Bytes

/-- `BudgetExceeded`, or any other exception, with its text. -/
inductive Failure
  | budget (text : CodePoints)
  | other (text : CodePoints)

/-- A step of the surroundings: what it returns or raises, and what it leaves behind. -/
abbrev Answer (σ α : Type) := σ → Except Failure α × σ

/-- Everything outside the walk: the budget, the disk, and the decoders. -/
structure Surroundings (σ : Type) where
  /-- `str.isalnum`, `str.isalpha`, `repr`. -/
  isAlnum : ℕ → Bool
  isAlpha : ℕ → Bool
  repr : CodePoints → CodePoints
  /-- `budget.check_depth`, with the text of its exception. -/
  checkDepth : ℤ → σ → Option CodePoints × σ
  isExhausted : σ → Bool
  reserve : ℤ → Answer σ Unit
  mkdir : Parts → Answer σ Unit
  write : Parts → Bytes → Answer σ Unit
  stat : Parts → Answer σ ℕ
  detect : σ → Parts → Detection
  isTar : Parts → Answer σ Bool
  members : Parts → Answer σ (List Member)
  /-- The files that any other format's extraction returns. -/
  extractOther : Container → Parts → Parts → Answer σ (List Parts)

/-! ## What the walk keeps -/

/-- What a file was made of: a member of a TAR, or a file another extraction returned. -/
inductive Origin
  | member (name : Bytes)
  | other

/-- `_safe_join`: a member's path under `root`, or nothing if it escapes. -/
def safeJoin (isAlpha : ℕ → Bool) (root : Parts) (member : CodePoints) :
    Except Failure (Option Parts) :=
  let cleaned := member.map fun c => if c = 0x5c then 0x2f else c
  let cleaned := match cleaned with
    | c :: 0x3a :: rest => if isAlpha c then rest else cleaned
    | _ => cleaned
  let cleaned := cleaned.dropWhile fun c => c = 0x2f
  if cleaned = [] ∨ cleaned = ofText "." ∨ cleaned = ofText ".." then .ok none
  else if 0 ∈ cleaned then .error (.other (ofText "lstat: embedded null character in path"))
  else
    let candidate := resolve (root ++ partsOf cleaned)
    .ok ((relativeTo? candidate root).map fun _ => candidate)

/-- A file that was extracted under a destination; a member of a TAR is where its name says. -/
structure Written (isAlpha : ℕ → Bool) (destination : Parts) where
  path : Parts
  origin : Origin
  joined : ∀ name, origin = .member name →
    safeJoin isAlpha destination (decodeEscaping name) = .ok (some path)

/-- A file whose node is listed, with the destination it was extracted to. -/
structure Extracted (isAlpha : ℕ → Bool) where
  destination : Parts
  file : Written isAlpha destination

/-- `ExtractedNode`, its relative path as `as_posix` gives it. -/
structure Node where
  pathInTree : CodePoints
  relativePath : CodePoints
  parentPathInTree : CodePoints
  depth : ℤ
  sizeBytes : ℕ
  container : String
  extractedBy : String

/-- The surroundings, and the result so far. -/
structure WalkState (σ : Type) (isAlpha : ℕ → Bool) where
  world : σ
  nodes : List Node := []
  errors : List CodePoints := []
  extracted : List (Extracted isAlpha) := []

section Walk

variable {σ α : Type} (env : Surroundings σ)

/-- A step of the walk. -/
abbrev Act (α : Type) := Eff Failure (WalkState σ env.isAlpha) α

variable {env} in
/-- A step of the surroundings. -/
def ask (answer : Answer σ α) : Act env α := fun x =>
  ((answer x.world).1, { x with world := (answer x.world).2 })

variable {env} in
/-- `self.result.errors.append`. -/
def noteError (text : CodePoints) : Act env Unit :=
  modify fun x => { x with errors := x.errors ++ [text] }

/-! ## The source's functions -/

/-- `_slugify`. -/
def slugify (pathInTree : CodePoints) (depth : ℤ) : CodePoints :=
  let tail := lastPiece (ofText " → ") pathInTree 0 []
  let safe := (tail.map fun c =>
    if env.isAlnum c || (ofText "._-").contains c then c else 0x5f).take 60
  ofText ("d" ++ toString depth ++ "_") ++ (if safe = [] then ofText "node" else safe)

/-- One turn of the loop of `_extract_tar`. -/
def addTarMember (destination : Parts) (written : List (Written env.isAlpha destination))
    (member : Member) : Act env (List (Written env.isAlpha destination)) :=
  if !member.isFile then pure written
  else
    match h : safeJoin env.isAlpha destination (decodeEscaping member.name) with
    | .error e => throw e
    | .ok none => do
      noteError (ofText "refused path-traversing tar entry "
        ++ env.repr (decodeEscaping member.name))
      pure written
    | .ok (some target) => do
      ask (env.reserve member.size)
      ask (env.mkdir target.dropLast)
      match member.extracted with
      | none => pure written
      | some content => do
        ask (env.write target content)
        pure (written ++ [⟨target, .member member.name, fun _ hname => by cases hname; exact h⟩])

/-- `_extract_tar`. -/
def extractTar (source destination : Parts) :
    Act env (List (Written env.isAlpha destination)) := do
  let members ← ask (env.members source)
  members.foldlM (addTarMember env destination) []

/-- An extraction of another format. -/
def extractOther (source destination : Parts) (container : Container) :
    Act env (List (Written env.isAlpha destination)) := do
  let paths ← ask (env.extractOther container source destination)
  return paths.map fun path => ⟨path, .other, fun _ hname => nomatch hname⟩

/-- `_extract_one`: a TAR, also one inside a gzip, or another format. -/
def extractOne (source destination : Parts) (container : Container) :
    Act env (List (Written env.isAlpha destination)) :=
  match container with
  | .tar => extractTar env source destination
  | .gzip => do
    if ← ask (env.isTar source) then extractTar env source destination
    else extractOther env source destination .gzip
  | container => extractOther env source destination container

/-- The `try` of `_walk`: what an extraction raises is noted, and nothing is listed. -/
def attempt (pathInTree : CodePoints) (container : Container) (extraction : Act env α) :
    Act env (Option α) :=
  tryCatch (do return some (← extraction)) fun e => do
    match e with
    | .budget text => noteError (pathInTree ++ ofText ": " ++ text)
    | .other text =>
      noteError (pathInTree ++ ofText (": " ++ container.value ++ " extraction failed: ") ++ text)
    return none

/-- `path.relative_to(base)`. -/
def relativeTo (path base : Parts) : Except Failure Parts :=
  match relativeTo? path base with
  | some below => .ok below
  | none => .error (.other (ofText "'/" ++ (ofText "/").intercalate path
      ++ ofText "' is not in the subpath of '/" ++ (ofText "/").intercalate base ++ ofText "'"))

/-- One turn of the loop of `_walk` over what an extraction wrote. -/
def addChild (outputRoot : Parts) (walk : Parts → CodePoints → ℤ → Act env Unit)
    (destination : Parts) (container : Container) (pathInTree : CodePoints) (depth : ℤ)
    (child : Written env.isAlpha destination) : Act env Unit := do
  let relative ← Eff.ofExcept (relativeTo child.path outputRoot)
  let childName ← Eff.ofExcept (relativeTo child.path destination)
  let childPathInTree := pathInTree ++ ofText " → " ++ asPosix childName
  let x ← get
  let childDetection := env.detect x.world child.path
  let size ← ask (env.stat child.path)
  let node : Node :=
    { pathInTree := childPathInTree
      relativePath := asPosix relative
      parentPathInTree := pathInTree
      depth := depth + 1
      sizeBytes := size
      container := childDetection.container.value
      extractedBy := container.value }
  modify fun x =>
    { x with nodes := x.nodes ++ [node], extracted := x.extracted ++ [⟨destination, child⟩] }
  if childDetection.shouldUnpack then walk child.path childPathInTree (depth + 1) else pure ()

variable {env} in
/-- `self.budget.check_depth`. -/
def checkDepth (depth : ℤ) : Act env (Option CodePoints) := fun x =>
  (.ok (env.checkDepth depth x.world).1, { x with world := (env.checkDepth depth x.world).2 })

/-- `_walk` from its `try` on. -/
def unpack (outputRoot : Parts) (walk : Parts → CodePoints → ℤ → Act env Unit) (source : Parts)
    (container : Container) (pathInTree : CodePoints) (depth : ℤ) : Act env Unit := do
  let destination := outputRoot ++ [slugify env pathInTree depth]
  let extraction := do
    ask (env.mkdir destination)
    extractOne env source destination container
  match ← attempt env pathInTree container extraction with
  | none => pure ()
  | some written =>
    written.forM (addChild env outputRoot walk destination container pathInTree depth)

/-- The body of `_walk`, with the walk of the children a parameter. -/
def walkBody (outputRoot : Parts) (walk : Parts → CodePoints → ℤ → Act env Unit)
    (source : Parts) (pathInTree : CodePoints) (depth : ℤ) : Act env Unit := do
  match ← checkDepth depth with
  | some text => noteError (pathInTree ++ ofText ": " ++ text)
  | none => do
    let x ← get
    let detection := env.detect x.world source
    if env.isExhausted x.world || !detection.shouldUnpack then pure ()
    else unpack env outputRoot walk source detection.container pathInTree depth

/-- `_walk`, down to a number of levels. -/
def walk (outputRoot : Parts) : ℕ → Parts → CodePoints → ℤ → Act env Unit
  | 0 => walkBody env outputRoot fun _ _ _ => pure ()
  | levels + 1 => walkBody env outputRoot (walk outputRoot levels)

/-- `Extractor.extract_tree`. -/
def extractTree (levels : ℕ) (artifact outputRoot : Parts) (rootName : String) : Act env Unit := do
  ask (env.mkdir outputRoot)
  walk env outputRoot levels artifact (ofText rootName) 0

end Walk

/-! ## From the result document to the ids -/

/-- An artifact of the tree, as `_materialise_tree` makes it. -/
structure Row where
  id : String
  parentId : String
  name : CodePoints
  pathInTree : CodePoints
  depth : ℤ
  sizeBytes : ℕ
  extractedBy : String

/-- One turn of `_materialise_tree`: the rows so far, and their ids by path. -/
def materialiseNode (newId : ℕ → String) (rootId : String) (rootPath : CodePoints)
    (acc : List Row × List (CodePoints × String)) (node : Node) :
    List Row × List (CodePoints × String) :=
  let parentId :=
    if node.parentPathInTree = rootPath then rootId
    else (acc.2.reverse.lookup node.parentPathInTree).getD rootId
  let row : Row :=
    { id := newId acc.1.length
      parentId := parentId
      name := ((partsOf node.relativePath).getLast?).getD []
      pathInTree := node.pathInTree
      depth := node.depth
      sizeBytes := node.sizeBytes
      extractedBy := node.extractedBy }
  (acc.1 ++ [row], acc.2 ++ [(node.pathInTree, row.id)])

/-- `_materialise_tree`: the rows of a tree, parents before their children. -/
def materialiseTree (newId : ℕ → String) (rootId : String) (rootPath : CodePoints)
    (nodes : List Node) : List Row :=
  ((sortBy (fun n => (toLex (n.depth, n.pathInTree) : ℤ ×ₗ CodePoints)) nodes).foldl
    (materialiseNode newId rootId rootPath) ([], [])).1

/-- `artifact_paths.get(artifact_id, "")`. -/
def anchorPath (rootId : String) (rootPath : CodePoints) (rows : List Row) (artifactId : String) :
    CodePoints :=
  (((rootId, rootPath) :: rows.map fun row => (row.id, row.pathInTree)).reverse.lookup
    artifactId).getD []

/-- `Finding.compute_id`: the payload is encoded strictly. -/
def computeId (ruleId valueHash : String) (artifactPath : CodePoints) (offset : Option ℤ) :
    Except EncodeError String := do
  let payload := (ofText unitSep).intercalate
    [ofText ruleId, ofText valueHash, artifactPath, ofText (toString (offset.getD 0))]
  let data ← encode payload
  return String.ofList ((sha256Bytes (data.map UInt8.toNat)).toList.take 32)

/-! ## What is asked of a scan -/

section Scan

variable {σ : Type} (env : Surroundings σ) (levels : ℕ) (artifact outputRoot : Parts)
  (rootName : String) (world : σ) (newId : ℕ → String) (rootId : String)

/-- The walk of an artifact, from an empty result. -/
def walked : Except Failure Unit × WalkState σ env.isAlpha :=
  exec (extractTree env levels artifact outputRoot rootName) { world }

/-- The rows of a scan: a walk that raised leaves no document.  The document carries every text
through unchanged. -/
def rowsOf : List Row :=
  match (walked env levels artifact outputRoot rootName world).1 with
  | .ok () => materialiseTree newId rootId (ofText rootName)
      (walked env levels artifact outputRoot rootName world).2.nodes
  | .error _ => []

/-- The files that are listed in the document. -/
def listed : List (Extracted env.isAlpha) :=
  match (walked env levels artifact outputRoot rootName world).1 with
  | .ok () => (walked env levels artifact outputRoot rootName world).2.extracted
  | .error _ => []

/-- **No name makes `compute_id` raise**: every path has an encoding. -/
structure KeepsNames : Prop where
  rows : ∀ row ∈ rowsOf env levels artifact outputRoot rootName world newId rootId,
    Encodable row.pathInTree
  ids : ∀ ruleId valueHash artifactId offset, ∃ id,
    computeId ruleId valueHash (anchorPath rootId (ofText rootName)
      (rowsOf env levels artifact outputRoot rootName world newId rootId) artifactId) offset = .ok id

end Scan

/-- The path below its destination that a member's name gives. -/
def memberName (isAlpha : ℕ → Bool) (destination : Parts) (name : Bytes) : CodePoints :=
  match safeJoin isAlpha destination (decodeEscaping name) with
  | .ok (some path) => asPosix (path.drop destination.length)
  | _ => []

namespace Extracted

variable {isAlpha : ℕ → Bool}

/-- Where a file is, below its destination. -/
def childName (e : Extracted isAlpha) : CodePoints :=
  asPosix (e.file.path.drop e.destination.length)

/-- The same, of a member from its name. -/
def name (e : Extracted isAlpha) : CodePoints :=
  match e.file.origin with
  | .member name => memberName isAlpha e.destination name
  | .other => e.childName

theorem name_eq (e : Extracted isAlpha) : e.name = e.childName := by
  rcases horigin : e.file.origin with name | _
  · rw [Extracted.name, horigin]
    change memberName isAlpha e.destination name = _
    rw [memberName, e.file.joined name horigin, childName]
  · rw [Extracted.name, horigin]

end Extracted

/-! ## What is listed -/

section Listing

variable {σ : Type} {env : Surroundings σ} {root path : CodePoints}

/-- The root, or a node that is listed. -/
def Stands (root : CodePoints) (nodes : List Node) (path : CodePoints) : Prop :=
  path = root ∨ ∃ n ∈ nodes, n.pathInTree = path

/-- Nodes and the files they are made of are added together. -/
def Adds (root : CodePoints) (isAlpha : ℕ → Bool) :
    List Node × List (Extracted isAlpha) → List Node × List (Extracted isAlpha) → Prop :=
  Relation.ReflTransGen fun old new => ∃ node e parent, Stands root old.1 parent ∧
    node.pathInTree = parent ++ ofText " → " ++ e.childName ∧
      new = (old.1 ++ [node], old.2 ++ [e])

variable (env) in
/-- Between two states the list grows. -/
def Grows (root : CodePoints) (x y : WalkState σ env.isAlpha) : Prop :=
  Adds root env.isAlpha (x.nodes, x.extracted) (y.nodes, y.extracted)

instance : Std.Refl (Grows env root) := ⟨fun _ => .refl⟩

instance : IsTrans (WalkState σ env.isAlpha) (Grows env root) := ⟨fun _ _ _ h h' => h.trans h'⟩

/-- **The paths have encodings just when the names below the destinations have them.** -/
theorem encodable_iff_of_adds {isAlpha : ℕ → Bool}
    {listing : List Node × List (Extracted isAlpha)} (hroot : Encodable root)
    (h : Adds root isAlpha ([], []) listing) :
    (∀ n ∈ listing.1, Encodable n.pathInTree) ↔ ∀ e ∈ listing.2, Encodable e.childName := by
  induction h with
  | refl => simp
  | tail _ hstep ih =>
    obtain ⟨node, e, parent, hparent, hpath, rfl⟩ := hstep
    simp only [List.mem_append, List.mem_singleton, or_imp, forall_and, forall_eq, ← ih, hpath]
    refine and_congr_right fun hnodes => ?_
    have hbefore : Encodable parent := by
      obtain rfl | ⟨n, hn, rfl⟩ := hparent
      · exact hroot
      · exact hnodes n hn
    rw [encodable_append, encodable_append]
    exact ⟨And.right, fun he => ⟨⟨hbefore, encodable_ofText _⟩, he⟩⟩

theorem Adds.subset {isAlpha : ℕ → Bool} {old new : List Node × List (Extracted isAlpha)}
    (h : Adds root isAlpha old new) : old.1 ⊆ new.1 := by
  induction h with
  | refl => exact List.Subset.refl _
  | tail _ hstep ih =>
    obtain ⟨node, e, parent, -, -, rfl⟩ := hstep
    exact List.Subset.trans ih (List.subset_append_left _ _)

theorem Stands.mono {nodes nodes' : List Node} (h : Stands root nodes path)
    (hsub : nodes ⊆ nodes') : Stands root nodes' path := by
  obtain rfl | ⟨n, hn, rfl⟩ := h
  · exact Or.inl rfl
  · exact Or.inr ⟨n, hsub hn, rfl⟩

/-! ## One container lists nothing -/

theorem within_ask {α : Type} (answer : Answer σ α) :
    Within (Grows env root) (ask answer) := fun _ => .refl

theorem within_noteError (text : CodePoints) :
    Within (Grows env root) (noteError text) := fun _ => .refl

theorem within_addTarMember (destination : Parts)
    (written : List (Written env.isAlpha destination)) (member : Member) :
    Within (Grows env root) (addTarMember env destination written member) := by
  rw [addTarMember]
  split
  · exact within_pure written
  · split
    · exact within_throw _
    · exact within_bind (within_noteError _) fun _ => within_pure written
    · refine within_bind (within_ask _) fun _ => within_bind (within_ask _) fun _ => ?_
      rcases member.extracted with _ | content
      · exact within_pure written
      · exact within_bind (within_ask _) fun _ => within_pure _

theorem within_extractTar (source destination : Parts) :
    Within (Grows env root) (extractTar env source destination) :=
  within_bind (within_ask _) fun members =>
    within_foldlM members (fun written member _ => within_addTarMember destination written member) []

theorem within_extractOther (source destination : Parts) (container : Container) :
    Within (Grows env root) (extractOther env source destination container) :=
  within_bind (within_ask _) fun _ => within_pure _

theorem within_extractOne (source destination : Parts) (container : Container) :
    Within (Grows env root) (extractOne env source destination container) := by
  cases container
  case tar => exact within_extractTar source destination
  case gzip =>
    refine within_bind (within_ask _) fun isTar => ?_
    cases isTar
    · exact within_extractOther source destination .gzip
    · exact within_extractTar source destination
  all_goals exact within_extractOther source destination _

theorem within_attempt {α : Type} (pathInTree : CodePoints) (container : Container)
    {extraction : Act env α} (h : Within (Grows env root) extraction) :
    Within (Grows env root) (attempt env pathInTree container extraction) := by
  refine within_tryCatch (within_bind h fun _ => within_pure _) fun e => ?_
  cases e with
  | budget text => exact within_bind (within_noteError _) fun _ => within_pure _
  | other text => exact within_bind (within_noteError _) fun _ => within_pure _

/-! ## The walk lists a tree -/

/-- A walk of a file that is listed. -/
def Listed (root path : CodePoints) (x : WalkState σ env.isAlpha) : Prop := Stands root x.nodes path

theorem Listed.of_grows {x y : WalkState σ env.isAlpha} (h : Listed root path x)
    (hgrows : Grows env root x y) : Listed root path y := Stands.mono h hgrows.subset

variable {outputRoot : Parts} {recur : Parts → CodePoints → ℤ → Act env Unit}

theorem withinFrom_addChild (hrec : ∀ p name depth, WithinFrom (Listed root name) (Grows env root)
      (recur p name depth)) (destination : Parts) (container : Container) (depth : ℤ)
    (child : Written env.isAlpha destination) :
    WithinFrom (Listed root path) (Grows env root)
      (addChild env outputRoot recur destination container path depth child) := by
  refine withinFrom_ofExcept_bind fun relative _ =>
    withinFrom_ofExcept_bind fun childName hchild => ?_
  refine withinFrom_bind within_get.from (fun x hx => hx) fun x => ?_
  refine withinFrom_bind (within_ask _).from (fun x hx => hx) fun size => fun y hy => ?_
  rw [exec_modify_bind]
  have hname : asPosix childName = (⟨destination, child⟩ : Extracted env.isAlpha).childName := by
    rw [relativeTo] at hchild
    rcases hbelow : relativeTo? child.path destination with _ | below
    · rw [hbelow] at hchild
      cases hchild
    · rw [hbelow] at hchild
      rw [← Except.ok.inj hchild, Extracted.childName, relativeTo?_eq_some hbelow]
  set node : Node :=
    { pathInTree := path ++ ofText " → " ++ asPosix childName
      relativePath := asPosix relative
      parentPathInTree := path
      depth := depth + 1
      sizeBytes := size
      container := (env.detect x.world child.path).container.value
      extractedBy := container.value }
  set y' : WalkState σ env.isAlpha :=
    { y with nodes := y.nodes ++ [node], extracted := y.extracted ++ [⟨destination, child⟩] }
  have hstep : Grows env root y y' :=
    .single ⟨node, ⟨destination, child⟩, path, hy, congrArg (_ ++ ·) hname, rfl⟩
  refine IsTrans.trans _ _ _ hstep ?_
  split
  · have hlisted : node ∈ y'.nodes := List.mem_append_right _ (List.mem_singleton_self node)
    exact hrec _ _ _ y' (Or.inr ⟨node, hlisted, rfl⟩)
  · exact Std.Refl.refl y'

theorem withinFrom_unpack (hrec : ∀ p name depth, WithinFrom (Listed root name) (Grows env root)
      (recur p name depth)) (source : Parts) (container : Container) (depth : ℤ) :
    WithinFrom (Listed root path) (Grows env root)
      (unpack env outputRoot recur source container path depth) := by
  have hattempt : Within (Grows env root) (attempt env path container do
      ask (env.mkdir (outputRoot ++ [slugify env path depth]))
      extractOne env source (outputRoot ++ [slugify env path depth]) container) :=
    within_attempt path container
      (within_bind (within_ask _) fun _ => within_extractOne source _ container)
  refine withinFrom_bind hattempt.from (fun x hx => hx.of_grows (hattempt x)) fun written => ?_
  cases written with
  | none => exact (within_pure ()).from
  | some written =>
    have hchild : ∀ child, WithinFrom (Listed root path) (Grows env root)
        (addChild env outputRoot recur (outputRoot ++ [slugify env path depth]) container path depth
          child) := withinFrom_addChild hrec _ container depth
    exact withinFrom_forM hchild (fun child x hx => hx.of_grows (hchild child x hx)) written

theorem withinFrom_walkBody (hrec : ∀ p name depth, WithinFrom (Listed root name) (Grows env root)
      (recur p name depth)) (source : Parts) (depth : ℤ) :
    WithinFrom (Listed root path) (Grows env root)
      (walkBody env outputRoot recur source path depth) := by
  have hcheck : Within (Grows env root) (checkDepth depth) := fun _ => .refl
  refine withinFrom_bind hcheck.from (fun x hx => hx) fun exceeded => ?_
  cases exceeded with
  | some text => exact (within_noteError _).from
  | none =>
    refine withinFrom_get_bind fun x hx => ?_
    dsimp only
    split
    · exact Std.Refl.refl x
    · exact withinFrom_unpack hrec source _ depth x hx

theorem withinFrom_walk (levels : ℕ) (source : Parts) (depth : ℤ) :
    WithinFrom (Listed root path) (Grows env root)
      (walk env outputRoot levels source path depth) := by
  induction levels generalizing source path depth with
  | zero => exact withinFrom_walkBody (fun _ _ _ => (within_pure ()).from) source depth
  | succ levels ih => exact withinFrom_walkBody (fun p _ depth => ih p depth) source depth

/-- **Node by node**, from none. -/
theorem adds_walked (levels : ℕ) (artifact outputRoot : Parts) (rootName : String) (world : σ) :
    Adds (ofText rootName) env.isAlpha ([], [])
      ((walked env levels artifact outputRoot rootName world).2.nodes,
        (walked env levels artifact outputRoot rootName world).2.extracted) := by
  have hwalk : Within (Grows env (ofText rootName))
      (walk env outputRoot levels artifact (ofText rootName) 0) :=
    fun x => withinFrom_walk levels artifact 0 x (Or.inl rfl)
  have hgrows : Within (Grows env (ofText rootName))
      (extractTree env levels artifact outputRoot rootName) :=
    within_bind (within_ask _) fun _ => hwalk
  exact hgrows { world }

end Listing

/-! ## From the list to the ids -/

section Ids

variable (newId : ℕ → String) (rootId : String) (rootPath : CodePoints)

/-- The rows have the paths of the nodes. -/
theorem pathInTree_foldl_materialiseNode (nodes : List Node)
    (acc : List Row × List (CodePoints × String)) :
    (nodes.foldl (materialiseNode newId rootId rootPath) acc).1.map Row.pathInTree
      = acc.1.map Row.pathInTree ++ nodes.map Node.pathInTree := by
  induction nodes generalizing acc with
  | nil => simp
  | cons node nodes ih =>
    rw [List.foldl_cons, ih]
    simp [materialiseNode]

theorem forall_materialiseTree {P : CodePoints → Prop} {nodes : List Node} :
    (∀ row ∈ materialiseTree newId rootId rootPath nodes, P row.pathInTree) ↔
      ∀ node ∈ nodes, P node.pathInTree := by
  have hpaths := pathInTree_foldl_materialiseNode newId rootId rootPath
    (sortBy (fun n => (toLex (n.depth, n.pathInTree) : ℤ ×ₗ CodePoints)) nodes) ([], [])
  rw [← List.forall_mem_map (f := Row.pathInTree) (P := P), materialiseTree, hpaths]
  simp [mem_sortBy]

/-- A payload with an encodable path is hashed. -/
theorem exists_computeId {path : CodePoints} (h : Encodable path) (ruleId valueHash : String)
    (offset : Option ℤ) : ∃ id, computeId ruleId valueHash path offset = .ok id := by
  have hsep := encodable_ofText unitSep
  have hpayload : Encodable ((ofText unitSep).intercalate
      [ofText ruleId, ofText valueHash, path, ofText (toString (offset.getD 0))]) := by
    simp only [List.intercalate_cons_cons, List.intercalate_singleton, encodable_append]
    exact ⟨⟨encodable_ofText _, hsep⟩, ⟨encodable_ofText _, hsep⟩, ⟨h, hsep⟩, encodable_ofText _⟩
  exact ⟨_, by rw [computeId, encode_eq_ok hpayload]; rfl⟩

/-- An anchor is the path of a row, or the root's, or empty. -/
theorem encodable_anchorPath {rows : List Row} (hroot : Encodable rootPath)
    (hrows : ∀ row ∈ rows, Encodable row.pathInTree) (artifactId : String) :
    Encodable (anchorPath rootId rootPath rows artifactId) := by
  rw [anchorPath]
  rcases hpath : List.lookup artifactId
    ((rootId, rootPath) :: rows.map fun row => (row.id, row.pathInTree)).reverse with _ | path
  · rw [hpath, Option.getD_none]
    exact fun c hc => absurd hc List.not_mem_nil
  · rw [hpath, Option.getD_some]
    obtain ⟨before, after, hsplit, -⟩ := List.lookup_eq_some_iff.mp hpath
    have hmem : (artifactId, path)
        ∈ ((rootId, rootPath) :: rows.map fun row => (row.id, row.pathInTree)).reverse :=
      hsplit ▸ List.mem_append_right _ List.mem_cons_self
    obtain heq | hin := List.mem_cons.mp (List.mem_reverse.mp hmem)
    · exact (Prod.mk.inj heq).2 ▸ hroot
    · obtain ⟨row, hrow, heq⟩ := List.mem_map.mp hin
      exact (Prod.mk.inj heq).2 ▸ hrows row hrow

end Ids

section Main

variable {σ : Type} (env : Surroundings σ) (levels : ℕ) (artifact outputRoot : Parts)
  (rootName : String) (world : σ) (newId : ℕ → String) (rootId : String)

/-- **A scan keeps the names of its tree just when each of them is text**: the names of the listed
members, where `_safe_join` puts them, hold no byte that is no UTF-8. -/
theorem keepsNames_iff :
    KeepsNames env levels artifact outputRoot rootName world newId rootId ↔
      ∀ e ∈ listed env levels artifact outputRoot rootName world, Encodable e.name := by
  have hroot := encodable_ofText rootName
  have hadds := @adds_walked _ env levels artifact outputRoot rootName world
  have hrows : (∀ row ∈ rowsOf env levels artifact outputRoot rootName world newId rootId,
      Encodable row.pathInTree) ↔
        ∀ e ∈ listed env levels artifact outputRoot rootName world, Encodable e.name := by
    simp only [rowsOf, listed, Extracted.name_eq]
    rcases (walked env levels artifact outputRoot rootName world).1 with e | ⟨⟩
    · simp
    · exact (forall_materialiseTree newId rootId _).trans (encodable_iff_of_adds hroot hadds)
  constructor
  · exact fun h => hrows.mp h.rows
  · intro h
    have hencodable := hrows.mpr h
    refine ⟨hencodable, fun ruleId valueHash artifactId offset => ?_⟩
    exact exists_computeId (encodable_anchorPath rootId _ hroot hencodable artifactId) _ _ _

/-- Surroundings where every step succeeds, with one TAR that is the artifact. -/
def oneTar (members : List Member) : Surroundings Unit where
  isAlnum _ := false
  isAlpha _ := false
  repr text := text
  checkDepth _ world := (none, world)
  isExhausted _ := false
  reserve _ world := (.ok (), world)
  mkdir _ world := (.ok (), world)
  write _ _ world := (.ok (), world)
  stat _ world := (.ok 1, world)
  detect _ path :=
    if path = [ofText "a.tar"] then ⟨.tar, 95 / 100, "magic at offset 257"⟩
    else ⟨.none, 8 / 10, "no container signature"⟩
  isTar _ world := (.ok false, world)
  members _ world := (.ok members, world)
  extractOther _ _ _ world := (.ok [], world)

/-- A name in a legacy encoding fails the scan. -/
theorem legacy_name_fails :
    ¬ KeepsNames (oneTar [{ name := [0x63, 0x61, 0x66, 0xe9], size := 1, extracted := some [0] }])
      9 [ofText "a.tar"] [ofText "out"] "a.tar" () (fun n => toString n) "root" := fun h => by
  have hall := h.rows
  exact absurd hall (by decide +kernel)

end Main

end BareAnalysis.MemberNames
