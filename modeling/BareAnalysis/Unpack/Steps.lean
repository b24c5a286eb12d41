import BareAnalysis.Unpack.Extractor

/-!
# Unpack/Steps — what an extraction does, one step at a time

    StepsKeep R ──▸ every turn of every loop ──▸ _extract_one ──▸ _walk, at every level

An extraction changes its state in a dozen ways.  A preorder that each of them keeps relates the
start of every run to its end, raised or returned: `StepsKeep.within_extractTree` goes through the
program once, and every invariant of the package is an instance.
-/

namespace BareAnalysis

open Eff

variable {lib : Libraries}

/-- What the Python extractor of a format can write, and how much it had reserved for it. -/
def CanWrite (lib : Libraries) (via : Container) (content : Bytes) (allowed : ℤ) : Prop :=
  match via with
  | .zip => ∃ data infolist, lib.zip data = .ok infolist ∧
      ∃ info ∈ infolist, info.reader.content = content ∧ (info.fileSize : ℤ) = allowed
  | .tar => ∃ data members, lib.tar data = .ok members ∧
      ∃ member ∈ members, member.extracted.map Reader.content = some content ∧ member.size = allowed
  | .asar => ∃ data start, readAt data start allowed = .ok content
  | .gzip => ∃ data, (lib.gunzip data).content = content
  | _ => False

/-- What was done last is the reservation of a file. -/
def HasReserved (allowed : ℤ) (x : Extraction) : Prop := ∃ pre, x.journal = pre ++ [.reserved allowed]

/-- An external tool has been at work. -/
def ToolRan (x : Extraction) : Prop := ∃ source, .ranTool source ∈ x.journal

/-- A relation that every way of changing the state keeps while one container is extracted. -/
structure ExtractsKeep (lib : Libraries) (R : Extraction → Extraction → Prop) : Prop where
  error : ∀ x text, R x { x with errors := x.errors ++ [text] }
  dirs : ∀ x p, R x { x with disk := x.disk.addDirs p }
  reserved : ∀ x size budget, x.budget.reserve size = (budget, none) →
    R x ({ x with budget := budget }.log [.reserved size])
  refused : ∀ x size budget e, x.budget.reserve size = (budget, some e) →
    R x ({ x with budget := budget }.log [.refused size])
  ranTool : ∀ x source, R x (x.log [.ranTool source])
  wrote : ∀ x via p content allowed,
    (CanWrite lib via content allowed ∧ HasReserved allowed x) ∨ ToolRan x →
    R x ({ x with disk := x.disk.put p content }.log [.wrote via p content allowed])
  removed : ∀ x p, R x ({ x with disk := x.disk.unlink p }.log [.removed p])

/-- … and every way of changing it on a walk. -/
structure StepsKeep (lib : Libraries) (outputRoot : Path) (R : Extraction → Extraction → Prop) : Prop
    extends ExtractsKeep lib R where
  tooDeep : ∀ x depth budget e source wanted, x.budget.checkDepth depth = (budget, some e) →
    R x ({ x with budget := budget }.log [.tooDeep source wanted])
  exhausted : ∀ x source wanted, x.budget.isExhausted = true →
    R x (x.log [.exhausted source wanted])
  opened : ∀ x source, R x (x.log [.opened source])
  kept : ∀ x (written : List Written), R x (x.log (written.map .kept))
  listed : ∀ x node (child : Written), child.path.relativeTo? outputRoot = some node.relativePath →
    R x ({ x with nodes := x.nodes ++ [node] }.log [.listed child])

/-- Nothing is charged, written, removed or listed. -/
def Event.isSilent : Event → Bool
  | reserved _ | wrote .. | removed _ | listed _ => false
  | _ => true

theorem sameTotals_refl (b : ExtractionBudget) : SameTotals b b := ⟨rfl, rfl, rfl, rfl, rfl⟩

/-- **A relation on the totals, the files and the nodes** is kept by every step if it is by the four
that change one of them, and by whatever changes none. -/
theorem StepsKeep.of_silent {outputRoot : Path} {R : Extraction → Extraction → Prop}
    (silent : ∀ x y events, y.journal = x.journal ++ events → (∀ e ∈ events, e.isSilent = true) →
      (∀ p, y.disk.read p = x.disk.read p) → y.nodes = x.nodes → SameTotals x.budget y.budget →
      R x y)
    (reserved : ∀ x size budget, x.budget.reserve size = (budget, none) →
      R x ({ x with budget := budget }.log [.reserved size]))
    (wrote : ∀ x via p content allowed,
      (CanWrite lib via content allowed ∧ HasReserved allowed x) ∨ ToolRan x →
      R x ({ x with disk := x.disk.put p content }.log [.wrote via p content allowed]))
    (removed : ∀ x p, R x ({ x with disk := x.disk.unlink p }.log [.removed p]))
    (listed : ∀ x node (child : Written),
      child.path.relativeTo? outputRoot = some node.relativePath →
      R x ({ x with nodes := x.nodes ++ [node] }.log [.listed child])) :
    StepsKeep lib outputRoot R where
  error x text := silent _ _ [] (List.append_nil _).symm (by simp) (fun _ => rfl) rfl
    (sameTotals_refl _)
  dirs x p := silent _ _ [] (List.append_nil _).symm (by simp) (fun _ => rfl) rfl (sameTotals_refl _)
  reserved := reserved
  refused x size budget e hb := by
    obtain ⟨-, -, hne, -⟩ | ⟨hsame, -, -⟩ := reserve_cases hb
    · cases hne
    · exact silent _ _ _ rfl (by simp [Event.isSilent]) (fun _ => rfl) rfl hsame
  tooDeep x depth budget e source wanted hc := by
    obtain ⟨-, -, hne⟩ | ⟨-, hsame, -, -⟩ := checkDepth_cases hc
    · cases hne
    · exact silent _ _ _ rfl (by simp [Event.isSilent]) (fun _ => rfl) rfl hsame
  exhausted x source wanted _ :=
    silent _ _ _ rfl (by simp [Event.isSilent]) (fun _ => rfl) rfl (sameTotals_refl _)
  opened x source :=
    silent _ _ _ rfl (by simp [Event.isSilent]) (fun _ => rfl) rfl (sameTotals_refl _)
  ranTool x source :=
    silent _ _ _ rfl (by simp [Event.isSilent]) (fun _ => rfl) rfl (sameTotals_refl _)
  wrote := wrote
  removed := removed
  kept x written := silent _ _ _ rfl (fun e he => by
    obtain ⟨w, -, rfl⟩ := List.mem_map.mp he
    rfl) (fun _ => rfl) rfl (sameTotals_refl _)
  listed := listed

/-- **What a reservation does**: charge the budget, or note and raise. -/
theorem exec_reserve (size : ℤ) (x : Extraction) :
    exec (reserve size) x = match x.budget.reserve size with
      | (budget, none) => (.ok (), { x with budget := budget }.log [.reserved size])
      | (budget, some e) =>
        (.error (.budget e), { x with budget := budget }.log [.refused size]) := by
  rw [reserve, exec_bind, exec_get]
  dsimp only
  rcases x.budget.reserve size with ⟨budget, _ | e⟩ <;> rfl

namespace ExtractsKeep

variable {R : Extraction → Extraction → Prop} [Std.Refl R] [IsTrans Extraction R]
  (h : ExtractsKeep lib R)

section Single

omit [Std.Refl R] [IsTrans Extraction R]

include h in
theorem within_noteError (text : String) : Within R (noteError text) :=
  within_modify fun x => h.error x text

include h in
theorem within_reserve (size : ℤ) : Within R (reserve size) := by
  intro x
  rw [exec_reserve]
  rcases hb : x.budget.reserve size with ⟨budget, _ | e⟩
  · exact h.reserved x size budget hb
  · exact h.refused x size budget e hb

end Single

include h in
omit [IsTrans Extraction R] in
theorem within_mkdir (p : Path) : Within R (mkdir lib p) := by
  refine within_get_bind fun x => ?_
  cases hd : x.disk.mkdir lib.refuses p with
  | error text => exact Std.Refl.refl x
  | ok disk =>
    -- a directory that can be made is made by `addDirs`
    have hdisk : disk = x.disk.addDirs p := by
      unfold Disk.mkdir at hd
      split at hd
      · cases hd
      · split at hd
        · cases hd
        · split at hd
          · cases hd
          · exact (Except.ok.inj hd).symm
    rw [hdisk]
    exact h.dirs x p

omit [IsTrans Extraction R] in
theorem within_contentOf (p : Path) : Within R (contentOf p) := by
  refine within_get_bind fun x => ?_
  cases x.disk.read p with
  | none => exact Std.Refl.refl x
  | some content => exact Std.Refl.refl x

include h in
omit [Std.Refl R] in
/-- A reservation, and what is done with it. -/
theorem within_reserve_bind {α : Type} {size : ℤ} {f : Unit → Act α}
    (hf : ∀ u, WithinFrom (HasReserved size) R (f u)) : Within R (reserve size >>= f) := by
  intro x
  rw [exec_bind, exec_reserve]
  rcases hb : x.budget.reserve size with ⟨budget, _ | e⟩
  · exact IsTrans.trans _ _ _ (h.reserved x size budget hb) (hf () _ ⟨x.journal, rfl⟩)
  · exact h.refused x size budget e hb

/-- Creating directories is not on record. -/
theorem hasReserved_mkdir (p : Path) (allowed : ℤ) (x : Extraction) (hx : HasReserved allowed x) :
    HasReserved allowed (exec (mkdir lib p) x).2 := by
  unfold mkdir
  rw [exec_bind, exec_get]
  dsimp only
  cases x.disk.mkdir lib.refuses p with
  | error text => exact hx
  | ok disk => exact hx

theorem exec_finish_state (reader : Reader) (x : Extraction) : (exec (finish reader) x).2 = x := by
  unfold finish
  split <;> rfl

include h in
omit [IsTrans Extraction R] in
theorem within_writeBytes {via : Container} {content : Bytes} {allowed : ℤ} (p : Path)
    (hw : CanWrite lib via content allowed) :
    WithinFrom (HasReserved allowed) R (writeBytes lib via p content allowed) := by
  intro x hx
  unfold writeBytes
  rw [exec_bind, exec_get]
  dsimp only
  cases x.disk.openError lib.refuses p with
  | some text => exact Std.Refl.refl x
  | none => exact h.wrote x via p content allowed (Or.inl ⟨hw, hx⟩)

omit [IsTrans Extraction R] in
theorem within_finish (reader : Reader) : Within R (finish reader) := by
  unfold finish
  split
  · exact within_throw _
  · exact within_pure ()

include h in
theorem within_copyTo {via : Container} {reader : Reader} {allowed : ℤ} (p : Path)
    (hw : CanWrite lib via reader.content allowed) :
    WithinFrom (HasReserved allowed) R (copyTo lib via p reader allowed) :=
  withinFrom_bind_within (h.within_writeBytes p hw) fun _ => within_finish reader

/-! ## The loops of the formats -/

include h in
theorem within_addZipEntry {data : Bytes} {infolist : List ZipInfo} (hz : lib.zip data = .ok infolist)
    (destination : Path) (written : List Written) {info : ZipInfo} (hi : info ∈ infolist) :
    Within R (addZipEntry lib destination written info) := by
  unfold addZipEntry
  split
  · exact within_pure written
  · refine within_ofExcept_bind fun target _ => ?_
    cases target with
    | none => exact within_bind (h.within_noteError _) fun _ => within_pure written
    | some target =>
      refine h.within_reserve_bind fun _ => ?_
      have hcan : CanWrite lib .zip info.reader.content info.fileSize :=
        ⟨data, infolist, hz, info, hi, rfl, rfl⟩
      refine withinFrom_bind (h.within_mkdir _).from (hasReserved_mkdir _ _) fun _ => ?_
      refine withinFrom_bind (within_finish _).from (fun x hx => ?_) fun _ => ?_
      · rwa [exec_finish_state]
      · exact withinFrom_bind_within (h.within_copyTo target hcan) fun _ => within_pure _

include h in
theorem within_extractZip (source destination : Path) :
    Within R (extractZip lib source destination) := by
  refine within_bind (within_contentOf source) fun data => within_ofExcept_bind fun infolist hz => ?_
  have hz' : lib.zip data = .ok infolist := by
    cases hd : lib.zip data with
    | error text => rw [hd] at hz; cases hz
    | ok l => rw [hd] at hz; exact congrArg _ (Except.ok.inj hz)
  exact within_foldlM infolist (fun written info hi => h.within_addZipEntry hz' destination written hi) []

include h in
theorem within_addTarMember {data : Bytes} {members : List TarInfo} (ht : lib.tar data = .ok members)
    (destination : Path) (written : List Written) {member : TarInfo} (hm : member ∈ members) :
    Within R (addTarMember lib destination written member) := by
  unfold addTarMember
  split
  · exact within_pure written
  · refine within_ofExcept_bind fun target _ => ?_
    cases target with
    | none => exact within_bind (h.within_noteError _) fun _ => within_pure written
    | some target =>
      refine h.within_reserve_bind fun _ => ?_
      refine withinFrom_bind (h.within_mkdir _).from (hasReserved_mkdir _ _) fun _ => ?_
      cases hr : member.extracted with
      | none => exact (within_pure written).from
      | some reader =>
        refine withinFrom_bind_within (h.within_copyTo target ?_) fun _ => within_pure _
        exact ⟨data, members, ht, member, hm, by rw [hr]; rfl, rfl⟩

include h in
theorem within_extractTar (source destination : Path) :
    Within R (extractTar lib source destination) := by
  refine within_bind (within_contentOf source) fun data => within_ofExcept_bind fun members ht => ?_
  have ht' : lib.tar data = .ok members := by
    cases hd : lib.tar data with
    | error text => rw [hd] at ht; cases ht
    | ok l => rw [hd] at ht; exact congrArg _ (Except.ok.inj ht)
  exact within_foldlM members (fun written m hm => h.within_addTarMember ht' destination written hm) []

include h in
theorem within_extractGzip (source destination : Path) :
    Within R (extractGzip lib source destination) := by
  refine within_bind (within_contentOf source) fun data => within_ofExcept_bind fun isTar _ => ?_
  split
  · exact h.within_extractTar source destination
  · refine within_bind within_get fun x => h.within_reserve_bind fun _ => ?_
    exact withinFrom_bind_within (h.within_copyTo _ ⟨data, rfl⟩) fun _ => within_pure _

include h in
theorem within_addAsarFile (content : Bytes) (baseOffset : ℕ) (destination : Path)
    (written : List Written) (file : String × Json) :
    Within R (addAsarFile lib content baseOffset destination written file) := by
  refine within_ofExcept_bind fun size _ => within_ofExcept_bind fun offset _ => ?_
  refine within_ofExcept_bind fun target _ => ?_
  cases target with
  | none => exact within_bind (h.within_noteError _) fun _ => within_pure written
  | some target =>
    refine h.within_reserve_bind fun _ => ?_
    refine withinFrom_bind (h.within_mkdir _).from (hasReserved_mkdir _ _) fun _ => ?_
    cases hd : readAt content (baseOffset + offset) size with
    | error e => exact (within_throw e).from
    | ok data =>
      have hcan : CanWrite lib .asar data size := ⟨content, _, hd⟩
      change WithinFrom _ R (writeBytes lib .asar target data size >>= _)
      exact withinFrom_bind_within (h.within_writeBytes target hcan) fun _ => within_pure _

include h in
theorem within_extractAsar (source destination : Path) :
    Within R (extractAsar lib source destination) := by
  refine within_bind (within_contentOf source) fun content => ?_
  split
  · exact within_throw _
  · refine within_ofExcept_bind fun directory _ => within_ofExcept_bind fun _ _ => ?_
    exact within_foldlM _ (fun written file _ => h.within_addAsarFile _ _ destination written file) []

include h in
theorem within_collectFile (collected : List Written) (p : Path) :
    Within R (collectFile collected p) := by
  refine within_get_bind fun x => ?_
  cases x.disk.read p with
  | none => exact Std.Refl.refl x
  | some content =>
    dsimp only
    split
    · exact Std.Refl.refl x
    · refine within_bind (within_tryCatch (h.within_reserve _) fun e => ?_)
        (fun _ => within_pure _) x
      exact within_bind (within_modify fun x => h.removed x p) fun _ => within_throw e

include h in
theorem within_collect (destination : Path) : Within R (collect destination) :=
  within_bind (fun x => Std.Refl.refl x) fun _ =>
    within_foldlM _ (fun collected p _ => h.within_collectFile collected p) []

include h in
omit [Std.Refl R] in
theorem withinFrom_placeFile {via : Container} {destination : Path} (file : Path × Bytes) :
    WithinFrom ToolRan R (placeFile via (destination ++ file.1, file.2)) := by
  refine withinFrom_bind (within_modify fun x => h.dirs x _).from (fun _ hx => hx) fun _ => ?_
  exact fun x hx => h.wrote x via _ _ 0 (Or.inr hx)

theorem toolRan_placeFile {via : Container} {destination : Path} (file : Path × Bytes)
    (x : Extraction) (hx : ToolRan x) :
    ToolRan (exec (placeFile via (destination ++ file.1, file.2)) x).2 := by
  obtain ⟨source, hs⟩ := hx
  exact ⟨source, List.mem_append_left _ hs⟩

include h in
theorem within_extractWithTool (via : Container) (tool : Option (Disk → Path → Path → ToolRun))
    (name : String) (failed : ℤ → Bool) (source destination : Path) :
    Within R (extractWithTool via tool name failed source destination) := by
  cases tool with
  | none => exact within_throw _
  | some run =>
    refine within_bind within_get fun x s => ?_
    rw [exec_bind, record, exec_modify]
    have hran : ToolRan (s.log [.ranTool source]) :=
      ⟨source, List.mem_append_right _ (List.mem_singleton_self _)⟩
    refine IsTrans.trans _ _ _ (h.ranTool s source) (withinFrom_bind_within
      (withinFrom_forM h.withinFrom_placeFile toolRan_placeFile _) (fun _ => ?_) _ hran)
    cases (run x.disk source destination).outcome with
    | error text => exact within_throw _
    | ok result =>
      dsimp only
      split
      · exact within_throw _
      · exact h.within_collect destination

include h in
/-- **One container, of whatever format.** -/
theorem within_extractOne (source destination : Path) (container : Container) :
    Within R (extractOne lib source destination container) := by
  have h7z : Within R (extractWith7z lib source destination) :=
    h.within_extractWithTool .sevenzip _ _ _ source destination
  cases container with
  | zip | jar | apk => exact h.within_extractZip source destination
  | tar => exact h.within_extractTar source destination
  | gzip => exact h.within_extractGzip source destination
  | asar => exact h.within_extractAsar source destination
  | squashfs => exact h.within_extractWithTool .squashfs _ _ _ source destination
  | none => exact within_throw _
  | _ => exact h7z

include h in
/-- **An attempt at a container**, from the creation of its directory on. -/
theorem within_attempt (pathInTree : String) (source destination : Path) (container : Container) :
    Within R (attempt pathInTree container (do
      mkdir lib destination
      extractOne lib source destination container)) := by
  refine within_tryCatch (within_bind (within_bind (h.within_mkdir _) fun _ =>
    h.within_extractOne source _ _) fun _ => within_pure _) fun e => ?_
  cases e with
  | budget e => exact within_bind (h.within_noteError _) fun _ => within_pure _
  | other text => exact within_bind (h.within_noteError _) fun _ => within_pure _

end ExtractsKeep

/-! ## The walk -/

namespace StepsKeep

variable {outputRoot : Path} {R : Extraction → Extraction → Prop} [Std.Refl R]
  [IsTrans Extraction R] (h : StepsKeep lib outputRoot R)

include h in
theorem within_addChild {recur : Path → String → ℤ → Act Unit}
    (hrec : ∀ p name depth, Within R (recur p name depth)) (destination : Path)
    (container : Container) (pathInTree : String) (depth : ℤ) (child : Written) :
    Within R (addChild lib outputRoot recur destination container pathInTree depth child) := by
  refine within_ofExcept_bind fun relative hrel => within_ofExcept_bind fun childName _ => ?_
  have hrel' : child.path.relativeTo? outputRoot = some relative := by
    unfold relativeTo at hrel
    split at hrel
    · rename_i rel hrel'
      rw [hrel', Except.ok.inj hrel]
    · cases hrel
  refine within_bind (fun x => Std.Refl.refl x) fun x => within_ofExcept_bind fun size _ => ?_
  refine within_bind (within_modify fun x => h.listed x _ child hrel') fun _ => ?_
  split
  · exact hrec _ _ _
  · exact within_pure ()

include h in
theorem within_unpack {recur : Path → String → ℤ → Act Unit}
    (hrec : ∀ p name depth, Within R (recur p name depth)) (source : Path) (container : Container)
    (pathInTree : String) (depth : ℤ) :
    Within R (unpack lib outputRoot recur source container pathInTree depth) := by
  refine within_bind (h.within_attempt _ _ _ _) fun written => ?_
  cases written with
  | none => exact within_pure ()
  | some written =>
    refine within_bind (within_modify fun x => h.kept x written) fun _ => ?_
    exact within_forM written fun child _ => h.within_addChild hrec _ _ _ _ child

include h in
theorem within_walkBody {recur : Path → String → ℤ → Act Unit}
    (hrec : ∀ p name depth, Within R (recur p name depth)) (source : Path) (pathInTree : String)
    (depth : ℤ) : Within R (walkBody lib outputRoot recur source pathInTree depth) := by
  refine within_get_bind fun x => ?_
  rcases hc : x.budget.checkDepth depth with ⟨budget, _ | e⟩
  · dsimp only
    split
    · rename_i hex
      exact h.exhausted x source _ hex
    · split
      · exact Std.Refl.refl x
      · exact within_bind (within_modify fun x => h.opened x source)
          (fun _ => h.within_unpack hrec source _ pathInTree depth) x
  · -- the budget this check leaves belongs to this very state
    dsimp only
    rw [exec_bind, exec_modify]
    exact IsTrans.trans _ _ _ (h.tooDeep x depth budget e source _ hc) (h.within_noteError _ _)

include h in
/-- **A walk, at every level.** -/
theorem within_walk (levels : ℕ) (source : Path) (pathInTree : String) (depth : ℤ) :
    Within R (walk lib outputRoot levels source pathInTree depth) := by
  induction levels generalizing source pathInTree depth with
  | zero => exact h.within_walkBody (fun _ _ _ => within_pure ()) source pathInTree depth
  | succ levels ih => exact h.within_walkBody ih source pathInTree depth

include h in
/-- **A whole extraction.** -/
theorem within_extractTree (artifact : Path) (rootName : String) :
    Within R (extractTree lib artifact outputRoot rootName) :=
  within_bind (fun x => Std.Refl.refl x) fun _ => within_bind (h.within_mkdir outputRoot) fun _ =>
    h.within_walk _ artifact rootName 0

end StepsKeep

/-! ## Levels -/

/-- The caps of the budget are what they were. -/
def SameCaps (x y : Extraction) : Prop :=
  y.budget.maxDepth = x.budget.maxDepth ∧ y.budget.maxFiles = x.budget.maxFiles ∧
    y.budget.maxTotalBytes = x.budget.maxTotalBytes

instance : Std.Refl SameCaps := ⟨fun _ => ⟨rfl, rfl, rfl⟩⟩

instance : IsTrans Extraction SameCaps :=
  ⟨fun _ _ _ h h' => ⟨h'.1.trans h.1, h'.2.1.trans h.2.1, h'.2.2.trans h.2.2⟩⟩

/-- **No step moves a cap.** -/
theorem stepsKeep_sameCaps (lib : Libraries) (outputRoot : Path) :
    StepsKeep lib outputRoot SameCaps :=
  .of_silent (fun _ _ _ _ _ _ _ hsame => ⟨hsame.1, hsame.2.1, hsame.2.2.1⟩)
    (fun x size budget hb => by
      obtain ⟨-, -, -, rfl⟩ | ⟨-, -, hne⟩ := reserve_cases hb
      · exact ⟨rfl, rfl, rfl⟩
      · exact absurd rfl hne)
    (fun _ _ _ _ _ _ => ⟨rfl, rfl, rfl⟩) (fun _ _ => ⟨rfl, rfl, rfl⟩)
    (fun _ _ _ _ => ⟨rfl, rfl, rfl⟩)

/-- A program within the caps keeps the depth cap. -/
theorem keeps_maxDepth {α : Type} {prog : Act α} (h : Within SameCaps prog) (cap : ℤ) :
    Keeps (fun x => x.budget.maxDepth = cap) prog := fun x hx => (h x).1.trans hx

theorem agreeOn_addChild {outputRoot : Path} {recur recur' : Path → String → ℤ → Act Unit}
    {depth cap : ℤ} (h : ∀ p name, AgreeOn (fun x => x.budget.maxDepth = cap)
      (recur p name (depth + 1)) (recur' p name (depth + 1)))
    (destination : Path) (container : Container) (pathInTree : String) (child : Written) :
    AgreeOn (fun x => x.budget.maxDepth = cap)
      (addChild lib outputRoot recur destination container pathInTree depth child)
      (addChild lib outputRoot recur' destination container pathInTree depth child) := by
  have hpure : ∀ {α : Type} (r : Except ExtractionError α),
      Keeps (fun x : Extraction => x.budget.maxDepth = cap) (Eff.ofExcept r : Act α) := fun r =>
    keeps_maxDepth (within_ofExcept r) cap
  refine agreeOn_bind (hpure _) fun relative => agreeOn_bind (hpure _) fun childName => ?_
  refine agreeOn_bind (keeps_maxDepth within_get cap) fun x => agreeOn_bind (hpure _) fun size => ?_
  refine agreeOn_bind (fun y hy => hy) fun _ => ?_
  split
  · exact h _ _
  · exact agreeOn_rfl

theorem agreeOn_unpack {outputRoot : Path} {recur recur' : Path → String → ℤ → Act Unit}
    {depth cap : ℤ} (hcaps : ∀ p name d, Within SameCaps (recur p name d))
    (h : ∀ p name, AgreeOn (fun x => x.budget.maxDepth = cap)
      (recur p name (depth + 1)) (recur' p name (depth + 1)))
    (source : Path) (container : Container) (pathInTree : String) :
    AgreeOn (fun x => x.budget.maxDepth = cap)
      (unpack lib outputRoot recur source container pathInTree depth)
      (unpack lib outputRoot recur' source container pathInTree depth) := by
  have hkeep := stepsKeep_sameCaps lib outputRoot
  refine agreeOn_bind (keeps_maxDepth (hkeep.within_attempt _ _ _ _) cap) fun written => ?_
  cases written with
  | none => exact agreeOn_rfl
  | some written =>
    refine agreeOn_bind (keeps_maxDepth (within_modify fun x => hkeep.kept x written) cap)
      fun _ => ?_
    exact agreeOn_forM (fun child => keeps_maxDepth (hkeep.within_addChild hcaps _ _ _ _ child) cap)
      (fun child => agreeOn_addChild h _ _ _ child) written

/-- The body of the walk calls for its children one level deeper, and only within the depth cap. -/
theorem agreeOn_walkBody {outputRoot : Path} {recur recur' : Path → String → ℤ → Act Unit}
    {depth cap : ℤ} (hcaps : ∀ p name d, Within SameCaps (recur p name d))
    (h : depth ≤ cap → ∀ p name, AgreeOn (fun x => x.budget.maxDepth = cap)
      (recur p name (depth + 1)) (recur' p name (depth + 1)))
    (source : Path) (pathInTree : String) :
    AgreeOn (fun x => x.budget.maxDepth = cap)
      (walkBody lib outputRoot recur source pathInTree depth)
      (walkBody lib outputRoot recur' source pathInTree depth) := by
  have hkeep := stepsKeep_sameCaps lib outputRoot
  refine agreeOn_get_bind fun x hx => ?_
  rcases hc : x.budget.checkDepth depth with ⟨budget, _ | e⟩
  · obtain ⟨hdepth, -⟩ | ⟨-, -, -, hne⟩ := checkDepth_cases hc
    · rw [hx] at hdepth
      dsimp only
      split
      · rfl
      · split
        · rfl
        · exact agreeOn_bind (keeps_maxDepth (within_modify fun x => hkeep.opened x source) cap)
            (fun _ => agreeOn_unpack hcaps (h hdepth) source _ pathInTree) x hx
    · exact absurd rfl hne
  · rfl

end BareAnalysis
