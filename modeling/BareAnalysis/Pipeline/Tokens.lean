import BareAnalysis.Machinery.History
import BareAnalysis.Machinery.Sha256
import BareAnalysis.Machinery.Text
import Mathlib.Data.Int.Notation

/-!
# Pipeline/Tokens — minting and revoking API tokens in overlapping transactions

    ensure_bootstrap_token   select any id ──▸ select active name ──▸ insert ──▸ commit
    create_token                               select active name ──▸ insert ──▸ commit
    revoke_token             select by id ──▸ by active name ──▸ by name ──▸ commit

`core/pipeline/tokens.py`.  Every statement is a turn of its own and sees the rows committed by
then; the one unique column besides the id is the hash.
-/

namespace BareAnalysis.Tokens

/-- What a token may do. -/
inductive Scope
  | ci
  | admin
  deriving DecidableEq, Repr

/-- A row of `api_tokens`. -/
structure ApiToken where
  id : String
  /-- Human label. -/
  name : String
  tokenHash : String
  /-- The redacted form, for display. -/
  tokenPrefix : String
  scope : Scope
  createdBy : String
  expiresAt : Option ℤ
  createdAt : ℤ
  revokedAt : Option ℤ := none
  deriving DecidableEq, Repr

/-- Not revoked, and with this name. -/
def ApiToken.IsActiveNamed (token : ApiToken) (name : String) : Prop :=
  token.revokedAt = none ∧ token.name = name

instance (token : ApiToken) (name : String) : Decidable (token.IsActiveNamed name) :=
  inferInstanceAs (Decidable (_ ∧ _))

def tokenPrefixText : List Char := "bare_".toList

def bootstrapTokenName : String := "bootstrap"

/-- `hash_token`. -/
def hashToken (token : String) : String := sha256 (String.ofList (strip isSpace token.toList))

/-- `redact`: a label for logs and audit rows. -/
def redact (token : String) : String :=
  if token = "" then "<empty>"
  else
    let body := if tokenPrefixText <+: token.toList then token.toList.drop tokenPrefixText.length
      else token.toList
    String.ofList (tokenPrefixText ++ body.take 8 ++ ['…'])

/-- What a transaction draws: a fresh id and token, and the clock. -/
structure Draw where
  id : String
  plaintext : String
  now : ℤ
  deriving DecidableEq, Repr

/-- The arguments of `create_token`. -/
structure CreateArgs where
  name : String
  scope : Scope := .ci
  createdBy : String := "system"
  expiresInDays : Option ℤ := none
  deriving DecidableEq, Repr

/-- `name.strip()`. -/
def CreateArgs.label (args : CreateArgs) : String := String.ofList (strip isSpace args.name.toList)

/-- A day, in microseconds. -/
def dayMicros : ℤ := 86400 * 1000000

/-- The row `create_token` adds. -/
def CreateArgs.row (args : CreateArgs) (draw : Draw) : ApiToken where
  id := draw.id
  name := args.label
  tokenHash := hashToken draw.plaintext
  tokenPrefix := redact draw.plaintext
  scope := args.scope
  createdBy := args.createdBy
  expiresAt := args.expiresInDays.map fun days => draw.now + days * dayMicros
  createdAt := draw.now

/-- The arguments `ensure_bootstrap_token` calls `create_token` with. -/
def bootstrapArgs : CreateArgs where
  name := bootstrapTokenName
  scope := .admin
  createdBy := "bootstrap"

/-! ## Transactions -/

/-- A call, before its first statement. -/
inductive TokenCall
  | ensureBootstrapToken (draw : Draw)
  | createToken (args : CreateArgs) (draw : Draw)
  | revokeToken (identifier : String) (now : ℤ)
  deriving DecidableEq, Repr

/-- A transaction, ahead of its next statement.  A mint remembers how many rows were committed when
the guard was read that lets it go on: of a bootstrap the first one, else the look for the name. -/
inductive Txn
  | tokensExist (draw : Draw)
  | findExisting (args : CreateArgs) (draw : Draw) (bootstrap : Option ℕ)
  | flushing (row : ApiToken) (bootstrap : Bool) (seen : ℕ)
  | flushed (row : ApiToken) (bootstrap : Bool) (seen : ℕ)
  | getById (key : String) (now : ℤ)
  | findActive (key : String) (now : ℤ)
  | findNamed (key : String) (now : ℤ)
  | revoking (id : String) (now : ℤ)
  | closed
  deriving DecidableEq, Repr

/-- What a call does ahead of its first statement. -/
def TokenCall.start : TokenCall → Txn
  | ensureBootstrapToken draw => .tokensExist draw
  | createToken args draw => if args.label = "" then .closed else .findExisting args draw none
  | revokeToken identifier now => .getById (String.ofList (strip isSpace identifier.toList)) now

/-- A token committed by a mint. -/
structure Mint where
  token : ApiToken
  bootstrap : Bool
  /-- How many rows were committed before it. -/
  before : ℕ
  deriving DecidableEq, Repr

/-- What one statement makes of the transaction and of the committed rows. -/
structure Turn where
  txn : Txn
  db : List ApiToken
  mint : Option Mint := none

/-- A record that was found: revoked already, or to be revoked. -/
def revokeFound (record : ApiToken) (now : ℤ) : Txn :=
  if record.revokedAt.isSome then .closed else .revoking record.id now

/-- The latest of the rows, first come first of those created at once. -/
def latest (rows : List ApiToken) : Option ApiToken :=
  rows.foldl (fun best row =>
    match best with
    | some b => if b.createdAt < row.createdAt then some row else some b
    | none => some row) none

/-- `revoked_at` of one row set. -/
def revokeRow (id : String) (now : ℤ) (row : ApiToken) : ApiToken :=
  if row.id = id then { row with revokedAt := some now } else row

/-- The next statement of a transaction. -/
def turn (db : List ApiToken) : Txn → Turn
  | .tokensExist draw =>
    if db ≠ [] then ⟨.closed, db, none⟩
    else ⟨.findExisting bootstrapArgs draw (some db.length), db, none⟩
  | .findExisting args draw bootstrap =>
    if ∃ row ∈ db, row.IsActiveNamed args.label then ⟨.closed, db, none⟩
    else if ∃ days ∈ args.expiresInDays, days ≤ 0 then ⟨.closed, db, none⟩
    else ⟨.flushing (args.row draw) bootstrap.isSome (bootstrap.getD db.length), db, none⟩
  | .flushing row bootstrap seen =>
    -- the unique columns
    if ∃ r ∈ db, r.tokenHash = row.tokenHash ∨ r.id = row.id then ⟨.closed, db, none⟩
    else ⟨.flushed row bootstrap seen, db, none⟩
  | .flushed row bootstrap _ => ⟨.closed, db ++ [row], some ⟨row, bootstrap, db.length⟩⟩
  | .getById key now =>
    match db.find? fun row => row.id = key with
    | some record => ⟨revokeFound record now, db, none⟩
    | none => ⟨.findActive key now, db, none⟩
  | .findActive key now =>
    match db.find? fun row => row.IsActiveNamed key with
    | some record => ⟨revokeFound record now, db, none⟩
    | none => ⟨.findNamed key now, db, none⟩
  | .findNamed key now =>
    match latest (db.filter fun row => row.name = key) with
    | some record => ⟨revokeFound record now, db, none⟩
    | none => ⟨.closed, db, none⟩
  | .revoking id now => ⟨.closed, db.map (revokeRow id now), none⟩
  | .closed => ⟨.closed, db, none⟩

/-- The rows that are committed, the transactions, and the tokens minted so far. -/
structure TokenState where
  db : List ApiToken := []
  txns : List Txn := []
  mints : List Mint := []
  deriving DecidableEq, Repr

/-- An insert waits for another one of the same key to end. -/
def IsBlocked (txn other : Txn) : Prop :=
  match txn, other with
  | .flushing row _ _, .flushed row' _ _ => row'.tokenHash = row.tokenHash ∨ row'.id = row.id
  | _, _ => False

instance : DecidableRel IsBlocked := fun txn other => by
  cases txn <;> cases other <;>
    first
      | exact inferInstanceAs (Decidable (_ ∨ _))
      | exact inferInstanceAs (Decidable False)

/-- What happens next. -/
inductive TokenAct
  | begin (call : TokenCall)
  | advance (i : ℕ)
  /-- The transaction is rolled back. -/
  | abort (i : ℕ)
  deriving DecidableEq, Repr

/-- Transactions take their turns in any order. -/
def step (s : TokenState) : TokenAct → TokenState
  | .begin call => { s with txns := s.txns ++ [call.start] }
  | .advance i =>
    match s.txns[i]? with
    | some txn =>
      if ∃ other ∈ s.txns.eraseIdx i, IsBlocked txn other then s
      else
        { db := (turn s.db txn).db
          txns := s.txns.set i (turn s.db txn).txn
          mints := s.mints ++ (turn s.db txn).mint.toList }
    | none => s
  | .abort i => { s with txns := s.txns.set i .closed }

/-! ## One credential -/

/-- Setup minted one credential at most, ahead of every other token, and names tell the active
tokens apart. -/
structure OneCredential (s : TokenState) : Prop where
  bootstraps : (s.mints.filter Mint.bootstrap).length ≤ 1
  first : ∀ mint ∈ s.mints, mint.bootstrap = true → mint.before = 0
  names : ((s.db.filter fun row => row.revokedAt = none).map ApiToken.name).Nodup

/-- A token whose guard is out of date: since the guard was read another one was committed that the
guard would have found. -/
def IsOvertaken (db : List ApiToken) (row : ApiToken) (bootstrap : Bool) (seen : ℕ) : Prop :=
  ∃ r ∈ db.drop seen, bootstrap = true ∨ r.IsActiveNamed row.name

/-- No mint is committed that was overtaken. -/
def Undisturbed (s : TokenState) : TokenAct → Prop
  | .advance i =>
    match s.txns[i]? with
    | some (.flushed row bootstrap seen) => ¬IsOvertaken s.db row bootstrap seen
    | _ => True
  | _ => True

/-! ## What a turn can do -/

/-- **A turn changes the rows only where it commits**: one new row, or a row revoked. -/
theorem turn_cases (db : List ApiToken) (txn : Txn) :
    ((turn db txn).db = db ∧ (turn db txn).mint = none) ∨
    (∃ row bootstrap seen, txn = .flushed row bootstrap seen ∧ (turn db txn).db = db ++ [row] ∧
      (turn db txn).mint = some ⟨row, bootstrap, db.length⟩) ∨
    (∃ id now, txn = .revoking id now ∧ (turn db txn).db = db.map (revokeRow id now) ∧
      (turn db txn).mint = none) := by
  cases txn with
  | flushed row bootstrap seen => exact Or.inr (Or.inl ⟨row, bootstrap, seen, rfl, rfl, rfl⟩)
  | revoking id now => exact Or.inr (Or.inr ⟨id, now, rfl, rfl, rfl⟩)
  | closed => exact Or.inl ⟨rfl, rfl⟩
  | tokensExist draw | findExisting args draw bootstrap | flushing row bootstrap seen
  | getById key now | findActive key now | findNamed key now =>
    refine Or.inl ?_
    rw [turn]
    repeat' split
    all_goals exact ⟨rfl, rfl⟩

theorem not_isBlocked_flushed (row : ApiToken) (bootstrap : Bool) (seen : ℕ) (other : Txn) :
    ¬IsBlocked (.flushed row bootstrap seen) other := id

/-- Rows are appended and revoked: no early row becomes active. -/
structure Evolves (db db' : List ApiToken) : Prop where
  length : db.length ≤ db'.length
  active : ∀ seen ≤ db.length, ∀ name, (∃ r ∈ db'.take seen, r.IsActiveNamed name) →
    ∃ r ∈ db.take seen, r.IsActiveNamed name

theorem Evolves.refl (db : List ApiToken) : Evolves db db := ⟨le_rfl, fun _ _ _ h => h⟩

theorem evolves_append (db new : List ApiToken) : Evolves db (db ++ new) where
  length := by simp
  active seen hseen name h := by rwa [List.take_append_of_le_length hseen] at h

theorem isActiveNamed_revokeRow {id name : String} {now : ℤ} {r : ApiToken}
    (h : (revokeRow id now r).IsActiveNamed name) : revokeRow id now r = r := by
  rw [revokeRow] at h ⊢
  split
  · rw [if_pos ‹_›] at h
    cases h.1
  · rfl

theorem evolves_revoke (db : List ApiToken) (id : String) (now : ℤ) :
    Evolves db (db.map (revokeRow id now)) where
  length := by simp
  active seen _ name h := by
    obtain ⟨r, hr, hactive⟩ := h
    rw [← List.map_take] at hr
    obtain ⟨r, hmem, rfl⟩ := List.mem_map.mp hr
    exact ⟨r, hmem, isActiveNamed_revokeRow hactive ▸ hactive⟩

theorem evolves_turn (db : List ApiToken) (txn : Txn) : Evolves db (turn db txn).db := by
  obtain ⟨hdb, -⟩ | ⟨row, bootstrap, seen, -, hdb, -⟩ | ⟨id, now, -, hdb, -⟩ := turn_cases db txn
  · rw [hdb]
    exact .refl db
  · rw [hdb]
    exact evolves_append db [row]
  · rw [hdb]
    exact evolves_revoke db id now

/-! ## The invariant -/

/-- A guard that was read let the mint go on: none of the rows it saw is in the way. -/
structure GuardHeld (db : List ApiToken) (row : ApiToken) (bootstrap : Bool) (seen : ℕ) : Prop where
  bound : seen ≤ db.length
  fresh : row.revokedAt = none
  bootstrap : bootstrap = true → seen = 0
  name : ¬∃ r ∈ db.take seen, r.IsActiveNamed row.name

/-- What a transaction knows of the committed rows. -/
def Txn.Knows (db : List ApiToken) : Txn → Prop
  | .findExisting _ _ bootstrap => ∀ seen ∈ bootstrap, seen = 0
  | .flushing row bootstrap seen | .flushed row bootstrap seen => GuardHeld db row bootstrap seen
  | _ => True

variable {db db' : List ApiToken} {txn : Txn} {s : TokenState}

theorem GuardHeld.mono {row : ApiToken} {bootstrap : Bool} {seen : ℕ}
    (h : GuardHeld db row bootstrap seen) (hdb : Evolves db db') : GuardHeld db' row bootstrap seen :=
  ⟨h.bound.trans hdb.length, h.fresh, h.bootstrap, fun hactive =>
    h.name (hdb.active seen h.bound row.name hactive)⟩

theorem Txn.Knows.mono (h : txn.Knows db) (hdb : Evolves db db') : txn.Knows db' := by
  cases txn with
  | flushing row bootstrap seen => exact GuardHeld.mono h hdb
  | flushed row bootstrap seen => exact GuardHeld.mono h hdb
  | _ => exact h

theorem knows_revokeFound (record : ApiToken) (now : ℤ) : (revokeFound record now).Knows db := by
  rw [revokeFound]
  split <;> trivial

/-- **A turn keeps what the transaction knows.** -/
theorem knows_turn (h : txn.Knows db) : (turn db txn).txn.Knows (turn db txn).db := by
  cases txn with
  | tokensExist draw =>
    rw [turn]
    split
    · trivial
    · intro seen hseen
      rw [← Option.mem_some.mp hseen, List.length_eq_zero_iff]
      exact not_not.mp ‹_›
  | findExisting args draw bootstrap =>
    rw [turn]
    by_cases hactive : ∃ row ∈ db, row.IsActiveNamed args.label
    · rw [if_pos hactive]
      trivial
    · rw [if_neg hactive]
      split
      · trivial
      · refine ⟨?_, rfl, fun hboot => ?_, fun ⟨r, hr, h⟩ => hactive ⟨r, List.mem_of_mem_take hr, h⟩⟩
        · cases bootstrap with
          | none => exact le_rfl
          | some seen => exact (h seen rfl).le.trans (Nat.zero_le _)
        · obtain ⟨seen, rfl⟩ := Option.isSome_iff_exists.mp hboot
          exact h seen rfl
  | flushing row bootstrap seen =>
    rw [turn]
    split
    · trivial
    · exact h
  | getById key now =>
    rw [turn]
    split
    · exact knows_revokeFound _ _
    · trivial
  | findActive key now =>
    rw [turn]
    split
    · exact knows_revokeFound _ _
    · trivial
  | findNamed key now =>
    rw [turn]
    split
    · exact knows_revokeFound _ _
    · trivial
  | flushed row bootstrap seen => trivial
  | revoking id now => trivial
  | closed => trivial

/-- What holds in every state an undisturbed history reaches. -/
structure Sound (s : TokenState) : Prop where
  one : OneCredential s
  knows : ∀ txn ∈ s.txns, txn.Knows s.db
  minted : (∃ mint ∈ s.mints, mint.bootstrap = true) → s.db ≠ []

/-- The names of the active tokens. -/
def activeNames (db : List ApiToken) : List String :=
  (db.filter fun row => row.revokedAt = none).map ApiToken.name

theorem mem_activeNames {name : String} :
    name ∈ activeNames db ↔ ∃ r ∈ db, r.IsActiveNamed name := by
  rw [activeNames, List.mem_map]
  constructor
  · rintro ⟨r, hr, hname⟩
    obtain ⟨hmem, hactive⟩ := List.mem_filter.mp hr
    exact ⟨r, hmem, of_decide_eq_true hactive, hname⟩
  · rintro ⟨r, hmem, hactive, hname⟩
    exact ⟨r, List.mem_filter.mpr ⟨hmem, decide_eq_true hactive⟩, hname⟩

theorem activeNames_concat {row : ApiToken} (h : row.revokedAt = none) :
    activeNames (db ++ [row]) = activeNames db ++ [row.name] := by
  rw [activeNames, List.filter_append, List.map_append, List.filter_cons_of_pos (by simpa using h)]
  rfl

theorem activeNames_revoke (id : String) (now : ℤ) :
    (activeNames (db.map (revokeRow id now))).Sublist (activeNames db) := by
  induction db with
  | nil => exact .slnil
  | cons row db ih =>
    rw [activeNames, activeNames] at ih ⊢
    rw [List.map_cons, revokeRow]
    split
    · rw [List.filter_cons_of_neg (by simp)]
      exact ih.trans (((List.sublist_cons_self row db).filter _).map _)
    · by_cases hactive : row.revokedAt = none
      · rw [List.filter_cons_of_pos (by simpa using hactive),
          List.filter_cons_of_pos (by simpa using hactive), List.map_cons, List.map_cons]
        exact ih.cons_cons row.name
      · rw [List.filter_cons_of_neg (by simpa using hactive),
          List.filter_cons_of_neg (by simpa using hactive)]
        exact ih

/-- What the guard of a mint that was not overtaken says of the rows now. -/
theorem GuardHeld.now {row : ApiToken} {bootstrap : Bool} {seen : ℕ}
    (h : GuardHeld db row bootstrap seen) (hnot : ¬IsOvertaken db row bootstrap seen) :
    (bootstrap = true → db = []) ∧ ¬∃ r ∈ db, r.IsActiveNamed row.name := by
  constructor
  · intro hboot
    rw [h.bootstrap hboot] at hnot
    refine List.eq_nil_iff_forall_not_mem.mpr fun r hr => hnot ⟨r, hr, Or.inl hboot⟩
  · rintro ⟨r, hr, hactive⟩
    rw [← List.take_append_drop seen db, List.mem_append] at hr
    obtain hr | hr := hr
    · exact h.name ⟨r, hr, hactive⟩
    · exact hnot ⟨r, hr, Or.inr hactive⟩

/-- A commit of a mint that was not overtaken. -/
theorem OneCredential.commit {row : ApiToken} {bootstrap : Bool} {seen : ℕ} {txns : List Txn}
    (h : Sound s) (hguard : GuardHeld s.db row bootstrap seen)
    (hnot : ¬IsOvertaken s.db row bootstrap seen) :
    OneCredential ⟨s.db ++ [row], txns, s.mints ++ [⟨row, bootstrap, s.db.length⟩]⟩ := by
  obtain ⟨hboot, hname⟩ := hguard.now hnot
  refine ⟨?_, fun mint hmint hbootstrap => ?_, ?_⟩
  · rw [List.filter_append, List.length_append]
    cases bootstrap with
    | false => exact h.one.bootstraps
    | true =>
      -- the table is empty, so setup has minted nothing yet
      have hnone : s.mints.filter Mint.bootstrap = [] := List.filter_eq_nil_iff.mpr
        fun mint hmint hb => h.minted ⟨mint, hmint, hb⟩ (hboot rfl)
      rw [hnone]
      exact le_rfl
  · obtain hmint | hmint := List.mem_append.mp hmint
    · exact h.one.first mint hmint hbootstrap
    · obtain rfl := List.mem_singleton.mp hmint
      rw [hboot hbootstrap]
      rfl
  · show (activeNames (s.db ++ [row])).Nodup
    rw [activeNames_concat hguard.fresh, List.nodup_append]
    refine ⟨h.one.names, List.nodup_singleton _, fun name hmem name' hname' heq => ?_⟩
    rw [heq, List.mem_singleton.mp hname'] at hmem
    exact hname (mem_activeNames.mp hmem)

/-- **An undisturbed act keeps the invariant.** -/
theorem sound_step (act : TokenAct) (h : Sound s) (hact : Undisturbed s act) : Sound (step s act) := by
  cases act with
  | begin call =>
    refine ⟨⟨h.one.bootstraps, h.one.first, h.one.names⟩, fun txn htxn => ?_, h.minted⟩
    obtain htxn | htxn := List.mem_append.mp htxn
    · exact h.knows txn htxn
    · obtain rfl := List.mem_singleton.mp htxn
      cases call with
      | ensureBootstrapToken draw => trivial
      | createToken args draw =>
        rw [TokenCall.start]
        split
        · trivial
        · exact fun seen hseen => (nomatch hseen)
      | revokeToken identifier now => trivial
  | abort i =>
    refine ⟨⟨h.one.bootstraps, h.one.first, h.one.names⟩, fun txn htxn => ?_, h.minted⟩
    obtain htxn | rfl := List.mem_or_eq_of_mem_set htxn
    · exact h.knows txn htxn
    · trivial
  | advance i =>
    rw [step]
    rw [Undisturbed] at hact
    cases htxn : s.txns[i]? with
    | none => exact h
    | some txn =>
      dsimp only
      split
      · exact h
      · have hmem : txn ∈ s.txns := List.mem_of_getElem? htxn
        have hknows : ∀ other ∈ s.txns.set i (turn s.db txn).txn,
            other.Knows (turn s.db txn).db := fun other hother => by
          obtain hother | rfl := List.mem_or_eq_of_mem_set hother
          · exact (h.knows other hother).mono (evolves_turn s.db txn)
          · exact knows_turn (h.knows txn hmem)
        obtain ⟨hdb, hmint⟩ | ⟨row, bootstrap, seen, rfl, hdb, hmint⟩ |
          ⟨id, now, rfl, hdb, hmint⟩ := turn_cases s.db txn
        · rw [hdb] at hknows ⊢
          rw [hmint, Option.toList_none, List.append_nil]
          exact ⟨⟨h.one.bootstraps, h.one.first, h.one.names⟩, hknows, h.minted⟩
        · rw [htxn] at hact
          rw [hdb] at hknows ⊢
          rw [hmint, Option.toList_some]
          exact ⟨.commit h (h.knows _ hmem) hact, hknows, fun _ => by simp⟩
        · rw [hdb] at hknows ⊢
          rw [hmint, Option.toList_none, List.append_nil]
          refine ⟨⟨h.one.bootstraps, h.one.first, ?_⟩, hknows, fun hminted => ?_⟩
          · exact (h.one.names : (activeNames s.db).Nodup).sublist (activeNames_revoke id now)
          · simpa using h.minted hminted

/-- **An overtaken mint breaks the property on the spot.** -/
theorem not_oneCredential_step (act : TokenAct) (h : Sound s) (hact : ¬Undisturbed s act) :
    ¬OneCredential (step s act) := by
  cases act with
  | begin call => exact absurd trivial hact
  | abort i => exact absurd trivial hact
  | advance i =>
    rw [Undisturbed] at hact
    split at hact
    · rename_i row bootstrap seen htxn
      obtain ⟨r, hr, hover⟩ := not_not.mp hact
      have hguard : GuardHeld s.db row bootstrap seen := h.knows _ (List.mem_of_getElem? htxn)
      have hmem : r ∈ s.db := List.mem_of_mem_drop hr
      have hstep : step s (.advance i) = ⟨s.db ++ [row], s.txns.set i .closed,
          s.mints ++ [⟨row, bootstrap, s.db.length⟩]⟩ := by
        rw [step, htxn]
        dsimp only
        rw [if_neg fun ⟨other, _, hblocked⟩ => not_isBlocked_flushed row bootstrap seen other hblocked]
        rfl
      rw [hstep]
      intro hone
      obtain hboot | hactive := hover
      · have hzero := hone.first _ (List.mem_append_right _ (List.mem_singleton_self _)) hboot
        rw [List.length_eq_zero_iff.mp hzero] at hmem
        cases hmem
      · have hnames : (activeNames (s.db ++ [row])).Nodup := hone.names
        rw [activeNames_concat hguard.fresh, List.nodup_append] at hnames
        exact hnames.2.2 row.name (mem_activeNames.mpr ⟨r, hmem, hactive⟩) row.name
          (List.mem_singleton_self _) rfl
    · exact absurd trivial hact

/-- **Setup mints one credential in every state a history reaches exactly when no mint is committed
that was overtaken.** -/
theorem oneCredential_iff (acts : List TokenAct) :
    (∀ pre, pre <+: acts → OneCredential (History.after step {} pre)) ↔
      History.Throughout step Undisturbed {} acts := by
  have hstart : Sound {} :=
    ⟨⟨by decide, fun _ h => (nomatch h), .nil⟩, fun _ h => (nomatch h), fun ⟨_, h, _⟩ => (nomatch h)⟩
  exact History.forall_prefix_iff_throughout (fun s act h hact => sound_step act h hact)
    (fun s h => h.one) (fun s act h hact => not_oneCredential_step act h hact) hstart acts

/-- Two setup requests that overlap. -/
def overlappingSetups : List TokenAct :=
  [.begin (.ensureBootstrapToken ⟨"1", "bare_first", 0⟩),
    .begin (.ensureBootstrapToken ⟨"2", "bare_second", 0⟩), .advance 0, .advance 1, .advance 0,
    .advance 1, .advance 0, .advance 1, .advance 0, .advance 1]

/-- **Both mint an admin token**, of the same name. -/
theorem two_credentials : ¬∀ pre, pre <+: overlappingSetups →
    OneCredential (History.after step {} pre) := by
  intro h
  have htwo : ((History.after step {} overlappingSetups).mints.filter Mint.bootstrap).length = 2 := by
    decide +kernel
  have hone := (h overlappingSetups List.prefix_rfl).bootstraps
  omega

end BareAnalysis.Tokens
