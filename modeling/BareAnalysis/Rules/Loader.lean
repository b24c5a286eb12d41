import BareAnalysis.Machinery.Fallible
import BareAnalysis.Machinery.Json
import BareAnalysis.Machinery.Sha256
import BareAnalysis.Rules.Model
import BareAnalysis.Unpack.Detect

/-!
# Rules/Loader — the rule directory, and what the pack hash covers

    detections/ ──*.yaml, by name──▸ name ++ contents ⋯ ──sha256──▸ pack hash
        ├── false_positives.yaml     not hashed
        └── VERSION                  the pack's version

`core/rules/loader.py`.  What a document says comes in already read, entry by entry; the directory,
the order of its files and the hash are the loader's own.
-/

namespace BareAnalysis

/-- The directory of the rules, which travels with every run. -/
@[ext]
structure RuleDirectory where
  /-- `sorted(glob("*.yaml"))` without the corpus: names and contents. -/
  ruleFiles : List (String × Bytes)
  /-- `false_positives.yaml`. -/
  falsePositives : Option Bytes := none
  /-- `VERSION`. -/
  version : Option Bytes := none
  deriving DecidableEq

namespace RuleDirectory

variable (d : RuleDirectory)

/-- What the digest is updated with: the name and the contents of each file. -/
def hashed : List ℕ :=
  d.ruleFiles.flatMap fun file => Sha256.encode file.1 ++ file.2.map UInt8.toNat

/-- `RulePack.hash`. -/
def hash : String := sha256Bytes d.hashed

end RuleDirectory

/-- One entry of a rule document: two rules of one id are refused. -/
def addRule (fileName : String) (rules : List Rule) (entry : Except PyError Rule) :
    Except PyError (List Rule) := do
  let rule ← entry
  if rules.any fun r => r.id == rule.id then
    throw (.valueError ("duplicate rule id '" ++ rule.id ++ "' in " ++ fileName))
  return rules ++ [rule]

section Load

variable (readRules : String → Bytes → Except PyError (List (Except PyError Rule)))
  (readText : Bytes → Except PyError String)

/-- `_read_version`. -/
def RuleDirectory.readVersion (d : RuleDirectory) : Except PyError String :=
  match d.version with
  | none => .ok "0.0.0-dev"
  | some text => readText text

/-- `load_rule_pack`, given what the documents hold and what a version file says. -/
def loadRulePack (d : RuleDirectory) : Except PyError RulePack := do
  if d.ruleFiles.isEmpty then throw (.valueError "no rule files found")
  let rules ← d.ruleFiles.foldlM (fun rules file => do
    (← readRules file.1 file.2).foldlM (addRule file.1) rules) []
  let version ← d.readVersion readText
  return { version, rules, hash := d.hash }

variable {readRules readText}

/-- **A pack that loads carries the hash of its directory.** -/
theorem hash_of_loadRulePack {d : RuleDirectory} {pack : RulePack}
    (h : loadRulePack readRules readText d = .ok pack) : pack.hash = d.hash := by
  rw [loadRulePack] at h
  split at h
  · cases h
  obtain ⟨rules, -, h⟩ := bind_eq_ok.mp h
  obtain ⟨version, -, h⟩ := bind_eq_ok.mp h
  obtain rfl := Except.ok.inj h
  rfl

end Load

/-! ## Reading the hash back -/

/-- Files of the same names and lengths, joined to the same text, are the same files. -/
theorem ruleFiles_eq_of_hashed {files files' : List (String × Bytes)}
    (hsizes : files'.map (fun f => (f.1, f.2.length)) = files.map fun f => (f.1, f.2.length))
    (htext : files'.flatMap (fun f => Sha256.encode f.1 ++ f.2.map UInt8.toNat)
      = files.flatMap fun f => Sha256.encode f.1 ++ f.2.map UInt8.toNat) : files' = files := by
  induction files generalizing files' with
  | nil => exact List.map_eq_nil_iff.mp hsizes
  | cons f files ih =>
    obtain - | ⟨f', files'⟩ := files'
    · cases hsizes
    rw [List.map_cons, List.map_cons] at hsizes
    obtain ⟨hfile, hsizes⟩ := List.cons.inj hsizes
    obtain ⟨hname, hlen⟩ := Prod.mk.inj hfile
    rw [List.flatMap_cons, List.flatMap_cons, hname, List.append_assoc, List.append_assoc,
      List.append_cancel_left_eq] at htext
    obtain ⟨hbytes, hrest⟩ := List.append_inj htext (by simpa using hlen)
    have hcontent : f'.2 = f.2 := 
      List.map_injective_iff.mpr (fun _ _ => UInt8.toNat_inj.mp) hbytes
    rw [Prod.ext hname hcontent, ih hsizes hrest]

end BareAnalysis
