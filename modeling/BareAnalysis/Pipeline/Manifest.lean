import BareAnalysis.Machinery.Joined
import BareAnalysis.Pipeline.Scan

/-!
# Pipeline/Manifest — the fingerprint of a manifest

    version ⟨\x1f⟩ artifact ⟨\x1f⟩ pack ⟨\x1f⟩ pack hash ⟨\x1f⟩ k=v images ⟨\x1f⟩ k=v tools ──sha256──▸

`RunManifest.fingerprint` of `core/models/tables.py`.  The parts that keep clear of the separator
are read back from the left, up to the versions of the tools, which may hold anything.
-/

namespace BareAnalysis

/-- `f"{k}={v}" for k, v in sorted(d.items())`. -/
def sortedPairs (d : Dict String String) : List String :=
  (sortBy Prod.fst d.entries).map fun kv => kv.1 ++ "=" ++ kv.2

namespace RunManifest

variable (printable : Char → Bool) (m : RunManifest)

/-- The parts ahead of the versions of the tools. -/
def headParts : List String :=
  [m.bareVersion, m.artifactSha256, m.rulePackVersion, m.rulePackHash] ++ sortedPairs m.imageDigests

/-- The text that is hashed. -/
def fingerprintText : String :=
  unitSep.intercalate
    (m.headParts ++ sortedPairs (m.toolVersions.map fun kv => (kv.1, kv.2.text printable)))

/-- `RunManifest.fingerprint`. -/
def fingerprint : String := sha256 (m.fingerprintText printable)

/-- The parts ahead of the tools keep clear of the separator. -/
def IsLegible : Prop := ∀ part ∈ m.headParts, '\x1f' ∉ part.toList

instance : Decidable m.IsLegible := inferInstanceAs (Decidable (∀ part ∈ m.headParts, _))

variable {printable m}

/-- **Manifests of one text have the same parts ahead of the tools**, as far as these are legible. -/
theorem headParts_eq {m' : RunManifest} (hm : m.IsLegible) (hm' : m'.IsLegible)
    (hlen : m'.imageDigests.entries.length = m.imageDigests.entries.length)
    (htext : m'.fingerprintText printable = m.fingerprintText printable) :
    m'.headParts = m.headParts := by
  refine string_intercalate_append_inj ?_ hm' hm htext
  simp [headParts, sortedPairs, hlen]

end RunManifest

/-- The fingerprint of a run's manifest. -/
def Db.fingerprint (printable : Char → Bool) (db : Db) (runId : String) : Option String :=
  (db.manifests.get? runId).map (·.fingerprint printable)

/-! ## The manifest of a scan -/

/-- The digests of the two images come sorted by analyzer. -/
theorem sortedPairs_images (unpacked scanned : String) :
    sortedPairs [("unpack", unpacked), ("static", scanned)]
      = ["static=" ++ scanned, "unpack=" ++ unpacked] := by
  have hkeys : ["static", "unpack"].dedup = ["static", "unpack"] := by decide
  have hentries : Dict.entries [("unpack", unpacked), ("static", scanned)]
      = [("unpack", unpacked), ("static", scanned)] := by
    simp [Dict.entries, Dict.get?, hkeys]
  have hle : ¬("unpack" : String) ≤ "static" := by decide
  rw [sortedPairs, hentries]
  simp [sortBy, List.orderedInsert, hle]

section Scan

variable {w w' : ScanWorld} {run run' : Run} {root root' : Artifact} {pack pack' : RulePack}
  {unpacked unpacked' scanned scanned' : SandboxResult} {tools tools' : Dict String Json}

/-- The parts a scan writes ahead of the tools. -/
theorem headParts_manifestOf :
    (manifestOf w run root pack unpacked scanned tools).headParts
      = [w.bareVersion, root.sha256, pack.version, pack.hash, "static=" ++ scanned.digest,
          "unpack=" ++ unpacked.digest] := by
  rw [RunManifest.headParts, manifestOf, sortedPairs_images]
  rfl

/-- **What a legible fingerprint identifies**: the code, the upload, the rules and the images. -/
theorem identified_of_fingerprintText {printable : Char → Bool}
    (hm : (manifestOf w run root pack unpacked scanned tools).IsLegible)
    (hm' : (manifestOf w' run' root' pack' unpacked' scanned' tools').IsLegible)
    (htext : (manifestOf w' run' root' pack' unpacked' scanned' tools').fingerprintText printable
      = (manifestOf w run root pack unpacked scanned tools).fingerprintText printable) :
    root'.sha256 = root.sha256 ∧ pack'.version = pack.version ∧ pack'.hash = pack.hash ∧
      scanned'.digest = scanned.digest ∧ unpacked'.digest = unpacked.digest := by
  have hlen : ∀ unpacked scanned : String,
      (Dict.entries [("unpack", unpacked), ("static", scanned)]).length = 2 := fun u s => by
    have hpairs := congrArg List.length (sortedPairs_images u s)
    rwa [sortedPairs, List.length_map, length_sortBy] at hpairs
  have hparts := RunManifest.headParts_eq hm hm' ((hlen _ _).trans (hlen _ _).symm) htext
  rw [headParts_manifestOf, headParts_manifestOf] at hparts
  simp only [List.cons.injEq, String.append_right_inj, and_true] at hparts
  obtain ⟨-, hsha, hversion, hhash, hstatic, hunpack⟩ := hparts
  exact ⟨hsha, hversion, hhash, hstatic, hunpack⟩

end Scan

end BareAnalysis
