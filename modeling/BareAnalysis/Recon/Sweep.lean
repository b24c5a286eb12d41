import BareAnalysis.Machinery.Dict
import BareAnalysis.Machinery.Sorting

/-!
# Recon/Sweep — the inventory of what an artifact holds

    strings ──first probe that matches──▸ counters, first locations ──rarest first──▸ categories

`core/rules/recon.py`.  The expressions of the probes are a parameter: what the first group of a
probe's match in a text is, if it matches.
-/

namespace BareAnalysis.Recon

/-- `SWEEPS`: the probes, in their order, with their rationales. -/
def sweeps : List (String × String) :=
  [("uri_scheme", "Every URI, whatever the scheme. svn+ssh, git+ssh, ldap, mqtt, smb, "
      ++ "and ftp all live here — the schemes nobody writes a rule for are "
      ++ "exactly the ones that leak infrastructure."),
    ("unc_path", "UNC shares. Names a file server and often a build share."),
    ("windows_path", "Absolute Windows paths — build trees, user profiles, install roots."),
    ("posix_path", "Absolute POSIX paths under directories that imply a real machine."),
    ("email_or_upn", "Addresses and user principal names. Distinguishes published contact "
      ++ "addresses from individual employees."),
    ("ip_address", "IPv4 addresses, with port where present."),
    ("hostname", "Three-or-more-label hostnames. Public CDNs and internal servers look "
      ++ "identical here on purpose — the point is to see all of them."),
    ("connection_string", "Semicolon-delimited key=value strings — the shape of database and "
      ++ "storage connection strings."),
    ("assignment", "Any name=value pair. The broadest sweep, and where an unrecognised "
      ++ "credential format shows up."),
    ("version_tag", "Part numbers, build tags, and internal revision identifiers.")]

/-- The names of the probes. -/
def probes : List String := sweeps.map Prod.fst

/-- `UBIQUITY_THRESHOLD`. -/
def ubiquityThreshold : ℕ := 40

/-- `MAX_PER_CATEGORY`. -/
def defaultPerCategory : ℤ := 60

/-- `MAX_VALUE_CHARS`. -/
def maxValueChars : ℕ := 200

/-- Where a string was found. -/
structure Place where
  path : String
  offset : ℤ
  encoding : String
  deriving DecidableEq, Repr, Inhabited

/-- A string of an artifact, as `sweep` takes it. -/
structure Extracted extends Place where
  value : String
  deriving DecidableEq, Repr

/-- A sample of a category. -/
structure Sample where
  value : String
  occurrences : ℕ
  place : Place
  deriving DecidableEq, Repr

/-- `ReconCategory`. -/
structure ReconCategory where
  name : String
  rationale : String
  total : ℕ
  distinct : ℕ
  samples : List Sample
  deriving DecidableEq, Repr

/-- `ReconInventory`. -/
structure ReconInventory where
  categories : List ReconCategory
  filesScanned : ℕ
  truncated : Bool := false
  deriving DecidableEq, Repr

section Sweep

-- `pattern.search(value).group(1)` of the probe of a name
variable (search : String → String → Option String)

/-- The part of a match that is reported. -/
def cut (found : String) : String := String.ofList (found.toList.take maxValueChars)

/-- The first probe that matches, with what it reports. -/
def claim (value : String) : Option (String × String) :=
  probes.findSome? fun name => (search name value).map fun found => (name, cut found)

/-- The state of the loop of `sweep`. -/
structure Tally where
  counters : String → Counter String := fun _ => []
  locations : String → Dict String Place := fun _ => []
  files : Finset String := ∅

/-- One turn of the loop. -/
def tallyStep (t : Tally) (e : Extracted) : Tally :=
  let t := { t with files := insert e.path t.files }
  match claim search e.value with
  | none => t
  | some (name, found) =>
    { t with
      counters := Function.update t.counters name ((t.counters name).bump found)
      locations := Function.update t.locations name
        (Dict.setDefault (t.locations name) found e.toPlace) }

/-- The loop. -/
def tally (strings : List Extracted) : Tally := strings.foldl (tallyStep search) {}

/-- The loop over the ranked values: a sample is taken before their number is compared. -/
def samplesFrom (locations : Dict String Place) (maxPerCategory : ℤ) :
    List (String × ℕ) → List Sample → List Sample
  | [], samples => samples
  | (found, occurrences) :: ranked, samples =>
    if ubiquityThreshold < occurrences then samplesFrom locations maxPerCategory ranked samples
    else
      -- every value that was counted has a location
      let samples := samples ++ [⟨found, occurrences, (Dict.get? locations found).getD default⟩]
      if maxPerCategory ≤ samples.length then samples
      else samplesFrom locations maxPerCategory ranked samples

/-- One category of the inventory, if anything was counted in it. -/
def categoryOf (t : Tally) (maxPerCategory : ℤ) (probe : String × String) :
    Option ReconCategory :=
  let counter := t.counters probe.1
  if counter = [] then none
  else some
    { name := probe.1
      rationale := probe.2
      total := (counter.map Prod.snd).sum
      distinct := counter.length
      samples := samplesFrom (t.locations probe.1) maxPerCategory
        (sortBy (fun kv => toLex (kv.2, kv.1)) counter) [] }

/-- `sweep`. -/
def sweep (strings : List Extracted) (maxPerCategory : ℤ) : ReconInventory :=
  let t := tally search strings
  { categories := sweeps.filterMap (categoryOf t maxPerCategory)
    filesScanned := t.files.card }

end Sweep

end BareAnalysis.Recon
