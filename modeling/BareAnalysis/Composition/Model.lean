import BareAnalysis.Machinery.Quote
import BareAnalysis.Machinery.Text

/-!
# Composition/Model — components and their Package URLs

    @babel/parser 7.26.2   ──▸   pkg:npm/%40babel/parser@7.26.2
-/

namespace BareAnalysis.Composition

/-- Package ecosystems, named as the Package URL specification names them. -/
inductive Ecosystem
  | npm | nuget | pypi | golang | cargo | maven | gem | generic
  deriving DecidableEq, Repr

/-- The purl type. -/
def Ecosystem.value : Ecosystem → String
  | npm => "npm"
  | nuget => "nuget"
  | pypi => "pypi"
  | golang => "golang"
  | cargo => "cargo"
  | maven => "maven"
  | gem => "gem"
  | generic => "generic"

/-- How a component was identified, strongest first. -/
inductive Confidence
  | declared | embedded | inferred
  deriving DecidableEq, Repr

def Confidence.value : Confidence → String
  | declared => "declared"
  | embedded => "embedded"
  | inferred => "inferred"

/-- The characters `_PURL_UNSAFE` does not match. -/
def purlSafe (c : Char) : Bool := c.isAlphanum || "._~!$&'()*+,;=:/-".toList.contains c

/-- `_purl_quote`. -/
def purlQuote (value : List Char) : List Char := percentQuote purlSafe value

/-- One identified third-party component. -/
structure Component where
  name : String
  version : String
  ecosystem : Ecosystem
  confidence : Confidence
  pathInTree : String
  licence : String := ""
  evidence : String := ""
  deriving DecidableEq, Repr

namespace Component

/-- The namespace and the name of the purl: npm scopes and the path of a Go module are namespaces. -/
def purlNames (c : Component) : List Char × List Char :=
  let name := c.name.toList
  if c.ecosystem = .npm ∧ name.head? = some '@' ∧ '/' ∈ name then
    ((partition '/' name).1, (partition '/' name).2.getD [])
  else if c.ecosystem = .golang ∧ '/' ∈ name then
    ((rpartition '/' name).1.getD [], (rpartition '/' name).2)
  else ([], name)

/-- What precedes the name: the type and the namespace, if there is one. -/
def purlFront (c : Component) : List Char :=
  "pkg:".toList ++ c.ecosystem.value.toList ++
    if c.purlNames.1 = [] then ['/'] else '/' :: purlQuote c.purlNames.1 ++ ['/']

/-- What follows the name: the version, if there is one. -/
def purlBack (c : Component) : List Char :=
  if c.version = "" then [] else '@' :: purlQuote c.version.toList

/-- Package URL: the join key for every advisory database. -/
def purl (c : Component) : String :=
  String.ofList (c.purlFront ++ purlQuote c.purlNames.2 ++ c.purlBack)

/-- Identity for deduplication. -/
def key (c : Component) : String × String × String := (c.ecosystem.value, c.name, c.version)

end Component

/-- The bill of materials of one artifact. -/
structure ComponentInventory where
  components : List Component
  filesExamined : ℕ := 0
  truncated : Bool := false

example : Component.purl ⟨"@babel/parser", "7.26.2", .npm, .declared, "", "", ""⟩
    = "pkg:npm/%40babel/parser@7.26.2" := by decide +kernel

/-! ## What a purl spells -/

theorem purlSafe_of_mem_upperHexDigits : ∀ c ∈ upperHexDigits, purlSafe c = true :=
  List.all_eq_true.mp (by decide +kernel)

theorem purlSafe_percent : purlSafe '%' = false := by decide

/-- Texts a purl writes alike. -/
abbrev PurlAlike (s t : List Char) : Prop := Alike purlSafe s t

theorem purlQuote_eq_iff {s t : List Char} : purlQuote s = purlQuote t ↔ PurlAlike s t :=
  percentQuote_eq_iff purlSafe_of_mem_upperHexDigits purlSafe_percent

/-- Texts are written alike or not. -/
instance (s t : List Char) : Decidable (PurlAlike s t) :=
  decidable_of_iff (purlQuote s = purlQuote t) purlQuote_eq_iff

/-- A character with a meaning in purls is quoted. -/
theorem not_mem_purlQuote {s : List Char} {c : Char} (hc : purlSafe c = false) (hne : c ≠ '%') :
    c ∉ purlQuote s := fun hmem => by
  obtain rfl | hsafe := mem_percentQuote purlSafe_of_mem_upperHexDigits hmem
  · exact hne rfl
  · rw [hc] at hsafe
    cases hsafe

/-- Slashes stay. -/
theorem slash_mem_purlQuote {s : List Char} : '/' ∈ purlQuote s ↔ '/' ∈ s :=
  mem_percentQuote_iff (by decide) (by decide) (by decide +kernel)

theorem purlQuote_append_slash (s t : List Char) :
    purlQuote (s ++ '/' :: t) = purlQuote s ++ '/' :: purlQuote t := by
  rw [purlQuote, percentQuote_append, percentQuote_cons_safe (by decide)]
  rfl

theorem Ecosystem.value_inj {e e' : Ecosystem} : e.value = e'.value ↔ e = e' := by
  cases e <;> cases e' <;> decide

theorem Ecosystem.slash_not_mem_value (e : Ecosystem) : '/' ∉ e.value.toList := by
  cases e <;> decide

namespace Component

/-- The name a purl spells: of a Go module with one slash, in front, the slash is lost. -/
def spelledName (c : Component) : List Char :=
  if c.ecosystem = .golang ∧ c.name.toList.head? = some '/' ∧ '/' ∉ c.name.toList.tail then
    c.name.toList.tail
  else c.name.toList

/-- The purl up to the version. -/
def purlBase (c : Component) : List Char :=
  "pkg:".toList ++ c.ecosystem.value.toList ++ '/' :: purlQuote c.spelledName

/-- The namespace and the name together spell the name. -/
theorem purlFront_append (c : Component) :
    c.purlFront ++ purlQuote c.purlNames.2 = c.purlBase := by
  rw [purlFront, purlBase, List.append_assoc, List.append_cancel_left_eq, purlNames, spelledName]
  generalize c.name.toList = name
  by_cases hmem : '/' ∈ name
  · by_cases hnpm : c.ecosystem = .npm ∧ name.head? = some '@'
    · obtain ⟨heco, hat⟩ := hnpm
      obtain ⟨front, rest, rfl, hfront⟩ := List.eq_append_cons_of_mem hmem
      have hne : front ≠ [] := by rintro rfl; simp at hat
      simp [heco, hat, partition_append_cons rest hfront, hne, purlQuote_append_slash]
    · have hnot : ¬(c.ecosystem = .npm ∧ name.head? = some '@' ∧ '/' ∈ name) :=
        fun h => hnpm ⟨h.1, h.2.1⟩
      simp only [if_neg hnot]
      by_cases hgo : c.ecosystem = .golang
      · obtain ⟨front, rest, rfl, hrest⟩ := eq_append_cons_of_mem_last hmem
        simp only [if_pos (And.intro hgo hmem), rpartition_append_cons front hrest]
        cases front with
        | nil => simp [hgo, hrest]
        | cons d front => simp [hgo, ← purlQuote_append_slash]
      · simp [hgo]
  · have hhead : name.head? ≠ some '/' := fun h => hmem (List.mem_of_head? h)
    simp [hmem, hhead]

theorem toList_purl (c : Component) : c.purl.toList = c.purlBase ++ c.purlBack := by
  rw [purl, String.toList_ofList, purlFront_append]

theorem at_not_mem_purlBase (c : Component) : '@' ∉ c.purlBase := by
  have hquote : '@' ∉ purlQuote c.spelledName := not_mem_purlQuote (by decide) (by decide)
  have heco : '@' ∉ c.ecosystem.value.toList := by cases c.ecosystem <;> decide
  simp [purlBase, hquote, heco]

theorem purlBase_inj {c d : Component} :
    c.purlBase = d.purlBase ↔
      c.ecosystem = d.ecosystem ∧ PurlAlike c.spelledName d.spelledName := by
  rw [purlBase, purlBase, List.append_assoc, List.append_assoc, List.append_cancel_left_eq,
    ← purlQuote_eq_iff]
  constructor
  · intro h
    have hparts := congrArg (partition '/') h
    rw [partition_append_cons _ c.ecosystem.slash_not_mem_value,
      partition_append_cons _ d.ecosystem.slash_not_mem_value] at hparts
    obtain ⟨heco, hname⟩ := Prod.mk.inj hparts
    exact ⟨Ecosystem.value_inj.mp (String.toList_inj.mp heco), Option.some.inj hname⟩
  · rintro ⟨heco, hname⟩
    rw [heco, hname]

/-- **A purl comes apart at its at sign**, into the base and the version. -/
theorem partition_purl (c : Component) : partition '@' c.purl.toList
    = (c.purlBase, if c.version = "" then none else some (purlQuote c.version.toList)) := by
  rw [toList_purl, purlBack]
  split
  · rw [List.append_nil, partition_of_not_mem c.at_not_mem_purlBase]
  · rw [partition_append_cons _ c.at_not_mem_purlBase]

/-- **Two purls are equal iff the ecosystems are and names and versions are written alike.** -/
theorem purl_inj {c d : Component} :
    c.purl = d.purl ↔ c.ecosystem = d.ecosystem ∧ PurlAlike c.spelledName d.spelledName ∧
      PurlAlike c.version.toList d.version.toList := by
  have hempty : ∀ {v : String}, purlQuote v.toList = [] ↔ v = "" := fun {v} => by
    rw [purlQuote, percentQuote_eq_nil_iff, String.toList_eq_nil_iff]
  rw [← and_assoc, ← purlBase_inj, ← purlQuote_eq_iff]
  constructor
  · intro h
    have hparts := congrArg (fun p : String => partition '@' p.toList) h
    simp only [partition_purl] at hparts
    obtain ⟨hbase, hversion⟩ := Prod.mk.inj hparts
    refine ⟨hbase, ?_⟩
    split at hversion <;> split at hversion
    · rw [hempty.mpr ‹_›, hempty.mpr ‹_›]
    · cases hversion
    · cases hversion
    · exact Option.some.inj hversion
  · rintro ⟨hbase, hversion⟩
    have hiff : c.version = "" ↔ d.version = "" := by rw [← hempty, hversion, hempty]
    rw [← String.toList_inj, toList_purl, toList_purl, hbase, purlBack, purlBack, hversion]
    simp only [hiff]

theorem key_inj {c d : Component} :
    c.key = d.key ↔ c.ecosystem = d.ecosystem ∧ c.name = d.name ∧ c.version = d.version := by
  rw [key, key, Prod.mk.injEq, Prod.mk.injEq, Ecosystem.value_inj]

end Component

end BareAnalysis.Composition
