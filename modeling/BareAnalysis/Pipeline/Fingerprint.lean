import BareAnalysis.Pipeline.Manifest

/-!
# Pipeline/Fingerprint — which manifests a fingerprint identifies

    … ⟨\x1f⟩ k=v ⟨\x1f⟩ k'=v'      an image and a tool, or one tool whose version is "v\x1fk'=v'"

The text that is hashed does not say where the images end, nor where an entry does: an entry of one
dictionary can be read as one of the other.  What is left is a manifest without entries, whose four
fields keep clear of the separator.
-/

namespace BareAnalysis.RunManifest

variable (printable : Char → Bool)

/-- The four fields ahead of the dictionaries. -/
def fields (m : RunManifest) : List String :=
  [m.bareVersion, m.artifactSha256, m.rulePackVersion, m.rulePackHash]

/-- The versions of the tools are texts. -/
def StringValued (m : RunManifest) : Prop := ∀ kv ∈ m.toolVersions, ∃ s, kv.2 = .str s

/-- One manifest but for the run: the same fields, and the same two dictionaries. -/
structure Agrees (m m' : RunManifest) : Prop where
  bareVersion : m'.bareVersion = m.bareVersion
  artifactSha256 : m'.artifactSha256 = m.artifactSha256
  rulePackVersion : m'.rulePackVersion = m.rulePackVersion
  rulePackHash : m'.rulePackHash = m.rulePackHash
  imageDigests : ∀ key, Dict.get? m'.imageDigests key = Dict.get? m.imageDigests key
  toolVersions : ∀ key, Dict.get? m'.toolVersions key = Dict.get? m.toolVersions key

/-- The digest tells the texts of two manifests apart. -/
def NoCollision (m m' : RunManifest) : Prop :=
  sha256 (m'.fingerprintText printable) = sha256 (m.fingerprintText printable) →
    m'.fingerprintText printable = m.fingerprintText printable

/-- Every manifest of the same fingerprint agrees with this one. -/
def Identified (m : RunManifest) : Prop :=
  ∀ m' : RunManifest, m'.StringValued → NoCollision printable m m' →
    m'.fingerprint printable = m.fingerprint printable → m.Agrees m'

variable {printable} {m m' : RunManifest}

theorem headParts_eq_append (m : RunManifest) :
    m.headParts = m.fields ++ sortedPairs m.imageDigests := rfl

/-- A manifest of the same text is one the fingerprint cannot tell apart. -/
theorem Identified.agrees (h : m.Identified printable) (hm' : m'.StringValued)
    (htext : m'.fingerprintText printable = m.fingerprintText printable) : m.Agrees m' :=
  h m' hm' (fun _ => htext) (congrArg sha256 htext)

/-! ## The entries of a dictionary -/

@[simp] theorem sortedPairs_nil : sortedPairs [] = [] := rfl

@[simp] theorem sortedPairs_singleton (key value : String) :
    sortedPairs [(key, value)] = [key ++ "=" ++ value] := by
  have hkeys : [key].dedup = [key] := List.dedup_eq_self.mpr (List.nodup_singleton key)
  simp [sortedPairs, Dict.entries, Dict.get?, hkeys, sortBy]

/-- A dictionary that answers no key is the empty one. -/
theorem eq_nil_of_get? {β : Type*} {d : Dict String β} (h : ∀ key, Dict.get? d key = none) :
    d = [] := by
  induction d using List.reverseRecOn with
  | nil => rfl
  | append_singleton d kv ih =>
    have hkv := h kv.1
    rw [Dict.get?_concat, if_pos rfl] at hkv
    cases hkv

/-- A dictionary with an assignment has an entry. -/
theorem exists_sortedPairs_cons {d : Dict String String} (h : d ≠ []) :
    ∃ key value rest, sortedPairs d = (key ++ "=" ++ value) :: rest := by
  have hpairs : sortedPairs d ≠ [] := fun hnil => by
    have hentries : d.entries = [] := by
      have hlen := congrArg List.length hnil
      rw [sortedPairs, List.length_map, length_sortBy] at hlen
      exact List.length_eq_zero_iff.mp hlen
    refine h (eq_nil_of_get? fun key => ?_)
    by_contra hsome
    obtain ⟨value, hvalue⟩ := Option.ne_none_iff_exists'.mp hsome
    have hmem : (key, value) ∈ d.entries := Dict.mem_entries.mpr hvalue
    rw [hentries] at hmem
    cases hmem
  obtain ⟨pair, rest, hcons⟩ := List.exists_cons_of_ne_nil hpairs
  have hmem : pair ∈ sortedPairs d := hcons ▸ List.mem_cons_self
  obtain ⟨kv, -, rfl⟩ := List.mem_map.mp hmem
  exact ⟨kv.1, kv.2, rest, hcons⟩

/-- **All entries read as one**, whose value holds the others. -/
theorem intercalate_entries (hs : List String) (key value : String) (rest : List String) :
    unitSep.intercalate (hs ++ (key ++ "=" ++ value) :: rest)
      = unitSep.intercalate (hs ++ [key ++ "=" ++ unitSep.intercalate (value :: rest)]) := by
  have hone : unitSep.intercalate ((key ++ "=" ++ value) :: rest)
      = key ++ "=" ++ unitSep.intercalate (value :: rest) := String.intercalate_cons_append
  by_cases hnil : hs = []
  · rw [hnil, List.nil_append, List.nil_append, hone, String.intercalate_singleton]
  · rw [String.intercalate_append_of_ne_nil hnil (List.cons_ne_nil _ _), hone,
      String.intercalate_append_of_ne_nil hnil (List.cons_ne_nil _ _),
      String.intercalate_singleton]

/-! ## What is identified -/

/-- An identified manifest has no images: their digests could be the versions of one tool. -/
theorem Identified.imageDigests_eq_nil (h : m.Identified printable) : m.imageDigests = [] := by
  by_contra himages
  obtain ⟨key, value, rest, hpairs⟩ := exists_sortedPairs_cons himages
  let rest' := rest ++ sortedPairs (m.toolVersions.map fun kv => (kv.1, kv.2.text printable))
  let m' : RunManifest :=
    { m with
      imageDigests := []
      toolVersions := [(key, .str (unitSep.intercalate (value :: rest')))] }
  have htext : m'.fingerprintText printable = m.fingerprintText printable := by
    rw [fingerprintText, fingerprintText, headParts_eq_append, headParts_eq_append, hpairs,
      List.append_assoc m.fields, List.cons_append, intercalate_entries m.fields]
    simp only [m', sortedPairs_nil, List.append_nil, List.map_cons, List.map_nil, Json.text,
      sortedPairs_singleton]
    rfl
  have hagrees := h.agrees (by rintro kv hkv; exact ⟨_, by rw [List.mem_singleton.mp hkv]⟩) htext
  exact himages (eq_nil_of_get? fun k => (hagrees.imageDigests k).symm)

/-- …and no tools, for the same reason. -/
theorem Identified.toolVersions_eq_nil (h : m.Identified printable) : m.toolVersions = [] := by
  by_contra htools
  obtain ⟨key, value, rest, hpairs⟩ := exists_sortedPairs_cons
    (d := m.toolVersions.map fun kv => (kv.1, kv.2.text printable)) (by simpa using htools)
  let m' : RunManifest :=
    { m with
      imageDigests := [(key, unitSep.intercalate (value :: rest))]
      toolVersions := [] }
  have htext : m'.fingerprintText printable = m.fingerprintText printable := by
    rw [fingerprintText, fingerprintText, headParts_eq_append, headParts_eq_append, hpairs,
      h.imageDigests_eq_nil, sortedPairs_nil, List.append_nil, intercalate_entries m.fields]
    simp only [m', sortedPairs_singleton, List.map_nil, sortedPairs_nil, List.append_nil]
    rfl
  have hagrees := h.agrees (fun kv hkv => by cases hkv) htext
  exact htools (eq_nil_of_get? fun k => (hagrees.toolVersions k).symm)

/-- A field with a separator inside is two. -/
theorem exists_append_of_mem {s : String} (h : '\x1f' ∈ s.toList) :
    ∃ a b : String, s = a ++ unitSep ++ b := by
  obtain ⟨xs, ys, hs⟩ := List.append_of_mem h
  refine ⟨String.ofList xs, String.ofList ys, String.toList_inj.mp ?_⟩
  rw [hs, String.toList_append, String.toList_append, String.toList_ofList, String.toList_ofList]
  simp [unitSep]

theorem ne_append_unitSep_append (a b : String) : a ≠ a ++ unitSep ++ b := fun h => by
  have hlen := congrArg (List.length ∘ String.toList) h
  simp [unitSep] at hlen

theorem append_unitSep_append_ne (a s : String) : s ++ unitSep ++ a ≠ s :=
  (ne_append_unitSep_append s a).symm

/-- A manifest without entries whose fields are these. -/
def ofFields (runId f₁ f₂ f₃ f₄ : String) : RunManifest where
  runId := runId
  bareVersion := f₁
  artifactSha256 := f₂
  rulePackVersion := f₃
  rulePackHash := f₄

theorem fingerprintText_ofFields (runId f₁ f₂ f₃ f₄ : String) :
    (ofFields runId f₁ f₂ f₃ f₄).fingerprintText printable
      = f₁ ++ unitSep ++ f₂ ++ unitSep ++ f₃ ++ unitSep ++ f₄ := by
  simp [fingerprintText, headParts, ofFields, String.intercalate_cons_cons, String.append_assoc]

/-- …and its fields keep clear of the separator, or a field's end could start the next one. -/
theorem Identified.isLegible (h : m.Identified printable) : m.IsLegible := by
  have hm : m = ofFields m.runId m.bareVersion m.artifactSha256 m.rulePackVersion m.rulePackHash := by
    obtain ⟨_, _, _, _, _, _, _⟩ := m
    obtain rfl := h.imageDigests_eq_nil
    obtain rfl := h.toolVersions_eq_nil
    rfl
  generalize m.runId = id, m.bareVersion = f₁, m.artifactSha256 = f₂, m.rulePackVersion = f₃,
    m.rulePackHash = f₄ at hm
  subst hm
  have hagrees : ∀ g₁ g₂ g₃ g₄ : String,
      g₁ ++ unitSep ++ g₂ ++ unitSep ++ g₃ ++ unitSep ++ g₄
        = f₁ ++ unitSep ++ f₂ ++ unitSep ++ f₃ ++ unitSep ++ f₄ →
      (ofFields id f₁ f₂ f₃ f₄).Agrees (ofFields id g₁ g₂ g₃ g₄) := fun g₁ g₂ g₃ g₄ htext =>
    h.agrees (fun kv hkv => by cases hkv)
      (by rw [fingerprintText_ofFields, fingerprintText_ofFields, htext])
  intro part hpart hsep
  obtain ⟨a, b, rfl⟩ := exists_append_of_mem hsep
  have hfield : a ++ unitSep ++ b ∈ [f₁, f₂, f₃, f₄] := hpart
  simp only [List.mem_cons, List.not_mem_nil, or_false] at hfield
  obtain rfl | rfl | rfl | rfl := hfield
  · exact ne_append_unitSep_append a b
      (hagrees a (b ++ unitSep ++ f₂) f₃ f₄ (by simp only [String.append_assoc])).bareVersion
  · exact append_unitSep_append_ne a f₁
      (hagrees (f₁ ++ unitSep ++ a) b f₃ f₄ (by simp only [String.append_assoc])).bareVersion
  · exact append_unitSep_append_ne a f₂
      (hagrees f₁ (f₂ ++ unitSep ++ a) b f₄ (by simp only [String.append_assoc])).artifactSha256
  · exact append_unitSep_append_ne a f₃
      (hagrees f₁ f₂ (f₃ ++ unitSep ++ a) b (by simp only [String.append_assoc])).rulePackVersion

/-- The parts of a text of four legible parts are the four fields, with nothing after them. -/
theorem parts_eq_of_fingerprintText (hlegible : ∀ part ∈ m.fields, '\x1f' ∉ part.toList)
    (himages : m.imageDigests = []) (htools : m.toolVersions = [])
    (htext : m'.fingerprintText printable = m.fingerprintText printable) :
    m'.fields ++ (sortedPairs m'.imageDigests
      ++ sortedPairs (m'.toolVersions.map fun kv => (kv.1, kv.2.text printable))) = m.fields := by
  rw [fingerprintText, fingerprintText, headParts_eq_append, headParts_eq_append, himages, htools,
    List.map_nil, sortedPairs_nil, List.append_nil, List.append_nil, List.append_assoc] at htext
  exact string_intercalate_inj_of_length_le (List.cons_ne_nil _ _) (by simp [fields]) hlegible htext

/-- **A fingerprint identifies a manifest exactly when it has neither images nor tools**, and its
four fields keep clear of the separator. -/
theorem identified_iff :
    m.Identified printable ↔ m.imageDigests = [] ∧ m.toolVersions = [] ∧ m.IsLegible := by
  refine ⟨fun h => ⟨h.imageDigests_eq_nil, h.toolVersions_eq_nil, h.isLegible⟩, ?_⟩
  rintro ⟨himages, htools, hlegible⟩ m' - hcollision hprint
  have hparts := parts_eq_of_fingerprintText
    (fun part hpart => hlegible part (List.mem_append_left _ hpart)) himages htools
    (hcollision hprint)
  obtain ⟨hfields, hrest⟩ := List.append_inj (hparts.trans (List.append_nil _).symm) rfl
  obtain ⟨hrestImages, hrestTools⟩ := List.append_eq_nil_iff.mp hrest
  have hnil : ∀ d : Dict String String, sortedPairs d = [] → d = [] := fun d hd => by
    by_contra hne
    obtain ⟨key, value, rest, hcons⟩ := exists_sortedPairs_cons hne
    cases hcons.symm.trans hd
  have himages' : m'.imageDigests = [] := hnil _ hrestImages
  have htools' : m'.toolVersions = [] := List.map_eq_nil_iff.mp (hnil _ hrestTools)
  simp only [fields, List.cons.injEq, and_true] at hfields
  obtain ⟨h₁, h₂, h₃, h₄⟩ := hfields
  exact ⟨h₁, h₂, h₃, h₄, fun key => by rw [himages, himages'],
    fun key => by rw [htools, htools']⟩

/-- A digest of an image, read as the version of a tool: two manifests, one text. -/
theorem fingerprint_reads_image_as_tool :
    ∃ m m' : RunManifest, m.StringValued ∧ m'.StringValued ∧
      m'.fingerprintText (fun _ => true) = m.fingerprintText (fun _ => true) ∧
      m'.fingerprint (fun _ => true) = m.fingerprint (fun _ => true) ∧
      Dict.get? m.imageDigests "unpack" = some "sha256:2" ∧
      Dict.get? m'.imageDigests "unpack" = none ∧
      Dict.get? m.toolVersions "unpack" = none ∧
      Dict.get? m'.toolVersions "unpack" = some (.str "sha256:2") := by
  let m : RunManifest :=
    { ofFields "run" "0.9.0" "artifact" "1" "pack" with
      imageDigests := [("static", "sha256:1"), ("unpack", "sha256:2")] }
  let m' : RunManifest :=
    { m with
      imageDigests := [("static", "sha256:1")]
      toolVersions := [("unpack", .str "sha256:2")] }
  have htext : m'.fingerprintText (fun _ => true) = m.fingerprintText (fun _ => true) := by
    decide +kernel
  refine ⟨m, m', fun _ => nofun, fun kv hkv => ?_, htext, congrArg sha256 htext,
    rfl, rfl, rfl, rfl⟩
  exact ⟨_, by rw [List.mem_singleton.mp hkv]⟩

end BareAnalysis.RunManifest
