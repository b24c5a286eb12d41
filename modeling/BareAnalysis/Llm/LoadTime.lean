import BareAnalysis.Llm.Router

/-!
# Llm/LoadTime — refused at load, and refused when built

                 load                         build
    Ollama       URL or declaration           never
    URL          its host against the policy  any host that is not local, under a restricting policy
    no URL       declaration                  declaration

Loading and building judge a provider by different inputs.  They agree but for an accepted URL under
an allowlist, and for a refusal of an Ollama provider, of a URL that cannot be read, or of one
without a host under an open policy.
-/

namespace BareAnalysis

variable {u : Unicode} {g : EgressPolicyGuard} {keys : KeySources} {settings : LLMSettings}
  {config : LLMConfig} {name path : String} {fields : List (String × Json)}

/-! ## What a spec says -/

/-- The spec is that of an Ollama. -/
def IsOllama (spec : Json) : Prop :=
  ∃ kind, spec.getD "kind" (.str "ollama") = .ok kind ∧ kind.isText "ollama" = true

/-- The URL of the spec leads to a host that is not local. -/
def HasRemoteUrl (u : Unicode) (spec : Json) : Prop :=
  ∃ url host, specBaseUrl u spec = .ok url ∧ url ≠ "" ∧ Url.hostname u url.toList = .ok host ∧
    isLocalHost host = false

/-- The spec declares itself local. -/
def IsDeclaredLocal (spec : Json) : Prop :=
  ∃ declared, spec.getOrNull "is_local" = .ok declared ∧ declared.truthy = true

/-- The endpoint is not local: by its URL, or for want of a declaration. -/
def IsHosted (u : Unicode) (spec : Json) : Prop :=
  HasRemoteUrl u spec ∨ (specBaseUrl u spec = .ok "" ∧ ¬IsDeclaredLocal spec)

/-- A URL whose host the policy lets through. -/
def UrlPasses (u : Unicode) (g : EgressPolicyGuard) (baseUrl : Json) : Prop :=
  ∃ url host, baseUrl = .str url ∧ url ≠ "" ∧ Url.hostname u url.toList = .ok host ∧ host ≠ [] ∧
    g.passes host = true

/-- The policy lets the spec through at load. -/
def PassesLoad (u : Unicode) (g : EgressPolicyGuard) (spec : Json) : Prop :=
  ∃ baseUrl, spec.getOrNull "base_url" = .ok baseUrl ∧
    (UrlPasses u g baseUrl ∨
      (baseUrl.truthy = false ∧ (IsDeclaredLocal spec ∨ g.restricts = false)))

/-- The policy refuses the spec at load. -/
def RefusedAtLoad (u : Unicode) (g : EgressPolicyGuard) (spec : Json) : Prop :=
  ∃ baseUrl, spec.getOrNull "base_url" = .ok baseUrl ∧ ¬UrlPasses u g baseUrl ∧
    (baseUrl.truthy = false → ¬IsDeclaredLocal spec ∧ g.restricts = true)

theorem isDeclaredLocal_obj :
    IsDeclaredLocal (.obj fields) ↔
      ((Dict.get? fields "is_local").getD (.bool false)).truthy = true := by
  have hget : (Json.obj fields).getOrNull "is_local"
      = .ok ((Dict.get? fields "is_local").getD .null) := rfl
  rw [IsDeclaredLocal, hget]
  cases Dict.get? fields "is_local" with
  | none => exact ⟨fun ⟨_, h, ht⟩ => by cases h; exact ht, fun h => (nomatch h)⟩
  | some v => exact ⟨fun ⟨_, h, ht⟩ => by cases h; exact ht, fun h => ⟨v, rfl, h⟩⟩

/-- A spec that is not a mapping answers no key. -/
theorem getD_of_not_obj {spec : Json} (h : ∀ fields, spec ≠ .obj fields) (key : String)
    (default : Json) : ∃ e, spec.getD key default = .error e := by
  cases spec with
  | obj fields => exact absurd rfl (h fields)
  | null => exact ⟨_, rfl⟩
  | bool b => exact ⟨_, rfl⟩
  | int n => exact ⟨_, rfl⟩
  | float q r => exact ⟨_, rfl⟩
  | nonFinite r => exact ⟨_, rfl⟩
  | str s => exact ⟨_, rfl⟩
  | arr items => exact ⟨_, rfl⟩

/-- A text is read as its URL, and whatever reads as false as none. -/
theorem specBaseUrl_obj :
    specBaseUrl u (.obj fields) = .ok ((((Dict.get? fields "base_url").getD (.str "")).orElse
      (.str "")).text u.printable) := rfl

/-! ## At load -/

theorem checkValue_eq_ok {baseUrl : Json} (h : baseUrl.truthy = true) :
    g.checkValue u baseUrl = .ok () ↔ UrlPasses u g baseUrl := by
  cases baseUrl with
  | str url =>
    rw [EgressPolicyGuard.checkValue, EgressPolicyGuard.check_eq_ok]
    constructor
    · rintro ⟨host, hhost⟩
      exact ⟨url, host, rfl, by simpa [Json.truthy] using h, hhost⟩
    · rintro ⟨url', host, heq, -, hhost⟩
      obtain rfl := Json.str.inj heq
      exact ⟨host, hhost⟩
  | _ => exact ⟨fun h => (nomatch h), fun ⟨_, _, heq, _⟩ => (nomatch heq)⟩

theorem UrlPasses.truthy {baseUrl : Json} (h : UrlPasses u g baseUrl) :
    baseUrl.truthy = true := by
  obtain ⟨url, host, rfl, hne, -⟩ := h
  simpa [Json.truthy] using hne

/-- What the policy makes of a spec at load. -/
theorem checkSpec_eq_ok {baseUrl : Json} :
    checkSpec u g name (.obj fields) baseUrl = .ok () ↔
      UrlPasses u g baseUrl ∨
        (baseUrl.truthy = false ∧ (IsDeclaredLocal (.obj fields) ∨ g.restricts = false)) := by
  cases ht : baseUrl.truthy with
  | true =>
    rw [checkSpec, if_pos ht, checkValue_eq_ok ht]
    simp
  | false =>
    have hno : ¬UrlPasses u g baseUrl := fun h => by cases ht.symm.trans h.truthy
    rw [checkSpec, if_neg (by rw [ht]; exact Bool.false_ne_true), isDeclaredLocal_obj]
    have hget : (Json.obj fields).getD "is_local" (.bool false)
        = .ok ((Dict.get? fields "is_local").getD (.bool false)) := rfl
    rw [hget]
    generalize (Dict.get? fields "is_local").getD (.bool false) = declared
    show (if (!declared.truthy) = true then g.checkRemoteAllowed _ else .ok ()) = .ok () ↔ _
    cases declared.truthy with
    | true => simp
    | false =>
      rw [if_pos (by rfl), EgressPolicyGuard.checkRemoteAllowed_eq_ok]
      simp [hno]

/-- **A provider is let through, refused by its name, or cannot be read.** -/
theorem checkProvider_eq_ok {spec : Json} :
    checkProvider u g (name, spec) = .ok () ↔ PassesLoad u g spec := by
  by_cases hobj : ∃ fields, spec = .obj fields
  · obtain ⟨fields, rfl⟩ := hobj
    rw [checkProvider, bind_eq_ok]
    refine exists_congr fun baseUrl => ?_
    rw [mapError_eq_ok, mapError_eq_ok, checkSpec_eq_ok]
  · obtain ⟨e, he⟩ := getD_of_not_obj (fun fields h => hobj ⟨fields, h⟩) "base_url" .null
    have hget : spec.getOrNull "base_url" = .error e := he
    rw [checkProvider, PassesLoad, hget]
    exact ⟨fun h => (nomatch h), fun ⟨_, h, _⟩ => (nomatch h)⟩

theorem checkProvider_eq_refused {spec : Json} :
    (∃ reason, checkProvider u g (name, spec) = .error (.config (.wouldBeBlocked name reason))) ↔
      RefusedAtLoad u g spec := by
  by_cases hobj : ∃ fields, spec = .obj fields
  · obtain ⟨fields, rfl⟩ := hobj
    have hget : (Json.obj fields).getOrNull "base_url"
        = .ok ((Dict.get? fields "base_url").getD .null) := rfl
    have hcheck : checkProvider u g (name, .obj fields)
        = (checkSpec u g name (.obj fields) ((Dict.get? fields "base_url").getD .null)).mapError
          fun exc => .config (.wouldBeBlocked name (exc.message u)) := rfl
    rw [RefusedAtLoad, hget, hcheck]
    have hok := @checkSpec_eq_ok u g name fields ((Dict.get? fields "base_url").getD .null)
    generalize (Dict.get? fields "base_url").getD .null = baseUrl at hok
    cases hspec : checkSpec u g name (.obj fields) baseUrl with
    | ok =>
      rw [hspec] at hok
      refine ⟨fun ⟨_, h⟩ => (nomatch h), ?_⟩
      rintro ⟨_, heq, hno, hfalse⟩
      obtain rfl := Except.ok.inj heq
      obtain hurl | ⟨ht, hd | hr⟩ := hok.mp rfl
      · exact absurd hurl hno
      · exact absurd hd (hfalse ht).1
      · cases hr.symm.trans (hfalse ht).2
    | error e =>
      rw [hspec] at hok
      refine ⟨fun _ => ⟨baseUrl, rfl, fun hurl => ?_, fun ht => ⟨fun hd => ?_, ?_⟩⟩,
        fun _ => ⟨_, rfl⟩⟩
      · cases hok.mpr (Or.inl hurl)
      · cases hok.mpr (Or.inr ⟨ht, Or.inl hd⟩)
      · by_contra hr
        cases hok.mpr (Or.inr ⟨ht, Or.inr (Bool.not_eq_true _ ▸ hr)⟩)
  · obtain ⟨e, he⟩ := getD_of_not_obj (fun fields h => hobj ⟨fields, h⟩) "base_url" .null
    have hget : spec.getOrNull "base_url" = .error e := he
    rw [checkProvider, RefusedAtLoad, hget]
    exact ⟨fun ⟨_, h⟩ => (nomatch h), fun ⟨_, h, _⟩ => (nomatch h)⟩

/-! ## When built -/

theorem resolveApiKey_obj : ∃ key, resolveApiKey u keys name (.obj fields) = .ok key := ⟨_, rfl⟩

/-- The endpoint of a spec is not local exactly when building asks the policy about it. -/
theorem isLocalEndpoint_eq_false {url : String} {declared : Json}
    (hurl : specBaseUrl u (.obj fields) = .ok url)
    (hdeclared : (Json.obj fields).getOrNull "is_local" = .ok declared) :
    isLocalEndpoint u g url declared = .ok false ↔ IsHosted u (.obj fields) := by
  by_cases hnone : url = ""
  · subst hnone
    rw [isLocalEndpoint, if_neg (not_not_intro rfl), Except.ok.injEq]
    constructor
    · intro h
      refine Or.inr ⟨hurl, fun ⟨declared', hdeclared', ht⟩ => ?_⟩
      obtain rfl := Except.ok.inj (hdeclared.symm.trans hdeclared')
      cases h.symm.trans ht
    · rintro (⟨url', host, hurl', hne, -⟩ | ⟨-, hno⟩)
      · exact absurd (Except.ok.inj (hurl'.symm.trans hurl)) hne
      · exact Bool.not_eq_true _ ▸ fun ht => hno ⟨declared, hdeclared, ht⟩
  · rw [isLocalEndpoint, if_pos hnone, EgressPolicyGuard.isLocal]
    constructor
    · intro h
      obtain ⟨host, hhost, hlocal⟩ := bind_eq_ok.mp h
      exact Or.inl ⟨url, host, hurl, hnone, mapError_eq_ok.mp hhost, Except.ok.inj hlocal⟩
    · rintro (⟨url', host, hurl', -, hhost, hlocal⟩ | ⟨hempty, -⟩)
      · obtain rfl := Except.ok.inj (hurl'.symm.trans hurl)
        exact bind_eq_ok.mpr ⟨host, mapError_eq_ok.mpr hhost, congrArg Except.ok hlocal⟩
      · exact absurd (Except.ok.inj (hurl.symm.trans hempty)) hnone

/-- An endpoint is refused for being hosted, under a policy that restricts. -/
theorem blocks_checkEndpoint {url : String} {declared kind : Json} :
    Blocks (checkEndpoint u g name url declared kind) ↔
      isLocalEndpoint u g url declared = .ok false ∧ g.restricts = true := by
  have hno : ¬Blocks (isLocalEndpoint u g url declared) := by
    rw [isLocalEndpoint]
    split
    · rw [EgressPolicyGuard.isLocal, blocks_bind]
      rintro (h | ⟨host, -, h⟩)
      · exact not_blocks_raised _ h
      · exact not_blocks_ok _ h
    · exact not_blocks_ok _
  rw [checkEndpoint, blocks_bind, or_iff_right hno]
  constructor
  · rintro ⟨isLocal, hlocal, h⟩
    cases isLocal with
    | true => exact absurd h (not_blocks_ok true)
    | false =>
      obtain h | ⟨_, -, h⟩ := blocks_bind.mp h
      · exact ⟨hlocal, EgressPolicyGuard.blocks_checkRemoteAllowed.mp h⟩
      · exact absurd h (not_blocks_ok false)
  · rintro ⟨hlocal, hr⟩
    exact ⟨false, hlocal,
      blocks_bind.mpr (Or.inl (EgressPolicyGuard.blocks_checkRemoteAllowed.mpr hr))⟩

theorem blocks_buildLiteLLM {kind : Json} :
    Blocks (buildLiteLLM u g keys name (.obj fields) kind) ↔
      IsHosted u (.obj fields) ∧ g.restricts = true := by
  obtain ⟨key, hkey⟩ := @resolveApiKey_obj u keys name fields
  obtain ⟨url, hurl⟩ : ∃ url, specBaseUrl u (.obj fields) = .ok url := ⟨_, specBaseUrl_obj⟩
  obtain ⟨declared, hdeclared⟩ :
      ∃ declared, (Json.obj fields).getOrNull "is_local" = .ok declared := ⟨_, rfl⟩
  rw [← @isLocalEndpoint_eq_false u g fields url declared hurl hdeclared,
    ← @blocks_checkEndpoint u g name url declared kind, buildLiteLLM, hkey, hurl, hdeclared]
  show Blocks (checkEndpoint u g name url declared kind >>= _) ↔ _
  refine blocks_bind.trans (or_iff_left ?_)
  rintro ⟨isLocal, -, h⟩
  obtain h | ⟨model, -, h⟩ := blocks_bind.mp h
  · exact not_blocks_raised _ h
  · exact not_blocks_ok _ h

/-- **What building refuses**: a hosted endpoint, of any kind but Ollama, under a policy that
restricts. -/
theorem blocks_buildSpec {spec : Json} :
    Blocks (buildSpec u g keys name spec) ↔
      ¬IsOllama spec ∧ IsHosted u spec ∧ g.restricts = true := by
  by_cases hobj : ∃ fields, spec = .obj fields
  · obtain ⟨fields, rfl⟩ := hobj
    obtain ⟨kind, hkind⟩ : ∃ kind, (Json.obj fields).getD "kind" (.str "ollama") = .ok kind :=
      ⟨_, rfl⟩
    have hollama : IsOllama (.obj fields) ↔ kind.isText "ollama" = true := by
      rw [IsOllama, hkind]
      exact ⟨fun ⟨_, h, ht⟩ => Except.ok.inj h ▸ ht, fun ht => ⟨kind, rfl, ht⟩⟩
    rw [buildSpec, hkind, hollama]
    show Blocks (if kind.isText "ollama" = true then _ else _) ↔ _
    split
    case isTrue hk =>
      refine ⟨fun h => ?_, fun ⟨hno, _⟩ => absurd hk hno⟩
      obtain h | ⟨p, -, h⟩ := blocks_bind.mp h
      · exact absurd h (not_blocks_raised _)
      · exact absurd h (not_blocks_ok _)
    case isFalse hk =>
      rw [blocks_bind, blocks_buildLiteLLM, and_iff_right hk]
      exact or_iff_left fun ⟨p, _, h⟩ => not_blocks_ok _ h
  · obtain ⟨e, he⟩ := getD_of_not_obj (fun fields h => hobj ⟨fields, h⟩) "kind" (.str "ollama")
    obtain ⟨e', he'⟩ := getD_of_not_obj (fun fields h => hobj ⟨fields, h⟩) "base_url" (.str "")
    have hurl : specBaseUrl u spec = .error e' := by rw [specBaseUrl, he']; rfl
    rw [buildSpec, he]
    refine ⟨fun ⟨_, h⟩ => (nomatch h), ?_⟩
    rintro ⟨-, ⟨url, host, h, -⟩ | ⟨h, -⟩, -⟩
    · cases hurl.symm.trans h
    · cases hurl.symm.trans h

/-- **The providers building refuses.** -/
theorem blocks_buildProvider :
    Blocks (buildProvider u settings keys config name) ↔
      ∃ spec, config.providers.getOrNull name = .ok spec ∧ ¬IsOllama spec ∧ IsHosted u spec ∧
        (buildGuard settings config).restricts = true := by
  rw [buildProvider, blocks_bind, or_iff_right (not_blocks_raised _)]
  refine exists_congr fun spec => ?_
  rw [mapError_eq_ok]
  refine and_congr_right fun _ => ?_
  cases spec with
  | null =>
    refine ⟨fun h => absurd h (not_blocks_config _), ?_⟩
    rintro ⟨-, ⟨_, _, h, -⟩ | ⟨h, -⟩, -⟩
    · cases h
    · cases h
  | _ => exact blocks_buildSpec

/-! ## Load against build -/

theorem specBaseUrl_eq {baseUrl : Json}
    (h : (Json.obj fields).getOrNull "base_url" = .ok baseUrl) :
    specBaseUrl u (.obj fields)
      = .ok (if baseUrl.truthy = true then baseUrl.text u.printable else "") := by
  obtain rfl := Except.ok.inj h
  rw [specBaseUrl_obj]
  cases Dict.get? fields "base_url" with
  | none => rfl
  | some v =>
    cases hv : v.truthy with
    | true => simp [Json.orElse, hv]
    | false => simp [Json.orElse, hv, Json.text]

/-- **What load lets through and building refuses**: a URL off the network, under an allowlist. -/
theorem blocked_of_passesLoad {spec : Json} (h : PassesLoad u g spec) :
    (¬IsOllama spec ∧ IsHosted u spec ∧ g.restricts = true) ↔
      ¬IsOllama spec ∧ HasRemoteUrl u spec ∧ g.allowedHosts ≠ [] := by
  by_cases hobj : ∃ fields, spec = .obj fields
  swap
  · obtain ⟨e, he⟩ := getD_of_not_obj (fun fields h => hobj ⟨fields, h⟩) "base_url" .null
    obtain ⟨baseUrl, hbase, -⟩ := h
    cases he.symm.trans hbase
  obtain ⟨fields, rfl⟩ := hobj
  obtain ⟨baseUrl, hbase, hpass⟩ := h
  have hurl := specBaseUrl_eq (u := u) hbase
  refine and_congr_right fun _ => ⟨?_, ?_⟩
  · rintro ⟨hhosted, hrestricts⟩
    obtain hpass | ⟨hfalse, hdeclared⟩ := hpass
    · obtain ⟨url, host, rfl, hne, hhost, -, hpasses⟩ := id hpass
      rw [if_pos hpass.truthy] at hurl
      obtain ⟨url', host', hurl', -, hhost', hlocal⟩ | ⟨hempty, -⟩ := hhosted
      · obtain rfl := Except.ok.inj (hurl.symm.trans hurl')
        obtain rfl := Except.ok.inj (hhost.symm.trans hhost')
        refine ⟨⟨url, host, hurl, hne, hhost, hlocal⟩, fun hnil => ?_⟩
        simp only [EgressPolicyGuard.passes, hlocal, Bool.false_or, Bool.and_eq_true,
          Bool.not_eq_true'] at hpasses
        simp only [EgressPolicyGuard.restricts, hnil] at hrestricts
        rw [EgressPolicyGuard.closed] at hpasses
        simp [hpasses.1] at hrestricts
      · exact absurd (Except.ok.inj (hurl.symm.trans hempty)) hne
    · rw [if_neg (by rw [hfalse]; exact Bool.false_ne_true)] at hurl
      obtain ⟨url', host', hurl', hne, -⟩ | ⟨-, hno⟩ := hhosted
      · exact absurd (Except.ok.inj (hurl'.symm.trans hurl)) hne
      · obtain hd | hr := hdeclared
        · exact absurd hd hno
        · cases hr.symm.trans hrestricts
  · rintro ⟨hremote, hallowed⟩
    refine ⟨Or.inl hremote, ?_⟩
    simp [EgressPolicyGuard.restricts, hallowed]

/-- A provider that is named is one of the items. -/
theorem mem_providerItems {items : List (String × Json)} (h : config.providerItems = .ok items)
    {spec : Json} (hne : spec ≠ .null) :
    (name, spec) ∈ items ↔ config.providers.getOrNull name = .ok spec := by
  rw [LLMConfig.providerItems] at h
  split at h
  case h_1 fields hfields =>
    obtain rfl := Except.ok.inj h
    have hget : config.providers.getOrNull name = .ok ((Dict.get? fields name).getD .null) := by
      rw [hfields]
      rfl
    rw [show Json.items fields = Dict.entries fields from rfl, Dict.mem_entries, hget,
      Except.ok.injEq]
    cases Dict.get? fields name with
    | none => exact ⟨fun h => (nomatch h), fun h => absurd h.symm hne⟩
    | some v => exact ⟨fun h => Option.some.inj h, fun h => congrArg some h⟩
  case h_2 => cases h

/-- The provider a refusal names. -/
def LLMConfigError.Names (name : String) : LLMConfigError → Prop
  | unrouted _ => False
  | undefinedTarget _ target => target = .str name
  | undefinedProvider target _ | wouldBeBlocked target _ => target = name

/-- Refused when a provider would be, and only then: an enabled configuration that loads has no
provider that building refuses, and a refusal names one that building refuses. -/
structure LoadMatchesBuild (u : Unicode) (settings : LLMSettings) (keys : KeySources)
    (path : String) (document : Json) : Prop where
  accepted : ∀ config, loadConfig u settings path document = .ok config → config.enabled = true →
    ∀ name, ¬Blocks (buildProvider u settings keys config name)
  refused : ∀ config e name, readConfig u settings path document = .ok config →
    loadConfig u settings path document = .error (.config e) → e.Names name →
    Blocks (buildProvider u settings keys config name)

/-- What a configuration must be like for that. -/
structure JudgedAlike (u : Unicode) (g : EgressPolicyGuard) (config : LLMConfig) : Prop where
  /-- No role is routed to a provider that is not defined. -/
  targets : ∀ role name,
    forM llmRoles config.checkRole ≠ .error (.config (.undefinedTarget role (.str name)))
  /-- The first provider the policy refuses is hosted, no Ollama, and the policy restricts. -/
  refused : forM llmRoles config.checkRole = .ok () → ∀ before name spec after,
    config.providerItems = .ok (before ++ (name, spec) :: after) →
    (∀ p ∈ before, PassesLoad u g p.2) → RefusedAtLoad u g spec →
    ¬IsOllama spec ∧ IsHosted u spec ∧ g.restricts = true
  /-- If it refuses none, there is no URL off the network under an allowlist, but an Ollama's. -/
  accepted : forM llmRoles config.checkRole = .ok () → ∀ items,
    config.providerItems = .ok items → (∀ p ∈ items, PassesLoad u g p.2) →
    ∀ p ∈ items, ¬IsOllama p.2 → HasRemoteUrl u p.2 → g.allowedHosts = []

/-! ## What validation comes to -/

theorem loadConfig_eq {document : Json} (hread : readConfig u settings path document = .ok config) :
    loadConfig u settings path document = (validate u settings config).map fun _ => config := by
  rw [loadConfig, hread]
  cases h : validate u settings config <;> simp [Except.mapError, bind, Except.bind, h] <;> rfl

theorem validate_eq_ok (henabled : config.enabled = true) :
    validate u settings config = .ok () ↔ forM llmRoles config.checkRole = .ok () ∧
      ∃ items, config.providerItems = .ok items ∧
        ∀ p ∈ items, PassesLoad u (buildGuard settings config) p.2 := by
  rw [validate, henabled, if_neg (by simp), bind_eq_ok]
  constructor
  · rintro ⟨⟨⟩, hroles, h⟩
    obtain ⟨items, hitems, h⟩ := bind_eq_ok.mp h
    refine ⟨hroles, items, mapError_eq_ok.mp hitems, fun p hp => ?_⟩
    exact checkProvider_eq_ok.mp (forM_eq_ok.mp h p hp)
  · rintro ⟨hroles, items, hitems, h⟩
    refine ⟨(), hroles, bind_eq_ok.mpr ⟨items, mapError_eq_ok.mpr hitems, ?_⟩⟩
    exact forM_eq_ok.mpr fun p hp => checkProvider_eq_ok.mpr (h p hp)

/-- A configuration is refused for a role, or for the first provider the policy refuses. -/
theorem validate_eq_refused (henabled : config.enabled = true) {e : LLMConfigError} :
    validate u settings config = .error (.config e) ↔
      forM llmRoles config.checkRole = .error (.config e) ∨
        (forM llmRoles config.checkRole = .ok () ∧ ∃ before p after,
          config.providerItems = .ok (before ++ p :: after) ∧
          (∀ b ∈ before, PassesLoad u (buildGuard settings config) b.2) ∧
          checkProvider u (buildGuard settings config) p = .error (.config e)) := by
  rw [validate, henabled, if_neg (by simp), bind_eq_error]
  refine or_congr_right ?_
  constructor
  · rintro ⟨⟨⟩, hroles, h⟩
    obtain h | ⟨items, hitems, h⟩ := bind_eq_error.mp h
    · obtain ⟨_, -, h⟩ := mapError_eq_error.mp h
      cases h
    · obtain ⟨before, p, after, rfl, hbefore, hp⟩ := forM_eq_error.mp h
      exact ⟨hroles, before, p, after, mapError_eq_ok.mp hitems,
        fun b hb => checkProvider_eq_ok.mp (hbefore b hb), hp⟩
  · rintro ⟨hroles, before, p, after, hitems, hbefore, hp⟩
    refine ⟨(), hroles, bind_eq_error.mpr (Or.inr ⟨_, mapError_eq_ok.mpr hitems, ?_⟩)⟩
    exact forM_eq_error.mpr
      ⟨before, p, after, rfl, fun b hb => checkProvider_eq_ok.mpr (hbefore b hb), hp⟩

/-- A provider is refused under its own name. -/
theorem eq_wouldBeBlocked_of_checkProvider {p : String × Json} {e : LLMConfigError}
    (h : checkProvider u g p = .error (.config e)) :
    RefusedAtLoad u g p.2 ∧ ∃ reason, e = .wouldBeBlocked p.1 reason := by
  have hreason : ∃ reason, e = .wouldBeBlocked p.1 reason := by
    rw [checkProvider] at h
    obtain h | ⟨baseUrl, -, h⟩ := bind_eq_error.mp h
    · obtain ⟨_, -, h⟩ := mapError_eq_error.mp h
      cases h
    · obtain ⟨exc, -, h⟩ := mapError_eq_error.mp h
      exact ⟨_, (LLMFailure.config.inj h).symm⟩
  obtain ⟨reason, rfl⟩ := hreason
  exact ⟨checkProvider_eq_refused.mp ⟨reason, h⟩, reason, rfl⟩

/-- A role is refused for having no target, or one that is not defined. -/
theorem checkRoles_cases {e : LLMConfigError}
    (h : forM llmRoles config.checkRole = .error (.config e)) :
    (∃ role, e = .unrouted role) ∨
      ∃ role target, e = .undefinedTarget role target ∧
        config.providers.contains target = .ok false := by
  obtain ⟨-, role, -, -, -, h⟩ := forM_eq_error.mp h
  rw [LLMConfig.checkRole] at h
  obtain h | ⟨routed, -, h⟩ := bind_eq_error.mp h
  · obtain ⟨_, -, h⟩ := mapError_eq_error.mp h
    cases h
  split at h
  case isFalse => cases h
  obtain h | ⟨_, -, h⟩ := bind_eq_error.mp h
  swap
  · cases h
  rw [LLMConfig.providerFor] at h
  obtain h | ⟨name, -, h⟩ := bind_eq_error.mp h
  · obtain ⟨_, -, h⟩ := mapError_eq_error.mp h
    cases h
  split at h
  · exact Or.inl ⟨role, (LLMFailure.config.inj (Except.error.inj h)).symm⟩
  obtain h | ⟨defined, hdefined, h⟩ := bind_eq_error.mp h
  · obtain ⟨_, -, h⟩ := mapError_eq_error.mp h
    cases h
  split at h
  case isTrue => cases h
  case isFalse hfalse =>
    refine Or.inr ⟨role, name, (LLMFailure.config.inj (Except.error.inj h)).symm, ?_⟩
    rw [mapError_eq_ok.mp hdefined, eq_false_of_ne_true hfalse]

/-- Nothing is built for a target that is not defined. -/
theorem not_blocks_of_undefinedTarget {role : String}
    (h : forM llmRoles config.checkRole = .error (.config (.undefinedTarget role (.str name)))) :
    ¬Blocks (buildProvider u settings keys config name) := fun hblocks => by
  have hcontains : config.providers.contains (.str name) = .ok false := by
    obtain ⟨_, h⟩ | ⟨_, _, heq, hcontains⟩ := checkRoles_cases h
    · cases h
    · cases heq
      exact hcontains
  obtain ⟨spec, hspec, -, hhosted, -⟩ := blocks_buildProvider.mp hblocks
  cases hproviders : config.providers with
  | obj fields =>
    rw [hproviders] at hcontains hspec
    replace hspec : (Dict.get? fields name).getD .null = spec := Except.ok.inj hspec
    have hnone : Dict.get? fields name = none := by
      simpa [Json.contains] using hcontains
    rw [hnone] at hspec
    subst hspec
    obtain ⟨_, _, h, -⟩ | ⟨h, -⟩ := hhosted
    · cases h
    · cases h
  | _ => rw [hproviders] at hspec; cases hspec

/-- **Load matches build exactly when the configuration is judged alike.** -/
theorem loadMatchesBuild_iff {document : Json} :
    LoadMatchesBuild u settings keys path document ↔
      ∀ config, readConfig u settings path document = .ok config → config.enabled = true →
        JudgedAlike u (buildGuard settings config) config := by
  constructor
  · intro h config hread henabled
    have hload := loadConfig_eq (u := u) hread
    refine ⟨fun role name hroles => ?_, fun hroles before name spec after hitems hbefore href => ?_,
      fun hroles items hitems hpass p hp hollama hremote => ?_⟩
    · refine not_blocks_of_undefinedTarget hroles
        (h.refused config (.undefinedTarget role (.str name)) name hread ?_ rfl)
      rw [hload, (validate_eq_refused henabled).mpr (Or.inl hroles)]
      rfl
    · obtain ⟨reason, hcheck⟩ := checkProvider_eq_refused.mpr href
      have hblocks := h.refused config (.wouldBeBlocked name reason) name hread (by
        rw [hload, (validate_eq_refused henabled).mpr
          (Or.inr ⟨hroles, before, (name, spec), after, hitems, hbefore, hcheck⟩)]
        rfl) rfl
      have hne : spec ≠ .null := fun hnull => by
        subst hnull
        obtain ⟨_, hbase, -⟩ := href
        cases hbase
      obtain ⟨spec', hspec', hbuild⟩ := blocks_buildProvider.mp hblocks
      have hspec := (mem_providerItems hitems hne).mp
        (List.mem_append_right before (List.mem_cons_self (a := (name, spec))))
      obtain rfl := Except.ok.inj (hspec.symm.trans hspec')
      exact hbuild
    · have hok : loadConfig u settings path document = .ok config := by
        rw [hload, (validate_eq_ok henabled).mpr ⟨hroles, items, hitems, hpass⟩]
        rfl
      by_contra hallowed
      have hne : p.2 ≠ .null := fun hnull => by
        obtain ⟨_, hbase, -⟩ := hpass p hp
        rw [hnull] at hbase
        cases hbase
      refine h.accepted config hok henabled p.1 (blocks_buildProvider.mpr ⟨p.2, ?_, ?_⟩)
      · exact (mem_providerItems hitems hne).mp hp
      · exact (blocked_of_passesLoad (hpass p hp)).mpr ⟨hollama, hremote, hallowed⟩
  · intro h
    refine ⟨fun config hok henabled name hblocks => ?_, fun config e name hread herror hnames => ?_⟩
    · obtain ⟨config', hread, hrest⟩ := bind_eq_ok.mp hok
      rw [mapError_eq_ok] at hread
      obtain ⟨_, hvalid, hrest⟩ := bind_eq_ok.mp hrest
      obtain rfl := Except.ok.inj hrest
      obtain ⟨hroles, items, hitems, hpass⟩ := (validate_eq_ok henabled).mp hvalid
      obtain ⟨spec, hspec, hbuild⟩ := blocks_buildProvider.mp hblocks
      have hne : spec ≠ .null := fun hnull => by
        subst hnull
        obtain ⟨_, _, hurl, -⟩ | ⟨hurl, -⟩ := hbuild.2.1
        · cases hurl
        · cases hurl
      have hmem := (mem_providerItems hitems hne).mpr hspec
      obtain ⟨hollama, hremote, hallowed⟩ :=
        (blocked_of_passesLoad (hpass _ hmem)).mp hbuild
      exact hallowed ((h config' hread henabled).accepted hroles items hitems hpass _ hmem
        hollama hremote)
    · have henabled : config.enabled = true := by
        by_contra hdisabled
        rw [loadConfig_eq hread, validate, eq_false_of_ne_true hdisabled] at herror
        cases herror
      have hjudged := h config hread henabled
      rw [loadConfig_eq hread] at herror
      have hvalid : validate u settings config = .error (.config e) := by
        cases hv : validate u settings config with
        | ok => rw [hv] at herror; cases herror
        | error e' => rw [hv] at herror; exact congrArg Except.error (Except.error.inj herror)
      obtain hroles | ⟨hroles, before, ⟨name', spec⟩, after, hitems, hbefore, hcheck⟩ :=
        (validate_eq_refused henabled).mp hvalid
      · obtain ⟨role, rfl⟩ | ⟨role, target, rfl, -⟩ := checkRoles_cases hroles
        · exact absurd hnames id
        · obtain rfl : target = .str name := hnames
          exact absurd hroles (hjudged.targets role name)
      · obtain ⟨href, reason, rfl⟩ := eq_wouldBeBlocked_of_checkProvider hcheck
        obtain rfl : name' = name := hnames
        have hne : spec ≠ .null := fun hnull => by
          subst hnull
          obtain ⟨_, hbase, -⟩ := href
          cases hbase
        exact blocks_buildProvider.mpr ⟨spec, (mem_providerItems hitems hne).mp (by simp),
          hjudged.refused hroles before name' spec after hitems hbefore href⟩

/-- A hosted model behind the URL the allowlist names. -/
def allowlisted : Json :=
  .obj [("policy", .obj [("egress", .str "allow"), ("allowed_hosts", .arr [.str "api.openai.com"])]),
    ("providers", .obj [("openai", .obj [("kind", .str "openai"), ("model", .str "gpt-4o-mini"),
      ("base_url", .str "https://api.openai.com/v1")])])]

/-- An Ollama off the network, with egress denied. -/
def remoteOllama : Json :=
  .obj [("providers", .obj [("ollama", .obj [("model", .str "qwen2.5-coder:7b"),
    ("base_url", .str "http://ollama.example.com:11434")])])]

/-- The first loads and is refused when built; the second is refused at load, and built. -/
theorem load_differs_from_build :
    ¬LoadMatchesBuild Unicode.ascii {} {} "llm.yaml" allowlisted ∧
      ¬LoadMatchesBuild Unicode.ascii {} {} "llm.yaml" remoteOllama := by
  constructor
  · intro h
    exact h.accepted _ rfl rfl "openai" ⟨_, rfl⟩
  · intro h
    obtain ⟨_, hblocked⟩ := h.refused _ (.wouldBeBlocked "ollama" _) "ollama" rfl rfl rfl
    cases hblocked

end BareAnalysis
