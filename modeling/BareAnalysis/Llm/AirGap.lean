import BareAnalysis.Llm.Router
import Mathlib.Data.List.TakeWhile

/-!
# Llm/AirGap — where the providers of a closed deployment can reach

    spec ──build──▸ Ollama   ──check of each URL──▸ local hosts
                └─▸ LiteLLM  ──URL local, or declared local without one

Under a closed policy every URL a request goes to has passed the guard, so its host is local.  What
no check sees is a model without a URL: it is taken at its declaration.
-/

namespace BareAnalysis

variable {u : Unicode}

/-! ## A request after its check -/

theorem mem_requestTo {url : String} {dest : Destination} :
    dest ∈ requestTo u url ↔ ∃ host, Url.hostname u url.toList = .ok host ∧ dest = .host host := by
  unfold requestTo
  cases Url.hostname u url.toList <;> simp

theorem mem_afterCheck {check : Except LLMFailure Unit} {sent : List Destination}
    {dest : Destination} : dest ∈ afterCheck check sent ↔ check = .ok () ∧ dest ∈ sent := by
  cases check <;> simp [afterCheck]

/-- **A checked URL leads to a local host**, where the policy is closed. -/
theorem isLocal_of_check {g : EgressPolicyGuard} {url : String} {dest : Destination}
    (hg : g.closed = true) (hcheck : g.check u url = .ok ()) (hdest : dest ∈ requestTo u url) :
    dest.IsLocal := by
  obtain ⟨host, hhost, -, hpasses⟩ := EgressPolicyGuard.check_eq_ok.mp hcheck
  obtain ⟨host', hhost', rfl⟩ := mem_requestTo.mp hdest
  obtain rfl := Except.ok.inj (hhost.symm.trans hhost')
  rwa [EgressPolicyGuard.passes_of_closed hg] at hpasses

/-- …and so do the paths under it. -/
theorem isLocal_of_check_base {g : EgressPolicyGuard} {url : String} {path : List Char}
    {dest : Destination} (hg : g.closed = true) (hcheck : g.check u url = .ok ())
    (hdest : dest ∈ requestTo u (url ++ String.ofList ('/' :: path))) : dest.IsLocal := by
  obtain ⟨host, hhost, hne, hpasses⟩ := EgressPolicyGuard.check_eq_ok.mp hcheck
  obtain ⟨host', hhost', rfl⟩ := mem_requestTo.mp hdest
  rw [String.toList_append, String.toList_ofList, Url.hostname_append hhost hne] at hhost'
  obtain rfl := Except.ok.inj hhost'
  rwa [EgressPolicyGuard.passes_of_closed hg] at hpasses

/-- **An Ollama provider under a closed policy reaches local hosts only.** -/
theorem OllamaProvider.contacts_local {p : OllamaProvider} (hg : p.guard.closed = true)
    {call : ProviderCall} {dest : Destination} (hdest : dest ∈ p.contacts u call) :
    dest.IsLocal := by
  have hpost : ∀ path, dest ∈ p.post u path → dest.IsLocal := fun path h => by
    obtain ⟨hcheck, hsent⟩ := mem_afterCheck.mp h
    exact isLocal_of_check hg hcheck hsent
  cases call with
  | complete => exact hpost _ hdest
  | warm => exact hpost _ hdest
  | capabilities => exact hpost _ hdest
  | health =>
    obtain ⟨hcheck, hsent⟩ := mem_afterCheck.mp hdest
    exact isLocal_of_check_base hg hcheck hsent

/-- A LiteLLM provider with a URL reaches local hosts only… -/
theorem LiteLLMProvider.contacts_local {p : LiteLLMProvider} (hg : p.guard.closed = true)
    (hurl : p.baseUrl ≠ "") {call : ProviderCall} {dest : Destination}
    (hdest : dest ∈ p.contacts u call) : dest.IsLocal := by
  have hcheck : p.checkEgress u = p.guard.check u p.baseUrl := if_pos hurl
  have hcompletion : p.completion u = requestTo u p.baseUrl := if_pos hurl
  have hmodels : p.listModels u = requestTo u (p.baseUrl ++ "/models") := if_pos hurl
  cases call with
  | complete =>
    obtain ⟨hpass, hsent⟩ := mem_afterCheck.mp hdest
    exact isLocal_of_check hg (hcheck ▸ hpass) (hcompletion ▸ hsent)
  | health =>
    obtain ⟨hpass, hsent⟩ := mem_afterCheck.mp hdest
    split at hsent
    · cases hsent
    · obtain hsent | hsent := List.mem_append.mp hsent
      · exact isLocal_of_check hg (hcheck ▸ hpass) (hcompletion ▸ hsent)
      · exact isLocal_of_check_base hg (hcheck ▸ hpass) (hmodels ▸ hsent)
  | capabilities => cases hdest
  | warm => cases hdest

/-- …and without one wherever the library takes its model. -/
theorem LiteLLMProvider.contacts_vendor {p : LiteLLMProvider} (hurl : p.baseUrl = "")
    {call : ProviderCall} {dest : Destination} (hdest : dest ∈ p.contacts u call) :
    dest = .vendor p.model := by
  have hcompletion : p.completion u = [.vendor p.model] := if_neg (not_not_intro hurl)
  have hmodels : p.listModels u = [] := if_neg (not_not_intro hurl)
  cases call with
  | complete =>
    obtain ⟨-, hsent⟩ := mem_afterCheck.mp hdest
    exact List.mem_singleton.mp (hcompletion ▸ hsent)
  | health =>
    obtain ⟨-, hsent⟩ := mem_afterCheck.mp hdest
    rw [hcompletion, hmodels, List.append_nil] at hsent
    split at hsent
    · cases hsent
    · exact List.mem_singleton.mp hsent
  | capabilities => cases hdest
  | warm => cases hdest

/-! ## What is built -/

/-- A URL of slashes names no host. -/
theorem Url.netloc_of_forall_slash {url : List Char} (h : ∀ c ∈ url, c = '/') :
    Url.netloc url = [] := by
  have hclean : ∀ c ∈ Url.cleaned url, c = '/' := fun c hc =>
    h c ((List.dropWhile_sublist _).subset (List.mem_of_mem_filter hc))
  have hself : Url.withoutScheme (Url.cleaned url) = Url.cleaned url := by
    rw [Url.withoutScheme]
    split
    · rename_i c scheme rest hhead hpart
      obtain rfl := hclean c (List.mem_of_mem_head? hhead)
      rfl
    · rfl
  rw [Url.netloc, hself]
  by_contra hne
  obtain ⟨tail, htail⟩ := Url.exists_of_location_ne_nil hne
  obtain - | ⟨c, tail⟩ := tail
  · rw [htail] at hne
    exact hne rfl
  · obtain rfl := hclean c (by rw [htail]; simp)
    rw [htail] at hne
    exact hne rfl

/-- A URL that strips to nothing is one of slashes. -/
theorem forall_slash_of_rstripSlash {url : String} (h : rstripSlash url = "") :
    ∀ c ∈ url.toList, c = '/' := fun c hc => by
  have hnil : url.toList.reverse.dropWhile (· == '/') = [] := by
    have hlist := congrArg String.toList h
    simpa [rstripSlash, rstrip] using hlist
  have hall := List.dropWhile_eq_nil_iff.mp hnil c (List.mem_reverse.mpr hc)
  simpa using hall

theorem isLocalHost_nil : isLocalHost [] = false := by decide

/-- A spec without a URL that declares itself local. -/
def DeclaredLocal (u : Unicode) (spec : Json) : Prop :=
  specBaseUrl u spec = .ok "" ∧ ∃ declared, spec.getOrNull "is_local" = .ok declared ∧
    declared.truthy = true

/-- **A closed policy lets no hosted endpoint through.** -/
theorem eq_true_of_checkEndpoint {g : EgressPolicyGuard} {name url : String}
    {declared kind : Json} {isLocal : Bool} (hg : g.closed = true)
    (h : checkEndpoint u g name url declared kind = .ok isLocal) :
    isLocalEndpoint u g url declared = .ok true ∧ isLocal = true := by
  rw [checkEndpoint] at h
  obtain ⟨isLocal', hlocal, h⟩ := bind_eq_ok.mp h
  cases isLocal' with
  | true => exact ⟨hlocal, (Except.ok.inj h).symm⟩
  | false =>
    obtain ⟨_, hpass, -⟩ := bind_eq_ok.mp h
    have hopen := EgressPolicyGuard.checkRemoteAllowed_eq_ok.mp hpass
    rw [EgressPolicyGuard.restricts, show (g.airGapped || !g.allowEgress) = true from hg,
      Bool.true_or] at hopen
    cases hopen

/-- **Building under a closed policy**: the URL is local, or there is none and the spec says so. -/
theorem buildLiteLLM_cases {g : EgressPolicyGuard} {keys : KeySources} {name : String}
    {spec kind : Json} {p : LiteLLMProvider} (hg : g.closed = true)
    (h : buildLiteLLM u g keys name spec kind = .ok p) :
    p.guard = g ∧
      ((p.baseUrl = "" ∧ DeclaredLocal u spec) ∨
        (p.baseUrl ≠ "" ∧ ∃ url host, specBaseUrl u spec = .ok url ∧
          Url.hostname u url.toList = .ok host ∧ isLocalHost host = true)) := by
  rw [buildLiteLLM] at h
  obtain ⟨apiKey, -, h⟩ := bind_eq_ok.mp h
  obtain ⟨url, hurl, h⟩ := bind_eq_ok.mp h
  obtain ⟨declared, hdeclared, h⟩ := bind_eq_ok.mp h
  obtain ⟨isLocal, hisLocal, h⟩ := bind_eq_ok.mp h
  obtain ⟨model, -, h⟩ := bind_eq_ok.mp h
  obtain rfl := Except.ok.inj h
  rw [mapError_eq_ok] at hurl hdeclared
  obtain ⟨hendpoint, rfl⟩ := eq_true_of_checkEndpoint hg hisLocal
  refine ⟨rfl, ?_⟩
  by_cases hnone : url = ""
  · subst hnone
    refine Or.inl ⟨rfl, hurl, declared, hdeclared, ?_⟩
    rw [isLocalEndpoint, if_neg (not_not_intro rfl)] at hendpoint
    exact Except.ok.inj hendpoint
  · rw [isLocalEndpoint, if_pos hnone, EgressPolicyGuard.isLocal] at hendpoint
    obtain ⟨host, hhost, hlocal⟩ := bind_eq_ok.mp hendpoint
    rw [EgressPolicyGuard.hostname, mapError_eq_ok] at hhost
    replace hlocal : isLocalHost host = true := Except.ok.inj hlocal
    refine Or.inr ⟨fun hstrip => ?_, url, host, hurl, hhost, hlocal⟩
    -- Nothing but slashes has no host, and no host is not a local one.
    have hnetloc := Url.netloc_of_forall_slash (forall_slash_of_rstripSlash hstrip)
    rw [Url.hostname, hnetloc] at hhost
    obtain rfl := Except.ok.inj hhost
    have hnil : isLocalHost (u.lower []) = true := hlocal
    rw [u.lower_nil, isLocalHost_nil] at hnil
    cases hnil

theorem buildGuard_closed {settings : LLMSettings} {config : LLMConfig}
    (h : settings.airGapped = true ∨ config.egress = .deny) :
    (buildGuard settings config).closed = true := by
  obtain h | h := h
  · simp [buildGuard, EgressPolicyGuard.closed, h]
  · simp [buildGuard, EgressPolicyGuard.closed, h]

/-- The guard of an Ollama provider is the one it was built with. -/
theorem guard_of_buildOllama {g : EgressPolicyGuard} {name : String} {spec : Json}
    {p : OllamaProvider} (h : buildOllama g name spec = .ok p) : p.guard = g := by
  rw [buildOllama] at h
  obtain ⟨model, -, h⟩ := bind_eq_ok.mp h
  obtain ⟨baseUrl, -, h⟩ := bind_eq_ok.mp h
  obtain ⟨numCtx, -, h⟩ := bind_eq_ok.mp h
  split at h
  · obtain rfl := Except.ok.inj h
    rfl
  · cases h

/-- What `build_provider` does under a guard: the adapter of the kind, for the spec of the name. -/
theorem buildProvider_cases {settings : LLMSettings} {keys : KeySources} {config : LLMConfig}
    {name : String} {p : LLMProvider} (h : buildProvider u settings keys config name = .ok p) :
    ∃ spec, config.providers.getOrNull name = .ok spec ∧
      ((∃ q, p = .ollama q ∧ buildOllama (buildGuard settings config) name spec = .ok q) ∨
        ∃ q kind, p = .litellm q ∧
          buildLiteLLM u (buildGuard settings config) keys name spec kind = .ok q) := by
  rw [buildProvider] at h
  obtain ⟨spec, hspec, h⟩ := bind_eq_ok.mp h
  refine ⟨spec, mapError_eq_ok.mp hspec, ?_⟩
  replace h : buildSpec u (buildGuard settings config) keys name spec = .ok p := by
    split at h
    · cases h
    · exact h
  rw [buildSpec] at h
  obtain ⟨kind, -, h⟩ := bind_eq_ok.mp h
  split at h
  · obtain ⟨q, hq, h⟩ := bind_eq_ok.mp h
    obtain rfl := Except.ok.inj h
    exact Or.inl ⟨q, rfl, mapError_eq_ok.mp hq⟩
  · obtain ⟨q, hq, h⟩ := bind_eq_ok.mp h
    obtain rfl := Except.ok.inj h
    exact Or.inr ⟨q, kind, rfl, hq⟩

/-- A box on the operator's network. -/
def lanConfig : LLMConfig where
  enabled := true
  providers := .obj [("lan", .obj [("kind", .str "vllm"), ("model", .str "hosted_vllm/x"),
    ("base_url", .str "http://192.168.1.50:8000/v1")])]
  roles := .obj []
  egress := .allow
  path := "llm.yaml"

end BareAnalysis
