import BareAnalysis.Llm.Guard

/-!
# Llm/Router — configurations, and the providers built from them

    document ──read──▸ LLMConfig ──validate──▸ loaded
                           └──build──▸ provider ──call──▸ destinations

`core/llm/router.py`, with what the adapters of `core/llm/providers` check before a request leaves.
-/

namespace BareAnalysis

/-- `ROLES`. -/
def llmRoles : List String := ["triage", "explain", "remediate", "summarize", "investigate"]

inductive EgressPolicy
  | deny
  | allow
  deriving DecidableEq, Repr

/-- The settings of the process that the LLM layer reads. -/
structure LLMSettings where
  egressPolicy : EgressPolicy := .deny
  airGapped : Bool := false

/-- `LLMConfig`; the providers and the roles are what the document holds. -/
structure LLMConfig where
  enabled : Bool
  providers : Json
  roles : Json
  egress : EgressPolicy
  redaction : Json := .str "strict"
  allowedHosts : List Json := []
  path : String

/-! ## The adapters -/

structure OllamaProvider where
  model : Json
  name : String
  baseUrl : String
  guard : EgressPolicyGuard
  numCtx : Json := .null

structure LiteLLMProvider where
  model : Json
  name : String
  baseUrl : String
  apiKey : Option String
  guard : EgressPolicyGuard
  isLocal : Bool

/-- One model endpoint. -/
inductive LLMProvider
  | ollama (p : OllamaProvider)
  | litellm (p : LiteLLMProvider)

/-- Where a request goes: to a host, or wherever the library takes a model without a URL. -/
inductive Destination
  | host (name : List Char)
  | vendor (model : Json)

/-- The methods of a provider that may send something. -/
inductive ProviderCall
  | complete
  | capabilities
  | health
  | warm

/-- Loopback, private, link-local, `localhost` or `.local`. -/
def Destination.IsLocal : Destination → Prop
  | host name => isLocalHost name = true
  | vendor _ => False

section Calls

variable (u : Unicode)

/-- A request to a URL goes to its host. -/
def requestTo (url : String) : List Destination :=
  match Url.hostname u url.toList with
  | .ok host => [.host host]
  | .error _ => []

/-- What is sent once a check passed. -/
def afterCheck (check : Except LLMFailure Unit) (sent : List Destination) : List Destination :=
  match check with
  | .ok () => sent
  | .error _ => []

/-- `OllamaProvider._post`: the URL of the request is checked. -/
def OllamaProvider.post (p : OllamaProvider) (path : String) : List Destination :=
  afterCheck (p.guard.check u (p.baseUrl ++ path)) (requestTo u (p.baseUrl ++ path))

/-- The destinations a call of an Ollama provider reaches. -/
def OllamaProvider.contacts (p : OllamaProvider) : ProviderCall → List Destination
  | .complete | .warm => p.post u "/api/chat"
  | .capabilities => p.post u "/api/show"
  | .health => afterCheck (p.guard.check u p.baseUrl) (requestTo u (p.baseUrl ++ "/api/tags"))

/-- `LiteLLMProvider._check_egress`. -/
def LiteLLMProvider.checkEgress (p : LiteLLMProvider) : Except LLMFailure Unit :=
  if p.baseUrl ≠ "" then p.guard.check u p.baseUrl
  else if !p.isLocal then p.guard.checkRemoteAllowed (p.model.text u.printable)
  else .ok ()

/-- `litellm.completion`, with the base URL if there is one. -/
def LiteLLMProvider.completion (p : LiteLLMProvider) : List Destination :=
  if p.baseUrl ≠ "" then requestTo u p.baseUrl else [.vendor p.model]

/-- `LiteLLMProvider._list_models`. -/
def LiteLLMProvider.listModels (p : LiteLLMProvider) : List Destination :=
  if p.baseUrl ≠ "" then requestTo u (p.baseUrl ++ "/models") else []

/-- The destinations a call of a LiteLLM provider reaches. -/
def LiteLLMProvider.contacts (p : LiteLLMProvider) : ProviderCall → List Destination
  | .complete => afterCheck (p.checkEgress u) (p.completion u)
  | .capabilities => []
  | .health => afterCheck (p.checkEgress u)
      (if p.apiKey.isNone && !p.isLocal then [] else p.completion u ++ p.listModels u)
  | .warm => []

/-- The destinations a call of a provider reaches, if every request is answered. -/
def LLMProvider.contacts : LLMProvider → ProviderCall → List Destination
  | ollama p => p.contacts u
  | litellm p => p.contacts u

end Calls

/-! ## Loading -/

section Load

variable (u : Unicode)

/-- `EgressPolicy(value)`. -/
def EgressPolicy.parse (v : Json) : Except PyError EgressPolicy :=
  if v.isText "deny" then .ok .deny
  else if v.isText "allow" then .ok .allow
  else .error (.valueError (v.reprText u.printable ++ " is not a valid EgressPolicy"))

/-- The configuration a document holds, before it is validated. -/
def readConfig (settings : LLMSettings) (path : String) (document : Json) :
    Except PyError LLMConfig := do
  let document := document.orElse (.obj [])
  let policy := (← document.getD "policy" (.obj [])).orElse (.obj [])
  let egress ← match ← policy.get? "egress" with
    | some v => EgressPolicy.parse u v
    | none => .ok settings.egressPolicy
  let enabled ← document.getD "enabled" (.bool true)
  let providers ← document.getD "providers" (.obj [])
  let roles ← document.getD "roles" (.obj [])
  let redaction ← policy.getD "redaction" (.str "strict")
  let allowedHosts ← ((← policy.getD "allowed_hosts" (.arr [])).orElse (.arr [])).iter
  return {
    enabled := enabled.truthy
    providers := providers.orElse (.obj [])
    roles := roles.orElse (.obj [])
    egress
    redaction
    allowedHosts
    path }

/-- `LLMConfig.provider_for`. -/
def LLMConfig.providerFor (config : LLMConfig) (role : String) : Except LLMFailure Json := do
  match ← (config.roles.getOrNull role).mapError .raised with
  | .null => .error (.config (.unrouted role))
  | name =>
    if ← (config.providers.contains name).mapError .raised then return name
    else .error (.config (.undefinedTarget role name))

/-- A role that is routed has a target. -/
def LLMConfig.checkRole (config : LLMConfig) (role : String) : Except LLMFailure Unit := do
  if ← (config.roles.contains (.str role)).mapError .raised then
    let _ ← config.providerFor role
  return ()

/-- `config.providers.items()`. -/
def LLMConfig.providerItems (config : LLMConfig) : Except PyError (List (String × Json)) :=
  match config.providers with
  | .obj fields => .ok (Json.items fields)
  | v => .error (.attributeError ("'" ++ v.typeName ++ "' object has no attribute 'items'"))

/-- The guard of a configuration. -/
def buildGuard (settings : LLMSettings) (config : LLMConfig) : EgressPolicyGuard where
  allowEgress := decide (config.egress = .allow)
  airGapped := settings.airGapped
  allowedHosts := config.allowedHosts

/-- The policy, as `_validate` applies it to a provider. -/
def checkSpec (g : EgressPolicyGuard) (name : String) (spec baseUrl : Json) :
    Except LLMFailure Unit :=
  if baseUrl.truthy then g.checkValue u baseUrl
  else do
    if !(← (spec.getD "is_local" (.bool false)).mapError .raised).truthy then
      g.checkRemoteAllowed ("provider " ++ Json.quoteText u.printable name)

/-- Whatever it raises names the provider. -/
def checkProvider (g : EgressPolicyGuard) (provider : String × Json) : Except LLMFailure Unit := do
  let baseUrl ← (provider.2.getOrNull "base_url").mapError .raised
  (checkSpec u g provider.1 provider.2 baseUrl).mapError fun exc =>
    .config (.wouldBeBlocked provider.1 (exc.message u))

/-- `_validate`. -/
def validate (settings : LLMSettings) (config : LLMConfig) : Except LLMFailure Unit :=
  if !config.enabled then .ok ()
  else do
    forM llmRoles config.checkRole
    forM (← config.providerItems.mapError .raised) (checkProvider u (buildGuard settings config))

/-- `load_config` of a file that is there. -/
def loadConfig (settings : LLMSettings) (path : String) (document : Json) :
    Except LLMFailure LLMConfig := do
  let config ← (readConfig u settings path document).mapError .raised
  validate u settings config
  return config

end Load

/-! ## Building -/

section Build

variable (u : Unicode)

/-- Where API keys come from: the environment, and the key store. -/
structure KeySources where
  environ : Dict String String := []
  store : Dict String String := []

/-- `resolve_api_key`. -/
def resolveApiKey (keys : KeySources) (name : String) (spec : Json) :
    Except PyError (Option String) := do
  let envName ← spec.getOrNull "api_key_env"
  let stripped (text : String) : String := String.ofList (strip u.space text.toList)
  let fromEnv := stripped ((Dict.get? keys.environ (envName.text u.printable)).getD "")
  let stored := stripped ((Dict.get? keys.store name).getD "")
  return if envName.truthy && fromEnv != "" then some fromEnv
    else if stored != "" then some stored
    else none

/-- `base_url.rstrip("/")`. -/
def rstripSlash (url : String) : String := String.ofList (rstrip (· == '/') url.toList)

/-- The adapter of a local Ollama. -/
def buildOllama (g : EgressPolicyGuard) (name : String) (spec : Json) :
    Except PyError OllamaProvider := do
  let model ← spec.index "model"
  let baseUrl ← spec.getD "base_url" (.str "http://localhost:11434")
  let numCtx ← spec.getOrNull "num_ctx"
  match baseUrl with
  | .str url => return { model, name, baseUrl := rstripSlash url, guard := g, numCtx }
  | v => .error (.attributeError ("'" ++ v.typeName ++ "' object has no attribute 'rstrip'"))

/-- `str(spec.get("base_url", "") or "")`. -/
def specBaseUrl (spec : Json) : Except PyError String := do
  return ((← spec.getD "base_url" (.str "")).orElse (.str "")).text u.printable

/-- Locality: from the URL when there is one, from the declaration otherwise. -/
def isLocalEndpoint (g : EgressPolicyGuard) (baseUrl : String) (declared : Json) :
    Except LLMFailure Bool :=
  if baseUrl ≠ "" then g.isLocal u baseUrl else .ok declared.truthy

/-- A hosted endpoint needs the leave of the policy. -/
def checkEndpoint (g : EgressPolicyGuard) (name baseUrl : String) (declared kind : Json) :
    Except LLMFailure Bool := do
  let isLocal ← isLocalEndpoint u g baseUrl declared
  if !isLocal then
    g.checkRemoteAllowed ("provider " ++ Json.quoteText u.printable name ++ " ("
      ++ kind.text u.printable ++ ")")
  return isLocal

/-- The adapter of everything else. -/
def buildLiteLLM (g : EgressPolicyGuard) (keys : KeySources) (name : String) (spec kind : Json) :
    Except LLMFailure LiteLLMProvider := do
  let apiKey ← (resolveApiKey u keys name spec).mapError .raised
  let baseUrl ← (specBaseUrl u spec).mapError .raised
  let declared ← (spec.getOrNull "is_local").mapError .raised
  let isLocal ← checkEndpoint u g name baseUrl declared kind
  let model ← (spec.index "model").mapError .raised
  return { model, name, baseUrl := rstripSlash baseUrl, apiKey, guard := g, isLocal }

/-- The adapter a spec asks for. -/
def buildSpec (g : EgressPolicyGuard) (keys : KeySources) (name : String) (spec : Json) :
    Except LLMFailure LLMProvider := do
  let kind ← (spec.getD "kind" (.str "ollama")).mapError .raised
  if kind.isText "ollama" then return .ollama (← (buildOllama g name spec).mapError .raised)
  else return .litellm (← buildLiteLLM u g keys name spec kind)

/-- `build_provider`. -/
def buildProvider (settings : LLMSettings) (keys : KeySources) (config : LLMConfig)
    (name : String) : Except LLMFailure LLMProvider := do
  match ← (config.providers.getOrNull name).mapError .raised with
  | .null => .error (.config (.undefinedProvider name config.path))
  | spec => buildSpec u (buildGuard settings config) keys name spec

end Build

end BareAnalysis
