import BareAnalysis.Machinery.Fallible
import BareAnalysis.Machinery.Url

/-!
# Llm/Guard — the egress policy, at the point of the call

    url ──hostname──▸ host ──local?──▸ pass
                        └──▸ air-gapped, deny, allowlist ──▸ pass or blocked

`EgressPolicyGuard` of `core/llm/provider.py`.  A host that is not local passes only an open policy;
a destination that is not known passes only one without an allowlist (`restricts`).
-/

namespace BareAnalysis

/-- A configuration that would fail at request time. -/
inductive LLMConfigError
  | unrouted (role : String)
  | undefinedTarget (role : String) (name : Json)
  | undefinedProvider (name path : String)
  | wouldBeBlocked (name : String) (reason : String)

/-- What the LLM layer raises. -/
inductive LLMFailure
  | egressBlocked (message : String)
  | config (e : LLMConfigError)
  | raised (e : PyError)

/-- `str(exc)`. -/
def LLMConfigError.message (u : Unicode) : LLMConfigError → String
  | unrouted role => "no provider configured for role " ++ Json.quoteText u.printable role
  | undefinedTarget role name => "role " ++ Json.quoteText u.printable role
      ++ " points at provider " ++ name.reprText u.printable ++ ", which is not defined"
  | undefinedProvider name path =>
    "provider " ++ Json.quoteText u.printable name ++ " is not defined in " ++ path
  | wouldBeBlocked name reason => "provider " ++ Json.quoteText u.printable name
      ++ " would be blocked by the egress policy: " ++ reason

/-- `str(exc)`. -/
def LLMFailure.message (u : Unicode) : LLMFailure → String
  | egressBlocked message => message
  | config e => e.message u
  | raised e => e.message

/-- The policy refuses. -/
def Blocks {α : Type} (x : Except LLMFailure α) : Prop :=
  ∃ message, x = .error (.egressBlocked message)

@[simp] theorem not_blocks_ok {α : Type} (a : α) : ¬Blocks (.ok a : Except LLMFailure α) :=
  fun ⟨_, h⟩ => (nomatch h)

@[simp] theorem not_blocks_config {α : Type} (e : LLMConfigError) :
    ¬Blocks (.error (.config e) : Except LLMFailure α) := fun ⟨_, h⟩ => by cases h

/-- What the interpreter raises is not a refusal. -/
@[simp] theorem not_blocks_raised {α : Type} (x : Except PyError α) :
    ¬Blocks (x.mapError LLMFailure.raised) := fun ⟨_, h⟩ => by
  obtain ⟨_, -, h⟩ := mapError_eq_error.mp h
  cases h

/-- **Refused in one of two parts.** -/
theorem blocks_bind {α β : Type} {x : Except LLMFailure α} {f : α → Except LLMFailure β} :
    Blocks (x >>= f) ↔ Blocks x ∨ ∃ a, x = .ok a ∧ Blocks (f a) := by
  constructor
  · rintro ⟨message, h⟩
    obtain h | ⟨a, ha, h⟩ := bind_eq_error.mp h
    · exact Or.inl ⟨message, h⟩
    · exact Or.inr ⟨a, ha, message, h⟩
  · rintro (⟨message, h⟩ | ⟨a, ha, message, h⟩)
    · exact ⟨message, bind_eq_error.mpr (Or.inl h)⟩
    · exact ⟨message, bind_eq_error.mpr (Or.inr ⟨a, ha, h⟩)⟩

/-- `_is_local_host`. -/
def isLocalHost (host : List Char) : Bool :=
  if host = "localhost".toList ∨ host = "localhost.localdomain".toList
      ∨ ".local".toList <:+ host then true
  else
    match IPAddress.parse host with
    | some address => address.isLoopback || address.isPrivate || address.isLinkLocal
    | none => false

/-- The policy a deployment runs under. -/
structure EgressPolicyGuard where
  allowEgress : Bool
  airGapped : Bool := false
  allowedHosts : List Json := []

namespace EgressPolicyGuard

variable (u : Unicode) (g : EgressPolicyGuard)

/-- The host of a URL, as the guard reads it. -/
def hostname (url : String) : Except LLMFailure (List Char) :=
  (Url.hostname u url.toList).mapError .raised

/-- `host in self._allowed_hosts`. -/
def allowsHost (host : List Char) : Bool := g.allowedHosts.any (·.isText (String.ofList host))

/-- What `check` makes of a host. -/
def checkHost (url : String) (host : List Char) : Except LLMFailure Unit :=
  if host = [] then
    .error (.egressBlocked ("could not determine host from " ++ Json.quoteText u.printable url))
  else if isLocalHost host then .ok ()
  else if g.airGapped then
    .error (.egressBlocked ("air-gapped mode forbids contacting " ++ String.ofList host
      ++ "; configure a local provider"))
  else if !g.allowEgress then
    .error (.egressBlocked ("egress policy is 'deny' and " ++ String.ofList host
      ++ " is not local; set BARE_EGRESS_POLICY=allow to permit cloud providers"))
  else if !g.allowedHosts.isEmpty && !g.allowsHost host then
    .error (.egressBlocked (String.ofList host ++ " is not in the egress allowlist "
      ++ (Json.arr g.allowedHosts).reprText u.printable))
  else .ok ()

/-- `EgressPolicyGuard.check`. -/
def check (url : String) : Except LLMFailure Unit := do
  g.checkHost u url (← hostname u url)

/-- `EgressPolicyGuard.check` of a decoded value. -/
def checkValue (v : Json) : Except LLMFailure Unit :=
  match v with
  | .str url => g.check u url
  | v => .error (.raised (.attributeError ("'" ++ v.typeName ++ "' object has no attribute 'decode'")))

/-- `EgressPolicyGuard.is_local`. -/
def isLocal (_g : EgressPolicyGuard) (url : String) : Except LLMFailure Bool := do
  return isLocalHost (← hostname u url)

/-- `EgressPolicyGuard.check_remote_allowed`. -/
def checkRemoteAllowed (description : String) : Except LLMFailure Unit :=
  if g.airGapped then
    .error (.egressBlocked ("air-gapped mode forbids " ++ description
      ++ ", whose endpoint is resolved by the provider library; configure a local provider"))
  else if !g.allowEgress then
    .error (.egressBlocked ("egress policy is 'deny' and " ++ description
      ++ " is a hosted provider; set BARE_EGRESS_POLICY=allow to permit cloud providers"))
  else if !g.allowedHosts.isEmpty then
    .error (.egressBlocked ("an egress allowlist is set, but " ++ description
      ++ " resolves its own endpoint, so it cannot be checked against it; use a provider with an "
      ++ "explicit base URL instead"))
  else .ok ()

/-- Some destination is refused. -/
def restricts : Bool := g.airGapped || !g.allowEgress || !g.allowedHosts.isEmpty

/-- Every host that is not local is refused. -/
def closed : Bool := g.airGapped || !g.allowEgress

/-- A host the policy lets through. -/
def passes (host : List Char) : Bool :=
  isLocalHost host || (!g.closed && (g.allowedHosts.isEmpty || g.allowsHost host))

variable {u g}

/-- **A destination that is not known is let through unless the policy restricts.** -/
theorem checkRemoteAllowed_cases (g : EgressPolicyGuard) (description : String) :
    (g.restricts = false ∧ g.checkRemoteAllowed description = .ok ()) ∨
      (g.restricts = true ∧
        Blocks (g.checkRemoteAllowed description)) := by
  unfold checkRemoteAllowed restricts
  cases g.airGapped
  · cases g.allowEgress
    · exact Or.inr ⟨rfl, _, rfl⟩
    · cases g.allowedHosts.isEmpty
      · exact Or.inr ⟨rfl, _, rfl⟩
      · exact Or.inl ⟨rfl, rfl⟩
  · exact Or.inr ⟨rfl, _, rfl⟩

theorem checkRemoteAllowed_eq_ok {description : String} :
    g.checkRemoteAllowed description = .ok () ↔ g.restricts = false := by
  obtain ⟨hr, hok⟩ | ⟨hr, message, herror⟩ := checkRemoteAllowed_cases g description
  · rw [hr, hok]
    exact ⟨fun _ => rfl, fun _ => rfl⟩
  · rw [hr, herror]
    exact ⟨fun h => (nomatch h), fun h => (nomatch h)⟩

theorem blocks_checkRemoteAllowed {description : String} :
    Blocks (g.checkRemoteAllowed description) ↔ g.restricts = true := by
  obtain ⟨hr, hok⟩ | ⟨hr, hblocked⟩ := checkRemoteAllowed_cases g description
  · rw [hr, hok]
    exact ⟨fun h => absurd h (not_blocks_ok _), fun h => (nomatch h)⟩
  · exact ⟨fun _ => hr, fun _ => hblocked⟩

/-- **A host passes the check** if it is one, and the policy lets it through. -/
theorem checkHost_eq_ok {url : String} {host : List Char} :
    g.checkHost u url host = .ok () ↔ host ≠ [] ∧ g.passes host = true := by
  unfold checkHost passes closed
  by_cases hnil : host = []
  · simp [hnil]
  rw [if_neg hnil]
  cases isLocalHost host
  · cases g.airGapped
    · cases g.allowEgress
      · simp
      · cases g.allowedHosts.isEmpty <;> cases g.allowsHost host <;> simp [hnil]
    · simp
  · simp [hnil]

theorem check_eq_ok {url : String} :
    g.check u url = .ok () ↔
      ∃ host, Url.hostname u url.toList = .ok host ∧ host ≠ [] ∧ g.passes host = true := by
  rw [check, bind_eq_ok]
  refine exists_congr fun host => ?_
  rw [checkHost_eq_ok, hostname]
  cases Url.hostname u url.toList <;> simp [Except.mapError]

/-- Under a closed policy only a local host passes. -/
theorem passes_of_closed (h : g.closed = true) (host : List Char) :
    g.passes host = isLocalHost host := by
  rw [passes, h]
  simp

end EgressPolicyGuard

end BareAnalysis
