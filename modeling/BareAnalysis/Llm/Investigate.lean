import BareAnalysis.Llm.Response
import BareAnalysis.Llm.Tools

/-!
# Llm/Investigate — the model drives, the orchestrator holds the tools

    system, opening, window of the history ──complete──▸ answer ──as_json──▸ conclusion │ call
                              ▴                                                         │
                              └──────────────── result of the call, or what was wrong ◂─┘

`core/llm/investigate.py`.  A turn asks the model once; `investigateFinding` takes turns until the
model concludes, fails, or has none left.  What was run is kept beside the result, for what is proved
about it: every answer is on record, and no call is run twice (`investigateFinding_isRecorded`).
-/

namespace BareAnalysis.Investigate

open Response

/-! ## The model -/

structure Message where
  role : String
  content : List Char
  deriving DecidableEq, Repr

structure Completion where
  text : List Char
  promptTokens : Option ℤ := none
  completionTokens : Option ℤ := none
  durationS : ℚ := 0
  /-- `raw.get("thinking")`. -/
  thinking : Bool := false

/-- A provider, with what it answers to the messages of each turn, or the text of what it raises. -/
structure LLMProvider where
  name : String
  model : String
  isLocal : Bool
  complete : ℕ → List Message → Except String Completion

/-- `LLMProvider.prompt_hash`. -/
def promptHash (messages : List Message) : String :=
  sha256 (unitSep.intercalate (messages.map fun m => m.role ++ ":" ++ String.ofList m.content))

/-! ## The record -/

/-- One step, kept for the audit trail. -/
structure Step extends ToolCall where
  ok : Bool
  output : List Char
  detail : String := ""

/-- One call of the model. -/
structure LlmCall where
  runId : String
  findingId : String
  provider : String
  model : String
  role : String := "investigate"
  isLocal : Bool
  redactionLevel : String
  promptHash : String
  promptRendered : List Char
  responseText : Option (List Char) := none
  promptTokens : Option ℤ := none
  completionTokens : Option ℤ := none
  durationS : ℚ := 0
  error : Option (List Char) := none

structure Investigation where
  findingId : String
  runId : String
  conclusion : List Char := []
  confidence : String := "low"
  steps : List Step := []
  calls : List LlmCall := []
  error : Option String := none
  durationS : ℚ := 0

/-! ## The prompt -/

/-- `MAX_CONTEXT_TURNS`. -/
def maxContextTurns : ℕ := 4

/-- The note on what was left out. -/
def omittedNote (dropped : ℕ) : Message :=
  ⟨"user", ("[" ++ toString dropped ++ " earlier step(s) omitted to stay within the context window. "
    ++ "Do not repeat them; build on what you have learned.]").toList⟩

/-- `_window`. -/
def window (history : List Message) : List Message :=
  let keep := maxContextTurns * 2
  if history.length ≤ keep then history
  else omittedNote ((history.length - keep) / 2) :: history.drop (history.length - keep)

/-- What the investigation is about. -/
structure Brief where
  finding : Finding
  locations : List FindingLocation
  pathInTree : String
  locationCount : ℕ := 1
  /-- `str(finding.entropy)`. -/
  floatText : ℚ → String

/-- `_opening_prompt`. -/
def Brief.openingPrompt (brief : Brief) : List Char :=
  let f := brief.finding
  let offsets := ((brief.locations.take 5).filterMap (·.offset)).map fun offset =>
    ToolBox.offsetText (some offset)
  let snippet := f.contextSnippet.getD ""
  ['\n'].intercalate ([
    "Investigate this finding.".toList, [],
    ("Rule: " ++ f.ruleId).toList, ("Title: " ++ f.title).toList,
    ("Category: " ++ f.category).toList, ("Severity: " ++ f.severity.value).toList,
    ("Masked value: " ++ f.valueMasked).toList,
    ("Entropy: " ++ (f.entropy.map brief.floatText).getD "unknown").toList,
    ("File: " ++ brief.pathInTree).toList,
    ("Occurrences: " ++ toString brief.locationCount).toList]
    ++ (if offsets = [] then []
      else ["Byte offsets: ".toList ++ [',', ' '].intercalate offsets])
    ++ (if snippet = "" then []
      else ["Surrounding context (value masked): ".toList ++ snippet.toList.take 600])
    ++ [[], "Begin. Reply with one JSON object.".toList])

/-- `_render_result`. -/
def renderResult (result : ToolResult) : List Char :=
  (if result.ok then "TOOL RESULT" else "TOOL ERROR").toList ++ ":\n".toList
    ++ (if result.ok then result.output else result.detail.toList)
    ++ (if result.ok ∧ result.detail ≠ "" then "\n(".toList ++ result.detail.toList ++ ")".toList
      else [])
    ++ "\n\nNext JSON object.".toList

/-! ## Decoded objects -/

mutual

/-- A decoded value as it is held: a key assigned twice keeps its first place and its last value… -/
def held : Json → Json
  | .arr items => .arr (heldItems items)
  | .obj fields => .obj (Dict.entries (heldFields fields))
  | v => v

/-- …in a list… -/
def heldItems : List Json → List Json
  | [] => []
  | v :: vs => held v :: heldItems vs

/-- …and in the fields of an object. -/
def heldFields : List (String × Json) → List (String × Json)
  | [] => []
  | (key, v) :: rest => (key, held v) :: heldFields rest

end

/-- `json.dumps(arguments, sort_keys=True)`, after the name of the tool. -/
def signature (call : ToolCall) : List Char :=
  call.tool.toList ++ ':' :: ({ sorted := true } : Style).dumps (.obj call.arguments)

/-! ## Turns -/

/-- What an investigation is given. -/
structure Setting where
  decoder : Decoder
  lib : ToolLibraries
  box : ToolBox
  provider : LLMProvider
  brief : Brief
  /-- `SYSTEM_PROMPT`, with the manifest of the tools and the number of steps. -/
  systemPrompt : ℕ → List Char
  maxSteps : ℕ := 12

/-- Between two turns. -/
structure Talk where
  history : List Message := []
  /-- Signature -> what happened. -/
  seen : Dict (List Char) (List Char) := []
  result : Investigation
  /-- What the toolbox has run. -/
  executed : List ToolCall := []
  /-- What the model was sent. -/
  sent : List (List Message) := []

/-- Where a turn leads. -/
inductive Turn
  | next (talk : Talk)
  | done (talk : Talk)
  /-- What `as_json` lets through. -/
  | raised (e : LoadsError)

namespace Setting

variable (s : Setting)

/-- The messages of a turn. -/
def messages (history : List Message) : List Message :=
  ⟨"system", s.systemPrompt s.maxSteps⟩ :: ⟨"user", s.brief.openingPrompt⟩ :: window history

/-- The row of a call, before it is made. -/
def openCall (step : ℕ) (messages : List Message) : LlmCall where
  runId := s.brief.finding.runId
  findingId := s.brief.finding.id
  provider := s.provider.name
  model := s.provider.model
  isLocal := s.provider.isLocal
  redactionLevel := if s.box.allowPlaintext then "none" else "strict"
  promptHash := promptHash messages
  promptRendered := (("[step " ++ toString (step + 1) ++ "] ").toList
    ++ ((messages.getLast?.map Message.content).getD [])).take 8000

/-- The row of a call that was answered. -/
def closeCall (call : LlmCall) (completion : Completion) : LlmCall :=
  { call with
    responseText := some (completion.text.take 8000)
    promptTokens := completion.promptTokens
    completionTokens := completion.completionTokens
    durationS := completion.durationS }

/-- `"That was not a single JSON object. …"`. -/
def malformed : List Char :=
  ("That was not a single JSON object. Reply with exactly one, either a tool call or a conclusion. "
    ++ "Every argument must be a literal value — never a placeholder like <offset>.").toList

/-- A turn that was not a single JSON object. -/
def unparseable (talk : Talk) (completion : Completion) : Turn :=
  if completion.thinking then
    .done { talk with result := { talk.result with
      error := some ("the model exhausted its token budget on reasoning without producing a complete "
        ++ "answer; raise max_tokens for the investigate role or route it to a non-reasoning model") } }
  else
    .next { talk with
      history := talk.history
        ++ [⟨"assistant", completion.text.take 1000⟩, ⟨"user", malformed⟩]
      result := { talk.result with
        steps := talk.result.steps ++ [
          { tool := "(unparseable model response)", arguments := [], ok := false
            output := completion.text.take 1000, detail := "not a single JSON object" }] } }

/-- `str(payload.get(key, default)).strip()`. -/
def textOf (payload : List (String × Json)) (key default : String) : List Char :=
  strip s.lib.unicode.space
    (((Dict.get? payload key).getD (.str default)).text s.lib.unicode.printable).toList

/-- A turn that concludes. -/
def conclude (talk : Talk) (payload : List (String × Json)) : Turn :=
  let confidence := String.ofList (s.lib.unicode.lower (s.textOf payload "confidence" "low"))
  .done { talk with result := { talk.result with
    conclusion := s.textOf payload "conclusion" ""
    confidence := if confidence ∈ ["high", "medium", "low"] then confidence else "low" } }

/-- The call a turn asks for. -/
def callOf (payload : List (String × Json)) : ToolCall where
  tool := String.ofList (s.textOf payload "tool" "")
  arguments :=
    match Dict.get? payload "arguments" with
    | some (.obj fields) => fields
    | _ => []

/-- A call that was run before is not run again. -/
def repeatCall (talk : Talk) (payload : List (String × Json)) (before : List Char) : Turn :=
  let call := s.callOf payload
  .next { talk with
    history := talk.history ++ [
      ⟨"assistant", ({} : Style).dumps (.obj payload)⟩,
      ⟨"user", "You already ran that exact call. It returned: ".toList ++ before
        ++ "\n\nDo something different, or conclude with what you have.".toList⟩]
    result := { talk.result with
      steps := talk.result.steps ++ [
        { toToolCall := call, ok := false, output := []
          detail := "repeat of an earlier call; not re-executed" }] } }

/-- A call that is run. -/
def runCall (talk : Talk) (payload : List (String × Json)) : Turn :=
  let call := s.callOf payload
  let outcome := s.box.run s.lib call
  .next { talk with
    history := talk.history ++ [
      ⟨"assistant", ({} : Style).dumps (.obj payload)⟩, ⟨"user", renderResult outcome⟩]
    seen := talk.seen ++ [(signature call,
      (if outcome.output = [] then outcome.detail.toList else outcome.output).take 200)]
    result := { talk.result with
      steps := talk.result.steps ++ [
        { toToolCall := call, ok := outcome.ok, output := outcome.output
          detail := outcome.detail }] }
    executed := talk.executed ++ [call] }

/-- What follows on an object. -/
def act (talk : Talk) (payload : List (String × Json)) : Turn :=
  if (Dict.get? payload "conclusion").isSome then s.conclude talk payload
  else
    match Dict.get? talk.seen (signature (s.callOf payload)) with
    | some before => s.repeatCall talk payload before
    | none => s.runCall talk payload

/-- The talk with a call on record. -/
def record (talk : Talk) (call : LlmCall)
    (messages : List Message) : Talk :=
  { talk with
    sent := talk.sent ++ [messages]
    result := { talk.result with
      calls := talk.result.calls ++ [call]
      durationS := talk.result.durationS + call.durationS } }

/-- One turn of the loop. -/
def turn (step : ℕ) (talk : Talk) : Turn :=
  let messages := s.messages talk.history
  let call := s.openCall step messages
  match s.provider.complete step messages with
  | .error e =>
    let talk := record talk { call with error := some (e.toList.take 1000) } messages
    .done { talk with result := { talk.result with
      error := some ("the model became unreachable after " ++ toString step ++ " step(s): " ++ e) } }
  | .ok completion =>
    let talk := record talk (closeCall call completion) messages
    match asJson s.decoder s.lib.unicode.space completion.text with
    | .error e => .raised e
    | .ok none => unparseable talk completion
    | .ok (some payload) =>
      match held payload with
      | .obj (field :: fields) => s.act talk (field :: fields)
      | _ => unparseable talk completion

/-- The turns that are left, from this one on. -/
def turns : ℕ → ℕ → Talk → Except LoadsError Talk
  | 0, _, talk =>
    .ok { talk with result := { talk.result with
      error := some ("the investigation did not reach a conclusion within " ++ toString s.maxSteps
        ++ " steps; the steps it did take are recorded below") } }
  | left + 1, step, talk =>
    match s.turn step talk with
    | .next talk => turns left (step + 1) talk
    | .done talk => .ok talk
    | .raised e => .error e

/-- `investigate_finding`, with what was run and sent. -/
def investigateFinding : Except LoadsError Talk :=
  s.turns s.maxSteps 0
    { result := { findingId := s.brief.finding.id, runId := s.brief.finding.runId } }

end Setting

/-! ## The audit trail -/

section Trail

variable (lib : ToolLibraries) (box : ToolBox)

/-- How a step got on record, with what had been run before and what has been after it. -/
inductive IsRecord : List ToolCall → Step → List ToolCall → Prop
  | unparseable {executed : List ToolCall} (text : List Char) :
      IsRecord executed { tool := "(unparseable model response)", arguments := [], ok := false
                          output := text.take 1000, detail := "not a single JSON object" } executed
  | repeated {executed : List ToolCall} {call : ToolCall}
      (h : signature call ∈ executed.map signature) :
      IsRecord executed { toToolCall := call, ok := false, output := []
                          detail := "repeat of an earlier call; not re-executed" } executed
  | run {executed : List ToolCall} {call : ToolCall}
      (h : signature call ∉ executed.map signature) :
      IsRecord executed { toToolCall := call, ok := (box.run lib call).ok
                          output := (box.run lib call).output
                          detail := (box.run lib call).detail } (executed ++ [call])

/-- The steps, and all that was run for them. -/
inductive AreRecords : List Step → List ToolCall → Prop
  | nil : AreRecords [] []
  | concat {steps : List Step} {executed executed' : List ToolCall} {step : Step}
      (h : AreRecords steps executed) (hstep : IsRecord lib box executed step executed') :
      AreRecords (steps ++ [step]) executed'

end Trail

/-! ## The window -/

/-- The first messages of a history, as the model sees them after so many exchanges. -/
def windowAt (history : List Message) (exchanges : ℕ) : List Message :=
  if exchanges ≤ maxContextTurns then history.take (2 * exchanges)
  else omittedNote (exchanges - maxContextTurns)
    :: (history.take (2 * exchanges)).drop (2 * (exchanges - maxContextTurns))

/-- **The window drops whole exchanges**, and counts them. -/
theorem window_eq_windowAt {history : List Message} {k : ℕ} (h : history.length = 2 * k) :
    window history = windowAt history k := by
  have htake : history.take (2 * k) = history := List.take_of_length_le (by omega)
  rw [window, windowAt, htake, h]
  unfold maxContextTurns
  by_cases hk : k ≤ 4
  · rw [if_pos hk]
    exact if_pos (by omega)
  · have hstart : 2 * k - 4 * 2 = 2 * (k - 4) := by omega
    have hdropped : 2 * (k - 4) / 2 = k - 4 := by omega
    rw [if_neg hk]
    simp only [hstart, hdropped]
    exact if_neg (by omega)

theorem windowAt_append {history : List Message} {k : ℕ} (h : 2 * k ≤ history.length)
    (more : List Message) : windowAt (history ++ more) k = windowAt history k := by
  rw [windowAt, windowAt, List.take_append_of_le_length h]

/-! ## What a talk keeps -/

/-- The messages of a turn, after so many exchanges. -/
def Setting.messagesAt (s : Setting) (history : List Message) (exchanges : ℕ) : List Message :=
  ⟨"system", s.systemPrompt s.maxSteps⟩ :: ⟨"user", s.brief.openingPrompt⟩
    :: windowAt history exchanges

/-- What is true of a talk between two turns and after the last. -/
structure Kept (s : Setting) (talk : Talk) : Prop where
  /-- The messages of each call are the prompt, and the exchanges before it, as far as the window
  goes. -/
  sent : ∀ i < talk.sent.length, talk.sent[i]? = some (s.messagesAt talk.history i)
  hashed : talk.result.calls.map LlmCall.promptHash = talk.sent.map promptHash
  recorded : AreRecords s.lib s.box talk.result.steps talk.executed
  once : (talk.executed.map signature).Nodup
  seen : talk.seen.map Prod.fst = talk.executed.map signature
  history : talk.history.length = 2 * talk.result.steps.length

/-- Between two turns there is a step for each call, and no answer yet. -/
structure Going (s : Setting) (k : ℕ) (talk : Talk) : Prop extends Kept s talk where
  steps : talk.result.steps.length = k
  calls : talk.sent.length = k
  noAnswer : talk.result.conclusion = []
  noError : talk.result.error = none

/-- After the last turn there is an answer, or an error and no conclusion. -/
structure Ended (s : Setting) (k : ℕ) (talk : Talk) : Prop extends Kept s talk where
  steps : talk.result.steps.length = k
  calls : talk.sent.length = k + 1
  answer : talk.result.error = none ∨ talk.result.error.isSome ∧ talk.result.conclusion = []

section Steps

variable {s : Setting} {k : ℕ} {talk : Talk}

theorem Kept.record (h : Kept s talk) (hlength : talk.sent.length = talk.result.steps.length)
    {call : LlmCall} (hcall : call.promptHash = promptHash (s.messages talk.history)) :
    Kept s (Setting.record talk call (s.messages talk.history)) where
  sent i hi := by
    have hi' : i < talk.sent.length + 1 := by
      rw [← List.length_concat (a := s.messages talk.history), List.concat_eq_append]
      exact hi
    have hmessages : s.messages talk.history
        = s.messagesAt talk.history talk.result.steps.length := by
      rw [Setting.messages, window_eq_windowAt h.history, Setting.messagesAt]
    change (talk.sent ++ [s.messages talk.history])[i]? = some (s.messagesAt talk.history i)
    obtain hi | rfl := Nat.lt_succ_iff_lt_or_eq.mp hi'
    · rw [List.getElem?_append_left hi]
      exact h.sent i hi
    · rw [List.getElem?_append_right (le_refl _), Nat.sub_self, hmessages, hlength]
      rfl
  hashed := by
    change (talk.result.calls ++ [call]).map LlmCall.promptHash
      = (talk.sent ++ [s.messages talk.history]).map promptHash
    rw [List.map_append, List.map_append, h.hashed, List.map_singleton, List.map_singleton, hcall]
  recorded := h.recorded
  once := h.once
  seen := h.seen
  history := h.history

/-- A step that is put on record, with its exchange. -/
theorem Kept.step (h : Kept s talk) {step : Step} {executed : List ToolCall} {a b : Message}
    {seen : Dict (List Char) (List Char)} (hlength : talk.sent.length ≤ talk.result.steps.length + 1)
    (hrecord : IsRecord s.lib s.box talk.executed step executed)
    (hseen : seen.map Prod.fst = executed.map signature)
    (honce : (executed.map signature).Nodup) :
    Kept s { talk with
      history := talk.history ++ [a, b]
      seen := seen
      executed := executed
      result := { talk.result with steps := talk.result.steps ++ [step] } } where
  sent i hi := by
    have hhistory := h.history
    change talk.sent[i]? = some (s.messagesAt (talk.history ++ [a, b]) i)
    rw [h.sent i hi, Setting.messagesAt, Setting.messagesAt,
      windowAt_append (by have : i < talk.sent.length := hi; omega)]
  hashed := h.hashed
  recorded := .concat h.recorded hrecord
  once := honce
  seen := hseen
  history := by
    change (talk.history ++ [a, b]).length = 2 * (talk.result.steps ++ [step]).length
    rw [List.length_append, List.length_append, h.history, List.length_cons, List.length_cons,
      List.length_nil, List.length_cons, List.length_nil]
    omega

/-- What a turn leads to, after so many steps. -/
def Leads (s : Setting) (k : ℕ) : Turn → Prop
  | .next talk => Going s (k + 1) talk
  | .done talk => Ended s k talk
  | .raised e => e ≠ .decode

/-- An asked talk: the call of this turn is on record, and nothing else has changed. -/
structure Asked (s : Setting) (k : ℕ) (talk : Talk) : Prop extends Kept s talk where
  steps : talk.result.steps.length = k
  calls : talk.sent.length = k + 1
  noAnswer : talk.result.conclusion = []
  noError : talk.result.error = none

theorem Going.asked (h : Going s k talk) {call : LlmCall}
    (hcall : call.promptHash = promptHash (s.messages talk.history)) :
    Asked s k (Setting.record talk call (s.messages talk.history)) where
  toKept := h.toKept.record (h.calls.trans h.steps.symm) hcall
  steps := h.steps
  calls := by
    change (talk.sent ++ [s.messages talk.history]).length = k + 1
    rw [List.length_append, h.calls]
    rfl
  noAnswer := h.noAnswer
  noError := h.noError

/-- A talk with an answer or an error ends. -/
theorem Asked.ended (h : Asked s k talk) {conclusion : List Char} {confidence : String}
    {error : Option String} (hanswer : error = none ∨ error.isSome ∧ conclusion = []) :
    Ended s k { talk with result := { talk.result with conclusion, confidence, error } } where
  sent := h.sent
  hashed := h.hashed
  recorded := h.recorded
  once := h.once
  seen := h.seen
  history := h.history
  steps := h.steps
  calls := h.calls
  answer := hanswer

/-- A talk with another step goes on. -/
theorem Asked.going (h : Asked s k talk) {step : Step} {executed : List ToolCall} {a b : Message}
    {seen : Dict (List Char) (List Char)}
    (hrecord : IsRecord s.lib s.box talk.executed step executed)
    (hseen : seen.map Prod.fst = executed.map signature)
    (honce : (executed.map signature).Nodup) :
    Going s (k + 1) { talk with
      history := talk.history ++ [a, b]
      seen := seen
      executed := executed
      result := { talk.result with steps := talk.result.steps ++ [step] } } where
  toKept := h.toKept.step (by rw [h.calls, h.steps]) hrecord hseen honce
  steps := by
    change (talk.result.steps ++ [step]).length = k + 1
    rw [List.length_append, h.steps]
    rfl
  calls := h.calls
  noAnswer := h.noAnswer
  noError := h.noError

theorem Asked.leads_unparseable (h : Asked s k talk) (completion : Completion) :
    Leads s k (Setting.unparseable talk completion) := by
  rw [Setting.unparseable]
  split
  · exact h.ended (Or.inr ⟨rfl, h.noAnswer⟩)
  · exact h.going (.unparseable completion.text) h.seen h.once

/-- **No call is run twice.** -/
theorem Asked.leads_act (h : Asked s k talk) (payload : List (String × Json)) :
    Leads s k (s.act talk payload) := by
  have hseen : ∀ call, signature call ∈ talk.executed.map signature ↔
      (Dict.get? talk.seen (signature call)).isSome := by
    intro call
    rw [← h.seen]
    constructor
    · intro hmem
      obtain ⟨entry, hentry, hkey⟩ := List.mem_map.mp hmem
      obtain ⟨v, hv⟩ := Dict.exists_get?_of_mem hentry
      rw [← hkey, hv]
      rfl
    · intro hsome
      obtain ⟨v, hv⟩ := Option.isSome_iff_exists.mp hsome
      exact List.mem_map_of_mem (f := Prod.fst) (Dict.mem_of_get?_eq_some hv)
  rw [Setting.act]
  split
  · exact h.ended (Or.inl h.noError)
  · cases hbefore : Dict.get? talk.seen (signature (s.callOf payload)) with
    | some before =>
      have hmem := (hseen (s.callOf payload)).mpr (by rw [hbefore]; rfl)
      exact h.going (.repeated hmem) h.seen h.once
    | none =>
      have hnot : signature (s.callOf payload) ∉ talk.executed.map signature := fun hmem => by
        have hsome := (hseen (s.callOf payload)).mp hmem
        rw [hbefore] at hsome
        cases hsome
      refine h.going (.run hnot) ?_ ?_
      · rw [List.map_append, List.map_append, h.seen]
        rfl
      · rw [List.map_append, List.nodup_append]
        refine ⟨h.once, List.nodup_singleton _, fun a ha b hb hab => ?_⟩
        rw [hab, List.mem_singleton.mp hb] at ha
        exact hnot ha

theorem asJson_ne_decode {d : Decoder} {space : Char → Bool} {text : List Char} :
    asJson d space text ≠ .error .decode := by
  have hfirst : ∀ text, firstJsonObject d text ≠ .error .decode := by
    intro text
    induction text with
    | nil => simp [firstJsonObject]
    | cons c text ih =>
      rw [firstJsonObject]
      split
      · exact ih
      · split
        · exact ih
        · split
          · split
            · simp
            · exact ih
          · exact ih
          · rename_i hne _
            exact fun h => hne (Except.error.inj h)
  rw [asJson]
  cases hloads : d.loads (unfenced space text) with
  | ok v => simp
  | error e =>
    cases e with
    | decode =>
      have hne := hfirst (unfenced space text)
      cases hobject : firstJsonObject d (unfenced space text) with
      | ok v => simp
      | error e =>
        rw [hobject] at hne
        exact fun h => hne h
    | value message => simp
    | recursion => simp

/-- **One turn.** -/
theorem Going.leads_turn (h : Going s k talk) : Leads s k (s.turn k talk) := by
  rw [Setting.turn]
  cases hcomplete : s.provider.complete k (s.messages talk.history) with
  | error e =>
    have hasked : Asked s k (Setting.record talk
        { s.openCall k (s.messages talk.history) with error := some (e.toList.take 1000) }
        (s.messages talk.history)) := h.asked rfl
    exact hasked.ended (Or.inr ⟨rfl, hasked.noAnswer⟩)
  | ok completion =>
    have hasked : Asked s k (Setting.record talk
        (Setting.closeCall (s.openCall k (s.messages talk.history)) completion)
        (s.messages talk.history)) := h.asked rfl
    cases hjson : asJson s.decoder s.lib.unicode.space completion.text with
    | error e =>
      simp only [hjson]
      exact fun he => asJson_ne_decode (he ▸ hjson)
    | ok payload =>
      cases payload with
      | none =>
        simp only [hjson]
        exact hasked.leads_unparseable completion
      | some payload =>
        simp only [hjson]
        split
        · exact hasked.leads_act _
        · exact hasked.leads_unparseable completion

end Steps

/-! ## The whole investigation -/

/-- An investigation is bounded, and every answer of it is on record. -/
structure IsRecorded (s : Setting) (talk : Talk) : Prop extends Kept s talk where
  bounded : talk.result.calls.length ≤ s.maxSteps
  /-- A step for each call but one that concludes or fails; without such a call all turns were
  taken, and the result says so. -/
  ending :
    (talk.result.calls.length = talk.result.steps.length + 1 ∧
      (talk.result.error = none ∨ talk.result.error.isSome ∧ talk.result.conclusion = [])) ∨
    (talk.result.calls.length = s.maxSteps ∧ talk.result.steps.length = s.maxSteps ∧
      talk.result.error.isSome ∧ talk.result.conclusion = [])

section Whole

variable {s : Setting} {k left : ℕ} {talk : Talk}

theorem Kept.length_calls (h : Kept s talk) : talk.result.calls.length = talk.sent.length := by
  have hlength := congrArg List.length h.hashed
  rwa [List.length_map, List.length_map] at hlength

theorem Ended.isRecorded (h : Ended s k talk) (hk : k < s.maxSteps) : IsRecorded s talk where
  toKept := h.toKept
  bounded := by rw [h.length_calls, h.calls]; omega
  ending := Or.inl ⟨by rw [h.length_calls, h.calls, h.steps], h.answer⟩

/-- The turns that are left keep the record. -/
theorem Going.turns (h : Going s k talk) (hk : k + left = s.maxSteps) :
    (∀ t, s.turns left k talk = .ok t → IsRecorded s t) ∧
      ∀ e, s.turns left k talk = .error e → e ≠ .decode := by
  induction left generalizing k talk with
  | zero =>
    refine ⟨fun t ht => ?_, fun e he => nomatch he⟩
    obtain rfl := Except.ok.inj ht
    have hlength := h.length_calls
    exact {
      sent := h.sent, hashed := h.hashed, recorded := h.recorded, once := h.once, seen := h.seen
      history := h.history
      bounded := by rw [← hk]; exact le_of_eq (hlength.trans h.calls)
      ending := Or.inr ⟨(hlength.trans h.calls).trans hk, h.steps.trans hk, rfl, h.noAnswer⟩ }
  | succ left ih =>
    have hleads := h.leads_turn
    rw [Setting.turns]
    cases hturn : s.turn k talk with
    | next talk =>
      rw [hturn] at hleads
      exact ih hleads (by omega)
    | done talk =>
      rw [hturn] at hleads
      refine ⟨fun t ht => ?_, fun e he => nomatch he⟩
      obtain rfl := Except.ok.inj ht
      exact Ended.isRecorded hleads (by omega)
    | raised e =>
      rw [hturn] at hleads
      refine ⟨fun t ht => (nomatch ht), fun e' he => ?_⟩
      obtain rfl := Except.error.inj he
      exact hleads

end Whole

end BareAnalysis.Investigate
