import Swarm.Conductors.Outcome
import Swarm.GithubTasks

/-!
# The other conductors, and `build_conductor`

`conductor.py` runs a process for each task, `conductors/sdk.py` listens to the stream of a query.
What they call is a parameter: the end of a process, the messages of a query.
-/

namespace Swarm.Conductors

open Kanban Supervisor
open GithubTasks (strip textOr)

/-! ## Texts -/

/-- `s or None` -/
def orNone (s : String) : Option String := if s = "" then none else some s

/-- `(s or "").strip()` -/
def stripped (s : Option String) : String := strip (s.getD "")

/-- `s[-n:]` -/
def lastChars (n : Nat) (s : String) : String := String.ofList (s.toList.drop (s.toList.length - n))

/-- A failure that cost nothing. -/
def failedWith (error : String) : DispatchResult := ⟨.failed, 0, none, some error, none⟩

/-! ## Processes -/

/-- The arguments of `subprocess.run`. -/
structure Spawn where
  cmd : List String
  input : String
  cwd : Option String
  env : Option (List (String × String))
  timeoutS : Int

/-- How the process of a task ends. -/
inductive ProcessEnd
  | exited (returncode : Int) (stdout stderr : Option String)
  /-- `FileNotFoundError` or `TimeoutExpired`, by its text. -/
  | caught (text : String)
  | raised (e : Raised)

/-- What both process conductors make of the end. -/
def processAnswer (label : String) : ProcessEnd → Answer
  | .raised e => .error e
  | .caught text => .ok (failedWith (label ++ ": " ++ text))
  | .exited returncode stdout stderr =>
    if returncode = 0 then .ok ⟨.done, 0, orNone (stripped stdout), none, none⟩
    else .ok ⟨.failed, 0, orNone (stripped stdout), orNone (lastChars 2000 (stripped stderr)), none⟩

structure SubprocessConductor where
  commandFactory : Head → Kanban.Task → Except Raised (List String)
  cwd : Option String
  env : Option (List (String × String))
  timeoutS : Int

/-- `cmd[0]` of no command, for the log. -/
def indexError : Raised :=
  ⟨.other, none, none, none, "list index out of range", "IndexError('list index out of range')"⟩

/-- `dispatch` of a conductor that is given its command line. -/
def SubprocessConductor.dispatch (c : SubprocessConductor) (ends : Spawn → ProcessEnd) (head : Head)
    (task : Kanban.Task) : Answer :=
  match c.commandFactory head task with
  | .error e => .error e
  | .ok [] => .error indexError
  | .ok cmd => processAnswer "subprocess error" (ends ⟨cmd, task.prompt, c.cwd, c.env.filter (· ≠ []), c.timeoutS⟩)

structure ClaudeCLIConductor where
  cwd : Option String
  extraArgs : List String
  timeoutS : Int
  modelOverride : Option String

variable (profile : Head → Profile)

/-- `self.model_override or head.default_model` -/
def modelFor (modelOverride : Option String) (head : Head) : String :=
  (modelOverride.bind orNone).getD (profile head).defaultModel

/-- `dispatch` of the CLI conductor: its own command line, the same reading of the end. -/
def ClaudeCLIConductor.dispatch (c : ClaudeCLIConductor) (ends : Spawn → ProcessEnd) (head : Head)
    (task : Kanban.Task) : Answer :=
  processAnswer "claude CLI error" (ends {
    cmd := ["claude", "--print", "--model", modelFor profile c.modelOverride head] ++ c.extraArgs
    input := task.prompt
    cwd := c.cwd
    env := none
    timeoutS := c.timeoutS })

/-! ## The SDK -/

structure ResultMessage where
  result : Option String
  totalCostUsd : Option ℚ
  subtype : Option String
  isError : Bool

/-- A message of the stream of `query()`. -/
inductive SdkMessage
  /-- The texts of the blocks, `none` for a block that is no `TextBlock`. -/
  | assistant (content : List (Option String))
  | result (r : ResultMessage)
  | other

/-- How the stream ends. -/
inductive SdkEnd
  | completed
  | cliNotFound (text : String)
  | processError (exitCode text : String)
  | sdkError (text : String)
  | raised (e : Raised)

structure SdkOptions where
  model : String
  systemPrompt : String
  allowedTools : List String
  cwd : Option String
  maxTurns : Int
  maxBudgetUsd : ℚ
  permissionMode : String
  apiKey : String

structure SDKConductor where
  modelOverride : Option String
  maxBudgetUsd : ℚ
  cwd : Option String
  permissionMode : String

variable (allowedTools : Head → List String)

def SDKConductor.options (c : SDKConductor) (head : Head) (task : Kanban.Task) (key : String) :
    SdkOptions where
  model := modelFor profile c.modelOverride head
  systemPrompt := (profile head).systemPrompt
  allowedTools := allowedTools head
  cwd := c.cwd
  maxTurns := task.maxTurns
  maxBudgetUsd := c.maxBudgetUsd
  permissionMode := c.permissionMode
  apiKey := key

/-- What one dispatch finds: the import, the key and the stream of `query`. -/
structure SdkSession where
  imported : Except String Unit
  apiKey : Option String
  query : String → SdkOptions → List SdkMessage × SdkEnd

/-- What the loop over the stream keeps. -/
structure Heard where
  lastAssistantText : String
  resultMsg : Option ResultMessage

/-- The texts of a message that are not empty. -/
def textParts (content : List (Option String)) : List String :=
  content.filterMap fun text => text.bind orNone

/-- The loop keeps the last words of the assistant and the last result. -/
def hear (h : Heard) : SdkMessage → Heard
  | .assistant content =>
    if textParts content = [] then h else { h with lastAssistantText := "\n".intercalate (textParts content) }
  | .result r => { h with resultMsg := some r }
  | .other => h

def listen (messages : List SdkMessage) : Heard := messages.foldl hear ⟨"", none⟩

/-- The answer after a stream that ran to its end. -/
def Heard.report (h : Heard) : DispatchResult :=
  match h.resultMsg with
  | none =>
    ⟨.failed, 0, orNone h.lastAssistantText, some "SDKConductor: query() completed without a ResultMessage.", none⟩
  | some r =>
    let text := (r.result.bind orNone).or (orNone h.lastAssistantText)
    let cost := r.totalCostUsd.getD 0
    if r.isError then ⟨.failed, cost, text, some (textOr r.subtype "sdk_error"), none⟩
    else ⟨.done, cost, text, none, none⟩

/-- What the dispatch makes of a stream and of the way in which it ends. -/
def sdkAnswer : List SdkMessage × SdkEnd → Answer
  | (messages, .completed) => .ok (listen messages).report
  | (_, .cliNotFound text) => .ok (failedWith ("claude CLI not found: " ++ text))
  | (_, .processError exitCode text) =>
    .ok (failedWith ("claude process error (exit=" ++ exitCode ++ "): " ++ text))
  | (_, .sdkError text) => .ok (failedWith ("claude SDK error: " ++ text))
  | (_, .raised e) => .error e

def SDKConductor.dispatch (c : SDKConductor) (session : SdkSession) (head : Head)
    (task : Kanban.Task) : Answer :=
  match session.imported with
  | .error text => .ok (failedWith ("claude_agent_sdk not installed: " ++ text))
  | .ok () =>
    match session.apiKey.bind orNone with
    | none => .ok (failedWith "ANTHROPIC_API_KEY is not set; SDKConductor requires an explicit key.")
    | some key =>
      sdkAnswer (session.query task.prompt (c.options profile allowedTools head task key))

/-! ## The factory -/

/-- What `build_conductor` builds. -/
inductive Backend
  | stub (demoDelayS : ℚ)
  | claude (c : ClaudeCLIConductor)
  | api (c : ApiConductor)
  | sdk (c : SDKConductor)

def DEFAULT_CONDUCTOR : String := "api"

/-- The one place that selects a conductor. Its deprecation warning is left out. -/
def buildConductor (sp : Spelling) (name : String) (modelOverride : Option String)
    (demoDelayS : ℚ) :
    Except PyError Backend :=
  if name = "stub" then .ok (.stub demoDelayS)
  else if name = "claude" then .ok (.claude ⟨none, [], 600, modelOverride⟩)
  else if name = "api" then .ok (.api ⟨modelOverride, 5, []⟩)
  else if name = "sdk" then .ok (.sdk ⟨modelOverride, 5, none, "bypassPermissions"⟩)
  else .error (.valueError ("Unknown conductor name " ++ sp.quote name ++
    "; expected one of: stub, claude, api, sdk."))

/-- What the world does in one dispatch. -/
structure Outside where
  ends : Spawn → ProcessEnd
  session : Session
  sdk : SdkSession

def Backend.dispatch (backend : Backend) (o : Outside) (head : Head)
    (task : Kanban.Task) : Answer :=
  match backend with
  | .stub _ => .ok ⟨.done, 0, none, none, none⟩
  | .claude c => c.dispatch profile o.ends head task
  | .api c => (Conductors.dispatch c profile o.session head task).1
  | .sdk c => c.dispatch profile allowedTools o.sdk head task

/-! ## What the loop over a stream keeps -/

/-- The text of a message that says something. -/
def SdkMessage.said : SdkMessage → Option String
  | .assistant content =>
    if textParts content = [] then none else some ("\n".intercalate (textParts content))
  | .result _ | .other => none

def SdkMessage.result? : SdkMessage → Option ResultMessage
  | .result r => some r
  | .assistant _ | .other => none

/-- The last words of the assistant in a stream. -/
def lastSaid (messages : List SdkMessage) : Option String :=
  (messages.filterMap SdkMessage.said).getLast?

/-- The last result in a stream. -/
def lastResult (messages : List SdkMessage) : Option ResultMessage :=
  (messages.filterMap SdkMessage.result?).getLast?

theorem listen_eq (messages : List SdkMessage) :
    listen messages = ⟨(lastSaid messages).getD "", lastResult messages⟩ := by
  -- Only the last words and the last result count, in whichever order they came.
  induction messages using List.reverseRecOn with
  | nil => rfl
  | append_singleton messages m ih =>
    have hsnoc : listen (messages ++ [m]) = hear (listen messages) m := by simp [listen]
    rw [hsnoc, ih]
    simp only [lastSaid, lastResult, List.filterMap_append]
    cases m with
    | assistant content =>
      by_cases hparts : textParts content = []
      · simp [hear, hparts, SdkMessage.said, SdkMessage.result?]
      · simp [hear, hparts, SdkMessage.said, SdkMessage.result?]
    | result r => simp [hear, SdkMessage.said, SdkMessage.result?]
    | other => simp [hear, SdkMessage.said, SdkMessage.result?]

/-- The stream that a dispatch listens to, if it gets to one. -/
def SDKConductor.stream (c : SDKConductor) (session : SdkSession) (head : Head)
    (task : Kanban.Task) :
    Option (List SdkMessage × SdkEnd) :=
  match session.imported, session.apiKey.bind orNone with
  | .ok (), some key =>
    some (session.query task.prompt (c.options profile allowedTools head task key))
  | _, _ => none

theorem sdk_dispatch_eq (c : SDKConductor) (session : SdkSession) (head : Head) (task : Kanban.Task)
    {stream : List SdkMessage × SdkEnd}
    (h : c.stream profile allowedTools session head task = some stream) :
    c.dispatch profile allowedTools session head task = sdkAnswer stream := by
  unfold SDKConductor.stream at h
  split at h
  · next key himported hkey =>
    cases h
    simp only [SDKConductor.dispatch, himported, hkey]
  · cases h

theorem sdk_dispatch_none (c : SDKConductor) (session : SdkSession) (head : Head)
    (task : Kanban.Task) (h : c.stream profile allowedTools session head task = none) :
    ∃ error, c.dispatch profile allowedTools session head task = .ok (failedWith error) := by
  unfold SDKConductor.dispatch
  split
  · exact ⟨_, rfl⟩
  · next himported =>
    split
    · exact ⟨_, rfl⟩
    · next key hkey => simp [SDKConductor.stream, himported, hkey] at h

theorem orNone_getD (s : Option String) : orNone (s.getD "") = s.bind orNone := by
  cases s <;> rfl

theorem report_done_iff (h : Heard) :
    h.report.status = .done ↔ ∃ r, h.resultMsg = some r ∧ r.isError = false := by
  unfold Heard.report
  cases h.resultMsg with
  | none => simp
  | some r => cases herror : r.isError <;> simp [herror]

theorem report_costUsd (h : Heard) :
    h.report.costUsd = (h.resultMsg.bind (·.totalCostUsd)).getD 0 := by
  unfold Heard.report
  cases h.resultMsg with
  | none => rfl
  | some r => cases herror : r.isError <;> simp [herror]

theorem report_result (h : Heard) :
    h.report.result = ((h.resultMsg.bind (·.result)).bind orNone).or (orNone h.lastAssistantText) := by
  unfold Heard.report
  cases h.resultMsg with
  | none => rfl
  | some r => cases herror : r.isError <;> simp [herror]

/-- **A dispatch over the SDK is DONE exactly when the stream ran to its end and its last result is
no error. Its cost is that of the last result, and its text that result's, or else the last words
of the assistant.** -/
theorem sdk_law (c : SDKConductor) (session : SdkSession) (head : Head) (task : Kanban.Task)
    (o : DispatchResult) (h : c.dispatch profile allowedTools session head task = .ok o) :
    let stream := c.stream profile allowedTools session head task
    (o.status = .done ↔ ∃ messages r, stream = some (messages, .completed) ∧ lastResult messages = some r ∧
        r.isError = false) ∧
      (∀ messages, stream = some (messages, .completed) →
        o.costUsd = ((lastResult messages).bind (·.totalCostUsd)).getD 0 ∧
          o.result = (((lastResult messages).bind (·.result)).bind orNone).or ((lastSaid messages).bind orNone)) ∧
      ((∀ messages, stream ≠ some (messages, .completed)) → o.costUsd = 0 ∧ o.result = none) := by
  intro stream
  cases hstream : c.stream profile allowedTools session head task with
  | none =>
    obtain ⟨error, hfailed⟩ := sdk_dispatch_none profile allowedTools c session head task hstream
    cases h.symm.trans hfailed
    simp [stream, hstream, failedWith]
  | some heard =>
    obtain ⟨messages, ending⟩ := heard
    have hanswer := h.symm.trans (sdk_dispatch_eq profile allowedTools c session head task hstream)
    cases ending with
    | completed =>
      cases hanswer
      rw [report_done_iff, report_costUsd, report_result, listen_eq, orNone_getD]
      simp [stream, hstream]
    | cliNotFound _ | processError _ _ | sdkError _ =>
      cases hanswer
      simp [stream, hstream, failedWith]
    | raised e => cases hanswer

/-- The conductor with its defaults. -/
def shippedSdk : SDKConductor := ⟨none, 5, none, "bypassPermissions"⟩

/-- The budget runs out after a word of the assistant. -/
def overrun : List SdkMessage :=
  [.assistant [some "On it.", none], .other, .result ⟨none, some 5, some "error_max_budget_usd", true⟩]

def overBudget : SdkSession := ⟨.ok (), some "sk-test-key", fun _ _ => (overrun, .completed)⟩

def budgetSpent : DispatchResult := ⟨.failed, 5, some "On it.", some "error_max_budget_usd", none⟩

theorem overBudget_dispatch (head : Head) (task : Kanban.Task) :
    shippedSdk.dispatch sonnet (fun _ => []) overBudget head task = .ok budgetSpent := by
  have hkey : (some "sk-test-key").bind orNone = some "sk-test-key" := by decide
  have hheard : listen overrun = ⟨"On it.", some ⟨none, some 5, some "error_max_budget_usd", true⟩⟩ := by
    simp [overrun, listen, hear, textParts, orNone]
  simp only [SDKConductor.dispatch, overBudget, hkey, sdkAnswer, hheard]
  simp [Heard.report, orNone, textOr, budgetSpent]

theorem overBudget_law :
    ¬ ∃ messages r, shippedSdk.stream sonnet (fun _ => []) overBudget ⟨"builder"⟩ (Task.new "t1" 0) =
      some (messages, .completed) ∧ lastResult messages = some r ∧ r.isError = false := by
  obtain ⟨hdone, -, -⟩ :=
    sdk_law sonnet (fun _ => []) shippedSdk overBudget ⟨"builder"⟩ (Task.new "t1" 0) budgetSpent
    (overBudget_dispatch _ _)
  exact fun h => absurd (hdone.mpr h) (by decide)

/-! ## What a supervisor may rely on -/

theorem orNone_ne (s : String) : orNone s ≠ some "" := by
  unfold orNone
  split
  · simp
  · next hne => simpa using hne

/-- An answer is DONE or FAILED, its result is no empty text, a DONE one has no error, and a FAILED
one has one unless it is `mute`. -/
structure Reported (mute : Prop) (o : DispatchResult) : Prop where
  settled : o.status = .done ∨ o.status = .failed
  result : o.result ≠ some ""
  done : o.status = .done → o.error = none
  failed : o.status = .failed → o.error.isSome ∨ mute

theorem Reported.mono {mute mute' : Prop} {o : DispatchResult} (h : Reported mute o)
    (hmute : mute → mute') :
    Reported mute' o :=
  ⟨h.settled, h.result, h.done, fun hfailed => (h.failed hfailed).imp_right hmute⟩

theorem reported_failedWith (mute : Prop) (error : String) : Reported mute (failedWith error) :=
  ⟨.inr rfl, by simp [failedWith], by simp [failedWith], fun _ => .inl rfl⟩

theorem reported_done (mute : Prop) (cost : ℚ) (result : Option String)
    (hresult : result ≠ some "") :
    Reported mute ⟨.done, cost, result, none, none⟩ :=
  ⟨.inl rfl, hresult, fun _ => rfl, by simp⟩

theorem reported_failed (mute : Prop) (cost : ℚ) (result error : Option String)
    (hresult : result ≠ some "") (herror : error.isSome ∨ mute) :
    Reported mute ⟨.failed, cost, result, error, none⟩ :=
  ⟨.inr rfl, hresult, by simp, fun _ => herror⟩

/-- The process failed without a word. -/
def ProcessEnd.Mute : ProcessEnd → Prop
  | .exited returncode _ stderr => returncode ≠ 0 ∧ stripped stderr = ""
  | .caught _ | .raised _ => False

theorem lastChars_ne {n : Nat} (hn : 0 < n) {s : String} (hs : s ≠ "") : lastChars n s ≠ "" := by
  intro hempty
  have hlist : s.toList.drop (s.toList.length - n) = [] := by
    simpa [lastChars] using congrArg String.toList hempty
  have hlen : 0 < s.toList.length := by
    rw [List.length_pos_iff, ne_eq, String.toList_eq_nil_iff]
    exact hs
  rw [List.drop_eq_nil_iff] at hlist
  omega

theorem process_reported {label : String} {ending : ProcessEnd} {o : DispatchResult}
    (h : processAnswer label ending = .ok o) : Reported ending.Mute o := by
  cases ending with
  | raised e => cases h
  | caught text =>
    cases h
    exact reported_failedWith _ _
  | exited returncode stdout stderr =>
    simp only [processAnswer] at h
    split at h
    · cases h
      exact reported_done _ _ _ (orNone_ne _)
    · next hcode =>
      cases h
      refine reported_failed _ _ _ _ (orNone_ne _) ?_
      by_cases hblank : stripped stderr = ""
      · exact .inr ⟨hcode, hblank⟩
      · have hlast : lastChars 2000 (stripped stderr) ≠ "" := lastChars_ne (by decide) hblank
        exact .inl (by simp [orNone, hlast])

theorem report_reported (h : Heard) : Reported False h.report := by
  have htext : ∀ r : ResultMessage, (r.result.bind orNone).or (orNone h.lastAssistantText) ≠ some "" := by
    intro r
    cases hresult : r.result.bind orNone with
    | none => simpa using orNone_ne h.lastAssistantText
    | some text =>
      obtain ⟨raw, -, hraw⟩ := Option.bind_eq_some_iff.mp hresult
      simpa using fun hempty => orNone_ne raw (hraw.trans (congrArg some hempty))
  unfold Heard.report
  split
  · exact reported_failed _ _ _ _ (orNone_ne _) (.inl rfl)
  · next r _ =>
    dsimp only
    split
    · exact reported_failed _ _ _ _ (htext r) (.inl rfl)
    · exact reported_done _ _ _ (htext r)

theorem sdkAnswer_reported {stream : List SdkMessage × SdkEnd} {o : DispatchResult}
    (h : sdkAnswer stream = .ok o) :
    Reported False o := by
  obtain ⟨messages, ending⟩ := stream
  cases ending with
  | completed =>
    cases h
    exact report_reported _
  | cliNotFound _ | processError _ _ | sdkError _ =>
    cases h
    exact reported_failedWith _ _
  | raised e => cases h

theorem sdk_reported {c : SDKConductor} {session : SdkSession} {head : Head} {task : Kanban.Task}
    {o : DispatchResult} (h : c.dispatch profile allowedTools session head task = .ok o) :
    Reported False o := by
  unfold SDKConductor.dispatch at h
  split at h
  · cases h
    exact reported_failedWith _ _
  · split at h
    · cases h
      exact reported_failedWith _ _
    · exact sdkAnswer_reported h

theorem turns_reported {c : ApiConductor} {head : Head} {task : Kanban.Task}
    {answers : Nat → Except Raised Response} {left : Nat} {t : Turns} {o : DispatchResult}
    (h : (turns c profile head task answers left t).1 = .ok o) :
    Reported False o := by
  induction left generalizing t with
  | zero =>
    cases h
    exact reported_failed _ _ _ _ (by simp) (.inl rfl)
  | succ left ih =>
    simp only [turns] at h
    split at h
    · cases h
    · split at h
      · cases h
      · split at h
        · cases h
          exact reported_done _ _ _ (orNone_ne _)
        · split at h
          · cases h
            exact reported_failed _ _ _ _ (by simp) (.inl rfl)
          · exact ih h

theorem api_reported {c : ApiConductor} {session : Session} {head : Head} {task : Kanban.Task}
    {o : DispatchResult} (h : (dispatch c profile session head task).1 = .ok o) :
    Reported False o := by
  unfold dispatch at h
  split at h
  · cases h
  · exact turns_reported profile h

end Swarm.Conductors
