import Swarm.Cost
import Swarm.Supervisor.Code

/-!
# The API conductor, as `conductors/api.py` computes it

The API is the sequence of its answers to the calls of one dispatch. The calls that were made are
handed back beside the result.
-/

namespace Swarm.Conductors

open Kanban Supervisor

/-! ## What the API answers -/

/-- An attribute of an SDK object: not there, None, or a number. -/
inductive Attr
  | missing
  | null
  | int (n : Int)
  deriving DecidableEq, Repr

/-- `getattr(obj, name, 0)`: none is None. -/
def Attr.orZero : Attr → Option Int
  | .missing => some 0
  | .null => none
  | .int n => some n

/-- `getattr(obj, name, None)`. -/
def Attr.orNone : Attr → Option Int
  | .missing | .null => none
  | .int n => some n

/-- The cache writes by their time to live. -/
structure CacheCreation where
  ephemeral1hInputTokens : Attr
  ephemeral5mInputTokens : Attr
  deriving DecidableEq, Repr

/-- The counts of a response. The SDK leaves some of them out. -/
structure Usage where
  inputTokens : Attr
  outputTokens : Attr
  cacheReadInputTokens : Attr
  cacheCreationInputTokens : Attr
  cacheCreation : Option CacheCreation
  deriving DecidableEq, Repr

/-- A content block; `none` is an attribute that is not there. -/
structure Block where
  type : Option String
  text : Option String
  id : Option String
  name : Option String
  deriving DecidableEq, Repr

/-- A stop reason that is not there, None or empty is `none`. -/
structure Response where
  content : List Block
  usage : Usage
  stopReason : Option String
  deriving DecidableEq, Repr

/-- What the outside does in one dispatch: the import and the client, then the answers. -/
structure Session where
  client : Except Raised Unit
  answers : Nat → Except Raised Response

/-! ## What the conductor sends -/

structure SystemBlock where
  text : String
  cacheControl : Option String
  deriving DecidableEq, Repr

structure ToolResult where
  toolUseId : String
  content : String
  deriving DecidableEq, Repr

/-- A message of the conversation. -/
inductive Message
  | prompt (text : String)
  | assistant (content : List Block)
  | toolResults (results : List ToolResult)
  deriving DecidableEq, Repr

/-- The keyword arguments of `messages.create`; with no tools there is no `tools`. -/
structure Request where
  model : String
  system : List SystemBlock
  messages : List Message
  maxTokens : Int
  tools : List Json

/-- A request with its answer. -/
structure Call where
  request : Request
  answer : Except Raised Response

/-- The first `count` blocks are marked for the cache. -/
def markCachePrefix (blocks : List SystemBlock) (count : Nat) (ttl : String) : List SystemBlock :=
  blocks.mapIdx fun i block => if i < count then { block with cacheControl := some ttl } else block

def CACHE_BLOCK_COUNT : Nat := 1

/-- The texts of the text blocks, line by line. -/
def extractText (content : List Block) : String :=
  "\n".intercalate ((content.filter (·.type == some "text")).filterMap fun block =>
    block.text.filter (· ≠ ""))

/-- Each tool that was asked for is answered as not registered. -/
def toolResults (content : List Block) : List ToolResult :=
  (content.filter (·.type == some "tool_use")).map fun block =>
    { toolUseId := block.id.getD "unknown"
      content := "Tool '" ++ block.name.getD "unknown" ++ "' is not registered in this " ++
        "ApiConductor. Conclude your response without further tool calls." }

/-- What one response costs: `price_call` of its counts. A cache write goes to the 1h dimension,
except what the split says was written for 5m. -/
def turnCost (model : String) (usage : Usage) : Except Raised ℚ :=
  let aggregate := usage.cacheCreationInputTokens.orZero
  let writes : Except Raised (Option Int × Int) :=
    match usage.cacheCreation with
    | none => .ok (aggregate, 0)
    | some split =>
      match split.ephemeral5mInputTokens.orZero with
      | none => .error (.typeError
          "int() argument must be a string, a bytes-like object or a real number, not 'NoneType'")
      | some write5m => .ok (split.ephemeral1hInputTokens.orNone.or aggregate, write5m)
  match writes with
  | .error e => .error e
  | .ok (write1h, write5m) =>
    Cost.priceCall model do
      let input ← usage.inputTokens.orZero
      let cacheRead ← usage.cacheReadInputTokens.orZero
      let output ← usage.outputTokens.orZero
      return ⟨input, cacheRead, write5m, ← write1h, output⟩

/-! ## The loop -/

structure ApiConductor where
  modelOverride : Option String
  costCapUsd : ℚ
  extraTools : List Json

/-- What only this conductor reads of a head. -/
structure Profile where
  systemPrompt : String
  defaultModel : String

variable (c : ApiConductor) (profile : Head → Profile)

/-- The override, unless it is empty, or the model of the head. -/
def ApiConductor.model (head : Head) : String :=
  (c.modelOverride.filter (· ≠ "")).getD (profile head).defaultModel

/-- What the loop holds between two calls. -/
structure Turns where
  messages : List Message
  runningCost : ℚ
  calls : List Call

/-- The request of one turn. -/
def request (head : Head) (task : Kanban.Task) (messages : List Message) : Request where
  model := c.model profile head
  system := markCachePrefix [⟨(profile head).systemPrompt, none⟩] CACHE_BLOCK_COUNT "1h"
  messages := messages
  maxTokens := task.maxTokens
  tools := c.extraTools

def done (text : String) (cost : ℚ) : DispatchResult where
  status := .done
  costUsd := cost
  result := if text = "" then none else some text
  error := none
  prPath := none

/-- The answer when the running cost has reached the cap. -/
def capExceeded (head : Head) (task : Kanban.Task) (cost : ℚ) : DispatchResult where
  status := .failed
  costUsd := cost
  result := none
  error := some ("hard_cost_cap_exceeded: running=$" ++ fixed 4 cost ++ " >= cap=$" ++
    fixed 4 c.costCapUsd ++ " (head=" ++ head.name ++ " task=" ++ task.id ++ " model=" ++
    c.model profile head ++ ")")
  prPath := none

/-- The answer after `max_turns` without an end. -/
def exhausted (task : Kanban.Task) (cost : ℚ) : DispatchResult where
  status := .failed
  costUsd := cost
  result := none
  error := some ("max_turns (" ++ toString task.maxTurns ++ ") exhausted in tool loop without end_turn")
  prPath := none

/-- The loop with `left` turns to go. -/
def turns (head : Head) (task : Kanban.Task) (answers : Nat → Except Raised Response) :
    Nat → Turns → Answer × List Call
  | 0, t => (.ok (exhausted task t.runningCost), t.calls)
  | left + 1, t =>
    let answer := answers t.calls.length
    let calls := t.calls ++ [⟨request c profile head task t.messages, answer⟩]
    match answer with
    | .error e => (.error e, calls)
    | .ok response =>
      match turnCost (c.model profile head) response.usage with
      | .error e => (.error e, calls)
      | .ok cost =>
        let runningCost := t.runningCost + cost
        if response.stopReason ≠ some "tool_use" then
          (.ok (done (extractText response.content) runningCost), calls)
        else if c.costCapUsd ≤ runningCost then
          (.ok (capExceeded c profile head task runningCost), calls)
        else
          turns head task answers left
            { messages := t.messages ++
                [.assistant response.content, .toolResults (toolResults response.content)]
              runningCost := runningCost
              calls := calls }

/-- A client that cannot be built raises before any call. -/
def dispatch (session : Session) (head : Head) (task : Kanban.Task) : Answer × List Call :=
  match session.client with
  | .error e => (.error e, [])
  | .ok () =>
    turns c profile head task session.answers task.maxTurns.toNat ⟨[.prompt task.prompt], 0, []⟩

/-- The conductor that the supervisor holds: a session for each dispatch. -/
def apiConductor (sessions : Nat → Session) : Conductor := fun n head task =>
  (dispatch c profile (sessions n) head task).1

end Swarm.Conductors
