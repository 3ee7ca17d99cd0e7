import Mathlib.Data.List.Chain
import Mathlib.Data.List.Forall2
import Swarm.Conductors.Outcome

/-!
# The conversation of a dispatch

What is sent grows by one response and its tool results a turn. The two budgets bound the turns,
and a finished answer is handed back unless it cannot be priced.
-/

namespace Swarm.Conductors

open Kanban Supervisor

/-! ## Well-formed conversations -/

inductive Role
  | user
  | assistant
  deriving DecidableEq

def Message.role : Message → Role
  | .prompt _ | .toolResults _ => .user
  | .assistant _ => .assistant

def toolUses (content : List Block) : List Block := content.filter (·.type == some "tool_use")

/-- One result for each tool use, in order, under its id. -/
def Answers (content : List Block) (results : List ToolResult) : Prop :=
  List.Forall₂ (fun block result => ∀ id, block.id = some id → result.toolUseId = id)
    (toolUses content) results

/-- The prompt, and then answers and tool results in turn. -/
structure Conversation (prompt : String) (messages : List Message) : Prop where
  opens : messages.head? = some (.prompt prompt)
  alternates : messages.IsChain fun a b => a.role ≠ b.role
  answered : ∀ i content, messages[i]? = some (.assistant content) →
    ∃ results, messages[i + 1]? = some (.toolResults results) ∧ Answers content results

theorem toolResults_answers (content : List Block) : Answers content (toolResults content) := by
  unfold Answers toolResults toolUses
  rw [List.forall₂_map_right_iff, List.forall₂_same]
  intro block _ id hid
  rw [hid]
  rfl

/-- What the loop adds to the conversation for responses that ask for tools. -/
def exchanges (responses : List Response) : List Message :=
  responses.flatMap fun r => [.assistant r.content, .toolResults (toolResults r.content)]

theorem exchanges_alternate (m : Message) (hm : m.role = .user) (responses : List Response) :
    (m :: exchanges responses).IsChain fun a b => a.role ≠ b.role := by
  induction responses generalizing m with
  | nil => exact .singleton m
  | cons r rest ih =>
    refine .cons_cons (by rw [hm]; simp [Message.role]) (.cons_cons (by simp [Message.role]) ?_)
    exact ih _ rfl

theorem exchanges_answered (responses : List Response) (i : Nat) (content : List Block)
    (h : (exchanges responses)[i]? = some (.assistant content)) :
    ∃ results, (exchanges responses)[i + 1]? = some (.toolResults results) ∧
      Answers content results := by
  induction responses generalizing i with
  | nil => simp [exchanges] at h
  | cons r rest ih =>
    match i with
    | 0 =>
      obtain rfl : r.content = content := by simpa [exchanges] using h
      exact ⟨_, rfl, toolResults_answers _⟩
    | 1 => simp [exchanges] at h
    | i + 2 => exact ih i h

theorem history_conversation (prompt : String) (responses : List Response) :
    Conversation prompt (history prompt responses) where
  opens := rfl
  alternates := exchanges_alternate (.prompt prompt) rfl responses
  answered i content h := by
    cases i with
    | zero => simp [history] at h
    | succ i => exact exchanges_answered responses i content h

/-! ## What a dispatch promises -/

variable (c : ApiConductor) (profile : Head → Profile) (session : Session) (head : Head)
  (task : Kanban.Task)

/-- The text of a finished answer as a result. -/
def asResult (text : String) : Option String := if text = "" then none else some text

/-- What a dispatch promises, one clause for each field. -/
structure Promised (out : Answer × List Call) : Prop where
  turns : (out.2.length : Int) ≤ max 0 task.maxTurns
  /-- Before every call but the first, the responses so far cost less than the cap. -/
  cap : ∀ k, 0 < k → k < out.2.length → ∃ total,
    priceAll (c.model profile head) (received (out.2.take k)) = .ok total ∧ total < c.costCapUsd
  conversation : ∀ call ∈ out.2, Conversation task.prompt call.request.messages
  /-- A response that does not ask for tools is the last, and its text is the result. -/
  finished : ∀ before call after r, out.2 = before ++ call :: after → call.answer = .ok r →
    r.stopReason ≠ some "tool_use" →
    after = [] ∧ ∃ o, out.1 = .ok o ∧ o.result = asResult (extractText r.content)
  cost : ∀ o, out.1 = .ok o → priceAll (c.model profile head) (received out.2) = .ok o.costUsd

/-- The response that does not ask for tools, if the loop gets to it, has a price. -/
def FinishPriced : Prop :=
  session.client = .ok () → ∀ k < task.maxTurns.toNat, Reaches c profile session head k →
    ∀ r, session.answers k = .ok r → r.stopReason ≠ some "tool_use" →
      ∃ cost, turnCost (c.model profile head) r.usage = .ok cost

section Reached

variable {c profile session head task} {k : Nat} {total : ℚ} {answer : Answer}

theorem firstCalls_take {j : Nat} (hj : j ≤ k) :
    (firstCalls c profile session head task k).take j =
      firstCalls c profile session head task j := by
  rw [firstCalls, ← List.map_take, List.take_range, Nat.min_eq_left hj, firstCalls]

theorem mem_firstCalls {call : Call} (h : call ∈ firstCalls c profile session head task k) :
    ∃ j < k, call = callAt c profile session head task j := by
  obtain ⟨j, hj, rfl⟩ := List.mem_map.mp h
  exact ⟨j, List.mem_range.mp hj, rfl⟩

theorem firstCalls_conversation :
    ∀ call ∈ firstCalls c profile session head task k,
      Conversation task.prompt call.request.messages := by
  intro call hcall
  obtain ⟨j, -, rfl⟩ := mem_firstCalls hcall
  exact history_conversation _ _

theorem Reaches.cap (h : Reaches c profile session head k) {j : Nat} (hpos : 0 < j) (hj : j ≤ k) :
    ∃ total, priceAll (c.model profile head) (firstResponses session j) = .ok total ∧
      total < c.costCapUsd := by
  obtain ⟨i, rfl⟩ := Nat.exists_eq_succ_of_ne_zero hpos.ne'
  obtain ⟨r, total, -, -, htotal, hcap⟩ := h i (Nat.lt_of_succ_le hj)
  exact ⟨total, htotal, hcap⟩

theorem Reaches.tools (h : Reaches c profile session head k) {j : Nat} (hj : j < k) {r : Response}
    (hr : session.answers j = .ok r) : r.stopReason = some "tool_use" := by
  obtain ⟨r', -, hr', htool, -⟩ := h j hj
  obtain rfl := Except.ok.inj (hr.symm.trans hr')
  exact htool

theorem Stops.cost (h : Stops c profile session head task k total answer)
    (hprice : priceAll (c.model profile head) (firstResponses session k) = .ok total)
    {o : DispatchResult} (ho : answer = .ok o) :
    priceAll (c.model profile head) (firstResponses session (k + 1)) = .ok o.costUsd := by
  have hsum : ∀ r cost, session.answers k = .ok r →
      turnCost (c.model profile head) r.usage = .ok cost →
      priceAll (c.model profile head) (firstResponses session (k + 1)) = .ok (total + cost) := by
    intro r cost hr hcost
    rw [firstResponses_succ, hr]
    exact (priceAll_snoc hprice r).trans (by rw [hcost]; rfl)
  cases h with
  | raised e _ => cases ho
  | unpriced r e _ _ => cases ho
  | done r cost hr _ hcost =>
    obtain rfl := Except.ok.inj ho
    exact hsum r cost hr hcost
  | capped r cost hr _ hcost _ =>
    obtain rfl := Except.ok.inj ho
    exact hsum r cost hr hcost

end Reached

theorem firstCalls_split {k : Nat} {before after : List Call} {call : Call}
    (h : firstCalls c profile session head task k = before ++ call :: after) :
    before.length < k ∧ call = callAt c profile session head task before.length ∧
      k = before.length + 1 + after.length := by
  have hlen := congrArg List.length h
  simp only [length_firstCalls, List.length_append, List.length_cons] at hlen
  have hlt : before.length < k := by omega
  have hget := congrArg (·[before.length]?) h
  simp only [firstCalls, List.getElem?_map, List.getElem?_range hlt, Option.map_some,
    List.getElem?_append_right (Nat.le_refl _), Nat.sub_self, List.getElem?_cons_zero,
    Option.some.injEq] at hget
  exact ⟨hlt, hget.symm, by omega⟩

/-! ## When the promise is kept -/

theorem finishPriced_of_promised
    (h : Promised c profile head task (dispatch c profile session head task)) :
    FinishPriced c profile session head task := by
  intro hclient k hk hreach r hr hother
  obtain ⟨total, -, hstops, hcalls⟩ := stops_at c profile session head task hclient hk hreach
    (not_goesOn_of_other c profile session head hr hother)
  rw [firstCalls_succ] at hcalls
  obtain ⟨-, o, ho, -⟩ := h.finished _ (callAt c profile session head task k) [] r hcalls hr hother
  rw [ho] at hstops
  cases hstops with
  | done r' cost hr' _ hcost =>
    obtain rfl := Except.ok.inj (hr.symm.trans hr')
    exact ⟨cost, hcost⟩
  | capped r' cost hr' _ hcost _ =>
    obtain rfl := Except.ok.inj (hr.symm.trans hr')
    exact ⟨cost, hcost⟩

theorem promised_of_exhausted {k : Nat} {total : ℚ} (hk : k = task.maxTurns.toNat)
    (hreach : Reaches c profile session head k)
    (hprice : priceAll (c.model profile head) (firstResponses session k) = .ok total) :
    Promised c profile head task
      (.ok (exhausted task total), firstCalls c profile session head task k) := by
  constructor
  case turns => simp only [length_firstCalls]; omega
  case cap =>
    intro j hpos hj
    rw [length_firstCalls] at hj
    rw [firstCalls_take hj.le, received_firstCalls]
    exact hreach.cap hpos hj.le
  case conversation => exact firstCalls_conversation
  case finished =>
    intro before call after r hsplit hanswer hother
    obtain ⟨hlt, rfl, -⟩ := firstCalls_split c profile session head task hsplit
    exact absurd (hreach.tools hlt hanswer) hother
  case cost =>
    intro o ho
    obtain rfl := Except.ok.inj ho
    rw [received_firstCalls]
    exact hprice

theorem promised_of_stops {k : Nat} {total : ℚ} {answer : Answer} (hk : k < task.maxTurns.toNat)
    (hreach : Reaches c profile session head k)
    (hprice : priceAll (c.model profile head) (firstResponses session k) = .ok total)
    (hstops : Stops c profile session head task k total answer)
    (hpriced : ∀ r, session.answers k = .ok r → r.stopReason ≠ some "tool_use" →
      ∃ cost, turnCost (c.model profile head) r.usage = .ok cost) :
    Promised c profile head task (answer, firstCalls c profile session head task (k + 1)) := by
  constructor
  case turns => simp only [length_firstCalls]; omega
  case cap =>
    intro j hpos hj
    rw [length_firstCalls] at hj
    rw [firstCalls_take hj.le, received_firstCalls]
    exact hreach.cap hpos (Nat.le_of_lt_succ hj)
  case conversation => exact firstCalls_conversation
  case finished =>
    intro before call after r hsplit hanswer hother
    obtain ⟨hlt, rfl, hlen⟩ := firstCalls_split c profile session head task hsplit
    rcases Nat.lt_succ_iff_lt_or_eq.mp hlt with hbefore | rfl
    · exact absurd (hreach.tools hbefore hanswer) hother
    · obtain ⟨cost, hcost⟩ := hpriced r hanswer hother
      exact ⟨List.eq_nil_of_length_eq_zero (by omega), _, hstops.of_other hanswer hother hcost, rfl⟩
  case cost =>
    intro o ho
    rw [received_firstCalls]
    exact hstops.cost hprice ho

/-- **A finished answer is lost only where it has no price.** -/
theorem promised_iff (c : ApiConductor) (profile : Head → Profile) (session : Session) (head : Head)
    (task : Kanban.Task) :
    Promised c profile head task (dispatch c profile session head task) ↔
      FinishPriced c profile session head task := by
  refine ⟨finishPriced_of_promised c profile session head task, fun hpriced => ?_⟩
  cases hclient : session.client with
  | error e =>
    have hout : dispatch c profile session head task = (.error e, []) := by
      unfold dispatch
      rw [hclient]
    rw [hout]
    exact ⟨by simp, fun k _ hk => by simp at hk, by simp, fun before call after r h => by simp at h,
      fun o ho => by cases ho⟩
  | ok u =>
    obtain ⟨k, total, -, hreach, hprice, ⟨hk, hout⟩ | ⟨hk, hstops, hcalls⟩⟩ :=
      dispatch_ended c profile session head task hclient
    · rw [hout]
      exact promised_of_exhausted c profile session head task hk hreach hprice
    · have hpromised := promised_of_stops c profile session head task hk hreach hprice hstops
        (hpriced hclient k hk hreach)
      rwa [← hcalls] at hpromised

/-! ## A count that is None -/

/-- The answer is finished, and its usage has no count of cached tokens. -/
def uncounted : Session where
  client := .ok ()
  answers _ := .ok ⟨[⟨some "text", some "42", none, none⟩], ⟨.int 100, .int 50, .null, .int 0, none⟩,
    some "end_turn"⟩

theorem uncounted_loses_answer :
    ¬ Promised plain sonnet ⟨"builder"⟩ (Task.new "a" 0)
      (dispatch plain sonnet uncounted ⟨"builder"⟩ (Task.new "a" 0)) := by
  intro h
  obtain ⟨-, o, ho, -⟩ :=
    h.finished [] (callAt plain sonnet uncounted ⟨"builder"⟩ (Task.new "a" 0) 0) []
    ⟨[⟨some "text", some "42", none, none⟩], ⟨.int 100, .int 50, .null, .int 0, none⟩, some "end_turn"⟩
    rfl rfl (by decide)
  have hraised : (dispatch plain sonnet uncounted ⟨"builder"⟩ (Task.new "a" 0)).1 =
      .error (.typeError "unsupported operand type(s) for *: 'NoneType' and 'float'") := by
    decide +kernel
  rw [hraised] at ho
  cases ho

end Swarm.Conductors
