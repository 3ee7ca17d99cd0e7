import Swarm.Conductors.Api

/-!
# Where a dispatch stops

The loop goes on after a response that asks for tools under the cost cap. It stops at the first
turn that does not, and what it hands back depends on the answer of that turn only.
-/

namespace Swarm.Conductors

open Kanban Supervisor

/-! ## The responses and their price -/

/-- The responses that came, without the calls that raised. -/
def received (calls : List Call) : List Response := calls.filterMap fun call => call.answer.toOption

/-- The sum of the prices of the responses, if each has one. -/
def priceAll (model : String) (responses : List Response) : Except Raised ℚ :=
  responses.foldlM (fun total r => (turnCost model r.usage).map (total + ·)) 0

@[simp] theorem priceAll_nil (model : String) : priceAll model [] = .ok 0 := rfl

theorem priceAll_snoc {model : String} {responses : List Response} {total : ℚ}
    (h : priceAll model responses = .ok total) (r : Response) :
    priceAll model (responses ++ [r]) = (turnCost model r.usage).map (total + ·) := by
  rw [priceAll] at h
  rw [priceAll, List.foldlM_append, h]
  simp only [bind, Except.bind, List.foldlM_cons, List.foldlM_nil]
  cases turnCost model r.usage <;> rfl

variable (c : ApiConductor) (profile : Head → Profile) (session : Session) (head : Head)
  (task : Kanban.Task)

/-- The responses among the first `k` answers. -/
def firstResponses (k : Nat) : List Response :=
  (List.range k).filterMap fun i => (session.answers i).toOption

theorem firstResponses_succ (k : Nat) :
    firstResponses session (k + 1) =
      firstResponses session k ++ (session.answers k).toOption.toList := by
  rw [firstResponses, List.range_succ, List.filterMap_append, firstResponses, List.filterMap_cons,
    List.filterMap_nil]
  cases (session.answers k).toOption <;> rfl

/-! ## The calls -/

/-- What has been said: the prompt, then each response with the results of its tools. -/
def history (prompt : String) (responses : List Response) : List Message :=
  .prompt prompt ::
    responses.flatMap fun r => [.assistant r.content, .toolResults (toolResults r.content)]

theorem history_snoc (prompt : String) (responses : List Response) (r : Response) :
    history prompt (responses ++ [r]) =
      history prompt responses ++ [.assistant r.content, .toolResults (toolResults r.content)] := by
  simp [history]

/-- The call of turn `k`, if the loop gets to it. -/
def callAt (k : Nat) : Call where
  request := request c profile head task (history task.prompt (firstResponses session k))
  answer := session.answers k

/-- The first `k` calls of a dispatch that goes on so far. -/
def firstCalls (k : Nat) : List Call := (List.range k).map (callAt c profile session head task)

theorem firstCalls_succ (k : Nat) :
    firstCalls c profile session head task (k + 1) =
      firstCalls c profile session head task k ++ [callAt c profile session head task k] := by
  simp [firstCalls, List.range_succ]

@[simp] theorem length_firstCalls (k : Nat) :
    (firstCalls c profile session head task k).length = k := by
  simp [firstCalls]

@[simp] theorem received_firstCalls (k : Nat) :
    received (firstCalls c profile session head task k) = firstResponses session k := by
  rw [received, firstCalls, List.filterMap_map]
  rfl

/-! ## Going on -/

/-- The answer of turn `k` asks for tools, and its price leaves the dispatch under the cap. -/
def GoesOn (k : Nat) : Prop :=
  ∃ r total, session.answers k = .ok r ∧ r.stopReason = some "tool_use" ∧
    priceAll (c.model profile head) (firstResponses session (k + 1)) = .ok total ∧ total < c.costCapUsd

/-- Every turn before `k` goes on. -/
def Reaches (k : Nat) : Prop := ∀ j < k, GoesOn c profile session head j

variable {c profile session head} in
theorem Reaches.price {k : Nat} (h : Reaches c profile session head k) :
    ∃ total, priceAll (c.model profile head) (firstResponses session k) = .ok total := by
  cases k with
  | zero => exact ⟨0, rfl⟩
  | succ k =>
    obtain ⟨r, total, -, -, htotal, -⟩ := h k (Nat.lt_succ_self k)
    exact ⟨total, htotal⟩

variable {c profile session head} in
theorem reaches_unique {n k k' : Nat} (hk : k < n) (h : Reaches c profile session head k)
    (hstop : ¬ GoesOn c profile session head k) (h' : Reaches c profile session head k')
    (hstop' : k' < n → ¬ GoesOn c profile session head k') : k' = k := by
  rcases lt_trichotomy k' k with hlt | heq | hgt
  · exact absurd (h k' hlt) (hstop' (by omega))
  · exact heq
  · exact absurd (h' k hgt) hstop

/-- What comes of the turn at which the loop stops, the cost of the turns before being `total`. -/
inductive Stops (k : Nat) (total : ℚ) : Answer → Prop
  | raised (e : Raised) : session.answers k = .error e → Stops k total (.error e)
  | unpriced (r : Response) (e : Raised) : session.answers k = .ok r →
      turnCost (c.model profile head) r.usage = .error e → Stops k total (.error e)
  | done (r : Response) (cost : ℚ) : session.answers k = .ok r → r.stopReason ≠ some "tool_use" →
      turnCost (c.model profile head) r.usage = .ok cost →
      Stops k total (.ok (done (extractText r.content) (total + cost)))
  | capped (r : Response) (cost : ℚ) : session.answers k = .ok r → r.stopReason = some "tool_use" →
      turnCost (c.model profile head) r.usage = .ok cost → c.costCapUsd ≤ total + cost →
      Stops k total (.ok (capExceeded c profile head task (total + cost)))

/-- Where the loop stops, and with what. -/
structure StopsAt (n k : Nat) (total : ℚ) (out : Answer × List Call) : Prop where
  bound : k ≤ n
  reaches : Reaches c profile session head k
  price : priceAll (c.model profile head) (firstResponses session k) = .ok total
  last : k = n ∧ out.1 = .ok (exhausted task total) ∧ received out.2 = firstResponses session k ∨
    k < n ∧ Stops c profile session head task k total out.1 ∧
      received out.2 = firstResponses session (k + 1)

/-- The state after a response that the loop goes on from. -/
def Turns.next (t : Turns) (r : Response) (cost : ℚ) : Turns where
  messages := t.messages ++ [.assistant r.content, .toolResults (toolResults r.content)]
  runningCost := t.runningCost + cost
  calls := t.calls ++ [⟨request c profile head task t.messages, .ok r⟩]

variable (left : Nat) (t : Turns)

/-- One turn stops the loop or goes on. -/
theorem turns_succ
    (hprice : priceAll (c.model profile head) (firstResponses session t.calls.length) =
      .ok t.runningCost) :
    (∃ answer, Stops c profile session head task t.calls.length t.runningCost answer ∧
      turns c profile head task session.answers (left + 1) t =
        (answer, t.calls ++
          [⟨request c profile head task t.messages, session.answers t.calls.length⟩])) ∨
    ∃ r cost, GoesOn c profile session head t.calls.length ∧
      session.answers t.calls.length = .ok r ∧
      priceAll (c.model profile head) (firstResponses session (t.calls.length + 1)) =
        .ok (t.runningCost + cost) ∧
      turns c profile head task session.answers (left + 1) t =
        turns c profile head task session.answers left (t.next c profile head task r cost) := by
  cases hanswer : session.answers t.calls.length with
  | error e => exact .inl ⟨_, .raised e hanswer, by simp only [turns, hanswer]⟩
  | ok r =>
    cases hcost : turnCost (c.model profile head) r.usage with
    | error e => exact .inl ⟨_, .unpriced r e hanswer hcost, by simp only [turns, hanswer, hcost]⟩
    | ok cost =>
      by_cases htool : r.stopReason = some "tool_use"
      · by_cases hcap : c.costCapUsd ≤ t.runningCost + cost
        · exact .inl ⟨_, .capped r cost hanswer htool hcost hcap,
            by simp [turns, hanswer, hcost, htool, hcap]⟩
        · have hnext : priceAll (c.model profile head) (firstResponses session (t.calls.length + 1)) =
              .ok (t.runningCost + cost) := by
            rw [firstResponses_succ, hanswer]
            exact (priceAll_snoc hprice r).trans (by rw [hcost]; rfl)
          refine .inr ⟨r, cost, ⟨r, _, hanswer, htool, hnext, not_le.mp hcap⟩, rfl, hnext, ?_⟩
          simp [turns, hanswer, hcost, htool, hcap, Turns.next]
      · exact .inl ⟨_, .done r cost hanswer htool hcost, by simp [turns, hanswer, hcost, htool]⟩

/-- Where the loop stops, with which calls. -/
def Ended (n : Nat) (out : Answer × List Call) : Prop :=
  ∃ k total, k ≤ n ∧ Reaches c profile session head k ∧
    priceAll (c.model profile head) (firstResponses session k) = .ok total ∧
    (k = n ∧ out = (.ok (exhausted task total), firstCalls c profile session head task k) ∨
      k < n ∧ Stops c profile session head task k total out.1 ∧
        out.2 = firstCalls c profile session head task (k + 1))

theorem turns_spec (hreach : Reaches c profile session head t.calls.length)
    (hprice : priceAll (c.model profile head) (firstResponses session t.calls.length) =
      .ok t.runningCost)
    (hcalls : t.calls = firstCalls c profile session head task t.calls.length)
    (hmessages : t.messages = history task.prompt (firstResponses session t.calls.length)) :
    Ended c profile session head task (t.calls.length + left)
      (turns c profile head task session.answers left t) := by
  induction left generalizing t with
  | zero =>
    exact ⟨t.calls.length, t.runningCost, Nat.le_refl _, hreach, hprice, .inl ⟨rfl, by rw [← hcalls]; rfl⟩⟩
  | succ left ih =>
    have hlast : t.calls ++ [⟨request c profile head task t.messages, session.answers t.calls.length⟩] =
        firstCalls c profile session head task (t.calls.length + 1) := by
      rw [firstCalls_succ, ← hcalls, callAt, ← hmessages]
    rcases turns_succ c profile session head task left t hprice with
      ⟨answer, hstops, hturns⟩ | ⟨r, cost, hgoes, hanswer, hnext, hturns⟩
    · rw [hturns]
      exact ⟨t.calls.length, t.runningCost, by omega, hreach, hprice, .inr ⟨by omega, hstops, hlast⟩⟩
    · rw [hanswer] at hlast
      have hlen : (t.next c profile head task r cost).calls.length = t.calls.length + 1 := by
        simp [Turns.next]
      have hreach' : Reaches c profile session head (t.calls.length + 1) := fun j hj =>
        (Nat.lt_succ_iff_lt_or_eq.mp hj).elim (hreach j) fun heq => heq ▸ hgoes
      have hmessages' : (t.next c profile head task r cost).messages =
          history task.prompt (firstResponses session (t.calls.length + 1)) := by
        rw [firstResponses_succ, hanswer]
        simp [Except.toOption, history_snoc, Turns.next, hmessages]
      rw [← hlen] at hreach' hnext hlast hmessages'
      have hrest := ih (t.next c profile head task r cost) hreach' hnext hlast hmessages'
      rw [hlen, Nat.add_assoc, Nat.add_comm 1] at hrest
      rwa [hturns]

theorem dispatch_ended (hclient : session.client = .ok ()) :
    Ended c profile session head task task.maxTurns.toNat (dispatch c profile session head task) := by
  have hspec := turns_spec c profile session head task task.maxTurns.toNat ⟨[.prompt task.prompt], 0, []⟩
    (fun j hj => absurd hj (Nat.not_lt_zero j)) rfl rfl rfl
  simp only [List.length_nil, Nat.zero_add] at hspec
  simpa only [dispatch, hclient] using hspec

theorem dispatch_spec (hclient : session.client = .ok ()) :
    ∃ k total, StopsAt c profile session head task task.maxTurns.toNat k total
      (dispatch c profile session head task) := by
  obtain ⟨k, total, hle, hreach, hprice, hout⟩ := dispatch_ended c profile session head task hclient
  refine ⟨k, total, hle, hreach, hprice, ?_⟩
  rcases hout with ⟨hk, hout⟩ | ⟨hk, hstops, hcalls⟩
  · exact .inl ⟨hk, by rw [hout], by rw [hout]; exact received_firstCalls ..⟩
  · exact .inr ⟨hk, hstops, by rw [hcalls]; exact received_firstCalls ..⟩

variable {c profile session head task} in
theorem Stops.not_goesOn {k : Nat} {total : ℚ} {answer : Answer}
    (h : Stops c profile session head task k total answer)
    (hprice : priceAll (c.model profile head) (firstResponses session k) = .ok total) :
    ¬ GoesOn c profile session head k := by
  rintro ⟨r, sum, hanswer, htool, hsum, hcap⟩
  rw [firstResponses_succ, hanswer] at hsum
  have hcost : (turnCost (c.model profile head) r.usage).map (total + ·) = .ok sum :=
    (priceAll_snoc hprice r).symm.trans hsum
  cases h with
  | raised e he => simp [he] at hanswer
  | unpriced r' e hr he =>
    obtain rfl := Except.ok.inj (hanswer.symm.trans hr)
    simp [he, Except.map] at hcost
  | done r' cost hr hother hcost' =>
    obtain rfl := Except.ok.inj (hanswer.symm.trans hr)
    exact hother htool
  | capped r' cost hr _ hcost' hle =>
    obtain rfl := Except.ok.inj (hanswer.symm.trans hr)
    rw [hcost'] at hcost
    obtain rfl := Except.ok.inj hcost
    exact absurd hcap (not_lt.mpr hle)

section Stops

variable {c profile session head task} {k : Nat} {total : ℚ} {answer : Answer}
  (h : Stops c profile session head task k total answer)
include h

theorem Stops.of_raised {e : Raised} (he : session.answers k = .error e) : answer = .error e := by
  cases h with
  | raised e' he' =>
    obtain rfl := Except.error.inj (he'.symm.trans he)
    rfl
  | unpriced r _ hr _ => simp [he] at hr
  | done r _ hr _ _ => simp [he] at hr
  | capped r _ hr _ _ _ => simp [he] at hr

theorem Stops.of_other {r : Response} {cost : ℚ} (hr : session.answers k = .ok r)
    (hother : r.stopReason ≠ some "tool_use")
    (hcost : turnCost (c.model profile head) r.usage = .ok cost) :
    answer = .ok (Conductors.done (extractText r.content) (total + cost)) := by
  cases h with
  | raised e he => simp [he] at hr
  | unpriced r' e hr' he =>
    obtain rfl := Except.ok.inj (hr.symm.trans hr')
    simp [he] at hcost
  | done r' cost' hr' _ hcost' =>
    obtain rfl := Except.ok.inj (hr.symm.trans hr')
    obtain rfl := Except.ok.inj (hcost.symm.trans hcost')
    rfl
  | capped r' _ hr' htool _ _ =>
    obtain rfl := Except.ok.inj (hr.symm.trans hr')
    exact absurd htool hother

end Stops

theorem not_goesOn_of_raised {k : Nat} {e : Raised} (he : session.answers k = .error e) :
    ¬ GoesOn c profile session head k := by
  rintro ⟨r, -, hr, -⟩
  simp [he] at hr

theorem not_goesOn_of_other {k : Nat} {r : Response} (hr : session.answers k = .ok r)
    (hother : r.stopReason ≠ some "tool_use") : ¬ GoesOn c profile session head k := by
  rintro ⟨r', -, hr', htool, -⟩
  obtain rfl := Except.ok.inj (hr.symm.trans hr')
  exact hother htool

theorem stops_at (hclient : session.client = .ok ()) {k : Nat} (hk : k < task.maxTurns.toNat)
    (hreach : Reaches c profile session head k) (hstop : ¬ GoesOn c profile session head k) :
    ∃ total, priceAll (c.model profile head) (firstResponses session k) = .ok total ∧
      Stops c profile session head task k total (dispatch c profile session head task).1 ∧
      (dispatch c profile session head task).2 =
        firstCalls c profile session head task (k + 1) := by
  -- A turn that is reached and does not go on is the one where the dispatch stops.
  obtain ⟨k', total, -, hreach', hprice, hlast⟩ :=
    dispatch_ended c profile session head task hclient
  have hsame : k' = k := by
    refine reaches_unique hk hreach hstop hreach' fun hlt => ?_
    rcases hlast with ⟨heq, -⟩ | ⟨-, hstops, -⟩
    · omega
    · exact hstops.not_goesOn hprice
  subst hsame
  rcases hlast with ⟨heq, -⟩ | ⟨-, hstops, hcalls⟩
  · omega
  · exact ⟨total, hprice, hstops, hcalls⟩

end Swarm.Conductors
