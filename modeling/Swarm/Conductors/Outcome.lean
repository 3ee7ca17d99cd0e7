import Swarm.Conductors.Turns

/-!
# What DONE says

The loop tells tool use from everything else, so every other stop reason is a finished task.
-/

namespace Swarm.Conductors

open Kanban Supervisor

variable (c : ApiConductor) (profile : Head → Profile) (session : Session) (head : Head)
  (task : Kanban.Task)

/-- The turn ended as the model meant it to. -/
def Response.Normal (r : Response) : Prop :=
  r.stopReason = some "end_turn" ∨ r.stopReason = some "stop_sequence"

instance (r : Response) : Decidable r.Normal := by
  unfold Response.Normal
  infer_instance

/-- A dispatch that answers DONE received last a response that ended its turn normally. -/
def DoneIsNormal : Prop :=
  ∀ o, (dispatch c profile session head task).1 = .ok o → o.status = .done →
    ∃ r, (received (dispatch c profile session head task).2).getLast? = some r ∧ r.Normal

/-- The first response that does not ask for tools, if the loop gets to it, is a normal one. -/
def EndsNormally : Prop :=
  session.client = .ok () → ∀ k < task.maxTurns.toNat, Reaches c profile session head k →
    ∀ r cost, session.answers k = .ok r → r.stopReason ≠ some "tool_use" →
      turnCost (c.model profile head) r.usage = .ok cost → r.Normal

theorem getLast?_firstResponses {k : Nat} {r : Response} (hanswer : session.answers k = .ok r) :
    (firstResponses session (k + 1)).getLast? = some r := by
  rw [firstResponses_succ, hanswer]
  simp [Except.toOption]

/-- **Only tool use is told from a normal end.** DONE means a normal end exactly when the first
response within the turns that does not ask for tools is one. -/
theorem doneIsNormal_iff (c : ApiConductor) (profile : Head → Profile) (session : Session)
    (head : Head) (task : Kanban.Task) :
    DoneIsNormal c profile session head task ↔ EndsNormally c profile session head task := by
  constructor
  · intro hdone hclient k hk hreach r cost hanswer hother hcost
    have hstop := not_goesOn_of_other c profile session head hanswer hother
    obtain ⟨total, -, hstops, hcalls⟩ :=
      stops_at c profile session head task hclient hk hreach hstop
    obtain ⟨last, hlast, hnormal⟩ := hdone _ (hstops.of_other hanswer hother hcost) rfl
    rw [hcalls, received_firstCalls, getLast?_firstResponses session hanswer] at hlast
    exact Option.some.inj hlast ▸ hnormal
  · intro hends o hout hstatus
    cases hclient : session.client with
    | error e => simp [dispatch, hclient] at hout
    | ok u =>
      obtain ⟨k, total, -, hreach, -, ⟨-, hexhausted, -⟩ | ⟨hk, hstops, hreceived⟩⟩ :=
        dispatch_spec c profile session head task hclient
      · obtain rfl := Except.ok.inj (hexhausted.symm.trans hout)
        cases hstatus
      · rw [hout] at hstops
        cases hstops with
        | done r cost hanswer hother hcost =>
          rw [hreceived]
          exact ⟨r, getLast?_firstResponses session hanswer,
            hends hclient k hk hreach r cost hanswer hother hcost⟩
        | capped r cost _ _ _ _ => cases hstatus

/-! ## A response that is cut off -/

def usage : Usage := ⟨.int 100, .int 50, .int 0, .int 0, none⟩

def sonnet : Head → Profile := fun _ => ⟨"You are a Builder head.", "claude-sonnet-4-6"⟩

def plain : ApiConductor := ⟨none, 5, []⟩

/-- The token limit ends the only turn. -/
def cutOff : Session :=
  ⟨.ok (), fun _ => .ok ⟨[⟨some "text", some "The first ha", none, none⟩], usage, some "max_tokens"⟩⟩

theorem cutOff_reported_done :
    ¬ DoneIsNormal plain sonnet cutOff ⟨"builder"⟩ (Task.new "a" 0) := by
  intro h
  obtain ⟨r, hlast, hnormal⟩ := h (done "The first ha" (21 / 20000)) (by decide +kernel) rfl
  have hcut : (received (dispatch plain sonnet cutOff ⟨"builder"⟩ (Task.new "a" 0)).2).getLast? =
      some ⟨[⟨some "text", some "The first ha", none, none⟩], usage, some "max_tokens"⟩ := by
    decide +kernel
  rw [hcut] at hlast
  cases hlast
  revert hnormal
  decide

end Swarm.Conductors
