import Mathlib.Data.Finset.Basic
import Swarm.Kanban.Mirror
import Swarm.Kanban.Statements

/-! # Edges in any order -/

namespace Swarm.Kanban

open Statements (Request)

/-! ## The calls -/

/-- The request is for `t` to be blocked by `x`. -/
def Asks : Request → String → String → Prop
  | .addBlockedBy taskId blockerIds, t, x => t = taskId ∧ x ∈ blockerIds
  | .addBlocks taskId blockedIds, t, x => x = taskId ∧ t ∈ blockedIds

theorem request_edged {b : Board} (htyped : EdgesTyped b) {q : Request}
    (hends : ∀ t x, Asks q t x → t ≠ "" ∧ x ≠ "" ∧ OnBoard b t) :
    (q.apply b).1 = .ok () ∧ Edged (Asks q) (fun x t => Asks q t x) b (q.apply b).2 := by
  cases q with
  | addBlockedBy taskId ids =>
    refine addBlockedBy_edged htyped ids (fun x hx => (hends taskId x ⟨rfl, hx⟩).2.1) fun hne => ?_
    obtain ⟨x, hx⟩ := List.exists_mem_of_ne_nil ids hne
    exact (hends taskId x ⟨rfl, hx⟩).2.2
  | addBlocks taskId ids =>
    have hfilter : ids.filter (· != "") = ids := by
      rw [List.filter_eq_self]
      exact fun t ht => bne_iff_ne.mpr (hends t taskId ⟨rfl, ht⟩).1
    simp only [Request.apply, addBlocks, hfilter]
    cases ids with
    | nil => exact ⟨rfl, .refl b (by simp [Asks]) (by simp [Asks])⟩
    | cons t rest =>
      have htask := (hends t taskId ⟨rfl, List.mem_cons_self⟩).2.1
      exact addBlocksLoop_edged htyped htask fun t' ht' => (hends t' taskId ⟨rfl, ht'⟩).2.2

/-- The calls one after the other. A call that raises ends them. -/
def issue (b : Board) : List Request → Except PyError Unit × Board
  | [] => (.ok (), b)
  | q :: rest =>
    match q.apply b with
    | (.error e, b') => (.error e, b')
    | (.ok (), b') => issue b' rest

theorem issue_edged {b : Board} (htyped : EdgesTyped b) {requests : List Request}
    (hends : ∀ t x, (∃ q ∈ requests, Asks q t x) → t ≠ "" ∧ x ≠ "" ∧ OnBoard b t) :
    (issue b requests).1 = .ok () ∧
      Edged (fun t x => ∃ q ∈ requests, Asks q t x) (fun x t => ∃ q ∈ requests, Asks q t x) b
        (issue b requests).2 := by
  induction requests generalizing b with
  | nil => exact ⟨rfl, .refl b (by simp) (by simp)⟩
  | cons q rest ih =>
    obtain ⟨hok, hfirst⟩ :=
      request_edged htyped (q := q) fun t x h => hends t x ⟨q, List.mem_cons_self, h⟩
    rw [issue]
    generalize q.apply b = out at hok hfirst
    obtain ⟨result, b'⟩ := out
    subst hok
    obtain ⟨hok', hrest⟩ := ih (hfirst.typed htyped) fun t x ⟨q', hq', h⟩ => by
      obtain ⟨ht, hx, hon⟩ := hends t x ⟨q', List.mem_cons_of_mem q hq', h⟩
      exact ⟨ht, hx, (hfirst.select_isSome t).mpr hon⟩
    refine ⟨hok', (hfirst.trans hrest).congr (fun t x => ?_) fun x t => ?_⟩
    all_goals simp only [List.exists_mem_cons_iff]

/-! ## Any order -/

/-- Every column holds a list of distinct ids. -/
def NoRepeats (b : Board) : Prop :=
  ∀ r ∈ b.tasks, (∃ ids, idsOf r.blockedBy = some ids ∧ ids.Nodup) ∧ ∃ ids, idsOf r.blocks = some ids ∧ ids.Nodup

theorem Edged.noRepeats {blocked blocker : String → String → Prop} {b b' : Board}
    (h : Edged blocked blocker b b') (hb : NoRepeats b) : NoRepeats b' := by
  obtain ⟨-, g, htasks, hrows⟩ := h
  intro r' hr'
  rw [htasks] at hr'
  obtain ⟨r, hr, rfl⟩ := List.mem_map.mp hr'
  obtain ⟨⟨ids, hids, hnodup⟩, ids', hids', hnodup'⟩ := hb r hr
  obtain ⟨new, hnew, hgain⟩ := (hrows r hr).blockedBy.1 ids hids
  obtain ⟨new', hnew', hgain'⟩ := (hrows r hr).blocks.1 ids' hids'
  exact ⟨⟨new, hnew, hgain.nodup hnodup⟩, new', hnew', hgain'.nodup hnodup'⟩

/-- **Edges in any order.** However a set of edges is issued, both columns of every task end as
what they were with the edges added, and nothing else changes. -/
theorem edges_in_any_order (b : Board) (hb : NoRepeats b) (edges : Finset (String × String))
    (hends : ∀ t x, (t, x) ∈ edges → t ≠ "" ∧ x ≠ "" ∧ OnBoard b t) (requests : List Request)
    (hasked : ∀ t x, (t, x) ∈ edges ↔ ∃ q ∈ requests, Asks q t x) :
    (issue b requests).1 = .ok () ∧ NoRepeats (issue b requests).2 ∧
      Edged (fun t x => (t, x) ∈ edges) (fun x t => (t, x) ∈ edges) b (issue b requests).2 := by
  have htyped : EdgesTyped b := by
    intro r hr
    obtain ⟨⟨ids, hids, -⟩, ids', hids', -⟩ := hb r hr
    exact ⟨⟨ids, hids⟩, ids', hids'⟩
  obtain ⟨hok, hedged⟩ := issue_edged htyped fun t x h => hends t x ((hasked t x).mpr h)
  exact ⟨hok, hedged.noRepeats hb, hedged.congr (fun t x => (hasked t x).symm) fun x t => (hasked t x).symm⟩

/-- One edge from both ends and a task that blocks itself. -/
def bothEnds : List Request :=
  [.addBlocks "a" ["t"], .addBlockedBy "b" ["b", "b"], .addBlockedBy "t" ["a"]]

theorem bothEnds_added :
    (issue Statements.threeTasks bothEnds).1 = .ok () ∧
      NoRepeats (issue Statements.threeTasks bothEnds).2 := by
  have hempty : ∀ r ∈ Statements.threeTasks.tasks, r.blockedBy = none ∧ r.blocks = none := by
    have hall : noEdges Statements.threeTasks = true := by decide +kernel
    simpa [noEdges] using hall
  have hb : NoRepeats Statements.threeTasks := fun r hr => by
    rw [(hempty r hr).1, (hempty r hr).2]
    exact ⟨⟨[], rfl, List.nodup_nil⟩, [], rfl, List.nodup_nil⟩
  have hon : OnBoard Statements.threeTasks "t" ∧ OnBoard Statements.threeTasks "b" := by
    unfold OnBoard
    decide +kernel
  obtain ⟨hok, hnodup, -⟩ := edges_in_any_order Statements.threeTasks hb {("t", "a"), ("b", "b")}
    (by
      intro t x h
      simp only [Finset.mem_insert, Finset.mem_singleton, Prod.mk.injEq] at h
      rcases h with ⟨rfl, rfl⟩ | ⟨rfl, rfl⟩
      · exact ⟨by decide, by decide, hon.1⟩
      · exact ⟨by decide, by decide, hon.2⟩)
    bothEnds
    (by
      intro t x
      rw [bothEnds, List.exists_mem_cons_iff, List.exists_mem_cons_iff, List.exists_mem_cons_iff]
      simp only [Asks, Finset.mem_insert, Finset.mem_singleton, Prod.mk.injEq, List.mem_cons, List.not_mem_nil]
      tauto)
  exact ⟨hok, hnodup⟩

end Swarm.Kanban
