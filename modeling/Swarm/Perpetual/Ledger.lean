import Mathlib.Algebra.BigOperators.Fin
import Mathlib.Tactic.Abel
import Swarm.Perpetual.Team

/-!
# What a team has spent

A loop adds the cost of an outcome to its own total and writes it on the row of the task. Over any
interleaving the totals of the loops and the rows of the board account for the same sum.
-/

namespace Swarm.Perpetual.Team

open Kanban Supervisor Resilience Swarm.Lib

/-! ## The column -/

def cost? : Field → Option ℚ
  | .costUsd v => some v
  | _ => none

theorem setAll_cost (fields : List Field) (r : Row) :
    (setAll fields r).costUsd = (given cost? fields).getD r.costUsd :=
  setAll_column (·.costUsd) cost? (fun r f => by cases f <;> rfl) fields r

/-- All that the rows say was spent. -/
def spent (b : Board) : ℚ := (b.tasks.map (·.costUsd)).sum

theorem spent_write {b : Board} (b' : Board) {r : Row} (f : Row → Row) (hr : r ∈ b.tasks)
    (htasks : b'.tasks = b.tasks.map fun x => if x.id = r.id then f x else x) :
    spent b' = spent b + ((f r).costUsd - r.costUsd) := by
  obtain ⟨before, after, hsplit⟩ := List.append_of_mem hr
  have hother : ∀ x ∈ before ++ after, x.id ≠ r.id := by
    have hnodup := b.primaryKey
    rw [hsplit] at hnodup
    intro x hx
    have hperm :=
      (List.perm_middle : (before ++ r :: after).Perm (r :: (before ++ after))).map (·.id)
    have hcons := hperm.nodup_iff.mp hnodup
    rw [List.map_cons, List.nodup_cons] at hcons
    exact fun heq => hcons.1 (heq ▸ List.mem_map_of_mem hx)
  have hsame : ∀ l : List Row, (∀ x ∈ l, x.id ≠ r.id) → l.map (fun x => if x.id = r.id then f x else x) = l := by
    intro l hl
    rw [List.map_congr_left fun x hx => if_neg (hl x hx), List.map_id']
  have hbefore := hsame before fun x hx => hother x (List.mem_append_left _ hx)
  have hafter := hsame after fun x hx => hother x (List.mem_append_right _ hx)
  rw [spent, spent, htasks, hsplit, List.map_append, List.map_cons, hbefore, hafter, if_pos rfl]
  simp only [List.map_append, List.map_cons, List.sum_append, List.sum_cons]
  abel

/-! ## The write-back -/

/-- What an answer costs, where there is a head to ask. -/
def paid (roster : Roster) (answer : Answer) (claimed : Kanban.Task) : Option ℚ :=
  match pickHead roster claimed.requiredHead, answer with
  | some _, .ok o => some o.costUsd
  | _, _ => none

/-- What the driver writes on the row of its task. -/
def releaseFields (roster : Roster) (answer : Answer) (claimed : Kanban.Task)
    (t : Times) : List Field :=
  match pickHead roster claimed.requiredHead with
  | none => failedFields "no matching head" t.completedAt
  | some _ =>
    match answer with
    | .ok o => outcomeFields o t.completedAt
    | .error e =>
      if e.cls = .abortRequested ∨ (classifyError e).isSome then [.status "pending"]
      else failedFields e.repr t.completedAt

theorem releaseFields_cost (roster : Roster) (answer : Answer) (claimed : Kanban.Task) (t : Times) :
    given cost? (releaseFields roster answer claimed t) = paid roster answer claimed := by
  unfold releaseFields paid
  cases pickHead roster claimed.requiredHead with
  | none => rfl
  | some head =>
    cases answer with
    | ok o => rfl
    | error e =>
      dsimp only
      split <;> rfl

structure Released (roster : Roster) (answer : Answer) (claimed : Kanban.Task) (t : Times)
    (s s' : State) : Prop where
  rows : s'.board.tasks = s.board.tasks.map fun x =>
    if x.id = claimed.id then setAll (releaseFields roster answer claimed t) x else x
  total : s'.costSoFarUsd = s.costSoFarUsd + (paid roster answer claimed).getD 0

theorem update_tasks {b : Board} {id : String} {r : Row} (hr : b.select id = some r)
    (fields : List Field) (reason : Option String) (ts : ℚ) (status : TaskStatus)
    (hrefused : given Field.refused? fields = none) (hid : given Field.id? fields = none)
    (hs : given Field.status? fields = some status.value) :
    ∃ task b', update b id fields reason ts = (.ok (some task), b') ∧
      b'.tasks = b.tasks.map fun x => if x.id = id then setAll fields x else x :=
  ⟨_, _, update_spec b id fields reason ts r status hr hrefused hid hs, rfl⟩

theorem release_released (roster : Roster) (answer : Answer) (claimed : Kanban.Task) (t : Times)
    (s : State) (r : Row) (hr : s.board.select claimed.id = some r) :
    Released roster answer claimed t s (release roster answer claimed t s).2 := by
  have hfailed : ∀ error, ∃ task b', update s.board claimed.id (failedFields error t.completedAt) none t.updateTs =
      (.ok (some task), b') ∧ b'.tasks = s.board.tasks.map fun x =>
        if x.id = claimed.id then setAll (failedFields error t.completedAt) x else x :=
    fun error => update_tasks hr _ none t.updateTs .failed rfl rfl rfl
  have hback : ∀ reason, ∃ task b', transition s.board claimed.id .pending reason t.updateTs =
      (.ok (some task), b') ∧ b'.tasks = s.board.tasks.map fun x =>
        if x.id = claimed.id then setAll [.status "pending"] x else x :=
    fun reason => update_tasks hr _ reason t.updateTs .pending rfl rfl rfl
  -- Every way to release the task is one of these two updates, or the one with the outcome.
  cases hhead : pickHead roster claimed.requiredHead with
  | none =>
    obtain ⟨task, b', hwrite, htasks⟩ := hfailed "no matching head"
    simp only [release, hhead, hwrite, Supervisor.after]
    exact ⟨by simpa [releaseFields, hhead] using htasks, by simp [paid, hhead]⟩
  | some head =>
    cases answer with
    | ok o =>
      obtain ⟨task, b', hwrite, htasks⟩ :=
        update_tasks hr (outcomeFields o t.completedAt) none t.updateTs o.status
        rfl rfl rfl
      simp only [release, hhead, dispatchOne, hwrite, Supervisor.after]
      exact ⟨by simpa [releaseFields, hhead] using htasks, by simp [paid, hhead]⟩
    | error e =>
      -- An exception pays for nothing.
      have hpaid : paid roster (.error e) claimed = none := by simp [paid, hhead]
      have hfields : releaseFields roster (.error e) claimed t =
          if e.cls = .abortRequested ∨ (classifyError e).isSome then [.status "pending"]
          else failedFields e.repr t.completedAt := by simp [releaseFields, hhead]
      simp only [release, hhead]
      split
      · next hclass =>
        obtain ⟨task, b', hwrite, htasks⟩ := hback (some "transient; will retry")
        simp only [hwrite, Supervisor.after]
        exact ⟨by rw [hfields, if_pos (by simp [hclass])]; exact htasks, by simp [hpaid]⟩
      · next hclass =>
        simp only [dispatchOne]
        split
        · next habort =>
          obtain ⟨task, b', hwrite, htasks⟩ := hback (some "aborted")
          simp only [hwrite, Supervisor.after]
          exact ⟨by rw [hfields, if_pos (by simp [habort])]; exact htasks, by simp [hpaid]⟩
        · next habort =>
          obtain ⟨task, b', hwrite, htasks⟩ := hfailed e.repr
          simp only [hwrite, Supervisor.after]
          have hneither : ¬ (e.cls = .abortRequested ∨ (classifyError e).isSome) :=
            fun hor => hor.elim habort fun hsome => hclass ⟨habort, hsome⟩
          exact ⟨by rw [hfields, if_neg hneither]; exact htasks, by simp [hpaid]⟩

/-! ## Every step -/

variable {N : Nat} {cfgs : Fin N → Supervisor.Config} {rosters : Fin N → Roster}
    {s s' : TeamState N}

/-- The others file tasks that have cost nothing, and an outcome does not ask for another
dispatch. -/
def Charges : Label N → Prop
  | .submit task _ => task.status = .pending ∧ task.costUsd = 0
  | .writeBack _ answer _ => ∀ o, answer = .ok o → o.status ≠ .inProgress ∧ o.status ≠ .pending
  | _ => True

theorem Charges.allowed {l : Label N} (h : Charges l) : Allowed l := by
  cases l with
  | submit task ts => exact h.1
  | writeBack i answer t => exact fun o ho => (h o ho).1
  | _ => trivial

def openStatus (status : String) : Prop := status = "pending" ∨ status = "in_progress"

/-- A task that waits or runs has cost nothing yet. -/
def Unpaid (b : Board) : Prop := ∀ r ∈ b.tasks, openStatus r.status → r.costUsd = 0

/-- All that the loops have added up. -/
def totals (s : TeamState N) : ℚ := ∑ i, (s.loops i).costSoFarUsd

theorem totals_update (s s' : TeamState N) (i : Fin N) (loop : Loop)
    (hloops : s'.loops = Function.update s.loops i loop) :
    totals s' = totals s + (loop.costSoFarUsd - (s.loops i).costSoFarUsd) := by
  have hcosts : (fun j => (s'.loops j).costSoFarUsd) =
      Function.update (fun j => (s.loops j).costSoFarUsd) i loop.costSoFarUsd := by
    rw [hloops]
    funext j
    exact Function.apply_update (fun _ l => Loop.costSoFarUsd l) s.loops i loop j
  have hsplit :=
    Finset.add_sum_erase Finset.univ (fun j => (s.loops j).costSoFarUsd) (Finset.mem_univ i)
  rw [totals, totals, hcosts, Finset.sum_update_of_mem (Finset.mem_univ i), ← Finset.erase_eq, ← hsplit]
  abel

/-- The rows account for what the loops have added up since the start. -/
structure Accounted (b : Board) (s : TeamState N) : Prop where
  balance : totals s = spent s.board - spent b
  unpaid : Unpaid s.board

theorem Accounted.goto {b : Board} (h : Accounted b s) (i : Fin N) (pc : Pc) :
    Accounted b (s.goto i pc) where
  balance := by
    have htotals := totals_update s (s.goto i pc) i { s.loops i with pc := pc } rfl
    rw [htotals, sub_self, add_zero]
    exact h.balance
  unpaid := h.unpaid

theorem Accounted.submit {b : Board} (h : Accounted b s) (task : Kanban.Task) (ts : ℚ)
    (hcost : task.costUsd = 0) :
    Accounted b { s with board := (submit s.board task ts).2 } := by
  rcases submit_cases s.board task ts with hsame | ⟨-, htasks, -⟩
  · rw [hsame]
    exact h
  · have hrow : task.toRow.costUsd = 0 := hcost
    refine ⟨h.balance.trans ?_, fun r hr hopen => ?_⟩
    · simp only [spent, htasks, List.map_append, List.sum_append, List.map_singleton, List.sum_singleton, hrow,
        add_zero]
    · rw [htasks] at hr
      rcases List.mem_append.mp hr with hr | hr
      · exact h.unpaid r hr hopen
      · exact List.mem_singleton.mp hr ▸ hrow

theorem Accounted.claim {b : Board} (h : Accounted b s) (i : Fin N) (t : Times)
    (hstep : step cfgs rosters (.claim i t) s = some s') : Accounted b s' := by
  simp only [step] at hstep
  split at hstep
  · next requiredHead hpc =>
    rcases claimOne_cases s.board (some requiredHead) ((cfgs i).teammateName ++ ":" ++ requiredHead)
      t.startedAt t.claimTs with ⟨-, hboard, hres⟩ | ⟨r, hr, -, hpending, -, -, heq⟩
    · split at hstep
      · next heq => exact absurd (congrArg Prod.fst heq) (hres _)
      all_goals
        next heq =>
          cases hstep
          obtain rfl := (congrArg Prod.snd heq).symm.trans hboard
          exact h.goto i .outside
    · simp only [heq, Option.some.injEq] at hstep
      subst hstep
      have hgone :=
        h.goto i (.holding ((claimRow ((cfgs i).teammateName ++ ":" ++ requiredHead) t.startedAt r).toTask
        .inProgress))
      -- A claim leaves every cost, and a row that is pending has none.
      have hcost :=
        spent_write (claimedBoard s.board ((cfgs i).teammateName ++ ":" ++ requiredHead) t.startedAt
        t.claimTs r) (claimRow ((cfgs i).teammateName ++ ":" ++ requiredHead) t.startedAt) hr rfl
      refine ⟨hgone.balance.trans ?_, fun x hx hopen => ?_⟩
      · rw [hcost]
        exact congrArg (· - spent b) (by simp [claimRow, TeamState.goto])
      · obtain ⟨y, hy, rfl⟩ := List.mem_map.mp hx
        split
        · next hid =>
          rw [row_unique s.board y r hy hr hid]
          exact h.unpaid r hr (.inl hpending)
        · next hid =>
          rw [if_neg hid] at hopen
          exact h.unpaid y hy hopen
  · cases hstep

theorem paid_closes {roster : Roster} {answer : Answer} {claimed : Kanban.Task} {cost : ℚ}
    (hanswer : ∀ o, answer = .ok o → o.status ≠ .inProgress ∧ o.status ≠ .pending)
    (hpaid : paid roster answer claimed = some cost) :
    ¬ openStatus (releaseStatus roster answer claimed).value := by
  -- An outcome that is paid for closes its task.
  unfold paid at hpaid
  split at hpaid
  · next head o hhead =>
    obtain ⟨hlive, hpending⟩ := hanswer o rfl
    have hstatus : releaseStatus roster (.ok o) claimed = o.status := by simp [releaseStatus, hhead]
    rw [hstatus]
    rintro (h | h)
    · exact hpending ((TaskStatus.value_inj _ .pending).mp h)
    · exact hlive ((TaskStatus.value_inj _ .inProgress).mp h)
  · cases hpaid

theorem Accounted.writeBack {b : Board} (h : Accounted b s) (hi : Inv s) (i : Fin N)
    (answer : Answer) (t : Times)
    (hanswer : ∀ o, answer = .ok o → o.status ≠ .inProgress ∧ o.status ≠ .pending)
    (hstep : step cfgs rosters (.writeBack i answer t) s = some s') : Accounted b s' := by
  simp only [step] at hstep
  split at hstep
  · next claimed hpc =>
    obtain ⟨r, hr, hid, hlive⟩ := hi.held i claimed.id ⟨claimed, hpc, rfl⟩
    have hsel : s.board.select claimed.id = some r := (select_eq_some _ _ _).mpr ⟨hr, hid⟩
    let before : State := ⟨s.board, (s.loops i).costSoFarUsd, (s.loops i).turn, []⟩
    obtain ⟨-, hmoves, -⟩ := release_spec (rosters i) answer claimed t before r hsel
    obtain ⟨htasks, htotal⟩ := release_released (rosters i) answer claimed t before r hsel
    let f := setAll (releaseFields (rosters i) answer claimed t)
    have hf : ∀ x, (f x).costUsd = (paid (rosters i) answer claimed).getD x.costUsd :=
      fun x => by rw [setAll_cost, releaseFields_cost]
    have hfree : r.costUsd = 0 := h.unpaid r hr (.inr hlive)
    rw [← hid] at htasks
    have hspent := spent_write _ f hr htasks
    cases hstep
    refine ⟨?_, fun x hx hopen => ?_⟩
    · -- The loop and the row gain the same.
      have htotals := totals_update s { s with
        board := (release (rosters i) answer claimed t before).2.board
        loops := Function.update s.loops i ⟨.outside, (release (rosters i) answer claimed t before).2.costSoFarUsd,
          (release (rosters i) answer claimed t before).2.turn⟩ } i _ rfl
      have hgain : (release (rosters i) answer claimed t before).2.costSoFarUsd - (s.loops i).costSoFarUsd =
          (f r).costUsd - r.costUsd := by
        rw [htotal, hf, hfree]
        exact (add_sub_cancel_left _ _).trans (sub_zero _).symm
      refine htotals.trans ?_
      dsimp only
      rw [hgain, h.balance, hspent]
      abel
    · rcases hmoves.row x hx with ⟨hxid, hstatus, -⟩ | ⟨-, hold⟩
      · cases hpaid : paid (rosters i) answer claimed with
        | some cost => exact absurd (hstatus ▸ hopen) (paid_closes hanswer hpaid)
        | none =>
          rw [htasks] at hx
          obtain ⟨y, hy, rfl⟩ := List.mem_map.mp hx
          split
          · next hyid =>
            rw [hf, hpaid, row_unique s.board y r hy hr hyid]
            exact hfree
          · next hyid =>
            rw [if_neg hyid] at hxid
            exact absurd (hxid.trans hid.symm) hyid
      · exact h.unpaid x hold hopen
  · cases hstep

theorem Accounted.step {b : Board} (h : Accounted b s) (hi : Inv s) {l : Label N} (hl : Charges l)
    (hstep : step cfgs rosters l s = some s') : Accounted b s' := by
  cases l with
  | submit task ts =>
    cases hstep
    exact h.submit task ts hl.2
  | peek i =>
    simp only [Team.step] at hstep
    split at hstep
    · split at hstep
      · cases hstep
        exact h.goto i _
      all_goals
        cases hstep
        exact h
    · cases hstep
  | claim i t => exact h.claim i t hstep
  | writeBack i answer t => exact h.writeBack hi i answer t hl hstep

theorem start_accounted {b : Board} (hb : Unpaid b) : Accounted b (start b : TeamState N) where
  balance := by simp [totals, start]
  unpaid := hb

/-- **No money is lost or counted twice.** In every state that N loops and their neighbours can
reach, what the loops have added up is what the rows have gained, and no task that waits or runs
has been charged. -/
theorem team_accounts (cfgs : Fin N → Supervisor.Config) (rosters : Fin N → Roster) (b : Board)
    (hstill : ∀ r ∈ b.tasks, r.status ≠ "in_progress")
    (hunpaid : ∀ r ∈ b.tasks, r.status = "pending" → r.costUsd = 0) (labels : List (Label N))
    (hcharges : ∀ l ∈ labels, Charges l) :
    let s := final (step cfgs rosters) (start b) labels
    ∑ i, (s.loops i).costSoFarUsd =
        (s.board.tasks.map (·.costUsd)).sum - (b.tasks.map (·.costUsd)).sum ∧
      ∀ r ∈ s.board.tasks, r.status = "pending" ∨ r.status = "in_progress" → r.costUsd = 0 := by
  have hb : Unpaid b := fun r hr hopen => hunpaid r hr (hopen.resolve_right (hstill r hr))
  obtain ⟨-, hbalance, hopen⟩ : Inv (final (Team.step cfgs rosters) (start b) labels) ∧
      Accounted b (final (Team.step cfgs rosters) (start b) labels) :=
    final_invariant
      (fun s l s' (h : Inv s ∧ Accounted b s) hl hstep =>
        ⟨step_inv cfgs rosters s l s' h.1 hl.allowed hstep, h.2.step h.1 hl hstep⟩)
      (start b) labels ⟨start_inv b hstill, start_accounted hb⟩ hcharges
  exact ⟨hbalance, hopen⟩

/-- Two loops, one outcome of 3 dollars. -/
def twoPaid : List (Label 2) :=
  twoPeeks ++ [.writeBack (Fin.last 1) (.ok ⟨.done, 3, none, none, none⟩) ⟨4, 4, 4, 4⟩]

def twoPaidEnd : TeamState 2 :=
  final (step (fun _ => ⟨"team", none, none, 10, false⟩) fun _ => [("builder", ⟨"builder"⟩)])
    (start twoTasks) twoPaid

theorem twoPaid_accounts : ∑ i, (twoPaidEnd.loops i).costSoFarUsd = 3 := by
  have hcharges : ∀ l ∈ twoPaid, Charges l := by
    simp [twoPaid, twoPeeks, Charges]
  obtain ⟨hbalance, -⟩ := team_accounts (fun _ => ⟨"team", none, none, 10, false⟩)
    (fun _ => [("builder", ⟨"builder"⟩)]) twoTasks (by decide) (by decide) twoPaid hcharges
  have hrows : (twoPaidEnd.board.tasks.map (·.costUsd)).sum - (twoTasks.tasks.map (·.costUsd)).sum = 3 := by
    decide +kernel
  exact hbalance.trans hrows

end Swarm.Perpetual.Team
