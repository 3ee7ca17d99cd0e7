import Mathlib.Data.List.Perm.Basic
import Mathlib.Data.List.Nodup
import Mathlib.Data.List.Range
import Swarm.Lib.Runs

/-!
# A pool of workers

Jobs `0, …, total - 1` are submitted in order. At most `width` of them run at once, those submitted
first begin first, and they end in any order, each with a result.
-/

namespace Swarm.Lib

/-- How many jobs were submitted, which wait, which run, and what the others gave. -/
structure Pool (β : Type*) where
  submitted : Nat
  queue : List Nat
  running : List Nat
  finished : List (Nat × β)

namespace Pool

variable {β : Type*}

def idle : Pool β := ⟨0, [], [], []⟩

/-- A job is submitted, taken by a worker, or finished. -/
inductive Label (β : Type*)
  | submit
  | take
  | finish (i : Nat) (result : β)

variable (width total : Nat)

def step (l : Label β) (p : Pool β) : Option (Pool β) :=
  match l with
  | .submit =>
    if p.submitted < total then some { p with submitted := p.submitted + 1, queue := p.queue ++ [p.submitted] }
    else none
  | .take =>
    match p.queue with
    | [] => none
    | i :: rest =>
      if p.running.length < width then some { p with queue := rest, running := i :: p.running } else none
  | .finish i result =>
    if i ∈ p.running then
      some { p with running := p.running.erase i, finished := (i, result) :: p.finished } else none

/-- The jobs that have begun. -/
def begun (p : Pool β) : List Nat := p.running ++ p.finished.map (·.1)

structure Inv (p : Pool β) : Prop where
  submitted : p.submitted ≤ total
  width : p.running.length ≤ width
  /-- The first so many have begun, each of them once. -/
  begun : p.begun.Perm (List.range p.begun.length)
  queue : p.queue = List.range' p.begun.length p.queue.length
  all : p.begun.length + p.queue.length = p.submitted

variable {width total} {p p' : Pool β} {l : Label β}

theorem inv_idle : Inv width total (idle : Pool β) :=
  ⟨Nat.zero_le _, Nat.zero_le _, .refl _, rfl, rfl⟩

theorem Inv.step (h : Inv width total p) (hstep : step width total l p = some p') :
    Inv width total p' := by
  cases l with
  | submit =>
    obtain ⟨hlt, ⟨⟩⟩ := Option.ite_none_right_eq_some.mp hstep
    refine ⟨hlt, h.width, h.begun, ?_, ?_⟩
    · -- The queue has the numbers from the first that has not begun.
      change p.queue ++ [p.submitted] = List.range' p.begun.length (p.queue ++ [p.submitted]).length
      rw [List.length_append, List.length_singleton, List.range'_1_concat, ← h.queue, h.all]
    · change p.begun.length + (p.queue ++ [p.submitted]).length = p.submitted + 1
      rw [List.length_append, List.length_singleton, ← h.all, Nat.add_assoc]
  | take =>
    simp only [Pool.step] at hstep
    split at hstep
    · simp at hstep
    · next i rest hqueue =>
      obtain ⟨hlt, ⟨⟩⟩ := Option.ite_none_right_eq_some.mp hstep
      have hq := h.queue
      have hall := h.all
      rw [hqueue, List.length_cons, List.range'_succ] at hq
      rw [hqueue, List.length_cons] at hall
      -- The head of the queue is the number of those that have begun.
      obtain ⟨hi, hrest⟩ := List.cons.inj hq
      have hbegun : ({ p with queue := rest, running := i :: p.running } : Pool β).begun = i :: p.begun := rfl
      refine ⟨h.submitted, hlt, ?_, ?_, ?_⟩
      · rw [hbegun, List.length_cons, List.range_succ, hi]
        exact (h.begun.cons _).trans (List.perm_append_singleton _ _).symm
      · rw [hbegun, List.length_cons]
        exact hrest
      · rw [hbegun, List.length_cons]
        exact (by omega : p.begun.length + 1 + rest.length = p.submitted)
  | finish i result =>
    obtain ⟨hi, ⟨⟩⟩ := Option.ite_none_right_eq_some.mp hstep
    -- A job that ends moves from the running to the finished.
    have hperm : (p.running.erase i ++ i :: p.finished.map (·.1)).Perm p.begun :=
      List.perm_middle.trans (((List.perm_cons_erase hi).symm).append_right _)
    have hlen := hperm.length_eq
    have hbegun : ({ p with running := p.running.erase i, finished := (i, result) :: p.finished } : Pool β).begun =
        p.running.erase i ++ i :: p.finished.map (·.1) := rfl
    refine ⟨h.submitted, (List.length_erase_le).trans h.width, ?_, ?_, ?_⟩
    · rw [hbegun, hlen]
      exact hperm.trans h.begun
    · rw [hbegun, hlen]
      exact h.queue
    · rw [hbegun, hlen]
      exact h.all

theorem Inv.nodup (h : Inv width total p) : p.begun.Nodup := h.begun.nodup_iff.mpr List.nodup_range

theorem Inv.lt_total (h : Inv width total p) {i : Nat} (hi : i ∈ p.begun) : i < total := by
  have hlt := List.mem_range.mp (h.begun.subset hi)
  have := h.all
  have := h.submitted
  omega

/-! ## The end -/

/-- No job is left. -/
def Drained (total : Nat) (p : Pool β) : Prop := p.submitted = total ∧ p.queue = [] ∧ p.running = []

instance : Decidable (Drained total p) := inferInstanceAs (Decidable (_ ∧ _))

theorem Inv.drained (h : Inv width total p) (hdrained : Drained total p) :
    (p.finished.map (·.1)).Perm (List.range total) := by
  obtain ⟨hsubmitted, hqueue, hrunning⟩ := hdrained
  have hbegun := h.begun
  have hall := h.all
  rw [hqueue, List.length_nil, Nat.add_zero, hsubmitted] at hall
  rw [hall] at hbegun
  simpa [Pool.begun, hrunning] using hbegun

/-- Some step is possible until no job is left. -/
theorem Inv.progress (h : Inv width total p) (hwidth : 0 < width) (hleft : ¬ Drained total p)
    (result : β) :
    ∃ l p', Pool.step width total l p = some p' := by
  by_cases hsubmitted : p.submitted < total
  · exact ⟨.submit, _, if_pos hsubmitted⟩
  · cases hrunning : p.running with
    | cons i rest => exact ⟨.finish i result, _, if_pos (by simp [hrunning])⟩
    | nil =>
      cases hqueue : p.queue with
      | nil =>
        have hle := h.submitted
        exact absurd ⟨by omega, hqueue, hrunning⟩ hleft
      | cons i rest =>
        refine ⟨.take, { p with queue := rest, running := i :: p.running }, ?_⟩
        simp [Pool.step, hqueue, hrunning, hwidth]

/-- What is left to do: submit, take and finish each job. -/
def left (total : Nat) (p : Pool β) : Nat :=
  3 * (total - p.submitted) + 2 * p.queue.length + p.running.length

theorem left_step (hstep : step width total l p = some p') : left total p = left total p' + 1 := by
  unfold left
  cases l with
  | submit =>
    obtain ⟨hlt, ⟨⟩⟩ := Option.ite_none_right_eq_some.mp hstep
    simp only [List.length_append, List.length_singleton]
    omega
  | take =>
    simp only [Pool.step] at hstep
    split at hstep
    · simp at hstep
    · next i rest hqueue =>
      obtain ⟨-, ⟨⟩⟩ := Option.ite_none_right_eq_some.mp hstep
      simp only [hqueue, List.length_cons]
      omega
  | finish i result =>
    obtain ⟨hi, ⟨⟩⟩ := Option.ite_none_right_eq_some.mp hstep
    have hpos := List.length_pos_of_mem hi
    simp only [List.length_erase_of_mem hi]
    omega

end Pool

end Swarm.Lib
