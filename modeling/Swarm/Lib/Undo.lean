import Mathlib.Data.List.Perm.Subperm

/-!
# Edits that are taken back

A log of edits. An edit may name an earlier one and take back its last application. `standing`
keeps the applications that nothing took back, the last one first, each with its place in the log.
-/

namespace Swarm.Lib

variable {α : Type*} [DecidableEq α]

/-- One entry of a log of edits. -/
inductive Edit (α : Type*)
  | keep
  | apply (a : α)
  | undo (a : α)

def Edit.act (n : Nat) (stack : List (α × Nat)) : Edit α → List (α × Nat)
  | .keep => stack
  | .apply a => (a, n) :: stack
  | .undo a => stack.eraseP (·.1 = a)

def standingFrom (n : Nat) (stack : List (α × Nat)) : List (Edit α) → List (α × Nat)
  | [] => stack
  | e :: es => standingFrom (n + 1) (e.act n stack) es

/-- The applications that were not taken back, the last one first, each with its place. -/
def standing (log : List (Edit α)) : List (α × Nat) := standingFrom 0 [] log

theorem standingFrom_append (n : Nat) (stack : List (α × Nat)) (es fs : List (Edit α)) :
    standingFrom n stack (es ++ fs) =
      standingFrom (n + es.length) (standingFrom n stack es) fs := by
  induction es generalizing n stack with
  | nil => rfl
  | cons e es ih =>
    simp only [List.cons_append, standingFrom, ih, List.length_cons, Nat.add_assoc, Nat.add_comm 1]

theorem standing_append (es fs : List (Edit α)) :
    standing (es ++ fs) = standingFrom es.length (standing es) fs := by
  simp [standing, standingFrom_append]

theorem standingFrom_apply (n : Nat) (stack : List (α × Nat)) (as : List α) :
    standingFrom n stack (as.map .apply) = (as.zipIdx n).reverse ++ stack := by
  induction as generalizing n stack with
  | nil => rfl
  | cons a as ih => simp [standingFrom, Edit.act, ih]

/-- Taking back some of what is on top of the stack leaves the rest alone. -/
theorem standingFrom_undo_some (n : Nat) {top : List (α × Nat)} (stack : List (α × Nat))
    {as : List α} (has : as.Subperm (top.map Prod.fst)) :
    ∃ rest, standingFrom n (top ++ stack) (as.map .undo) = rest ++ stack := by
  induction as generalizing n top with
  | nil => exact ⟨top, rfl⟩
  | cons a as ih =>
    have hmem : a ∈ top.map Prod.fst := has.subset (by simp)
    obtain ⟨entry, hentry, rfl⟩ := List.mem_map.mp hmem
    have herase : (top.map Prod.fst).erase entry.1 = (top.eraseP (·.1 = entry.1)).map Prod.fst := by
      rw [List.erase_eq_eraseP, List.eraseP_map]
      congr 2
      funext p
      simp [Function.comp, Bool.beq_eq_decide_eq, eq_comm]
    have hrest : as.Subperm ((top.eraseP (·.1 = entry.1)).map Prod.fst) := by
      rw [← herase]
      simpa using has.erase entry.1
    obtain ⟨rest, h⟩ := ih (n + 1) hrest
    refine ⟨rest, ?_⟩
    simp only [List.map_cons, standingFrom, Edit.act]
    rw [List.eraseP_append_left (by simp) _ hentry, h]

end Swarm.Lib
