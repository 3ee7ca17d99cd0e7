import Mathlib.Order.WellFounded
import Mathlib.Data.Fintype.Order
import Mathlib.Logic.Relation

/-!
# Acyclic relations

On a finite list an acyclic relation leaves an element that needs none of the others.
-/

namespace Swarm.Lib

variable {α : Type*}

/-- Nothing needs itself, directly or through others. -/
def Acyclic (needs : α → α → Prop) : Prop := ∀ a, ¬ Relation.TransGen needs a a

theorem Acyclic.of_rank {needs : α → α → Prop} (rank : α → Nat)
    (h : ∀ a b, needs a b → rank b < rank a) : Acyclic needs := by
  intro a ha
  have hpath : ∀ b, Relation.TransGen needs a b → rank b < rank a := by
    intro b hb
    induction hb with
    | single hab => exact h _ _ hab
    | tail _ hbc ih => exact (h _ _ hbc).trans ih
  exact (hpath a ha).false

theorem Acyclic.mono {needs needs' : α → α → Prop} (h : Acyclic needs)
    (hsub : ∀ a b, needs' a b → needs a b) : Acyclic needs' :=
  fun a ha => h a (Relation.TransGen.mono hsub a a ha)

theorem Acyclic.exists_minimal {needs : α → α → Prop} (h : Acyclic needs) (l : List α)
    (hl : l ≠ []) : ∃ a ∈ l, ∀ b ∈ l, ¬ needs a b := by
  let path : {a // a ∈ l} → {a // a ∈ l} → Prop := fun b a => Relation.TransGen needs a.1 b.1
  have htrans : IsTrans _ path := ⟨fun _ _ _ hab hbc => hbc.trans hab⟩
  have hirrefl : Std.Irrefl path := ⟨fun a => h a.1⟩
  have hfinite : Finite {a // a ∈ l} := List.finite_toSet l
  obtain ⟨x, hx⟩ := List.exists_mem_of_ne_nil l hl
  obtain ⟨m, -, hm⟩ :=
    (Finite.wellFounded_of_trans_of_irrefl path).has_min Set.univ ⟨⟨x, hx⟩, trivial⟩
  exact ⟨m.1, m.2, fun b hb hneeds => hm ⟨b, hb⟩ trivial (.single hneeds)⟩

end Swarm.Lib
