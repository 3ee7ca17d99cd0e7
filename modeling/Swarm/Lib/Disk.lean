import Mathlib.Data.List.Infix
import Mathlib.Logic.Function.Basic

/-!
# A directory of files

A directory maps names to files. Who writes to a file writes to it under whatever name it has, and
who has opened a file keeps it when another file takes its name.
-/

namespace Swarm.Lib

structure Disk (Name Byte : Type*) where
  entry : Name → Option Nat
  data : Nat → List Byte
  /-- Every file has a smaller number. -/
  next : Nat

namespace Disk

variable {Name Byte : Type*}

/-- What one reads under a name. -/
def contents (d : Disk Name Byte) (n : Name) : Option (List Byte) := (d.entry n).map d.data

def append (i : Nat) (more : List Byte) (d : Disk Name Byte) : Disk Name Byte :=
  { d with data := Function.update d.data i (d.data i ++ more) }

section

variable [DecidableEq Name]

/-- A new empty file. -/
def create (n : Name) (d : Disk Name Byte) : Disk Name Byte :=
  ⟨Function.update d.entry n (some d.next), Function.update d.data d.next [], d.next + 1⟩

/-- `rename(2)`: the name `dst` is given to the file of `src` in one step. -/
def rename (src dst : Name) (d : Disk Name Byte) : Disk Name Byte :=
  { d with entry := Function.update (Function.update d.entry src none) dst (d.entry src) }

/-- The name goes, and the file stays for those who have opened it. -/
def unlink (n : Name) (d : Disk Name Byte) : Disk Name Byte :=
  { d with entry := Function.update d.entry n none }

end

/-- No file has two names. -/
structure Valid (d : Disk Name Byte) : Prop where
  below : ∀ n i, d.entry n = some i → i < d.next
  single : ∀ m n i, d.entry m = some i → d.entry n = some i → m = n

/-! ## Steps keep a directory valid -/

variable {d : Disk Name Byte}

theorem Valid.append (h : d.Valid) (i : Nat) (more : List Byte) : (d.append i more).Valid :=
  ⟨h.below, h.single⟩

section

variable [DecidableEq Name]

theorem Valid.unlink (h : d.Valid) (n : Name) : (d.unlink n).Valid where
  below m i hm := by
    simp only [Disk.unlink, Function.update_apply] at hm
    split at hm
    · cases hm
    · exact h.below m i hm
  single m m' i hm hm' := by
    simp only [Disk.unlink, Function.update_apply] at hm hm'
    split at hm
    · cases hm
    · split at hm'
      · cases hm'
      · exact h.single m m' i hm hm'

theorem Valid.create (h : d.Valid) (n : Name) : (d.create n).Valid where
  below m i hm := by
    simp only [Disk.create, Function.update_apply] at hm ⊢
    split at hm
    · cases hm
      exact Nat.lt_succ_self _
    · exact Nat.lt_succ_of_lt (h.below m i hm)
  single m m' i hm hm' := by
    have hnext : ∀ k, d.entry k ≠ some d.next := fun k hk => Nat.lt_irrefl _ (h.below k _ hk)
    simp only [Disk.create, Function.update_apply] at hm hm'
    split at hm <;> split at hm'
    · simp [*]
    · cases hm
      exact absurd hm' (hnext m')
    · cases hm'
      exact absurd hm (hnext m)
    · exact h.single m m' i hm hm'

theorem Valid.rename (h : d.Valid) (src dst : Name) : (d.rename src dst).Valid where
  below m i hm := by
    simp only [Disk.rename, Function.update_apply] at hm ⊢
    split at hm
    · exact h.below src i hm
    · split at hm
      · cases hm
      · exact h.below m i hm
  single m m' i hm hm' := by
    simp only [Disk.rename, Function.update_apply] at hm hm'
    split at hm <;> split at hm'
    · simp [*]
    · split at hm'
      · cases hm'
      · next hsrc => exact absurd (h.single m' src i hm' hm) hsrc
    · split at hm
      · cases hm
      · next hsrc => exact absurd (h.single m src i hm hm') hsrc
    · split at hm
      · cases hm
      · split at hm'
        · cases hm'
        · exact h.single m m' i hm hm'

/-! ## What readers see -/

theorem contents_create_of_ne (h : d.Valid) {n m : Name} (hne : m ≠ n) :
    (d.create n).contents m = d.contents m := by
  simp only [contents, create, Function.update_of_ne hne]
  cases hm : d.entry m with
  | none => rfl
  | some i => simp [Function.update_of_ne (Nat.ne_of_lt (h.below m i hm))]

theorem contents_rename (src dst : Name) (m : Name) :
    (d.rename src dst).contents m = if m = dst then d.contents src else if m =
      src then none else d.contents m := by
  simp only [contents, rename, Function.update_apply]
  split
  · rfl
  · split <;> rfl

theorem contents_unlink (n m : Name) :
    (d.unlink n).contents m = if m = n then none else d.contents m := by
  simp only [contents, unlink, Function.update_apply]
  split <;> rfl

end

theorem contents_append_of_ne {m : Name} {i : Nat} (h : d.entry m ≠ some i) (more : List Byte) :
    (d.append i more).contents m = d.contents m := by
  simp only [contents, append]
  cases hm : d.entry m with
  | none => rfl
  | some j =>
    have hj : j ≠ i := fun hj => h (hj ▸ hm)
    simp [Function.update_of_ne hj]

end Disk

end Swarm.Lib
