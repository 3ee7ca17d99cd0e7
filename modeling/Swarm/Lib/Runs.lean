import Mathlib.Data.List.Basic

/-!
# Runs of a labelled machine

A machine takes a label in a state or refuses it. A run is a list of labels, and its path the
steps that the machine takes before it refuses one.
-/

namespace Swarm.Lib

variable {State Label : Type*}

/-- A step that was taken, with the states before and after it. -/
structure Step (State Label : Type*) where
  before : State
  label : Label
  after : State

section Path

variable (step : Label → State → Option State)

/-- The steps that are taken, up to the first that cannot be. -/
def path : State → List Label → List (Step State Label)
  | _, [] => []
  | s, l :: rest =>
    match step l s with
    | none => []
    | some s' => ⟨s, l, s'⟩ :: path s' rest

/-- The state at the end of the path. -/
def final : State → List Label → State
  | s, [] => s
  | s, l :: rest =>
    match step l s with
    | none => s
    | some s' => final s' rest

variable {step}

theorem final_invariant {Inv : State → Prop} {Allowed : Label → Prop}
    (hstep : ∀ s l s', Inv s → Allowed l → step l s = some s' → Inv s')
    (s : State) (labels : List Label) (hs : Inv s) (hallowed : ∀ l ∈ labels, Allowed l) :
    Inv (final step s labels) := by
  induction labels generalizing s with
  | nil => exact hs
  | cons l rest ih =>
    obtain ⟨hl, hrest⟩ := List.forall_mem_cons.mp hallowed
    simp only [final]
    cases htaken : step l s with
    | none => exact hs
    | some s' => exact ih s' (hstep s l s' hs hl htaken) hrest

theorem label_mem_of_path {s : State} {labels : List Label} {p : Step State Label}
    (hp : p ∈ path step s labels) : p.label ∈ labels := by
  induction labels generalizing s with
  | nil => simp [path] at hp
  | cons l rest ih =>
    simp only [path] at hp
    cases htaken : step l s with
    | none => simp [htaken] at hp
    | some s' =>
      simp only [htaken, List.mem_cons] at hp
      rcases hp with rfl | hp
      · exact List.mem_cons_self
      · exact List.mem_cons_of_mem l (ih hp)

theorem forall_path_cons {P : Step State Label → Prop} {s s' : State} {l : Label}
    {rest : List Label} (htaken : step l s = some s') :
    (∀ p ∈ path step s (l :: rest), P p) ↔ P ⟨s, l, s'⟩ ∧ ∀ p ∈ path step s' rest, P p := by
  simp [path, htaken]

/-- An invariant of the steps that meet `Cond` holds all along a path of such steps. -/
theorem path_invariant {Inv : State → Prop} {Cond : State → Label → Prop}
    (hstep : ∀ s l s', Inv s → Cond s l → step l s = some s' → Inv s')
    (s : State) (labels : List Label) (hs : Inv s)
    (hcond : ∀ p ∈ path step s labels, Cond p.before p.label) :
    ∀ p ∈ path step s labels, Inv p.after := by
  induction labels generalizing s with
  | nil => simp [path]
  | cons l rest ih =>
    simp only [path] at hcond ⊢
    cases htaken : step l s with
    | none => simp
    | some s₁ =>
      simp only [htaken, List.forall_mem_cons] at hcond ⊢
      have h₁ := hstep s l s₁ hs hcond.1 htaken
      exact ⟨h₁, ih s₁ h₁ hcond.2⟩

/-- What such steps do where the invariant holds, they do all along the path. -/
theorem path_steps {Inv : State → Prop} {Cond : State → Label → Prop} {P : Step State Label → Prop}
    (hinv : ∀ s l s', Inv s → Cond s l → step l s = some s' → Inv s')
    (hstep : ∀ s l s', Inv s → Cond s l → step l s = some s' → P ⟨s, l, s'⟩)
    (s : State) (labels : List Label) (hs : Inv s)
    (hcond : ∀ p ∈ path step s labels, Cond p.before p.label) :
    ∀ p ∈ path step s labels, P p := by
  induction labels generalizing s with
  | nil => simp [path]
  | cons l rest ih =>
    simp only [path] at hcond ⊢
    cases htaken : step l s with
    | none => simp
    | some s₁ =>
      simp only [htaken, List.forall_mem_cons] at hcond ⊢
      exact ⟨hstep s l s₁ hs hcond.1 htaken, ih s₁ (hinv s l s₁ hs hcond.1 htaken) hcond.2⟩

/-- A run is no longer than what is left to do. -/
theorem path_length_le {Inv : State → Prop} {left : State → Nat}
    (hinv : ∀ s l s', Inv s → step l s = some s' → Inv s')
    (hleft : ∀ s l s', Inv s → step l s = some s' → left s' < left s)
    (s : State) (labels : List Label) (hs : Inv s) : (path step s labels).length ≤ left s := by
  induction labels generalizing s with
  | nil => exact Nat.zero_le _
  | cons l rest ih =>
    simp only [path]
    cases htaken : step l s with
    | none => exact Nat.zero_le _
    | some s₁ =>
      exact Nat.le_trans (Nat.succ_le_succ (ih s₁ (hinv s l s₁ hs htaken))) (hleft s l s₁ hs htaken)

theorem path_forall_congr {Inv : State → Prop} {P Q : Step State Label → Prop}
    (hinv : ∀ s l s', Inv s → step l s = some s' → Inv s')
    (hiff : ∀ s l s', Inv s → step l s = some s' → (P ⟨s, l, s'⟩ ↔ Q ⟨s, l, s'⟩))
    (s : State) (labels : List Label) (hs : Inv s) :
    (∀ p ∈ path step s labels, P p) ↔ ∀ p ∈ path step s labels, Q p := by
  induction labels generalizing s with
  | nil => simp [path]
  | cons l rest ih =>
    simp only [path]
    cases htaken : step l s with
    | none => simp
    | some s₁ =>
      simp only [List.forall_mem_cons]
      exact and_congr (hiff s l s₁ hs htaken) (ih s₁ (hinv s l s₁ hs htaken))

/-- Where a step from a good state leads to a good state exactly when it meets `Cond`, all
states of the path are good exactly when all its steps meet `Cond`. Only paths with `Allowed` steps
count. -/
theorem path_good_iff_of_allowed {Inv Good : State → Prop} {Cond : State → Label → Prop}
    {Allowed : Step State Label → Prop}
    (hinv : ∀ s l s', Inv s → Allowed ⟨s, l, s'⟩ → step l s = some s' → Inv s')
    (hgood : ∀ s l s', Inv s → Good s → Allowed ⟨s, l, s'⟩ → step l s = some s' →
      (Good s' ↔ Cond s l))
    (s : State) (labels : List Label) (hs : Inv s) (hs' : Good s)
    (hallowed : ∀ p ∈ path step s labels, Allowed p) :
    (∀ p ∈ path step s labels, Good p.after) ↔ ∀ p ∈ path step s labels, Cond p.before p.label := by
  induction labels generalizing s with
  | nil => simp [path]
  | cons l rest ih =>
    simp only [path] at hallowed ⊢
    cases htaken : step l s with
    | none => simp
    | some s₁ =>
      simp only [htaken, List.forall_mem_cons] at hallowed ⊢
      have hiff := hgood s l s₁ hs hs' hallowed.1 htaken
      constructor
      · rintro ⟨h₁, hrest⟩
        exact ⟨hiff.mp h₁, (ih s₁ (hinv s l s₁ hs hallowed.1 htaken) h₁ hallowed.2).mp hrest⟩
      · rintro ⟨h₁, hrest⟩
        exact ⟨hiff.mpr h₁, (ih s₁ (hinv s l s₁ hs hallowed.1 htaken) (hiff.mpr h₁) hallowed.2).mpr hrest⟩

theorem path_good_iff {Inv Good : State → Prop} {Cond : State → Label → Prop}
    (hinv : ∀ s l s', Inv s → step l s = some s' → Inv s')
    (hgood : ∀ s l s', Inv s → Good s → step l s = some s' → (Good s' ↔ Cond s l))
    (s : State) (labels : List Label) (hs : Inv s) (hs' : Good s) :
    (∀ p ∈ path step s labels, Good p.after) ↔ ∀ p ∈ path step s labels, Cond p.before p.label :=
  path_good_iff_of_allowed (fun s l s' h (_ : True) => hinv s l s' h)
    (fun s l s' h h' (_ : True) => hgood s l s' h h') s labels hs hs'
    fun _ _ => trivial

end Path

end Swarm.Lib
