import Mathlib.Data.List.Infix

/-! # A search with a limit that only some items look at -/

namespace Swarm.Lib

variable {α ε : Type} (verdict : α → Except ε Bool) (tests : α → Bool)

/-- The items with a good verdict, in order. The limit is looked at after an item that `tests`. -/
def collect (limit : Option Nat) : List α → List α → Except ε (List α)
  | [], out => .ok out
  | x :: rest, out =>
    match verdict x with
    | .error e => .error e
    | .ok good =>
      let out := if good then out ++ [x] else out
      if tests x && limit.any (· ≤ out.length) then .ok out else collect limit rest out

/-- The item passes, where it has a verdict at all. -/
def good (x : α) : Bool := (verdict x).toOption = some true

variable {verdict tests}

theorem collect_step {x : α} {g : Bool} (h : verdict x = .ok g) (limit : Option Nat)
    (rest out : List α) :
    collect verdict tests limit (x :: rest) out =
      if tests x && limit.any (· ≤ (out ++ [x].filter (good verdict)).length) then
        .ok (out ++ [x].filter (good verdict))
      else collect verdict tests limit rest (out ++ [x].filter (good verdict)) := by
  have hgood : good verdict x = g := by simp [good, h, Except.toOption]
  rw [collect, h]
  cases g <;> simp [hgood]

theorem collect_error {x : α} {e : ε} (h : verdict x = .error e) (limit : Option Nat)
    (rest out : List α) :
    collect verdict tests limit (x :: rest) out = .error e := by
  rw [collect, h]

theorem collect_next {x : α} {g : Bool} (h : verdict x = .ok g) (rest out : List α) :
    collect verdict tests none (x :: rest) out =
      collect verdict tests none rest (out ++ [x].filter (good verdict)) := by
  rw [collect_step h, Option.any_none, Bool.and_false, if_neg Bool.false_ne_true]

theorem gathered_cons (p : α → Bool) (x : α) (before out : List α) :
    out ++ (x :: before).filter p = (out ++ [x].filter p) ++ before.filter p := by
  rw [List.append_assoc, ← List.filter_append, List.singleton_append]

theorem collect_none {xs out L : List α} (h : collect verdict tests none xs out = .ok L) :
    L = out ++ xs.filter (good verdict) ∧ ∀ x ∈ xs, ∃ g, verdict x = .ok g := by
  induction xs generalizing out with
  | nil =>
    cases h
    simp
  | cons x rest ih =>
    cases hx : verdict x with
    | error e =>
      rw [collect_error hx] at h
      cases h
    | ok g =>
      rw [collect_next hx] at h
      obtain ⟨hL, hrest⟩ := ih h
      refine ⟨?_, List.forall_mem_cons.mpr ⟨⟨g, hx⟩, hrest⟩⟩
      rw [hL, List.append_assoc, ← List.filter_append, List.singleton_append]

theorem collect_none_error {xs out : List α} {e : ε}
    (h : collect verdict tests none xs out = .error e) :
    ∃ x ∈ xs, ∃ e, verdict x = .error e := by
  induction xs generalizing out with
  | nil => cases h
  | cons x rest ih =>
    cases hx : verdict x with
    | error e' => exact ⟨x, List.mem_cons_self, e', hx⟩
    | ok g =>
      rw [collect_next hx] at h
      obtain ⟨y, hy, hraises⟩ := ih h
      exact ⟨y, List.mem_cons_of_mem x hy, hraises⟩

/-- With a limit the search ends early or not, and never short of the limit. -/
theorem collect_prefix {n : Nat} {xs out L : List α}
    (h : collect verdict tests none xs out = .ok L) :
    ∃ L', collect verdict tests (some n) xs out = .ok L' ∧ L' <+: L ∧ (L' = L ∨ n ≤ L'.length) := by
  induction xs generalizing out with
  | nil =>
    cases h
    exact ⟨L, rfl, List.prefix_rfl, .inl rfl⟩
  | cons x rest ih =>
    obtain ⟨hL, hall⟩ := collect_none h
    obtain ⟨g, hx⟩ := hall x List.mem_cons_self
    rw [collect_next hx] at h
    rw [collect_step hx]
    split
    · next hstop =>
      simp only [Option.any_some, Bool.and_eq_true, decide_eq_true_eq] at hstop
      refine ⟨_, rfl, ?_, .inr hstop.2⟩
      rw [(collect_none h).1]
      exact List.prefix_append _ _
    · exact ih h

/-- The search that ends with no more than its limit: nothing is left out, or an item that tests is
the last of those among which the limit is just reached. -/
theorem collect_le_iff {n : Nat} {xs out L L' : List α}
    (h : collect verdict tests none xs out = .ok L)
    (h' : collect verdict tests (some n) xs out = .ok L') :
    L'.length ≤ n ↔ L.length ≤ n ∨ ∃ before y after, xs = before ++ y :: after ∧ tests y = true ∧
      (out ++ (before ++ [y]).filter (good verdict)).length = n := by
  induction xs generalizing out with
  | nil =>
    cases h
    cases h'
    simp
  | cons x rest ih =>
    obtain ⟨g, hx⟩ := (collect_none h).2 x List.mem_cons_self
    rw [collect_next hx] at h
    rw [collect_step hx] at h'
    split at h'
    · next hstop =>
      simp only [Option.any_some, Bool.and_eq_true, decide_eq_true_eq] at hstop
      cases h'
      constructor
      · intro hle
        exact .inr ⟨[], x, rest, rfl, hstop.1, le_antisymm hle hstop.2⟩
      · rintro (hle | ⟨before, y, after, hsplit, -, hlen⟩)
        · rw [(collect_none h).1, List.length_append] at hle
          omega
        · cases before with
          | nil =>
            obtain ⟨rfl, -⟩ := List.cons.inj hsplit
            exact hlen.le
          | cons x' before =>
            obtain ⟨rfl, -⟩ := List.cons.inj hsplit
            rw [List.cons_append, gathered_cons, List.length_append] at hlen
            omega
    · next hgo =>
      rw [ih h h']
      apply or_congr_right
      constructor
      · rintro ⟨before, y, after, rfl, hy, hlen⟩
        refine ⟨x :: before, y, after, rfl, hy, ?_⟩
        rw [List.cons_append, gathered_cons]
        exact hlen
      · rintro ⟨before, y, after, hsplit, hy, hlen⟩
        cases before with
        | nil =>
          -- The search would have ended here.
          obtain ⟨rfl, -⟩ := List.cons.inj hsplit
          simp only [List.nil_append] at hlen
          simp [hy, hlen] at hgo
        | cons x' before =>
          obtain ⟨rfl, rfl⟩ := List.cons.inj hsplit
          refine ⟨before, y, after, rfl, hy, ?_⟩
          rw [List.cons_append, gathered_cons] at hlen
          exact hlen

theorem collect_take_iff {n : Nat} {xs L : List α} (h : collect verdict tests none xs [] = .ok L) :
    collect verdict tests (some n) xs [] = .ok (L.take n) ↔
      (xs.filter (good verdict)).length ≤ n ∨ ∃ before y after, xs = before ++ y :: after ∧
        tests y = true ∧
        ((before ++ [y]).filter (good verdict)).length = n := by
  obtain ⟨L', h', hprefix, hend⟩ := collect_prefix (n := n) h
  have hL : L = xs.filter (good verdict) := (collect_none h).1
  have hshort := collect_le_iff h h'
  simp only [List.nil_append] at hshort
  rw [← hL, ← hshort, h', Except.ok.injEq]
  constructor
  · rintro rfl
    exact List.length_take_le n L
  · intro hle
    rcases hend with rfl | hn
    · exact (List.take_of_length_le hle).symm
    · have hlen : L'.length = n := le_antisymm hle hn
      rw [← hlen]
      exact List.prefix_iff_eq_take.mp hprefix

/-- The limited search raises with the other one unless it ends before. -/
theorem collect_error_iff {n : Nat} {xs out : List α} {e : ε}
    (h : collect verdict tests none xs out = .error e) :
    collect verdict tests (some n) xs out = .error e ↔
      ∀ before y after, xs = before ++ y :: after → (∀ z ∈ before ++ [y], ∃ g, verdict z = .ok g) →
        tests y = true → (out ++ (before ++ [y]).filter (good verdict)).length < n := by
  induction xs generalizing out with
  | nil => cases h
  | cons x rest ih =>
    cases hx : verdict x with
    | error e' =>
      rw [collect_error hx] at h ⊢
      refine iff_of_true h fun before y after hsplit hverdicts _ => ?_
      have hmem : x ∈ before ++ [y] := by
        cases before with
        | nil =>
          obtain ⟨rfl, -⟩ := List.cons.inj hsplit
          exact List.mem_cons_self
        | cons x' before =>
          obtain ⟨rfl, -⟩ := List.cons.inj hsplit
          exact List.mem_cons_self
      obtain ⟨g, hg⟩ := hverdicts x hmem
      rw [hx] at hg
      cases hg
    | ok g =>
      rw [collect_next hx] at h
      rw [collect_step hx]
      split
      · next hstop =>
        simp only [Option.any_some, Bool.and_eq_true, decide_eq_true_eq] at hstop
        refine iff_of_false (by simp) fun hall => ?_
        have hverdict : ∀ z ∈ [] ++ [x], ∃ g, verdict z = .ok g := by
          rw [List.nil_append, List.forall_mem_singleton]
          exact ⟨g, hx⟩
        have hlt := hall [] x rest rfl hverdict hstop.1
        rw [List.nil_append] at hlt
        omega
      · next hgo =>
        rw [ih h]
        constructor
        · intro hall before y after hsplit hverdicts hy
          cases before with
          | nil =>
            -- The search would have ended here.
            obtain ⟨rfl, -⟩ := List.cons.inj hsplit
            rw [List.nil_append]
            simpa [hy] using hgo
          | cons x' before =>
            obtain ⟨rfl, rfl⟩ := List.cons.inj hsplit
            rw [List.cons_append, gathered_cons]
            exact hall before y after rfl (fun z hz => hverdicts z (List.mem_cons_of_mem _ hz)) hy
        · intro hall before y after hsplit hverdicts hy
          rw [hsplit] at hall
          have hlt := hall (x :: before) y after rfl ?_ hy
          · rw [List.cons_append, gathered_cons] at hlt
            exact hlt
          · rw [List.cons_append]
            exact List.forall_mem_cons.mpr ⟨⟨g, hx⟩, hverdicts⟩

/-! ## The first item -/

theorem collect_grows {limit : Option Nat} {xs out L : List α}
    (h : collect verdict tests limit xs out = .ok L) :
    out <+: L := by
  induction xs generalizing out with
  | nil =>
    cases h
    exact List.prefix_rfl
  | cons x rest ih =>
    cases hx : verdict x with
    | error e =>
      rw [collect_error hx] at h
      cases h
    | ok g =>
      rw [collect_step hx] at h
      split at h
      · cases h
        exact List.prefix_append _ _
      · exact (List.prefix_append _ _).trans (ih h)

/-- The first item of `xs` that tests has a verdict. -/
def NextTested (verdict : α → Except ε Bool) (tests : α → Bool) (xs : List α) : Prop :=
  ∀ skipped y later, xs = skipped ++ y :: later → (∀ z ∈ skipped, tests z = false) → tests y = true →
    ∃ g, verdict y = .ok g

/-- `x` is the first good item, and the search for one item ends after it. -/
def FindsFirst (verdict : α → Except ε Bool) (tests : α → Bool) (xs : List α) (x : α) : Prop :=
  ∃ before after, xs = before ++ x :: after ∧ (∀ y ∈ before, verdict y = .ok false) ∧ verdict x = .ok true ∧
    (tests x = true ∨ NextTested verdict tests after)

theorem findsFirst_behind {y x : α} {rest : List α} (hy : verdict y ≠ .ok true) :
    FindsFirst verdict tests (y :: rest) x ↔
      verdict y = .ok false ∧ FindsFirst verdict tests rest x := by
  constructor
  · rintro ⟨before, after, hsplit, hbefore, hx, hend⟩
    cases before with
    | nil =>
      obtain ⟨rfl, -⟩ := List.cons.inj hsplit
      exact absurd hx hy
    | cons y' before =>
      obtain ⟨rfl, rfl⟩ := List.cons.inj hsplit
      exact ⟨hbefore y List.mem_cons_self, before, after, rfl,
        fun z hz => hbefore z (List.mem_cons_of_mem _ hz), hx, hend⟩
  · rintro ⟨hfalse, before, after, rfl, hbefore, hx, hend⟩
    exact ⟨y :: before, after, rfl, List.forall_mem_cons.mpr ⟨hfalse, hbefore⟩, hx, hend⟩

theorem findsFirst_head {y x : α} {rest : List α} (hy : verdict y = .ok true) :
    FindsFirst verdict tests (y :: rest) x ↔
      x = y ∧ (tests y = true ∨ NextTested verdict tests rest) := by
  constructor
  · rintro ⟨before, after, hsplit, hbefore, -, hend⟩
    cases before with
    | nil =>
      obtain ⟨rfl, rfl⟩ := List.cons.inj hsplit
      exact ⟨rfl, hend⟩
    | cons y' before =>
      obtain ⟨rfl, rfl⟩ := List.cons.inj hsplit
      rw [hbefore y List.mem_cons_self] at hy
      cases hy
  · rintro ⟨rfl, hend⟩
    exact ⟨[], rest, rfl, by simp, hy, hend⟩

theorem nextTested_map {β : Type} (f : β → α) (ys : List β) :
    NextTested verdict tests (ys.map f) ↔ NextTested (verdict ∘ f) (tests ∘ f) ys := by
  constructor
  · rintro h skipped y later rfl hskipped hy
    refine h (skipped.map f) (f y) (later.map f) (by simp) ?_ hy
    rintro z hz
    obtain ⟨x, hx, rfl⟩ := List.mem_map.mp hz
    exact hskipped x hx
  · intro h skipped y later hsplit hskipped hy
    obtain ⟨skipped', rest, rfl, rfl, hrest⟩ := List.map_eq_append_iff.mp hsplit
    obtain ⟨y', later', rfl, rfl, rfl⟩ := List.map_eq_cons_iff.mp hrest
    exact h skipped' y' later' rfl (fun z hz => hskipped (f z) (List.mem_map_of_mem hz)) hy

theorem findsFirst_map {β : Type} (f : β → α) (ys : List β) (x : α) :
    FindsFirst verdict tests (ys.map f) x ↔
      ∃ y, f y = x ∧ FindsFirst (verdict ∘ f) (tests ∘ f) ys y := by
  constructor
  · rintro ⟨before, after, hsplit, hbefore, hx, hend⟩
    obtain ⟨before', rest, rfl, rfl, hrest⟩ := List.map_eq_append_iff.mp hsplit
    obtain ⟨y, after', rfl, rfl, rfl⟩ := List.map_eq_cons_iff.mp hrest
    rw [nextTested_map] at hend
    exact ⟨y, rfl, before', after', rfl, fun z hz => hbefore (f z) (List.mem_map_of_mem hz), hx, hend⟩
  · rintro ⟨y, rfl, before, after, rfl, hbefore, hy, hend⟩
    refine ⟨before.map f, after.map f, by simp, ?_, hy, ?_⟩
    · intro z hz
      obtain ⟨x, hx, rfl⟩ := List.mem_map.mp hz
      exact hbefore x hx
    · rwa [nextTested_map]

section First

variable (hfree : ∀ x, tests x = false → verdict x = .ok true)
include hfree

theorem collect_rest_iff {xs out : List α} (hout : 1 ≤ out.length) :
    (∃ L, collect verdict tests (some 1) xs out = .ok L) ↔ NextTested verdict tests xs := by
  induction xs generalizing out with
  | nil => exact iff_of_true ⟨out, rfl⟩ fun skipped y later h => by simp at h
  | cons x rest ih =>
    cases htest : tests x with
    | true =>
      cases hx : verdict x with
      | error e =>
        rw [collect_error hx]
        refine iff_of_false (by simp) fun h => ?_
        obtain ⟨g, hg⟩ := h [] x rest rfl (by simp) htest
        rw [hx] at hg
        cases hg
      | ok g =>
        have hlen : 1 ≤ (out ++ [x].filter (good verdict)).length := by
          rw [List.length_append]
          omega
        rw [collect_step hx, htest, Bool.true_and, Option.any_some, if_pos (decide_eq_true hlen)]
        -- The list is full after the first element that is tested.
        refine iff_of_true ⟨_, rfl⟩ fun skipped y later hsplit hskipped _ => ?_
        cases skipped with
        | nil =>
          obtain ⟨rfl, -⟩ := List.cons.inj hsplit
          exact ⟨g, hx⟩
        | cons x' skipped =>
          obtain ⟨rfl, -⟩ := List.cons.inj hsplit
          rw [hskipped x List.mem_cons_self] at htest
          cases htest
    | false =>
      rw [collect_step (hfree x htest), htest, Bool.false_and, if_neg Bool.false_ne_true,
        ih (by rw [List.length_append]; omega)]
      -- An element that is not tested is skipped, and the limit is not looked at.
      constructor
      · intro h skipped y later hsplit hskipped hy
        cases skipped with
        | nil =>
          obtain ⟨rfl, -⟩ := List.cons.inj hsplit
          rw [hy] at htest
          cases htest
        | cons x' skipped =>
          obtain ⟨rfl, rfl⟩ := List.cons.inj hsplit
          exact h skipped y later rfl (fun z hz => hskipped z (List.mem_cons_of_mem _ hz)) hy
      · rintro h skipped y later rfl hskipped hy
        exact h (x :: skipped) y later rfl (List.forall_mem_cons.mpr ⟨htest, hskipped⟩) hy

theorem collect_first_iff {xs : List α} {x : α} :
    (∃ L, collect verdict tests (some 1) xs [] = .ok (x :: L)) ↔ FindsFirst verdict tests xs x := by
  induction xs with
  | nil =>
    refine iff_of_false (by simp [collect]) ?_
    rintro ⟨before, after, h, -⟩
    simp at h
  | cons y rest ih =>
    cases hy : verdict y with
    | error e =>
      rw [collect_error hy, findsFirst_behind (by rw [hy]; exact fun h => by cases h), hy]
      simp
    | ok g =>
      cases g with
      | false =>
        have hgood : good verdict y = false := by simp [good, hy, Except.toOption]
        rw [collect_step hy, findsFirst_behind (by rw [hy]; exact fun h => by cases h), hy]
        simp [hgood, ih]
      | true =>
        have hgood : good verdict y = true := by simp [good, hy, Except.toOption]
        rw [findsFirst_head hy, collect_step hy, List.filter_singleton, hgood, cond_true, List.nil_append]
        cases htest : tests y with
        | true => simp [eq_comm]
        | false =>
          have hrest : (∃ L, collect verdict tests (some 1) rest [y] = .ok L) ↔ NextTested verdict tests rest :=
            collect_rest_iff hfree (by simp)
          rw [Bool.false_and, if_neg Bool.false_ne_true, ← hrest]
          constructor
          · rintro ⟨L, hL⟩
            obtain ⟨rfl, -⟩ := List.cons_prefix_cons.mp (collect_grows hL)
            exact ⟨rfl, .inr ⟨_, hL⟩⟩
          · rintro ⟨rfl, h | ⟨L, hL⟩⟩
            · cases h
            · obtain ⟨later, rfl⟩ := collect_grows hL
              exact ⟨later, hL⟩

end First

end Swarm.Lib
