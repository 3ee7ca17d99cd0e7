import Mathlib.Data.List.Sort
import Swarm.Lib.Assoc

/-!
# Tallies

A tally counts keys and can forget one. An alarm goes off once for each key that reaches a
threshold, until the key is forgotten.
-/

namespace Swarm.Lib

variable {κ : Type*} [DecidableEq κ]

/-- A key is counted, or forgotten. -/
inductive Act (κ : Type*)
  | record (k : κ)
  | reset (k : κ)
  deriving DecidableEq

/-! ## What a key counts -/

/-- How often `k` was recorded since it was last reset. -/
def since (k : κ) (acts : List (Act κ)) : Nat :=
  (acts.reverse.takeWhile fun a => a ≠ .reset k).count (.record k)

@[simp] theorem since_nil (k : κ) : since k ([] : List (Act κ)) = 0 := rfl

theorem since_record (k j : κ) (acts : List (Act κ)) :
    since k (acts ++ [.record j]) = since k acts + if j = k then 1 else 0 := by
  simp [since, List.count_cons, Act.record.injEq]

theorem since_reset (k j : κ) (acts : List (Act κ)) :
    since k (acts ++ [.reset j]) = if j = k then 0 else since k acts := by
  by_cases h : j = k <;> simp [since, Act.reset.injEq, h]

/-- `j` has been counted from some moment on at which `k` did not count. -/
def Older (acts : List (Act κ)) (j k : κ) : Prop :=
  ∃ before after, acts = before ++ after ∧ since j before ≠ 0 ∧ .reset j ∉ after ∧ since k before = 0

theorem Older.snoc {acts : List (Act κ)} {j k : κ} (h : Older acts j k) {a : Act κ}
    (ha : a ≠ .reset j) :
    Older (acts ++ [a]) j k := by
  obtain ⟨before, after, rfl, hj, hreset, hk⟩ := h
  refine ⟨before, after ++ [a], List.append_assoc _ _ _, hj, ?_, hk⟩
  simpa [hreset] using ha.symm

/-! ## The tally -/

/-- The count of a key, none for one that is not there. -/
def countOf (d : List (κ × Nat)) (k : κ) : Nat := (d.lookup k).getD 0

/-- `counts[k] += 1` -/
def bump (d : List (κ × Nat)) (k : κ) : List (κ × Nat) := assocSet d k (countOf d k + 1)

/-- `counts.pop(k, None)` -/
def discard (d : List (κ × Nat)) (k : κ) : List (κ × Nat) := d.filter fun kv => kv.1 ≠ k

/-- The commonest first, and of equal ones the one that came first. -/
def ranked (d : List (κ × Nat)) : List (κ × Nat) := d.insertionSort fun a b => b.2 ≤ a.2

/-- `Counter.most_common(n)`: a tie keeps the order of insertion. -/
def mostCommon (d : List (κ × Nat)) (n : Int) : List (κ × Nat) := (ranked d).take n.toNat

structure Tallies (acts : List (Act κ)) (d : List (κ × Nat)) : Prop where
  nodup : (d.map (·.1)).Nodup
  lookup : ∀ k, d.lookup k = if since k acts = 0 then none else some (since k acts)
  older : d.Pairwise fun a b => Older acts a.1 b.1

theorem Tallies.nil : Tallies ([] : List (Act κ)) [] := ⟨List.nodup_nil, fun _ => rfl, .nil⟩

variable {acts : List (Act κ)} {d : List (κ × Nat)}

theorem Tallies.countOf (h : Tallies acts d) (k : κ) : countOf d k = since k acts := by
  rw [Lib.countOf, h.lookup]
  split
  · next hzero => exact hzero.symm
  · rfl

theorem Tallies.mem_iff (h : Tallies acts d) (k : κ) (n : Nat) :
    (k, n) ∈ d ↔ n = since k acts ∧ 0 < n := by
  constructor
  · intro hmem
    have hlookup := lookup_of_mem h.nodup hmem
    rw [h.lookup] at hlookup
    split at hlookup
    · simp at hlookup
    · next hpos =>
      have hn : since k acts = n := Option.some.inj hlookup
      exact ⟨hn.symm, hn ▸ Nat.pos_of_ne_zero hpos⟩
  · rintro ⟨rfl, hpos⟩
    have hlookup := h.lookup k
    rw [if_neg hpos.ne'] at hlookup
    obtain ⟨before, after, hd, -⟩ := List.lookup_eq_some_iff.mp hlookup
    rw [hd]
    exact List.mem_append_right _ List.mem_cons_self

theorem Tallies.counted (h : Tallies acts d) {k : κ} (hk : k ∈ d.map (·.1)) : since k acts ≠ 0 := by
  obtain ⟨kv, hkv, rfl⟩ := List.mem_map.mp hk
  obtain ⟨heq, hpos⟩ := (h.mem_iff kv.1 kv.2).mp hkv
  exact heq ▸ hpos.ne'

theorem Tallies.record (h : Tallies acts d) (k : κ) : Tallies (acts ++ [.record k]) (bump d k) := by
  refine ⟨assocSet_nodup h.nodup k _, fun j => ?_, ?_⟩
  · rw [bump, lookup_assocSet, h.countOf, h.lookup, since_record]
    by_cases hjk : j = k
    · subst hjk
      simp
    · rw [if_neg hjk, if_neg (Ne.symm hjk), Nat.add_zero]
  · have hkept : ∀ a b : κ × Nat, Older acts a.1 b.1 → Older (acts ++ [.record k]) a.1 b.1 :=
      fun a b hab => hab.snoc (by simp)
    rw [bump, assocSet]
    split
    · rw [List.pairwise_map]
      refine h.older.imp fun {a b} hab => ?_
      have hkey : ∀ kv : κ × Nat, (if kv.1 = k then (k, Lib.countOf d k + 1) else kv).1 = kv.1 := by
        intro kv
        split
        · next heq => exact heq.symm
        · rfl
      rw [hkey, hkey]
      exact hkept a b hab
    · next hnew =>
      refine List.pairwise_append.mpr ⟨h.older.imp fun {a b} => hkept a b, List.pairwise_singleton _ _, ?_⟩
      intro a ha b hb
      rw [List.mem_singleton.mp hb]
      refine ⟨acts, [.record k], rfl, h.counted (List.mem_map_of_mem ha), by simp, ?_⟩
      rw [h.lookup] at hnew
      by_contra hpos
      simp [hpos] at hnew

theorem Tallies.reset (h : Tallies acts d) (k : κ) :
    Tallies (acts ++ [.reset k]) (discard d k) := by
  refine ⟨(List.Sublist.map _ List.filter_sublist).nodup h.nodup, fun j => ?_, ?_⟩
  · rw [discard, lookup_filter h.nodup, h.lookup, since_reset]
    by_cases hjk : j = k
    · subst hjk
      split <;> simp
    · have hkj : k ≠ j := fun heq => hjk heq.symm
      rw [if_neg hkj]
      split <;> simp [hjk]
  · refine (h.older.filter _).imp_of_mem fun {a b} ha _ hab => hab.snoc ?_
    have hne : a.1 ≠ k := by simpa using List.of_mem_filter ha
    simpa using hne.symm

/-! ## The ranking -/

omit [DecidableEq κ] in
theorem ranked_perm (d : List (κ × Nat)) : (ranked d).Perm d := List.perm_insertionSort _ d

/-- Sorting by count keeps the order `R` among equal counts. -/
def Ahead (R : κ → κ → Prop) (a b : κ × Nat) : Prop := b.2 < a.2 ∨ b.2 = a.2 ∧ R a.1 b.1

omit [DecidableEq κ] in
theorem orderedInsert_ahead {R : κ → κ → Prop} (a : κ × Nat) (l : List (κ × Nat))
    (hl : l.Pairwise (Ahead R)) (ha : ∀ b ∈ l, R a.1 b.1) :
    (l.orderedInsert (fun a b => b.2 ≤ a.2) a).Pairwise (Ahead R) := by
  induction l with
  | nil => exact List.pairwise_singleton _ _
  | cons b rest ih =>
    obtain ⟨hb, hrest⟩ := List.pairwise_cons.mp hl
    rw [List.orderedInsert_cons]
    split
    · next hle =>
      refine List.pairwise_cons.mpr ⟨fun c hc => ?_, hl⟩
      have hcb : c.2 ≤ b.2 := by
        rcases List.mem_cons.mp hc with rfl | hc
        · exact le_rfl
        · rcases hb c hc with hlt | ⟨heq, -⟩
          · exact hlt.le
          · exact heq.le
      rcases (hcb.trans hle).lt_or_eq with hlt | heq
      · exact .inl hlt
      · exact .inr ⟨heq, ha c hc⟩
    · next hlt =>
      refine List.pairwise_cons.mpr ⟨fun c hc => ?_, ih hrest fun c hc => ha c (List.mem_cons_of_mem _ hc)⟩
      rcases List.mem_cons.mp ((List.perm_orderedInsert _ a rest).subset hc) with rfl | hc
      · exact .inl (not_le.mp hlt)
      · exact hb c hc

omit [DecidableEq κ] in
theorem ranked_ahead {R : κ → κ → Prop}
    (hd : d.Pairwise fun a b => R a.1 b.1) : (ranked d).Pairwise (Ahead R) := by
  induction d with
  | nil => exact .nil
  | cons a rest ih =>
    obtain ⟨ha, hrest⟩ := List.pairwise_cons.mp hd
    exact orderedInsert_ahead a _ (ih hrest) fun b hb => ha b ((ranked_perm rest).subset hb)

/-! ## The alarm -/

/-- A tally with a threshold and the keys that have reached it. -/
structure Alarm (κ : Type*) where
  threshold : Int
  counts : List (κ × Nat)
  escalated : List κ

/-- Whether the alarm goes off, and what it keeps. -/
def Alarm.record (a : Alarm κ) (k : κ) : Bool × Alarm κ :=
  let counts := bump a.counts k
  if k ∉ a.escalated ∧ a.threshold ≤ (countOf counts k : Int) then
    (true, { a with counts := counts, escalated := k :: a.escalated })
  else (false, { a with counts := counts })

def Alarm.reset (a : Alarm κ) (k : κ) : Alarm κ :=
  { a with counts := discard a.counts k, escalated := a.escalated.filter (· ≠ k) }

/-- The count at which the alarm goes off. -/
def Alarm.level (a : Alarm κ) : Nat := max 1 a.threshold.toNat

structure Alarm.Inv (acts : List (Act κ)) (a : Alarm κ) : Prop where
  tallies : Tallies acts a.counts
  escalated : ∀ k, k ∈ a.escalated ↔ a.level ≤ since k acts

theorem Alarm.inv_nil (threshold : Int) : (Alarm.mk threshold [] []).Inv ([] : List (Act κ)) :=
  ⟨.nil, fun k => by simp [Alarm.level]⟩

variable {a : Alarm κ}

theorem Alarm.Inv.fires (h : a.Inv acts) (k : κ) :
    (a.record k).1 = true ↔ since k acts + 1 = a.level := by
  have hcount : Lib.countOf (bump a.counts k) k = since k acts + 1 := by
    rw [(h.tallies.record k).countOf, since_record, if_pos rfl]
  simp only [Alarm.record, hcount, h.escalated]
  unfold Alarm.level
  split <;> simp <;> omega

theorem Alarm.record_level (a : Alarm κ) (k : κ) : (a.record k).2.level = a.level := by
  unfold Alarm.record
  dsimp only
  split <;> rfl

theorem Alarm.Inv.record (h : a.Inv acts) (k : κ) : (a.record k).2.Inv (acts ++ [.record k]) := by
  have hcounts : (a.record k).2.counts = bump a.counts k := by
    unfold Alarm.record
    dsimp only
    split <;> rfl
  refine ⟨hcounts ▸ h.tallies.record k, fun j => ?_⟩
  have hfires := h.fires k
  have hj := h.escalated j
  rw [Alarm.record_level, since_record]
  unfold Alarm.record at hfires ⊢
  dsimp only at hfires ⊢
  split at hfires
  · next hgo =>
    rw [if_pos hgo, List.mem_cons, hj]
    have heq := hfires.mp rfl
    by_cases hjk : j = k
    · subst hjk
      simp [heq]
    · simp [hjk, Ne.symm hjk]
  · next hstay =>
    rw [if_neg hstay, hj]
    by_cases hjk : j = k
    · subst hjk
      have hne : since j acts + 1 ≠ a.level := fun heq => by simpa using hfires.mpr heq
      rw [if_pos rfl]
      omega
    · rw [if_neg (Ne.symm hjk), Nat.add_zero]

theorem Alarm.Inv.reset (h : a.Inv acts) (k : κ) : (a.reset k).Inv (acts ++ [.reset k]) := by
  refine ⟨h.tallies.reset k, fun j => ?_⟩
  have hpos : 0 < a.level := by unfold Alarm.level; omega
  have hj := h.escalated j
  have hmem : j ∈ (a.reset k).escalated ↔ j ∈ a.escalated ∧ j ≠ k := by simp [Alarm.reset]
  have hlevel : (a.reset k).level = a.level := rfl
  rw [since_reset, hmem, hlevel, hj]
  by_cases hjk : j = k
  · subst hjk
    simp [hpos.ne']
  · simp [hjk, Ne.symm hjk]

end Swarm.Lib
