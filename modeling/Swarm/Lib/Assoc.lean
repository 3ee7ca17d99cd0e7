import Mathlib.Data.List.Basic

/-! # Dictionaries as lists of pairs, in order of insertion -/

namespace Swarm.Lib

variable {α β : Type*} [DecidableEq α]

/-- `d[key] = v`: a key that is there keeps its place. -/
def assocSet (d : List (α × β)) (key : α) (v : β) : List (α × β) :=
  if (d.lookup key).isSome then d.map fun kv => if kv.1 = key then (key, v) else kv else d ++ [(key, v)]

/-- `d.update(e)` -/
def assocUpdate (d e : List (α × β)) : List (α × β) := e.foldl (fun d kv => assocSet d kv.1 kv.2) d

theorem lookup_eq_none_of_not_mem {d : List (α × β)} {k : α} (h : k ∉ d.map (·.1)) :
    d.lookup k = none := by
  rw [List.lookup_eq_none_iff]
  intro kv hkv
  simpa using fun heq : k = kv.1 => h (List.mem_map.mpr ⟨kv, hkv, heq.symm⟩)

theorem lookup_of_mem {d : List (α × β)} (hd : (d.map (·.1)).Nodup) {kv : α × β} (h : kv ∈ d) :
    d.lookup kv.1 = some kv.2 := by
  induction d with
  | nil => cases h
  | cons first rest ih =>
    obtain ⟨hfirst, hrest⟩ := List.nodup_cons.mp hd
    rcases List.mem_cons.mp h with rfl | hmem
    · rw [List.lookup_cons, beq_self_eq_true]
    · have hne : (kv.1 == first.1) = false := by
        simpa using fun heq : kv.1 = first.1 => hfirst (List.mem_map.mpr ⟨kv, hmem, heq⟩)
      rw [List.lookup_cons, hne]
      exact ih hrest hmem

theorem lookup_filter {d : List (α × β)} (hd : (d.map (·.1)).Nodup) (p : α × β → Bool) (k : α) :
    (d.filter p).lookup k = (d.lookup k).filter fun v => p (k, v) := by
  induction d with
  | nil => rfl
  | cons first rest ih =>
    obtain ⟨key, v⟩ := first
    obtain ⟨hkey, hrest⟩ := List.nodup_cons.mp hd
    by_cases hk : k = key
    · subst hk
      have hgone : (rest.filter p).lookup k = none := by
        rw [ih hrest, lookup_eq_none_of_not_mem hkey, Option.filter_none]
      rw [List.lookup_cons_self, List.filter_cons]
      split
      · next hkept => rw [List.lookup_cons_self, Option.filter_some, if_pos hkept]
      · next hdropped => rw [hgone, Option.filter_some, if_neg hdropped]
    · have hne : (k == key) = false := by simpa using hk
      rw [List.lookup_cons, hne, ← ih hrest, List.filter_cons]
      split
      · rw [List.lookup_cons, hne]
      · rfl

theorem lookup_map_set (d : List (α × β)) (key : α) (v : β) (k : α) :
    (d.map fun kv => if kv.1 = key then (key, v) else kv).lookup k =
      if k = key then (d.lookup key).map fun _ => v else d.lookup k := by
  induction d with
  | nil => simp
  | cons kv rest ih =>
    obtain ⟨k', v'⟩ := kv
    by_cases hkey : k' = key
    · subst hkey
      by_cases hk : k = k'
      · simp [hk]
      · have hne : (k == k') = false := by simpa using hk
        simpa [List.lookup_cons, hne, hk] using ih
    · by_cases hk : k = key
      · subst hk
        have hne : (k == k') = false := by simpa using fun h => hkey h.symm
        simpa [List.lookup_cons, hne, hkey] using ih
      · by_cases hk' : k = k'
        · simp [hk', hkey]
        · have hne : (k == k') = false := by simpa using hk'
          simpa [List.lookup_cons, hne, hkey, hk] using ih

theorem lookup_assocSet (d : List (α × β)) (key : α) (v : β) (k : α) :
    (assocSet d key v).lookup k = if k = key then some v else d.lookup k := by
  unfold assocSet
  split
  · next hsome =>
    obtain ⟨old, hold⟩ := Option.isSome_iff_exists.mp hsome
    rw [lookup_map_set, hold, Option.map_some]
  · next hnone =>
    have hnone' : d.lookup key = none := Option.not_isSome_iff_eq_none.mp hnone
    rw [List.lookup_append]
    by_cases hk : k = key
    · simp [hk, hnone']
    · have hne : (k == key) = false := by simpa using hk
      simp [List.lookup_cons, hne, hk]

theorem lookup_assocUpdate (d : List (α × β)) {e : List (α × β)} (he : (e.map (·.1)).Nodup)
    (k : α) :
    (assocUpdate d e).lookup k = (e.lookup k).or (d.lookup k) := by
  induction e generalizing d with
  | nil => simp [assocUpdate]
  | cons kv rest ih =>
    obtain ⟨key, v⟩ := kv
    obtain ⟨hkey, hrest⟩ := List.nodup_cons.mp he
    have hstep : assocUpdate d ((key, v) :: rest) = assocUpdate (assocSet d key v) rest := rfl
    rw [hstep, ih _ hrest, lookup_assocSet, List.lookup_cons]
    by_cases hk : k = key
    · subst hk
      simp [lookup_eq_none_of_not_mem hkey]
    · have hne : (k == key) = false := by simpa using hk
      simp [hne, hk]

/-! ## Updating twice -/

theorem lookup_isSome_iff {d : List (α × β)} {k : α} : (d.lookup k).isSome ↔ k ∈ d.map (·.1) := by
  induction d with
  | nil => simp
  | cons first rest ih =>
    obtain ⟨key, v⟩ := first
    by_cases hk : k = key
    · simp [hk]
    · have hne : (k == key) = false := by simpa using hk
      simp [List.lookup_cons, hne, hk, ih]

theorem assocSet_keys (d : List (α × β)) (key : α) (v : β) :
    (assocSet d key v).map (·.1) = if key ∈ d.map (·.1) then d.map (·.1) else d.map (·.1) ++ [key] := by
  by_cases hmem : key ∈ d.map (·.1)
  · rw [assocSet, if_pos (lookup_isSome_iff.mpr hmem), if_pos hmem, List.map_map]
    refine List.map_congr_left fun kv _ => ?_
    by_cases heq : kv.1 = key <;> simp [heq]
  · rw [assocSet, if_neg (mt lookup_isSome_iff.mp hmem), if_neg hmem, List.map_append, List.map_singleton]

theorem assocSet_nodup {d : List (α × β)} (hd : (d.map (·.1)).Nodup) (key : α) (v : β) :
    ((assocSet d key v).map (·.1)).Nodup := by
  rw [assocSet_keys]
  split
  · exact hd
  · next hnew =>
    refine List.nodup_append.mpr ⟨hd, by simp, fun k hk k' hk' => ?_⟩
    rw [List.mem_singleton.mp hk']
    exact ne_of_mem_of_not_mem hk hnew

theorem assocUpdate_eq (d : List (α × β)) {e : List (α × β)} (he : (e.map (·.1)).Nodup) :
    assocUpdate d e =
      d.map (fun kv => (kv.1, (e.lookup kv.1).getD kv.2)) ++ e.filter fun kv =>
        kv.1 ∉ d.map (·.1) := by
  induction e generalizing d with
  | nil => simp [assocUpdate]
  | cons first rest ih =>
    obtain ⟨key, v⟩ := first
    obtain ⟨hkey, hrest⟩ := List.nodup_cons.mp he
    have hstep : assocUpdate d ((key, v) :: rest) = assocUpdate (assocSet d key v) rest := rfl
    have hgone := lookup_eq_none_of_not_mem hkey
    rw [hstep, ih _ hrest]
    by_cases hmem : key ∈ d.map (·.1)
    · have hset : assocSet d key v = d.map fun kv => if kv.1 = key then (key, v) else kv :=
        if_pos (lookup_isSome_iff.mpr hmem)
      have hkeys : (assocSet d key v).map (·.1) = d.map (·.1) := by rw [assocSet_keys, if_pos hmem]
      rw [hkeys, hset, List.map_map, List.filter_cons_of_neg (by simpa using hmem)]
      congr 1
      refine List.map_congr_left fun kv _ => ?_
      by_cases heq : kv.1 = key
      · simp [heq, hgone]
      · have hne : (kv.1 == key) = false := by simpa using heq
        simp [heq, List.lookup_cons, hne]
    · have hset : assocSet d key v = d ++ [(key, v)] := if_neg (mt lookup_isSome_iff.mp hmem)
      rw [hset, List.map_append, List.filter_cons_of_pos (by simpa using hmem), List.append_assoc]
      have hold : (d.map fun kv => (kv.1, (rest.lookup kv.1).getD kv.2)) =
          d.map fun kv => (kv.1, (((key, v) :: rest).lookup kv.1).getD kv.2) := by
        refine List.map_congr_left fun kv hkv => ?_
        have hne : (kv.1 == key) = false := by
          simpa using fun heq : kv.1 = key => hmem (heq ▸ List.mem_map_of_mem hkv)
        rw [List.lookup_cons, hne]
      have hnew : (rest.filter fun kv => kv.1 ∉ (d ++ [(key, v)]).map (·.1)) =
          rest.filter fun kv => kv.1 ∉ d.map (·.1) := by
        refine List.filter_congr fun kv hkv => ?_
        have hne : kv.1 ≠ key := fun heq => hkey (List.mem_map.mpr ⟨kv, hkv, heq⟩)
        simp [hne]
      rw [hold, hnew]
      simp [hgone]

theorem assocUpdate_keys (d : List (α × β)) {e : List (α × β)} (he : (e.map (·.1)).Nodup) :
    (assocUpdate d e).map (·.1) = d.map (·.1) ++ (e.map (·.1)).filter (· ∉ d.map (·.1)) := by
  rw [assocUpdate_eq d he, List.map_append, List.map_map, List.filter_map]
  rfl

omit [DecidableEq α] in
theorem map_filter_of_keys {e e' : List (α × β)} {p : α → Bool} {g : α → Option β}
    (hkeys : e.map (·.1) = e'.map (·.1)) (hg : ∀ kv ∈ e', g kv.1 = some kv.2) :
    (e.filter fun kv => p kv.1).map (fun kv => (kv.1, (g kv.1).getD kv.2)) = e'.filter fun kv =>
      p kv.1 := by
  induction e generalizing e' with
  | nil =>
    obtain rfl : e' = [] := List.map_eq_nil_iff.mp hkeys.symm
    rfl
  | cons first rest ih =>
    cases e' with
    | nil => simp at hkeys
    | cons first' rest' =>
      obtain ⟨hfirst, hrest⟩ := List.cons.inj hkeys
      have hih := ih hrest fun kv hkv => hg kv (List.mem_cons_of_mem _ hkv)
      have hvalue := hg first' List.mem_cons_self
      cases hp : p first'.1 <;> simp [hp, hfirst, hvalue, hih]

theorem assocUpdate_assocUpdate (d : List (α × β)) {e e' : List (α × β)} (he : (e.map (·.1)).Nodup)
    (hkeys : e.map (·.1) = e'.map (·.1)) : assocUpdate (assocUpdate d e) e' = assocUpdate d e' := by
  have he' : (e'.map (·.1)).Nodup := hkeys ▸ he
  have hall : (e'.filter fun kv => kv.1 ∉ (assocUpdate d e).map (·.1)) = [] := by
    refine List.filter_eq_nil_iff.mpr fun kv hkv => ?_
    rw [assocUpdate_keys d he, hkeys]
    have hmem : kv.1 ∈ e'.map (·.1) := List.mem_map_of_mem hkv
    by_cases hd : kv.1 ∈ d.map (·.1) <;> simp [hd, hmem]
  rw [assocUpdate_eq (assocUpdate d e) he', hall, List.append_nil, assocUpdate_eq d he, assocUpdate_eq d he',
    List.map_append, List.map_map]
  congr 1
  · refine List.map_congr_left fun kv _ => ?_
    by_cases hkey : kv.1 ∈ e'.map (·.1)
    · obtain ⟨v, hv⟩ := Option.isSome_iff_exists.mp (lookup_isSome_iff.mpr hkey)
      simp [hv]
    · simp [lookup_eq_none_of_not_mem hkey, lookup_eq_none_of_not_mem (hkeys ▸ hkey : kv.1 ∉ e.map (·.1))]
  · exact map_filter_of_keys (p := fun k => k ∉ d.map (·.1)) (g := fun k => e'.lookup k) hkeys fun kv hkv =>
      lookup_of_mem he' hkv

/-! ## Setting what is set -/

/-- Every entry of the key has the value, and there is one. -/
structure Settled (d : List (α × β)) (key : α) (v : β) : Prop where
  isSome : (d.lookup key).isSome
  value : ∀ kv ∈ d, kv.1 = key → kv.2 = v

theorem Settled.lookup {d : List (α × β)} {key : α} {v : β} (h : Settled d key v) :
    d.lookup key = some v := by
  obtain ⟨w, hw⟩ := Option.isSome_iff_exists.mp h.isSome
  obtain ⟨before, after, hd, -⟩ := List.lookup_eq_some_iff.mp hw
  rw [hw, ← h.value (key, w) (by simp [hd]) rfl]

theorem Settled.assocSet_same {d : List (α × β)} {key : α} {v : β} (h : Settled d key v) :
    assocSet d key v = d := by
  rw [assocSet, if_pos h.isSome]
  refine (List.map_congr_left fun kv hkv => ?_).trans d.map_id
  split
  · next heq => rw [← heq, ← h.value kv hkv heq]; rfl
  · rfl

theorem settled_assocSet (d : List (α × β)) (key : α) (v : β) :
    Settled (assocSet d key v) key v where
  isSome := by simp [lookup_assocSet]
  value kv hkv heq := by
    unfold assocSet at hkv
    split at hkv
    · obtain ⟨old, -, rfl⟩ := List.mem_map.mp hkv
      by_cases hold : old.1 = key
      · simp [hold]
      · simp [hold] at heq
    · next hnone =>
      rcases List.mem_append.mp hkv with hold | hnew
      · exact absurd (lookup_isSome_iff.mpr (List.mem_map.mpr ⟨kv, hold, heq⟩)) hnone
      · rw [List.mem_singleton.mp hnew]

theorem Settled.assocSet {d : List (α × β)} {key other : α} {v w : β} (h : Settled d key v)
    (hne : other ≠ key) :
    Settled (assocSet d other w) key v where
  isSome := by
    rw [lookup_assocSet, if_neg hne.symm]
    exact h.isSome
  value kv hkv heq := by
    unfold Lib.assocSet at hkv
    split at hkv
    · obtain ⟨old, hold, rfl⟩ := List.mem_map.mp hkv
      by_cases hother : old.1 = other
      · simp [hother, hne] at heq
      · simp only [if_neg hother] at heq ⊢
        exact h.value old hold heq
    · rcases List.mem_append.mp hkv with hold | hnew
      · exact h.value kv hold heq
      · rw [List.mem_singleton.mp hnew] at heq
        exact absurd heq hne

theorem settled_update {d : List (α × β)} {key : α} {v : β} (h : Settled d key v) {e : List (α × β)}
    (hkey : key ∉ e.map (·.1)) : Settled (assocUpdate d e) key v := by
  induction e generalizing d with
  | nil => exact h
  | cons kv rest ih =>
    rw [List.map_cons, List.mem_cons, not_or] at hkey
    exact ih (h.assocSet fun heq => hkey.1 heq.symm) hkey.2

theorem settled_of_update (d : List (α × β)) {e : List (α × β)} (he : (e.map (·.1)).Nodup) :
    ∀ kv ∈ e, Settled (assocUpdate d e) kv.1 kv.2 := by
  induction e generalizing d with
  | nil => simp
  | cons first rest ih =>
    obtain ⟨hfirst, hrest⟩ := List.nodup_cons.mp he
    refine List.forall_mem_cons.mpr ⟨?_, ih _ hrest⟩
    exact settled_update (settled_assocSet d first.1 first.2) hfirst

theorem assocUpdate_settled {d e : List (α × β)} (h : ∀ kv ∈ e, Settled d kv.1 kv.2) :
    assocUpdate d e = d := by
  induction e with
  | nil => rfl
  | cons kv rest ih =>
    obtain ⟨hkv, hrest⟩ := List.forall_mem_cons.mp h
    have hstep : assocUpdate d (kv :: rest) = assocUpdate (assocSet d kv.1 kv.2) rest := rfl
    rw [hstep, hkv.assocSet_same]
    exact ih hrest

end Swarm.Lib
