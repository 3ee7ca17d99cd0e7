import Mathlib.Data.Rat.Defs
import Mathlib.Algebra.Order.Ring.Rat
import Swarm.Python

/-!
# Area leases, as `coord_bus_adapter.py` takes them

The table `coordination_claims` has one row for an area. The database has a clock of its own.
-/

namespace Swarm.CoordBus

/-! ## The table -/

/-- The row of an area. -/
structure Row where
  owner : String
  claimedAt : ℚ
  expiresAt : Num
  deriving DecidableEq

abbrev Claims := String → Option Row

/-- `INSERT … ON CONFLICT (area) DO UPDATE … WHERE expires_at < NOW()`. Where the condition is false
nothing changes and nothing is raised. -/
def upsert (area : String) (row : Row) (claims : Claims) : Claims :=
  match claims area with
  | some old =>
    if old.expiresAt.lt (.finite row.claimedAt) then fun a => if a = area then some row else claims a
    else claims
  | none => fun a => if a = area then some row else claims a

/-- `DELETE … WHERE area=%s AND owner=%s` -/
def delete (area owner : String) (claims : Claims) : Claims := fun a =>
  if a = area ∧ (claims a).map (·.owner) = some owner then none else claims a

/-! ## The adapter -/

structure Adapter where
  enabled : Bool
  dsn : Option String
  sender : String

/-- What a call finds outside: whether a connection can be had, whether the statement or its commit
raises, and the two clocks. -/
structure Outside where
  connects : Bool
  raises : Bool
  time : ℚ
  now : ℚ

/-- Whether the adapter gets a connection. -/
def Adapter.getConn (a : Adapter) (out : Outside) : Bool :=
  a.enabled && (a.dsn.getD "" != "") && out.connects

/-- `to_timestamp` takes no nan. -/
def tryClaimArea (a : Adapter) (out : Outside) (area : String) (timeoutS : Num) (claims : Claims) :
    Bool × Claims :=
  if !a.enabled then (true, claims)
  else if !a.getConn out then (true, claims)
  else
    let expires := (Num.finite out.time).add timeoutS
    if out.raises || expires = .nan then (false, claims)
    else (true, upsert area ⟨a.sender, out.now, expires⟩ claims)

/-- `release_area` deletes the row of the sender, if that is whose it is. -/
def releaseArea (a : Adapter) (out : Outside) (area : String) (claims : Claims) : Bool × Claims :=
  if !a.enabled then (true, claims)
  else if !a.getConn out then (true, claims)
  else if out.raises then (false, claims)
  else (true, delete area a.sender claims)

/-! ## Calls -/

inductive Request
  | tryClaim (area : String) (timeoutS : Num)
  | release (area : String)

structure Call where
  adapter : Adapter
  outside : Outside
  request : Request

def Call.apply (c : Call) (claims : Claims) : Bool × Claims :=
  match c.request with
  | .tryClaim area timeoutS => tryClaimArea c.adapter c.outside area timeoutS claims
  | .release area => releaseArea c.adapter c.outside area claims

/-- The claims after the calls. -/
def after (claims : Claims) (calls : List Call) : Claims :=
  calls.foldl (fun claims c => (c.apply claims).2) claims

/-- The call comes to its statement. -/
def Call.Reaches (c : Call) : Prop := c.adapter.getConn c.outside = true

/-- The call asks for `area` until `expires`. -/
def Call.Asks (c : Call) (area : String) (expires : Num) : Prop :=
  ∃ timeoutS, c.request = .tryClaim area timeoutS ∧ expires = (Num.finite c.outside.time).add timeoutS

/-- The call asks for the area and is told that it has it. -/
def Call.Granted (c : Call) (claims : Claims) (area : String) (expires : Num) : Prop :=
  c.Asks area expires ∧ (c.apply claims).1 = true

def Call.Releases (c : Call) (area owner : String) : Prop :=
  c.request = .release area ∧ c.adapter.sender = owner ∧ c.outside.raises = false

/-! ## What a lease promises -/

/-- The row names the owner at least that long. -/
def RowNames (claims : Claims) (area owner : String) (expires : Num) : Prop :=
  ∃ row, claims area = some row ∧ row.owner = owner ∧ expires.le row.expiresAt = true

/-- Who is answered `True` is named in the row until the lease ends. -/
def Recorded (claims : Claims) (calls : List Call) : Prop :=
  ∀ before c rest, calls = before ++ c :: rest → ∀ area expires,
    c.Granted (after claims before) area expires →
      RowNames (c.apply (after claims before)).2 area c.adapter.sender expires

/-- Nobody else is answered `True` before the lease expires or is released. -/
def Exclusive (claims : Claims) (calls : List Call) : Prop :=
  ∀ before c between d rest, calls = before ++ c :: (between ++ d :: rest) → ∀ area expires expires',
    c.Granted (after claims before) area expires →
    d.Granted (after claims (before ++ c :: between)) area expires' →
    d.adapter.sender ≠ c.adapter.sender →
    (∃ r ∈ between, r.Releases area c.adapter.sender) ∨
      ∃ r ∈ between ++ [d], expires.lt (.finite r.outside.now) = true

/-- The area has no row, or one that expired, or one that names the caller for as long as it
asks. -/
def Free (claims : Claims) (c : Call) (area : String) (expires : Num) : Prop :=
  ∀ row, claims area = some row →
    row.expiresAt.lt (.finite c.outside.now) = true ∨
      row.owner = c.adapter.sender ∧ expires.le row.expiresAt = true

/-- Every claim whose statement goes through finds its area free. -/
def AllFree (claims : Claims) (calls : List Call) : Prop :=
  ∀ before c rest, calls = before ++ c :: rest → ∀ area expires,
    c.Asks area expires → c.outside.raises = false → expires ≠ .nan →
    Free (after claims before) c area expires

/-! ## One call -/

theorem after_append (claims : Claims) (calls calls' : List Call) :
    after claims (calls ++ calls') = after (after claims calls) calls' := List.foldl_append ..

theorem le_self {expires : Num} (h : expires ≠ .nan) : expires.le expires = true := by
  cases expires with
  | finite q => simp [Num.le]
  | inf negative => cases negative <;> rfl
  | nan => exact absurd rfl h

theorem Call.Reaches.enabled {c : Call} (hreach : c.Reaches) : c.adapter.enabled = true := by
  simp only [Call.Reaches, Adapter.getConn, Bool.and_eq_true] at hreach
  exact hreach.1.1

theorem apply_claim {c : Call} {claims : Claims} {area : String} {timeoutS : Num}
    (hreach : c.Reaches) (hrequest : c.request = .tryClaim area timeoutS) :
    c.apply claims =
      if c.outside.raises || (Num.finite c.outside.time).add timeoutS = .nan then (false, claims)
      else (true, upsert area
        ⟨c.adapter.sender, c.outside.now, (Num.finite c.outside.time).add timeoutS⟩ claims) := by
  have henabled := hreach.enabled
  simp only [Call.Reaches] at hreach
  simp [Call.apply, hrequest, tryClaimArea, henabled, hreach]

/-- Every statement that goes through is answered `True`. -/
theorem granted_iff {c : Call} {claims : Claims} {area : String} {expires : Num}
    (hreach : c.Reaches) :
    c.Granted claims area expires ↔
      c.Asks area expires ∧ c.outside.raises = false ∧ expires ≠ .nan := by
  refine and_congr_right ?_
  rintro ⟨timeoutS, hrequest, rfl⟩
  rw [apply_claim hreach hrequest]
  by_cases hnan : (Num.finite c.outside.time).add timeoutS = .nan <;>
    cases hraises : c.outside.raises <;> simp [hnan]

theorem granted_spec {c : Call} {claims : Claims} {area : String} {expires : Num}
    (hreach : c.Reaches) (h : c.Granted claims area expires) :
    (c.apply claims).2 = upsert area ⟨c.adapter.sender, c.outside.now, expires⟩ claims := by
  obtain ⟨hasks, hraises, hnan⟩ := (granted_iff hreach).mp h
  obtain ⟨timeoutS, hrequest, rfl⟩ := hasks
  rw [apply_claim hreach hrequest]
  simp [hraises, hnan]

theorem rowNames_iff_free {c : Call} {claims : Claims} {area : String} {expires : Num}
    (hreach : c.Reaches) (h : c.Granted claims area expires) :
    RowNames (c.apply claims).2 area c.adapter.sender expires ↔ Free claims c area expires := by
  obtain ⟨-, -, hnan⟩ := (granted_iff hreach).mp h
  rw [granted_spec hreach h, upsert, RowNames, Free]
  cases hrow : claims area with
  | none => simp [le_self hnan]
  | some row =>
    simp only [Option.some.injEq, forall_eq']
    by_cases hexpired : row.expiresAt.lt (.finite c.outside.now) = true
    · simp [hexpired, le_self hnan]
    · simp [hexpired, hrow]

theorem upsert_other {area area' : String} (row : Row) (claims : Claims) (h : area ≠ area') :
    upsert area' row claims area = claims area := by
  unfold upsert
  cases claims area' with
  | none => simp [h]
  | some old => by_cases hexpired : old.expiresAt.lt (.finite row.claimedAt) = true <;> simp [hexpired, h]

theorem rowNames_kept {d : Call} {claims : Claims} {area owner : String} {expires : Num}
    (hreach : d.Reaches) (h : RowNames claims area owner expires) :
    RowNames (d.apply claims).2 area owner expires ∨ d.Releases area owner ∨
      expires.lt (.finite d.outside.now) = true := by
  obtain ⟨row, hrow, howner, hlong⟩ := h
  cases hrequest : d.request with
  | tryClaim area' timeoutS =>
    by_cases hgranted : (d.apply claims).1 = true
    · rw [granted_spec hreach ⟨⟨timeoutS, hrequest, rfl⟩, hgranted⟩]
      by_cases harea : area = area'
      · subst harea
        by_cases hexpired : row.expiresAt.lt (.finite d.outside.now) = true
        · exact .inr (.inr (Num.lt_of_le_of_lt hlong hexpired))
        · exact .inl ⟨row, by simp [upsert, hrow, hexpired], howner, hlong⟩
      · exact .inl ⟨row, by rw [upsert_other _ claims harea, hrow], howner, hlong⟩
    · -- An answer of `False` leaves the table alone.
      refine .inl ⟨row, ?_, howner, hlong⟩
      rw [apply_claim hreach hrequest] at hgranted ⊢
      split at hgranted
      · rename_i hraises
        rwa [if_pos hraises]
      · simp at hgranted
  | release area' =>
    have henabled := hreach.enabled
    simp only [Call.Reaches] at hreach
    simp only [Call.apply, hrequest, releaseArea, henabled, hreach, Bool.not_true, Bool.false_eq_true,
      if_false]
    cases hraises : d.outside.raises with
    | true => exact .inl ⟨row, by simpa using hrow, howner, hlong⟩
    | false =>
      by_cases hmine : area = area' ∧ owner = d.adapter.sender
      · exact .inr (.inl ⟨by rw [hrequest, hmine.1], hmine.2.symm, hraises⟩)
      · refine .inl ⟨row, ?_, howner, hlong⟩
        have hother : ¬ (area = area' ∧ row.owner = d.adapter.sender) := by rw [howner]; exact hmine
        simp [delete, hrow, hother]

theorem rowNames_after {calls : List Call} {claims : Claims} {area owner : String} {expires : Num}
    (hreach : ∀ c ∈ calls, c.Reaches) (h : RowNames claims area owner expires) :
    RowNames (after claims calls) area owner expires ∨ (∃ r ∈ calls, r.Releases area owner) ∨
      ∃ r ∈ calls, expires.lt (.finite r.outside.now) = true := by
  induction calls generalizing claims with
  | nil => exact .inl h
  | cons d rest ih =>
    obtain ⟨hd, hrest⟩ := List.forall_mem_cons.mp hreach
    rcases rowNames_kept hd h with hkept | hreleased | hexpired
    · rcases ih hrest hkept with hnames | ⟨r, hr, hreleased⟩ | ⟨r, hr, hexpired⟩
      · exact .inl hnames
      · exact .inr (.inl ⟨r, List.mem_cons_of_mem d hr, hreleased⟩)
      · exact .inr (.inr ⟨r, List.mem_cons_of_mem d hr, hexpired⟩)
    · exact .inr (.inl ⟨d, List.mem_cons_self, hreleased⟩)
    · exact .inr (.inr ⟨d, List.mem_cons_self, hexpired⟩)

/-! ## Any sequence of calls -/

theorem recorded_iff (claims : Claims) {calls : List Call} (hreach : ∀ c ∈ calls, c.Reaches) :
    Recorded claims calls ↔ AllFree claims calls := by
  have hc : ∀ before c rest, calls = before ++ c :: rest → c.Reaches := by
    rintro before c rest rfl
    exact hreach c (by simp)
  constructor
  · intro h before c rest hcalls area expires hasks hraises hnan
    have hgranted : c.Granted (after claims before) area expires :=
      (granted_iff (hc _ _ _ hcalls)).mpr ⟨hasks, hraises, hnan⟩
    exact (rowNames_iff_free (hc _ _ _ hcalls) hgranted).mp (h before c rest hcalls area expires hgranted)
  · intro h before c rest hcalls area expires hgranted
    obtain ⟨hasks, hraises, hnan⟩ := (granted_iff (hc _ _ _ hcalls)).mp hgranted
    exact (rowNames_iff_free (hc _ _ _ hcalls) hgranted).mpr
      (h before c rest hcalls area expires hasks hraises hnan)

theorem exclusive_of_allFree {claims : Claims} {calls : List Call} (hreach : ∀ c ∈ calls, c.Reaches)
    (hfree : AllFree claims calls) : Exclusive claims calls := by
  rintro before c between d rest rfl area expires expires' hc hd hother
  have hnames := (recorded_iff claims hreach).mpr hfree before c _ rfl area expires hc
  have hbetween : ∀ r ∈ between, r.Reaches := fun r hr => hreach r (by simp [hr])
  have hafter : after claims (before ++ c :: between) =
      after (c.apply (after claims before)).2 between := by
    rw [after_append]
    rfl
  rcases rowNames_after hbetween hnames with ⟨row, hrow, howner, hlong⟩ | hreleased | ⟨r, hr, hexpired⟩
  · obtain ⟨hasks, hraises, hnan⟩ := (granted_iff (hreach d (by simp))).mp hd
    have hfreed := hfree (before ++ c :: between) d rest (by simp) area expires' hasks hraises hnan
    rw [hafter] at hfreed
    rcases hfreed row hrow with hexpired | ⟨hmine, -⟩
    · exact .inr ⟨d, by simp, Num.lt_of_le_of_lt hlong hexpired⟩
    · exact absurd (hmine.symm.trans howner) hother
  · exact .inl hreleased
  · exact .inr ⟨r, by simp [hr], hexpired⟩

/-- **When leases are exclusive.** -/
theorem leases_iff (claims : Claims) {calls : List Call} (hreach : ∀ c ∈ calls, c.Reaches) :
    Recorded claims calls ∧ Exclusive claims calls ↔ AllFree claims calls := by
  constructor
  · rintro ⟨hrecorded, -⟩
    exact (recorded_iff claims hreach).mp hrecorded
  · intro hfree
    exact ⟨(recorded_iff claims hreach).mpr hfree, exclusive_of_allFree hreach hfree⟩

/-! ## Two agents and one area -/

def swarm : Adapter := ⟨true, some "dbname=coord_db", "swarm"⟩
def codex : Adapter := ⟨true, some "dbname=coord_db", "codex"⟩

def noClaims : Claims := fun _ => none

def askAt (a : Adapter) (time : ℚ) : Call :=
  ⟨a, ⟨true, false, time, time⟩, .tryClaim "ui/agents.tsx" (.finite 30)⟩

theorem allFree_cons {claims : Claims} {c : Call} {rest : List Call}
    (hc : ∀ area expires, c.Asks area expires → Free claims c area expires)
    (hrest : AllFree (c.apply claims).2 rest) : AllFree claims (c :: rest) := by
  intro before d rest' hcalls
  cases before with
  | nil =>
    obtain ⟨rfl, rfl⟩ := List.cons.inj hcalls
    exact fun area expires hasks _ _ => hc area expires hasks
  | cons c' before =>
    obtain ⟨rfl, hrest'⟩ := List.cons.inj hcalls
    exact hrest before d rest' hrest'

/-- The second asks after the lease of the first is over. -/
theorem apart_exclusive :
    Recorded noClaims [askAt swarm 0, askAt codex 31] ∧
      Exclusive noClaims [askAt swarm 0, askAt codex 31] := by
  refine (leases_iff noClaims ?_).mpr (allFree_cons ?_ (allFree_cons ?_ ?_))
  · simp only [List.forall_mem_cons, List.not_mem_nil, false_implies, implies_true, and_true]
    exact ⟨rfl, rfl⟩
  · intro area expires _ row hrow
    simp [noClaims] at hrow
  · rintro area expires ⟨timeoutS, hrequest, -⟩ row hrow
    obtain ⟨rfl, rfl⟩ := Request.tryClaim.inj hrequest
    obtain rfl : ⟨"swarm", 0, .finite (0 + 30)⟩ = row := Option.some.inj hrow
    exact .inl (by decide +kernel)
  · intro before c rest hcalls
    simp at hcalls

/-- The second asks while the lease of the first runs. -/
theorem codex_answered_true :
    ¬ (Recorded noClaims [askAt swarm 0, askAt codex 1] ∧
      Exclusive noClaims [askAt swarm 0, askAt codex 1]) := by
  rintro ⟨hrecorded, -⟩
  obtain ⟨row, hrow, howner, -⟩ :=
    hrecorded [askAt swarm 0] (askAt codex 1) [] rfl "ui/agents.tsx" _ ⟨⟨.finite 30, rfl, rfl⟩, rfl⟩
  have hkept : ((askAt codex 1).apply (after noClaims [askAt swarm 0])).2 "ui/agents.tsx" =
      some ⟨"swarm", 0, .finite (0 + 30)⟩ := by decide +kernel
  obtain rfl := Option.some.inj (hkept.symm.trans hrow)
  exact absurd howner (by decide)

end Swarm.CoordBus
