import Swarm.Perpetual.Pidfile

/-! # One team for each pidfile -/

namespace Swarm.Perpetual.Pidfile

open Swarm.Lib

/-! ## A pid that is written can be read -/

theorem not_space_of_isDigit {c : Char} (h : c.isDigit = true) : space c = false := by
  simp only [Char.isDigit, Bool.and_eq_true, decide_eq_true_eq, UInt32.le_iff_toNat_le] at h
  have hlow : 48 ≤ c.toNat := h.1
  have hspace : c ≠ ' ' := by rintro rfl; simp at hlow
  simp [space, hspace]
  omega

theorem strip_digits {text : List Char} (h : ∀ c ∈ text, c.isDigit = true) : strip text = text := by
  have hall : ∀ l : List Char, (∀ c ∈ l, c.isDigit = true) → l.dropWhile space = l := by
    intro l hl
    cases l with
    | nil => rfl
    | cons c l => simp [not_space_of_isDigit (hl c (by simp))]
  rw [strip, hall text h, hall _ (by simpa using h), List.reverse_reverse]

theorem digits_spec {text : List Char} (hne : text ≠ []) (h : ∀ c ∈ text, c.isDigit = true) :
    digits text = some (Nat.ofDigitChars 10 text 0) := by
  have hnot : ∀ c ∈ text, c ≠ '_' := by
    rintro c hc rfl
    simpa using h _ hc
  have hall : text.all fun c => c.isDigit || c == '_' :=
    List.all_eq_true.mpr fun c hc => by simp [h c hc]
  have hhead : text.head? ≠ some '_' := fun hh => hnot _ (List.mem_of_head? hh) rfl
  have hlast : text.getLast? ≠ some '_' := fun hh => hnot _ (List.mem_of_getLast? hh) rfl
  have hpair : ¬ ['_', '_'] <:+: text := fun hh => hnot '_' (hh.subset (by simp)) rfl
  have hfilter : text.filter (· ≠ '_') = text := List.filter_eq_self.mpr (by simpa using hnot)
  rw [digits, if_pos ⟨hne, hall, hhead, hlast, hpair⟩, hfilter]

theorem int_str (p : Pid) : int p.str = some (p.val : Int) := by
  have hdigits : ∀ c ∈ p.str, c.isDigit = true := fun c hc =>
    Nat.isDigit_of_mem_toDigits (by decide) (by decide) hc
  have hne : p.str ≠ [] := Nat.toDigits_ne_nil
  have hvalue : digits p.str = some p.val := by
    rw [digits_spec hne hdigits]
    exact congrArg some Nat.ofDigitChars_ten_toDigits
  obtain ⟨c, cs, hcs⟩ := List.exists_cons_of_ne_nil hne
  have hc : c.isDigit = true := hdigits c (by simp [hcs])
  simp only [int, strip_digits hdigits]
  rw [hcs] at hvalue ⊢
  split
  · rename_i heq
    obtain ⟨rfl, -⟩ := List.cons.inj heq
    simp at hc
  · rename_i heq
    obtain ⟨rfl, -⟩ := List.cons.inj heq
    simp at hc
  · simp [hvalue]

/-! ## What a process relies on -/

def State.Names (s : State) (p : Pid) : Prop := s.disk.readPid = some (p.val : Int)

/-- The process has emptied the file and not yet written its pid. -/
def State.Putting (s : State) (p : Pid) : Prop :=
  s.alive p = true ∧ ∃ file, (s.procs p).pc = .putting file

/-- The test of `acquire`, made now. -/
def State.Passes (s : State) (p : Pid) : Prop :=
  ∀ owner, s.disk.readPid = some owner → pidAlive s.alive owner = some false ∨ owner = p.val

/-- What a call saw still holds when it acts on it: an `acquire` that opens the pidfile would pass
its test now, and no process is between opening and writing, and a `release` that unlinks the
pidfile finds its own pid in it. -/
def StillTrue (s : State) : Label → Prop
  | .go p =>
    ((s.procs p).pc = .opening → s.Passes p ∧ ∀ q, ¬ s.Putting q) ∧
      ((s.procs p).pc = .unlinking → s.Names p)
  | _ => True

/-! ## The invariant -/

structure Inv (s : State) : Prop where
  holder : ∀ p, s.Holder p → s.Names p ∨ s.Putting p
  putting : ∀ p, s.Putting p → (∀ q, s.Holder q → q = p) ∧ ∀ q, s.Putting q → q = p
  empty : ∀ p file, s.alive p = true → (s.procs p).pc = .putting file →
    s.disk.link = some file ∧ s.disk.data file = []

theorem names_unique {s : State} {p q : Pid} (hp : s.Names p) (hq : s.Names q) : p = q := by
  have heq : (p.val : Int) = q.val := Option.some.inj (hp.symm.trans hq)
  cases p
  cases q
  simpa using Int.ofNat.inj heq

theorem Inv.exclusive {s : State} (h : Inv s) : Exclusive s := by
  intro p q hp hq
  rcases h.holder p hp with hnp | hpp
  · rcases h.holder q hq with hnq | hpq
    · exact names_unique hnp hnq
    · exact (h.putting q hpq).1 p hp
  · exact ((h.putting p hpp).1 q hq).symm

theorem Inv.not_names {s : State} (h : Inv s) {p q : Pid} (hp : s.Putting p) : ¬ s.Names q := by
  obtain ⟨halive, file, hpc⟩ := hp
  obtain ⟨hlink, hdata⟩ := h.empty p file halive hpc
  have hempty : int [] = none := by decide
  simp [State.Names, Disk.readPid, hlink, hdata, hempty]

/-! ## Steps that leave the disk alone -/

def State.At (s : State) (p : Pid) (pc : Pc) : Prop := s.alive p = true ∧ (s.procs p).pc = pc

theorem Inv.of_same_disk {s s' : State} (h : Inv s) (hdisk : s'.disk = s.disk)
    (hholder : ∀ q, s'.Holder q → s.Holder q)
    (hputting : ∀ q file, s'.At q (.putting file) → s.At q (.putting file))
    (hback : ∀ q file, s'.Holder q → s.At q (.putting file) →
      s'.At q (.putting file)) : Inv s' := by
  have hput : ∀ q, s'.Putting q → s.Putting q := fun q ⟨halive, file, hpc⟩ =>
    ⟨(hputting q file ⟨halive, hpc⟩).1, file, (hputting q file ⟨halive, hpc⟩).2⟩
  refine ⟨fun p hp => ?_, fun p hp => ?_, fun p file halive hpc => ?_⟩
  · rcases h.holder p (hholder p hp) with hn | ⟨halive, file, hpc⟩
    · left
      simpa only [State.Names, hdisk] using hn
    · obtain ⟨halive', hpc'⟩ := hback p file hp ⟨halive, hpc⟩
      exact .inr ⟨halive', file, hpc'⟩
  · obtain ⟨hall, hall'⟩ := h.putting p (hput p hp)
    exact ⟨fun q hq => hall q (hholder q hq), fun q hq => hall' q (hput q hq)⟩
  · obtain ⟨halive', hpc'⟩ := hputting p file ⟨halive, hpc⟩
    rw [hdisk]
    exact h.empty p file halive' hpc'

theorem Inv.goto {s : State} (h : Inv s) {p : Pid} {pc : Pc}
    (hbefore : ∀ file, (s.procs p).pc ≠ .putting file) (hafter : ∀ file, pc ≠ .putting file) :
    Inv (s.goto p pc) := by
  refine h.of_same_disk rfl (fun q hq => ?_) (fun q file hq => ?_) fun q file _ hq => ?_
  all_goals
    by_cases hqp : q = p
    · subst hqp
      simp_all [State.goto, State.Holder, State.At]
    · simpa [State.goto, State.Holder, State.At, hqp] using hq

theorem Inv.leave {s : State} (h : Inv s) {p : Pid}
    (hbefore : ∀ file, (s.procs p).pc ≠ .putting file) :
    Inv (s.leave p false) := by
  refine h.of_same_disk rfl (fun q hq => ?_) (fun q file hq => ?_) fun q file _ hq => ?_
  all_goals
    by_cases hqp : q = p
    · subst hqp
      simp_all [State.leave, State.Holder, State.At]
    · simpa [State.leave, State.Holder, State.At, hqp] using hq

theorem Inv.reborn {s : State} (h : Inv s) (p : Pid) (alive : Bool) :
    Inv { s.leave p false with alive := Function.update s.alive p alive } := by
  refine h.of_same_disk rfl (fun q hq => ?_) (fun q file hq => ?_) fun q file hholder hq => ?_
  all_goals
    by_cases hqp : q = p
    · subst hqp
      simp_all [State.leave, State.Holder, State.At]
    · simpa [State.leave, State.Holder, State.At, hqp] using hq

/-! ## Steps that write -/

theorem truncate_spec (d : Disk) :
    d.truncate.2.link = some d.truncate.1 ∧ d.truncate.2.data d.truncate.1 = [] := by
  unfold Disk.truncate
  cases d.link <;> simp

theorem pidAlive_val (alive : Pid → Bool) (p : Pid) : pidAlive alive p.val = some (alive p) := by
  have hpos : ¬ (p.val : Int) ≤ 0 := by have := p.pos; omega
  have hrange : 0 < (p.val : Int).toNat ∧ (p.val : Int).toNat < 2 ^ 31 := by
    simpa using ⟨p.pos, p.small⟩
  rw [pidAlive, if_neg hpos, dif_pos hrange]
  congr 2

theorem Inv.alone {s : State} (h : Inv s) {p q : Pid} (hpass : s.Passes p)
    (hnone : ∀ q, ¬ s.Putting q) (hq : s.Holder q) : q = p := by
  -- Whoever passes the test has no other team beside it, while nobody is writing.
  rcases h.holder q hq with hnames | hputting
  · rcases hpass _ hnames with hdead | hself
    · rw [pidAlive_val, hq.1] at hdead
      simp at hdead
    · have hnames' : s.Names p := by rw [State.Names, ← hself]; exact hnames
      exact names_unique hnames hnames'
  · exact absurd hputting (hnone q)

theorem Inv.truncate {s : State} (h : Inv s) {p : Pid} (hpass : s.Passes p)
    (hnone : ∀ q, ¬ s.Putting q) :
    Inv { s.goto p (.putting s.disk.truncate.1) with disk := s.disk.truncate.2 } := by
  have hholder : ∀ q, State.Holder { s.goto p (.putting s.disk.truncate.1) with disk := s.disk.truncate.2 } q →
      s.Holder q := by
    intro q hq
    by_cases hqp : q = p
    · subst hqp
      simpa [State.Holder, State.goto] using hq
    · simpa [State.Holder, State.goto, hqp] using hq
  have hputting : ∀ q, State.Putting { s.goto p (.putting s.disk.truncate.1) with disk := s.disk.truncate.2 } q →
      q = p := by
    intro q hq
    by_contra hqp
    exact hnone q (by simpa [State.Putting, State.goto, hqp] using hq)
  refine ⟨fun q hq => ?_, fun q hq => ?_, fun q file halive hpc => ?_⟩
  · obtain rfl := h.alone hpass hnone (hholder q hq)
    exact .inr ⟨hq.1, s.disk.truncate.1, by simp [State.goto]⟩
  · obtain rfl := hputting q hq
    exact ⟨fun r hr => h.alone hpass hnone (hholder r hr), hputting⟩
  · obtain rfl := hputting q ⟨halive, file, hpc⟩
    obtain rfl : s.disk.truncate.1 = file := by simpa [State.goto] using hpc
    exact truncate_spec s.disk

theorem Inv.put {s : State} (h : Inv s) {p : Pid} {file : Nat} (hp : s.At p (.putting file)) :
    Inv { s.leave p true with
      disk := { s.disk with data := Function.update s.disk.data file (overwrite p.str (s.disk.data file)) } } := by
  obtain ⟨hlink, hdata⟩ := h.empty p file hp.1 hp.2
  obtain ⟨hall, hall'⟩ := h.putting p ⟨hp.1, file, hp.2⟩
  have hnone : ∀ q, ¬ State.Putting { s.leave p true with
      disk := { s.disk with data := Function.update s.disk.data file (overwrite p.str (s.disk.data file)) } } q := by
    rintro q hq
    by_cases hqp : q = p
    · subst hqp
      simp [State.Putting, State.leave] at hq
    · exact hqp (hall' q (by simpa [State.Putting, State.leave, hqp] using hq))
  refine ⟨fun q hq => .inl ?_, fun q hq => absurd hq (hnone q), fun q file halive hpc =>
    absurd ⟨halive, file, hpc⟩ (hnone q)⟩
  have hqp : q = p := by
    by_contra hqp
    exact hqp (hall q (by simpa [State.Holder, State.leave, hqp] using hq))
  subst hqp
  simp [State.Names, Disk.readPid, hlink, hdata, overwrite, int_str]

theorem Inv.unlink {s : State} (h : Inv s) {p : Pid} (hnames : s.Names p) :
    Inv { s.leave p false with disk := { s.disk with link := none } } := by
  have hnone : ∀ q, ¬ State.Putting { s.leave p false with disk := { s.disk with link := none } } q := by
    rintro q hq
    by_cases hqp : q = p
    · subst hqp
      simp [State.Putting, State.leave] at hq
    · exact h.not_names (p := q) (by simpa [State.Putting, State.leave, hqp] using hq) hnames
  refine ⟨fun q hq => ?_, fun q hq => absurd hq (hnone q), fun q file halive hpc =>
    absurd ⟨halive, file, hpc⟩ (hnone q)⟩
  by_cases hqp : q = p
  · subst hqp
    simp [State.Holder, State.leave] at hq
  · rcases h.holder q (by simpa [State.Holder, State.leave, hqp] using hq) with hn | hput
    · exact absurd (names_unique hn hnames) hqp
    · exact absurd hnames (h.not_names hput)

/-! ## Every run -/

theorem Inv.advance {s s' : State} (h : Inv s) {p : Pid} (halive : s.alive p = true)
    (htrue : StillTrue s (.go p)) (hstep : advance p s = some s') : Inv s' := by
  obtain ⟨hopening, hunlinking⟩ := htrue
  unfold Pidfile.advance at hstep
  split at hstep
  · simp at hstep
  · rename_i hpc
    obtain rfl := Option.some.inj hstep
    refine h.goto (by simp [hpc]) fun file => ?_
    cases s.disk.readPid <;> simp [afterRead]
  · rename_i owner hpc
    split at hstep
    · obtain rfl := Option.some.inj hstep
      exact h.goto (by simp [hpc]) (by simp)
    · split at hstep
      all_goals
        obtain rfl := Option.some.inj hstep
        exact h.goto (by simp [hpc]) (by simp)
  · rename_i hpc
    obtain rfl := Option.some.inj hstep
    exact h.truncate (hopening hpc).1 (hopening hpc).2
  · rename_i file hpc
    obtain rfl := Option.some.inj hstep
    exact h.put ⟨halive, hpc⟩
  · rename_i hpc
    split at hstep
    · obtain rfl := Option.some.inj hstep
      exact h.goto (by simp [hpc]) (by simp)
    · obtain rfl := Option.some.inj hstep
      exact h.leave (by simp [hpc])
  · rename_i hpc
    obtain rfl := Option.some.inj hstep
    exact h.unlink (hunlinking hpc)

theorem Inv.step {s s' : State} {l : Label} (h : Inv s) (htrue : StillTrue s l)
    (hstep : step l s = some s') : Inv s' := by
  cases l with
  | start p =>
    simp only [Pidfile.step] at hstep
    split at hstep
    · simp at hstep
    · obtain rfl := Option.some.inj hstep
      exact h.reborn p true
  | exit p =>
    simp only [Pidfile.step] at hstep
    split at hstep
    · obtain rfl := Option.some.inj hstep
      exact h.reborn p false
    · simp at hstep
  | acquire p =>
    simp only [Pidfile.step] at hstep
    split at hstep
    · rename_i hidle
      have hpc : (s.procs p).pc = .idle := by simpa using (Bool.and_eq_true_iff.mp hidle).2
      obtain rfl := Option.some.inj hstep
      refine h.goto (by simp [hpc]) fun file => ?_
      split <;> simp
    · simp at hstep
  | release p =>
    simp only [Pidfile.step] at hstep
    split at hstep
    · rename_i hidle
      have hpc : (s.procs p).pc = .idle := by simpa using (Bool.and_eq_true_iff.mp hidle).2
      obtain rfl := Option.some.inj hstep
      split
      · exact h.goto (by simp [hpc]) (by simp)
      · exact h.leave (by simp [hpc])
    · simp at hstep
  | go p =>
    -- Only a step of `acquire` or `release` reaches the file.
    simp only [Pidfile.step] at hstep
    split at hstep
    · rename_i halive
      exact h.advance halive htrue hstep
    · simp at hstep

theorem inv_fresh {s : State} (h : s.Fresh) : Inv s := by
  have hnone : ∀ p, (s.procs p).pc = .idle ∧ (s.procs p).holds = false := fun p => by simp [h.1 p]
  refine ⟨fun p hp => ?_, fun p hp => ?_, fun p file _ hpc => ?_⟩
  · simp [State.Holder, hnone p] at hp
  · obtain ⟨-, file, hpc⟩ := hp
    simp [hnone p] at hpc
  · simp [hnone p] at hpc

/-- **One team at a time, where every act finds what its call saw.** -/
theorem exclusive_of_stillTrue (s : State) (labels : List Label) (hfresh : s.Fresh)
    (htrue : ∀ taken ∈ path step s labels, StillTrue taken.before taken.label) :
    ∀ taken ∈ path step s labels, Exclusive taken.after := by
  intro taken htaken
  exact (path_invariant (fun s l s' (h : Inv s) (hl : StillTrue s l) hs => h.step hl hs) s labels
    (inv_fresh hfresh) htrue taken htaken).exclusive

/-! ## Two launches at the same moment -/

def seven : Pid := ⟨7, by decide, by decide⟩
def eight : Pid := ⟨8, by decide, by decide⟩

/-- `seven` died and left its pidfile. -/
def leftover : State where
  alive p := p = eight
  procs _ := ⟨.idle, false⟩
  disk := ⟨some 0, fun _ => ['7'], 1⟩

/-- `eight` takes over the pidfile, and refuses the next process `seven`. -/
def takeover : List Label :=
  [.acquire eight, .go eight, .go eight, .go eight, .go eight, .start seven, .acquire seven, .go seven,
    .go seven]

theorem stillTrue_of_pc {s : State} {p : Pid} (hopening : (s.procs p).pc ≠ .opening)
    (hunlinking : (s.procs p).pc ≠ .unlinking) : StillTrue s (.go p) :=
  ⟨fun h => absurd h hopening, fun h => absurd h hunlinking⟩

theorem takeover_stillTrue :
    ∀ taken ∈ path step leftover takeover, StillTrue taken.before taken.label := by
  have hcons := @forall_path_cons State Label step fun taken => StillTrue taken.before taken.label
  refine (hcons rfl).mpr ⟨trivial, ?_⟩
  refine (hcons rfl).mpr ⟨stillTrue_of_pc (by decide) (by decide), ?_⟩
  refine (hcons rfl).mpr ⟨stillTrue_of_pc (by decide) (by decide), ?_⟩
  refine (hcons rfl).mpr ⟨⟨fun _ => ⟨?_, ?_⟩, fun h => absurd h (by decide)⟩, ?_⟩
  · intro owner howner
    have hseven : leftover.disk.readPid = some 7 := by decide
    obtain rfl : 7 = owner := Option.some.inj (hseven.symm.trans howner)
    exact .inl (by decide)
  · rintro q ⟨-, file, hpc⟩
    by_cases hq : q = eight
    · subst hq
      simp [State.goto] at hpc
    · simp [State.goto, leftover, hq] at hpc
  refine (hcons rfl).mpr ⟨stillTrue_of_pc (by decide) (by decide), ?_⟩
  refine (hcons rfl).mpr ⟨trivial, ?_⟩
  refine (hcons rfl).mpr ⟨trivial, ?_⟩
  refine (hcons rfl).mpr ⟨stillTrue_of_pc (by decide) (by decide), ?_⟩
  exact (hcons rfl).mpr ⟨stillTrue_of_pc (by decide) (by decide), by simp [path]⟩

theorem takeover_exclusive :
    (final step leftover takeover).Holder eight ∧
      ∀ taken ∈ path step leftover takeover, Exclusive taken.after :=
  ⟨⟨rfl, rfl⟩, exclusive_of_stillTrue leftover takeover
    ⟨fun _ => rfl, fun file h => by obtain rfl := Option.some.inj h; decide⟩ takeover_stillTrue⟩

/-- No pidfile. -/
def twoAlive : State where
  alive p := p = seven || p = eight
  procs _ := ⟨.idle, false⟩
  disk := ⟨none, fun _ => [], 0⟩

/-- Both see no pidfile before either writes one. -/
def race : List Label :=
  [.acquire seven, .acquire eight, .go seven, .go seven, .go eight, .go eight]

theorem race_two_teams : twoAlive.Fresh ∧
    ∃ taken ∈ path step twoAlive race, ¬ Exclusive taken.after := by
  refine ⟨⟨fun _ => rfl, fun file h => by simp [twoAlive] at h⟩, ?_⟩
  by_contra hall
  simp only [not_exists, not_and, not_not] at hall
  have hcons := @forall_path_cons State Label step fun taken => Exclusive taken.after
  obtain ⟨-, h⟩ := (hcons rfl).mp hall
  obtain ⟨-, h⟩ := (hcons rfl).mp h
  obtain ⟨-, h⟩ := (hcons rfl).mp h
  obtain ⟨-, h⟩ := (hcons rfl).mp h
  obtain ⟨-, h⟩ := (hcons rfl).mp h
  obtain ⟨hlast, -⟩ := (hcons rfl).mp h
  exact absurd (hlast seven eight ⟨rfl, rfl⟩ ⟨rfl, rfl⟩) (by decide)

end Swarm.Perpetual.Pidfile
