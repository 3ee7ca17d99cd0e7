import Mathlib.Data.String.Basic
import Swarm.Lib.Disk
import Swarm.Lib.Runs

/-!
# `_atomic_write`, and those who read the file meanwhile

`agents.py`, `messaging.py`, `usage.py` and `governor.py` have one `_atomic_write` each, and
`_save_seen` of `github_tasks.py` has its body. A step is one thing that a process does to the
directory; any number of processes may write, read and remove files at once, and any of them may
stop at any point.
-/

namespace Swarm.AtomicWrite

open Lib

/-! ## Names -/

abbrev Chars := List Char

/-- The path that readers open. -/
def jsonPath (name : String) : String := name ++ ".json"

/-- The characters of `tempfile`. -/
def characters : List Char := "abcdefghijklmnopqrstuvwxyz0123456789_".toList

/-- What `mkstemp` may append to its prefix. -/
def isSuffix (suffix : Chars) : Bool := suffix.length == 8 && suffix.all characters.contains

/-- `tempfile.mkstemp(prefix=path.name + ".")` -/
def tmpPath (name : String) (suffix : Chars) : String :=
  jsonPath name ++ "." ++ String.ofList suffix

/-- A name that no reader opens. -/
def Temp (t : String) : Prop := ∀ name, t ≠ jsonPath name

theorem temp_tmpPath {suffix : Chars} (h : isSuffix suffix = true) (name : String) :
    Temp (tmpPath name suffix) := by
  intro other heq
  obtain ⟨hlength, hcharacters⟩ : suffix.length = 8 ∧ ∀ c ∈ suffix, c ∈ characters := by simpa [isSuffix] using h
  have hlists : (jsonPath name).toList ++ '.' :: suffix = other.toList ++ ".json".toList := by
    simpa [tmpPath, jsonPath] using congrArg String.toList heq
  have hsuffix : suffix <:+ (jsonPath name).toList ++ '.' :: suffix :=
    (List.suffix_cons '.' suffix).trans (List.suffix_append _ _)
  have hjson : ".json".toList <:+ (jsonPath name).toList ++ '.' :: suffix :=
    hlists ▸ List.suffix_append _ _
  have hinside : ".json".toList <:+ suffix :=
    List.suffix_of_suffix_length_le hjson hsuffix (by rw [hlength]; decide)
  exact absurd (hcharacters '.' (hinside.subset (by decide))) (by decide)

/-! ## Processes -/

variable {Proc Doc : Type*}

/-- Where a process stands in `_atomic_write`, or in a read. -/
inductive Job (Doc : Type*)
  | idle
  /-- `f.write(payload)`, and what has not reached the file. -/
  | writing (name tmp : String) (file : Nat) (doc : Doc) (rest : Chars)
  /-- `f` is closed. -/
  | replacing (name tmp : String) (doc : Doc)
  /-- `except Exception` -/
  | cleaning (tmp : String)
  /-- `path.exists()` was true. -/
  | opening (name : String)
  /-- `path.read_text()`, and what it has read. -/
  | reading (name : String) (file : Nat) (seen : Chars)

/-- The temporary file that the process has to rename or to unlink. -/
def Job.tmp : Job Doc → Option String
  | .writing _ tmp _ _ _ | .replacing _ tmp _ | .cleaning tmp => some tmp
  | .idle | .opening _ | .reading _ _ _ => none

inductive Event (Proc Doc : Type*)
  | replaced (name : String) (doc : Doc)
  | removed (name : String)
  | opened (p : Proc) (name : String)
  /-- What a reader got, `none` for no file. -/
  | answered (p : Proc) (name : String) (text : Option Chars)
  /-- The file went away after `path.exists()`. -/
  | lost (p : Proc) (name : String)
  /-- The exception of a write that failed. -/
  | raised (p : Proc) (tmp : String)
  /-- The process was killed or interrupted, or could not remove its file. -/
  | left (tmp : String)

structure State (Proc Doc : Type*) where
  disk : Disk String Char
  job : Proc → Job Doc
  /-- Oldest first. -/
  log : List (Event Proc Doc)

def start (disk : Disk String Char) : State Proc Doc := ⟨disk, fun _ => .idle, []⟩

/-- One thing that a process does to the directory. -/
inductive Act (Doc : Type*)
  | mkstemp (name : String) (doc : Doc) (suffix : Chars)
  /-- Some more characters reach the file. -/
  | flush (n : Nat)
  | close
  | replace
  /-- An `Exception` of the write, of `close` or of `os.replace`. -/
  | fail
  | unlink
  | stop
  | exists (name : String)
  | open
  | read (n : Nat)
  | eof
  /-- `path.unlink()` -/
  | remove (name : String)

structure Label (Proc Doc : Type*) where
  proc : Proc
  act : Act Doc

section

variable [DecidableEq Proc]

def State.goto (p : Proc) (j : Job Doc) (s : State Proc Doc) : State Proc Doc :=
  { s with job := Function.update s.job p j }

def State.note (events : List (Event Proc Doc)) (s : State Proc Doc) : State Proc Doc :=
  { s with log := s.log ++ events }

-- `text` is the payload of a document.
variable (text : Doc → Chars)

/-- A step that the process cannot make where it stands gives `none`. -/
def step (l : Label Proc Doc) (s : State Proc Doc) : Option (State Proc Doc) :=
  match s.job l.proc, l.act with
  | .idle, .mkstemp name doc suffix =>
    let tmp := tmpPath name suffix
    if isSuffix suffix = true ∧ s.disk.entry tmp = none then
      some { s.goto l.proc (.writing name tmp s.disk.next doc (text doc)) with disk := s.disk.create tmp }
    else none
  | .writing name tmp file doc rest, .flush n =>
    some { s.goto l.proc (.writing name tmp file doc (rest.drop n)) with disk := s.disk.append file (rest.take n) }
  | .writing name tmp _ doc rest, .close =>
    if rest = [] then some (s.goto l.proc (.replacing name tmp doc)) else none
  | .replacing name tmp doc, .replace =>
    some { (s.goto l.proc .idle).note [.replaced name doc] with disk := s.disk.rename tmp (jsonPath name) }
  | .writing _ tmp _ _ _, .fail | .replacing _ tmp _, .fail => some (s.goto l.proc (.cleaning tmp))
  | .cleaning tmp, .unlink =>
    some { (s.goto l.proc .idle).note [.raised l.proc tmp] with disk := s.disk.unlink tmp }
  | .writing _ tmp _ _ _, .stop | .replacing _ tmp _, .stop | .cleaning tmp, .stop =>
    some ((s.goto l.proc .idle).note [.left tmp])
  | .opening _, .stop | .reading _ _ _, .stop => some (s.goto l.proc .idle)
  | .idle, .exists name =>
    match s.disk.entry (jsonPath name) with
    | none => some (s.note [.opened l.proc name, .answered l.proc name none])
    | some _ => some (s.goto l.proc (.opening name))
  | .opening name, .open =>
    match s.disk.entry (jsonPath name) with
    | none => some ((s.goto l.proc .idle).note [.lost l.proc name])
    | some file => some ((s.goto l.proc (.reading name file [])).note [.opened l.proc name])
  | .reading name file seen, .read n =>
    some (s.goto l.proc (.reading name file (seen ++ ((s.disk.data file).drop seen.length).take n)))
  | .reading name file seen, .eof =>
    if seen.length = (s.disk.data file).length then
      some ((s.goto l.proc .idle).note [.answered l.proc name (some seen)])
    else none
  | .idle, .remove name =>
    if s.disk.entry (jsonPath name) = none then none
    else some { s.note [.removed name] with disk := s.disk.unlink (jsonPath name) }
  | _, _ => none

end

/-! ## What the log says -/

variable (text : Doc → Chars)

/-- What an event makes of the files, as whole files. -/
def Event.apply (e : Event Proc Doc) (files : String → Option Chars) : String → Option Chars :=
  match e with
  | .replaced name doc => Function.update files name (some (text doc))
  | .removed name => Function.update files name none
  | .opened _ _ | .answered _ _ _ | .lost _ _ | .raised _ _ | .left _ => files

/-- The files after whole writes and removals, one after the other. -/
def replay (files : String → Option Chars) (log : List (Event Proc Doc)) : String → Option Chars :=
  log.foldl (fun files e => e.apply text files) files

/-- When `p` last opened the file, it was this. -/
def Opened (files : String → Option Chars) (log : List (Event Proc Doc)) (p : Proc) (name : String)
    (answer : Option Chars) : Prop :=
  ∃ before since, log = before ++ .opened p name :: since ∧ (∀ n, .opened p n ∉ since) ∧
    replay text files before name = answer

/-- Events that say nothing of a file. -/
def Event.Silent : Event Proc Doc → Prop
  | .lost _ _ | .raised _ _ | .left _ => True
  | .replaced _ _ | .removed _ | .opened _ _ | .answered _ _ _ => False

/-- Every answer is what the file was when it was opened. -/
def Answered (files : String → Option Chars) (log : List (Event Proc Doc)) : Prop :=
  ∀ before after p name answer, log = before ++ .answered p name answer :: after →
    Opened text files before p name answer

/-! ## Other processes -/

/-- What a step of the process that owns the temporary file `own` leaves alone. -/
structure Frame (own : Option String) (d d' : Disk String Char) : Prop where
  next : d.next ≤ d'.next
  entry : ∀ t, Temp t → own ≠ some t → d'.entry t = d.entry t
  named : ∀ t i, Temp t → d'.entry t = some i → d.entry t = some i ∨ d.next ≤ i
  data : ∀ i, i < d.next → (∀ t, Temp t → d.entry t = some i → own ≠ some t) → d'.data i = d.data i

variable {d d' : Disk String Char}

theorem Frame.refl (own : Option String) (d : Disk String Char) : Frame own d d :=
  ⟨Nat.le_refl _, fun _ _ _ => rfl, fun _ _ _ h => .inl h, fun _ _ _ => rfl⟩

theorem frame_create (tmp : String) (d : Disk String Char) : Frame (some tmp) d (d.create tmp) where
  next := Nat.le_succ _
  entry t _ hown := Function.update_of_ne (fun h : t = tmp => hown (h ▸ rfl)) _ _
  named t i _ hi := by
    simp only [Disk.create, Function.update_apply] at hi
    split at hi
    · exact .inr (Option.some.inj hi).le
    · exact .inl hi
  data i hi _ := Function.update_of_ne hi.ne _ _

theorem frame_append {tmp : String} {file : Nat} (htemp : Temp tmp)
    (hfile : d.entry tmp = some file) (more : Chars) :
    Frame (some tmp) d (d.append file more) where
  next := Nat.le_refl _
  entry _ _ _ := rfl
  named _ _ _ h := .inl h
  data i _ hi := Function.update_of_ne (fun h : i = file => hi tmp htemp (h ▸ hfile) rfl) _ _

theorem frame_rename (tmp name : String) (d : Disk String Char) :
    Frame (some tmp) d (d.rename tmp (jsonPath name)) where
  next := Nat.le_refl _
  entry t ht hown := by
    have hne : t ≠ tmp := fun h => hown (h ▸ rfl)
    simp [Disk.rename, ht name, hne]
  named t i ht hi := by
    simp only [Disk.rename, Function.update_apply, ht name, ↓reduceIte] at hi
    split at hi
    · cases hi
    · exact .inl hi
  data _ _ _ := rfl

theorem frame_unlink {n : String} {own : Option String} (hn : ∀ t, Temp t → own ≠ some t → t ≠ n)
    (d : Disk String Char) : Frame own d (d.unlink n) where
  next := Nat.le_refl _
  entry t ht hown := Function.update_of_ne (hn t ht hown) _ _
  named t i _ hi := by
    simp only [Disk.unlink, Function.update_apply] at hi
    split at hi
    · cases hi
    · exact .inl hi
  data _ _ _ := rfl

/-! ## The log grows -/

variable {text} {files : String → Option Chars} {log : List (Event Proc Doc)}

theorem replay_append (events : List (Event Proc Doc)) :
    replay text files (log ++ events) = replay text (replay text files log) events :=
  List.foldl_append

theorem replay_silent {events : List (Event Proc Doc)} (h : ∀ e ∈ events, e.Silent) :
    replay text files events = files := by
  induction events with
  | nil => rfl
  | cons e rest ih =>
    obtain ⟨he, hrest⟩ := List.forall_mem_cons.mp h
    cases e with
    | lost _ _ | raised _ _ | left _ => exact ih hrest
    | replaced _ _ | removed _ | opened _ _ | answered _ _ _ => exact he.elim

theorem Opened.append {p : Proc} {name : String} {answer : Option Chars}
    (h : Opened text files log p name answer) {events : List (Event Proc Doc)}
    (hevents : ∀ n, .opened p n ∉ events) :
    Opened text files (log ++ events) p name answer := by
  obtain ⟨before, since, rfl, hsince, hanswer⟩ := h
  refine ⟨before, since ++ events, by simp, fun n => ?_, hanswer⟩
  rw [List.mem_append, not_or]
  exact ⟨hsince n, hevents n⟩

theorem opened_now (p : Proc) (name : String) :
    Opened text files (log ++ [.opened p name]) p name (replay text files log name) :=
  ⟨log, [], rfl, fun _ => List.not_mem_nil, rfl⟩

theorem Answered.append (h : Answered text files log) {events : List (Event Proc Doc)}
    (hevents : ∀ p name answer, .answered p name answer ∉ events) :
    Answered text files (log ++ events) := by
  intro before after p name answer heq
  rcases List.append_eq_append_iff.mp heq with ⟨rest, rfl, hrest⟩ | ⟨rest, rfl, hrest⟩
  · exact absurd (hrest ▸ List.mem_append_right _ List.mem_cons_self) (hevents p name answer)
  · cases rest with
    | nil =>
      rw [List.nil_append] at hrest
      exact absurd (hrest ▸ List.mem_cons_self) (hevents p name answer)
    | cons e rest =>
      obtain ⟨rfl, rfl⟩ := List.cons.inj hrest
      exact h before rest p name answer rfl

theorem Answered.answer (h : Answered text files log) {p : Proc} {name : String}
    {answer : Option Chars} (hopened : Opened text files log p name answer) :
    Answered text files (log ++ [.answered p name answer]) := by
  intro before after q other given heq
  rcases List.append_eq_append_iff.mp heq with ⟨rest, rfl, hrest⟩ | ⟨rest, rfl, hrest⟩
  · rcases List.append_eq_cons_iff.mp hrest.symm with ⟨rfl, hcons⟩ | ⟨_, _, hnil⟩
    · obtain ⟨⟨⟩, -⟩ := List.cons.inj hcons
      simpa using hopened
    · simp at hnil
  · cases rest with
    | nil =>
      obtain ⟨⟨⟩, -⟩ := List.cons.inj hrest
      simpa using hopened
    | cons e rest =>
      obtain ⟨rfl, rfl⟩ := List.cons.inj hrest
      exact h before rest q other given rfl

/-! ## The invariant -/

variable (text) in
/-- What a process may rely on. -/
def Job.Ok (files : String → Option Chars) (d : Disk String Char) (log : List (Event Proc Doc))
    (p : Proc) :
    Job Doc → Prop
  | .idle | .opening _ => True
  | .writing _ tmp file doc rest =>
    Temp tmp ∧ d.entry tmp = some file ∧ d.data file ++ rest = text doc
  | .replacing _ tmp doc => Temp tmp ∧ d.contents tmp = some (text doc)
  | .cleaning tmp => Temp tmp ∧ d.entry tmp ≠ none
  | .reading name file seen =>
    file < d.next ∧ (∀ t, Temp t → d.entry t ≠ some file) ∧ seen <+: d.data file ∧
      Opened text files log p name (some (d.data file))

theorem Job.Ok.temp {p : Proc} {j : Job Doc} (h : j.Ok text files d log p) {tmp : String}
    (htmp : j.tmp = some tmp) :
    Temp tmp ∧ d.entry tmp ≠ none := by
  cases j with
  | idle | opening _ | reading _ _ _ => cases htmp
  | writing name t file doc rest =>
    obtain ⟨⟨⟩⟩ := htmp
    exact ⟨h.1, by rw [h.2.1]; exact Option.some_ne_none file⟩
  | replacing name t doc =>
    obtain ⟨⟨⟩⟩ := htmp
    refine ⟨h.1, fun hnone => ?_⟩
    have hcontents := h.2
    rw [Disk.contents, hnone] at hcontents
    cases hcontents
  | cleaning t =>
    obtain ⟨⟨⟩⟩ := htmp
    exact h

theorem Job.Ok.frame {p : Proc} {j : Job Doc} (h : j.Ok text files d log p) (hvalid : d.Valid)
    {own : Option String} (hframe : Frame own d d')
    (hown : ∀ tmp, j.tmp = some tmp → own ≠ some tmp) {events : List (Event Proc Doc)}
    (hevents : ∀ n, .opened p n ∉ events) : j.Ok text files d' (log ++ events) p := by
  -- The file of a temporary name is written by its owner only.
  have hdata : ∀ tmp file, own ≠ some tmp → d.entry tmp = some file → d'.data file = d.data file :=
    fun tmp file hne hfile => hframe.data file (hvalid.below tmp file hfile)
      fun t _ ht => hvalid.single t tmp file ht hfile ▸ hne
  cases j with
  | idle | opening _ => trivial
  | writing name tmp file doc rest =>
    obtain ⟨htemp, hfile, hrest⟩ := h
    have hne := hown tmp rfl
    exact ⟨htemp, (hframe.entry tmp htemp hne).trans hfile, by rw [hdata tmp file hne hfile]; exact hrest⟩
  | replacing name tmp doc =>
    obtain ⟨htemp, hcontents⟩ := h
    have hne := hown tmp rfl
    refine ⟨htemp, ?_⟩
    obtain ⟨file, hfile, hdoc⟩ := Option.map_eq_some_iff.mp hcontents
    rw [Disk.contents, hframe.entry tmp htemp hne, hfile, Option.map_some, hdata tmp file hne hfile, hdoc]
  | cleaning tmp => exact ⟨h.1, by rw [hframe.entry tmp h.1 (hown tmp rfl)]; exact h.2⟩
  | reading name file seen =>
    obtain ⟨hlt, hsealed, hseen, hopened⟩ := h
    have hsame : d'.data file = d.data file :=
      hframe.data file hlt fun t ht hfile => absurd hfile (hsealed t ht)
    refine ⟨Nat.lt_of_lt_of_le hlt hframe.next, fun t ht hfile => ?_, by rw [hsame]; exact hseen,
      by rw [hsame]; exact hopened.append hevents⟩
    rcases hframe.named t file ht hfile with hold | hnew
    · exact hsealed t ht hold
    · exact Nat.lt_irrefl _ (Nat.lt_of_lt_of_le hlt hnew)

variable (text) in
structure Inv (files : String → Option Chars) (s : State Proc Doc) : Prop where
  valid : s.disk.Valid
  view : ∀ name, s.disk.contents (jsonPath name) = replay text files s.log name
  ok : ∀ p, (s.job p).Ok text files s.disk s.log p
  apart : ∀ p q tmp, (s.job p).tmp = some tmp → (s.job q).tmp = some tmp → p = q
  answered : Answered text files s.log

section

variable [DecidableEq Proc] {s s' : State Proc Doc}

/-- What a step of `p` has to see to. -/
theorem Inv.move (h : Inv text files s) {p : Proc} {j : Job Doc} {own : Option String}
    {d' : Disk String Char} (events : List (Event Proc Doc)) (hvalid : d'.Valid)
    (hframe : Frame own s.disk d')
    (hown : ∀ tmp, own = some tmp → (s.job p).tmp = some tmp ∨ s.disk.entry tmp = none)
    (hj : ∀ tmp, j.tmp = some tmp → own = some tmp) (hok : j.Ok text files d' (s.log ++ events) p)
    (hevents : ∀ q n, q ≠ p → .opened q n ∉ events)
    (hview : ∀ name, d'.contents (jsonPath name) = replay text files (s.log ++ events) name)
    (hanswered : Answered text files (s.log ++ events)) :
    Inv text files ⟨d', Function.update s.job p j, s.log ++ events⟩ := by
  have hothers : ∀ q tmp, q ≠ p → (s.job q).tmp = some tmp → own ≠ some tmp := by
    intro q tmp hq htmp heq
    rcases hown tmp heq with hp | hfresh
    · exact hq (h.apart q p tmp htmp hp)
    · exact ((h.ok q).temp htmp).2 hfresh
  refine ⟨hvalid, hview, fun q => ?_, fun q r tmp hq hr => ?_, hanswered⟩
  · rcases eq_or_ne q p with rfl | hq
    · simpa using hok
    · simpa [Function.update_of_ne hq] using
        (h.ok q).frame h.valid hframe (fun tmp => hothers q tmp hq) fun n => hevents q n hq
  · dsimp only at hq hr
    by_cases hqp : q = p <;> by_cases hrp : r = p
    · exact hqp.trans hrp.symm
    · rw [hqp, Function.update_self] at hq
      rw [Function.update_of_ne hrp] at hr
      exact absurd (hj tmp hq) (hothers r tmp hrp hr)
    · rw [Function.update_of_ne hqp] at hq
      rw [hrp, Function.update_self] at hr
      exact absurd (hj tmp hr) (hothers q tmp hqp hq)
    · rw [Function.update_of_ne hqp] at hq
      rw [Function.update_of_ne hrp] at hr
      exact h.apart q r tmp hq hr

theorem Inv.hidden (h : Inv text files s) {p : Proc} {j : Job Doc} {own : Option String}
    {d' : Disk String Char} (events : List (Event Proc Doc)) (hsilent : ∀ e ∈ events, e.Silent)
    (hvalid : d'.Valid) (hframe : Frame own s.disk d')
    (hown : ∀ tmp, own = some tmp → (s.job p).tmp = some tmp ∨ s.disk.entry tmp = none)
    (hj : ∀ tmp, j.tmp = some tmp → own = some tmp) (hok : j.Ok text files d' (s.log ++ events) p)
    (hsame : ∀ name, d'.contents (jsonPath name) = s.disk.contents (jsonPath name)) :
    Inv text files ⟨d', Function.update s.job p j, s.log ++ events⟩ := by
  refine h.move events hvalid hframe hown hj hok (fun q n _ hmem => hsilent _ hmem) (fun name => ?_)
    (h.answered.append fun q name answer hmem => hsilent _ hmem)
  rw [replay_append, replay_silent hsilent, hsame, h.view]

theorem Inv.goto (h : Inv text files s) {p : Proc} {j : Job Doc} (events : List (Event Proc Doc))
    (hsilent : ∀ e ∈ events, e.Silent) (hj : ∀ tmp, j.tmp = some tmp → (s.job p).tmp = some tmp)
    (hok : j.Ok text files s.disk (s.log ++ events) p) :
    Inv text files ⟨s.disk, Function.update s.job p j, s.log ++ events⟩ :=
  h.hidden events hsilent h.valid (Frame.refl _ _) (fun _ => .inl) hj hok fun _ => rfl

/-! ## Steps -/

variable {p : Proc} {name tmp : String} {file : Nat} {doc : Doc} {rest seen suffix : Chars}

theorem Inv.mkstemp (h : Inv text files s) (hsuffix : isSuffix suffix = true)
    (hfree : s.disk.entry (tmpPath name suffix) = none) :
    Inv text files { s.goto p (.writing name (tmpPath name suffix) s.disk.next doc (text doc)) with
      disk := s.disk.create (tmpPath name suffix) } := by
  have htemp := temp_tmpPath hsuffix name
  have hok : (Job.writing name (tmpPath name suffix) s.disk.next doc (text doc)).Ok text files
      (s.disk.create (tmpPath name suffix)) (s.log ++ []) p :=
    ⟨htemp, by simp [Disk.create], by simp [Disk.create]⟩
  simpa [State.goto] using h.hidden [] (by simp) (h.valid.create _) (frame_create _ _)
    (fun tmp heq => .inr (Option.some.inj heq ▸ hfree)) (by exact fun tmp heq => heq) hok
    fun other => Disk.contents_create_of_ne h.valid (htemp other).symm

theorem Inv.flush (h : Inv text files s) (hjob : s.job p = .writing name tmp file doc rest)
    (n : Nat) :
    Inv text files { s.goto p (.writing name tmp file doc (rest.drop n)) with
      disk := s.disk.append file (rest.take n) } := by
  have hp := h.ok p
  rw [hjob] at hp
  obtain ⟨htemp, hfile, hrest⟩ := hp
  have hok : (Job.writing name tmp file doc (rest.drop n)).Ok text files (s.disk.append file (rest.take n))
      (s.log ++ []) p :=
    ⟨htemp, hfile, by simp [Disk.append, hrest]⟩
  simpa [State.goto] using h.hidden [] (by simp) (h.valid.append _ _) (frame_append htemp hfile _)
    (fun tmp heq => .inl (by rw [hjob]; exact heq)) (by exact fun tmp heq => heq) hok
    fun other => Disk.contents_append_of_ne (fun hother => htemp other (h.valid.single _ _ _ hfile hother)) _

theorem Inv.close (h : Inv text files s) (hjob : s.job p = .writing name tmp file doc []) :
    Inv text files (s.goto p (.replacing name tmp doc)) := by
  have hp := h.ok p
  rw [hjob] at hp
  obtain ⟨htemp, hfile, hrest⟩ := hp
  have hok : (Job.replacing name tmp doc).Ok text files s.disk (s.log ++ []) p :=
    ⟨htemp, by rw [Disk.contents, hfile, Option.map_some, ← hrest, List.append_nil]⟩
  simpa [State.goto] using h.goto [] (by simp) (fun t ht => by rw [hjob]; exact ht) hok

theorem Inv.replace (h : Inv text files s) (hjob : s.job p = .replacing name tmp doc) :
    Inv text files { (s.goto p .idle).note [.replaced name doc] with
      disk := s.disk.rename tmp (jsonPath name) } := by
  have hp := h.ok p
  rw [hjob] at hp
  obtain ⟨htemp, hcontents⟩ := hp
  refine h.move [.replaced name doc] (h.valid.rename _ _) (frame_rename tmp name s.disk)
    (fun t ht => .inl (by rw [hjob]; exact ht)) (by simp [Job.tmp]) trivial (by simp) (fun other => ?_)
    (h.answered.append (by simp))
  have hpath : jsonPath other = jsonPath name ↔ other = name := by
    simp [jsonPath, String.append_left_inj]
  rw [Disk.contents_rename, replay_append, if_neg (htemp other).symm, hcontents, h.view]
  simp [replay, Event.apply, Function.update_apply, hpath]

theorem Inv.cleaning (h : Inv text files s) (htmp : (s.job p).tmp = some tmp) :
    Inv text files (s.goto p (.cleaning tmp)) := by
  have hok : (Job.cleaning tmp).Ok text files s.disk (s.log ++ []) p := (h.ok p).temp htmp
  simpa [State.goto] using h.goto [] (by simp) (by exact fun t ht => htmp.trans ht) hok

theorem Inv.unlink (h : Inv text files s) (hjob : s.job p = .cleaning tmp) :
    Inv text files { (s.goto p .idle).note [.raised p tmp] with disk := s.disk.unlink tmp } := by
  have hp := h.ok p
  rw [hjob] at hp
  exact h.hidden [.raised p tmp] (by simp [Event.Silent]) (h.valid.unlink _)
    (frame_unlink (fun t _ (hown : some tmp ≠ some t) heq => hown (heq ▸ rfl)) _)
    (fun t ht => .inl (by rw [hjob]; exact ht)) (by simp [Job.tmp]) trivial
    fun other => by rw [Disk.contents_unlink, if_neg (hp.1 other).symm]

theorem Inv.stop (h : Inv text files s) (events : List (Event Proc Doc))
    (hsilent : ∀ e ∈ events, e.Silent) :
    Inv text files ((s.goto p .idle).note events) :=
  h.goto events hsilent (by simp [Job.tmp]) trivial

theorem Inv.missing (h : Inv text files s) (hjob : s.job p = .idle)
    (hnone : s.disk.entry (jsonPath name) = none) :
    Inv text files (s.note [.opened p name, .answered p name none]) := by
  have hview := h.view name
  rw [Disk.contents, hnone, Option.map_none] at hview
  have hopened : Opened text files (s.log ++ [.opened p name]) p name none :=
    hview ▸ opened_now p name
  have hlog : s.log ++ [.opened p name, .answered p name none] =
      s.log ++ [.opened p name] ++ [.answered p name none] := by simp
  have hmove := h.move (p := p) (j := .idle) [.opened p name, .answered p name none] h.valid (Frame.refl none _)
    (by simp) (by simp [Job.tmp]) trivial (by simp; tauto)
    (fun other => by rw [replay_append]; exact h.view other)
    (hlog ▸ (h.answered.append (by simp)).answer hopened)
  rwa [Function.update_eq_self_iff.mpr hjob.symm] at hmove

theorem Inv.open (h : Inv text files s) (hfile : s.disk.entry (jsonPath name) = some file) :
    Inv text files ((s.goto p (.reading name file [])).note [.opened p name]) := by
  have hview := h.view name
  rw [Disk.contents, hfile, Option.map_some] at hview
  refine h.move [.opened p name] h.valid (Frame.refl none _) (by simp) (by simp [Job.tmp])
    ⟨h.valid.below _ _ hfile, fun t ht hother => ht name (h.valid.single _ _ _ hother hfile), List.nil_prefix,
      hview ▸ opened_now p name⟩
    (by simp; tauto) (fun other => ?_) (h.answered.append (by simp))
  rw [replay_append]
  exact h.view other

theorem Inv.read (h : Inv text files s) (hjob : s.job p = .reading name file seen) (n : Nat) :
    Inv text files (s.goto p (.reading name file (seen ++ ((s.disk.data file).drop seen.length).take n))) := by
  have hp := h.ok p
  rw [hjob] at hp
  obtain ⟨hlt, hsealed, ⟨more, hmore⟩, hopened⟩ := hp
  have hok : (Job.reading name file (seen ++ ((s.disk.data file).drop seen.length).take n)).Ok text files s.disk
      (s.log ++ []) p := by
    refine ⟨hlt, hsealed, ?_, by simpa using hopened⟩
    rw [← hmore, List.drop_left, List.prefix_append_right_inj]
    exact List.take_prefix n more
  simpa [State.goto] using h.goto [] (by simp) (by simp [Job.tmp]) hok

theorem Inv.eof (h : Inv text files s) (hjob : s.job p = .reading name file seen)
    (hall : seen.length = (s.disk.data file).length) :
    Inv text files ((s.goto p .idle).note [.answered p name (some seen)]) := by
  have hp := h.ok p
  rw [hjob] at hp
  obtain ⟨-, -, hseen, hopened⟩ := hp
  rw [← hseen.eq_of_length hall] at hopened
  refine h.move [.answered p name (some seen)] h.valid (Frame.refl none _) (by simp) (by simp [Job.tmp]) trivial
    (by simp) (fun other => ?_) (h.answered.answer hopened)
  rw [replay_append]
  exact h.view other

theorem Inv.remove (h : Inv text files s) (hjob : s.job p = .idle) :
    Inv text files { s.note [.removed name] with disk := s.disk.unlink (jsonPath name) } := by
  have hpath : ∀ other, jsonPath other = jsonPath name ↔ other = name := by
    simp [jsonPath, String.append_left_inj]
  have hmove := h.move (p := p) (j := .idle) [.removed name] (h.valid.unlink (jsonPath name))
    (frame_unlink (fun t ht (_ : none ≠ some t) => ht name) _) (by simp) (by simp [Job.tmp]) trivial (by simp)
    (fun other => by
      rw [Disk.contents_unlink, replay_append, h.view]
      simp [replay, Event.apply, Function.update_apply, hpath])
    (h.answered.append (by simp))
  rwa [Function.update_eq_self_iff.mpr hjob.symm] at hmove

theorem Inv.step (h : Inv text files s) {l : Label Proc Doc}
    (hstep : AtomicWrite.step text l s = some s') :
    Inv text files s' := by
  unfold AtomicWrite.step at hstep
  split at hstep
  next name doc suffix hjob _ =>
    -- A writer, from its temporary file to its replace.
    obtain ⟨⟨hsuffix, hfree⟩, ⟨⟩⟩ := Option.ite_none_right_eq_some.mp hstep
    exact h.mkstemp hsuffix hfree
  next name tmp file doc rest n hjob _ =>
    cases hstep
    exact h.flush hjob n
  next name tmp file doc rest hjob _ =>
    -- All of the text is written, so the file is whole when it is closed.
    obtain ⟨rfl, ⟨⟩⟩ := Option.ite_none_right_eq_some.mp hstep
    exact h.close hjob
  next name tmp doc hjob _ =>
    cases hstep
    exact h.replace hjob
  next name tmp file doc rest hjob _ =>
    -- A failure before or at the replace: the temporary file is cleaned up.
    cases hstep
    exact h.cleaning (by rw [hjob]; rfl)
  next name tmp doc hjob _ =>
    cases hstep
    exact h.cleaning (by rw [hjob]; rfl)
  next tmp hjob _ =>
    cases hstep
    exact h.unlink hjob
  next =>
    -- A writer that is killed leaves its temporary file behind.
    cases hstep
    exact h.stop [.left _] (by simp [Event.Silent])
  next =>
    cases hstep
    exact h.stop [.left _] (by simp [Event.Silent])
  next =>
    cases hstep
    exact h.stop [.left _] (by simp [Event.Silent])
  next =>
    cases hstep
    simpa [State.note] using h.stop [] (by simp)
  next =>
    cases hstep
    simpa [State.note] using h.stop [] (by simp)
  next name hjob _ =>
    -- A reader, from its look for the name to the end of the file.
    split at hstep
    · next hnone =>
      cases hstep
      exact h.missing hjob hnone
    · cases hstep
      have hok : (Job.opening name : Job Doc).Ok text files s.disk (s.log ++ []) l.proc := trivial
      simpa [State.goto] using h.goto [] (by simp) (by simp [Job.tmp]) hok
  next name hjob _ =>
    split at hstep
    · cases hstep
      exact h.stop [.lost l.proc name] (by simp [Event.Silent])
    · next file hfile =>
      cases hstep
      exact h.open hfile
  next name file seen n hjob _ =>
    cases hstep
    exact h.read hjob n
  next name file seen hjob _ =>
    -- What was read is all of one file, and files that are closed are whole.
    obtain ⟨hall, ⟨⟩⟩ := Option.ite_none_right_eq_some.mp hstep
    exact h.eof hjob hall
  next name hjob _ =>
    split at hstep
    · cases hstep
    · cases hstep
      exact h.remove hjob
  next => cases hstep

/-! ## Where documents and names come from -/

def Job.writes : Job Doc → Option (String × Doc)
  | .writing name _ _ doc _ | .replacing name _ doc => some (name, doc)
  | .idle | .cleaning _ | .opening _ | .reading _ _ _ => none

/-- What a step of `l.proc` to the job `j` and the directory `d'` does with documents and names. -/
structure Moved (l : Label Proc Doc) (s : State Proc Doc) (d' : Disk String Char) (j : Job Doc)
    (events : List (Event Proc Doc)) : Prop where
  writes : ∀ name doc, j.writes = some (name, doc) →
    (s.job l.proc).writes = some (name, doc) ∨ ∃ suffix, l.act = .mkstemp name doc suffix
  replaced : ∀ name doc, .replaced name doc ∈ events → (s.job l.proc).writes = some (name, doc)
  names : ∀ n, d'.entry n ≠ none → j.tmp = some n ∨ (∃ name doc, n = jsonPath name ∧ .replaced name doc ∈ events) ∨
    s.disk.entry n ≠ none ∧ ((s.job l.proc).tmp = some n → .left n ∈ events)
  left : ∀ n, .left n ∈ events → (s.job l.proc).tmp = some n

theorem goto_eq (p : Proc) (j : Job Doc) (s : State Proc Doc) :
    s.goto p j = ⟨s.disk, Function.update s.job p j, s.log ++ []⟩ := by simp [State.goto]

omit [DecidableEq Proc] in
theorem moved_same {l : Label Proc Doc} {j : Job Doc} {events : List (Event Proc Doc)}
    (hwrites : ∀ name doc, j.writes = some (name, doc) → (s.job l.proc).writes = some (name, doc))
    (htmp : ∀ n, (s.job l.proc).tmp = some n → j.tmp = some n ∨ .left n ∈ events)
    (hevents : ∀ name doc, .replaced name doc ∉ events)
    (hleft : ∀ n, .left n ∈ events → (s.job l.proc).tmp = some n) :
    Moved l s s.disk j events where
  writes name doc h := .inl (hwrites name doc h)
  replaced name doc h := absurd h (hevents name doc)
  names n hn := by
    by_cases hj : j.tmp = some n
    · exact .inl hj
    · exact .inr (.inr ⟨hn, fun h => (htmp n h).resolve_left hj⟩)
  left := hleft

theorem step_moved {l : Label Proc Doc} (hstep : AtomicWrite.step text l s = some s') :
    ∃ d' j events, s' = ⟨d', Function.update s.job l.proc j, s.log ++ events⟩ ∧
      Moved l s d' j events := by
  have hself : ∀ {j : Job Doc}, s.job l.proc = j → s.job = Function.update s.job l.proc j :=
    fun hjob => (Function.update_eq_self_iff.mpr hjob.symm).symm
  unfold AtomicWrite.step at hstep
  split at hstep
  next name doc suffix hjob hact =>
    -- `mkstemp`: the one new name is the temporary one.
    obtain ⟨-, ⟨⟩⟩ := Option.ite_none_right_eq_some.mp hstep
    refine ⟨_, .writing name (tmpPath name suffix) s.disk.next doc (text doc), [], by simp [State.goto]; rfl,
      fun _ _ h => ?_, by simp, fun n hn => ?_, by simp⟩
    · cases h
      exact .inr ⟨suffix, hact⟩
    · simp only [Disk.create, Function.update_apply] at hn
      split at hn
      · next heq => exact .inl (congrArg some heq.symm)
      · exact .inr (.inr ⟨hn, by simp [hjob, Job.tmp]⟩)
  next name tmp file doc rest n hjob _ =>
    -- A flush changes the file, and no name.
    cases hstep
    refine ⟨_, .writing name tmp file doc (rest.drop n), [], by simp [State.goto]; rfl,
      fun _ _ h => .inl (by rw [hjob]; exact h), by simp, fun m hm => ?_, by simp⟩
    by_cases htmp : tmp = m
    · exact .inl (congrArg some htmp)
    · exact .inr (.inr ⟨hm, fun h => absurd (Option.some.inj (by rw [hjob] at h; exact h)) htmp⟩)
  next name tmp file doc rest hjob _ =>
    obtain ⟨-, ⟨⟩⟩ := Option.ite_none_right_eq_some.mp hstep
    exact ⟨_, .replacing name tmp doc, [], goto_eq _ _ _,
      moved_same (by simp [hjob, Job.writes]) (by simp [hjob, Job.tmp]) (by simp) (by simp [hjob, Job.tmp])⟩
  next name tmp doc hjob _ =>
    -- `os.replace`: the temporary name goes, and the path of the write is there.
    cases hstep
    refine ⟨_, .idle, [.replaced name doc], rfl, by simp [Job.writes], by simp [hjob, Job.writes], fun n hn => ?_,
      by simp⟩
    simp only [Disk.rename, Function.update_apply] at hn
    split at hn
    · next heq => exact .inr (.inl ⟨name, doc, heq, List.mem_cons_self⟩)
    · split at hn
      · exact absurd rfl hn
      · next hne => exact .inr (.inr ⟨hn, fun h => absurd (Option.some.inj (by rw [hjob] at h; exact h.symm)) hne⟩)
  next name tmp file doc rest hjob _ =>
    cases hstep
    exact ⟨_, .cleaning tmp, [], goto_eq _ _ _,
      moved_same (by simp [Job.writes]) (by simp [hjob, Job.tmp]) (by simp) (by simp [hjob, Job.tmp])⟩
  next name tmp doc hjob _ =>
    cases hstep
    exact ⟨_, .cleaning tmp, [], goto_eq _ _ _,
      moved_same (by simp [Job.writes]) (by simp [hjob, Job.tmp]) (by simp) (by simp [hjob, Job.tmp])⟩
  next tmp hjob _ =>
    -- The cleanup after a failure.
    cases hstep
    refine ⟨_, .idle, [.raised l.proc tmp], rfl, by simp [Job.writes], by simp, fun n hn => ?_, by simp⟩
    simp only [Disk.unlink, Function.update_apply] at hn
    split at hn
    · exact absurd rfl hn
    · next hne => exact .inr (.inr ⟨hn, fun h => absurd (Option.some.inj (by rw [hjob] at h; exact h.symm)) hne⟩)
  next hjob _ =>
    cases hstep
    exact ⟨_, .idle, [.left _], rfl, moved_same (by simp [Job.writes]) (by simp [hjob, Job.tmp]) (by simp)
      (by simp [hjob, Job.tmp])⟩
  next hjob _ =>
    cases hstep
    exact ⟨_, .idle, [.left _], rfl, moved_same (by simp [Job.writes]) (by simp [hjob, Job.tmp]) (by simp)
      (by simp [hjob, Job.tmp])⟩
  next hjob _ =>
    cases hstep
    exact ⟨_, .idle, [.left _], rfl, moved_same (by simp [Job.writes]) (by simp [hjob, Job.tmp]) (by simp)
      (by simp [hjob, Job.tmp])⟩
  next hjob _ =>
    cases hstep
    exact ⟨_, .idle, [], goto_eq _ _ _, moved_same (by simp [Job.writes]) (by simp [hjob, Job.tmp]) (by simp)
      (by simp [hjob, Job.tmp])⟩
  next hjob _ =>
    cases hstep
    exact ⟨_, .idle, [], goto_eq _ _ _, moved_same (by simp [Job.writes]) (by simp [hjob, Job.tmp]) (by simp)
      (by simp [hjob, Job.tmp])⟩
  next name hjob _ =>
    split at hstep
    · cases hstep
      exact ⟨_, .idle, [.opened l.proc name, .answered l.proc name none], congrArg (State.mk _ · _) (hself hjob),
        moved_same (by simp [Job.writes]) (by simp [hjob, Job.tmp]) (by simp) (by simp [hjob, Job.tmp])⟩
    · cases hstep
      exact ⟨_, .opening name, [], goto_eq _ _ _,
        moved_same (by simp [Job.writes]) (by simp [hjob, Job.tmp]) (by simp) (by simp [hjob, Job.tmp])⟩
  next name hjob _ =>
    split at hstep
    · cases hstep
      exact ⟨_, .idle, [.lost l.proc name], rfl,
        moved_same (by simp [Job.writes]) (by simp [hjob, Job.tmp]) (by simp)
        (by simp [hjob, Job.tmp])⟩
    · next file _ =>
      cases hstep
      exact ⟨_, .reading name file [], [.opened l.proc name], rfl,
        moved_same (by simp [Job.writes]) (by simp [hjob, Job.tmp]) (by simp) (by simp [hjob, Job.tmp])⟩
  next name file seen n hjob _ =>
    -- Readers leave every name.
    cases hstep
    exact ⟨_, .reading name file _, [], goto_eq _ _ _,
      moved_same (by simp [Job.writes]) (by simp [hjob, Job.tmp]) (by simp) (by simp [hjob, Job.tmp])⟩
  next name file seen hjob _ =>
    obtain ⟨-, ⟨⟩⟩ := Option.ite_none_right_eq_some.mp hstep
    exact ⟨_, .idle, [.answered l.proc name (some seen)], rfl,
      moved_same (by simp [Job.writes]) (by simp [hjob, Job.tmp]) (by simp) (by simp [hjob, Job.tmp])⟩
  next name hjob _ =>
    split at hstep
    · cases hstep
    · cases hstep
      refine ⟨_, .idle, [.removed name], congrArg (State.mk _ · _) (hself hjob), by simp [Job.writes], by simp,
        fun n hn => ?_, by simp⟩
      simp only [Disk.unlink, Function.update_apply] at hn
      split at hn
      · exact absurd rfl hn
      · exact .inr (.inr ⟨hn, by simp [hjob, Job.tmp]⟩)
  next => cases hstep

/-- What holds of every document that is given to a write holds of those that reach a file. -/
structure Written (P : String → Doc → Prop) (s : State Proc Doc) : Prop where
  job : ∀ p name doc, (s.job p).writes = some (name, doc) → P name doc
  log : ∀ name doc, .replaced name doc ∈ s.log → P name doc

theorem Written.step {P : String → Doc → Prop} (h : Written P s) {l : Label Proc Doc}
    (hl : ∀ name doc suffix, l.act = .mkstemp name doc suffix → P name doc)
    (hstep : AtomicWrite.step text l s = some s') : Written P s' := by
  obtain ⟨d', j, events, rfl, hmoved⟩ := step_moved hstep
  refine ⟨fun p name doc hp => ?_, fun name doc hmem => ?_⟩
  · dsimp only at hp
    rcases eq_or_ne p l.proc with rfl | hne
    · rw [Function.update_self] at hp
      rcases hmoved.writes name doc hp with hold | ⟨suffix, hact⟩
      · exact h.job _ name doc hold
      · exact hl name doc suffix hact
    · rw [Function.update_of_ne hne] at hp
      exact h.job p name doc hp
  · rcases List.mem_append.mp hmem with hold | hnew
    · exact h.log name doc hold
    · exact h.job _ name doc (hmoved.replaced name doc hnew)

/-- Every name is one of before, one that was written, that of a write under way, or left by a
kill. -/
structure Tidy (disk : Disk String Char) (s : State Proc Doc) : Prop where
  names : ∀ n, s.disk.entry n ≠ none → disk.entry n ≠ none ∨
    (∃ name doc, n = jsonPath name ∧ .replaced name doc ∈ s.log) ∨ (∃ p, (s.job p).tmp = some n) ∨ .left n ∈ s.log
  left : ∀ n, .left n ∈ s.log → Temp n

theorem Tidy.step {disk : Disk String Char} (h : Tidy disk s) (hinv : Inv text files s)
    {l : Label Proc Doc} (hstep : AtomicWrite.step text l s = some s') : Tidy disk s' := by
  obtain ⟨d', j, events, rfl, hmoved⟩ := step_moved hstep
  refine ⟨fun n hn => ?_, fun n hmem => ?_⟩
  · rcases hmoved.names n hn with hj | ⟨name, doc, rfl, hmem⟩ | ⟨hbefore, hleft⟩
    · exact .inr (.inr (.inl ⟨l.proc, by simpa using hj⟩))
    · exact .inr (.inl ⟨name, doc, rfl, List.mem_append_right _ hmem⟩)
    · rcases h.names n hbefore with hdisk | ⟨name, doc, rfl, hmem⟩ | ⟨p, hp⟩ | hmem
      · exact .inl hdisk
      · exact .inr (.inl ⟨name, doc, rfl, List.mem_append_left _ hmem⟩)
      · rcases eq_or_ne p l.proc with rfl | hne
        · exact .inr (.inr (.inr (List.mem_append_right _ (hleft hp))))
        · exact .inr (.inr (.inl ⟨p, by simpa [Function.update_of_ne hne] using hp⟩))
      · exact .inr (.inr (.inr (List.mem_append_left _ hmem)))
  · rcases List.mem_append.mp hmem with hold | hnew
    · exact h.left n hold
    · exact ((hinv.ok l.proc).temp (hmoved.left n hnew)).1

/-! ## Over a run -/

variable (text)

omit [DecidableEq Proc] in
theorem inv_start {disk : Disk String Char} (hdisk : disk.Valid) :
    Inv text (fun name => disk.contents (jsonPath name)) (start disk : State Proc Doc) where
  valid := hdisk
  view _ := rfl
  ok _ := trivial
  apart _ _ _ h := by cases h
  answered _ _ _ _ _ h := by simp [start] at h

theorem inv_final {disk : Disk String Char} (hdisk : disk.Valid) (labels : List (Label Proc Doc)) :
    Inv text (fun name => disk.contents (jsonPath name)) (final (AtomicWrite.step text) (start disk) labels) :=
  final_invariant (fun _ _ _ h (_ : True) => h.step) _ labels (inv_start text hdisk) fun _ _ => trivial

/-- **Under any interleaving of writers, readers and removals, failures and kills included, the
files are at every moment those after whole writes and removals in the order of their renames, and
a reader gets what the file was when it opened it.** -/
theorem writes_atomic {disk : Disk String Char} (hdisk : disk.Valid)
    (labels : List (Label Proc Doc)) :
    let s := final (AtomicWrite.step text) (start disk) labels
    let files := fun name => disk.contents (jsonPath name)
    (∀ name, s.disk.contents (jsonPath name) = replay text files s.log name) ∧ Answered text files s.log :=
  ⟨(inv_final text hdisk labels).view, (inv_final text hdisk labels).answered⟩

theorem written_final {P : String → Doc → Prop} (disk : Disk String Char)
    (labels : List (Label Proc Doc))
    (hlabels : ∀ l ∈ labels, ∀ name doc suffix, l.act = .mkstemp name doc suffix → P name doc) :
    Written P (final (AtomicWrite.step text) (start disk) labels) :=
  final_invariant (fun _ _ _ h hl => h.step hl) _ labels
    ⟨fun _ _ _ h => (by cases h), fun _ _ h => (by simp [start] at h)⟩ hlabels

/-- **The directory has the names of before and those that were written, and beside them only
temporary ones, which no `*.json` matches: of writes under way, and of processes that were killed
or could not clean up.** -/
theorem no_litter {disk : Disk String Char} (hdisk : disk.Valid) (labels : List (Label Proc Doc)) :
    let s := final (AtomicWrite.step text) (start disk) labels
    ∀ n, s.disk.entry n ≠ none →
      disk.entry n ≠ none ∨ (∃ name doc, n = jsonPath name ∧ .replaced name doc ∈ s.log) ∨
        (∀ name, n ≠ jsonPath name) ∧ ((∃ p, (s.job p).tmp = some n) ∨ .left n ∈ s.log) := by
  intro s n hn
  have hstep : ∀ (r : State Proc Doc) l r',
      (Inv text (fun name => disk.contents (jsonPath name)) r ∧ Tidy disk r) → True →
      AtomicWrite.step text l r = some r' → Inv text (fun name => disk.contents (jsonPath name)) r' ∧ Tidy disk r' :=
    fun _ _ _ h _ hstep => ⟨h.1.step hstep, h.2.step h.1 hstep⟩
  have hfinal := final_invariant hstep (start disk) labels
    ⟨inv_start text hdisk, fun n hn => .inl hn, fun _ h => (by simp [start] at h)⟩ fun _ _ => trivial
  rcases hfinal.2.names n hn with hold | hwritten | ⟨p, hp⟩ | hleft
  · exact .inl hold
  · exact .inr (.inl hwritten)
  · exact .inr (.inr ⟨((hfinal.1.ok p).temp hp).1, .inl ⟨p, hp⟩⟩)
  · exact .inr (.inr ⟨hfinal.2.left n hleft, .inr hleft⟩)

end

def bare : Disk String Char := ⟨fun _ => none, fun _ => [], 0⟩

theorem bare_valid : bare.Valid := ⟨fun _ _ h => (by cases h), fun _ _ _ h => (by cases h)⟩

/-- Two writes of one file: one is killed half way, the other fails at the end. -/
def mishaps : List (Label Bool Chars) :=
  [⟨false, .mkstemp "usage" "ab".toList "k3x_9f0q".toList⟩, ⟨true, .mkstemp "usage" "cd".toList "0_ab12cd".toList⟩,
    ⟨false, .flush 1⟩, ⟨true, .flush 2⟩, ⟨true, .close⟩, ⟨false, .stop⟩, ⟨true, .fail⟩, ⟨true, .unlink⟩]

theorem mishaps_litter :
    let s := final (AtomicWrite.step id) (start bare) mishaps
    ∀ n, s.disk.entry n ≠ none →
      bare.entry n ≠ none ∨ (∃ name doc, n = jsonPath name ∧ .replaced name doc ∈ s.log) ∨
        (∀ name, n ≠ jsonPath name) ∧ ((∃ p, (s.job p).tmp = some n) ∨ .left n ∈ s.log) :=
  no_litter id bare_valid mishaps

end Swarm.AtomicWrite
