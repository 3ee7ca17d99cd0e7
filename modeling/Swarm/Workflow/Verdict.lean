import Swarm.GithubTasks
import Swarm.Workflow.Approval

/-!
# The verdict of a reply

A reply should end with its verdict. The parser looks for the last line that is one, wherever it is.
-/

namespace Swarm.Workflow

open GithubTasks (strip)

/-! ## The parser -/

/-- What `splitlines` splits at, besides `\r\n`. -/
def isLineBreak (c : Char) : Bool :=
  let n := c.toNat
  (10 ≤ n && n ≤ 13) || (28 ≤ n && n ≤ 30) || n == 0x85 || n == 0x2028 || n == 0x2029

/-- The lines of the text that is left, where `line` is the one that is being read. -/
def splitLinesFrom (line : List Char) : List Char → List String
  | [] => if line = [] then [] else [String.ofList line]
  | '\r' :: '\n' :: rest => String.ofList line :: splitLinesFrom [] rest
  | c :: rest =>
    if isLineBreak c then String.ofList line :: splitLinesFrom [] rest else splitLinesFrom (line ++ [c]) rest

def splitLines (text : String) : List String := splitLinesFrom [] text.toList

/-- The value of a verdict line. No letter past ASCII lowers into one of its words. -/
def verdictValue (line : String) : Option String :=
  let s := (strip line).toLower
  if "verdict:".toList.isPrefixOf s.toList then some (strip (String.ofList (s.toList.drop "verdict:".toList.length)))
  else none

/-- The loop over the lines, of which the last one is the first. -/
def verdictLoop : List String → String
  | [] => ""
  | line :: rest =>
    match verdictValue line with
    | some value => value
    | none => verdictLoop rest

def parsePassResult (which : Pass) (text : String) (costUsd : Num) : PassResult :=
  let verdict := verdictLoop (splitLines text).reverse
  if which = .adversarial then
    { which := which, changed := false, passed := some (verdict == "pass"), findings := []
      output := some text, costUsd := costUsd }
  else
    let changed := verdict == "changed"
    { which := which, changed := changed, passed := none
      findings := if which = .review && changed then [text] else []
      output := some text, costUsd := costUsd }

/-! ## The last line -/

def Blank (line : String) : Prop := strip line = ""

instance (line : String) : Decidable (Blank line) := inferInstanceAs (Decidable (strip line = ""))

/-- The last line that is not blank. -/
def lastLine (text : String) : Option String :=
  (splitLines text).reverse.find? fun line => !decide (Blank line)

/-- The reply ends with the verdict. -/
def Closes (text value : String) : Prop := (lastLine text).bind verdictValue = some value

/-- The last verdict line says `value`, and `after` are the lines behind it. -/
def LastVerdict (text value : String) (after : List String) : Prop :=
  ∃ before line, splitLines text = before ++ line :: after ∧ verdictValue line = some value ∧
    ∀ l ∈ after, verdictValue l = none

/-- Approval and convergence are read off the last line only. -/
def FailsClosed (which : Pass) (text : String) (costUsd : Num) : Prop :=
  match which with
  | .adversarial => (parsePassResult which text costUsd).passed = some true → Closes text "pass"
  | .simplify | .review =>
    (parsePassResult which text costUsd).changed = false → Closes text "clean"
  | .build => True

/-- No text comes behind the verdict, and where its absence would count as clean there is one. -/
def Finished (which : Pass) (text : String) : Prop :=
  match which with
  | .adversarial => ∀ after, LastVerdict text "pass" after → ∀ line ∈ after, Blank line
  | .simplify | .review => ∃ value after, LastVerdict text value after ∧
      (value = "changed" ∨ value = "clean" ∧ ∀ line ∈ after, Blank line)
  | .build => True

theorem verdictValue_blank {line : String} (h : Blank line) : verdictValue line = none := by
  unfold verdictValue
  rw [h]
  exact if_neg (by decide +kernel)

theorem verdictLoop_eq (lines : List String) :
    verdictLoop lines = (lines.findSome? verdictValue).getD "" := by
  induction lines with
  | nil => rfl
  | cons line rest ih =>
    rw [verdictLoop, List.findSome?_cons]
    cases verdictValue line with
    | none => exact ih
    | some value => rfl

theorem findSome_iff_lastVerdict (text value : String) :
    (splitLines text).reverse.findSome? verdictValue = some value ↔
      ∃ after, LastVerdict text value after := by
  rw [List.findSome?_eq_some_iff]
  constructor
  · rintro ⟨after, line, before, hsplit, hvalue, hafter⟩
    refine ⟨after.reverse, before.reverse, line, ?_, hvalue, by simpa using hafter⟩
    simpa using congrArg List.reverse hsplit
  · rintro ⟨after, before, line, hsplit, hvalue, hafter⟩
    exact ⟨after.reverse, line, before.reverse, by simp [hsplit], hvalue, by simpa using hafter⟩

/-- The verdict that the loop finds. -/
theorem verdict_iff {text value : String} (h : value ≠ "") :
    verdictLoop (splitLines text).reverse = value ↔ ∃ after, LastVerdict text value after := by
  rw [verdictLoop_eq, ← findSome_iff_lastVerdict]
  cases (splitLines text).reverse.findSome? verdictValue with
  | none => simpa using h.symm
  | some found => simp

theorem closes_iff (text value : String) :
    Closes text value ↔ ∃ after, LastVerdict text value after ∧ ∀ line ∈ after, Blank line := by
  have hlast : Closes text value ↔ ∃ line, lastLine text = some line ∧ verdictValue line = some value :=
    Option.bind_eq_some_iff
  simp only [hlast, lastLine, List.find?_eq_some_iff_append]
  constructor
  · rintro ⟨line, ⟨-, after, before, hsplit, hafter⟩, hvalue⟩
    have hblank : ∀ l ∈ after, Blank l := by simpa using hafter
    refine ⟨after.reverse, ⟨before.reverse, line, ?_, hvalue, ?_⟩, by simpa using hblank⟩
    · simpa using congrArg List.reverse hsplit
    · intro l hl
      exact verdictValue_blank (hblank l (List.mem_reverse.mp hl))
  · rintro ⟨after, ⟨before, line, hsplit, hvalue, -⟩, hblank⟩
    refine ⟨line, ⟨?_, after.reverse, before.reverse, by simp [hsplit], by simpa using hblank⟩, hvalue⟩
    have hfull : ¬ Blank line := by
      intro h
      rw [verdictValue_blank h] at hvalue
      cases hvalue
    simpa using hfull

theorem lastVerdict_unique {text value value' : String} {after after' : List String}
    (h : LastVerdict text value after) (h' : LastVerdict text value' after') :
    value = value' ∧ after = after' := by
  obtain ⟨before, line, hsplit, hvalue, hafter⟩ := h
  obtain ⟨before', line', hsplit', hvalue', hafter'⟩ := h'
  have hfound :=
    (findSome_iff_lastVerdict text value).mpr ⟨after, before, line, hsplit, hvalue, hafter⟩
  have hfound' :=
    (findSome_iff_lastVerdict text value').mpr ⟨after', before', line', hsplit', hvalue', hafter'⟩
  rw [hfound] at hfound'
  refine ⟨Option.some.inj hfound', ?_⟩
  rw [hsplit] at hsplit'
  rcases List.append_eq_append_iff.mp hsplit' with ⟨mid, -, hmid⟩ | ⟨mid, -, hmid⟩
  · cases mid with
    | nil => exact (List.cons.inj hmid).2
    | cons x mid =>
      obtain ⟨-, rfl⟩ := List.cons.inj hmid
      rw [hafter line' (by simp)] at hvalue'
      cases hvalue'
  · cases mid with
    | nil => exact (List.cons.inj hmid).2.symm
    | cons x mid =>
      obtain ⟨-, rfl⟩ := List.cons.inj hmid
      rw [hafter' line (by simp)] at hvalue
      cases hvalue

/-! ## When the parser fails closed -/

theorem quiet_iff {which : Pass} (h : which ≠ .adversarial) (text : String) (costUsd : Num) :
    (parsePassResult which text costUsd).changed = false ↔
      ¬ ∃ after, LastVerdict text "changed" after := by
  rw [← verdict_iff (by decide)]
  simp [parsePassResult, h]

theorem quiet_closes_iff (text : String) :
    ((¬ ∃ after, LastVerdict text "changed" after) → Closes text "clean") ↔
      ∃ value after, LastVerdict text value after ∧
        (value = "changed" ∨ value = "clean" ∧ ∀ line ∈ after, Blank line) := by
  rw [closes_iff]
  constructor
  · intro h
    by_cases hchanged : ∃ after, LastVerdict text "changed" after
    · obtain ⟨after, hlast⟩ := hchanged
      exact ⟨"changed", after, hlast, .inl rfl⟩
    · obtain ⟨after, hlast, hblank⟩ := h hchanged
      exact ⟨"clean", after, hlast, .inr ⟨rfl, hblank⟩⟩
  · rintro ⟨value, after, hlast, rfl | ⟨rfl, hblank⟩⟩ hnot
    · exact absurd ⟨after, hlast⟩ hnot
    · exact ⟨after, hlast, hblank⟩

/-- **When a reply is read the safe way.** -/
theorem failsClosed_iff (which : Pass) (text : String) (costUsd : Num) :
    FailsClosed which text costUsd ↔ Finished which text := by
  cases which with
  | build => exact Iff.rfl
  | simplify =>
    unfold FailsClosed Finished
    rw [quiet_iff (by decide), quiet_closes_iff]
  | review =>
    unfold FailsClosed Finished
    rw [quiet_iff (by decide), quiet_closes_iff]
  | adversarial =>
    have hpassed : (parsePassResult .adversarial text costUsd).passed = some true ↔
        ∃ after, LastVerdict text "pass" after := by
      rw [← verdict_iff (by decide)]
      simp [parsePassResult]
    unfold FailsClosed Finished
    rw [hpassed, closes_iff]
    constructor
    · intro h after hlast
      obtain ⟨after', hlast', hblank⟩ := h ⟨after, hlast⟩
      rw [(lastVerdict_unique hlast hlast').2]
      exact hblank
    · rintro h ⟨after, hlast⟩
      exact ⟨after, hlast, h after hlast⟩

/-- A review that is cut off before its verdict counts as clean. -/
theorem cut_off_review_clean :
    (parsePassResult .review "found a bug at x.py:10" (.finite 0)).changed = false ∧
      ¬ FailsClosed .review "found a bug at x.py:10" (.finite 0) := by
  have hquiet : (parsePassResult .review "found a bug at x.py:10" (.finite 0)).changed = false := by
    decide +kernel
  refine ⟨hquiet, fun h => ?_⟩
  have hcloses : Closes "found a bug at x.py:10" "clean" := h hquiet
  revert hcloses
  unfold Closes
  decide +kernel

end Swarm.Workflow
