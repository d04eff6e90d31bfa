import LineDirective.Proofs.LexemeLocality
import LineDirective.Proofs.Mirroring
import LineDirective.Proofs.Requests

/-!
# Lenient policies

A policy is relaxed by no longer asking for whitespace after `#!`, or by ending a directive with a datum
that leaves the line where it was refused before. Where the stricter policy accepts a text, the relaxed
one reads it in the same way, step by step: each place at which the two part is one where the stricter
policy complains.

Only the end of atmosphere needs an argument. A `#!` without whitespace after it ends the atmosphere
under the stricter policy and belongs to it under the relaxed one. But neither a datum nor a closing
bracket stands there, so that a read which succeeds never stops at such a place (`Reads.relaxed`).
-/

namespace LineDirective

/-! ## 1. Policies -/

/-- The second policy is the first one, or leaves out one of its demands or both. -/
structure Policy.Relaxes (strict lenient : Policy) : Prop where
  whitespace : lenient.whitespace = strict.whitespace ∨ lenient.whitespace = .allowSpace
  lineCrossing : lenient.lineCrossing = strict.lineCrossing ∨ lenient.lineCrossing = .truncate

section Policies

variable {strict lenient : Policy}

theorem Policy.Relaxes.truncates (relaxes : strict.Relaxes lenient)
    (allowed : strict.lineCrossing = .truncate) : lenient.lineCrossing = .truncate := by
  rcases relaxes.lineCrossing with same | truncates
  · exact same.trans allowed
  · exact truncates

/-- What starts a directive still does. -/
theorem Policy.Relaxes.startsDirective (relaxes : strict.Relaxes lenient) {t : Text}
    (starts : startsDirective strict.whitespace t = true) :
    startsDirective lenient.whitespace t = true := by
  rcases relaxes.whitespace with same | allowed
  · rw [same]
    exact starts
  · unfold LineDirective.startsDirective
    rw [detect?_of_startsDirective starts, allowed]
    cases t with
    | nil => rfl
    | cons x rest => simp

end Policies

def Context.withPolicy (ctx : Context) (policy : Policy) : Context := { ctx with policy := policy }

/-! ## 2. Reads -/

section Reads

variable {ctx : Context} {lenient : Policy} {mode : Mode} {task : Task} {c next : Cursor}
  {s s' : ReaderState} {y : Yield}

/-- Where nothing is left to skip, the datum that is read starts. -/
theorem Reads.startsDatum_of_clear {d : Datum} (h : Reads ctx (.datum mode) c s (.datum d) next s')
    (clear : c.rest.head?.any CodePoint.isBlank = false ∧
      startsComment ctx.policy.whitespace mode c.rest = false) : StartsDatum c.rest := by
  cases h with
  | code skipped read =>
    obtain ⟨-, rfl, rfl⟩ := skipped.unique (.clear clear.1 clear.2)
    exact read.startsDatum
  | directive read => exact read.startsDatum

/-- A task may end before a text under a policy: of atmosphere nothing is left there. -/
def Task.EndsBefore (policy : WhitespacePolicy) : Task → Text → Prop
  | .atmosphere mode, t => startsComment policy mode t = false
  | _, _ => True

theorem Reads.relaxed (relaxes : ctx.policy.Relaxes lenient) (h : Reads ctx task c s y next s')
    (ends : task.EndsBefore lenient.whitespace next.rest) :
    Reads (ctx.withPolicy lenient) task c s y next s' := by
  -- by induction on the rules: the same rule applies under the relaxed policy. After atmosphere
  -- stands what the stricter policy goes on to read, and that is no comment under any policy.
  induction h with
  | code _ read ih₁ ih₂ => exact .code (ih₁ (read.startsDatum.no_comment _ _)) (ih₂ trivial)
  | directive _ ih => exact .directive (ih trivial)
  | flat spelled => exact .flat spelled
  | list head opener _ ih => exact .list head opener (ih trivial)
  | abbreviation mark skipped follows read ih₁ ih₂ =>
    have starts := read.startsDatum_of_clear skipped.clear_of_atmosphere
    exact .abbreviation mark (ih₁ (starts.no_comment _ _)) follows (ih₂ trivial)
  | vector head _ ih => exact .vector head (ih trivial)
  | bytevector head _ bytes ih => exact .bytevector head (ih trivial) bytes
  | close _ head closes ih =>
    obtain ⟨-, no_semicolon, no_hash⟩ := plain_of_isCloser closes
    refine .close (ih ?_) head closes
    rw [Task.EndsBefore, head]
    exact startsComment_eq_false no_semicolon no_hash
  | dot _ head lone some_item skipped₂ follows read _ ih₁ ih₂ ih₃ ih₄ =>
    have starts := read.startsDatum_of_clear skipped₂.clear_of_atmosphere
    refine .dot (ih₁ ?_) head lone some_item (ih₂ (starts.no_comment _ _)) follows (ih₃ trivial)
      (ih₄ trivial)
    rw [Task.EndsBefore, head]
    exact startsComment_eq_false (by decide) (by decide)
  | item skipped head open_ no_dot read _ ih₁ ih₂ ih₃ =>
    have starts := read.startsDatum_of_clear skipped.clear_of_atmosphere
    exact .item (ih₁ (starts.no_comment _ _)) head open_ no_dot (ih₂ trivial) (ih₃ trivial)
  | blank head white _ ih => exact .blank head white (ih ends)
  | remark visible _ _ ih₁ ih₂ => exact .remark visible (ih₁ trivial) (ih₂ ends)
  | clear visible _ => exact .clear visible ends
  | lineComment head => exact .lineComment head
  | blockComment head closed => exact .blockComment head closed
  | datumComment head _ ih => exact .datumComment head (ih trivial)
  | emptyComment head _ ended ih => exact .emptyComment head (ih trivial) ended
  | lineDatumComment head _ same follows _ ih₁ ih₂ =>
    exact .lineDatumComment head (ih₁ trivial) same follows (ih₂ trivial)
  | marker head found => exact .marker head found
  | lineDirective head unnamed starts _ kept ih =>
    exact .lineDirective head unnamed (relaxes.startsDirective starts) (ih trivial) kept
  | intralineBlank head white _ ih => exact .intralineBlank head white (ih trivial)
  | intralineComment visible _ same _ ih₁ ih₂ =>
    exact .intralineComment visible (ih₁ trivial) same (ih₂ trivial)
  | crossingComment visible _ left ih => exact .crossingComment visible (ih trivial) left
  | intralineClear visible none_starts =>
    exact .intralineClear visible ((startsComment_policy _ _ _).trans none_starts)
  | lastDatum _ ended ih => exact .lastDatum (ih trivial) ended
  | crossingDatum _ same follows _ left allowed ih₁ ih₂ =>
    exact .crossingDatum (ih₁ trivial) same follows (ih₂ trivial) left (relaxes.truncates allowed)
  | lineDatum _ same follows _ stays _ ih₁ ih₂ ih₃ =>
    exact .lineDatum (ih₁ trivial) same follows (ih₂ trivial) stays (ih₃ trivial)

/-- A comment that is no directive under one policy is none under any. -/
theorem Reads.atDirective_eq_false {policy : WhitespacePolicy}
    (h : Reads ctx (.comment .code) c s y next s')
    (no_directive : atDirective ctx.policy.whitespace c = false) : atDirective policy c = false := by
  cases h with
  | lineComment head | blockComment head _ | datumComment head _ => simp [atDirective, head]
  | marker head found => simp [atDirective, head, startsDirective, found]
  | lineDirective head _ starts _ _ => simp [atDirective, head, starts] at no_directive

theorem Finds.relaxed {item : Item} (relaxes : ctx.policy.Relaxes lenient)
    (h : Finds ctx c s item next s') : Finds (ctx.withPolicy lenient) c s item next s' := by
  induction h with
  | ended nothing => exact .ended nothing
  | blank head white _ ih => exact .blank head white ih
  | directive head starts scanned kept =>
    exact .directive head (relaxes.startsDirective starts) (scanned.relaxed relaxes trivial) kept
  | comment visible no_directive skipped _ ih =>
    exact .comment visible (skipped.atDirective_eq_false no_directive)
      (skipped.relaxed relaxes trivial) ih
  | datum some_rest visible none_starts read =>
    have starts := read.startsDatum_of_clear ⟨visible, none_starts⟩
    exact .datum some_rest visible (starts.no_comment _ _) (read.relaxed relaxes trivial)

end Reads

/-! ## 3. Sessions -/

namespace Session

def withPolicy (s : Session) (policy : Policy) : Session := { s with policy := policy }

variable {s s₁ : Session} {lenient : Policy}

theorem next_relaxed {item : Item} (relaxes : s.policy.Relaxes lenient)
    (found : s.next = (.ok item, s₁)) :
    (s.withPolicy lenient).next = (.ok item, s₁.withPolicy lenient) := by
  unfold next at found
  split at found
  · rename_i item' c state outcome
    cases found
    have finds := (finds_of_nextItem outcome).relaxed relaxes
    have same : (nextItem (s.withPolicy lenient).context (s.withPolicy lenient).cursor).run.run
        (s.withPolicy lenient).state = (.ok (item, c), state) := finds.nextItem
    unfold next
    rw [same]
    rfl
  · cases found

theorem policy_of_next {r : Except Failure Item} (h : s.next = (r, s₁)) : s₁.policy = s.policy :=
  congrArg Context.policy (context_of_next h).1

theorem formsFor_relaxed {wanted : Bool} {limit : Option Nat} {rounds : Nat}
    (relaxes : s.policy.Relaxes lenient)
    (succeeds : (formsFor wanted rounds limit s).1.failure = none) :
    formsFor wanted rounds limit (s.withPolicy lenient) =
      ((formsFor wanted rounds limit s).1, (formsFor wanted rounds limit s).2.withPolicy lenient) := by
  -- by induction on the rounds, each of which is one item
  induction rounds, limit, s using formsFor.induct wanted with
  | case1 => rfl
  | case2 => rfl
  | case3 rounds limit s some_left failure s₁ failed => simp [formsFor, failed] at succeeds
  | case4 rounds limit s some_left s₁ found => simp only [formsFor, found, next_relaxed relaxes found]
  | case5 rounds limit s some_left d s₁ found ih =>
    simp only [formsFor, found] at succeeds
    have others := ih s₁ (by rwa [policy_of_next found]) succeeds
    simp only [formsFor, found, next_relaxed relaxes found, others]
    rfl
  | case6 rounds limit s some_left d s₁ found wants ih =>
    simp only [formsFor, found, if_pos wants] at succeeds
    have others := ih s₁ (by rwa [policy_of_next found]) succeeds
    simp only [formsFor, found, next_relaxed relaxes found, if_pos wants, others]
    rfl
  | case7 rounds limit s some_left d s₁ found unwanted _ ih =>
    simp only [formsFor, found, if_neg unwanted] at succeeds
    have others := ih (by rwa [policy_of_next found]) succeeds
    simp only [formsFor, found, next_relaxed relaxes found, if_neg unwanted, others]

/-- What is read to its end under a policy is read in the same way under a relaxed one: the same items
with the same places after them, the same directives on record with the same specifications, and
case folding comes out the same. -/
theorem forms_of_relaxed (src : Source) (strict lenient : Policy) (registry : Registry)
    (foldCase wanted : Bool) {s u : Session} (of_strict : s = src.sessionWith strict registry foldCase)
    (of_lenient : u = src.sessionWith lenient registry foldCase) (relaxes : strict.Relaxes lenient)
    (succeeds : (s.forms wanted).1.failure = none) :
    (u.forms wanted).1 = (s.forms wanted).1 ∧ (u.forms wanted).2.position = (s.forms wanted).2.position ∧
    (u.forms wanted).2.log = (s.forms wanted).2.log ∧
    (u.forms wanted).2.state.foldCase = (s.forms wanted).2.state.foldCase := by
  have policy : u = s.withPolicy lenient := by rw [of_strict, of_lenient]; rfl
  have relaxes : s.policy.Relaxes lenient := by rw [of_strict]; exact relaxes
  have same : u.forms wanted = ((s.forms wanted).1, (s.forms wanted).2.withPolicy lenient) := by
    rw [policy]
    exact formsFor_relaxed relaxes succeeds
  rw [same]
  exact ⟨rfl, rfl, rfl, rfl⟩

/-- A directive that ends with a comment on the next line, a named marker and a directive in a list. -/
theorem forms_of_relaxed_list :
    ∃ (src : Source) (s u : Session), src = ⟨"#! x #|\n|#'a #!fold-case (B #! y\n) #;c", none⟩ ∧
      s = src.sessionWith {} .standard false ∧
      u = src.sessionWith ⟨.allowSpace, .truncate⟩ .standard false ∧
      (s.forms true).1.items.length = 3 ∧ (s.forms true).2.log.length = 2 ∧
      (u.forms true).1 = (s.forms true).1 ∧ (u.forms true).2.log = (s.forms true).2.log := by
  obtain ⟨forms, -, log, -⟩ := forms_of_relaxed ⟨"#! x #|\n|#'a #!fold-case (B #! y\n) #;c", none⟩ {}
    ⟨.allowSpace, .truncate⟩ .standard false true rfl rfl ⟨.inr rfl, .inr rfl⟩ (by decide +kernel)
  exact ⟨_, _, _, rfl, rfl, rfl, by decide +kernel, by decide +kernel, forms, log⟩

end Session

end LineDirective
