import LineDirective.Proofs.Isolation
import Mathlib.Logic.Relation

/-!
# From token to token

`c.Passes c'` says that one token stands between the two cursors: a blank, a comment, a datum without
nested data, or one of the marks that nested data are made of. `c.LeadsTo c'` goes over any number of
tokens. The reader finds everything it reads at such places: a read that hands over no directive leads
from its start to its end (`Reads.leadsTo`).
-/

namespace LineDirective

namespace Cursor

/-- One token stands between two cursors. -/
inductive Passes : Cursor → Cursor → Prop
  | blank {c x rest} (head : c.rest = x :: rest) (white : x.isBlank = true) : Passes c c.next
  | lineComment {c rest} (head : c.rest = .scalar ';' :: rest) : Passes c c.lineEnd
  | blockComment {c rest size} (head : c.rest = .scalar '#' :: .scalar '|' :: rest)
      (ends : Lexeme.blockComment 0 c.rest = .ok size) : Passes c (c.advance size)
  | datumComment {c rest} (head : c.rest = .scalar '#' :: .scalar ';' :: rest) :
      Passes c (c.advance 2)
  | marker {c rest m} (head : c.rest = .scalar '#' :: .scalar '!' :: rest)
      (found : NamedMarker.detect? rest = some m) : Passes c (c.advance (2 + m.name.length))
  | lexeme {c fold d size} (spelled : Lexeme.Spells fold c.rest d size) : Passes c (c.advance size)
  | opener {c x rest} (head : c.rest = x :: rest) (opens : x = .scalar '(' ∨ x = .scalar '[') :
      Passes c c.next
  | closer {c x rest} (head : c.rest = x :: rest) (closes : isCloser x = true) : Passes c c.next
  | abbreviation {c a} (mark : abbreviation? c.rest = some a) : Passes c (c.advance a.mark.length)
  | vector {c rest} (head : c.rest = .scalar '#' :: .scalar '(' :: rest) : Passes c (c.advance 2)
  | bytevector {c rest}
      (head : c.rest = .scalar '#' :: .scalar 'u' :: .scalar '8' :: .scalar '(' :: rest) :
      Passes c (c.advance 4)
  | dot {c rest} (head : c.rest = .scalar '.' :: rest) (lone : Text.atDelimiter rest = true) :
      Passes c c.next

def LeadsTo : Cursor → Cursor → Prop := Relation.ReflTransGen Passes

variable {a b c : Cursor}

theorem LeadsTo.refl (c : Cursor) : c.LeadsTo c := Relation.ReflTransGen.refl

theorem LeadsTo.trans (first : a.LeadsTo b) (second : b.LeadsTo c) : a.LeadsTo c :=
  Relation.ReflTransGen.trans first second

theorem Passes.leadsTo (h : a.Passes b) : a.LeadsTo b := Relation.ReflTransGen.single h

theorem Passes.reaches (h : a.Passes b) : a.Reaches b := by
  cases h with
  | lineComment => exact a.reaches_lineEnd
  | blank | opener | closer | dot => exact a.reaches_next
  | blockComment | datumComment | marker | lexeme | abbreviation | vector | bytevector =>
    exact a.reaches_advance _

theorem LeadsTo.reaches (h : a.LeadsTo b) : a.Reaches b := by
  induction h with
  | refl => exact .refl a
  | tail _ passes ih => exact ih.trans passes.reaches

end Cursor

/-! ## Reads that hand nothing over -/

/-- A record that ends as it began has been the same all the time. -/
theorem eq_of_prefix_between {a b c : List Directive} (first : a <+: b) (second : b <+: c)
    (same : c = a) : b = a ∧ c = b := by
  subst same
  have whole := first.eq_of_length_le second.length_le
  exact ⟨whole.symm, whole⟩

section

variable {ctx : Context} (keeps : ctx.sink ≠ .discard) {task : Task} {c next : Cursor}
  {s s' : ReaderState} {y : Yield}

include keeps

theorem Reads.directives_prefix (h : Reads ctx task c s y next s') (outside : task.isScan = false) :
    s.directives <+: s'.directives := by
  obtain ⟨ds, grown, -⟩ := h.recorded keeps outside
  exact ⟨ds, grown.symm⟩

theorem Reads.directives_of_kept {anchor : Int} {ds : List Datum} {d : Directive} {p : Position}
    {t : ReaderState} (h : Reads ctx (.datums anchor []) c (s.emit (.phase .start .skipping p))
      (.datums ds) next t) (kept : (ctx.record d).Returns t () s') :
    s'.directives = s.directives ++ [d] := by
  have once := (ctx.final_record keeps d t).1
  rw [kept.final, h.scan_ends.1.directives] at once
  exact once

theorem Reads.leadsTo (h : Reads ctx task c s y next s') (outside : task.isScan = false)
    (quiet : s'.directives = s.directives) : c.LeadsTo next := by
  -- by induction on the rules: a directive in code would have been put on record
  induction h with
  | code skipped read ih₁ ih₂ =>
    obtain ⟨quiet₁, quiet₂⟩ := eq_of_prefix_between (skipped.directives_prefix keeps rfl)
      (read.directives_prefix keeps rfl) quiet
    exact (ih₁ rfl quiet₁).trans (ih₂ rfl quiet₂)
  | directive _ ih | crossingComment _ _ _ ih => exact ih rfl quiet
  | flat spelled => exact (Cursor.Passes.lexeme spelled).leadsTo
  | list head opener _ ih => exact (Cursor.Passes.opener head opener).leadsTo.trans (ih rfl quiet)
  | abbreviation mark skipped _ read ih₁ ih₂ =>
    obtain ⟨quiet₁, quiet₂⟩ := eq_of_prefix_between (skipped.directives_prefix keeps rfl)
      (read.directives_prefix keeps rfl) quiet
    exact (Cursor.Passes.abbreviation mark).leadsTo.trans
      ((ih₁ rfl quiet₁).trans (ih₂ rfl quiet₂))
  | vector head _ ih => exact (Cursor.Passes.vector head).leadsTo.trans (ih rfl quiet)
  | bytevector head _ _ ih => exact (Cursor.Passes.bytevector head).leadsTo.trans (ih rfl quiet)
  | close skipped head closes ih =>
    exact (ih rfl quiet).trans (Cursor.Passes.closer head closes).leadsTo
  | dot skipped head lone _ skipped₂ _ read others ih₁ ih₂ ih₃ ih₄ =>
    obtain ⟨quiet₁, rest⟩ := eq_of_prefix_between (skipped.directives_prefix keeps rfl)
      ((skipped₂.directives_prefix keeps rfl).trans ((read.directives_prefix keeps rfl).trans
        (others.directives_prefix keeps rfl))) quiet
    obtain ⟨quiet₂, rest⟩ := eq_of_prefix_between (skipped₂.directives_prefix keeps rfl)
      ((read.directives_prefix keeps rfl).trans (others.directives_prefix keeps rfl)) rest
    obtain ⟨quiet₃, quiet₄⟩ := eq_of_prefix_between (read.directives_prefix keeps rfl)
      (others.directives_prefix keeps rfl) rest
    exact (ih₁ rfl quiet₁).trans ((Cursor.Passes.dot head lone).leadsTo.trans
      ((ih₂ rfl quiet₂).trans ((ih₃ rfl quiet₃).trans (ih₄ rfl quiet₄))))
  | item skipped _ _ _ read others ih₁ ih₂ ih₃ =>
    obtain ⟨quiet₁, rest⟩ := eq_of_prefix_between (skipped.directives_prefix keeps rfl)
      ((read.directives_prefix keeps rfl).trans (others.directives_prefix keeps rfl)) quiet
    obtain ⟨quiet₂, quiet₃⟩ := eq_of_prefix_between (read.directives_prefix keeps rfl)
      (others.directives_prefix keeps rfl) rest
    exact (ih₁ rfl quiet₁).trans ((ih₂ rfl quiet₂).trans (ih₃ rfl quiet₃))
  | blank head white _ ih => exact (Cursor.Passes.blank head white).leadsTo.trans (ih rfl quiet)
  | remark _ skipped others ih₁ ih₂ | intralineComment _ skipped _ others ih₁ ih₂ =>
    obtain ⟨quiet₁, quiet₂⟩ := eq_of_prefix_between (skipped.directives_prefix keeps rfl)
      (others.directives_prefix keeps rfl) quiet
    exact (ih₁ rfl quiet₁).trans (ih₂ rfl quiet₂)
  | clear | intralineClear => exact .refl _
  | lineComment head => exact (Cursor.Passes.lineComment head).leadsTo
  | blockComment head ends => exact (Cursor.Passes.blockComment head ends).leadsTo
  | datumComment head _ ih | emptyComment head _ _ ih =>
    exact (Cursor.Passes.datumComment head).leadsTo.trans (ih rfl quiet)
  | lineDatumComment head skipped _ _ read ih₁ ih₂ =>
    obtain ⟨quiet₁, quiet₂⟩ := eq_of_prefix_between (skipped.directives_prefix keeps rfl)
      (read.directives_prefix keeps rfl) quiet
    exact (Cursor.Passes.datumComment head).leadsTo.trans
      ((ih₁ rfl quiet₁).trans (ih₂ rfl quiet₂))
  | marker head found => exact (Cursor.Passes.marker head found).leadsTo
  | lineDirective _ _ _ scanned kept _ =>
    have once := scanned.directives_of_kept keeps kept
    rw [quiet] at once
    simp at once
  | intralineBlank head white _ ih =>
    have blank : CodePoint.isBlank _ = true := (Bool.and_eq_true_iff.mp white).2
    exact (Cursor.Passes.blank head blank).leadsTo.trans (ih rfl quiet)
  | lastDatum | crossingDatum | lineDatum => cases outside

end

end LineDirective
