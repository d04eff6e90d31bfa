import LineDirective.Proofs.Coherence
import LineDirective.Proofs.Reporting

/-!
# Carets

Positions count lines and columns code point by code point and look one code point ahead for the pair of
carriage return and line feed. For a message the line is found again, by cutting the whole text at its
breaks. Both views agree: in the line of its number, a position has at its column the code point of its
offset, and where the line ends its column is the length of the line. Only the second half of a break of
two code points lies one column further on (`Source.Shows`).

So the caret below a line that a run prints for a reader's complaint stands under the code point that the
complaint is about, or just behind the line where the line ends (`Source.carets_below`).
-/

namespace LineDirective

/-! ## 1. Columns in lines -/

namespace Text

def InsideBreak (t : Text) (k : Nat) : Prop :=
  ∃ i, k = i + 1 ∧ t[i]? = some .carriageReturn ∧ t[k]? = some .lineFeed

/-- Where a line ends nothing of it is left. -/
theorem lines_of_lineEnd {t : Text} (ends : ∀ x ∈ t.head?, x.isNewline = true) :
    ∃ more, t.lines = [] :: more := by
  cases t with
  | nil => exact ⟨[], rfl⟩
  | cons x rest =>
    by_cases pair : x = .carriageReturn ∧ rest.head? = some .lineFeed
    · obtain ⟨rfl, follows⟩ := pair
      obtain ⟨more, rfl⟩ := List.head?_eq_some_iff.mp follows
      exact ⟨_, rfl⟩
    · exact ⟨_, lines_of_newline (ends x rfl) pair⟩

end Text

namespace Source

variable {src : Source} {c : Cursor}

/-- The line of a position at the end of its line is used up. -/
theorem length_line_le (ahead : (src.cursor .start).Reaches c)
    (ends : ∀ x ∈ c.rest.head?, x.isNewline = true) :
    (src.line c.position.line).length ≤ c.position.column.toNat := by
  obtain ⟨-, -, more, left⟩ := line_of_reaches ahead
  obtain ⟨others, none_left⟩ := Text.lines_of_lineEnd ends
  rw [none_left, List.cons.injEq] at left
  exact List.drop_eq_nil_iff.mp left.1.symm

/-- The line of a position inside its line has the code point there at its column. -/
theorem getElem?_line (ahead : (src.cursor .start).Reaches c) {x : CodePoint} {rest : Text}
    (head : c.rest = x :: rest) (inside : x.isNewline = false) :
    (src.line c.position.line)[c.position.column.toNat]? = some x := by
  obtain ⟨-, -, more, left⟩ := line_of_reaches ahead
  obtain ⟨line, others, -, whole⟩ := @Text.lines_of_inside x rest inside
  rw [head, whole, List.cons.injEq] at left
  rw [← List.head?_drop, ← left.1]
  rfl

/-- One step keeps the column inside the line. The first half of a break of two code points, which alone
moves on without a new line, leads one column behind it. -/
theorem column_next (ahead : (src.cursor .start).Reaches c)
    (within : c.rest.head? ≠ some .lineFeed → c.position.column ≤ (src.line c.position.line).length) :
    let column := c.next.position.column
    let length := (src.line c.next.position.line).length
    (c.rest.head? = some .carriageReturn ∧ c.rest[1]? = some .lineFeed → column = length + 1) ∧
      (¬ (c.rest.head? = some .carriageReturn ∧ c.rest[1]? = some .lineFeed) → column ≤ length) := by
  have ⟨_, some_column, _⟩ := line_of_reaches ahead
  cases head : c.rest with
  | nil =>
    rw [Cursor.next_of_atEnd (by simp [Cursor.atEnd, head])]
    refine ⟨fun pair => ?_, fun _ => ?_⟩
    · cases pair.1
    · exact within (by simp [head])
  | cons x rest =>
    have moved : c.next = ⟨rest, c.position.after x rest⟩ := by
      unfold Cursor.next
      rw [head]
    have second : (x :: rest)[1]? = rest.head? := by
      rw [List.getElem?_cons_succ, List.head?_eq_getElem?]
    rw [moved, second, List.head?_cons, Option.some.injEq]
    by_cases ends : x = .lineFeed ∨ (x = .carriageReturn ∧ rest.head? ≠ some .lineFeed)
    · -- a new line, at its first column
      rw [Position.after, if_pos ends]
      refine ⟨?_, fun _ => Int.natCast_nonneg _⟩
      rintro ⟨rfl, follows⟩
      rcases ends with impossible | ⟨-, other⟩
      · cases impossible
      · exact absurd follows other
    · have no_feed : x ≠ .lineFeed := fun feed => ends (.inl feed)
      have inside_line := within (by simpa [head] using no_feed)
      rw [Position.after, if_neg ends]
      dsimp only
      constructor
      · rintro ⟨rfl, -⟩
        have used := length_line_le ahead (by simp [head, CodePoint.isNewline])
        omega
      · intro single
        have inside : x.isNewline = false := by
          apply CodePoint.isNewline_eq_false
          · rintro rfl
            exact ends (.inr ⟨rfl, fun follows => single ⟨rfl, follows⟩⟩)
          · exact no_feed
        obtain ⟨more, -⟩ := List.getElem?_eq_some_iff.mp (getElem?_line ahead head inside)
        omega

/-- Along a text the column stays inside the line, except between the two code points of a break. -/
theorem column_advance (src : Source) (k : Nat) :
    let p := ((src.cursor .start).advance k).position
    (src.text.InsideBreak k → p.column = (src.line p.line).length + 1) ∧
      (¬ src.text.InsideBreak k → p.column ≤ (src.line p.line).length) := by
  induction k with
  | zero =>
    refine ⟨?_, fun _ => Int.natCast_nonneg _⟩
    rintro ⟨i, impossible, -⟩
    cases impossible
  | succ k ih =>
    have left : ((src.cursor .start).advance k).rest = src.text.drop k := Cursor.rest_advance _ _
    have one_more : (src.cursor .start).advance (k + 1) = ((src.cursor .start).advance k).next := by
      rw [Cursor.advance_add, Cursor.advance_one]
    have around : src.text.InsideBreak (k + 1) ↔
        (src.text.drop k).head? = some .carriageReturn ∧ (src.text.drop k)[1]? = some .lineFeed := by
      rw [List.head?_drop, List.getElem?_drop]
      constructor
      · rintro ⟨i, same, pair⟩
        obtain rfl := Nat.succ.inj same
        exact pair
      · intro pair
        exact ⟨k, rfl, pair⟩
    have step := column_next ((src.cursor .start).reaches_advance k) fun no_feed => ih.2 (by
      rintro ⟨i, -, -, feed⟩
      rw [left, List.head?_drop] at no_feed
      exact no_feed feed)
    rw [left, ← around, ← one_more] at step
    exact step

/-- What a position has to do with the offset that it stands for: its line is one of the lines of the
text, and in this line its column is the place of the code point at the offset. At the end of a line the
column is that after its last code point, or, between the two code points of a break, the one after that. -/
structure Shows (src : Source) (k : Nat) (p : Position) : Prop where
  some_line : 1 ≤ p.line
  no_later : p.line ≤ src.text.lines.length
  some_column : 0 ≤ p.column
  inside : ∀ x, src.text[k]? = some x → x.isNewline = false →
    (src.line p.line)[p.column.toNat]? = some x
  behind : (∀ x, src.text[k]? = some x → x.isNewline = true) → ¬ src.text.InsideBreak k →
    p.column = (src.line p.line).length
  between : src.text.InsideBreak k → p.column = (src.line p.line).length + 1

theorem shows_advance (src : Source) (k : Nat) :
    src.Shows k ((src.cursor .start).advance k).position := by
  have ahead := (src.cursor .start).reaches_advance k
  have left : ((src.cursor .start).advance k).rest = src.text.drop k := Cursor.rest_advance _ _
  obtain ⟨some_line, some_column, -⟩ := line_of_reaches ahead
  obtain ⟨between, within⟩ := column_advance src k
  refine ⟨some_line, ?_, some_column, ?_, ?_, between⟩
  · have stands : ((src.cursor .start).advance k).StandsIn src.text :=
      (Cursor.standsIn_ofText src.text).advance k
    obtain ⟨-, -, line, more, place, -⟩ := stands
    have counted := congrArg List.length place
    rw [List.length_drop, List.length_cons] at counted
    omega
  · intro x here inside
    obtain ⟨bound, found⟩ := List.getElem?_eq_some_iff.mp here
    have head : ((src.cursor .start).advance k).rest = x :: src.text.drop (k + 1) := by
      rw [left, List.drop_eq_getElem_cons bound, found]
    exact getElem?_line ahead head inside
  · intro ends outside
    have used := length_line_le ahead fun x first => ends x (by rwa [left, List.head?_drop] at first)
    have fits := within outside
    omega

end Source

/-! ## 2. A complaint in a run -/

/-- Without carriage returns no break has two halves. -/
theorem Text.not_insideBreak {t : Text} (single : .carriageReturn ∉ t) (k : Nat) : ¬ t.InsideBreak k := by
  rintro ⟨i, -, here, -⟩
  exact single (List.mem_of_getElem? here)

theorem Text.carriageReturn_not_mem_normalizeNewlines (t : Text) :
    .carriageReturn ∉ t.normalizeNewlines := by
  fun_induction normalizeNewlines t with
  | case1 => exact List.not_mem_nil
  | case2 rest ih => simpa using ih
  | case3 rest _ ih => simpa using ih
  | case4 c rest _ other ih => simpa [eq_comm] using ⟨other, ih⟩

namespace RunM

variable {α β : Type} {st st' t : RunState} {stop : Stop} {errors : Text}

/-- Started in `st`, the action ends the run with `stop` and this text on the error channel. -/
def Stops (m : RunM α) (st : RunState) (stop : Stop) (errors : Text) : Prop :=
  ∃ st', m.run.run st = (.error stop, st') ∧ st'.errors = errors

theorem Returns.stops_bind {m : RunM α} {f : α → RunM β} {a : α} (first : m.Returns st a t)
    (second : (f a).Stops t stop errors) : (m >>= f).Stops st stop errors := by
  unfold Returns Stops at *
  rw [run_bind, first]
  exact second

theorem stops_throw (st : RunState) (stop : Stop) : (throw stop : RunM α).Stops st stop st.errors :=
  ⟨st, rfl, rfl⟩

end RunM

namespace Stage

theorem carriageReturn_not_mem_fileText {w : Workspace} {p : Path} {t : Text}
    (read : fileText w p = .ok t) : .carriageReturn ∉ t := by
  unfold fileText at read
  split at read
  · cases read
  · split at read
    · cases read
      exact Text.carriageReturn_not_mem_normalizeNewlines _
    · cases read

def linesFor (src : Source) (e : ReadError) : List Text :=
  ["Read error: " ++ e.diagnostic.text, "  " ++ src.line e.position.line,
    List.replicate (2 + e.position.column.toNat) (.scalar ' ') ++ [.scalar '^']]

theorem returns_complain (line : Text) (st : RunState) :
    (RunM.complain line).Returns st () { st with errors := st.errors ++ line ++ [.lineFeed] } := rfl

theorem returns_complainAbout (src : Source) (e : ReadError) (st : RunState) :
    (complainAbout src e).Returns st ()
      { st with errors := st.errors ++ (linesFor src e).flatMap (· ++ [.lineFeed]) } := by
  have indent : ("  " : Text) ++ List.replicate e.position.column.toNat (.scalar ' ') =
      List.replicate (2 + e.position.column.toNat) (.scalar ' ') := by
    rw [List.replicate_add]
    rfl
  have printed : (complainAbout src e).Returns st () _ :=
    (returns_complain _ _).bind ((returns_complain _ _).bind (returns_complain _ _))
  rw [indent] at printed
  simpa only [linesFor, List.flatMap_cons, List.flatMap_nil, List.append_nil, List.append_assoc]
    using printed

theorem stops_readSource {ctx : RunContext} {p : Progress} {st : RunState} {text : Text} {e : ReadError}
    (read : fileText st.workspace p.sourceFile = .ok text)
    (failed : (sessionFor ctx p text).forms.1.failure = some (.diagnosed e)) :
    (runReadSource ctx p).Stops st (.exit 1)
      (st.errors ++ (linesFor ⟨text, some p.sourceFile.name⟩ e).flatMap (· ++ [.lineFeed])) := by
  have logged := returns_logEach (sessionFor ctx p text).forms.2.state.trace.toList
  rw [Array.forIn_toList] at logged
  unfold sessionFor at failed
  unfold runReadSource
  refine RunM.Returns.stops_bind rfl ?_
  refine RunM.Returns.stops_bind rfl ?_
  refine RunM.Returns.stops_bind rfl ?_
  simp only [read]
  refine RunM.Returns.stops_bind rfl ?_
  refine (logged _).stops_bind ?_
  rw [failed]
  refine (returns_complainAbout _ e _).stops_bind ?_
  split
  · exact RunM.Returns.stops_bind rfl (RunM.stops_throw _ _)
  · exact RunM.stops_throw _ _

end Stage

/-! ## 3. Carets below lines -/

/-- A caret below a line stands under this code point of the line, or just behind the line if there is a
line break or nothing to point at. -/
def Text.CaretBelow (shown caret : Text) (found : Option CodePoint) : Prop :=
  ∃ n, caret = List.replicate n (.scalar ' ') ++ [.scalar '^'] ∧
    (∀ x, found = some x → x.isNewline = false → shown[n]? = some x) ∧
    ((∀ x, found = some x → x.isNewline = true) → n = shown.length)

namespace Source

variable {src : Source} {p : Position}

theorem Coherent.shows (coherent : src.Coherent p) : src.Shows p.offset.toNat p := by
  have shows_there := shows_advance src p.offset.toNat
  rwa [coherent.advance_eq, position_cursor] at shows_there

/-- The line that is printed and the spaces before the caret are indented alike. -/
theorem Shows.caretBelow {k : Nat} (shows_there : src.Shows k p) (single : .carriageReturn ∉ src.text) :
    Text.CaretBelow ("  " ++ src.line p.line)
      (List.replicate (2 + p.column.toNat) (.scalar ' ') ++ [.scalar '^']) src.text[k]? := by
  have indent : ("  " ++ src.line p.line : Text) = .scalar ' ' :: .scalar ' ' :: src.line p.line := rfl
  refine ⟨_, rfl, ?_, ?_⟩
  · intro x found inside
    rw [indent, Nat.add_comm, List.getElem?_cons_succ, List.getElem?_cons_succ]
    exact shows_there.inside x found inside
  · intro ends
    have behind := shows_there.behind ends (Text.not_insideBreak single k)
    rw [indent, List.length_cons, List.length_cons]
    omega

/-- Positions point at the right code points. At every offset of a text, the position that `advance`
finds has a line of the text, and in it the code point there at its column; at the end of a line the
column is the length of the line, or one more between the two code points of a break.

A run whose source file does not read complains in three lines: what is wrong, the line of the place, and
a caret below it. The caret stands under the code point of the place, or just behind the line if there is
a line break or the text ends. -/
theorem carets_below :
    (∀ (src : Source) (k : Nat), k ≤ src.length →
      ∃ p, src.advance .start k = .ok p ∧ src.Shows k p) ∧
    ∀ (ctx : RunContext) (p : Progress) (st : RunState) (text : Text) (e : ReadError),
      let src : Source := ⟨text, some p.sourceFile.name⟩
      let settings := Stage.effectiveSettings ctx.settings ctx.options
      Stage.fileText st.workspace p.sourceFile = .ok text →
      (src.session settings.policy settings.foldCase).forms.1.failure = some (.diagnosed e) →
      ∃ line caret : Text, line = "  " ++ src.line e.position.line ∧
        src.Shows e.position.offset.toNat e.position ∧
        line.CaretBelow caret src.text[e.position.offset.toNat]? ∧
        (Stage.runReadSource ctx p).Stops st (.exit 1)
          (st.errors ++ ["Read error: " ++ e.diagnostic.text, line, caret].flatMap (· ++ [.lineFeed])) := by
  constructor
  · intro src k _
    refine ⟨_, src.advance_of_nonneg (Int.le_refl 0) k, ?_⟩
    rw [Int.toNat_natCast]
    exact shows_advance src k
  · intro ctx p st text e src settings read failed
    have coherent : src.Coherent e.position := by
      obtain ⟨-, -, placed⟩ := Session.coherent_of_formsFor
        (s := src.session settings.policy settings.foldCase) src.coherent_start rfl
      exact (placed _ failed e rfl).2.1
    exact ⟨_, _, rfl, coherent.shows,
      coherent.shows.caretBelow (Stage.carriageReturn_not_mem_fileText read),
      Stage.stops_readSource read failed⟩

/-- The second half of a break, and a wrong bracket on the second line of a file. -/
theorem carets_below_bracket :
    (Source.mk "a\r\nb" none).Shows 2 ⟨1, 2, 2⟩ ∧
      ∀ (st : RunState) (p : Progress),
        st = { workspace := { files := [(["p.scm"], [40, 97, 13, 10, 32, 32, 98, 93, 10])] } } →
        p = { sourceFile := .ofText "p.scm" } →
        (Stage.runReadSource ⟨.ofText "in", .ofText "out", {}, {}⟩ p).Stops st (.exit 1)
          "Read error: p.scm:2:3: expected ')' to close list\n    b]\n     ^\n" := by
  constructor
  · obtain ⟨p, moved, shows_there⟩ := carets_below.1 ⟨"a\r\nb", none⟩ 2 (by decide)
    have place : (Source.mk "a\r\nb" none).advance .start 2 = .ok ⟨1, 2, 2⟩ := by decide
    obtain rfl : p = ⟨1, 2, 2⟩ := Except.ok.inj (moved.symm.trans place)
    exact shows_there
  · rintro st p rfl rfl
    obtain ⟨line, caret, rfl, -, ⟨n, rfl, under, -⟩, stops⟩ :=
      carets_below.2 ⟨.ofText "in", .ofText "out", {}, {}⟩ { sourceFile := .ofText "p.scm" }
        { workspace := { files := [(["p.scm"], [40, 97, 13, 10, 32, 32, 98, 93, 10])] } }
        "(a\n  b]\n" ⟨.wrongCloser (.scalar ')'), ⟨2, 3, 6⟩, some "p.scm"⟩ (by decide +kernel)
        (by decide +kernel)
    have there := under (.scalar ']') (by decide) (by decide)
    have only : ∀ m < 6, ("    b]" : Text)[m]? = some (.scalar ']') → m = 5 := by decide
    obtain rfl : n = 5 := only n (List.getElem?_eq_some_iff.mp there).1 there
    convert stops using 1
    decide +kernel

end Source

end LineDirective
