import LineDirective.Proofs.CaseFolding
import LineDirective.Proofs.LexemeLocality
import LineDirective.Proofs.Requests

/-!
# Reading with case folding

A text without bars and without the markers that switch case folding is read with folding wherever it
is read without: the same items at the same places, and the names of symbols folded at every depth.
The two reads take the same steps, so that the read with folding is a copy of the other one under the
renaming (`Reads.folded`). Where the two could part, folding decides nothing: a number is recognised
before a symbol is folded, the known character names are folded already, and a directive whose symbols
are folded can be written for the report if the directive itself can.
-/

namespace LineDirective

/-! ## 1. Writing -/

theorem mem_exactNumbers_of_isDigits {digits : Text} (whole : Number.isDigits digits = true) :
    ∀ c ∈ digits, c.toNat ∈ exactNumbers := by
  intro c mem
  have digit := List.all_eq_true.mp (Number.isDigits_iff.mp whole).2 c mem
  exact List.mem_append_left _ (CodePoint.mem_digitNumbers digit)

theorem Number.SpelledExactly.mem_exactNumbers {t : Text} {runs : List Text}
    (h : SpelledExactly t runs) : ∀ c ∈ t, c.toNat ∈ exactNumbers := by
  have marks : ∀ c ∈ ("+-/" : Text), c.toNat ∈ exactNumbers :=
    fun c mem => List.mem_append_right _ (List.mem_map_of_mem mem)
  have signs : ∀ sign ∈ [[], [CodePoint.scalar '+'], [CodePoint.scalar '-']],
      ∀ c ∈ sign, c ∈ ("+-/" : Text) := by decide
  cases h with
  | integer signed whole =>
    intro c mem
    rcases List.mem_append.mp mem with first | later
    · exact marks c (signs _ signed c first)
    · exact mem_exactNumbers_of_isDigits whole c later
  | ratio signed above below =>
    intro c mem
    rcases List.mem_append.mp mem with first | later
    · exact marks c (signs _ signed c first)
    · rcases List.mem_append.mp later with numerator | rest
      · exact mem_exactNumbers_of_isDigits above c numerator
      · rcases List.mem_cons.mp rest with rfl | denominator
        · exact marks _ (by decide)
        · exact mem_exactNumbers_of_isDigits below c denominator

theorem Number.Valueless.exists_spelledExactly {t : Text} {fault : Fault} (h : Valueless t fault) :
    ∃ runs, SpelledExactly t runs := by
  cases h with
  | overZero spelled _ => exact ⟨_, spelled⟩
  | overlong spelled _ _ => exact ⟨_, spelled⟩

theorem parse_of_needsBars {name : Text} {fault : Fault} (h : needsBars name = .error fault) :
    Number.parse name = .error fault := by
  unfold needsBars at h
  split at h
  · cases h
  · split at h
    · cases h
    · split at h
      · cases h
      · split at h
        · cases h
        · cases h
        · rename_i parsed
          cases h
          exact parsed

/-- Only a name that spells an integer or a ratio may be refused, and folding brings about none. -/
theorem exists_writeSymbol_fold {name w : Text} (written : writeSymbol name = .ok w) :
    ∃ w', writeSymbol name.fold = .ok w' := by
  obtain ⟨barred, decided, -⟩ := bind_eq_ok.mp written
  cases needed : needsBars name.fold with
  | ok barred' =>
    unfold writeSymbol
    rw [needed]
    cases barred' with
    | true => exact ⟨_, rfl⟩
    | false => exact ⟨_, rfl⟩
  | error fault =>
    obtain ⟨runs, spelled⟩ := (Number.parse_eq_error (parse_of_needsBars needed)).exists_spelledExactly
    rw [Text.fold_of_exact spelled.mem_exactNumbers, decided] at needed
    cases needed

namespace Datum

mutual

theorem exists_write_folded (d : Datum) {w : Text} (written : d.write = .ok w) :
    ∃ w', d.folded.write = .ok w' := by
  cases d with
  | symbol name => exact exists_writeSymbol_fold written
  | string content => exact ⟨_, rfl⟩
  | char c => exact ⟨_, rfl⟩
  | boolean b => exact ⟨_, rfl⟩
  | number n => exact ⟨w, written⟩
  | bytes elements => exact ⟨_, rfl⟩
  | list items =>
    obtain ⟨texts, each, -⟩ := bind_eq_ok.mp written
    obtain ⟨texts', each'⟩ := exists_writeItems_folded items each
    rw [folded_list, write, each']
    exact ⟨_, rfl⟩
  | dotted items tail =>
    obtain ⟨texts, each, rest⟩ := bind_eq_ok.mp written
    obtain ⟨last, final, -⟩ := bind_eq_ok.mp rest
    obtain ⟨texts', each'⟩ := exists_writeItems_folded items each
    obtain ⟨last', final'⟩ := exists_write_folded tail final
    rw [folded_dotted, write, each', final']
    exact ⟨_, rfl⟩
  | vector items =>
    obtain ⟨texts, each, -⟩ := bind_eq_ok.mp written
    obtain ⟨texts', each'⟩ := exists_writeItems_folded items each
    rw [folded_vector, write, each']
    exact ⟨_, rfl⟩
  | foreign kind items =>
    cases kind with
    | notANumber => exact ⟨_, rfl⟩
    | nothing | sequence | directive => cases written

theorem exists_writeItems_folded (ds : List Datum) {ws : List Text} (written : writeItems ds = .ok ws) :
    ∃ ws', writeItems (ds.map folded) = .ok ws' := by
  cases ds with
  | nil => exact ⟨_, rfl⟩
  | cons d ds =>
    obtain ⟨w, first, rest⟩ := bind_eq_ok.mp written
    obtain ⟨ws, others, -⟩ := bind_eq_ok.mp rest
    obtain ⟨w', first'⟩ := exists_write_folded d first
    obtain ⟨ws', others'⟩ := exists_writeItems_folded ds others
    rw [List.map_cons, writeItems, first', others']
    exact ⟨_, rfl⟩

end

end Datum

/-- The directive with the names of all its symbols folded. -/
def Directive.folded (d : Directive) : Directive := { d with datums := d.datums.map Datum.folded }

theorem Directive.exists_write_folded {d : Directive} {w : Text} (written : d.write = .ok w) :
    ∃ w', d.folded.write = .ok w' := by
  obtain ⟨texts, each, -⟩ := bind_eq_ok.mp written
  obtain ⟨texts', each'⟩ := Datum.exists_writeItems_folded d.datums each
  unfold write
  rw [folded, each']
  exact ⟨_, rfl⟩

/-! ## 2. States -/

/-- The second state reads with folding what the first reads without, and has the same directives on
record, folded. -/
structure ReaderState.FoldsTo (s t : ReaderState) : Prop where
  unfolded : s.foldCase = false
  folds : t.foldCase = true
  directives : t.directives = s.directives.map Directive.folded

section States

variable {ctx : Context} {s s' t : ReaderState} {d : Directive}

theorem ReaderState.FoldsTo.emit (h : s.FoldsTo t) (e e' : Event) :
    (s.emit e).FoldsTo (t.emit e') :=
  ⟨h.unfolded, h.folds, h.directives⟩

theorem ReaderState.FoldsTo.keep (h : s.FoldsTo t) (d : Directive) :
    FoldsTo { s with directives := s.directives ++ [d] }
      { t with directives := t.directives ++ [d.folded] } where
  unfolded := h.unfolded
  folds := h.folds
  directives := by simp [h.directives]

theorem ReaderState.FoldsTo.declining (h : s.FoldsTo t) (c : Cursor) :
    (s.declining c).FoldsTo (t.declining c) where
  unfolded := by simpa using h.unfolded
  folds := by simpa using h.folds
  directives := by simpa using h.directives

theorem Context.returns_record_folded (kept : (ctx.record d).Returns s () s') (same : s.FoldsTo t) :
    ∃ t', (ctx.record d.folded).Returns t () t' ∧ s'.FoldsTo t' :=
  returns_record_related Directive.exists_write_folded (same.keep d) (fun e e' h => h.emit e e') same
    kept

end States

/-! ## 3. Reads -/

/-- A text without bars and without the words that switch case folding. -/
structure Text.Unmarked (t : Text) : Prop where
  no_bar : .scalar '|' ∉ t
  no_marker : ¬ ("fold-case" : Text) <:+: t

theorem Text.Unmarked.suffix {t u : Text} (h : Unmarked t) (inside : u <:+ t) : Unmarked u where
  no_bar mem := h.no_bar (inside.subset mem)
  no_marker found := h.no_marker (found.trans inside.isInfix)

theorem Text.Unmarked.ahead {c next : Cursor} (h : Unmarked c.rest) (ahead : c.Reaches next) :
    Unmarked next.rest :=
  h.suffix ahead.rest_suffix

theorem Text.Unmarked.detect?_eq_none {x y : CodePoint} {rest : Text} (h : Unmarked (x :: y :: rest)) :
    NamedMarker.detect? rest = none := by
  cases found : NamedMarker.detect? rest with
  | none => rfl
  | some m =>
    have word : ("fold-case" : Text) <:+: m.name := by
      cases m with
      | foldCase => exact List.infix_rfl
      | noFoldCase => exact ⟨("no-" : Text), [], rfl⟩
    have before : rest <:+ x :: y :: rest := ⟨[x, y], rfl⟩
    have there := (word.trans (NamedMarker.name_of_detect? found).isInfix).trans before.isInfix
    exact absurd there h.no_marker

/-- The names that abbreviations stand for are folded already. -/
theorem Abbreviation.folded_name (a : Abbreviation) :
    (Datum.symbol a.name).folded = .symbol a.name := by
  have fixed : a.name.fold = a.name := by
    cases a <;> decide
  exact congrArg Datum.symbol fixed

def ListParts.folded (parts : ListParts) : ListParts :=
  (parts.1.map Datum.folded, parts.2.map Datum.folded)

theorem ListParts.folded_toDatum (parts : ListParts) :
    parts.toDatum.folded = parts.folded.toDatum := by
  obtain ⟨items, _ | tail⟩ := parts
  · exact Datum.folded_list items
  · exact Datum.folded_dotted items tail

def Task.folded : Task → Task
  | .items mode closer parts => .items mode closer parts.folded
  | .datums anchor before => .datums anchor (before.map Datum.folded)
  | task => task

def Yield.folded : Yield → Yield
  | .nothing => .nothing
  | .datum d => .datum d.folded
  | .parts p => .parts p.folded
  | .datums ds => .datums (ds.map Datum.folded)

section Reads

variable {ctx : Context} {task : Task} {c next : Cursor} {s s' t : ReaderState} {y : Yield}

theorem Reads.folded (h : Reads ctx task c s y next s') (unmarked : Text.Unmarked c.rest)
    (same : s.FoldsTo t) :
    ∃ t', Reads ctx task.folded c t y.folded next t' ∧ s'.FoldsTo t' := by
  -- by induction on the rules: each of them applies to the folded state as well. Named markers,
  -- which would end the correspondence, do not occur.
  induction h generalizing t with
  | code skipped _ ih₁ ih₂ =>
    obtain ⟨t₁, skip, same₁⟩ := ih₁ unmarked same
    obtain ⟨t', read, same'⟩ := ih₂ (unmarked.ahead skipped.reaches) same₁
    exact ⟨t', .code skip read, same'⟩
  | directive _ ih =>
    obtain ⟨t', read, same'⟩ := ih unmarked same
    exact ⟨t', .directive read, same'⟩
  | @flat mode c s d size spelled =>
    -- symbols between bars are not folded, but no bar occurs
    have bare : c.rest.head? ≠ some (.scalar '|') :=
      fun bar => unmarked.no_bar (List.mem_of_head? bar)
    rw [same.unfolded] at spelled
    refine ⟨t, .flat ?_, same⟩
    rw [same.folds]
    simpa [bare] using spelled.folded
  | @list mode c s x rest parts next s' head opener _ ih =>
    obtain ⟨t', items, same'⟩ := ih (unmarked.ahead c.reaches_next) same
    refine ⟨t', ?_, same'⟩
    rw [Yield.folded, parts.folded_toDatum]
    exact .list head opener items
  | @abbreviation mode c s a c₁ s₁ d next s' mark skipped follows _ ih₁ ih₂ =>
    have marked := unmarked.ahead (c.reaches_advance a.mark.length)
    obtain ⟨t₁, skip, same₁⟩ := ih₁ marked same
    obtain ⟨t', read, same'⟩ := ih₂ (marked.ahead skipped.reaches) same₁
    refine ⟨t', ?_, same'⟩
    rw [Yield.folded, Datum.folded_list, List.map_cons, List.map_cons, List.map_nil, a.folded_name]
    exact .abbreviation mark skip follows read
  | @vector mode c s rest items next s' head _ ih =>
    obtain ⟨t', read, same'⟩ := ih (unmarked.ahead (c.reaches_advance 2)) same
    refine ⟨t', ?_, same'⟩
    rw [Yield.folded, Datum.folded_vector]
    exact .vector head read
  | @bytevector mode c s rest items elements next s' head _ bytes ih =>
    obtain ⟨t', read, same'⟩ := ih (unmarked.ahead (c.reaches_advance 4)) same
    refine ⟨t', .bytevector head read ?_, same'⟩
    -- bytes are numbers, which folding leaves as they are
    have same : byte? ∘ Datum.folded = byte? := funext Datum.byte?_folded
    rw [← bytes, List.mapM_map, same]
  | close skipped head closes ih =>
    obtain ⟨t₁, skip, same₁⟩ := ih unmarked same
    exact ⟨t₁, .close skip head closes, same₁⟩
  | @dot mode closer items c s c₁ s₁ rest c₂ s₂ d next s₃ parts last s' skipped head lone some_item
      skipped₂ follows read _ ih₁ ih₂ ih₃ ih₄ =>
    have marked₁ := unmarked.ahead skipped.reaches
    have marked₂ := (marked₁.ahead c₁.reaches_next).ahead skipped₂.reaches
    obtain ⟨t₁, skip, same₁⟩ := ih₁ unmarked same
    obtain ⟨t₂, skip₂, same₂⟩ := ih₂ (marked₁.ahead c₁.reaches_next) same₁
    obtain ⟨t₃, read', same₃⟩ := ih₃ marked₂ same₂
    obtain ⟨t', others, same'⟩ := ih₄ (marked₂.ahead read.reaches) same₃
    exact ⟨t', .dot skip head lone (by simpa using some_item) skip₂ follows read' others, same'⟩
  | item skipped head open_ no_dot read _ ih₁ ih₂ ih₃ =>
    have marked₁ := unmarked.ahead skipped.reaches
    obtain ⟨t₁, skip, same₁⟩ := ih₁ unmarked same
    obtain ⟨t₂, read', same₂⟩ := ih₂ marked₁ same₁
    obtain ⟨t', others, same'⟩ := ih₃ (marked₁.ahead read.reaches) same₂
    rw [Task.folded, ListParts.folded, List.map_append] at others
    exact ⟨t', .item skip head open_ no_dot read' others, same'⟩
  | @blank _ c _ _ _ _ _ head white _ ih =>
    obtain ⟨t', others, same'⟩ := ih (unmarked.ahead c.reaches_next) same
    exact ⟨t', .blank head white others, same'⟩
  | remark visible skipped _ ih₁ ih₂ =>
    obtain ⟨t₁, skip, same₁⟩ := ih₁ unmarked same
    obtain ⟨t', others, same'⟩ := ih₂ (unmarked.ahead skipped.reaches) same₁
    exact ⟨t', .remark visible skip others, same'⟩
  | clear visible none_starts => exact ⟨t, .clear visible none_starts, same⟩
  | lineComment head => exact ⟨t, .lineComment head, same⟩
  | blockComment head ends => exact ⟨t, .blockComment head ends, same⟩
  | @datumComment c _ _ _ _ _ head _ ih =>
    obtain ⟨t', read, same'⟩ := ih (unmarked.ahead (c.reaches_advance 2)) same
    exact ⟨t', .datumComment head read, same'⟩
  | @emptyComment c _ _ _ _ head _ ended ih =>
    obtain ⟨t', skip, same'⟩ := ih (unmarked.ahead (c.reaches_advance 2)) same
    exact ⟨t', .emptyComment head skip ended, same'⟩
  | @lineDatumComment c _ _ _ _ _ _ _ head skipped stays follows _ ih₁ ih₂ =>
    have marked := unmarked.ahead (c.reaches_advance 2)
    obtain ⟨t₁, skip, same₁⟩ := ih₁ marked same
    obtain ⟨t', read, same'⟩ := ih₂ (marked.ahead skipped.reaches) same₁
    exact ⟨t', .lineDatumComment head skip stays follows read, same'⟩
  | marker head found =>
    -- no named marker occurs
    rw [head] at unmarked
    rw [unmarked.detect?_eq_none] at found
    cases found
  | @lineDirective c _ _ _ _ _ _ head unnamed starts _ kept ih =>
    obtain ⟨t₁, scanned, same₁⟩ := ih (unmarked.ahead (c.reaches_advance 2)) (same.emit _ _)
    obtain ⟨t', kept', same'⟩ := Context.returns_record_folded kept same₁
    exact ⟨t', .lineDirective head unnamed starts scanned kept', same'⟩
  | @intralineBlank _ c _ _ _ _ _ head white _ ih =>
    obtain ⟨t', others, same'⟩ := ih (unmarked.ahead c.reaches_next) same
    exact ⟨t', .intralineBlank head white others, same'⟩
  | intralineComment visible skipped stays _ ih₁ ih₂ =>
    obtain ⟨t₁, skip, same₁⟩ := ih₁ unmarked same
    obtain ⟨t', others, same'⟩ := ih₂ (unmarked.ahead skipped.reaches) same₁
    exact ⟨t', .intralineComment visible skip stays others, same'⟩
  | crossingComment visible _ left ih =>
    obtain ⟨t₁, skip, same₁⟩ := ih unmarked same
    exact ⟨t₁, .crossingComment visible skip left, same₁⟩
  | intralineClear visible none_starts => exact ⟨t, .intralineClear visible none_starts, same⟩
  | lastDatum _ ended ih =>
    obtain ⟨t₁, skip, same₁⟩ := ih unmarked same
    exact ⟨_, .lastDatum skip ended, same₁.emit _ _⟩
  | @crossingDatum anchor before c s c₁ s₁ d next s₂ skipped stays follows _ left allowed ih₁ ih₂ =>
    obtain ⟨t₁, skip, same₁⟩ := ih₁ unmarked same
    obtain ⟨t₂, read, same₂⟩ := ih₂ (unmarked.ahead skipped.reaches) (same₁.emit _ _)
    have reported := ((same₂.emit (.truncated c₁.position next.position.line)
      (.truncated c₁.position next.position.line)).emit (.datumRead (before.length + 1) c₁.position)
        (.datumRead ((before.map Datum.folded).length + 1) c₁.position)).emit
          (.phase .readingDatum .done next.position) (.phase .readingDatum .done next.position)
    rw [Yield.folded, List.map_append]
    exact ⟨_, .crossingDatum skip stays follows read left allowed, reported⟩
  | @lineDatum anchor before c s c₁ s₁ d next s₂ ds last s' skipped stays follows read inside _ ih₁ ih₂
      ih₃ =>
    have marked := unmarked.ahead skipped.reaches
    obtain ⟨t₁, skip, same₁⟩ := ih₁ unmarked same
    obtain ⟨t₂, read', same₂⟩ := ih₂ marked (same₁.emit _ (.phase .skipping .readingDatum c₁.position))
    have reported := (same₂.emit (.datumRead (before.length + 1) c₁.position)
      (.datumRead ((before.map Datum.folded).length + 1) c₁.position)).emit
        (.phase .readingDatum .skipping next.position) (.phase .readingDatum .skipping next.position)
    obtain ⟨t', others, same'⟩ := ih₃ (marked.ahead read.reaches) reported
    rw [Task.folded, List.map_append] at others
    exact ⟨t', .lineDatum skip stays follows read' inside others, same'⟩

def Item.folded : Item → Item
  | .datum d => .datum d.folded
  | .directive d => .directive d.folded
  | .endOfInput => .endOfInput

theorem Finds.folded {item : Item} (h : Finds ctx c s item next s') (unmarked : Text.Unmarked c.rest)
    (same : s.FoldsTo t) : ∃ t', Finds ctx c t item.folded next t' ∧ s'.FoldsTo t' := by
  induction h generalizing t with
  | ended nothing => exact ⟨t, .ended nothing, same⟩
  | @blank c _ _ _ _ _ _ head white _ ih =>
    obtain ⟨t', others, same'⟩ := ih (unmarked.ahead c.reaches_next) same
    exact ⟨t', .blank head white others, same'⟩
  | @directive c _ _ _ _ _ _ head starts scanned kept =>
    obtain ⟨t₁, scanned', same₁⟩ := scanned.folded (unmarked.ahead (c.reaches_advance 2))
      (same.emit _ _)
    obtain ⟨t', kept', same'⟩ := Context.returns_record_folded kept same₁
    exact ⟨t', .directive head starts scanned' kept', same'⟩
  | @comment c _ _ _ _ _ _ visible no_directive skipped _ ih =>
    obtain ⟨t₁, skip, same₁⟩ := skipped.folded unmarked (same.declining c)
    obtain ⟨t', others, same'⟩ := ih (unmarked.ahead skipped.reaches) same₁
    exact ⟨t', .comment visible no_directive skip others, same'⟩
  | @datum c _ _ _ _ some_rest visible none_starts read =>
    obtain ⟨t', read', same'⟩ := read.folded unmarked (same.declining c)
    exact ⟨t', .datum some_rest visible none_starts read', same'⟩

end Reads

/-! ## 4. Sessions -/

namespace Session

def withState (s : Session) (state : ReaderState) : Session := { s with state := state }

/-- The items with the names of all their symbols folded, at their places. -/
def Forms.folded (f : Forms) : Forms :=
  { f with items := f.items.map fun entry => (entry.1.folded, entry.2) }

variable {s s₁ : Session} {t : ReaderState}

theorem next_folded {item : Item} (unmarked : Text.Unmarked s.source.text) (same : s.state.FoldsTo t)
    (found : s.next = (.ok item, s₁)) :
    ∃ t₁, (s.withState t).next = (.ok item.folded, s₁.withState t₁) ∧ s₁.state.FoldsTo t₁ := by
  unfold next at found
  split at found
  · rename_i item' c state outcome
    cases found
    obtain ⟨t₁, finds, same₁⟩ :=
      (finds_of_nextItem outcome).folded (unmarked.suffix s.rest_cursor_suffix) same
    have found : (nextItem (s.withState t).context (s.withState t).cursor).run.run
        (s.withState t).state = (.ok (item.folded, c), t₁) := finds.nextItem
    refine ⟨t₁, ?_, same₁⟩
    unfold next
    rw [found]
    rfl
  · cases found

theorem formsFor_folded {wanted : Bool} {limit : Option Nat} {rounds : Nat}
    (unmarked : Text.Unmarked s.source.text) (same : s.state.FoldsTo t)
    (succeeds : (formsFor wanted rounds limit s).1.failure = none) :
    ∃ t', formsFor wanted rounds limit (s.withState t) =
        ((formsFor wanted rounds limit s).1.folded,
          (formsFor wanted rounds limit s).2.withState t') ∧
      (formsFor wanted rounds limit s).2.state.FoldsTo t' := by
  -- by induction on the rounds, each of which is one item
  induction rounds, limit, s using formsFor.induct wanted generalizing t with
  | case1 => exact ⟨t, rfl, same⟩
  | case2 => exact ⟨t, rfl, same⟩
  | case3 rounds limit s some_left failure s₁ failed => simp [formsFor, failed] at succeeds
  | case4 rounds limit s some_left s₁ found =>
    obtain ⟨t₁, found', same₁⟩ := next_folded unmarked same found
    simp only [Item.folded] at found'
    refine ⟨t₁, ?_, ?_⟩
    · simp only [formsFor, found, found']
      rfl
    · simpa only [formsFor, found] using same₁
  | case5 rounds limit s some_left d s₁ found ih =>
    obtain ⟨t₁, found', same₁⟩ := next_folded unmarked same found
    simp only [Item.folded] at found'
    simp only [formsFor, found] at succeeds
    obtain ⟨t', others, same'⟩ := ih s₁ (by rwa [(context_of_next found).2]) same₁ succeeds
    refine ⟨t', ?_, ?_⟩
    · simp only [formsFor, found, found', others]
      rfl
    · simpa only [formsFor, found] using same'
  | case6 rounds limit s some_left d s₁ found wants ih =>
    obtain ⟨t₁, found', same₁⟩ := next_folded unmarked same found
    simp only [Item.folded] at found'
    simp only [formsFor, found, if_pos wants] at succeeds
    obtain ⟨t', others, same'⟩ := ih s₁ (by rwa [(context_of_next found).2]) same₁ succeeds
    refine ⟨t', ?_, ?_⟩
    · simp only [formsFor, found, found', if_pos wants, others]
      rfl
    · simpa only [formsFor, found, if_pos wants] using same'
  | case7 rounds limit s some_left d s₁ found unwanted _ ih =>
    obtain ⟨t₁, found', same₁⟩ := next_folded unmarked same found
    simp only [Item.folded] at found'
    simp only [formsFor, found, if_neg unwanted] at succeeds
    obtain ⟨t', others, same'⟩ := ih (by rwa [(context_of_next found).2]) same₁ succeeds
    refine ⟨t', ?_, ?_⟩
    · simp only [formsFor, found, found', if_neg unwanted, others]
    · simpa only [formsFor, found, if_neg unwanted] using same'

/-- Case folding acts on symbols only. A text without bars and without the markers of case folding that
is read to its end without folding is read to its end with folding, under any policy: the same items
with the same places after them and the same directives on record at the same places, with the names
of all symbols in them folded. -/
theorem forms_of_folded (src : Source) (policy : Policy) (registry : Registry) (wanted : Bool)
    {s u : Session} (of_plain : s = src.sessionWith policy registry false)
    (of_folding : u = src.sessionWith policy registry true) (no_bar : .scalar '|' ∉ src.text)
    (no_marker : ¬ ("fold-case" : Text) <:+: src.text)
    (succeeds : (s.forms wanted).1.failure = none) :
    (u.forms wanted).1 = (s.forms wanted).1.folded ∧
    (u.forms wanted).2.position = (s.forms wanted).2.position ∧
    (u.forms wanted).2.log.map Prod.fst = (s.forms wanted).2.log.map fun entry => entry.1.folded := by
  have unmarked : Text.Unmarked s.source.text := by
    rw [of_plain]
    exact ⟨no_bar, no_marker⟩
  have same : s.state.FoldsTo u.state := by
    rw [of_plain, of_folding]
    exact ⟨rfl, rfl, rfl⟩
  have apart : u = s.withState u.state := by
    rw [of_plain, of_folding]
    rfl
  have cursors : u.cursor = s.cursor := by
    rw [apart]
    rfl
  obtain ⟨t', outcome, same'⟩ := formsFor_folded unmarked same succeeds
  have forms : u.forms wanted = ((s.forms wanted).1.folded, (s.forms wanted).2.withState t') := by
    unfold Session.forms
    rw [cursors, ← outcome, ← apart]
  have kept : t'.directives = (s.forms wanted).2.state.directives.map Directive.folded :=
    same'.directives
  rw [forms]
  refine ⟨rfl, rfl, ?_⟩
  simp [log, withState, kept, Function.comp_def]

/-- Capitals in a symbol, a string, a number, a character and a directive in a list. -/
theorem forms_of_folded_list :
    ∃ (src : Source) (s u : Session),
      src = ⟨"#! Foo 1E2\n(Bar \"Baz\" #\\xAB #! Q '+INF.0\n . Straße)", none⟩ ∧
      s = src.sessionWith {} .standard false ∧ u = src.sessionWith {} .standard true ∧
      .scalar '|' ∉ src.text ∧ ¬ ("fold-case" : Text) <:+: src.text ∧
      (s.forms true).1.failure = none ∧ (s.forms true).1.items.length = 2 ∧
      (s.forms true).2.log.length = 2 ∧
      (u.forms true).1 = (s.forms true).1.folded ∧
      (u.forms true).2.log.map Prod.fst =
        (s.forms true).2.log.map fun entry => entry.1.folded := by
  obtain ⟨forms, -, log⟩ := forms_of_folded
    ⟨"#! Foo 1E2\n(Bar \"Baz\" #\\xAB #! Q '+INF.0\n . Straße)", none⟩ {} .standard true rfl rfl
    (by decide +kernel) (by decide +kernel) (by decide +kernel)
  exact ⟨_, _, _, rfl, rfl, rfl, by decide +kernel, by decide +kernel, by decide +kernel,
    by decide +kernel, by decide +kernel, forms, log⟩

end Session

end LineDirective
