import LineDirective.Proofs.Containment
import LineDirective.Proofs.FoldedReading

/-!
# Writing and reading back with case folding

A written datum does not say whether it was read with folding. The writer puts bars around a name only
where the bare name would not be read as one symbol, and a reader that folds takes the name without
bars for its folding. So such a reader gets back the datum with all bare names folded, and the datum
itself exactly if these are their own foldings (`Reader.reread_written`).

What a folding reader has read from bare names is folded already, and folding twice is folding once.
The law is lost for names between bars only: `|Foo|` is written without them.
-/

namespace LineDirective

variable {ctx : Context} {mode : Mode} {s s' : ReaderState}

/-! ## 1. Reading back -/

/-- The name that is read with folding for what is written for a symbol: a bare name is folded, one
between bars stays. -/
def Text.refold (name : Text) : Text :=
  match needsBars name with
  | .ok false => name.fold
  | _ => name

def Datum.reread (fold : Bool) (d : Datum) : Datum := if fold then d.mapSymbols Text.refold else d

namespace Lexeme

theorem Spells.folded_of_fixed {t : Text} {d : Datum} {size : Nat} (h : Spells false t d size)
    (fixed : d.folded = d) : Spells true t d size := by
  have spelled := h.folded
  rwa [fixed, ite_self] at spelled

/-- A symbol is written as one atom, which is folded, or between bars. -/
theorem spells_symbol_folding {name w rest : Text} (written : writeSymbol name = .ok w)
    (ends : Text.atDelimiter rest = true) :
    Spells true (w ++ rest) (.symbol name.refold) w.length := by
  have spelled := (spells_symbol written ends).folded
  obtain ⟨barred, needed, same⟩ := bind_eq_ok.mp written
  unfold Text.refold
  rw [needed]
  cases barred with
  | true =>
    obtain rfl := Except.ok.inj same
    exact spelled
  | false =>
    obtain rfl := Except.ok.inj same
    obtain ⟨some_name, -, plain, -, -⟩ := bare_of_needsBars needed
    have bare : (name ++ rest).head? ≠ some (.scalar '|') := by
      cases name with
      | nil => exact absurd rfl some_name
      | cons x more =>
        intro bar
        have delimiter := plain x (List.mem_cons_self ..)
        obtain rfl : x = .scalar '|' := by simpa using bar
        cases delimiter
    rwa [if_neg bare] at spelled

end Lexeme

theorem isReadAs_word_folding (folds : s.foldCase = true) {d : Datum} {w : Text}
    (word : d.isWord = true) (written : d.write = .ok w) :
    IsReadAs ctx mode s w (d.mapSymbols Text.refold) := by
  cases d with
  | symbol name =>
    exact isReadAs_of_spells folds fun _ ends => Lexeme.spells_symbol_folding written ends
  | string _ | char _ | boolean _ | number _ =>
    exact isReadAs_of_spells folds fun _ ends =>
      (Lexeme.spells_word word written ends).folded_of_fixed rfl
  | list _ | dotted _ _ | vector _ | bytes _ | foreign _ _ => cases word

/-- In either mode of folding a written datum is read as `Datum.reread` says. -/
theorem isReadAs_reread (d : Datum) {w : Text} (formed : d.wellFormed = true)
    (written : d.write = .ok w) : IsReadAs ctx mode s w (d.reread s.foldCase) := by
  unfold Datum.reread
  cases folding : s.foldCase with
  | false => exact isReadAs_of_write folding d formed written
  | true =>
    exact isReadAs_mapSymbols (fun word written => isReadAs_word_folding folding word written) d
      formed written

/-! ## 2. What a folding reader reads -/

def Event.marker? : Event → Option Position
  | .marker _ p => some p
  | _ => none

def ReaderState.markersMet (s : ReaderState) : List Position :=
  s.trace.toList.filterMap Event.marker?

/-- Unless a named marker has been met by the second state, folding is what it was in the first. -/
def ReaderState.SteadyTo (s s' : ReaderState) : Prop :=
  s'.markersMet = [] → s.markersMet = [] ∧ s'.foldCase = s.foldCase

theorem ReaderState.markersMet_emit (s : ReaderState) {e : Event} :
    (s.emit e).markersMet = s.markersMet ++ e.marker?.toList := by
  rw [markersMet, trace_emit, Array.toList_push, List.filterMap_append]
  cases e <;> rfl

namespace ReaderState.SteadyTo

theorem refl (s : ReaderState) : s.SteadyTo s := fun unmet => ⟨unmet, rfl⟩

theorem trans {s t u : ReaderState} (first : s.SteadyTo t) (second : t.SteadyTo u) :
    s.SteadyTo u := by
  intro unmet
  obtain ⟨unmet₁, same₁⟩ := second unmet
  obtain ⟨unmet₀, same₀⟩ := first unmet₁
  exact ⟨unmet₀, same₁.trans same₀⟩

theorem emit (s : ReaderState) (e : Event) : s.SteadyTo (s.emit e) := by
  intro unmet
  rw [markersMet_emit] at unmet
  exact ⟨(List.append_eq_nil_iff.mp unmet).1, rfl⟩

theorem emitted {s t : ReaderState} (h : s.SteadyTo t) (e : Event) : s.SteadyTo (t.emit e) :=
  h.trans (emit t e)

theorem record {d : Directive} (kept : (ctx.record d).Returns s () s') : s.SteadyTo s' := by
  unfold Context.record at kept
  cases sink : ctx.sink with
  | discard =>
    simp only [sink, ReadM.returns_pure] at kept
    rw [kept.2]
    exact refl s
  | collect =>
    simp only [sink, ReadM.returns_modify] at kept
    rw [kept]
    exact refl s
  | announce label =>
    simp only [sink] at kept
    cases written : d.write with
    | error fault => simp [written, ReadM.liftFault] at kept
    | ok text =>
      simp only [written, ReadM.liftFault, ReadM.returns_bind, ReadM.returns_modify,
        ReadM.returns_pure, ReadM.returns_emit] at kept
      obtain ⟨-, -, rfl, -, -, ⟨-, rfl⟩, rfl⟩ := kept
      exact emit _ _

end ReaderState.SteadyTo

section Reads

variable {task : Task} {c next : Cursor} {y : Yield}

theorem Reads.steady (h : Reads ctx task c s y next s') : s.SteadyTo s' := by
  -- by induction on the rules: a marker reports that it is met, and nothing else switches folding
  induction h with
  | code _ _ ih₁ ih₂ | abbreviation _ _ _ _ ih₁ ih₂ | remark _ _ _ ih₁ ih₂
  | lineDatumComment _ _ _ _ _ ih₁ ih₂ | intralineComment _ _ _ _ ih₁ ih₂ => exact ih₁.trans ih₂
  | directive _ ih | list _ _ _ ih | vector _ _ ih | bytevector _ _ _ ih | close _ _ _ ih
  | blank _ _ _ ih | datumComment _ _ ih | emptyComment _ _ _ ih | intralineBlank _ _ _ ih
  | crossingComment _ _ _ ih => exact ih
  | flat _ | clear _ _ | lineComment _ | blockComment _ _ | intralineClear _ _ => exact .refl _
  | dot _ _ _ _ _ _ _ _ ih₁ ih₂ ih₃ ih₄ => exact ih₁.trans (ih₂.trans (ih₃.trans ih₄))
  | item _ _ _ _ _ _ ih₁ ih₂ ih₃ => exact ih₁.trans (ih₂.trans ih₃)
  | marker _ _ =>
    intro unmet
    rw [ReaderState.markersMet_emit] at unmet
    simp [Event.marker?] at unmet
  | lineDirective _ _ _ _ kept ih => exact (ReaderState.SteadyTo.emit _ _).trans (ih.trans (.record kept))
  | lastDatum _ _ ih => exact ih.emitted _
  | crossingDatum _ _ _ _ _ _ ih₁ ih₂ =>
    exact (((ih₁.emitted _).trans ih₂).emitted _ |>.emitted _).emitted _
  | lineDatum _ _ _ _ _ _ ih₁ ih₂ ih₃ =>
    exact ((ih₁.emitted _).trans ih₂).trans (((ReaderState.SteadyTo.emit _ _).emitted _).trans ih₃)

/-- A bare symbol is folded when it is spelled with folding. -/
theorem Lexeme.Spells.folded_eq {t : Text} {d : Datum} {size : Nat} (h : Spells true t d size)
    (bare : t.head? ≠ some (.scalar '|')) : d.folded = d := by
  cases h with
  | string opened read => rfl
  | symbol opened read => exact absurd opened bare
  | character opened read => rfl
  | hash opened read => exact folded_hashToken read
  | atom opened read =>
    obtain ⟨-, some_token⟩ := atom_size read
    rw [atom_of_token some_token] at read
    split at read
    · cases read
    · split at read
      · cases read
      · cases read
      · cases read
        rfl
      · cases read
        exact congrArg Datum.symbol (Text.fold_fold _)

theorem Task.folded_items {closer : CodePoint} {items : List Datum} {tail : Option Datum} :
    (Task.items mode closer (items, tail)).folded = .items mode closer (items, tail) ↔
      items.map Datum.folded = items ∧ tail.map Datum.folded = tail := by
  simp [Task.folded, ListParts.folded]

theorem Task.folded_datums {anchor : Int} {before : List Datum} :
    (Task.datums anchor before).folded = .datums anchor before ↔
      before.map Datum.folded = before := by
  simp [Task.folded]

theorem Yield.folded_datum {d : Datum} : (Yield.datum d).folded = .datum d ↔ d.folded = d := by
  simp [Yield.folded]

/-- What does not occur in a stretch of text does not occur in a part of it. -/
theorem Cursor.Reaches.absent_between {x : CodePoint} {a b : Cursor} (absent : x ∉ c.textTo next)
    (first : c.Reaches a) (second : a.Reaches b) (third : b.Reaches next) : x ∉ a.textTo b := by
  rw [first.textTo_trans (second.trans third), second.textTo_trans third] at absent
  intro mem
  exact absent (List.mem_append_right _ (List.mem_append_left _ mem))

theorem Reads.folded_eq (h : Reads ctx task c s y next s') (unmet : s'.markersMet = [])
    (folds : s.foldCase = true) (no_bar : .scalar '|' ∉ c.textTo next)
    (before : task.folded = task) : y.folded = y := by
  -- by induction on the rules. No marker is met, so that folding stays on to the end, and no symbol
  -- stands between bars.
  induction h with
  | code skipped read _ ih =>
    obtain ⟨unmet₁, -⟩ := read.steady unmet
    obtain ⟨-, same⟩ := skipped.steady unmet₁
    have bare := Cursor.Reaches.absent_between no_bar skipped.reaches read.reaches (.refl _)
    exact ih unmet (same.trans folds) bare rfl
  | directive _ ih => exact ih unmet folds no_bar rfl
  | @flat _ c _ _ size spelled =>
    rw [folds] at spelled
    -- the first character is part of what the read takes up
    have bare : c.rest.head? ≠ some (.scalar '|') := by
      intro bar
      rw [Cursor.textTo_advance] at no_bar
      have some_size : size ≠ 0 := by
        have := spelled.size
        omega
      exact no_bar (List.mem_of_head? (by rw [List.head?_take, if_neg some_size, bar]))
    exact Yield.folded_datum.mpr (spelled.folded_eq bare)
  | @list _ c _ _ _ parts _ _ _ _ items ih =>
    have bare := Cursor.Reaches.absent_between no_bar c.reaches_next items.reaches (.refl _)
    have fixed := Yield.parts.inj (ih unmet folds bare rfl)
    apply Yield.folded_datum.mpr
    rw [parts.folded_toDatum, fixed]
  | @abbreviation _ c _ a _ _ d _ _ _ skipped _ read _ ih =>
    obtain ⟨unmet₁, -⟩ := read.steady unmet
    obtain ⟨-, same⟩ := skipped.steady unmet₁
    have ahead := (c.reaches_advance a.mark.length).trans skipped.reaches
    have bare := Cursor.Reaches.absent_between no_bar ahead read.reaches (.refl _)
    have fixed := Yield.folded_datum.mp (ih unmet (same.trans folds) bare rfl)
    apply Yield.folded_datum.mpr
    rw [Datum.folded_list, List.map_cons, List.map_cons, List.map_nil, a.folded_name, fixed]
  | @vector _ c _ _ items _ _ _ read ih =>
    have bare := Cursor.Reaches.absent_between no_bar (c.reaches_advance 2) read.reaches (.refl _)
    have fixed := Yield.parts.inj (ih unmet folds bare rfl)
    have same : items.map Datum.folded = items := congrArg Prod.fst fixed
    apply Yield.folded_datum.mpr
    rw [Datum.folded_vector, same]
  | bytevector => rfl
  | close _ _ _ _ => exact congrArg Yield.parts (by simpa [Task.folded] using before)
  | @dot _ _ _ _ _ c₁ _ _ _ _ _ _ _ _ _ _ skipped _ _ _ skipped₂ _ read others _ _ ih₃ ih₄ =>
    -- back from the end: no marker is met in any of the parts, so each of them starts with folding on
    obtain ⟨unmet₃, -⟩ := others.steady unmet
    obtain ⟨unmet₂, same₂⟩ := read.steady unmet₃
    obtain ⟨unmet₁, same₁⟩ := skipped₂.steady unmet₂
    obtain ⟨-, same₀⟩ := skipped.steady unmet₁
    have folds₂ := same₁.trans (same₀.trans folds)
    have ahead := (skipped.reaches.trans c₁.reaches_next).trans skipped₂.reaches
    have bare := Cursor.Reaches.absent_between no_bar ahead read.reaches others.reaches
    have bare' := Cursor.Reaches.absent_between no_bar (ahead.trans read.reaches) others.reaches
      (.refl _)
    have fixed := Yield.folded_datum.mp (ih₃ unmet₃ folds₂ bare rfl)
    refine ih₄ unmet (same₂.trans folds₂) bare' ?_
    exact Task.folded_items.mpr ⟨(Task.folded_items.mp before).1, by rw [Option.map_some, fixed]⟩
  | item skipped _ _ _ read others _ ih₂ ih₃ =>
    obtain ⟨unmet₂, -⟩ := others.steady unmet
    obtain ⟨unmet₁, same₁⟩ := read.steady unmet₂
    obtain ⟨-, same₀⟩ := skipped.steady unmet₁
    have folds₁ := same₀.trans folds
    have bare := Cursor.Reaches.absent_between no_bar skipped.reaches read.reaches others.reaches
    have bare' := Cursor.Reaches.absent_between no_bar (skipped.reaches.trans read.reaches)
      others.reaches (.refl _)
    have fixed := Yield.folded_datum.mp (ih₂ unmet₂ folds₁ bare rfl)
    refine ih₃ unmet (same₁.trans folds₁) bare' ?_
    exact Task.folded_items.mpr ⟨by simp [(Task.folded_items.mp before).1, fixed], rfl⟩
  | blank | remark | clear | lineComment | blockComment | datumComment | emptyComment
  | lineDatumComment | marker | lineDirective | intralineBlank | intralineComment | crossingComment
  | intralineClear => rfl
  | lastDatum => exact congrArg Yield.datums (Task.folded_datums.mp before)
  | @crossingDatum _ items _ _ _ _ _ _ s₂ skipped _ _ read _ _ _ ih₂ =>
    obtain ⟨unmet₂, -⟩ := (((ReaderState.SteadyTo.emit s₂ _).emitted _).emitted _) unmet
    obtain ⟨unmet₁, -⟩ := read.steady unmet₂
    obtain ⟨-, same₀⟩ := (skipped.steady.emitted _) unmet₁
    have bare := Cursor.Reaches.absent_between no_bar skipped.reaches read.reaches (.refl _)
    have fixed := Yield.folded_datum.mp (ih₂ unmet₂ (same₀.trans folds) bare rfl)
    exact congrArg Yield.datums (by simp [Task.folded_datums.mp before, fixed])
  | @lineDatum _ items _ _ _ _ _ _ s₂ _ _ _ skipped _ _ read _ others _ ih₂ ih₃ =>
    obtain ⟨unmet₃, -⟩ := others.steady unmet
    obtain ⟨unmet₂, same₂⟩ := ((ReaderState.SteadyTo.emit s₂ _).emitted _) unmet₃
    obtain ⟨unmet₁, same₁⟩ := read.steady unmet₂
    obtain ⟨-, same₀⟩ := (skipped.steady.emitted _) unmet₁
    have folds₁ := same₀.trans folds
    have bare := Cursor.Reaches.absent_between no_bar skipped.reaches read.reaches others.reaches
    have bare' := Cursor.Reaches.absent_between no_bar (skipped.reaches.trans read.reaches)
      others.reaches (.refl _)
    have fixed := Yield.folded_datum.mp (ih₂ unmet₂ folds₁ bare rfl)
    refine ih₃ unmet (same₂.trans (same₁.trans folds₁)) bare' ?_
    exact Task.folded_datums.mpr (by simp [Task.folded_datums.mp before, fixed])

end Reads

/-! ## 3. The round trip -/

mutual

/-- A renaming that leaves alone what another one does is as little seen in a datum. -/
theorem Datum.mapSymbols_eq_self {f g : Text → Text} (weaker : ∀ name, f name = name → g name = name)
    (d : Datum) (fixed : d.mapSymbols f = d) : d.mapSymbols g = d := by
  cases d with
  | symbol name => exact congrArg Datum.symbol (weaker name (Datum.symbol.inj fixed))
  | list items => exact congrArg Datum.list (mapSymbolsItems_eq_self weaker items (Datum.list.inj fixed))
  | vector items =>
    exact congrArg Datum.vector (mapSymbolsItems_eq_self weaker items (Datum.vector.inj fixed))
  | dotted items tail =>
    obtain ⟨first, last⟩ := Datum.dotted.inj fixed
    rw [Datum.mapSymbols, mapSymbolsItems_eq_self weaker items first, mapSymbols_eq_self weaker tail last]
  | foreign kind items =>
    obtain ⟨-, each⟩ := Datum.foreign.inj fixed
    exact congrArg (Datum.foreign kind) (mapSymbolsItems_eq_self weaker items each)
  | string _ | char _ | boolean _ | number _ | bytes _ => rfl

theorem Datum.mapSymbolsItems_eq_self {f g : Text → Text}
    (weaker : ∀ name, f name = name → g name = name) (ds : List Datum)
    (fixed : mapSymbolsItems f ds = ds) : mapSymbolsItems g ds = ds := by
  cases ds with
  | nil => rfl
  | cons d ds =>
    obtain ⟨first, others⟩ := List.cons.inj fixed
    rw [Datum.mapSymbolsItems, mapSymbols_eq_self weaker d first,
      mapSymbolsItems_eq_self weaker ds others]

end

theorem Text.refold_of_fold {name : Text} (fixed : name.fold = name) : name.refold = name := by
  unfold refold
  split
  · exact fixed
  · rfl

theorem Datum.reread_of_folded {d : Datum} (fixed : d.folded = d) (fold : Bool) : d.reread fold = d := by
  cases fold with
  | false => rfl
  | true => exact Datum.mapSymbols_eq_self (fun _ => Text.refold_of_fold) d fixed

/-- A reader that starts with folding on or off, and reads a datum that can be written, reads back from
what is written for it the datum with its bare names folded if folding is on, and the datum itself if
it is off. With folding, too, it is the datum itself if the text of the datum holds no bar and no named
marker was met. -/
theorem Reader.reread_written {ctx : Context} {mode : Mode} {c next : Cursor} {fold : Bool}
    {s' : ReaderState} {d : Datum} {w : Text}
    (read : (readDatum ctx mode c).Returns { foldCase := fold } (d, next) s')
    (written : d.write = .ok w) :
    (∃ last, (readDatum ctx mode (.ofText w)).Returns { foldCase := fold } (d.reread fold, last)
        { foldCase := fold } ∧ last.rest = []) ∧
    (fold = false ∨ .scalar '|' ∉ c.textTo next ∧ s'.markersMet = [] → d.reread fold = d) := by
  have formed := Reader.wellFormed_of_readDatum read
  have back : IsReadAs ctx mode { foldCase := fold } w (d.reread fold) :=
    isReadAs_reread d formed written
  have ends : Text.atDelimiter ([] : Text) = true := rfl
  obtain ⟨last, returned, rest, -⟩ := back.readDatum ends
  rw [List.append_nil] at returned
  refine ⟨⟨last, returned, rest⟩, ?_⟩
  rintro (rfl | ⟨no_bar, unmet⟩)
  · rfl
  · cases fold with
    | false => rfl
    | true =>
      have reads := Reader.returns_readDatum.mp read
      have fixed := Yield.folded_datum.mp (reads.folded_eq unmet rfl no_bar rfl)
      exact Datum.reread_of_folded fixed true

/-- A name that folds to the spelling of a number, one that folds to a longer one, and a character by its
name in capitals. -/
theorem Reader.reread_written_capitals :
    ∃ next s' w last, (readDatum {} .code (.ofText "(+INF.0 Straße #\\TAB)")).Returns
        { foldCase := true }
        (.list [.symbol "+inf.0", .symbol "strasse", .char (.scalar '\t')], next) s' ∧
      .scalar '|' ∉ (Cursor.ofText "(+INF.0 Straße #\\TAB)").textTo next ∧ s'.markersMet = [] ∧
      (Datum.list [.symbol "+inf.0", .symbol "strasse", .char (.scalar '\t')]).write = .ok w ∧
      (readDatum {} .code (.ofText w)).Returns { foldCase := true }
        (.list [.symbol "+inf.0", .symbol "strasse", .char (.scalar '\t')], last)
        { foldCase := true } ∧ last.rest = [] := by
  have read : (readDatum {} .code (.ofText "(+INF.0 Straße #\\TAB)")).Returns { foldCase := true }
      (.list [.symbol "+inf.0", .symbol "strasse", .char (.scalar '\t')], ⟨[], ⟨1, 21, 21⟩⟩)
      { foldCase := true } := rfl
  have written : (Datum.list [.symbol "+inf.0", .symbol "strasse", .char (.scalar '\t')]).write =
      .ok ("(|+inf.0| strasse #\\tab)" : Text) := rfl
  have bare : .scalar '|' ∉ (Cursor.ofText "(+INF.0 Straße #\\TAB)").textTo ⟨[], ⟨1, 21, 21⟩⟩ := by
    decide
  obtain ⟨⟨last, back, rest⟩, same⟩ := reread_written read written
  rw [same (.inr ⟨bare, rfl⟩)] at back
  exact ⟨_, _, _, last, read, bare, rfl, written, back, rest⟩

/-- A name between bars that is not its own folding is written without them, and read back folded. -/
theorem Reader.reread_barred_name :
    ∃ next last, (readDatum {} .code (.ofText "|Foo|")).Returns { foldCase := true }
        (.symbol "Foo", next) { foldCase := true } ∧
      (Datum.symbol "Foo").write = .ok ("Foo" : Text) ∧
      (readDatum {} .code (.ofText "Foo")).Returns { foldCase := true } (.symbol "foo", last)
        { foldCase := true } :=
  ⟨_, _, rfl, rfl, rfl⟩

end LineDirective
