import LineDirective.Proofs.Adequacy

/-!
# Data that are read are well formed

Every datum that the reader returns has an item before each of its dots and holds no foreign value.
The invariant goes through the rules with the parts of a list that have been read so far: a tail
comes only after an item.
-/

namespace LineDirective

namespace Datum

theorem wellFormedItems_append (as bs : List Datum) :
    wellFormedItems (as ++ bs) = (wellFormedItems as && wellFormedItems bs) := by
  induction as with
  | nil => simp [wellFormedItems]
  | cons d ds ih => simp [wellFormedItems, ih, Bool.and_assoc]

theorem wellFormedItems_iff (ds : List Datum) :
    wellFormedItems ds = true ↔ ∀ d ∈ ds, d.wellFormed = true := by
  induction ds with
  | nil => simp [wellFormedItems]
  | cons d ds ih => simp [wellFormedItems, ih]

end Datum

/-- The parts of a list are well formed, and a tail comes only after an item. -/
def ListParts.wellFormed (parts : ListParts) : Bool :=
  Datum.wellFormedItems parts.1 && parts.2.all fun tail => !parts.1.isEmpty && tail.wellFormed

def Task.wellFormed : Task → Bool
  | .items _ _ parts => parts.wellFormed
  | .datums _ before => Datum.wellFormedItems before
  | _ => true

def Yield.wellFormed : Yield → Bool
  | .nothing => true
  | .datum d => d.wellFormed
  | .parts read => read.wellFormed
  | .datums ds => Datum.wellFormedItems ds

theorem ListParts.wellFormed_toDatum (parts : ListParts) :
    parts.toDatum.wellFormed = parts.wellFormed := by
  obtain ⟨items, tail⟩ := parts
  cases tail with
  | none => simp [toDatum, ListParts.wellFormed, Datum.wellFormed]
  | some tail =>
    simp only [toDatum, ListParts.wellFormed, Datum.wellFormed, Option.all_some]
    cases items.isEmpty <;> cases Datum.wellFormedItems items <;> simp

theorem Lexeme.wellFormed_radixNumber {radix : Nat} {word digits : Text} {d : Datum} {size : Nat}
    (h : radixNumber radix word digits = .ok (d, size)) : d.wellFormed = true := by
  unfold radixNumber at h
  split at h
  · cases h
  · cases h; rfl
  · cases h

theorem Lexeme.Spells.wellFormed {fold : Bool} {t : Text} {d : Datum} {size : Nat}
    (h : Spells fold t d size) : d.wellFormed = true := by
  cases h with
  | string => rfl
  | symbol => rfl
  | character => rfl
  | hash _ read =>
    unfold hashToken at read
    simp only at read
    split at read
    · cases read; rfl
    · split at read
      · cases read; rfl
      · split at read
        · split at read
          · exact wellFormed_radixNumber read
          · cases read
        · cases read
  | atom _ read =>
    unfold Lexeme.atom at read
    split at read
    · cases read
    · cases read
    · split at read
      · cases read
      · split at read <;> cases read <;> rfl

/-- A task that carries on with well-formed data yields well-formed data. -/
theorem Reads.wellFormed {ctx : Context} {task : Task} {c next : Cursor} {s s' : ReaderState}
    {y : Yield} (h : Reads ctx task c s y next s') (start : task.wellFormed = true) :
    y.wellFormed = true := by
  induction h with
  | code _ _ _ ih => exact ih rfl
  | directive _ ih => exact ih rfl
  | flat spelled => exact spelled.wellFormed
  | list _ _ _ ih =>
    show (ListParts.toDatum _).wellFormed = true
    rw [ListParts.wellFormed_toDatum]
    exact ih rfl
  | abbreviation _ _ _ _ _ ih =>
    have inner : Datum.wellFormed _ = true := ih rfl
    simp [Yield.wellFormed, Datum.wellFormed, Datum.wellFormedItems, inner]
  | vector _ _ ih =>
    have inner : ListParts.wellFormed _ = true := ih rfl
    simpa [Yield.wellFormed, ListParts.wellFormed, Datum.wellFormed] using inner
  | bytevector => rfl
  | close => exact start
  | dot _ _ _ some_item _ _ _ _ _ _ ih₃ ih₄ =>
    apply ih₄
    have tail : Datum.wellFormed _ = true := ih₃ rfl
    simp only [Task.wellFormed, ListParts.wellFormed, Option.all_none, Bool.and_true] at start
    simp [Task.wellFormed, ListParts.wellFormed, start, tail, some_item]
  | item _ _ _ _ _ _ _ ih₂ ih₃ =>
    apply ih₃
    have datum : Datum.wellFormed _ = true := ih₂ rfl
    simp only [Task.wellFormed, ListParts.wellFormed, Option.all_none, Bool.and_true] at start
    simp [Task.wellFormed, ListParts.wellFormed, Datum.wellFormedItems_append,
      Datum.wellFormedItems, start, datum]
  | lastDatum => exact start
  | crossingDatum _ _ _ _ _ _ _ ih =>
    have datum : Datum.wellFormed _ = true := ih rfl
    have items : Datum.wellFormedItems _ = true := start
    simp [Yield.wellFormed, Datum.wellFormedItems_append, Datum.wellFormedItems, items, datum]
  | lineDatum _ _ _ _ _ _ _ ih₂ ih₃ =>
    apply ih₃
    have datum : Datum.wellFormed _ = true := ih₂ rfl
    have items : Datum.wellFormedItems _ = true := start
    simp [Task.wellFormed, Datum.wellFormedItems_append, Datum.wellFormedItems, items, datum]
  | _ => rfl

/-- Every datum that the reader returns is well formed. -/
theorem Reader.wellFormed_of_readDatum {ctx : Context} {mode : Mode} {c next : Cursor}
    {s s' : ReaderState} {d : Datum} (h : (readDatum ctx mode c).Returns s (d, next) s') :
    d.wellFormed = true :=
  (returns_readDatum.mp h).wellFormed rfl

end LineDirective
