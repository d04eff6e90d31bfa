import LineDirective.Reader.Datum

/-!
# Data without nested data

`Lexeme.Spells fold t d size` says that the first `size` code points of the text `t` spell the datum
`d`, which holds no other data: a string, a symbol, a character, a boolean or a number. Every
spelling takes up at least one code point and no more than there are.
-/

namespace LineDirective

theorem map_eq_ok {ε α β : Type} {f : α → β} {r : Except ε α} {b : β} :
    r.map f = .ok b ↔ ∃ a, r = .ok a ∧ f a = b := by
  cases r <;> simp [Except.map]

theorem map_eq_error {ε α β : Type} {f : α → β} {r : Except ε α} {e : ε} :
    r.map f = .error e ↔ r = .error e := by
  cases r <;> simp [Except.map]

theorem bind_eq_ok {ε α β : Type} {f : α → Except ε β} {r : Except ε α} {b : β} :
    (r >>= f) = .ok b ↔ ∃ a, r = .ok a ∧ f a = .ok b := by
  cases r <;> simp [bind, Except.bind]

namespace Lexeme

def startsHashToken : Text → Bool
  | .scalar '#' :: .scalar '(' :: _ => false
  | .scalar '#' :: .scalar 'u' :: .scalar '8' :: .scalar '(' :: _ => false
  | .scalar '#' :: .backslash :: _ => false
  | .scalar '#' :: .scalar '!' :: _ => false
  | .scalar '#' :: _ => true
  | _ => false

def structuralInitials : Text :=
  [.scalar '(', .scalar '[', .scalar ')', .scalar ']', .quotationMark, .scalar '|', .apostrophe,
   .graveAccent, .scalar ',', .scalar '#']

def startsAtom (t : Text) : Bool := t.head?.any fun x => !structuralInitials.contains x

/-- The first `size` code points of a text spell a datum without nested data. -/
inductive Spells (fold : Bool) (t : Text) : Datum → Nat → Prop
  | string {content : Text} {size : Nat} (opened : t.head? = some .quotationMark)
      (read : quoted .string t = .ok (content, size)) : Spells fold t (.string content) size
  | symbol {name : Text} {size : Nat} (opened : t.head? = some (.scalar '|'))
      (read : quoted .symbol t = .ok (name, size)) : Spells fold t (.symbol name) size
  | character {c : CodePoint} {size : Nat} {rest : Text}
      (opened : t = .scalar '#' :: .backslash :: rest)
      (read : character fold t = .ok (c, size)) : Spells fold t (.char c) size
  | hash {d : Datum} {size : Nat} (opened : startsHashToken t = true)
      (read : hashToken t = .ok (d, size)) : Spells fold t d size
  | atom {d : Datum} {size : Nat} (opened : startsAtom t = true)
      (read : atom fold t = .ok (d, size)) : Spells fold t d size

theorem head_of_startsHashToken {t : Text} (h : startsHashToken t = true) :
    ∃ more, t = .scalar '#' :: more := by
  unfold startsHashToken at h
  split at h
  · cases h
  · cases h
  · cases h
  · cases h
  · exact ⟨_, rfl⟩
  · cases h

/-! ## Sizes -/

theorem length_token_le (t : Text) : (token t).length ≤ t.length :=
  (List.takeWhile_prefix _).length_le

theorem take_token (t : Text) : t.take (token t).length = token t :=
  (List.prefix_iff_eq_take.mp (List.takeWhile_prefix _)).symm

theorem plain_of_mem_token {t : Text} {c : CodePoint} (mem : c ∈ token t) :
    c.isDelimiter = false := by
  have inside := List.all_eq_true.mp List.all_takeWhile c mem
  simpa using inside

/-- A quoted form ends with its closing mark, which comes after the escape being read. -/
theorem quotedFrom_size {q : Quotation} {skip start : Nat} {t content : Text} {size : Nat}
    (h : quotedFrom q skip start t = .ok (content, size)) :
    start + skip + 1 ≤ size ∧ size ≤ start + t.length := by
  fun_induction quotedFrom q skip start t generalizing content size with
  | case1 => cases h
  | case2 skip start x rest ih =>
    have := ih h
    simp only [List.length_cons]
    omega
  | case3 start rest =>
    simp only [Except.ok.injEq, Prod.mk.injEq] at h
    simp only [List.length_cons]
    omega
  | case4 => cases h
  | case5 start rest _ meaning n _ ih =>
    obtain ⟨⟨more, _⟩, hrest, same⟩ := map_eq_ok.mp h
    cases same
    have := ih hrest
    simp only [List.length_cons]
    omega
  | case6 start c rest _ _ ih =>
    obtain ⟨⟨more, _⟩, hrest, same⟩ := map_eq_ok.mp h
    cases same
    have := ih hrest
    simp only [List.length_cons]
    omega

theorem quoted_size {q : Quotation} {t content : Text} {size : Nat}
    (h : quoted q t = .ok (content, size)) : 2 ≤ size ∧ size ≤ t.length := by
  have bounds := quotedFrom_size h
  rw [List.length_drop] at bounds
  omega

/-- A character literal takes up its token, whatever it stands for. -/
theorem character_size_token {fold : Bool} {t : Text} {c : CodePoint} {size : Nat}
    (h : character fold t = .ok (c, size)) :
    size = (token (t.drop 3)).length + 3 ∧ 3 ≤ t.length := by
  have after : t.drop 3 = (t.drop 2).drop 1 := by rw [List.drop_drop]
  unfold character at h
  cases rest : t.drop 2 with
  | nil => rw [rest] at h; cases h
  | cons first more =>
    have long := congrArg List.length rest
    simp only [List.length_drop, List.length_cons] at long
    rw [after, rest, List.drop_one, List.tail_cons]
    rw [rest] at h
    simp only [List.length_cons] at h
    refine ⟨?_, by omega⟩
    split at h
    · rename_i alone
      cases h
      rw [alone]
      rfl
    · split at h
      · cases h; rfl
      · split at h
        · split at h
          · cases h
          · cases h
          · cases h; rfl
        · cases h

theorem character_size {fold : Bool} {t : Text} {c : CodePoint} {size : Nat}
    (h : character fold t = .ok (c, size)) : 3 ≤ size ∧ size ≤ t.length := by
  obtain ⟨size_eq, long⟩ := character_size_token h
  have short := length_token_le (t.drop 3)
  rw [List.length_drop] at short
  omega

theorem radixNumber_size {radix : Nat} {word digits : Text} {d : Datum} {size : Nat}
    (h : radixNumber radix word digits = .ok (d, size)) : size = word.length + 1 := by
  unfold radixNumber at h
  split at h
  · cases h
  · cases h; rfl
  · cases h

theorem hashToken_size {t : Text} {d : Datum} {size : Nat} (h : hashToken t = .ok (d, size)) :
    size = (token (t.drop 1)).length + 1 := by
  unfold hashToken at h
  simp only at h
  split at h
  · cases h; rfl
  · split at h
    · cases h; rfl
    · split at h
      · split at h
        · exact radixNumber_size h
        · cases h
      · cases h

/-- An atom is what its token says; the rest of the text matters only to the complaint about none. -/
theorem atom_of_token {fold : Bool} {t : Text} (some_token : token t ≠ []) :
    atom fold t =
      if token t = ("." : Text) then .error (.malformed .unexpectedDot 0)
      else
        match Number.parse (token t) with
        | .error (.zeroDenominator _) => .error (.malformed (.divisionByZero (token t)) 0)
        | .error fault => .error (.fault fault)
        | .ok (some n) => .ok (.number n, (token t).length)
        | .ok none =>
          .ok (.symbol (if fold then Text.fold (token t) else token t), (token t).length) := by
  unfold atom
  generalize token t = word at some_token
  cases word with
  | nil => exact absurd rfl some_token
  | cons x more => rfl

theorem atom_size {fold : Bool} {t : Text} {d : Datum} {size : Nat}
    (h : atom fold t = .ok (d, size)) : size = (token t).length ∧ token t ≠ [] := by
  have some_token : token t ≠ [] := by
    intro nothing
    unfold atom at h
    rw [nothing] at h
    cases t with
    | nil => cases h
    | cons c rest => cases h
  rw [atom_of_token some_token] at h
  split at h
  · cases h
  · split at h
    · cases h
    · cases h
    · cases h; exact ⟨rfl, some_token⟩
    · cases h; exact ⟨rfl, some_token⟩

/-- A spelling takes up something, and no more than there is. -/
theorem Spells.size {fold : Bool} {t : Text} {d : Datum} {size : Nat}
    (h : Spells fold t d size) : 1 ≤ size ∧ size ≤ t.length := by
  cases h with
  | string opened read =>
    have := quoted_size read
    omega
  | symbol opened read =>
    have := quoted_size read
    omega
  | character opened read =>
    have := character_size read
    omega
  | hash opened read =>
    have size_eq := hashToken_size read
    have short := length_token_le (t.drop 1)
    rw [List.length_drop] at short
    cases t with
    | nil => cases opened
    | cons x rest =>
      simp only [List.length_cons] at short ⊢
      omega
  | atom opened read =>
    obtain ⟨size_eq, some_token⟩ := atom_size read
    have short := length_token_le t
    have := List.length_pos_iff.mpr some_token
    omega

/-- A block comment ends inside the text. -/
theorem blockComment_size {depth : Int} {t : Text} {size : Nat}
    (h : blockComment depth t = .ok size) : size ≤ t.length := by
  fun_induction blockComment depth t generalizing size with
  | case1 depth rest ih =>
    obtain ⟨n, hrest, rfl⟩ := map_eq_ok.mp h
    have := ih hrest
    simp only [List.length_cons]
    omega
  | case2 rest =>
    cases h
    simp
  | case3 depth rest deeper ih =>
    obtain ⟨n, hrest, rfl⟩ := map_eq_ok.mp h
    have := ih hrest
    simp only [List.length_cons]
    omega
  | case4 depth x rest _ _ ih =>
    obtain ⟨n, hrest, rfl⟩ := map_eq_ok.mp h
    have := ih hrest
    simp only [List.length_cons]
    omega
  | case5 => cases h

theorem two_le_blockComment {depth : Int} {t : Text} {size : Nat}
    (h : blockComment depth t = .ok size) : 2 ≤ size := by
  fun_induction blockComment depth t generalizing size with
  | case1 depth rest ih =>
    obtain ⟨n, -, rfl⟩ := map_eq_ok.mp h
    omega
  | case2 rest =>
    cases h
    exact Nat.le_refl 2
  | case3 depth rest deeper ih =>
    obtain ⟨n, -, rfl⟩ := map_eq_ok.mp h
    omega
  | case4 depth x rest _ _ ih =>
    obtain ⟨n, hrest, rfl⟩ := map_eq_ok.mp h
    have := ih hrest
    omega
  | case5 => cases h

end Lexeme

end LineDirective
