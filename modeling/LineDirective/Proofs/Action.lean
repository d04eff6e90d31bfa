import LineDirective.Reader.Basic

/-!
# What an action returns

`m.Returns s a s'` says that the action `m`, started in the state `s`, succeeds with `a` and leaves
the state `s'`; `m.Raises s e s'` says that it fails with `e`. One lemma for each way of building an
action says when the whole returns and when it raises a failure; after them no proof opens the monad.
-/

namespace LineDirective

def ReaderState.emit (s : ReaderState) (e : Event) : ReaderState :=
  { s with trace := s.trace.push e }

@[simp] theorem ReaderState.foldCase_emit (s : ReaderState) (e : Event) :
    (s.emit e).foldCase = s.foldCase := rfl

@[simp] theorem ReaderState.directives_emit (s : ReaderState) (e : Event) :
    (s.emit e).directives = s.directives := rfl

@[simp] theorem ReaderState.trace_emit (s : ReaderState) (e : Event) :
    (s.emit e).trace = s.trace.push e := rfl

namespace ReadM

variable {α β : Type}

def outcome (m : ReadM α) (s : ReaderState) : Except Failure α × ReaderState := m.run.run s

/-- Started in `s`, the action succeeds with `a` and leaves the state `s'`. -/
def Returns (m : ReadM α) (s : ReaderState) (a : α) (s' : ReaderState) : Prop :=
  m.outcome s = (.ok a, s')

/-- An action has one outcome. -/
theorem Returns.unique {m : ReadM α} {s t t' : ReaderState} {a b : α} (ha : m.Returns s a t)
    (hb : m.Returns s b t') : a = b ∧ t = t' := by
  unfold Returns at ha hb
  rw [ha] at hb
  simpa using hb

@[simp] theorem returns_pure {a b : α} {s s' : ReaderState} :
    (pure a : ReadM α).Returns s b s' ↔ b = a ∧ s' = s := by
  show ((Except.ok a, s) : Except Failure α × ReaderState) = (.ok b, s') ↔ _
  rw [Prod.mk.injEq, Except.ok.injEq]
  exact and_congr eq_comm eq_comm

@[simp] theorem returns_throw {failure : Failure} {a : α} {s s' : ReaderState} :
    (throw failure : ReadM α).Returns s a s' ↔ False := by
  show ((Except.error failure, s) : Except Failure α × ReaderState) = (.ok a, s') ↔ _
  simp

theorem outcome_bind (m : ReadM α) (f : α → ReadM β) (s : ReaderState) :
    (m >>= f).outcome s =
      match m.outcome s with
      | (.ok a, s') => (f a).outcome s'
      | (.error e, s') => (.error e, s') := by
  show (ExceptT.bindCont f (m.outcome s).1 : StateM ReaderState (Except Failure β))
    (m.outcome s).2 = _
  rcases m.outcome s with ⟨r, s'⟩
  cases r <;> rfl

theorem outcome_tryCatch (m : ReadM α) (handle : Failure → ReadM α) (s : ReaderState) :
    (tryCatch m handle).outcome s =
      match m.outcome s with
      | (.ok a, s') => (.ok a, s')
      | (.error e, s') => (handle e).outcome s' := by
  have run : (tryCatch m handle).outcome s = ExceptT.tryCatch m handle s := rfl
  obtain ⟨r, t, h⟩ : ∃ r t, m.outcome s = (r, t) := ⟨_, _, rfl⟩
  have first : m s = (r, t) := h
  rw [run, h]
  simp only [ExceptT.tryCatch, ExceptT.mk, bind, StateT.bind, first]
  cases r <;> rfl

@[simp] theorem returns_bind {m : ReadM α} {f : α → ReadM β} {b : β} {s s' : ReaderState} :
    (m >>= f).Returns s b s' ↔ ∃ a t, m.Returns s a t ∧ (f a).Returns t b s' := by
  unfold Returns
  rw [outcome_bind]
  rcases m.outcome s with ⟨r, t⟩
  cases r with
  | ok a =>
    constructor
    · intro h
      exact ⟨a, t, rfl, h⟩
    · rintro ⟨a', t', same, h⟩
      cases same
      exact h
  | error e => simp

@[simp] theorem returns_map {m : ReadM α} {f : α → β} {b : β} {s s' : ReaderState} :
    (f <$> m).Returns s b s' ↔ ∃ a, m.Returns s a s' ∧ f a = b := by
  have same : f <$> m = m >>= fun a => pure (f a) := map_eq_pure_bind f m
  rw [same, returns_bind]
  constructor
  · rintro ⟨a, t, h, done⟩
    obtain ⟨rfl, rfl⟩ := returns_pure.mp done
    exact ⟨a, h, rfl⟩
  · rintro ⟨a, h, rfl⟩
    exact ⟨a, s', h, returns_pure.mpr ⟨rfl, rfl⟩⟩

@[simp] theorem returns_emit {e : Event} {u : Unit} {s s' : ReaderState} :
    (emit e).Returns s u s' ↔ s' = s.emit e := by
  show ((Except.ok (), s.emit e) : Except Failure Unit × ReaderState) = (.ok u, s') ↔ _
  simp [eq_comm]

@[simp] theorem returns_modify {f : ReaderState → ReaderState} {u : Unit} {s s' : ReaderState} :
    (modify f : ReadM Unit).Returns s u s' ↔ s' = f s := by
  show ((Except.ok (), f s) : Except Failure Unit × ReaderState) = (.ok u, s') ↔ _
  simp [eq_comm]

@[simp] theorem returns_get {r s s' : ReaderState} :
    (get : ReadM ReaderState).Returns s r s' ↔ r = s ∧ s' = s := by
  show ((Except.ok s, s) : Except Failure ReaderState × ReaderState) = (.ok r, s') ↔ _
  rw [Prod.mk.injEq, Except.ok.injEq]
  exact and_congr eq_comm eq_comm

/-- An action whose failures are handled by failing returns what it returns without the handler. -/
theorem returns_tryCatch {m : ReadM α} {handle : Failure → ReadM α}
    (fails : ∀ e s a s', ¬ (handle e).Returns s a s') {a : α} {s s' : ReaderState} :
    (tryCatch m handle).Returns s a s' ↔ m.Returns s a s' := by
  unfold Returns
  rw [outcome_tryCatch]
  rcases m.outcome s with ⟨r, t⟩
  cases r with
  | ok b => exact Iff.rfl
  | error e =>
    constructor
    · intro h
      exact absurd h (fails e t a s')
    · intro h
      cases h

/-! ## Failures -/

/-- Started in `s`, the action fails with `e` and leaves the state `s'`. -/
def Raises (m : ReadM α) (s : ReaderState) (e : Failure) (s' : ReaderState) : Prop :=
  m.outcome s = (.error e, s')

theorem Returns.not_raises {m : ReadM α} {s t t' : ReaderState} {a : α} {e : Failure}
    (h : m.Returns s a t) : ¬ m.Raises s e t' := by
  unfold Returns at h
  unfold Raises
  rw [h]
  simp

theorem Raises.unique {m : ReadM α} {s t t' : ReaderState} {e e' : Failure} (h : m.Raises s e t)
    (h' : m.Raises s e' t') : e = e' ∧ t = t' := by
  unfold Raises at h h'
  rw [h] at h'
  simpa using h'

/-- Every action comes to an end, one way or the other. -/
theorem returns_or_raises (m : ReadM α) (s : ReaderState) :
    (∃ a s', m.Returns s a s') ∨ ∃ e s', m.Raises s e s' := by
  unfold Returns Raises
  rcases m.outcome s with ⟨r, s'⟩
  cases r with
  | ok a => exact .inl ⟨a, s', rfl⟩
  | error e => exact .inr ⟨e, s', rfl⟩

@[simp] theorem raises_pure {a : α} {e : Failure} {s s' : ReaderState} :
    (pure a : ReadM α).Raises s e s' ↔ False := by
  show ((Except.ok a, s) : Except Failure α × ReaderState) = (.error e, s') ↔ _
  simp

@[simp] theorem raises_throw {failure e : Failure} {s s' : ReaderState} :
    (throw failure : ReadM α).Raises s e s' ↔ e = failure ∧ s' = s := by
  show ((Except.error failure, s) : Except Failure α × ReaderState) = (.error e, s') ↔ _
  rw [Prod.mk.injEq, Except.error.injEq]
  exact and_congr eq_comm eq_comm

@[simp] theorem raises_bind {m : ReadM α} {f : α → ReadM β} {e : Failure} {s s' : ReaderState} :
    (m >>= f).Raises s e s' ↔
      m.Raises s e s' ∨ ∃ a t, m.Returns s a t ∧ (f a).Raises t e s' := by
  unfold Raises Returns
  rw [outcome_bind]
  rcases m.outcome s with ⟨r, t⟩
  cases r with
  | ok a =>
    constructor
    · intro h
      exact .inr ⟨a, t, rfl, h⟩
    · rintro (failed | ⟨a', t', same, h⟩)
      · cases failed
      · cases same
        exact h
  | error e => simp

@[simp] theorem raises_map {m : ReadM α} {f : α → β} {e : Failure} {s s' : ReaderState} :
    (f <$> m).Raises s e s' ↔ m.Raises s e s' := by
  have same : f <$> m = m >>= fun a => pure (f a) := map_eq_pure_bind f m
  rw [same, raises_bind]
  simp

@[simp] theorem raises_emit {event : Event} {e : Failure} {s s' : ReaderState} :
    (emit event).Raises s e s' ↔ False := by
  show ((Except.ok (), s.emit event) : Except Failure Unit × ReaderState) = (.error e, s') ↔ _
  simp

@[simp] theorem raises_modify {f : ReaderState → ReaderState} {e : Failure} {s s' : ReaderState} :
    (modify f : ReadM Unit).Raises s e s' ↔ False := by
  show ((Except.ok (), f s) : Except Failure Unit × ReaderState) = (.error e, s') ↔ _
  simp

@[simp] theorem raises_get {e : Failure} {s s' : ReaderState} :
    (get : ReadM ReaderState).Raises s e s' ↔ False := by
  show ((Except.ok s, s) : Except Failure ReaderState × ReaderState) = (.error e, s') ↔ _
  simp

theorem raises_tryCatch {m : ReadM α} {handle : Failure → ReadM α} {e : Failure}
    {s s' : ReaderState} :
    (tryCatch m handle).Raises s e s' ↔
      ∃ cause t, m.Raises s cause t ∧ (handle cause).Raises t e s' := by
  unfold Raises
  rw [outcome_tryCatch]
  rcases m.outcome s with ⟨r, t⟩
  cases r with
  | ok a => simp
  | error cause =>
    constructor
    · intro h
      exact ⟨cause, t, rfl, h⟩
    · rintro ⟨cause', t', same, h⟩
      cases same
      exact h

theorem raises_liftFault {r : Except Fault α} {e : Failure} {s s' : ReaderState} :
    (liftFault r).Raises s e s' ↔ ∃ fault, r = .error fault ∧ e = .fault fault ∧ s' = s := by
  cases r with
  | ok a => simp [liftFault]
  | error fault => simp [liftFault]

def final (m : ReadM α) (s : ReaderState) : ReaderState := (m.outcome s).2

theorem Returns.final {m : ReadM α} {s s' : ReaderState} {a : α} (h : m.Returns s a s') :
    m.final s = s' :=
  congrArg Prod.snd h

theorem Raises.final {m : ReadM α} {s s' : ReaderState} {e : Failure} (h : m.Raises s e s') :
    m.final s = s' :=
  congrArg Prod.snd h

/-- What holds after every end of an action holds of the state that it leaves. -/
theorem final_of_ends {m : ReadM α} {s : ReaderState} {P : ReaderState → Prop}
    (returned : ∀ a s', m.Returns s a s' → P s') (raised : ∀ e s', m.Raises s e s' → P s') :
    P (m.final s) := by
  rcases m.returns_or_raises s with ⟨a, s', h⟩ | ⟨e, s', h⟩
  · exact h.final ▸ returned a s' h
  · exact h.final ▸ raised e s' h

@[simp] theorem final_map (f : α → β) (m : ReadM α) (s : ReaderState) :
    (f <$> m).final s = m.final s := by
  rcases m.returns_or_raises s with ⟨a, s', h⟩ | ⟨e, s', h⟩
  · exact (returns_map.mpr ⟨a, h, rfl⟩ : (f <$> m).Returns s (f a) s').final.trans h.final.symm
  · exact (raises_map.mpr h).final.trans h.final.symm

/-! ## Actions that go on as others -/

/-- Started in `s`, the action `m` ends as `m'` does that is started in `t`. -/
def ContinuesAs (m : ReadM α) (s : ReaderState) (m' : ReadM α) (t : ReaderState) : Prop :=
  m.outcome s = m'.outcome t

theorem Returns.continues {m : ReadM α} {f : α → ReadM β} {s t : ReaderState} {a : α}
    (h : m.Returns s a t) : (m >>= f).ContinuesAs s (f a) t := by
  unfold ContinuesAs
  rw [outcome_bind, h]

theorem ContinuesAs.trans {m m' m'' : ReadM α} {s t u : ReaderState} (first : m.ContinuesAs s m' t)
    (second : m'.ContinuesAs t m'' u) : m.ContinuesAs s m'' u :=
  Eq.trans first second

theorem ContinuesAs.returns {m m' : ReadM α} {s t s' : ReaderState} {a : α}
    (h : m.ContinuesAs s m' t) (rest : m'.Returns t a s') : m.Returns s a s' :=
  Eq.trans h rest

theorem ContinuesAs.raises {m m' : ReadM α} {s t s' : ReaderState} {e : Failure}
    (h : m.ContinuesAs s m' t) (rest : m'.Raises t e s') : m.Raises s e s' :=
  Eq.trans h rest

end ReadM

@[simp] theorem Context.returns_fail {α : Type} {ctx : Context} {cause : Cause}
    {position : Position} {a : α} {s s' : ReaderState} :
    (ctx.fail cause position : ReadM α).Returns s a s' ↔ False :=
  ReadM.returns_throw

theorem Context.returns_lexeme {α : Type} {ctx : Context} {c next : Cursor}
    {r : Lexeme.Result α} {a : α} {s s' : ReaderState} :
    (ctx.lexeme c r).Returns s (a, next) s' ↔
      ∃ size, r = .ok (a, size) ∧ next = c.advance size ∧ s' = s := by
  cases r with
  | ok p =>
    obtain ⟨b, size⟩ := p
    simp only [lexeme, ReadM.returns_pure, Prod.mk.injEq, Except.ok.injEq]
    constructor
    · rintro ⟨⟨rfl, rfl⟩, rfl⟩
      exact ⟨size, ⟨rfl, rfl⟩, rfl, rfl⟩
    · rintro ⟨size', ⟨rfl, rfl⟩, rfl, rfl⟩
      exact ⟨⟨rfl, rfl⟩, rfl⟩
  | error e => cases e <;> simp [lexeme]

def Context.complaint (ctx : Context) (cause : Cause) (position : Position) : Failure :=
  .diagnosed ⟨cause, position, ctx.sourceName⟩

def Context.blame (ctx : Context) (c : Cursor) : LexemeFailure → Failure
  | .malformed cause distance => ctx.complaint cause (c.advance distance).position
  | .fault fault => .fault fault

@[simp] theorem Context.raises_fail {α : Type} {ctx : Context} {cause : Cause}
    {position : Position} {e : Failure} {s s' : ReaderState} :
    (ctx.fail cause position : ReadM α).Raises s e s' ↔
      e = ctx.complaint cause position ∧ s' = s :=
  ReadM.raises_throw

theorem Context.raises_lexeme {α : Type} {ctx : Context} {c : Cursor} {r : Lexeme.Result α}
    {e : Failure} {s s' : ReaderState} :
    (ctx.lexeme c r).Raises s e s' ↔ ∃ f, r = .error f ∧ e = ctx.blame c f ∧ s' = s := by
  cases r with
  | ok p => simp [lexeme]
  | error f => cases f <;> simp [lexeme, blame]

end LineDirective
