import LineDirective.Proofs.Mirroring

/-!
# Directives inside directives

What code does with a directive that stands in a datum, a directive does not accept: where the read of
the datum in code hands a directive over, the read inside a directive is refused at the marker
(`Reader.nested_directive_refused`). Up to the first marker the code is a run inside a directive
(module `Mirroring`). In code the atmosphere there goes on behind the directive; in a directive it stops
at the marker, and then a datum is looked for and refused (`Blocked`). Two reads never look for one
there: that of a list that has its tail, and that of an abbreviation whose mark stands before another
datum than in code, one that has ended by then (`Unobstructed`).
-/

namespace LineDirective

variable {ctx : Context} {fold : Bool} {loose : Prop} {c c₁ next : Cursor} {p : Position}

/-! ## 1. The marker -/

theorem Cursor.position_beforeMarker {rest : Text}
    (head : c.rest = .scalar '#' :: .scalar '!' :: rest) :
    (c.advance 2).position.beforeMarker = c.position := by
  obtain ⟨text, ⟨line, column, offset⟩⟩ := c
  obtain rfl : text = _ := head
  show Position.mk line (column + 1 + 1 - 2) (offset + 1 + 1 - 2) = _
  congr 1 <;> omega

theorem startsComment_of_atDirective (starts : atDirective ctx.policy.whitespace c = true) :
    startsComment ctx.policy.whitespace .directive c.rest = false := by
  obtain ⟨rest, head, starts⟩ := atDirective_iff.mp starts
  rw [head]
  simp [startsComment, detect?_of_startsDirective starts]

/-- Where a directive starts a datum is looked for: no closing bracket stands there. -/
theorem follows_of_atDirective (starts : atDirective ctx.policy.whitespace c = true) :
    c.rest.head?.any isCloser = false ∧ (c.atEnd || c.atCloser) = false := by
  obtain ⟨rest, head, -⟩ := atDirective_iff.mp starts
  simp [Cursor.atEnd, Cursor.atCloser, head, isCloser]

theorem Reads.clear_of_atDirective {t : ReaderState}
    (starts : atDirective ctx.policy.whitespace c = true) :
    Reads ctx (.atmosphere .directive) c t .nothing c t := by
  obtain ⟨rest, head, -⟩ := atDirective_iff.mp starts
  refine .clear ?_ (startsComment_of_atDirective starts)
  rw [head]
  exact (by decide : CodePoint.isBlank (.scalar '#') = false)

theorem Fails.nested {h : Cursor} (starts : atDirective ctx.policy.whitespace h = true)
    (opened : Position) (t : ReaderState) :
    Fails ctx opened (.here .directive) h t (ctx.complaint .nestedDirective h.position) t :=
  .refused (.nested rfl starts)

/-! ## 2. Where the first directive is handed over -/

/-- What is handed over along a run is handed over in its first part, or that part is quiet. -/
theorem handed_between {a b c more : List Directive} {first : Directive} (ab : a <+: b)
    (bc : b <+: c) (handed : c = a ++ first :: more) :
    (∃ more', b = a ++ first :: more') ∨ (b = a ∧ c = b ++ first :: more) := by
  obtain ⟨ds, rfl⟩ := ab
  cases ds with
  | nil =>
    rw [List.append_nil]
    exact .inr ⟨rfl, handed⟩
  | cons d ds =>
    obtain ⟨after, rfl⟩ := bc
    rw [List.append_assoc, List.append_cancel_left_eq, List.cons_append, List.cons.injEq] at handed
    obtain ⟨rfl, -⟩ := handed
    exact .inl ⟨ds, rfl⟩

/-- A directive that is handed over stands at or behind the start of the read. -/
theorem Reads.offset_le_handed (keeps : ctx.sink ≠ .discard) {task : Task} {s s' : ReaderState}
    {y : Yield} {first : Directive} {more : List Directive} (h : Reads ctx task c s y next s')
    (outside : task.isScan = false) (handed : s'.directives = s.directives ++ first :: more)
    (place : first.position = some p) : c.position.offset ≤ p.offset := by
  obtain ⟨ds, grown, -, scanned⟩ := h.recorded keeps outside
  rw [handed, List.append_cancel_left_eq] at grown
  subst grown
  obtain ⟨marker, last, t, t', ahead, starts, scan⟩ := scanned first (by simp)
  obtain ⟨rest, head, -⟩ := atDirective_iff.mp starts
  obtain ⟨datums, stop, -, rfl, -⟩ := Reader.returns_scanDirective.mp scan
  obtain rfl : (marker.advance 2).position.beforeMarker = p := Option.some.inj place
  rw [Cursor.position_beforeMarker head]
  exact ahead.offset_mono

/-! ## 3. Blocked runs -/

section

variable (ctx : Context) (fold : Bool) (loose enters : Prop) (p : Position)

/-- Inside a directive a marker at `p` is in the way: of the atmosphere from a place on, of the datum
there, or at the place itself. It is in the way of a datum only where `enters` holds. -/
inductive Stuck (k : Cursor) (t : ReaderState) : Prop
  | skip {t'} (raised : (Reader.skipAtmosphere ctx .directive k).Raises t
      (ctx.complaint .nestedDirective p) t') : Stuck k t
  | datum {t'} (entered : enters) (starts : StartsDatum k.rest)
      (raised : (Reader.readDatum ctx .directive k).Raises t (ctx.complaint .nestedDirective p) t') :
      Stuck k t
  | marker (here : k.position = p) (starts : atDirective ctx.policy.whitespace k = true) : Stuck k t

def Blocked (c : Cursor) (t : ReaderState) : Prop :=
  ∃ k t₁, Passage ctx fold loose p c t k t₁ ∧ Stuck ctx enters p k t₁

/-- What becomes of a datum that is looked for inside a directive on a run that is blocked. -/
inductive Halts (c : Cursor) (t : ReaderState) : Prop
  | skip {t'} (raised : (Reader.skipAtmosphere ctx .directive c).Raises t
      (ctx.complaint .nestedDirective p) t') : Halts c t
  /-- It is refused. -/
  | refused {h t₀ t'} (skipped : Reads ctx (.atmosphere .directive) c t .nothing h t₀)
      (here : (StartsDatum h.rest ∧ enters) ∨
        (h.position = p ∧ atDirective ctx.policy.whitespace h = true))
      (raised : (Reader.readDatum ctx .directive h).Raises t₀ (ctx.complaint .nestedDirective p) t') :
      Halts c t
  /-- One datum more is taken for it. -/
  | astray {h t₀ d k t₁} (astray : loose) (early : Early ctx fold p h)
      (skipped : Reads ctx (.atmosphere .directive) c t .nothing h t₀)
      (read : Reads ctx (.datum .directive) h t₀ (.datum d) k t₁)
      (rest : ∃ m t₂, Passage ctx fold loose p k t₁ m t₂ ∧ Stuck ctx enters p m t₂) : Halts c t

end

section Blocked

variable {enters : Prop} {t t₁ : ReaderState}

theorem Passage.blocked (h : Passage ctx fold loose p c t c₁ t₁)
    (blocked : Blocked ctx fold loose enters p c₁ t₁) : Blocked ctx fold loose enters p c t := by
  obtain ⟨k, t₂, others, stuck⟩ := blocked
  exact ⟨k, t₂, h.trans others, stuck⟩

theorem Blocked.mono {enters' : Prop} (h : Blocked ctx fold loose enters p c t)
    (weaker : enters → enters') : Blocked ctx fold loose enters' p c t := by
  obtain ⟨k, t₁, passage, stuck⟩ := h
  refine ⟨k, t₁, passage, ?_⟩
  cases stuck with
  | skip raised => exact .skip raised
  | datum entered starts raised => exact .datum (weaker entered) starts raised
  | marker here starts => exact .marker here starts

/-- In a list without a tail whatever stands there is taken for the next item. -/
theorem Blocked.refuses_items (h : Blocked ctx fold loose enters p c t) (opened : Position)
    (closer : CodePoint) (before : List Datum) :
    ∃ t', Fails ctx opened (.items .directive closer (before, none)) c t
      (ctx.complaint .nestedDirective p) t' := by
  obtain ⟨k, t₁, passage, stuck⟩ := h
  obtain ⟨more, -, list⟩ := passage.exists_items
  cases stuck with
  | @skip t' raised =>
    exact ⟨t', (list closer before).fails
      (.itemsSkip ((Reader.raises_skipAtmosphere opened).mp raised))⟩
  | @datum t' _ starts raised =>
    obtain ⟨x, rest, head, open_, no_dot⟩ := starts.exists_head
    exact ⟨t', (list closer before).fails (.itemDatum (.clear_of_startsDatum starts) head open_ no_dot
      ((Reader.raises_readDatum opened).mp raised))⟩
  | marker here starts =>
    subst here
    obtain ⟨rest, head, -⟩ := atDirective_iff.mp starts
    exact ⟨t₁, (list closer before).fails (.itemDatum (.clear_of_atDirective starts) head (by decide)
      (by simp) (.directive (.nested starts opened t₁)))⟩

theorem Blocked.halts (h : Blocked ctx fold loose enters p c t) :
    Halts ctx fold loose enters p c t := by
  obtain ⟨k, t₁, passage, stuck⟩ := h
  rcases passage.skips with others | ⟨astray, h, t₀, d, k₁, t₂, skip, early, read, rest⟩
  · cases stuck with
    | skip raised => exact .skip (others.raises raised)
    | datum entered starts raised =>
      exact .refused (Proceeds.atmosphere others (.clear_of_startsDatum starts)) (.inl ⟨starts, entered⟩)
        raised
    | marker here starts =>
      subst here
      exact .refused (Proceeds.atmosphere others (.clear_of_atDirective starts)) (.inr ⟨rfl, starts⟩)
        ((Reader.raises_readDatum k.position).mpr (.directive (.nested starts k.position t₁)))
  · exact .astray astray early skip read ⟨k, t₁, rest, stuck⟩

/-- Behind a tail no datum is looked for. -/
theorem Blocked.overruns (h : Blocked ctx fold loose loose p c t) :
    (∃ t', (Reader.skipAtmosphere ctx .directive c).Raises t (ctx.complaint .nestedDirective p) t') ∨
      Overruns ctx loose p c t := by
  cases h.halts with
  | skip raised => exact .inl ⟨_, raised⟩
  | refused skipped here _ =>
    rcases here with ⟨starts, entered⟩ | ⟨here, starts⟩
    · exact .inr ⟨_, _, skipped, starts.no_closer, .inr entered⟩
    · exact .inr ⟨_, _, skipped, (follows_of_atDirective starts).1, .inl here⟩
  | astray astray _ skipped read _ =>
    exact .inr ⟨_, _, skipped, read.startsDatum_here.no_closer, .inr astray⟩

theorem follows_of_refused {h : Cursor} (here : (StartsDatum h.rest ∧ enters) ∨
    (h.position = p ∧ atDirective ctx.policy.whitespace h = true)) :
    (h.atEnd || h.atCloser) = false := by
  rcases here with ⟨starts, -⟩ | ⟨-, starts⟩
  · exact starts.follows
  · exact (follows_of_atDirective starts).2

/-- A marker in a tail, or behind it in a comment, is in the way of the list. -/
theorem Blocked.refuses_tail {q : Cursor} {rest : Text} (h : Blocked ctx fold loose True p q.next t)
    (clear : Passable ctx fold loose c p) (ahead : c.LeadsTo q) (head : q.rest = .scalar '.' :: rest)
    (lone : Text.atDelimiter rest = true)
    (here : Reads ctx (.atmosphere .directive) q t .nothing q t) (same_fold : t.foldCase = fold)
    (opened : Position) (closer : CodePoint) {before : List Datum} (some_item : before ≠ []) :
    ∃ t', Fails ctx opened (.items .directive closer (before, none)) q t
      (ctx.complaint .nestedDirective p) t' := by
  cases h.halts with
  | @skip t' raised =>
    exact ⟨t', .dotSkip here head lone some_item ((Reader.raises_skipAtmosphere opened).mp raised)⟩
  | @refused _ _ t' skipped found raised =>
    exact ⟨t', .tail here head lone some_item skipped (follows_of_refused found)
      ((Reader.raises_readDatum opened).mp raised)⟩
  | @astray h t₀ d k t₁ astray _ skipped read blocked =>
    have closing := clear.not_overruns ahead head lone same_fold skipped read
    have behind : Blocked ctx fold loose loose p k t₁ := Blocked.mono blocked fun _ => astray
    obtain ⟨t', raised⟩ := behind.overruns.resolve_right closing
    exact ⟨t', (RestOfList.of_tail here head lone some_item skipped read).fails
      (.itemsSkip ((Reader.raises_skipAtmosphere opened).mp raised))⟩

/-- If the datum that is commented out is refused, so is the comment, or the datum is one datum more. -/
theorem Halts.of_datumComment {rest : Text} (h : Halts ctx fold loose enters p (c.advance 2) t)
    (head : c.rest = .scalar '#' :: .scalar ';' :: rest)
    (dangles : Dangles ctx t.foldCase c → loose) : Blocked ctx fold loose loose p c t := by
  have visible : c.rest.head?.any CodePoint.isBlank = false := by
    rw [head]
    exact (by decide : CodePoint.isBlank (.scalar '#') = false)
  -- a comment that fails is in the way of the atmosphere before it
  have fails {t'} (failed : Fails ctx c.position (.comment .directive) c t
      (ctx.complaint .nestedDirective p) t') : Blocked ctx fold loose loose p c t :=
    ⟨c, t, .nothing, .skip ((Reader.raises_skipAtmosphere c.position).mpr (.remarkSkip visible failed))⟩
  have dangling {k t₁} (line : Reads ctx (.intraline c.position.line) (c.advance 2) t .nothing k t₁)
      (ended : k.position.line ≠ c.position.line ∨ k.atLineEnd = true) : loose :=
    dangles ⟨⟨rest, head⟩, t, k, t₁, rfl, Reader.returns_skipIntraline.mpr line, ended⟩
  cases h with
  | skip raised =>
    have failed := (Reader.raises_skipAtmosphere c.position).mp raised
    rcases failed.intraline_of_atmosphere c.position.line with failed | ⟨k, t₁, line, failed, ended⟩
    · exact fails (.lineDatumSkip head failed)
    · exact ⟨k, t₁, .comment (.emptyComment head line ended) .nothing,
        .skip ((Reader.raises_skipAtmosphere c.position).mpr failed)⟩
  | refused skipped here raised =>
    obtain ⟨k, t₁, line, others, way⟩ := skipped.intraline_of_atmosphere c.position.line
    by_cases ended : k.position.line ≠ c.position.line ∨ k.atLineEnd = true
    · refine ⟨_, _, .comment (.emptyComment head line ended) (.of_atmosphere others), ?_⟩
      rcases here with ⟨starts, -⟩ | ⟨here, starts⟩
      · exact .datum (dangling line ended) starts raised
      · exact .marker here starts
    · obtain ⟨rfl, rfl⟩ := way.resolve_right ended
      obtain ⟨same, follows⟩ := not_or.mp ended
      exact fails (.lineDatumComment head line (by simpa using same) (by simpa using follows)
        ((Reader.raises_readDatum c.position).mp raised))
  | @astray h t₀ d k' t₁' astray early skipped read rest =>
    have blocked : Blocked ctx fold loose loose p k' t₁' := Blocked.mono rest fun _ => astray
    obtain ⟨k, t₁, line, others, way⟩ := skipped.intraline_of_atmosphere c.position.line
    by_cases ended : k.position.line ≠ c.position.line ∨ k.atLineEnd = true
    · exact Passage.blocked (.comment (.emptyComment head line ended)
        ((Passage.of_atmosphere others).trans (.datum astray early read .nothing))) blocked
    · obtain ⟨rfl, rfl⟩ := way.resolve_right ended
      obtain ⟨same, follows⟩ := not_or.mp ended
      exact Passage.blocked (.comment (.lineDatumComment head line (by simpa using same)
        (by simpa using follows) read) .nothing) blocked

end Blocked

/-! ## 4. Refused reads -/

/-- Where a task of code hands the directive at `p` over, a run inside a directive is blocked. Only a
datum that starts with an abbreviation mark may have ended before. -/
def Refused (ctx : Context) (fold : Bool) (loose : Prop) (p : Position) : Task → Cursor → Prop
  | .datum .code, c => ∀ t, t.foldCase = fold → Blocked ctx fold loose True p c t
  | .here .code, c => ∀ t, t.foldCase = fold →
      (∃ t', (Reader.readDatum ctx .directive c).Raises t (ctx.complaint .nestedDirective p) t') ∨
      loose ∧ (∃ h, Relation.TransGen (Marks ctx fold) c h ∧ EndsBy ctx p h) ∧
        ∃ d k t₁, Reads ctx (.datum .directive) c t (.datum d) k t₁ ∧
          Blocked ctx fold loose True p k t₁
  | .items .code closer parts, c => ∀ parts', parts.Alike loose parts' → ∀ opened t,
      t.foldCase = fold →
      (∃ t', Fails ctx opened (.items .directive closer parts') c t
        (ctx.complaint .nestedDirective p) t') ∨ (parts.2.isSome = true ∧ Overruns ctx loose p c t)
  | .atmosphere .code, c | .comment .code, c => ∀ t, t.foldCase = fold →
      Blocked ctx fold loose loose p c t
  | _, _ => True

theorem Reads.refused (keeps : ctx.sink ≠ .discard) {task : Task} {s s' : ReaderState} {y : Yield}
    {first : Directive} {more : List Directive} (h : Reads ctx task c s y next s')
    (handed : s'.directives = s.directives ++ first :: more) (place : first.position = some p)
    (clear : Passable ctx fold loose c p) : Refused ctx fold loose p task c := by
  -- by induction on the rules: what stands before the part that hands the first directive over is a
  -- run, and that part is refused
  induction h generalizing more with
  | @code c c₁ _ _ _ _ _ skipped read ih₁ ih₂ =>
    intro t same_fold
    rcases handed_between (skipped.directives_prefix keeps rfl) (read.directives_prefix keeps rfl)
      handed with ⟨more', handed₁⟩ | ⟨quiet, handed₂⟩
    · exact (ih₁ handed₁ clear t same_fold).mono fun _ => trivial
    · obtain ⟨t₁, passage⟩ := skipped.mirrored keeps quiet clear
        (read.offset_le_handed keeps rfl handed₂ place) t same_fold
      refine passage.blocked ?_
      rcases ih₂ handed₂ (clear.later (skipped.leadsTo keeps rfl quiet)) t₁
        (passage.foldCase.trans same_fold) with ⟨t', raised⟩ | ⟨astray, ⟨h, marks, ends⟩, d, k, t₂, datum, rest⟩
      · exact ⟨c₁, t₁, .nothing, .datum trivial read.startsDatum raised⟩
      · exact Passage.blocked (.datum astray ⟨h, marks.to_reflTransGen, ends⟩ datum .nothing) rest
  | @list mode c _ x _ _ _ _ head opener _ ih =>
    cases mode with
    | directive => trivial
    | code =>
      intro t same_fold
      have onward := clear.later (Cursor.Passes.opener head opener).leadsTo
      rcases ih handed onward _ (.refl loose _) c.position t same_fold with ⟨t', failed⟩ | ⟨tail, -⟩
      · exact .inl ⟨t', (Reader.raises_readDatum c.position).mpr (.directive (.list head opener failed))⟩
      · cases tail
  | @vector mode c _ _ _ _ _ head _ ih =>
    cases mode with
    | directive => trivial
    | code =>
      intro t same_fold
      have onward := clear.later (Cursor.Passes.vector head).leadsTo
      rcases ih handed onward _ (.refl loose _) (c.advance 1).position t same_fold with
        ⟨t', failed⟩ | ⟨tail, -⟩
      · exact .inl ⟨t', (Reader.raises_readDatum c.position).mpr (.directive (.vector head failed))⟩
      · cases tail
  | @bytevector mode c _ _ _ _ _ _ head _ _ ih =>
    cases mode with
    | directive => trivial
    | code =>
      intro t same_fold
      have onward := clear.later (Cursor.Passes.bytevector head).leadsTo
      rcases ih handed onward _ (.refl loose _) (c.advance 3).position t same_fold with
        ⟨t', failed⟩ | ⟨tail, -⟩
      · exact .inl ⟨t', (Reader.raises_readDatum c.position).mpr (.directive (.bytevector head failed))⟩
      · cases tail
  | @abbreviation mode c _ a _ _ _ _ _ mark skipped _ read ih₁ ih₂ =>
    cases mode with
    | directive => trivial
    | code =>
      intro t same_fold
      have onward := clear.later (Cursor.Passes.abbreviation mark).leadsTo
      -- the directive stands either before the datum that is quoted or in it
      have blocked : Blocked ctx fold loose True p (c.advance a.mark.length) t := by
        rcases handed_between (skipped.directives_prefix keeps rfl)
          (read.directives_prefix keeps rfl) handed with ⟨more', handed₁⟩ | ⟨quiet, handed₂⟩
        · exact (ih₁ handed₁ onward t same_fold).mono fun _ => trivial
        · obtain ⟨t₁, passage⟩ := skipped.mirrored keeps quiet onward
            (read.offset_le_handed keeps rfl handed₂ place) t same_fold
          exact passage.blocked (ih₂ handed₂ (onward.later (skipped.leadsTo keeps rfl quiet)) t₁
            (passage.foldCase.trans same_fold))
      cases blocked.halts with
      | skip raised =>
        exact .inl ⟨_, (Reader.raises_readDatum c.position).mpr
          (.directive (.abbreviationSkip mark ((Reader.raises_skipAtmosphere c.position).mp raised)))⟩
      | refused skip here raised =>
        exact .inl ⟨_, (Reader.raises_readDatum c.position).mpr (.directive
          (.abbreviation mark skip (follows_of_refused here)
            ((Reader.raises_readDatum c.position).mp raised)))⟩
      | @astray h t₀ d k t₁ astray early skip datum rest =>
        obtain ⟨h', marks, ends⟩ := early
        have first : Marks ctx fold c h :=
          ⟨a, t, t₀, mark, same_fold, Reader.returns_skipAtmosphere.mpr skip⟩
        exact .inr ⟨astray, ⟨h', .head' first marks, ends⟩, _, k, t₁,
          .directive (.abbreviation mark skip datum.startsDatum_here.follows datum), rest⟩
  | @close mode closer parts _ _ _ _ _ skipped head closes ih =>
    cases mode with
    | directive => trivial
    | code =>
      rintro ⟨items', tail'⟩ alike opened t same_fold
      have blocked := ih handed clear t same_fold
      cases tail' with
      | none => exact .inl (blocked.refuses_items opened closer items')
      | some tail =>
        rcases blocked.overruns with ⟨t', raised⟩ | overrun
        · exact .inl ⟨t', .itemsSkip ((Reader.raises_skipAtmosphere opened).mp raised)⟩
        · exact .inr ⟨alike.tail.symm, overrun⟩
  | @dot mode closer items c _ c₁ _ _ c₂ _ _ _ _ _ _ _ skipped head lone some_item skipped₂ _ read
      others ih₁ ih₂ ih₃ ih₄ =>
    cases mode with
    | directive => trivial
    | code =>
      rintro ⟨items', tail'⟩ alike opened t same_fold
      obtain rfl : tail' = none := by simpa using alike.tail
      have grows₂ := skipped₂.directives_prefix keeps rfl
      have grows₃ := read.directives_prefix keeps rfl
      have grows₄ := others.directives_prefix keeps rfl
      -- the directive stands before the dot, between it and the tail, in the tail or behind it
      rcases handed_between (skipped.directives_prefix keeps rfl)
        (grows₂.trans (grows₃.trans grows₄)) handed with ⟨more', handed₁⟩ | ⟨quiet₁, handed₁⟩
      · exact .inl ((ih₁ handed₁ clear t same_fold).refuses_items opened closer items')
      have leads := skipped.leadsTo keeps rfl quiet₁
      have onward := clear.later (leads.trans (Cursor.Passes.dot head lone).leadsTo)
      have ends₁ := c₁.reaches_next.offset_mono
      have ends₂ := skipped₂.reaches.offset_mono
      have ends₃ := read.reaches.offset_mono
      -- up to the dot there is a run, wherever the directive stands behind it
      have to_dot : c₁.next.position.offset ≤ p.offset → ∃ more t₁, (more = [] ∨ loose) ∧
          t₁.foldCase = fold ∧
          RestOfList ctx closer (items', none) c t (items' ++ more, none) c₁ t₁ := by
        intro behind
        obtain ⟨t₁, passage⟩ := skipped.mirrored keeps quiet₁ clear (by omega) t same_fold
        obtain ⟨more, astray, list⟩ := passage.exists_items
        exact ⟨more, t₁, astray, passage.foldCase.trans same_fold, list closer items'⟩
      rcases handed_between grows₂ (grows₃.trans grows₄) handed₁ with
        ⟨more', handed₂⟩ | ⟨quiet₂, handed₂⟩
      · obtain ⟨more, t₁, astray, fold₁, list⟩ :=
          to_dot (skipped₂.offset_le_handed keeps rfl handed₂ place)
        have blocked := (ih₂ handed₂ onward t₁ fold₁).mono fun _ => trivial
        obtain ⟨t', failed⟩ := blocked.refuses_tail clear leads head lone skipped.clear_in_directive
          fold₁ opened closer ((alike.append astray).some_item some_item)
        exact .inl ⟨t', list.fails failed⟩
      have further := onward.later (skipped₂.leadsTo keeps rfl quiet₂)
      rcases handed_between grows₃ grows₄ handed₂ with ⟨more', handed₃⟩ | ⟨quiet₃, handed₄⟩
      · have behind := read.offset_le_handed keeps rfl handed₃ place
        obtain ⟨more, t₁, astray, fold₁, list⟩ := to_dot (by omega)
        obtain ⟨t₂, passage⟩ := skipped₂.mirrored keeps quiet₂ onward behind t₁ fold₁
        have blocked := passage.blocked (ih₃ handed₃ further t₂ (passage.foldCase.trans fold₁))
        obtain ⟨t', failed⟩ := blocked.refuses_tail clear leads head lone skipped.clear_in_directive
          fold₁ opened closer ((alike.append astray).some_item some_item)
        exact .inl ⟨t', list.fails failed⟩
      · have behind := others.offset_le_handed keeps rfl handed₄ place
        obtain ⟨more, t₁, astray, fold₁, list⟩ := to_dot (by omega)
        obtain ⟨t₂, passage⟩ := skipped₂.mirrored keeps quiet₂ onward (by omega) t₁ fold₁
        have meets := passage.meets
          (read.mirrored keeps quiet₃ further behind t₂ (passage.foldCase.trans fold₁))
        obtain ⟨d', t₃, fold₃, closing, tail⟩ :=
          meets.exists_tail clear leads head lone skipped.clear_in_directive fold₁
        have alike' := alike.append astray
        rcases ih₄ handed₄ (further.later (read.leadsTo keeps rfl quiet₃)) _ (alike'.dotted d') opened t₃
          fold₃ with ⟨t', failed⟩ | ⟨-, overrun⟩
        · exact .inl ⟨t', list.fails ((tail closer _ (alike'.some_item some_item)).fails failed)⟩
        · exact absurd overrun closing
  | @item mode closer items c _ _ _ _ _ _ _ _ _ _ _ skipped _ _ _ read others ih₁ ih₂ ih₃ =>
    cases mode with
    | directive => trivial
    | code =>
      rintro ⟨items', tail'⟩ alike opened t same_fold
      obtain rfl : tail' = none := by simpa using alike.tail
      have grows₂ := read.directives_prefix keeps rfl
      have grows₃ := others.directives_prefix keeps rfl
      rcases handed_between (skipped.directives_prefix keeps rfl) (grows₂.trans grows₃) handed with
        ⟨more', handed₁⟩ | ⟨quiet₁, handed₁⟩
      · exact .inl ((ih₁ handed₁ clear t same_fold).refuses_items opened closer items')
      have onward := clear.later (skipped.leadsTo keeps rfl quiet₁)
      rcases handed_between grows₂ grows₃ handed₁ with ⟨more', handed₂⟩ | ⟨quiet₂, handed₃⟩
      · obtain ⟨t₁, passage⟩ := skipped.mirrored keeps quiet₁ clear
          (read.offset_le_handed keeps rfl handed₂ place) t same_fold
        have blocked := passage.blocked (ih₂ handed₂ onward t₁ (passage.foldCase.trans same_fold))
        exact .inl (blocked.refuses_items opened closer items')
      · have behind := others.offset_le_handed keeps rfl handed₃ place
        have ends := read.reaches.offset_mono
        obtain ⟨t₁, passage⟩ := skipped.mirrored keeps quiet₁ clear (by omega) t same_fold
        have meets := passage.meets
          (read.mirrored keeps quiet₂ onward behind t₁ (passage.foldCase.trans same_fold))
        obtain ⟨d', more, t₂, fold₂, same, astray, list⟩ := meets.exists_item
        rcases ih₃ handed₃ (onward.later (read.leadsTo keeps rfl quiet₂)) _
          ((alike.concat same).append astray) opened t₂ (fold₂.trans same_fold) with
          ⟨t', failed⟩ | ⟨tail, -⟩
        · exact .inl ⟨t', (list closer items').fails failed⟩
        · cases tail
  | @blank mode c _ _ _ _ _ head white _ ih =>
    cases mode with
    | directive => trivial
    | code =>
      intro t same_fold
      have onward := clear.later (Cursor.Passes.blank head white).leadsTo
      exact Passage.blocked (.blank head white .nothing) (ih handed onward t same_fold)
  | @remark mode _ _ _ _ _ _ _ skipped others ih₁ ih₂ =>
    cases mode with
    | directive => trivial
    | code =>
      intro t same_fold
      rcases handed_between (skipped.directives_prefix keeps rfl)
        (others.directives_prefix keeps rfl) handed with ⟨more', handed₁⟩ | ⟨quiet, handed₂⟩
      · exact ih₁ handed₁ clear t same_fold
      · obtain ⟨t₁, passage⟩ := skipped.mirrored keeps quiet clear
          (others.offset_le_handed keeps rfl handed₂ place) t same_fold
        exact passage.blocked (ih₂ handed₂ (clear.later (skipped.leadsTo keeps rfl quiet)) t₁
          (passage.foldCase.trans same_fold))
  | @datumComment c _ _ _ _ _ head read ih =>
    intro t same_fold
    have onward := clear.later (Cursor.Passes.datumComment head).leadsTo
    have moved : c.position.offset < p.offset := by
      have ahead := read.offset_le_handed keeps rfl handed place
      have shorter := Cursor.length_advance_lt (c := c) (n := 2) (by omega) (by simp [head])
      have := (Cursor.Reaches.refl c).offset_lt (c.reaches_advance 2) shorter
      omega
    exact (ih handed onward t same_fold).halts.of_datumComment head
      fun dangles => clear.dangling ⟨c, .refl c, moved, same_fold ▸ dangles⟩
  | @lineDirective c _ rest _ _ _ _ head _ starts scanned kept _ =>
    intro t _
    -- the first directive on record is this one, so the marker that is refused stands here
    have once := scanned.directives_of_kept keeps kept
    rw [handed, List.append_cancel_left_eq] at once
    obtain ⟨rfl, -⟩ := List.cons.inj once
    obtain rfl : (c.advance 2).position.beforeMarker = p := Option.some.inj place
    exact ⟨c, t, .nothing, .marker (Cursor.position_beforeMarker head).symm
      (atDirective_iff.mpr ⟨rest, head, starts⟩)⟩
  | flat | clear | lineComment | blockComment => simp at handed
  | @marker mode _ _ _ m head found => cases mode <;> simp at handed
  | directive | emptyComment | lineDatumComment | intralineBlank | intralineComment
  | crossingComment | intralineClear | lastDatum | crossingDatum | lineDatum => trivial

/-! ## 5. Data in both modes -/

/-- A list that holds no character, no dot and no bytevector has none of the obstacles. -/
theorem Unobstructed.of_plain (no_mark : abbreviation? c.rest = none)
    (plain : ∀ x ∈ c.rest, x ≠ .backslash ∧ x ≠ .scalar '.' ∧ x ≠ .scalar 'u') :
    Unobstructed ctx fold c p := by
  have seen {q : Cursor} (ahead : c.LeadsTo q) {x : CodePoint} (mem : x ∈ q.rest) :=
    plain x (ahead.reaches.rest_suffix.subset mem)
  have no_tail {q h : Cursor} (ahead : c.LeadsTo q) : ¬ TailLeadsTo ctx fold q h := by
    rintro ⟨⟨rest, head, -⟩, -⟩
    exact (seen ahead (x := .scalar '.') (by simp [head])).2.1 rfl
  refine ⟨fun _ => ⟨?_, ?_, ?_⟩, ?_, ?_⟩
  · intro h marks
    obtain ⟨h', ⟨a, s, s', mark, -⟩, -⟩ := Relation.TransGen.head'_iff.mp marks
    rw [no_mark] at mark
    cases mark
  · intro q rest t t' ahead _ head
    exact absurd rfl (seen ahead (x := .scalar 'u') (by simp [head])).2.2
  · exact fun q h ahead tail => absurd tail (no_tail ahead)
  · intro q rest ahead _ head
    exact absurd rfl (seen ahead (x := .backslash) (by simp [head])).1
  · exact fun q h ahead tail => absurd tail (no_tail ahead)

end LineDirective
