import LineDirective.Proofs.Carets

/-!
# What a run leaves behind

A stage goes on in silence, or it complains and ends the run with status 1, or a fault that it does not
expect ends the run. However it ends, the log and the error channel have only grown, every directory is
still there, and the only files that may be different are the report and the page.

From the stages this carries over to runs of them. Of a run that gets through all four the result is
known: the source file was read to its end, the report is faithful to it, and the report file holds the
document of that report.
-/

namespace LineDirective

/-! ## 1. Files -/

def Path.target (p : Path) : Place :=
  let root : Place := if p.root = [] then [] else [p.root]
  p.parts.foldl
    (fun here part => if part = Workspace.upward then Workspace.above root here else here ++ [part]) root

namespace Workspace

variable {w w' w'' : Workspace} {root here place : Place} {parts : List Text} {p q : Path}
  {content : List UInt8}

/-- A path leads to a file or to the name of one that is not there yet. -/
def Lookup.Names (place : Place) (l : Lookup) : Prop := l = .file place ∨ l = .free place

/-- What is named is the place where the parts lead. -/
theorem place_of_walk (named : (w.walk root here parts).Names place) :
    place = parts.foldl (fun here part => if part = upward then above root here else here ++ [part]) here := by
  unfold Lookup.Names at named
  fun_induction walk w root here parts with
  | case1 => simp at named
  | case2 here rest ih => simpa using ih named
  | case3 => simp at named
  | case4 here part rest down there _ _ ih => simpa [down] using ih named
  | case5 here part down there _ _ _ => simpa [down, eq_comm] using named
  | case6 => simp at named
  | case7 here part down there _ _ _ => simpa [down, eq_comm] using named
  | case8 => simp at named

theorem place_of_lookup (named : (w.lookup p).Names place) : place = p.target := by
  unfold lookup Lookup.Names at named
  dsimp only at named
  split at named
  · simp at named
  · exact place_of_walk named

/-- Where the directories are the same and the file is there now, it is found. -/
theorem walk_of_names (same : w'.directories = w.directories) (present : (w'.files.get? place).isSome)
    (named : (w.walk root here parts).Names place) : w'.walk root here parts = .file place := by
  unfold Lookup.Names at named
  fun_induction walk w root here parts with
  | case1 => simp at named
  | case2 here rest ih => simpa [walk] using ih named
  | case3 => simp at named
  | case4 here part rest down there short inside ih =>
    have inside' : w'.directories.contains (here ++ [part]) = true := same ▸ inside
    rw [walk]
    simpa only [down, short, inside', if_true, if_false] using ih named
  | case5 here part down there short outside _ | case7 here part down there short outside _ =>
    have outside' : ¬w'.directories.contains (here ++ [part]) = true := same ▸ outside
    obtain rfl : there = place := by simpa using named
    rw [walk]
    simp only [down, short, outside', if_true, if_false]
    exact if_pos present
  | case6 => simp at named
  | case8 => simp at named

theorem lookup_of_names (same : w'.directories = w.directories) (present : (w'.files.get? place).isSome)
    (named : (w.lookup p).Names place) : w'.lookup p = .file place := by
  unfold lookup Lookup.Names at named
  unfold lookup
  dsimp only at named ⊢
  split at named
  · simp at named
  · rename_i short
    rw [if_neg short]
    exact walk_of_names same present named

/-- Writing changes the file that the path leads to and nothing else. -/
theorem write_eq_ok (written : w.write p content = .ok w') :
    (w.lookup p).Names p.target ∧ w' = { w with files := w.files.insert p.target content } := by
  unfold write at written
  split at written
  · rename_i place found
    obtain rfl := place_of_lookup (.inl found)
    exact ⟨.inl found, (Except.ok.inj written).symm⟩
  · rename_i place found
    obtain rfl := place_of_lookup (.inr found)
    exact ⟨.inr found, (Except.ok.inj written).symm⟩
  · cases written
  · cases written

theorem read_of_names (same : w'.directories = w.directories)
    (there : w'.files.get? p.target = some content) (named : (w.lookup p).Names p.target) :
    w'.read p = .ok content := by
  have found := lookup_of_names same (by rw [there]; rfl) named
  unfold read
  rw [found]
  simp [there]

/-- What was written is read. -/
theorem read_of_write (written : w.write p content = .ok w') : w'.read p = .ok content := by
  obtain ⟨named, rfl⟩ := write_eq_ok written
  exact read_of_names (w := w) rfl (by simp [Table.get?_insert]) named

/-- What was written is read as long as nothing is written over it. -/
theorem read_of_write_of_write {other : List UInt8} (written : w.write p content = .ok w')
    (more : w'.write q other = .ok w'') (apart : q.target ≠ p.target) : w''.read p = .ok content := by
  obtain ⟨named, rfl⟩ := write_eq_ok written
  obtain ⟨-, rfl⟩ := write_eq_ok more
  exact read_of_names (w := w) rfl (by simp [Table.get?_insert, apart]) named

end Workspace

/-! ## 2. How an action ends -/

/-- What an action of a run leaves: nothing is taken back from the log and the error channel, every
directory is still there, and so is every file but those that may be written. -/
structure RunState.Grows (writable : Place → Prop) (st st' : RunState) : Prop where
  log : st.log <+: st'.log
  errors : st.errors <+: st'.errors
  directories : st.workspace.directories ⊆ st'.workspace.directories
  files : ∀ place, ¬ writable place →
    st'.workspace.files.get? place = st.workspace.files.get? place

namespace RunState

variable {writable : Place → Prop} {st st' st'' : RunState}

theorem Grows.refl : st.Grows writable st :=
  ⟨List.prefix_rfl, List.prefix_rfl, List.Subset.refl _, fun _ _ => rfl⟩

theorem Grows.of_log (log : List Message) (longer : st.log <+: log) :
    st.Grows writable { st with log } :=
  ⟨longer, List.prefix_rfl, List.Subset.refl _, fun _ _ => rfl⟩

theorem Grows.of_errors (errors : Text) (longer : st.errors <+: errors) :
    st.Grows writable { st with errors } :=
  ⟨List.prefix_rfl, longer, List.Subset.refl _, fun _ _ => rfl⟩

theorem Grows.of_report (report : Option Report) : st.Grows writable { st with report } :=
  ⟨List.prefix_rfl, List.prefix_rfl, List.Subset.refl _, fun _ _ => rfl⟩

theorem Grows.trans (h : st.Grows writable st') (h' : st'.Grows writable st'') : st.Grows writable st'' :=
  ⟨h.log.trans h'.log, h.errors.trans h'.errors, fun _ there => h'.directories (h.directories there),
    fun place kept => (h'.files place kept).trans (h.files place kept)⟩

/-- How an action ends that started with these errors: in silence, with a complaint and status 1, or with
a fault. -/
def Ends {α : Type} (errors : Text) : Except Stop α × RunState → Prop
  | (.ok _, st') => st'.errors = errors
  | (.error (.exit status), st') => status = 1 ∧ st'.errors ≠ errors
  | (.error _, _) => True

end RunState

namespace RunM

variable {α β : Type} {writable : Place → Prop} {st st' : RunState}

/-- The action ends in one of the three ways, and leaves the other files alone. -/
def Orderly (writable : Place → Prop) (m : RunM α) : Prop :=
  ∀ st, st.Grows writable (m.run.run st).2 ∧ RunState.Ends st.errors (m.run.run st)

theorem Orderly.mono {m : RunM α} {wider : Place → Prop} (h : m.Orderly writable)
    (more : ∀ place, writable place → wider place) : m.Orderly wider := fun st =>
  ⟨{ (h st).1 with files := fun place kept => (h st).1.files place fun may => kept (more place may) },
    (h st).2⟩

theorem orderly_of_returns {m : RunM α}
    (returns : ∀ st, ∃ a st', m.Returns st a st' ∧ st.Grows writable st' ∧ st'.errors = st.errors) :
    m.Orderly writable := by
  intro st
  obtain ⟨a, st', ran, grows, same⟩ := returns st
  rw [show m.run.run st = (.ok a, st') from ran]
  exact ⟨grows, same⟩

theorem orderly_pure (a : α) : (pure a : RunM α).Orderly writable :=
  orderly_of_returns fun st => ⟨a, st, rfl, .refl, rfl⟩

theorem orderly_get : (get : RunM RunState).Orderly writable :=
  orderly_of_returns fun st => ⟨st, st, rfl, .refl, rfl⟩

theorem orderly_log (level : Int) (text : Text) : (log level text).Orderly writable :=
  orderly_of_returns fun _ => ⟨(), _, rfl, .of_log _ (List.prefix_append _ _), rfl⟩

theorem orderly_fault (fault : Fault) : (throw (.fault fault) : RunM α).Orderly writable :=
  fun _ => ⟨.refl, trivial⟩

theorem orderly_storage (fault : StorageFault) (path : Path) :
    (throw (.storage fault path) : RunM α).Orderly writable :=
  fun _ => ⟨.refl, trivial⟩

/-- What follows need only be orderly where the first action lets it run. -/
theorem orderly_bind_of_returns {m : RunM α} {f : α → RunM β} (first : m.Orderly writable)
    (second : ∀ a st st', m.Returns st a st' → (f a).Orderly writable) : (m >>= f).Orderly writable := by
  intro st
  obtain ⟨grows, ends⟩ := first st
  rw [run_bind]
  obtain ⟨r, t, ran⟩ : ∃ r t, m.run.run st = (r, t) := ⟨_, _, rfl⟩
  rw [ran] at grows ends ⊢
  cases r with
  | ok a =>
    obtain ⟨grows', ends'⟩ := second a st t ran t
    have silent : t.errors = st.errors := ends
    exact ⟨grows.trans grows', silent ▸ ends'⟩
  | error stop =>
    refine ⟨grows, ?_⟩
    cases stop <;> exact ends

theorem orderly_bind {m : RunM α} {f : α → RunM β} (first : m.Orderly writable)
    (second : ∀ a, (f a).Orderly writable) : (m >>= f).Orderly writable :=
  orderly_bind_of_returns first fun a _ _ _ => second a

theorem orderly_liftFault (r : Except Fault α) : (liftFault r).Orderly writable := by
  cases r with
  | ok a => exact orderly_pure a
  | error fault => exact orderly_fault fault

theorem orderly_modify {f : RunState → RunState} (grows : ∀ st : RunState, st.Grows writable (f st))
    (silent : ∀ st, (f st).errors = st.errors) : (modify f : RunM Unit).Orderly writable :=
  orderly_of_returns fun st => ⟨(), f st, rfl, grows st, silent st⟩

/-- Ending the run after a complaint. -/
theorem orderly_exit {m : RunM Unit} {last : Unit → RunM α}
    (complains : ∀ st, ∃ st', m.Returns st () st' ∧ st.Grows writable st' ∧ st'.errors ≠ st.errors)
    (exits : ∀ st, ∃ st', (last ()).run.run st = (.error (.exit 1), st') ∧ st.Grows writable st' ∧
      st'.errors = st.errors) : (m >>= last).Orderly writable := by
  intro st
  obtain ⟨t, printed, grows, longer⟩ := complains st
  obtain ⟨st', ended, grows', same⟩ := exits t
  rw [run_bind, show m.run.run st = (.ok (), t) from printed]
  dsimp only
  rw [ended]
  exact ⟨grows.trans grows', rfl, same ▸ longer⟩

theorem exits_throw (st : RunState) :
    ∃ st', (throw (.exit 1) : RunM α).run.run st = (.error (.exit 1), st') ∧ st.Grows writable st' ∧
      st'.errors = st.errors := ⟨st, rfl, .refl, rfl⟩

theorem orderly_abort (line : Text) : (abort line : RunM α).Orderly writable :=
  orderly_exit (fun st => ⟨_, Stage.returns_complain line st, .of_errors _ (by simp), by simp⟩)
    exits_throw

theorem not_returns_abort {line : Text} {a : α} : ¬ (abort line : RunM α).Returns st a st' := nofun

end RunM

namespace Stage

variable {writable : Place → Prop} {ctx : RunContext} {p : Progress} {layout : Layout}

theorem orderly_logEach (events : Array Event) :
    RunM.Orderly writable (forIn events PUnit.unit fun event _ => do
        RunM.log event.level event.message
        pure (.yield PUnit.unit)) := by
  refine RunM.orderly_of_returns fun st => ?_
  have logged := returns_logEach events.toList st
  rw [Array.forIn_toList] at logged
  exact ⟨_, _, logged, .of_log _ (List.prefix_append _ _), rfl⟩

theorem complainAbout_complains (src : Source) (e : ReadError) (st : RunState) :
    ∃ st', (complainAbout src e).Returns st () st' ∧ st.Grows writable st' ∧ st'.errors ≠ st.errors := by
  refine ⟨_, returns_complainAbout src e st, .of_errors _ (List.prefix_append _ _), ?_⟩
  simp [linesFor]

theorem orderly_checkEnvironment : (runCheckEnvironment ctx p).Orderly writable := by
  have makes (w : Place) : (modify fun s : RunState =>
      { s with workspace := s.workspace.makeDirectories w } : RunM Unit).Orderly writable := by
    refine RunM.orderly_modify (fun st => ⟨List.prefix_rfl, List.prefix_rfl, ?_, fun _ _ => rfl⟩) fun _ => rfl
    intro d there
    simp [Workspace.makeDirectories, there]
  unfold runCheckEnvironment
  refine RunM.orderly_bind (RunM.orderly_log _ _) fun _ => ?_
  refine RunM.orderly_bind RunM.orderly_get fun s => ?_
  split
  · refine RunM.orderly_bind (RunM.orderly_log _ _) fun _ => ?_
    refine RunM.orderly_bind (makes _) fun _ => ?_
    exact RunM.orderly_bind (RunM.orderly_log _ _) fun _ => RunM.orderly_pure _
  · exact RunM.orderly_bind_of_returns (RunM.orderly_abort _) fun _ _ _ ran =>
      (RunM.not_returns_abort ran).elim
  · exact RunM.orderly_bind_of_returns (RunM.orderly_storage _ _) fun _ _ _ ran =>
      (RunM.not_returns_throw ran).elim

theorem orderly_readSource : (runReadSource ctx p).Orderly writable := by
  unfold runReadSource
  refine RunM.orderly_bind (RunM.orderly_log _ _) fun _ => ?_
  refine RunM.orderly_bind (RunM.orderly_log _ _) fun _ => ?_
  refine RunM.orderly_bind RunM.orderly_get fun s => ?_
  split
  · exact RunM.orderly_abort _
  · refine RunM.orderly_bind (RunM.orderly_log _ _) fun _ => ?_
    refine RunM.orderly_bind (orderly_logEach _) fun _ => ?_
    split
    · exact RunM.orderly_fault _
    · refine RunM.orderly_exit (complainAbout_complains _ _) fun st => ?_
      split
      · exact ⟨_, rfl, ⟨List.prefix_rfl, List.prefix_rfl, List.Subset.refl _, fun _ _ => rfl⟩, rfl⟩
      · exact RunM.exits_throw st
    · exact RunM.orderly_bind (RunM.orderly_log _ _) fun _ => RunM.orderly_pure _

/-- A text is not written because its path names nothing, or it is written and that is logged, or the
workspace refuses it and that is complained about. -/
theorem store_cases (path : Path) (text : Text) (st : RunState) :
    (∃ fault, (store path text).run.run st = (.error (.fault fault), st)) ∨
    (∃ w, st.workspace.write path (Utf8.encode text) = .ok w ∧ (store path text).run.run st =
      (.ok (), { st with workspace := w, log := st.log ++ [⟨"Wrote " ++ path.text, 2⟩] })) ∨
    ∃ line : Text, (store path text).run.run st =
      (.error (.exit 1), { st with errors := st.errors ++ line ++ [.lineFeed] }) := by
  unfold store
  cases path.nameFault? with
  | some fault => exact .inl ⟨fault, rfl⟩
  | none =>
    refine .inr ?_
    have looked : (get : RunM RunState).run.run st = (.ok st, st) := rfl
    cases written : st.workspace.write path (Utf8.encode text) with
    | ok w =>
      refine .inl ⟨w, rfl, ?_⟩
      simp only [RunM.run_bind, looked, written]
      rfl
    | error fault =>
      refine .inr ⟨"Error writing report: " ++ fault.message path, ?_⟩
      simp only [RunM.run_bind, looked, written]
      rfl

theorem orderly_store {path : Path} {text : Text} (allowed : writable path.target) :
    (store path text).Orderly writable := by
  intro st
  rcases store_cases path text st with ⟨fault, ran⟩ | ⟨w, written, ran⟩ | ⟨line, ran⟩
  · rw [ran]
    exact ⟨.refl, trivial⟩
  · rw [ran]
    obtain ⟨-, rfl⟩ := Workspace.write_eq_ok written
    refine ⟨⟨List.prefix_append _ _, List.prefix_rfl, List.Subset.refl _, ?_⟩, rfl⟩
    intro place kept
    have apart : path.target ≠ place := fun same => kept (same ▸ allowed)
    simp [Table.get?_insert, apart]
  · rw [ran]
    exact ⟨.of_errors _ (by simp), rfl, by simp⟩

theorem orderly_writeReport (allowed : ∀ settings, p.settings = some settings →
      writable (p.outputDirectory.join (.ofText settings.reportFile)).target ∧
      writable (p.outputDirectory.join (.ofText settings.highlightFile)).target) :
    (runWriteReport layout ctx p).Orderly writable := by
  unfold runWriteReport
  split
  · refine RunM.orderly_bind (RunM.orderly_log _ _) fun _ => ?_
    split
    · exact RunM.orderly_fault _
    · rename_i settings known
      refine RunM.orderly_bind (RunM.orderly_liftFault _) fun report => ?_
      refine RunM.orderly_bind (orderly_store (allowed _ known).1) fun _ => ?_
      refine RunM.orderly_bind (RunM.orderly_modify (fun _ => .of_report _) fun _ => rfl) fun _ => ?_
      dsimp only
      split
      · exact RunM.orderly_bind (orderly_store (allowed _ known).2) fun _ => RunM.orderly_pure _
      · exact RunM.orderly_pure _
  · exact RunM.orderly_abort _

theorem orderly_showResults : (runShowResults p).Orderly writable := by
  unfold runShowResults
  split
  · exact RunM.orderly_abort _
  · exact RunM.orderly_abort _
  · rename_i o _ _
    dsimp only
    refine RunM.orderly_bind (RunM.orderly_log _ _) fun _ => ?_
    refine RunM.orderly_bind (RunM.orderly_liftFault _) fun _ => ?_
    refine RunM.orderly_bind (RunM.orderly_log _ _) fun _ => ?_
    refine RunM.orderly_bind (RunM.orderly_liftFault _) fun _ => ?_
    have counts : RunM.Orderly writable (do
        RunM.log 1 ("  Directives: " ++ (← RunM.liftFault (o.entry "directive_count")).display)
        RunM.log 1 ("  Forms: " ++ (← RunM.liftFault (o.entry "form_count")).display)
        return p) := by
      refine RunM.orderly_bind (RunM.orderly_liftFault _) fun _ => ?_
      refine RunM.orderly_bind (RunM.orderly_log _ _) fun _ => ?_
      refine RunM.orderly_bind (RunM.orderly_liftFault _) fun _ => ?_
      exact RunM.orderly_bind (RunM.orderly_log _ _) fun _ => RunM.orderly_pure _
    split
    · exact RunM.orderly_bind (RunM.orderly_log _ _) fun _ => counts
    · exact counts

end Stage

/-! ## 3. What a stage adds when it goes on -/

namespace RunContext

def sourcePath (ctx : RunContext) : Path := ctx.inputDirectory.join (.ofText ctx.options.inputFile)

end RunContext

namespace Stage

variable {ctx : RunContext} {layout : Layout} {p p' : Progress} {st st' : RunState}

theorem returns_checkEnvironment (ran : (runCheckEnvironment ctx p).Returns st p' st') :
    st.workspace.isFile ctx.sourcePath = .ok true ∧
      p' = { p with
        sourceFile := ctx.sourcePath, outputDirectory := ctx.outputDirectory, environmentOk := true } ∧
      st'.workspace = st.workspace.makeDirectories ctx.outputDirectory.place := by
  unfold runCheckEnvironment at ran
  obtain ⟨_, _, ⟨⟩, ran⟩ := RunM.exists_of_returns_bind ran
  obtain ⟨s, _, ⟨⟩, ran⟩ := RunM.exists_of_returns_bind ran
  split at ran
  · rename_i present
    obtain ⟨_, _, ⟨⟩, ran⟩ := RunM.exists_of_returns_bind ran
    obtain ⟨_, _, ⟨⟩, ran⟩ := RunM.exists_of_returns_bind ran
    obtain ⟨_, _, ⟨⟩, ran⟩ := RunM.exists_of_returns_bind ran
    cases ran
    exact ⟨present, rfl, rfl⟩
  · obtain ⟨_, _, aborted, -⟩ := RunM.exists_of_returns_bind ran
    exact (RunM.not_returns_abort aborted).elim
  · obtain ⟨_, _, thrown, -⟩ := RunM.exists_of_returns_bind ran
    exact (RunM.not_returns_throw thrown).elim

theorem returns_liftFault {α : Type} {r : Except Fault α} {a : α}
    (ran : (RunM.liftFault r).Returns st a st') : r = .ok a ∧ st' = st := by
  cases r with
  | ok b =>
    cases ran
    exact ⟨rfl, rfl⟩
  | error fault => exact (RunM.not_returns_throw ran).elim

theorem returns_store {path : Path} {text : Text} {u : Unit} (ran : (store path text).Returns st u st') :
    st.workspace.write path (Utf8.encode text) = .ok st'.workspace ∧ st'.report = st.report := by
  unfold RunM.Returns at ran
  rcases store_cases path text st with ⟨fault, failed⟩ | ⟨w, written, done⟩ | ⟨line, failed⟩
  · rw [failed] at ran
    cases ran
  · rw [done] at ran
    cases ran
    exact ⟨written, rfl⟩
  · rw [failed] at ran
    cases ran

/-- The page is written after the report, if it is wanted. -/
def PageWritten (layout : Layout) (ctx : RunContext) (p : Progress) (path : Path) (w w' : Workspace) : Prop :=
  if ctx.options.highlight then
    w.write path (Utf8.encode (layout.page Highlight.token? p.sourceFile.name p.sourceText)) = .ok w'
  else w' = w

theorem returns_writeReport (ran : (runWriteReport layout ctx p).Returns st p' st') :
    ∃ forms directives settings report w, p.forms = some forms ∧ p.directives = some directives ∧
      p.settings = some settings ∧
      Report.build p.sourceFile.text settings.policy forms.length (directives.map Prod.fst) = .ok report ∧
      let reportPath := p.outputDirectory.join (.ofText settings.reportFile)
      let pagePath := p.outputDirectory.join (.ofText settings.highlightFile)
      st.workspace.write reportPath (Utf8.encode (layout.document report.toValue)) = .ok w ∧
      PageWritten layout ctx p pagePath w st'.workspace ∧
      st'.report = some report ∧
      p' = { p with
        outcome := some (Outcome.written reportPath.text
          (if ctx.options.highlight then some pagePath.text else none)
          report.entries.length report.forms) } := by
  unfold runWriteReport at ran
  split at ran
  · rename_i forms directives formed recorded
    obtain ⟨_, _, ⟨⟩, ran⟩ := RunM.exists_of_returns_bind ran
    split at ran
    · exact (RunM.not_returns_throw ran).elim
    · rename_i settings known
      obtain ⟨report, _, lifted, ran⟩ := RunM.exists_of_returns_bind ran
      obtain ⟨built, rfl⟩ := returns_liftFault lifted
      obtain ⟨_, t, stored, ran⟩ := RunM.exists_of_returns_bind ran
      obtain ⟨written, -⟩ := returns_store stored
      obtain ⟨_, _, ⟨⟩, ran⟩ := RunM.exists_of_returns_bind ran
      refine ⟨forms, directives, settings, report, t.workspace, formed, recorded, known, built, written, ?_⟩
      unfold PageWritten
      dsimp only at ran
      split at ran
      · rename_i wanted
        obtain ⟨_, t', paged, ran⟩ := RunM.exists_of_returns_bind ran
        obtain ⟨page, same⟩ := returns_store paged
        cases ran
        rw [if_pos wanted, if_pos wanted]
        exact ⟨page, same, rfl⟩
      · rename_i unwanted
        cases ran
        rw [if_neg unwanted, if_neg unwanted]
        exact ⟨rfl, rfl, rfl⟩
  · exact (RunM.not_returns_abort ran).elim

def summary (reportFile page directives forms : Value) : List Message :=
  [⟨"\n✓ Report written", 1⟩, ⟨"  Report: " ++ reportFile.display, 1⟩] ++
    (if page.holds then [⟨"  Source: " ++ page.display, 1⟩] else []) ++
    [⟨"  Directives: " ++ directives.display, 1⟩, ⟨"  Forms: " ++ forms.display, 1⟩]

theorem returns_counts {o : Outcome} (ran : RunM.Returns (do
      RunM.log 1 ("  Directives: " ++ (← RunM.liftFault (o.entry "directive_count")).display)
      RunM.log 1 ("  Forms: " ++ (← RunM.liftFault (o.entry "form_count")).display)
      return p) st p' st') :
    ∃ directives forms, o.entry "directive_count" = .ok directives ∧ o.entry "form_count" = .ok forms ∧
      p' = p ∧ st' = { st with
        log := st.log ++ [⟨"  Directives: " ++ directives.display, 1⟩] ++
          [⟨"  Forms: " ++ forms.display, 1⟩] } := by
  obtain ⟨directives, _, lifted, counted⟩ := RunM.exists_of_returns_bind ran
  obtain ⟨directive_count, rfl⟩ := returns_liftFault lifted
  obtain ⟨_, _, ⟨⟩, counted⟩ := RunM.exists_of_returns_bind counted
  obtain ⟨forms, _, lifted, counted⟩ := RunM.exists_of_returns_bind counted
  obtain ⟨form_count, rfl⟩ := returns_liftFault lifted
  obtain ⟨_, _, ⟨⟩, done⟩ := RunM.exists_of_returns_bind counted
  cases done
  exact ⟨directives, forms, directive_count, form_count, rfl, rfl⟩

theorem returns_showResults (ran : (runShowResults p).Returns st p' st') :
    ∃ o reportFile page directives forms, p.outcome = some o ∧
      o.entry "report_file" = .ok reportFile ∧ o.entry "highlight_file" = .ok page ∧
      o.entry "directive_count" = .ok directives ∧ o.entry "form_count" = .ok forms ∧ p' = p ∧
      st' = { st with log := st.log ++ summary reportFile page directives forms } := by
  unfold runShowResults at ran
  split at ran
  · exact (RunM.not_returns_abort ran).elim
  · exact (RunM.not_returns_abort ran).elim
  · rename_i o _ known
    dsimp only at ran
    obtain ⟨_, _, ⟨⟩, ran⟩ := RunM.exists_of_returns_bind ran
    obtain ⟨reportFile, _, lifted, ran⟩ := RunM.exists_of_returns_bind ran
    obtain ⟨report_file, rfl⟩ := returns_liftFault lifted
    obtain ⟨_, _, ⟨⟩, ran⟩ := RunM.exists_of_returns_bind ran
    obtain ⟨page, _, lifted, ran⟩ := RunM.exists_of_returns_bind ran
    obtain ⟨highlight_file, rfl⟩ := returns_liftFault lifted
    unfold summary
    split at ran
    · rename_i named
      obtain ⟨_, _, ⟨⟩, ran⟩ := RunM.exists_of_returns_bind ran
      obtain ⟨directives, forms, directive_count, form_count, rfl, rfl⟩ := returns_counts ran
      exact ⟨o, reportFile, page, directives, forms, known, report_file, highlight_file, directive_count,
        form_count, rfl, by simp [named]⟩
    · rename_i unnamed
      obtain ⟨directives, forms, directive_count, form_count, rfl, rfl⟩ := returns_counts ran
      exact ⟨o, reportFile, page, directives, forms, known, report_file, highlight_file, directive_count,
        form_count, rfl, by simp [unnamed]⟩

end Stage

theorem Report.forms_of_build {source : Text} {policy : Policy} {forms : Nat} {directives : List Directive}
    {report : Report} (built : build source policy forms directives = .ok report) :
    report.forms = forms := by
  obtain ⟨entries, -, packed⟩ := bind_eq_ok.mp built
  obtain rfl := Except.ok.inj packed
  rfl

/-! ## 4. Runs -/

namespace Stage

variable {ctx : RunContext} {layout : Layout} {p p' : Progress} {st st' : RunState}

theorem returns_runAll_cons {stage : Stage} {rest : List Stage}
    (ran : (runAll layout ctx (stage :: rest) p).Returns st p' st') :
    ∃ q t, (stage.run layout ctx p).Returns st q t ∧ (runAll layout ctx rest q).Returns t p' st' :=
  RunM.exists_of_returns_bind ran

/-- The files that a run from here on may write: reports and pages under the names of the settings, in
an output directory. -/
def Writable (ctx : RunContext) (p : Progress) (place : Place) : Prop :=
  ∃ d settings, (d = p.outputDirectory ∨ d = ctx.outputDirectory) ∧
    (p.settings = some settings ∨ settings = ctx.settings) ∧
    (place = (d.join (.ofText settings.reportFile)).target ∨
      place = (d.join (.ofText settings.highlightFile)).target)

/-- A stage writes no more than may be written. -/
theorem orderly_run (stage : Stage) : (stage.run layout ctx p).Orderly (Writable ctx p) := by
  cases stage with
  | checkEnvironment => exact orderly_checkEnvironment
  | readSource => exact orderly_readSource
  | writeReport =>
    refine orderly_writeReport fun settings known => ⟨?_, ?_⟩
    · exact ⟨_, settings, .inl rfl, .inl known, .inl rfl⟩
    · exact ⟨_, settings, .inl rfl, .inl known, .inr rfl⟩
  | showResults => exact orderly_showResults

theorem Writable.of_run {stage : Stage} {place : Place}
    (ran : (stage.run layout ctx p).Returns st p' st') (after : Writable ctx p' place) :
    Writable ctx p place := by
  obtain ⟨d, settings, directory, known, named⟩ := after
  cases stage with
  | checkEnvironment =>
    obtain ⟨-, rfl, -⟩ := returns_checkEnvironment ran
    exact ⟨d, settings, .inr (directory.elim id id), known, named⟩
  | readSource =>
    obtain ⟨text, -, -, rfl, -⟩ := returns_readSource ran
    rcases known with known | known
    · obtain rfl := Option.some.inj known
      exact ⟨d, ctx.settings, directory, .inr rfl, named⟩
    · exact ⟨d, settings, directory, .inr known, named⟩
  | writeReport =>
    obtain ⟨_, _, _, _, _, -, -, -, -, -, -, -, rfl⟩ := returns_writeReport ran
    exact ⟨d, settings, directory, known, named⟩
  | showResults =>
    obtain ⟨_, _, _, _, _, -, -, -, -, -, rfl, -⟩ := returns_showResults ran
    exact ⟨d, settings, directory, known, named⟩

/-- However a run ends, it has grown what was there before in an orderly way. -/
theorem orderly_runAll (stages : List Stage) :
    (runAll layout ctx stages p).Orderly (Writable ctx p) := by
  induction stages generalizing p with
  | nil => exact RunM.orderly_pure p
  | cons stage rest ih =>
    refine RunM.orderly_bind_of_returns (orderly_run stage) fun q st t ran => ?_
    exact (ih (p := q)).mono fun place => Writable.of_run ran

/-- The files of a whole run that are not the report and not the page are left as they were, however it
ends. -/
theorem files_of_whole {place : Place}
    (report : place ≠ (ctx.outputDirectory.join (.ofText ctx.settings.reportFile)).target)
    (page : place ≠ (ctx.outputDirectory.join (.ofText ctx.settings.highlightFile)).target) :
    ((runAll layout ctx whole {}).run.run st).2.workspace.files.get? place =
      st.workspace.files.get? place := by
  have first : (runCheckEnvironment ctx {}).Orderly fun _ => False := orderly_checkEnvironment
  have all : (runAll layout ctx whole {}).Orderly fun other => other ≠ place := by
    refine RunM.orderly_bind_of_returns (first.mono fun _ => False.elim) fun p st st' ran => ?_
    obtain ⟨-, rfl, -⟩ := returns_checkEnvironment ran
    refine (orderly_runAll _).mono ?_
    rintro _ ⟨d, settings, rfl | rfl, ⟨⟨⟩⟩ | rfl, rfl | rfl⟩
    · exact report.symm
    · exact page.symm
    · exact report.symm
    · exact page.symm
  exact (all st).1.files place fun other => other rfl

/-- A whole run that gets through has read the source file to its end. The report it made is faithful to
that file, and unless the page went to the same place, the report file holds its document. The run has
printed nothing on the error channel, and its last words are where the files are and how many directives
and data there were. -/
theorem returns_whole (ran : (runAll layout ctx whole {}).Returns st p' st') :
    ∃ text report before,
      let src : Source := ⟨text, some ctx.sourcePath.name⟩
      let settings := effectiveSettings ctx.settings ctx.options
      let forms := (src.session settings.policy settings.foldCase).forms
      let reportPath := ctx.outputDirectory.join (.ofText ctx.settings.reportFile)
      let pagePath := ctx.outputDirectory.join (.ofText ctx.settings.highlightFile)
      let page : Value := if ctx.options.highlight then .text pagePath.text else .nothing
      fileText (st.workspace.makeDirectories ctx.outputDirectory.place) ctx.sourcePath = .ok text ∧
      forms.1.failure = none ∧
      Report.build ctx.sourcePath.text settings.policy forms.1.data.length
        (forms.2.log.map Prod.fst) = .ok report ∧
      report.Faithful src forms.1.data forms.2.log ∧
      ((ctx.options.highlight = true → pagePath.target ≠ reportPath.target) →
        st'.workspace.read reportPath = .ok (Utf8.encode (layout.document report.toValue))) ∧
      st'.errors = st.errors ∧
      st'.log = before ++ summary (.text reportPath.text) page
        (.integer forms.2.log.length) (.integer forms.1.data.length) := by
  have silent : st'.errors = st.errors := by
    have orderly : (runAll layout ctx whole {}).Orderly (Writable ctx {}) := orderly_runAll whole
    have ends := (orderly st).2
    rwa [show (runAll layout ctx whole {}).run.run st = (.ok p', st') from ran] at ends
  -- the four stages one after another, each with what it adds to the progress
  obtain ⟨p₁, st₁, found, ran⟩ := returns_runAll_cons ran
  obtain ⟨p₂, st₂, read, ran⟩ := returns_runAll_cons ran
  obtain ⟨p₃, st₃, wrote, ran⟩ := returns_runAll_cons ran
  obtain ⟨p₄, st₄, told, done⟩ := returns_runAll_cons ran
  cases done
  obtain ⟨-, rfl, workspace₁⟩ := returns_checkEnvironment found
  obtain ⟨text, text_read, succeeds, rfl, workspace₂⟩ := returns_readSource read
  dsimp only [run] at wrote told
  obtain ⟨_, _, _, report, w, ⟨⟩, ⟨⟩, ⟨⟩, built, report_written, page_written, -, rfl⟩ :=
    returns_writeReport wrote
  obtain ⟨_, _, _, _, _, ⟨⟩, ⟨⟩, ⟨⟩, ⟨⟩, ⟨⟩, -, rfl⟩ := returns_showResults told
  rw [workspace₁] at text_read
  have faithful := Report.faithful_of_forms rfl succeeds built
  refine ⟨text, report, st₃.log, text_read, succeeds, built, faithful, fun apart => ?_, silent, ?_⟩
  · -- the page is written after the report, and must not go over it
    unfold PageWritten at page_written
    split at page_written
    · rename_i wanted
      exact Workspace.read_of_write_of_write report_written page_written (apart wanted)
    · rw [page_written]
      exact Workspace.read_of_write report_written
  · have directives : report.entries.length = _ := faithful.entries.length_eq.symm
    have data : report.forms = _ := Report.forms_of_build built
    dsimp only
    rw [directives, data]
    split <;> rfl

end Stage

end LineDirective
