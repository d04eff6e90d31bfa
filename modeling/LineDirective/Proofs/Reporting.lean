import LineDirective.Proofs.Concatenation
import LineDirective.Proofs.DirectiveLog
import LineDirective.Proofs.DirectiveRoundTrip
import LineDirective.Proofs.Lines
import LineDirective.Run.Pipeline

/-!
# What a report says

A report is put together from the record of a session: the directives are written again, classified by
a registry of its own, and their places are those that the reader counted. Here the report is compared
with the source. Every directive on record has its entry, in order; its marker stands at the place that
the entry gives; its text is read back as the same data; and what a handler extracts never takes the
place of what the report says itself, since the handlers have names of their own for it.
-/

namespace LineDirective

/-! ## 1. Details -/

/-- The names of the details that the handlers of the standard registry extract. -/
def detailNames : List Text := ["interpreter", "arguments", "launcher", "variables", "options"]

/-- Details under different names, all of them among those of the standard registry. -/
def Details.Standard (details : Details) : Prop :=
  details.keys.Nodup ∧ ∀ key ∈ details.keys, key ∈ detailNames

theorem Details.Standard.of_keys {details : Details} (names : List Text) (keys : details.keys = names)
    (standard : names.Nodup ∧ ∀ name ∈ names, name ∈ detailNames) : details.Standard := by
  unfold Details.Standard
  rw [keys]
  exact standard

theorem Shebang.standard_details {d : Directive} {details : Details}
    (extracted : Shebang.details d = .ok details) : details.Standard := by
  obtain ⟨words, -, named⟩ := bind_eq_ok.mp extracted
  split at named
  · cases named
  · split at named
    · cases named
      exact .of_keys ["interpreter", "arguments"] rfl (by decide)
    · split at named
      · cases named
        exact .of_keys ["launcher", "interpreter", "arguments"] rfl (by decide)
      · cases named
        exact .of_keys ["interpreter", "arguments"] rfl (by decide)

theorem Emacs.standard_details {d : Directive} {details : Details}
    (extracted : Emacs.details d = .ok details) : details.Standard := by
  obtain ⟨words, -, named⟩ := bind_eq_ok.mp extracted
  split at named
  · cases named
  · cases named
    exact .of_keys ["variables"] rfl (by decide)

theorem Vim.standard_details {d : Directive} {details : Details}
    (extracted : Vim.details d = .ok details) : details.Standard := by
  obtain ⟨options, -, named⟩ := bind_eq_ok.mp extracted
  cases named
  exact .of_keys ["options"] rfl (by decide)

def Spec.classification (known : Option Spec) : Text × Category :=
  known.elim ("generic", .generic) fun spec => (spec.name, spec.category)

namespace Registry

theorem mem_all_of_find? {r : Registry} {d : Directive} {spec : Spec} (found : r.find? d = some spec) :
    spec ∈ r.all := by
  obtain ⟨name, -, chosen⟩ := Option.bind_eq_some_iff.mp found
  rcases Option.or_eq_some_iff.mp chosen with by_key | ⟨-, by_lead⟩
  · exact List.mem_of_find?_eq_some by_key
  · exact List.mem_of_find?_eq_some by_lead

/-- What the handlers of the standard registry extract goes by other names than a report uses. -/
theorem standard_details {spec : Spec} {d : Directive} {details : Details} (known : spec ∈ standard.all)
    (extracted : spec.handler d = .ok details) : details.Standard := by
  have specs : standard.all = [Shebang.spec, Emacs.spec, Vim.spec] := rfl
  rw [specs] at known
  simp only [List.mem_cons, List.not_mem_nil, or_false] at known
  rcases known with rfl | rfl | rfl
  · exact Shebang.standard_details extracted
  · exact Emacs.standard_details extracted
  · exact Vim.standard_details extracted

/-- A description begins with the classification, which the details leave alone. -/
theorem describe_standard {d : Directive} {description : Details}
    (described : standard.describe d = .ok description) :
    description.keys.Nodup ∧
      (∀ key ∈ description.keys, key ∈ ("name" : Text) :: "category" :: detailNames) ∧
      description.get? "name" = some (.text (Spec.classification (standard.find? d)).1) ∧
      description.get? "category" = some (.text (Spec.classification (standard.find? d)).2.name) := by
  unfold describe at described
  cases found : standard.find? d with
  | none =>
    simp only [found] at described
    cases described
    exact ⟨by decide, by decide, rfl, rfl⟩
  | some spec =>
    simp only [found] at described
    obtain ⟨details, extracted, packed⟩ := bind_eq_ok.mp described
    obtain rfl := Except.ok.inj packed
    obtain ⟨distinct, named⟩ := standard_details (mem_all_of_find? found) extracted
    have other (key : Text) (reserved : key ∉ detailNames) : details.get? key = none :=
      Table.get?_eq_none fun mem => reserved (named key mem)
    refine ⟨?_, ?_, ?_, ?_⟩
    · apply Table.nodup_insertAll
      show ([("name" : Text), "category"] : List Text).Nodup
      decide
    · intro key mem
      rcases Table.mem_keys_of_insertAll mem with heading | extra
      · have first : key ∈ ([("name" : Text), "category"] : List Text) := heading
        exact List.mem_append_left detailNames first
      · exact List.mem_cons_of_mem _ (List.mem_cons_of_mem _ (named key extra))
    · rw [Table.get?_insertAll _ distinct, other "name" (by decide)]
      rfl
    · rw [Table.get?_insertAll _ distinct, other "category" (by decide)]
      rfl

end Registry

/-! ## 2. Entries -/

/-- The fields of an entry: the place and the text, which the description leaves alone, and the
description. -/
theorem ReportEntry.toValue_of_describe {d : Directive} {e : ReportEntry}
    (described : Registry.standard.describe d = .ok e.description) :
    ∃ fields : Details, e.toValue = .mapping fields ∧ fields.keys.Nodup ∧
      fields.get? "line" = some (.integer e.position.line) ∧
      fields.get? "column" = some (.integer e.position.column) ∧
      fields.get? "text" = some (.text e.text) ∧
      fields.get? "datums" = some (.sequence (e.datums.map .text)) ∧
      fields.get? "name" = some (.text (Spec.classification (Registry.standard.find? d)).1) ∧
      fields.get? "category" =
        some (.text (Spec.classification (Registry.standard.find? d)).2.name) := by
  obtain ⟨distinct, named, name, category⟩ := Registry.describe_standard described
  have other (key : Text) (reserved : key ∉ ("name" : Text) :: "category" :: detailNames) :
      e.description.get? key = none :=
    Table.get?_eq_none fun mem => reserved (named key mem)
  refine ⟨_, rfl, ?_, ?_, ?_, ?_, ?_, ?_, ?_⟩
  · apply Table.nodup_insertAll
    show ([("line" : Text), "column", "text", "datums"] : List Text).Nodup
    decide
  · rw [Table.get?_insertAll _ distinct, other "line" (by decide)]
    rfl
  · rw [Table.get?_insertAll _ distinct, other "column" (by decide)]
    rfl
  · rw [Table.get?_insertAll _ distinct, other "text" (by decide)]
    rfl
  · rw [Table.get?_insertAll _ distinct, other "datums" (by decide)]
    rfl
  · rw [Table.get?_insertAll _ distinct, name]
    rfl
  · rw [Table.get?_insertAll _ distinct, category]
    rfl

/-- An entry is faithful to a record of a source, a directive with the specification that handles it:
a marker stands at the place of the entry, the text of the entry is read back as the data of the
directive, and the fields of the entry are these and the classification. -/
structure ReportEntry.Faithful (src : Source) (record : Directive × Option Spec) (e : ReportEntry) :
    Prop where
  position : record.1.position = some e.position
  inside : 0 < e.position.line ∧ 0 ≤ e.position.column
  marked : Text.startsWith ((src.line e.position.line).drop e.position.column.toNat) directiveMarker =
    true
  written : Datum.writeItems record.1.datums = .ok e.datums
  text : e.text = directiveMarker ++ e.datums.flatMap (.scalar ' ' :: ·)
  read_back : ∃ last s', (Reader.readDirective? {} ((Cursor.ofText e.text).advance 2)).Returns {}
    (some (⟨record.1.datums, some .start⟩, last)) s' ∧ last.rest = []
  fields : ∃ fields : Details, e.toValue = .mapping fields ∧ fields.keys.Nodup ∧
    fields.get? "line" = some (.integer e.position.line) ∧
    fields.get? "column" = some (.integer e.position.column) ∧
    fields.get? "text" = some (.text e.text) ∧
    fields.get? "datums" = some (.sequence (e.datums.map .text)) ∧
    fields.get? "name" = some (.text (Spec.classification record.2).1) ∧
    fields.get? "category" = some (.text (Spec.classification record.2).2.name)

/-- A line that was written for well-formed data is read as a directive with these data. -/
theorem Reader.readDirective?_written (ctx : Context) {c : Cursor} {s : ReaderState} {ds : List Datum}
    {texts : List Text} (formed : Datum.wellFormedItems ds = true)
    (written : Datum.writeItems ds = .ok texts) (unfolded : s.foldCase = false)
    (here : c.rest = texts.flatMap (.scalar ' ' :: ·)) :
    ∃ last s', (readDirective? ctx c).Returns s (some (⟨ds, some c.position.beforeMarker⟩, last)) s' ∧
      last.rest = [] := by
  have whole : c.rest = texts.flatMap (.scalar ' ' :: ·) ++ ([] ++ []) := by
    rw [here, List.append_nil, List.append_nil]
  have starts : startsDirective ctx.policy.whitespace c.rest = true := by
    apply startsDirective_of_blank
    rw [whole]
    exact Reads.blank_flatMap texts rfl
  obtain ⟨s', scanned⟩ := scanDirective_written ctx formed written (.inl ⟨rfl, rfl⟩) unfolded whole
  have ended : (c.advance ((texts.flatMap (.scalar ' ' :: ·)).length + ([] : Text).length)).rest = [] := by
    rw [Cursor.rest_advance, here]
    exact List.drop_length
  generalize c.advance ((texts.flatMap (.scalar ' ' :: ·)).length + ([] : Text).length) = last at *
  refine ⟨last, s', ?_, ended⟩
  unfold readDirective?
  rw [if_pos starts]
  exact ReadM.returns_map.mpr ⟨_, scanned, rfl⟩

/-- The entry that is made for the directive of a scan is faithful. -/
theorem ReportEntry.faithful_of_scan {src : Source} {ctx : Context} {scan : Scan} {e : ReportEntry}
    (ahead : (src.cursor .start).Reaches scan.marker) (runs : scan.Runs ctx)
    (made : ofDirective .standard scan.directive = .ok e) :
    e.Faithful src (scan.directive, Registry.standard.find? scan.directive) ∧
      e.position = scan.marker.position := by
  obtain ⟨text, wrote, made⟩ := bind_eq_ok.mp made
  obtain ⟨datums, written, made⟩ := bind_eq_ok.mp made
  obtain ⟨description, described, made⟩ := bind_eq_ok.mp made
  obtain rfl := Except.ok.inj made
  have place : scan.directive.position.getD .start = scan.marker.position := runs.position_marker
  have packed : text = directiveMarker ++ datums.flatMap (.scalar ' ' :: ·) := by
    obtain ⟨texts, again, packed⟩ := bind_eq_ok.mp wrote
    rw [written] at again
    obtain rfl := Except.ok.inj again
    exact (Except.ok.inj packed).symm
  have formed : Datum.wellFormedItems scan.datums = true := by
    obtain ⟨-, t, t', scanned⟩ := runs
    exact scanned.wellFormed rfl
  have marked : ∃ rest, scan.marker.rest = directiveMarker ++ rest := by
    obtain ⟨rest, head, -⟩ := atDirective_iff.mp runs.1
    exact ⟨rest, head⟩
  obtain ⟨rest, head⟩ := marked
  obtain ⟨some_line, some_column, -⟩ := Source.line_of_reaches ahead
  refine ⟨?_, place⟩
  constructor
  · show some scan.content.position.beforeMarker = some (scan.directive.position.getD .start)
    rw [place, runs.position_marker]
  · show 0 < (scan.directive.position.getD .start).line ∧
      0 ≤ (scan.directive.position.getD .start).column
    rw [place]
    exact ⟨some_line, some_column⟩
  · show Text.startsWith ((src.line (scan.directive.position.getD .start).line).drop
      (scan.directive.position.getD .start).column.toNat) directiveMarker = true
    rw [place]
    exact Source.startsWith_line ahead head (by decide)
  · exact written
  · exact packed
  · have here : ((Cursor.ofText text).advance 2).rest = datums.flatMap (.scalar ' ' :: ·) := by
      rw [Cursor.rest_advance, packed]
      rfl
    have start : ((Cursor.ofText text).advance 2).position.beforeMarker = .start := by
      rw [packed]
      rfl
    have back := Reader.readDirective?_written {} (s := {}) formed written rfl here
    rwa [start] at back
  · exact toValue_of_describe described

/-! ## 3. Reports -/

/-- A report is faithful to what was read from a source: there is a faithful entry for each record in
order, the places of the entries rise, and the report counts the data. -/
structure Report.Faithful (src : Source) (data : List Datum) (records : List (Directive × Option Spec))
    (r : Report) : Prop where
  entries : List.Forall₂ (ReportEntry.Faithful src) records r.entries
  ordered : r.entries.Pairwise fun a b => a.position.Precedes b.position
  fields : ∃ fields : Details, r.toValue = .mapping fields ∧
    fields.get? "forms" = some (.integer data.length) ∧
    fields.get? "directives" = some (.sequence (r.entries.map ReportEntry.toValue))

theorem forall₂_of_mapM {α β ε : Type} {f : α → Except ε β} {as : List α} {bs : List β}
    (mapped : as.mapM f = .ok bs) : List.Forall₂ (fun a b => f a = .ok b) as bs := by
  induction as generalizing bs with
  | nil =>
    rw [List.mapM_nil] at mapped
    obtain rfl := Except.ok.inj mapped
    exact .nil
  | cons a as ih =>
    rw [List.mapM_cons] at mapped
    obtain ⟨b, first, mapped⟩ := bind_eq_ok.mp mapped
    obtain ⟨others, rest, packed⟩ := bind_eq_ok.mp mapped
    obtain rfl := Except.ok.inj packed
    exact .cons first (ih rest)

/-- Entries for scans that come one after another in the text. -/
theorem Report.entries_of_scans {src : Source} {ctx : Context} {scans : List Scan}
    {entries : List ReportEntry}
    (runs : ∀ scan ∈ scans, (src.cursor .start).Reaches scan.marker ∧ scan.Runs ctx)
    (ordered : scans.Pairwise fun a b => a.stop.Reaches b.marker)
    (made : List.Forall₂ (fun scan e => ReportEntry.ofDirective .standard scan.directive = .ok e)
      scans entries) :
    List.Forall₂ (ReportEntry.Faithful src)
        (scans.map fun scan => (scan.directive, Registry.standard.find? scan.directive)) entries ∧
      entries.Pairwise fun a b => a.position.Precedes b.position := by
  have known := (List.forall₂_and_left _ _).mpr ⟨runs, made⟩
  have each : List.Forall₂ (fun scan e =>
      ReportEntry.Faithful src (scan.directive, Registry.standard.find? scan.directive) e ∧
        scan.marker.position = e.position) scans entries := by
    refine known.imp ?_
    rintro scan e ⟨⟨ahead, runs⟩, made⟩
    obtain ⟨faithful, place⟩ := ReportEntry.faithful_of_scan ahead runs made
    exact ⟨faithful, place.symm⟩
  constructor
  · rw [List.forall₂_map_left_iff]
    exact each.imp fun _ _ h => h.1
  · have places : scans.map (·.marker.position) = entries.map (·.position) := by
      rw [← List.forall₂_eq_eq_eq, List.forall₂_map_left_iff, List.forall₂_map_right_iff]
      exact each.imp fun _ _ h => h.2
    have rising : (scans.map (·.marker.position)).Pairwise Position.Precedes := by
      rw [List.pairwise_map]
      refine ordered.imp_of_mem ?_
      intro a b mem _ follows
      have forward := (runs a mem).2.reaches.trans follows
      apply forward.precedes
      have shorter := (runs a mem).2.marker_lt_content
      have ahead := ((runs a mem).2.reaches_last.trans (a.reaches_stop.trans follows)).length_le
      omega
    rwa [places, List.pairwise_map] at rising

/-- The report on what a session has read to the end is faithful. -/
theorem Report.faithful_of_forms {src : Source} {policy : Policy} {foldCase : Bool}
    {forms : Session.Forms} {session : Session} {source : Text} {report : Report}
    (read : (src.session policy foldCase).forms = (forms, session)) (succeeds : forms.failure = none)
    (built : build source policy forms.data.length (session.log.map Prod.fst) = .ok report) :
    report.Faithful src forms.data session.log := by
  have log : session.log =
      session.state.directives.map fun d => (d, Registry.standard.find? d) := by
    have recorded := (src.session policy foldCase).log_forms
    rwa [read] at recorded
  have succeeds' : (Session.formsFor false ((src.session policy foldCase).cursor.rest.length + 1) none
      (src.session policy foldCase)).1.failure = none := by
    have same := congrArg (fun r => r.1.failure) read
    exact same.trans succeeds
  obtain ⟨taken, takes, -⟩ := Session.takes_of_formsFor (Nat.lt_succ_self _) succeeds'
  have last : (Session.formsFor false ((src.session policy foldCase).cursor.rest.length + 1) none
      (src.session policy foldCase)).2 = session := congrArg Prod.snd read
  rw [last] at takes
  obtain ⟨-, -, -, scans, logged⟩ := takes.logged
  have directives : session.state.directives = scans.map (·.directive) := logged.directives
  obtain ⟨entries, made, packed⟩ := bind_eq_ok.mp built
  obtain rfl := Except.ok.inj packed
  have each := forall₂_of_mapM made
  rw [log, List.map_map, directives, List.map_map, List.forall₂_map_left_iff] at each
  obtain ⟨faithful, ordered⟩ := @entries_of_scans src _ _ _ logged.runs logged.ordered each
  refine ⟨?_, ordered, _, rfl, rfl, rfl⟩
  rw [log, directives, List.map_map]
  exact faithful

/-! ## 4. The stage that reads -/

namespace RunM

variable {α β : Type} {st st' t : RunState}

/-- Started in `st`, the action of a run succeeds with `a` and leaves the state `st'`. -/
def Returns (m : RunM α) (st : RunState) (a : α) (st' : RunState) : Prop := m.run.run st = (.ok a, st')

theorem run_bind (m : RunM α) (f : α → RunM β) :
    (m >>= f).run.run st =
      match m.run.run st with
      | (.ok a, t) => (f a).run.run t
      | (.error e, t) => (.error e, t) := by
  show (ExceptT.bindCont f (m.run.run st).1 : StateM RunState (Except Stop β)) (m.run.run st).2 = _
  rcases m.run.run st with ⟨r, t⟩
  cases r <;> rfl

theorem exists_of_returns_bind {m : RunM α} {f : α → RunM β} {b : β}
    (h : (m >>= f).Returns st b st') : ∃ a t, m.Returns st a t ∧ (f a).Returns t b st' := by
  obtain ⟨r, t, first⟩ : ∃ r t, m.run.run st = (r, t) := ⟨_, _, rfl⟩
  unfold Returns at *
  rw [run_bind, first] at h
  cases r with
  | ok a => exact ⟨a, t, first, h⟩
  | error e => cases h

theorem Returns.bind {m : RunM α} {f : α → RunM β} {a : α} {b : β} (first : m.Returns st a t)
    (second : (f a).Returns t b st') : (m >>= f).Returns st b st' := by
  unfold Returns at *
  rw [run_bind, first]
  exact second

/-- An action has one outcome. -/
theorem Returns.unique {m : RunM α} {a b : α} (h : m.Returns st a st')
    (h' : m.Returns st b t) : a = b ∧ st' = t := by
  cases h.symm.trans h'
  exact ⟨rfl, rfl⟩

theorem not_returns_throw {stop : Stop} {a : α} : ¬ (throw stop : RunM α).Returns st a st' := nofun

end RunM

namespace Stage

/-- The events of a session go to the log and nowhere else. -/
theorem returns_logEach (events : List Event) (st : RunState) :
    RunM.Returns (forIn events PUnit.unit fun event _ => do
        RunM.log event.level event.message
        pure (.yield PUnit.unit)) st PUnit.unit
      { st with log := st.log ++ events.map fun event => ⟨event.message, event.level⟩ } := by
  induction events generalizing st with
  | nil =>
    rw [List.map_nil, List.append_nil]
    rfl
  | cons event events ih =>
    have others := ih { st with log := st.log ++ [⟨event.message, event.level⟩] }
    rw [List.append_assoc] at others
    rw [List.forIn_cons]
    exact RunM.Returns.bind rfl others

def sessionFor (ctx : RunContext) (p : Progress) (text : Text) : Session :=
  let settings := effectiveSettings ctx.settings ctx.options
  (Source.mk text (some p.sourceFile.name)).session settings.policy settings.foldCase

/-- What the stage leaves is what a session has read to the end. -/
theorem returns_readSource {ctx : RunContext} {p p' : Progress} {st st' : RunState}
    (ran : (runReadSource ctx p).Returns st p' st') :
    ∃ text, fileText st.workspace p.sourceFile = .ok text ∧
      (sessionFor ctx p text).forms.1.failure = none ∧
      p' = { p with
        settings := some (effectiveSettings ctx.settings ctx.options), sourceText := text,
        forms := some (sessionFor ctx p text).forms.1.data,
        directives := some (sessionFor ctx p text).forms.2.log } ∧
      st'.workspace = st.workspace := by
  unfold runReadSource at ran
  obtain ⟨_, _, ⟨⟩, ran⟩ := RunM.exists_of_returns_bind ran
  obtain ⟨_, _, ⟨⟩, ran⟩ := RunM.exists_of_returns_bind ran
  obtain ⟨s, _, ⟨⟩, ran⟩ := RunM.exists_of_returns_bind ran
  split at ran
  · obtain ⟨_, _, -, ran⟩ := RunM.exists_of_returns_bind ran
    exact (RunM.not_returns_throw ran).elim
  · rename_i text read
    obtain ⟨_, _, ⟨⟩, ran⟩ := RunM.exists_of_returns_bind ran
    obtain ⟨_, t, logged, ran⟩ := RunM.exists_of_returns_bind ran
    split at ran
    · exact (RunM.not_returns_throw ran).elim
    · obtain ⟨_, _, -, ran⟩ := RunM.exists_of_returns_bind ran
      split at ran
      · obtain ⟨_, _, -, ran⟩ := RunM.exists_of_returns_bind ran
        exact (RunM.not_returns_throw ran).elim
      · exact (RunM.not_returns_throw ran).elim
    · rename_i finished
      obtain ⟨_, _, ⟨⟩, ran⟩ := RunM.exists_of_returns_bind ran
      have all_logged := returns_logEach (sessionFor ctx p text).forms.2.state.trace.toList
      rw [Array.forIn_toList] at all_logged
      obtain ⟨-, rfl⟩ := logged.unique (all_logged _)
      cases ran
      exact ⟨text, read, finished, rfl, rfl⟩

end Stage

/-- A report is faithful to its source, whatever the text, the policies and the case folding: if the
source is read to its end and the report on what was read can be made, the report is faithful to the
data and the directives read. The stage that reads a file leaves the data and the directives of such a
session, begun with the settings and what the command line adds to them, so that the report on what this
stage has read is faithful as well. -/
theorem Report.faithful_to_source :
    (∀ (src : Source) (policy : Policy) (foldCase : Bool) (forms : Session.Forms) (session : Session)
      (source : Text) (report : Report),
      (src.session policy foldCase).forms = (forms, session) → forms.failure = none →
      build source policy forms.data.length (session.log.map Prod.fst) = .ok report →
      report.Faithful src forms.data session.log) ∧
    ∀ (ctx : RunContext) (p p' : Progress) (st st' : RunState),
      (Stage.runReadSource ctx p).Returns st p' st' →
      ∃ settings data records, p'.settings = some settings ∧ p'.forms = some data ∧
        p'.directives = some records ∧ settings = Stage.effectiveSettings ctx.settings ctx.options ∧
        ∀ (source : Text) (report : Report),
          build source settings.policy data.length (records.map Prod.fst) = .ok report →
          report.Faithful ⟨p'.sourceText, some p.sourceFile.name⟩ data records := by
  constructor
  · intro src policy foldCase forms session source report read succeeds built
    exact faithful_of_forms read succeeds built
  · intro ctx p p' st st' ran
    obtain ⟨text, -, succeeds, rfl, -⟩ := Stage.returns_readSource ran
    refine ⟨_, _, _, rfl, rfl, rfl, rfl, ?_⟩
    intro source report built
    exact faithful_of_forms rfl succeeds built

/-- A line for an interpreter, a mode line in a list under a comment, and a directive of no known sort
before a line break of two code points. -/
theorem Report.faithful_to_source_list :
    ∃ (src : Source) (forms : Session.Forms) (session : Session) (report : Report),
      src = ⟨"#! /usr/bin/env scheme\n(a ;b\n #! vim: tw=60 :\n) #! |x|\r\n", none⟩ ∧
      (src.session {} false).forms = (forms, session) ∧ forms.failure = none ∧
      build "a.scm" {} forms.data.length (session.log.map Prod.fst) = .ok report ∧
      report.Faithful src forms.data session.log ∧
      report.entries.map (fun e => (e.position.line, e.position.column, e.text)) =
        ([(1, 0, "#! /usr/bin/env scheme"), (3, 1, "#! vim: tw=60 :"), (4, 2, "#! x")] :
          List (Int × Int × Text)) := by
  generalize text : (⟨"#! /usr/bin/env scheme\n(a ;b\n #! vim: tw=60 :\n) #! |x|\r\n", none⟩ : Source) = src
  have succeeds : (src.session {} false).forms.1.failure = none := by
    rw [← text]
    decide +kernel
  have made : (build "a.scm" {} (src.session {} false).forms.1.data.length
      ((src.session {} false).forms.2.log.map Prod.fst)).toOption.map
        (fun r => r.entries.map fun e => (e.position.line, e.position.column, e.text)) =
      some ([(1, 0, "#! /usr/bin/env scheme"), (3, 1, "#! vim: tw=60 :"), (4, 2, "#! x")] :
        List (Int × Int × Text)) := by
    rw [← text]
    decide +kernel
  obtain ⟨report, reported, entries⟩ := Option.map_eq_some_iff.mp made
  cases built : build "a.scm" {} (src.session {} false).forms.1.data.length
      ((src.session {} false).forms.2.log.map Prod.fst) with
  | error fault =>
    rw [built] at reported
    cases reported
  | ok made =>
    rw [built] at reported
    obtain rfl : made = report := Option.some.inj reported
    exact ⟨src, _, _, made, rfl, rfl, succeeds, built,
      faithful_to_source.1 _ _ _ _ _ _ _ rfl succeeds built, entries⟩

end LineDirective
