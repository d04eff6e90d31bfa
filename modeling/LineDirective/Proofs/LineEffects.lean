import LineDirective.Proofs.Reads

/-!
# What reading inside a directive leaves behind

Inside a directive a named marker is reported but not obeyed, and no directive is recorded. A read
there changes nothing but the trace, and adds to the trace nothing but reports of named markers
(`Reads.onlyMarkers`).
-/

namespace LineDirective

def Task.inDirective : Task → Bool
  | .datum mode | .here mode | .items mode .. | .atmosphere mode | .comment mode => mode = .directive
  | .intraline _ => true
  | .datums .. => false

/-- The second state differs from the first by reports of named markers only. -/
structure ReaderState.OnlyMarkers (s s' : ReaderState) : Prop where
  foldCase : s'.foldCase = s.foldCase
  directives : s'.directives = s.directives
  trace : ∃ events : List Event, s'.trace.toList = s.trace.toList ++ events ∧
    ∀ e ∈ events, ∃ m p, e = .marker m p

namespace ReaderState.OnlyMarkers

theorem refl (s : ReaderState) : s.OnlyMarkers s :=
  ⟨rfl, rfl, [], by simp, by simp⟩

theorem trans {s t u : ReaderState} (hst : s.OnlyMarkers t) (htu : t.OnlyMarkers u) :
    s.OnlyMarkers u := by
  obtain ⟨first, trace, all⟩ := hst.trace
  obtain ⟨second, trace', all'⟩ := htu.trace
  refine ⟨htu.foldCase.trans hst.foldCase, htu.directives.trans hst.directives, first ++ second,
    ?_, ?_⟩
  · rw [trace', trace, List.append_assoc]
  · intro e mem
    rcases List.mem_append.mp mem with mem | mem
    · exact all e mem
    · exact all' e mem

theorem emit_marker (s : ReaderState) (m : NamedMarker) (p : Position) :
    s.OnlyMarkers (s.emit (.marker m p)) := by
  refine ⟨rfl, rfl, [.marker m p], ?_, ?_⟩
  · rw [ReaderState.trace_emit, Array.toList_push]
  · intro e mem
    exact ⟨m, p, List.mem_singleton.mp mem⟩

end ReaderState.OnlyMarkers

theorem Reads.onlyMarkers {ctx : Context} {task : Task} {c next : Cursor} {s s' : ReaderState}
    {y : Yield} (h : Reads ctx task c s y next s') (inside : task.inDirective = true) :
    s.OnlyMarkers s' := by
  -- by induction on the rules: only `marker` touches the state, and only in code by more than a
  -- report
  induction h with
  | code _ _ _ _ => simp [Task.inDirective] at inside
  | directive _ ih => exact ih inside
  | flat _ => exact .refl _
  | list _ _ _ ih => exact ih inside
  | abbreviation _ _ _ _ ih₁ ih₂ => exact (ih₁ inside).trans (ih₂ inside)
  | vector _ _ ih => exact ih inside
  | bytevector _ _ _ ih => exact ih inside
  | close _ _ _ ih => exact ih inside
  | dot _ _ _ _ _ _ _ _ ih₁ ih₂ ih₃ ih₄ =>
    exact (ih₁ inside).trans ((ih₂ inside).trans ((ih₃ inside).trans (ih₄ inside)))
  | item _ _ _ _ _ _ ih₁ ih₂ ih₃ => exact (ih₁ inside).trans ((ih₂ inside).trans (ih₃ inside))
  | blank _ _ _ ih => exact ih inside
  | remark _ _ _ ih₁ ih₂ => exact (ih₁ inside).trans (ih₂ inside)
  | clear _ _ => exact .refl _
  | lineComment _ => exact .refl _
  | blockComment _ _ => exact .refl _
  | datumComment _ _ _ => simp [Task.inDirective] at inside
  | emptyComment _ _ _ ih => exact ih rfl
  | lineDatumComment _ _ _ _ _ ih₁ ih₂ => exact (ih₁ rfl).trans (ih₂ rfl)
  | @marker mode c s _ m _ _ =>
    obtain rfl : mode = .directive := by simpa [Task.inDirective] using inside
    exact .emit_marker s m c.position
  | lineDirective _ _ _ _ _ _ => simp [Task.inDirective] at inside
  | intralineBlank _ _ _ ih => exact ih rfl
  | intralineComment _ _ _ _ ih₁ ih₂ => exact (ih₁ rfl).trans (ih₂ rfl)
  | crossingComment _ _ _ ih => exact ih rfl
  | intralineClear _ _ => exact .refl _
  | lastDatum _ _ _ => simp [Task.inDirective] at inside
  | crossingDatum _ _ _ _ _ _ _ _ => simp [Task.inDirective] at inside
  | lineDatum _ _ _ _ _ _ _ _ _ => simp [Task.inDirective] at inside

end LineDirective
