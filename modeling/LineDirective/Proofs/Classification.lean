import LineDirective.Registry.Standard

/-!
# Classification after any registrations

Whatever is registered with a registry and in whatever order, names registered before included, the
registry holds one specification for each name: the last one registered under it, at the place of the
first (`Registry.Holds`, kept by every registration). A directive is classified by these specifications
in their order, in two passes: exact keys come before leads, and in each pass the first specification
wins (`Registry.Selects`). Both passes together find a specification exactly when one accepts the
directive.
-/

namespace LineDirective

/-! ## 1. What a registry holds -/

/-- The values of a table in order are those found under its keys. -/
theorem Table.map_get?_keys {κ α : Type} [DecidableEq κ] {t : Table κ α} (distinct : t.keys.Nodup) :
    t.keys.map t.get? = t.map fun entry => some entry.2 := by
  induction t with
  | nil => rfl
  | cons entry t ih =>
    obtain ⟨absent, distinct⟩ := List.nodup_cons.mp (show (entry.1 :: keys t).Nodup from distinct)
    have first : get? (entry :: t) entry.1 = some entry.2 := by rw [get?_cons, if_pos rfl]
    have others : (keys t).map (get? (entry :: t)) = (keys t).map (get? t) := by
      apply List.map_congr_left
      intro key mem
      have apart : entry.1 ≠ key := by
        rintro rfl
        exact absent mem
      rw [get?_cons, if_neg apart]
    show get? (entry :: t) entry.1 :: (keys t).map (get? (entry :: t)) = _
    rw [first, others, ih distinct]
    rfl

/-- The specification that a history of registrations has last under a name. -/
def Spec.lastNamed? (history : List Spec) (name : Text) : Option Spec :=
  (history.filter (·.name = name)).getLast?

theorem Spec.lastNamed?_concat (history : List Spec) (s : Spec) (name : Text) :
    lastNamed? (history ++ [s]) name = if s.name = name then some s else lastNamed? history name := by
  unfold lastNamed?
  rw [List.filter_append, List.getLast?_append]
  by_cases same : s.name = name <;> simp [same]

theorem Spec.exists_lastNamed? {history : List Spec} {name : Text}
    (known : name ∈ history.map Spec.name) :
    ∃ s, lastNamed? history name = some s ∧ s.name = name := by
  obtain ⟨s, mem, named⟩ := List.mem_map.mp known
  have some_named : history.filter (·.name = name) ≠ [] :=
    List.ne_nil_of_mem (List.mem_filter.mpr ⟨mem, decide_eq_true named⟩)
  have last := List.getLast_mem some_named
  exact ⟨_, List.getLast?_eq_some_getLast some_named, of_decide_eq_true (List.mem_filter.mp last).2⟩

namespace Registry

/-- What a history of registrations leaves in a registry. The names stand in the order in which they
were first registered, and under each stands the last specification. -/
structure Holds (history : List Spec) (r : Registry) : Prop where
  distinct : r.specs.keys.Nodup
  names : r.specs.keys = (history.map Spec.name).eraseDups
  last : ∀ name, r.get? name = Spec.lastNamed? history name

variable {history : List Spec} {r : Registry}

theorem Holds.register (h : r.Holds history) (s : Spec) : (r.register s).Holds (history ++ [s]) := by
  refine ⟨Table.nodup_insert h.distinct s.name s, ?_, ?_⟩
  · show (r.specs.insert s.name s).keys = _
    rw [Table.keys_insert, List.map_append, List.map_singleton, List.eraseDups_append]
    split <;> rename_i known <;> rw [h.names, List.mem_eraseDups] at known
    · have nothing_new : [s.name].removeAll (history.map Spec.name) = [] := by
        rw [List.removeAll, List.filter_cons, if_neg (by simpa using known), List.filter_nil]
      rw [nothing_new, List.eraseDups_nil, List.append_nil, h.names]
    · have new : [s.name].removeAll (history.map Spec.name) = [s.name] := by
        rw [List.removeAll, List.filter_cons, if_pos (by simpa using known), List.filter_nil]
      rw [new, h.names]
      rfl
  · intro name
    show (r.specs.insert s.name s).get? name = _
    rw [Table.get?_insert, Spec.lastNamed?_concat, ← h.last name]
    rfl

theorem Holds.registerAll (h : r.Holds history) (calls : List Spec) :
    (calls.foldl Registry.register r).Holds (history ++ calls) := by
  induction calls generalizing history r with
  | nil =>
    rw [List.append_nil]
    exact h
  | cons s calls ih =>
    have after := ih (h.register s)
    rwa [List.append_assoc] at after

theorem holds_standard : standard.Holds [Shebang.spec, Emacs.spec, Vim.spec] := by
  have empty : ({} : Registry).Holds [] := ⟨List.nodup_nil, rfl, fun name => rfl⟩
  exact empty.registerAll [Shebang.spec, Emacs.spec, Vim.spec]

theorem Holds.all_eq (h : r.Holds history) :
    r.all.map some = (history.map Spec.name).eraseDups.map (Spec.lastNamed? history) := by
  have values := Table.map_get?_keys h.distinct
  have last : r.specs.get? = Spec.lastNamed? history := funext h.last
  rw [h.names, last] at values
  rw [values, all, List.map_map]
  rfl

/-- A specification stands under its own name. -/
theorem Holds.map_name (h : r.Holds history) :
    r.all.map Spec.name = (history.map Spec.name).eraseDups := by
  have named : (r.all.map some).map (Option.map Spec.name) =
      (history.map Spec.name).eraseDups.map some := by
    rw [h.all_eq, List.map_map]
    apply List.map_congr_left
    intro name known
    obtain ⟨s, last, same⟩ := Spec.exists_lastNamed? (List.mem_eraseDups.mp known)
    rw [Function.comp_apply, last, Option.map_some, same]
  have unpacked := congrArg (List.filterMap id) named
  simpa [List.filterMap_map, Function.comp_def] using unpacked

end Registry

/-! ## 2. Which specification is found -/

def Spec.LeadsInto (s : Spec) (name : Text) : Prop :=
  ∃ lead, s.lead = some lead ∧ lead ≠ [] ∧ lead <+: name

theorem Spec.hasKey_iff {s : Spec} {name : Text} : s.hasKey name = true ↔ name ∈ s.keys :=
  List.contains_iff_mem

theorem Spec.hasLead_iff {s : Spec} {name : Text} : s.hasLead name = true ↔ s.LeadsInto name := by
  unfold hasLead LeadsInto
  cases s.lead with
  | none => simp
  | some lead => cases lead <;> simp [Text.startsWith]

/-- Of specifications in order, the one that is selected by the name of a first datum: the first with
that name among its keys, else the first whose lead begins the name, else none. A directive without
such a name selects none. -/
inductive Registry.Selects (specs : List Spec) : Option Text → Option Spec → Prop
  | byKey {name before s after} (at_place : specs = before ++ s :: after) (exact_key : name ∈ s.keys)
      (none_before : ∀ t ∈ before, name ∉ t.keys) : Selects specs (some name) (some s)
  | byLead {name before s after} (no_key : ∀ t ∈ specs, name ∉ t.keys)
      (at_place : specs = before ++ s :: after) (leads : s.LeadsInto name)
      (none_before : ∀ t ∈ before, ¬ t.LeadsInto name) : Selects specs (some name) (some s)
  | unknown {name} (no_key : ∀ t ∈ specs, name ∉ t.keys) (no_lead : ∀ t ∈ specs, ¬ t.LeadsInto name) :
      Selects specs (some name) none
  | unnamed : Selects specs none none

namespace Registry

variable {r : Registry} {d : Directive} {name : Text}

theorem accepts_iff_of_named (named : d.headName? = some name) (s : Spec) :
    s.accepts d = true ↔ name ∈ s.keys ∨ s.LeadsInto name := by
  unfold Spec.accepts
  rw [named, Option.any_some, Bool.or_eq_true, Spec.hasKey_iff, Spec.hasLead_iff]

theorem find?_of_named (named : d.headName? = some name) :
    r.find? d = (r.all.find? (·.hasKey name)).or (r.all.find? (·.accepts d)) := by
  rw [find?, named]
  rfl

theorem selects_find? (r : Registry) (d : Directive) : Selects r.all d.headName? (r.find? d) := by
  cases named : d.headName? with
  | none =>
    rw [find?, named]
    exact .unnamed
  | some name =>
    rw [find?_of_named named]
    cases keyed : r.all.find? (·.hasKey name) with
    | some s =>
      obtain ⟨exact_key, before, after, at_place, none_before⟩ := List.find?_eq_some_iff_append.mp keyed
      refine .byKey at_place (Spec.hasKey_iff.mp exact_key) ?_
      intro t mem has_key
      simpa [Spec.hasKey_iff.mpr has_key] using none_before t mem
    | none =>
      have no_key : ∀ t ∈ r.all, name ∉ t.keys := fun t mem has_key =>
        List.find?_eq_none.mp keyed t mem (Spec.hasKey_iff.mpr has_key)
      rw [Option.none_or]
      cases accepted : r.all.find? (·.accepts d) with
      | some s =>
        obtain ⟨accepts, before, after, at_place, none_before⟩ :=
          List.find?_eq_some_iff_append.mp accepted
        have leads := ((accepts_iff_of_named named s).mp accepts).resolve_left
          (no_key s (by simp [at_place]))
        refine .byLead no_key at_place leads ?_
        intro t mem has_lead
        have accepts_earlier := (accepts_iff_of_named named t).mpr (.inr has_lead)
        simpa [accepts_earlier] using none_before t mem
      | none =>
        refine .unknown no_key ?_
        intro t mem has_lead
        exact List.find?_eq_none.mp accepted t mem ((accepts_iff_of_named named t).mpr (.inr has_lead))

theorem Selects.find?_eq {found : Option Spec} (h : Selects r.all d.headName? found) :
    r.find? d = found := by
  cases named : d.headName? with
  | none =>
    rw [named] at h
    cases h
    rw [find?, named]
    rfl
  | some name =>
    have unkeyed (no_key : ∀ t ∈ r.all, name ∉ t.keys) : r.all.find? (·.hasKey name) = none :=
      List.find?_eq_none.mpr fun t mem has_key => no_key t mem (Spec.hasKey_iff.mp has_key)
    have refused {t : Spec} (no_key : name ∉ t.keys) (no_lead : ¬ t.LeadsInto name) :
        ¬ t.accepts d = true := by
      rw [accepts_iff_of_named named t]
      exact not_or.mpr ⟨no_key, no_lead⟩
    rw [named] at h
    rw [find?_of_named named]
    cases h with
    | @byKey _ before s after at_place exact_key none_before =>
      have keyed : r.all.find? (·.hasKey name) = some s := by
        refine List.find?_eq_some_iff_append.mpr
          ⟨Spec.hasKey_iff.mpr exact_key, before, after, at_place, ?_⟩
        intro t mem
        rw [Bool.not_eq_true', Bool.eq_false_iff, ne_eq, Spec.hasKey_iff]
        exact none_before t mem
      rw [keyed, Option.some_or]
    | @byLead _ before s after no_key at_place leads none_before =>
      rw [unkeyed no_key, Option.none_or]
      refine List.find?_eq_some_iff_append.mpr
        ⟨(accepts_iff_of_named named s).mpr (.inr leads), before, after, at_place, ?_⟩
      intro t mem
      rw [Bool.not_eq_true', Bool.eq_false_iff]
      exact refused (no_key t (by simp [at_place, mem])) (none_before t mem)
    | unknown no_key no_lead =>
      rw [unkeyed no_key, Option.none_or]
      exact List.find?_eq_none.mpr fun t mem => refused (no_key t mem) (no_lead t mem)

/-! ## 3. After any registrations -/

theorem accepts_of_find? {s : Spec} (found : r.find? d = some s) : s ∈ r.all ∧ s.accepts d = true := by
  have selected := selects_find? r d
  rw [found] at selected
  cases named : d.headName? with
  | none =>
    rw [named] at selected
    cases selected
  | some name =>
    rw [named] at selected
    cases selected with
    | byKey at_place exact_key =>
      exact ⟨by simp [at_place], (accepts_iff_of_named named s).mpr (.inl exact_key)⟩
    | byLead _ at_place leads =>
      exact ⟨by simp [at_place], (accepts_iff_of_named named s).mpr (.inr leads)⟩

theorem find?_eq_none_iff : r.find? d = none ↔ ∀ s ∈ r.all, s.accepts d = false := by
  constructor
  · intro unknown s mem
    have selected := selects_find? r d
    rw [unknown] at selected
    cases named : d.headName? with
    | none => simp [Spec.accepts, named]
    | some name =>
      rw [named] at selected
      cases selected with
      | unknown no_key no_lead =>
        rw [Bool.eq_false_iff, ne_eq, accepts_iff_of_named named s, not_or]
        exact ⟨no_key s mem, no_lead s mem⟩
  · intro refused
    cases found : r.find? d with
    | none => rfl
    | some s =>
      obtain ⟨mem, accepts⟩ := accepts_of_find? found
      rw [refused s mem] at accepts
      cases accepts

/-- After any registrations beyond the three that are always there, names registered before included, a
registry holds one specification for each name, in the order in which the names were first registered
and as it was last registered. A directive is classified by the first of these with the name of its
first datum among the keys, else by the first whose lead begins that name, else by none. So none is
found exactly when no specification accepts the directive, and one that is found accepts it. -/
theorem classification_of_history (calls : List Spec) :
    let history := Shebang.spec :: Emacs.spec :: Vim.spec :: calls
    let r := calls.foldl register standard
    (r.all.map Spec.name).Nodup ∧
      r.all.map Spec.name = (history.map Spec.name).eraseDups ∧
      r.all.map some = (history.map Spec.name).eraseDups.map (Spec.lastNamed? history) ∧
      (∀ name, r.get? name = Spec.lastNamed? history name) ∧
      ∀ d : Directive,
        (∀ found, r.find? d = found ↔ Selects r.all d.headName? found) ∧
          (r.find? d = none ↔ ∀ s ∈ r.all, s.accepts d = false) ∧
          ∀ s, r.find? d = some s → s ∈ r.all ∧ s.accepts d = true := by
  intro history r
  have holds : r.Holds history := holds_standard.registerAll calls
  refine ⟨?_, holds.map_name, holds.all_eq, holds.last, ?_⟩
  · rw [holds.map_name, ← holds.names]
    exact holds.distinct
  · intro d
    refine ⟨?_, find?_eq_none_iff, fun s => accepts_of_find?⟩
    intro found
    constructor
    · rintro rfl
      exact selects_find? r d
    · exact Selects.find?_eq

/-- A specification that has names of other ones among its keys, and another one under the name of a
specification that is always there. The exact key wins over the lead registered before it, and what
stands under a name again has the keys it was given last. -/
theorem classification_of_history_overlap :
    ∃ (scheme vim : Spec) (r : Registry) (s : Spec),
      scheme.keys = (["/usr/bin/scheme", "vim:"] : List Text) ∧ vim.keys = (["vi:"] : List Text) ∧
      vim.lead = some "/usr" ∧ r = [scheme, vim].foldl register standard ∧
      r.all.map Spec.name = (["shebang", "emacs", "vim", "scheme"] : List Text) ∧
      (r.find? ⟨[.symbol "/usr/bin/scheme"], none⟩ = some s ∧ s.name = "scheme" ∧ s ∈ r.all ∧
        s.accepts ⟨[.symbol "/usr/bin/scheme"], none⟩ = true) ∧
      (r.find? ⟨[.symbol "vim:"], none⟩).map Spec.name = some "scheme" ∧
      (r.find? ⟨[.symbol "/usr/bin/env"], none⟩).map Spec.name = some "shebang" ∧
      ∀ s ∈ r.all, s.accepts ⟨[.symbol "ex:"], none⟩ = false := by
  let scheme : Spec :=
    { name := "scheme", category := .generic, handler := fun _ => .ok [],
      keys := ["/usr/bin/scheme", "vim:"] }
  let vim : Spec := { Vim.spec with keys := ["vi:"], lead := some "/usr" }
  obtain ⟨-, names, -, -, classified⟩ := classification_of_history [scheme, vim]
  obtain ⟨-, -, accepted⟩ := classified ⟨[.symbol "/usr/bin/scheme"], none⟩
  obtain ⟨-, unknown, -⟩ := classified ⟨[.symbol "ex:"], none⟩
  exact ⟨scheme, vim, _, scheme, rfl, rfl, rfl, rfl, names.trans rfl,
    ⟨rfl, rfl, accepted scheme rfl⟩, rfl, rfl, unknown.mp rfl⟩

end Registry

end LineDirective
