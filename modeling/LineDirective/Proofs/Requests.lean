import LineDirective.Proofs.Faults
import LineDirective.Proofs.Programs

/-!
# Sessions and their callers

A caller asks a session for items, for data or for several items at once, in any order. However it
asks, the session takes its items one after another, and these are the items that it yields when it is
read in one go: the answers to the requests are successive parts of one list, and the state depends
only on how many items have been taken (`Session.Takes`). The data among the items are those of the
loop that reads the text datum by datum.
-/

namespace LineDirective

def Source.sessionWith (src : Source) (policy : Policy) (registry : Registry) (foldCase : Bool) :
    Session :=
  { src.session policy foldCase with registry := registry }

def Item.counts (wanted : Bool) : Item → Bool
  | .datum _ => true
  | .directive _ => wanted
  | .endOfInput => false

/-! ## 1. Requests -/

namespace Session

/-- What a caller may ask of a session. -/
inductive Request where
  /-- The next item. -/
  | item
  /-- The next datum. -/
  | datum
  /-- The next items up to the limit, if there is one; directives only if they are wanted. -/
  | forms (wanted : Bool) (limit : Option Nat)

inductive Answer where
  | item (item : Item)
  | datum (d : Datum)
  /-- There is no datum left. -/
  | exhausted
  | forms (items : List Item)

def ask (s : Session) : Request → Except Failure Answer × Session
  | .item =>
    match s.next with
    | (.ok item, s) => (.ok (.item item), s)
    | (.error e, s) => (.error e, s)
  | .datum =>
    match s.readDatum with
    | (.ok d, s) => (.ok (.datum d), s)
    | (.error (.fault .endOfInput), s) => (.ok .exhausted, s)
    | (.error e, s) => (.error e, s)
  | .forms wanted limit =>
    match s.forms wanted limit with
    | ({ items, failure := none }, s) => (.ok (.forms (items.map Prod.fst)), s)
    | ({ failure := some e, .. }, s) => (.error e, s)

/-- Answers requests one after another, up to the first failure. -/
def askAll : List Request → Session → Except Failure (List Answer) × Session
  | [], s => (.ok [], s)
  | request :: requests, s =>
    match s.ask request with
    | (.error e, s) => (.error e, s)
    | (.ok answer, s) =>
      match askAll requests s with
      | (.error e, s) => (.error e, s)
      | (.ok answers, s) => (.ok (answer :: answers), s)

/-! ## 2. Items taken one by one -/

inductive Takes : Session → List Item → Session → Prop
  | none {s} : Takes s [] s
  | next {s item s₁ items s'} (found : s.next = (.ok item, s₁)) (others : Takes s₁ items s') :
      Takes s (item :: items) s'

def after : Nat → Session → Session
  | 0, s => s
  | n + 1, s => after n s.next.2

/-- The first results of looking for an item again and again: the items, and the end of the input for
ever after, unless there was a failure. -/
def Forms.results (f : Forms) (n : Nat) : List Item :=
  (f.items.map Prod.fst ++ if f.failure.isSome then [] else List.replicate n Item.endOfInput).take n

variable {s s₁ s' : Session} {items : List Item}

theorem Takes.append {more : List Item} (first : Takes s items s₁) (second : Takes s₁ more s') :
    Takes s (items ++ more) s' := by
  induction first with
  | none => exact second
  | next found _ ih => exact .next found (ih second)

theorem Takes.eq_after (h : Takes s items s') : s' = s.after items.length := by
  induction h with
  | none => rfl
  | @next s item s₁ items s' found _ ih =>
    rw [List.length_cons, after, found]
    exact ih

/-- The rounds do not matter as long as they suffice. -/
theorem formsFor_enough {wanted : Bool} {limit : Option Nat} {rounds more : Nat}
    (enough : s.cursor.rest.length < rounds) (as_well : s.cursor.rest.length < more) :
    formsFor wanted rounds limit s = formsFor wanted more limit s := by
  induction rounds, limit, s using formsFor.induct wanted generalizing more with
  | case1 => omega
  | case2 =>
    obtain ⟨more, rfl⟩ : ∃ n, more = n + 1 := ⟨more - 1, by omega⟩
    rfl
  | case3 rounds limit s some_left failure s₁ failed =>
    obtain ⟨more, rfl⟩ : ∃ n, more = n + 1 := ⟨more - 1, by omega⟩
    simp only [formsFor, failed]
  | case4 rounds limit s some_left s₁ found =>
    obtain ⟨more, rfl⟩ : ∃ n, more = n + 1 := ⟨more - 1, by omega⟩
    simp only [formsFor, found]
  | case5 rounds limit s some_left d s₁ found ih =>
    obtain ⟨more, rfl⟩ : ∃ n, more = n + 1 := ⟨more - 1, by omega⟩
    obtain ⟨c, finds, -, rfl⟩ := finds_of_next found
    have shorter := finds.length_lt (by simp)
    simp only [formsFor, found, ih s₁ (by omega) (by omega : s₁.cursor.rest.length < more)]
  | case6 rounds limit s some_left d s₁ found wants ih =>
    obtain ⟨more, rfl⟩ : ∃ n, more = n + 1 := ⟨more - 1, by omega⟩
    obtain ⟨c, finds, -, rfl⟩ := finds_of_next found
    have shorter := finds.length_lt (by simp)
    simp only [formsFor, found, if_pos wants,
      ih s₁ (by omega) (by omega : s₁.cursor.rest.length < more)]
  | case7 rounds limit s some_left d s₁ found unwanted _ ih =>
    obtain ⟨more, rfl⟩ : ∃ n, more = n + 1 := ⟨more - 1, by omega⟩
    obtain ⟨c, finds, -, rfl⟩ := finds_of_next found
    have shorter := finds.length_lt (by simp)
    simp only [formsFor, found, if_neg unwanted,
      ih (by omega) (by omega : s₁.cursor.rest.length < more)]

/-- An item that is taken is the first of those that the session yields. -/
theorem forms_of_next {item : Item} (found : s.next = (.ok item, s₁)) (some_item : item ≠ .endOfInput) :
    (s.forms true).1 =
      { (s₁.forms true).1 with items := (item, s₁.position) :: (s₁.forms true).1.items } := by
  obtain ⟨c, finds, -, rfl⟩ := finds_of_next found
  have shorter := finds.length_lt some_item
  have others : formsFor true s.cursor.rest.length none s₁ = s₁.forms true :=
    formsFor_enough shorter (Nat.lt_succ_self _)
  unfold forms at others ⊢
  cases item with
  | endOfInput => exact absurd rfl some_item
  | datum d => simp [formsFor, found, others]
  | directive d => simp [formsFor, found, others]

theorem forms_of_ended (found : s.next = (.ok .endOfInput, s₁)) : (s.forms true).1 = {} := by
  simp [forms, formsFor, found]

/-- At the end of the input a search ends there and changes nothing. -/
theorem next_of_ended (nothing : s.cursor.rest = []) : s.next = (.ok .endOfInput, s) := by
  have stays : nextItem s.context s.cursor = pure (.endOfInput, s.cursor) := by
    rw [nextItem, nextItemFor]
    simp only [nothing]
  have same : { s with position := s.cursor.position, state := s.state } = s := by
    rw [position_cursor]
  unfold next
  rw [stays]
  exact congrArg (Prod.mk _) same

theorem Takes.results (h : Takes s items s') :
    items = (s.forms true).1.results items.length := by
  induction h with
  | none => simp [Forms.results]
  | @next s item s₁ items s' found others ih =>
    cases item with
    | endOfInput =>
      obtain ⟨c, finds, -, rfl⟩ := finds_of_next found
      rw [forms_of_ended (next_of_ended (finds.rest_eq_nil rfl))] at ih
      rw [forms_of_ended found]
      simp only [Forms.results, List.map_nil, List.nil_append, Option.isSome_none,
        Bool.false_eq_true, if_false, List.take_replicate, Nat.min_self] at ih ⊢
      rw [List.length_cons, List.replicate_succ, ← ih]
    | datum d | directive d =>
      rw [forms_of_next found nofun]
      simp only [Forms.results, List.map_cons, List.cons_append, List.length_cons,
        List.take_succ_cons, List.cons.injEq, true_and] at ih ⊢
      refine ih.trans ?_
      -- one more end of the input does not show among as many results as before
      split
      · rfl
      · rw [List.take_append, List.take_append, List.take_replicate, List.take_replicate]
        congr 2
        omega

/-! ## 3. What a request takes -/

/-- Of the items taken, those that count are yielded, up to the limit or to the end of the input. -/
inductive Yields (wanted : Bool) : Option Nat → List Item → List Item → Prop
  | full : Yields wanted (some 0) [] []
  | ended {limit} (some_left : limit ≠ some 0) : Yields wanted limit [.endOfInput] []
  | yielded {limit item taken items} (some_left : limit ≠ some 0)
      (counts : item.counts wanted = true) (others : Yields wanted (limit.map (· - 1)) taken items) :
      Yields wanted limit (item :: taken) (item :: items)
  | passed {limit d taken items} (some_left : limit ≠ some 0)
      (unwanted : (Item.directive d).counts wanted = false) (others : Yields wanted limit taken items) :
      Yields wanted limit (.directive d :: taken) items

/-- The items that are taken to answer a request. -/
inductive Serves : Request → List Item → Answer → Prop
  | item (item : Item) : Serves .item [item] (.item item)
  | datum (passed : List Directive) (d : Datum) :
      Serves .datum (passed.map .directive ++ [.datum d]) (.datum d)
  | exhausted (passed : List Directive) :
      Serves .datum (passed.map .directive ++ [.endOfInput]) .exhausted
  | forms {wanted limit taken items} (yields : Yields wanted limit taken items) :
      Serves (.forms wanted limit) taken (.forms items)

theorem takes_of_formsFor {wanted : Bool} {limit : Option Nat} {rounds : Nat}
    (enough : s.cursor.rest.length < rounds)
    (succeeds : (formsFor wanted rounds limit s).1.failure = none) :
    ∃ taken, Takes s taken (formsFor wanted rounds limit s).2 ∧
      Yields wanted limit taken ((formsFor wanted rounds limit s).1.items.map Prod.fst) := by
  induction rounds, limit, s using formsFor.induct wanted with
  | case1 => omega
  | case2 => exact ⟨[], .none, .full⟩
  | case3 rounds limit s some_left failure s₁ failed => simp [formsFor, failed] at succeeds
  | case4 rounds limit s some_left s₁ found =>
    simp only [formsFor, found]
    exact ⟨[.endOfInput], .next found .none, .ended some_left⟩
  | case5 rounds limit s some_left d s₁ found ih =>
    obtain ⟨c, finds, -, rfl⟩ := finds_of_next found
    have shorter := finds.length_lt (by simp)
    simp only [formsFor, found] at succeeds ⊢
    obtain ⟨taken, takes, yields⟩ := ih s₁ (by omega) succeeds
    exact ⟨.datum d :: taken, .next found takes, .yielded some_left rfl yields⟩
  | case6 rounds limit s some_left d s₁ found wants ih =>
    obtain ⟨c, finds, -, rfl⟩ := finds_of_next found
    have shorter := finds.length_lt (by simp)
    simp only [formsFor, found, if_pos wants] at succeeds ⊢
    obtain ⟨taken, takes, yields⟩ := ih s₁ (by omega) succeeds
    exact ⟨.directive d :: taken, .next found takes, .yielded some_left wants yields⟩
  | case7 rounds limit s some_left d s₁ found unwanted _ ih =>
    obtain ⟨c, finds, -, rfl⟩ := finds_of_next found
    have shorter := finds.length_lt (by simp)
    simp only [formsFor, found, if_neg unwanted] at succeeds ⊢
    obtain ⟨taken, takes, yields⟩ := ih (by omega) succeeds
    have passes : (Item.directive d).counts wanted = false := by simpa [Item.counts] using unwanted
    exact ⟨.directive d :: taken, .next found takes, .passed some_left passes yields⟩

theorem takes_of_readDatumFor {rounds : Nat} {d : Datum}
    (h : readDatumFor rounds s = (.ok d, s')) :
    ∃ passed : List Directive, Takes s (passed.map .directive ++ [.datum d]) s' := by
  induction rounds generalizing s with
  | zero => cases h
  | succ rounds ih =>
    unfold readDatumFor at h
    split at h
    · cases h
    · cases h
    · rename_i found
      cases h
      exact ⟨[], .next found .none⟩
    · rename_i d₁ s₁ found
      obtain ⟨passed, takes⟩ := ih h
      exact ⟨d₁ :: passed, .next found takes⟩

end Session

/-! ## 4. The end of the input is no failure to read -/

theorem Lexeme.Defect.ne_endOfInput {t : Text} {fault : Fault} (h : Defect t fault) :
    fault ≠ .endOfInput := by
  rintro rfl
  cases h with
  | marked _ valueless => cases valueless
  | bare valueless _ => cases valueless

/-- A bind fails as its first action does, or as what follows. -/
theorem bind_ne_endOfInput {α β : Type} {r : Except Fault α} {f : α → Except Fault β}
    (first : r ≠ .error .endOfInput) (second : ∀ a, f a ≠ .error .endOfInput) :
    (r >>= f) ≠ .error .endOfInput := by
  cases r with
  | error fault => exact fun failed => first (by cases failed; rfl)
  | ok a => exact second a

theorem writeInteger_ne_endOfInput (n : Int) : writeInteger n ≠ .error .endOfInput := by
  unfold writeInteger
  split <;> nofun

theorem writeSymbol_ne_endOfInput (name : Text) : writeSymbol name ≠ .error .endOfInput := by
  have decided : needsBars name ≠ .error .endOfInput := by
    unfold needsBars
    split
    · nofun
    · split
      · nofun
      · split
        · nofun
        · split
          · nofun
          · nofun
          · rename_i fault _ parsed
            intro same
            cases same
            cases Number.parse_eq_error parsed
  refine bind_ne_endOfInput decided fun barred => ?_
  cases barred <;> nofun

mutual

theorem Datum.write_ne_endOfInput (d : Datum) : d.write ≠ .error .endOfInput := by
  cases d with
  | symbol name => exact writeSymbol_ne_endOfInput name
  | string | char | boolean | bytes =>
    rw [Datum.write]
    nofun
  | number n =>
    rw [Datum.write]
    cases n with
    | integer n => exact writeInteger_ne_endOfInput n
    | ratio q =>
      refine bind_ne_endOfInput (writeInteger_ne_endOfInput _) fun _ => ?_
      exact bind_ne_endOfInput (writeInteger_ne_endOfInput _) fun _ => nofun
    | real x => nofun
  | list items | vector items =>
    rw [Datum.write]
    exact bind_ne_endOfInput (Datum.writeItems_ne_endOfInput items) fun _ => nofun
  | dotted items tail =>
    rw [Datum.write]
    refine bind_ne_endOfInput (Datum.writeItems_ne_endOfInput items) fun _ => ?_
    exact bind_ne_endOfInput (Datum.write_ne_endOfInput tail) fun _ => nofun
  | foreign kind items =>
    cases kind <;> (rw [Datum.write] <;> nofun)

theorem Datum.writeItems_ne_endOfInput (ds : List Datum) :
    Datum.writeItems ds ≠ .error .endOfInput := by
  cases ds with
  | nil => nofun
  | cons d ds =>
    rw [Datum.writeItems]
    refine bind_ne_endOfInput (Datum.write_ne_endOfInput d) fun _ => ?_
    exact bind_ne_endOfInput (Datum.writeItems_ne_endOfInput ds) fun _ => nofun

end

namespace Session

variable {s s' : Session}

theorem next_ne_endOfInput {e : Failure} (h : s.next = (.error e, s')) :
    e ≠ .fault .endOfInput := by
  rintro rfl
  cases accounted_of_next h with
  | defect _ bad => exact bad.ne_endOfInput rfl
  | unwritable _ failed _ =>
    unfold Directive.write at failed
    refine bind_ne_endOfInput (Datum.writeItems_ne_endOfInput _) (fun _ => ?_) failed
    nofun

theorem takes_of_exhausted {rounds : Nat} (enough : s.cursor.rest.length < rounds)
    (h : readDatumFor rounds s = (.error (.fault .endOfInput), s')) :
    ∃ passed : List Directive, Takes s (passed.map .directive ++ [.endOfInput]) s' := by
  induction rounds generalizing s with
  | zero => omega
  | succ rounds ih =>
    unfold readDatumFor at h
    split at h
    · rename_i failed
      cases h
      exact absurd rfl (next_ne_endOfInput failed)
    · rename_i found
      cases h
      exact ⟨[], .next found .none⟩
    · cases h
    · rename_i d s₁ found
      obtain ⟨c, finds, -, rfl⟩ := finds_of_next found
      have shorter := finds.length_lt (by simp)
      obtain ⟨passed, takes⟩ := ih (by omega) h
      exact ⟨d :: passed, .next found takes⟩

/-! ## 5. What many requests take -/

theorem takes_of_ask {request : Request} {answer : Answer}
    (h : s.ask request = (.ok answer, s')) :
    ∃ taken, Takes s taken s' ∧ Serves request taken answer := by
  cases request with
  | item =>
    simp only [ask] at h
    split at h
    · rename_i item s₁ found
      cases h
      exact ⟨[item], .next found .none, .item item⟩
    · cases h
  | datum =>
    simp only [ask] at h
    split at h
    · rename_i d s₁ found
      cases h
      obtain ⟨passed, takes⟩ := takes_of_readDatumFor found
      exact ⟨_, takes, .datum passed d⟩
    · rename_i s₁ ended
      cases h
      obtain ⟨passed, takes⟩ := takes_of_exhausted (Nat.lt_succ_self _) ended
      exact ⟨_, takes, .exhausted passed⟩
    · cases h
  | forms wanted limit =>
    simp only [ask] at h
    split at h
    · rename_i items s₁ outcome
      cases h
      change formsFor wanted (s.cursor.rest.length + 1) limit s = _ at outcome
      have takes := takes_of_formsFor (Nat.lt_succ_self _) (congrArg (·.1.failure) outcome)
      rw [outcome] at takes
      obtain ⟨taken, takes, yields⟩ := takes
      exact ⟨taken, takes, .forms yields⟩
    · cases h

theorem takes_of_askAll {requests : List Request} {answers : List Answer}
    (h : s.askAll requests = (.ok answers, s')) :
    ∃ segments : List (List Item), answers.length = requests.length ∧
      List.Forall₂ (fun exchange taken => Serves exchange.1 taken exchange.2)
        (requests.zip answers) segments ∧ Takes s segments.flatten s' := by
  induction requests generalizing s answers with
  | nil =>
    cases h
    exact ⟨[], rfl, .nil, .none⟩
  | cons request requests ih =>
    unfold askAll at h
    split at h
    · cases h
    · rename_i answer s₁ asked
      split at h
      · cases h
      · rename_i more s₂ others
        cases h
        obtain ⟨taken, takes, serves⟩ := takes_of_ask asked
        obtain ⟨segments, lengths, served, taken_all⟩ := ih others
        exact ⟨taken :: segments, by simp [lengths], .cons serves served, takes.append taken_all⟩

/-- A fresh session reads what the loop reads that knows only the notation for data: the same data
with the same places after them, the same failure, the same directives and the same case folding at
the end. And however it is asked, the items taken are successive parts of what it yields in one go,
and the session is the one that has taken as many items. -/
theorem agrees_with_loop (src : Source) (policy : Policy) (registry : Registry) (foldCase : Bool)
    {s : Session} (fresh : s = src.sessionWith policy registry foldCase) :
    (s.forms.1 = (Reader.readAll s.context s.cursor s.state).1 ∧
      s.forms.2.state.directives = (Reader.readAll s.context s.cursor s.state).2.directives ∧
      s.forms.2.state.foldCase = (Reader.readAll s.context s.cursor s.state).2.foldCase) ∧
    ∀ requests answers s', s.askAll requests = (.ok answers, s') →
      ∃ segments : List (List Item), answers.length = requests.length ∧
        List.Forall₂ (fun exchange taken => Serves exchange.1 taken exchange.2)
          (requests.zip answers) segments ∧
        segments.flatten = (s.forms true).1.results segments.flatten.length ∧
        s' = s.after segments.flatten.length := by
  constructor
  · have inside : 1 ≤ s.cursor.position.line := by
      rw [position_cursor, fresh]
      exact Int.le_refl 1
    obtain ⟨t, same, reads⟩ := readsAll_forms inside
    rw [reads.readAll]
    exact ⟨rfl, same.directives.symm, same.foldCase.symm⟩
  · intro requests answers s' asked
    obtain ⟨segments, lengths, served, takes⟩ := takes_of_askAll asked
    exact ⟨segments, lengths, served, takes.results, takes.eq_after⟩

/-- An item, a datum and the rest, where a directive stands in a list. -/
theorem agrees_with_loop_list :
    ∃ (src : Source) (s : Session) (answers : List Answer) (s' : Session)
      (segments : List (List Item)), src = ⟨"#! a\n(b #! c\n d) e", none⟩ ∧
      s = src.sessionWith {} .standard false ∧
      s.forms.1.data = [.list [.symbol "b", .symbol "d"], .symbol "e"] ∧
      s.forms.1 = (Reader.readAll s.context s.cursor s.state).1 ∧
      s.askAll [.item, .datum, .forms false none] = (.ok answers, s') ∧
      s'.state.directives.length = 2 ∧
      segments.flatten = (s.forms true).1.results segments.flatten.length ∧
      s' = s.after segments.flatten.length := by
  have asked : ∃ answers s', ((Source.mk "#! a\n(b #! c\n d) e" none).sessionWith {} .standard
      false).askAll [.item, .datum, .forms false none] = (.ok answers, s') ∧
      s'.state.directives.length = 2 := ⟨_, _, rfl, rfl⟩
  obtain ⟨answers, s', asked, two⟩ := asked
  obtain ⟨⟨loop, -, -⟩, segmented⟩ := agrees_with_loop ⟨"#! a\n(b #! c\n d) e", none⟩ {} .standard false rfl
  obtain ⟨segments, -, -, parts, reached⟩ := segmented _ _ _ asked
  exact ⟨_, _, answers, s', segments, rfl, rfl, rfl, loop, asked, two, parts, reached⟩

end Session

end LineDirective
