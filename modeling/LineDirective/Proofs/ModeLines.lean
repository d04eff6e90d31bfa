import Mathlib.Data.List.Forall2
import Mathlib.Data.List.TakeWhile
import LineDirective.Proofs.Spelling
import LineDirective.Registry.Standard

/-!
# Mode lines, written and read

The mode lines of both editors are decoded to what they were written from. An option or a variable
goes into a mode line as one word or two, and the handlers find these words again, whatever the values
look like: an equals sign or a colon inside of a value, a value that ends in a colon, a name that looks
like a command (`Vim.collect_words`, `Emacs.assign_words`). What is found goes into a table from left to
right, so that a name keeps its first place and its last value.

Data after the closing mark have no part in it. Those of a Vim line are not looked at; those of an Emacs
line must have a written form.
-/

namespace LineDirective

theorem mapM_append_ok {α β ε : Type} {f : α → Except ε β} {as as' : List α} {bs bs' : List β}
    (first : as.mapM f = .ok bs) (second : as'.mapM f = .ok bs') :
    (as ++ as').mapM f = .ok (bs ++ bs') := by
  rw [List.mapM_append, first, second]
  rfl

abbrev colon : CodePoint := .scalar ':'

theorem endsWith_colon (word : Text) : Text.endsWith (word ++ [colon]) ":" = true :=
  List.isSuffixOf_iff_suffix.mpr ⟨word, rfl⟩

def modeLineDescription (editor field : Text) (entries : Details) : Details :=
  [("name", .text editor), ("category", .text "editor"), (field, .mapping entries)]

/-- A detail by a name of its own comes after the heading. -/
theorem describe_mode_line {r : Registry} {d : Directive} {spec : Spec} {field : Text}
    {entries : Details} (known : r.find? d = some spec) (editor : spec.category = .editor)
    (handled : spec.handler d = .ok [(field, .mapping entries)])
    (other : ("name" : Text) ≠ field ∧ ("category" : Text) ≠ field) :
    r.describe d = .ok (modeLineDescription spec.name field entries) := by
  unfold Registry.describe
  simp only [known, handled, bind, Except.bind, pure, Except.pure, Table.insertAll, List.foldl_cons,
    List.foldl_nil, Table.insert, if_neg other.1, if_neg other.2, editor]
  rfl

/-! ## 1. Vim -/

namespace Vim

/-- An option as one word: its name, with an equals sign before its value if it has one. -/
def optionWord : Text × Option Text → Text
  | (name, none) => name
  | (name, some value) => name ++ .scalar '=' :: value

/-- What an option is set to; one without a value is switched on. -/
def optionValue : Option Text → Value
  | none => .flag true
  | some value => .text value

/-- Options that can be told from commands and from the end of a mode line. -/
structure Encodable (o : Text × Option Text) : Prop where
  named : o.1 ≠ []
  plain : .scalar '=' ∉ o.1
  no_command : optionWord o ∉ setCommands
  unclosed : (optionWord o).endsWith ":" = false

def optionTable (options : List (Text × Option Text)) : Details :=
  Table.insertAll [] (options.map fun o => (o.1, optionValue o.2))

theorem stripColons_concat (word : Text) : stripColons (word ++ [colon]) = stripColons word := by
  unfold stripColons
  rw [List.reverse_concat, List.dropWhile_cons_of_pos (by decide)]

theorem stripColons_of_unclosed {word : Text} (unclosed : word.endsWith ":" = false) :
    stripColons word = word := by
  rcases word.eq_nil_or_concat with rfl | ⟨front, last, same⟩
  · rfl
  · rw [List.concat_eq_append] at same
    subst same
    have other : last ≠ colon := by
      rintro rfl
      rw [endsWith_colon] at unclosed
      cases unclosed
    unfold stripColons
    rw [List.reverse_concat, List.dropWhile_cons_of_neg (by simpa using other), List.reverse_cons,
      List.reverse_reverse]

section SplitOption

variable {name : Text}

theorem not_equals_of_plain (plain : .scalar '=' ∉ name) :
    ∀ c ∈ name, (!decide (c = .scalar '=')) = true := by
  intro c mem
  have other : c ≠ .scalar '=' := by
    rintro rfl
    exact plain mem
  simpa using other

theorem splitOption_of_plain (plain : .scalar '=' ∉ name) : splitOption name = (name, .flag true) := by
  have whole : name.dropWhile (fun c => !decide (c = .scalar '=')) = [] :=
    List.dropWhile_eq_nil_iff.mpr (not_equals_of_plain plain)
  unfold splitOption
  simp only [whole]

/-- The first equals sign is the one after the name. -/
theorem splitOption_append (plain : .scalar '=' ∉ name) (value : Text) :
    splitOption (name ++ .scalar '=' :: value) = (name, .text value) := by
  have skipped : (name ++ .scalar '=' :: value).dropWhile (fun c => !decide (c = .scalar '=')) =
      .scalar '=' :: value := by
    rw [List.dropWhile_append_of_pos (not_equals_of_plain plain)]
    rfl
  have taken : (name ++ .scalar '=' :: value).takeWhile (fun c => !decide (c = .scalar '=')) = name := by
    rw [List.takeWhile_append_of_pos (not_equals_of_plain plain)]
    exact List.append_nil name
  unfold splitOption
  simp only [skipped, taken]

end SplitOption

theorem splitOption_optionWord {o : Text × Option Text} (plain : .scalar '=' ∉ o.1) :
    splitOption (optionWord o) = (o.1, optionValue o.2) := by
  obtain ⟨name, value⟩ := o
  cases value with
  | none => exact splitOption_of_plain plain
  | some value => exact splitOption_append plain value

variable {t : Details} {o : Text × Option Text} {rest : List Datum}

/-- What is done with a word: commands are passed over, and a colon at the end closes the line. -/
theorem collect_symbol (t : Details) (word : Text) (rest : List Datum) :
    collect t (.symbol word :: rest) =
      if setCommands.contains word then collect t rest
      else
        let bare := stripColons word
        let options := if bare = [] then t else t.insert (splitOption bare).1 (splitOption bare).2
        if word.endsWith ":" then .ok options else collect options rest := rfl

theorem collect_command {command : Text} (known : command ∈ setCommands) :
    collect t (.symbol command :: rest) = collect t rest := by
  rw [collect_symbol, if_pos (List.contains_iff_mem.mpr known)]

theorem collect_colon : collect t (.symbol [colon] :: rest) = .ok t := by
  rw [collect_symbol]
  rfl

namespace Encodable

theorem some_word (h : Encodable o) : optionWord o ≠ [] := by
  obtain ⟨name, value⟩ := o
  cases value with
  | none => exact h.named
  | some value => simp [optionWord]

theorem collect (h : Encodable o) :
    collect t (.symbol (optionWord o) :: rest) = Vim.collect (t.insert o.1 (optionValue o.2)) rest := by
  have no_command : setCommands.contains (optionWord o) ≠ true :=
    fun known => h.no_command (List.contains_iff_mem.mp known)
  rw [collect_symbol, if_neg no_command]
  simp only [stripColons_of_unclosed h.unclosed, if_neg h.some_word, splitOption_optionWord h.plain,
    h.unclosed, Bool.false_eq_true, if_false]

/-- A word with a colon at its end is no command, and is the same option without the colon. -/
theorem collect_closing (h : Encodable o) :
    Vim.collect t (.symbol (optionWord o ++ [colon]) :: rest) =
      .ok (t.insert o.1 (optionValue o.2)) := by
  have no_command : setCommands.contains (optionWord o ++ [colon]) ≠ true := by
    intro known
    have closed := endsWith_colon (optionWord o)
    simp only [setCommands, List.contains_iff_mem, List.mem_cons, List.not_mem_nil, or_false] at known
    rcases known with same | same <;> rw [same] at closed <;> cases closed
  rw [collect_symbol, if_neg no_command]
  simp only [stripColons_concat, stripColons_of_unclosed h.unclosed, if_neg h.some_word,
    splitOption_optionWord h.plain, endsWith_colon, if_true]

end Encodable

theorem collect_words {options : List (Text × Option Text)} (encodable : ∀ o ∈ options, Encodable o) :
    collect t (options.map (fun o => .symbol (optionWord o)) ++ rest) =
      collect (t.insertAll (options.map fun o => (o.1, optionValue o.2))) rest := by
  induction options generalizing t with
  | nil => rfl
  | cons o options ih =>
    obtain ⟨first, others⟩ := List.forall_mem_cons.mp encodable
    rw [List.map_cons, List.cons_append, first.collect, ih others]
    rfl

theorem describe_of_collect {opener : Text} {datums : List Datum} {options : Details}
    (opens : opener ∈ spec.keys) (collected : collect [] datums = .ok options)
    (position : Option Position) :
    Registry.standard.describe ⟨.symbol opener :: datums, position⟩ =
      .ok (modeLineDescription "vim" "options" options) := by
  have known : Registry.standard.find? ⟨.symbol opener :: datums, position⟩ = some spec := by
    simp only [spec, List.mem_cons, List.not_mem_nil, or_false] at opens
    rcases opens with rfl | rfl | rfl <;> rfl
  have handled : spec.handler ⟨.symbol opener :: datums, position⟩ =
      .ok [("options", .mapping options)] := by
    show (collect [] datums >>= fun options => .ok _) = _
    rw [collected]
    rfl
  exact describe_mode_line known rfl handled (by decide)

/-- A mode line for Vim is decoded to the options that it was written from, each by its name with its
value or switched on: with or without a command in front, closed by a colon that stands alone or that
ends the last word. What comes after the colon does not matter. -/
theorem options_decoded {opener : Text} {command : Option Text} {options : List (Text × Option Text)}
    (opens : opener ∈ spec.keys) (known : ∀ c ∈ command, c ∈ setCommands)
    (encodable : ∀ o ∈ options, Encodable o) (trailing : List Datum) (position : Option Position) :
    Registry.standard.describe ⟨.symbol opener :: (command.toList.map .symbol ++
        (options.map (fun o => .symbol (optionWord o)) ++ .symbol ":" :: trailing)), position⟩ =
      .ok (modeLineDescription "vim" "options" (optionTable options)) ∧
      ∀ front last, options = front ++ [last] →
        Registry.standard.describe ⟨.symbol opener :: (command.toList.map .symbol ++
            (front.map (fun o => .symbol (optionWord o)) ++
              .symbol (optionWord last ++ ":") :: trailing)), position⟩ =
          .ok (modeLineDescription "vim" "options" (optionTable options)) := by
  have skip (rest : List Datum) : collect [] (command.toList.map .symbol ++ rest) = collect [] rest := by
    cases command with
    | none => rfl
    | some c => exact collect_command (known c rfl)
  constructor
  · have collected : collect [] (options.map (fun o => .symbol (optionWord o)) ++
        .symbol ":" :: trailing) = .ok (optionTable options) := by
      rw [collect_words encodable]
      exact collect_colon
    exact describe_of_collect opens ((skip _).trans collected) position
  · rintro front last rfl
    obtain ⟨others, closing⟩ := List.forall_mem_append.mp encodable
    have collected : collect [] (front.map (fun o => .symbol (optionWord o)) ++
        .symbol (optionWord last ++ ":") :: trailing) = .ok (optionTable (front ++ [last])) := by
      have table : optionTable (front ++ [last]) =
          (optionTable front).insert last.1 (optionValue last.2) := by
        unfold optionTable Table.insertAll
        rw [List.map_append, List.foldl_append]
        rfl
      rw [collect_words others, table]
      exact (closing last List.mem_cons_self).collect_closing
    exact describe_of_collect opens ((skip _).trans collected) position

/-- Colons and equals signs inside of words, a name that begins like a command, an option given twice,
and data after the colon that have no written form. -/
theorem options_decoded_colons :
    ∃ options : List (Text × Option Text),
      options = ([("ft", some "a=:b"), ("set:", some "1"), ("se", some ""), ("ft", none)] :
        List (Text × Option Text)) ∧
      (∀ o ∈ options, Encodable o) ∧
      Registry.standard.describe
          ⟨[.symbol "ex:", .symbol "se", .symbol "ft=a=:b", .symbol "set:=1", .symbol "se=",
            .symbol "ft:", .foreign .nothing []], none⟩ =
        .ok (modeLineDescription "vim" "options"
          [("ft", .flag true), ("set:", .text "1"), ("se", .text "")]) := by
  have encodable : ∀ o ∈ ([("ft", some "a=:b"), ("set:", some "1"), ("se", some ""), ("ft", none)] :
      List (Text × Option Text)), Encodable o := by
    intro o mem
    simp only [List.mem_cons, List.not_mem_nil, or_false] at mem
    rcases mem with rfl | rfl | rfl | rfl <;>
      exact ⟨by decide, by decide, by decide, by decide⟩
  have opens : ("ex:" : Text) ∈ spec.keys := by decide
  have known : ∀ c ∈ (some "se" : Option Text), c ∈ setCommands := by decide
  obtain ⟨-, closing⟩ := options_decoded opens known encodable [.foreign .nothing []] none
  exact ⟨_, rfl, encodable,
    closing [("ft", some "a=:b"), ("set:", some "1"), ("se", some "")] ("ft", none) rfl⟩

end Vim

/-! ## 2. Emacs -/

namespace Emacs

/-- The data of a mode line that set variables: the name of each with a colon at its end, and its
value. -/
def settingData (settings : List (Text × Datum)) : List Datum :=
  settings.flatMap fun s => [.symbol (s.1 ++ [colon]), s.2]

def settingWords (settings : List (Text × Text)) : List Text :=
  settings.flatMap fun s => [s.1 ++ [colon], s.2]

def variableTable (settings : List (Text × Text)) : Details :=
  Table.insertAll [] (settings.map fun s => (s.1, .text s.2))

/-- Two words at a time: a name with its colon, and a value that is not looked at. -/
theorem assign_words {t : Details} {settings : List (Text × Text)} (named : ∀ s ∈ settings, s.1 ≠ []) :
    assign t (settingWords settings) = t.insertAll (settings.map fun s => (s.1, .text s.2)) := by
  induction settings generalizing t with
  | nil =>
    show assign t [] = t
    rw [assign]
    intro word value rest same
    cases same
  | cons s settings ih =>
    obtain ⟨some_name, others⟩ := List.forall_mem_cons.mp named
    have positive := List.length_pos_iff.mpr some_name
    have names : (endsInColon (s.1 ++ [colon]) && decide (1 < (s.1 ++ [colon]).length)) = true := by
      rw [endsInColon, endsWith_colon, Bool.true_and, decide_eq_true_iff, List.length_append]
      exact Nat.add_lt_add_right positive 1
    show assign t ((s.1 ++ [colon]) :: s.2 :: settingWords settings) = _
    rw [assign, if_pos names, List.dropLast_concat, ih others]
    rfl

/-- The texts are the words of the values, in order, and none of them is the mark of a mode line. -/
def Spelled (settings : List (Text × Datum)) (texts : List Text) : Prop :=
  List.Forall₂ (fun s text => s.2.word = .ok text ∧ text ≠ delimiter) settings texts

theorem words_settingData {settings : List (Text × Datum)} {texts : List Text}
    (spelled : Spelled settings texts) :
    (settingData settings).mapM Datum.word =
      .ok (settingWords ((settings.map Prod.fst).zip texts)) := by
  induction spelled with
  | nil => rfl
  | @cons s text settings texts first _ ih =>
    have here : [.symbol (s.1 ++ [colon]), s.2].mapM Datum.word = .ok [s.1 ++ [colon], text] := by
      rw [List.mapM_cons, List.mapM_cons, first.1]
      rfl
    exact mapM_append_ok here ih

theorem exists_words {datums : List Datum} (writable : ∀ d ∈ datums, ∃ word, d.word = .ok word) :
    ∃ words, datums.mapM Datum.word = .ok words := by
  induction datums with
  | nil => exact ⟨[], rfl⟩
  | cons d datums ih =>
    obtain ⟨⟨word, first⟩, others⟩ := List.forall_mem_cons.mp writable
    obtain ⟨words, rest⟩ := ih others
    refine ⟨word :: words, ?_⟩
    rw [List.mapM_cons, first, rest]
    rfl

theorem name_ne_delimiter (name : Text) : name ++ [colon] ≠ delimiter := by
  intro same
  have closed := endsWith_colon name
  rw [same] at closed
  cases closed

/-- A name with its colon is no mark, and neither is a value. -/
theorem delimiter_not_mem {settings : List (Text × Datum)} {texts : List Text}
    (spelled : Spelled settings texts) :
    delimiter ∉ settingWords ((settings.map Prod.fst).zip texts) := by
  induction spelled with
  | nil => exact List.not_mem_nil
  | @cons s text settings texts first _ ih =>
    show delimiter ∉ (s.1 ++ [colon]) :: text :: settingWords ((settings.map Prod.fst).zip texts)
    exact List.not_mem_cons_of_ne_of_not_mem (name_ne_delimiter s.1).symm
      (List.not_mem_cons_of_ne_of_not_mem first.2.symm ih)

theorem content_between {words more : List Text} (apart : delimiter ∉ words) :
    content (delimiter :: (words ++ delimiter :: more)) = words := by
  have other : ∀ word ∈ words, decide (word ≠ delimiter) = true := by
    intro word mem
    rw [decide_eq_true_iff]
    rintro rfl
    exact apart mem
  have taken : (words ++ delimiter :: more).takeWhile (fun word => decide (word ≠ delimiter)) = words := by
    rw [List.takeWhile_append_of_pos other, List.takeWhile_cons_of_neg (by decide), List.append_nil]
  rw [content, if_pos rfl]
  exact taken

/-- The first word is a name, not a mark. -/
theorem content_settingWords (settings : List (Text × Text)) :
    content (settingWords settings) = settingWords settings := by
  cases settings with
  | nil => rfl
  | cons s settings => exact if_neg (name_ne_delimiter s.1)

/-- There is never a single word, which would be taken for a mode. -/
theorem fileVariables_settingWords {settings : List (Text × Text)} (named : ∀ s ∈ settings, s.1 ≠ []) :
    fileVariables (settingWords settings) = variableTable settings := by
  have assigned := assign_words (t := []) named
  cases settings with
  | nil => exact assigned
  | cons s settings => exact assigned

theorem describe_of_words {head : Text} {datums : List Datum} {words : List Text}
    (opens : head ∈ spec.keys) (written : (Datum.symbol head :: datums).mapM Datum.word = .ok words)
    (position : Option Position) :
    Registry.standard.describe ⟨.symbol head :: datums, position⟩ =
      .ok (modeLineDescription "emacs" "variables" (fileVariables (content words))) := by
  have known : Registry.standard.find? ⟨.symbol head :: datums, position⟩ = some spec := by
    simp only [spec, List.mem_cons, List.not_mem_nil, or_false] at opens
    rcases opens with rfl | rfl <;> rfl
  have handled : spec.handler ⟨.symbol head :: datums, position⟩ =
      .ok [("variables", .mapping (fileVariables (content words)))] := by
    obtain ⟨first, others, rfl⟩ : ∃ first others, words = first :: others := by
      rw [List.mapM_cons] at written
      obtain ⟨first, -, written⟩ := bind_eq_ok.mp written
      obtain ⟨others, -, packed⟩ := bind_eq_ok.mp written
      exact ⟨first, others, (Except.ok.inj packed).symm⟩
    show ((Datum.symbol head :: datums).mapM Datum.word >>= _) = _
    rw [written]
    rfl
  exact describe_mode_line known rfl handled (by decide)

/-- A mode line for Emacs is decoded to the variables that it was written from, each with its value in
words, whatever stands after the closing mark. The marks may be missing if the first variable is the mode
and nothing else follows. -/
theorem variables_decoded {settings : List (Text × Datum)} {texts : List Text} {trailing : List Datum}
    (named : ∀ s ∈ settings, s.1 ≠ []) (spelled : Spelled settings texts)
    (writable : ∀ d ∈ trailing, ∃ word, d.word = .ok word) (position : Option Position) :
    Registry.standard.describe
        ⟨.symbol delimiter :: (settingData settings ++ .symbol delimiter :: trailing), position⟩ =
      .ok (modeLineDescription "emacs" "variables"
        (variableTable ((settings.map Prod.fst).zip texts))) ∧
      ∀ value others, settings = (("mode" : Text), value) :: others →
        Registry.standard.describe ⟨settingData settings, position⟩ =
          .ok (modeLineDescription "emacs" "variables"
            (variableTable ((settings.map Prod.fst).zip texts))) := by
  have words := words_settingData spelled
  have named' : ∀ s ∈ (settings.map Prod.fst).zip texts, s.1 ≠ [] := by
    intro s mem
    obtain ⟨setting, here, same⟩ := List.mem_map.mp (List.of_mem_zip mem).1
    rw [← same]
    exact named setting here
  constructor
  · obtain ⟨more, written⟩ := exists_words writable
    have closing : (Datum.symbol delimiter :: trailing).mapM Datum.word = .ok (delimiter :: more) := by
      rw [List.mapM_cons, written]
      rfl
    have whole : (Datum.symbol delimiter :: (settingData settings ++ .symbol delimiter :: trailing)).mapM
        Datum.word = .ok (delimiter ::
          (settingWords ((settings.map Prod.fst).zip texts) ++ delimiter :: more)) := by
      rw [List.mapM_cons, mapM_append_ok words closing]
      rfl
    rw [describe_of_words (by decide) whole, content_between (delimiter_not_mem spelled),
      fileVariables_settingWords named']
  · rintro value others rfl
    have opens : ("mode:" : Text) ∈ spec.keys := by decide
    have described := describe_of_words opens words position
    rwa [content_settingWords, fileVariables_settingWords named'] at described

/-- A value that ends in a colon and one that reads like a name, a variable set twice, and a mark and more
after the closing mark. -/
theorem variables_decoded_colons :
    ∃ (settings : List (Text × Datum)) (texts : List Text) (trailing : List Datum),
      settings = ([("mode", .symbol "eval:"), ("eval", .boolean true), ("mode", .string "a")] :
        List (Text × Datum)) ∧
      texts = (["eval:", "#t", "\"a\""] : List Text) ∧
      trailing = [.symbol delimiter, .symbol "mode:", .boolean true] ∧
      (∀ s ∈ settings, s.1 ≠ []) ∧ Spelled settings texts ∧
      (∀ d ∈ trailing, ∃ word, d.word = .ok word) ∧
      Registry.standard.describe
          ⟨.symbol delimiter :: (settingData settings ++ .symbol delimiter :: trailing), none⟩ =
        .ok (modeLineDescription "emacs" "variables"
          [("mode", .text "\"a\""), ("eval", .text "#t")]) ∧
      Registry.standard.describe ⟨settingData settings, none⟩ =
        .ok (modeLineDescription "emacs" "variables"
          [("mode", .text "\"a\""), ("eval", .text "#t")]) := by
  have named : ∀ s ∈ ([("mode", .symbol "eval:"), ("eval", .boolean true), ("mode", .string "a")] :
      List (Text × Datum)), s.1 ≠ [] := by
    intro s mem
    simp only [List.mem_cons, List.not_mem_nil, or_false] at mem
    rcases mem with rfl | rfl | rfl <;> decide
  have spelled : Spelled [("mode", .symbol "eval:"), ("eval", .boolean true), ("mode", .string "a")]
      ["eval:", "#t", "\"a\""] :=
    .cons ⟨rfl, by decide⟩ (.cons ⟨rfl, by decide⟩ (.cons ⟨rfl, by decide⟩ .nil))
  have writable : ∀ d ∈ ([.symbol delimiter, .symbol "mode:", .boolean true] : List Datum),
      ∃ word, d.word = .ok word := by
    intro d mem
    simp only [List.mem_cons, List.not_mem_nil, or_false] at mem
    rcases mem with rfl | rfl | rfl <;> exact ⟨_, rfl⟩
  obtain ⟨marked, unmarked⟩ := variables_decoded named spelled writable none
  exact ⟨_, _, _, rfl, rfl, rfl, named, spelled, writable, marked, unmarked _ _ rfl⟩

end Emacs

end LineDirective
