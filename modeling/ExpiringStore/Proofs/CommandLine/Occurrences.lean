import ExpiringStore.Proofs.CommandLine.Values

/-!
# Options as they stand among the arguments

An option with its value behind it or attached to it, or a flag under one of its names. A
command line that is made of such is read as one setting after the other, whenever the reader
gets round to checking a value.
-/
namespace ExpiringStore.CommandLine

/-- One occurrence of an option: with its value in the next argument, which then must not begin with
a hyphen, with its value behind an equals sign, or as a flag. -/
inductive Occurrence where
  | separate (setting : Setting) (text : String) (valued : setting.isFlag = false)
    (plain : text.toList.head? ≠ some '-')
  | attached (setting : Setting) (text : String) (valued : setting.isFlag = false)
  | flag (setting : Setting) (name : String) (isFlag : setting.isFlag = true)
    (names : name = setting.longName ∨ setting.hiddenName? = some name)

namespace Occurrence

def setting : Occurrence → Setting
  | .separate s _ _ _ | .attached s _ _ | .flag s _ _ _ => s

def text? : Occurrence → Option String
  | .separate _ text _ _ | .attached _ text _ => some text
  | .flag _ _ _ _ => none

/-- What an occurrence asks its setting to be, if its text is valid. -/
def value? (occurrence : Occurrence) : Option SettingValue :=
  match occurrence.text? with
  | some text => occurrence.setting.read? text
  | none => some (.switch true)

def arguments : Occurrence → List String
  | .separate s text _ _ => ["--" ++ s.longName, text]
  | .attached s text _ => ["--" ++ s.longName ++ "=" ++ text]
  | .flag _ name _ _ => ["--" ++ name]

def apply (settings : Settings) : Occurrence → Except EarlyExit Settings
  | .separate s text _ _ | .attached s text _ => store settings s text
  | .flag s _ _ _ => .ok (settings.setFlag s true)

theorem puts_apply (settings : Settings) (occurrence : Occurrence) :
    settings.Puts occurrence.setting occurrence.value? (occurrence.apply settings) := by
  cases occurrence with
  | separate s text valued plain => exact settings.puts_store valued text
  | attached s text valued => exact settings.puts_store valued text
  | flag s name isFlag names => exact settings.puts_setFlag isFlag true

end Occurrence

/-! ## Single arguments -/

/-- The names of options hold no equals sign and ask nothing, and each belongs to its setting. -/
theorem names_of_setting {s : Setting} {name : String}
    (names : name = s.longName ∨ s.hiddenName? = some name) :
    '=' ∉ name.toList ∧ Query.ofName? name = none ∧ Setting.ofName? name = some s := by
  rcases names with rfl | hidden
  · cases s <;> decide
  · cases s with
    | disableHttp =>
      obtain rfl := Option.some.inj hidden
      decide
    | disableGrpc =>
      obtain rfl := Option.some.inj hidden
      decide
    | host | httpPort | grpcPort | sweepIntervalMillis => cases hidden

/-- A name reaches to the equals sign behind it, if there is one. -/
theorem split_at_equals {name rest : List Char} (noEquals : '=' ∉ name)
    (ends : ∀ c ∈ rest.head?, c = '=') :
    (name ++ rest).takeWhile (· != '=') = name ∧ (name ++ rest).dropWhile (· != '=') = rest := by
  have others : ∀ c ∈ name, (c != '=') = true := by
    intro c mem
    rw [bne_iff_ne]
    rintro rfl
    exact noEquals mem
  rw [List.takeWhile_append_of_pos others, List.dropWhile_append_of_pos others]
  cases rest with
  | nil => exact ⟨List.append_nil _, rfl⟩
  | cons c behind =>
    obtain rfl : c = '=' := ends c rfl
    simp

theorem ofString_long {name : String} (noEquals : '=' ∉ name.toList) :
    Argument.ofString ("--" ++ name) = .long name none := by
  have letters : ("--" ++ name).toList = '-' :: '-' :: (name.toList ++ []) := by simp
  obtain ⟨before, behind⟩ := @split_at_equals name.toList [] noEquals nofun
  rw [Argument.ofString, letters]
  simp only [before, behind, String.ofList_toList]

theorem ofString_attached {name : String} (noEquals : '=' ∉ name.toList) (text : String) :
    Argument.ofString ("--" ++ name ++ "=" ++ text) = .long name (some text) := by
  have letters : ("--" ++ name ++ "=" ++ text).toList =
      '-' :: '-' :: (name.toList ++ '=' :: text.toList) := by
    simp
  obtain ⟨before, behind⟩ :=
    @split_at_equals name.toList ('=' :: text.toList) noEquals fun _ is => by
    rw [← Option.some.inj is]
  rw [Argument.ofString, letters]
  simp only [before, behind, String.ofList_toList]

theorem ofString_plain {text : String} (plain : text.toList.head? ≠ some '-') :
    Argument.ofString text = .plain text := by
  unfold Argument.ofString
  split
  · rename_i begins
    simp [begins] at plain
  · rename_i begins
    simp [begins] at plain
  · rfl

section

variable (env : Environment) (p : Progress)

theorem step_separate {s : Setting} (valued : s.isFlag = false) :
    step env p ("--" ++ s.longName) = p.settle.map fun settings => ⟨settings, some ⟨s, none⟩⟩ := by
  obtain ⟨noEquals, asks, belongs⟩ := names_of_setting (s := s) (.inl rfl)
  simp only [step, ofString_long noEquals, stepLong, asks, belongs, valued, Bool.false_eq_true,
    if_false]
  cases p.settle <;> rfl

theorem step_attached {s : Setting} (valued : s.isFlag = false) (text : String) :
    step env p ("--" ++ s.longName ++ "=" ++ text) =
      p.settle.bind fun settings => (store settings s text).map fun after => ⟨after, none⟩ := by
  obtain ⟨noEquals, asks, belongs⟩ := names_of_setting (s := s) (.inl rfl)
  simp only [step, ofString_attached noEquals, stepLong, asks, belongs, valued, Bool.false_eq_true,
    if_false]
  cases p.settle <;> rfl

theorem step_flag {s : Setting} {name : String} (isFlag : s.isFlag = true)
    (names : name = s.longName ∨ s.hiddenName? = some name) :
    step env p ("--" ++ name) = p.settle.map fun settings => ⟨settings.setFlag s true, none⟩ := by
  obtain ⟨noEquals, asks, belongs⟩ := names_of_setting names
  simp only [step, ofString_long noEquals, stepLong, asks, belongs, isFlag, if_true]

theorem step_plain {text : String} (plain : text.toList.head? ≠ some '-') (settings : Settings)
    (s : Setting) :
    step env ⟨settings, some ⟨s, none⟩⟩ text = .ok ⟨settings, some ⟨s, some text⟩⟩ := by
  simp only [step, ofString_plain plain, stepPlain]

/-- An option's argument is more than two bare hyphens. -/
theorem long_ne_hyphens {name : String} {s : Setting} (belongs : Setting.ofName? name = some s)
    (value : Option String) : Argument.long name value ≠ .long "" none := by
  intro same
  have nothing : Setting.ofName? "" = none := by decide
  rw [(Argument.long.inj same).1, nothing] at belongs
  cases belongs

/-- An argument of any other shape than two bare hyphens is read by itself. -/
theorem readArguments_cons {argument : String} (shape : Argument.ofString argument ≠ .long "" none)
    (rest : List String) :
    readArguments env p (argument :: rest) = (step env p argument).bind fun p =>
      readArguments env p rest := by
  have option : argument ≠ "--" := by
    rintro rfl
    exact shape (by decide)
  rw [readArguments]
  · cases step env p argument <;> rfl
  · rintro rfl
    exact fun _ => option rfl
  · rintro extra others rfl
    exact fun _ => option rfl

end

def arguments (occurrences : List Occurrence) : List String :=
  occurrences.flatMap Occurrence.arguments

/-- Reading one occurrence checks the value that waits, and leaves what it
asks for set or waiting. -/
theorem readArguments_occurrence (env : Environment) (p : Progress) (occurrence : Occurrence)
    (rest : List String) :
    ∃ next : Settings → Except EarlyExit Progress,
      readArguments env p (occurrence.arguments ++ rest) =
        p.settle.bind (fun settings => (next settings).bind fun p => readArguments env p rest) ∧
      ∀ settings, (next settings).bind Progress.settle = occurrence.apply settings := by
  cases occurrence with
  | separate s text valued plain =>
    obtain ⟨noEquals, -, belongs⟩ := names_of_setting (s := s) (.inl rfl)
    refine ⟨fun settings => .ok ⟨settings, some ⟨s, some text⟩⟩, ?_, fun settings => rfl⟩
    have named : Argument.ofString ("--" ++ s.longName) ≠ .long "" none := by
      rw [ofString_long noEquals]
      exact long_ne_hyphens belongs none
    have value : Argument.ofString text ≠ .long "" none := by
      rw [ofString_plain plain]
      nofun
    rw [Occurrence.arguments, List.cons_append, List.singleton_append, readArguments_cons _ _ named,
      step_separate _ _ valued]
    cases p.settle with
    | error e => rfl
    | ok settings =>
      show readArguments env ⟨settings, some ⟨s, none⟩⟩ (text :: rest) = _
      rw [readArguments_cons _ _ value, step_plain _ plain]
      rfl
  | attached s text valued =>
    obtain ⟨noEquals, -, belongs⟩ := names_of_setting (s := s) (.inl rfl)
    refine ⟨fun settings => (store settings s text).map fun after => ⟨after, none⟩, ?_,
      fun settings => ?_⟩
    · have named : Argument.ofString ("--" ++ s.longName ++ "=" ++ text) ≠ .long "" none := by
        rw [ofString_attached noEquals]
        exact long_ne_hyphens belongs (some text)
      rw [Occurrence.arguments, List.singleton_append, readArguments_cons _ _ named,
        step_attached _ _ valued]
      cases p.settle <;> rfl
    · show ((store settings s text).map fun after => ⟨after, none⟩).bind Progress.settle =
        store settings s text
      cases store settings s text <;> rfl
  | flag s name isFlag names =>
    obtain ⟨noEquals, -, belongs⟩ := names_of_setting names
    refine ⟨fun settings => .ok ⟨settings.setFlag s true, none⟩, ?_, fun settings => rfl⟩
    have named : Argument.ofString ("--" ++ name) ≠ .long "" none := by
      rw [ofString_long noEquals]
      exact long_ne_hyphens belongs none
    rw [Occurrence.arguments, List.singleton_append, readArguments_cons _ _ named,
      step_flag _ _ isFlag names]
    cases p.settle <;> rfl

/-- Reading occurrences sets what they ask for, one after the other. Whether a value is checked at
once or only when the next option is met makes no difference. -/
theorem readArguments_arguments (env : Environment) (p : Progress) (occurrences : List Occurrence) :
    readArguments env p (arguments occurrences) =
      p.settle.bind fun settings => occurrences.foldlM Occurrence.apply settings := by
  induction occurrences generalizing p with
  | nil =>
    show p.settle = _
    cases p.settle <;> rfl
  | cons first rest ih =>
    obtain ⟨next, read, settles⟩ := readArguments_occurrence env p first (arguments rest)
    show readArguments env p (first.arguments ++ arguments rest) = _
    rw [read]
    cases p.settle with
    | error e => rfl
    | ok settings =>
      show (next settings).bind (fun p => readArguments env p (arguments rest)) =
        (first.apply settings).bind fun after => rest.foldlM Occurrence.apply after
      rw [← settles settings]
      cases next settings with
      | error e => rfl
      | ok p => exact ih p

end ExpiringStore.CommandLine
