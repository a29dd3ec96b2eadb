import Mathlib.Data.List.Induction
import ExpiringStore.Proofs.CommandLine.Occurrences

/-!
# Which source of a setting counts

The last occurrence of an option, else the variable of the environment, else the
standard value. Every value that is given among the arguments is checked, but only those
variables that are looked up.
-/
namespace ExpiringStore.CommandLine

def occurrencesOf (occurrences : List Occurrence) (s : Setting) : List Occurrence :=
  occurrences.filter fun occurrence => occurrence.setting == s

theorem mem_occurrencesOf {occurrences : List Occurrence} {s : Setting} {occurrence : Occurrence} :
    occurrence ∈ occurrencesOf occurrences s ↔
      occurrence ∈ occurrences ∧ occurrence.setting = s := by
  rw [occurrencesOf, List.mem_filter, beq_iff_eq]

/-- What the last occurrence of an option asks for, if there is one and its text is valid. -/
def given? (occurrences : List Occurrence) (s : Setting) : Option SettingValue :=
  (occurrencesOf occurrences s).getLast?.bind Occurrence.value?

/-- What decides a setting: its last occurrence, else its variable, else what holds where nothing is
said. There is none if what decides is not valid. -/
def decided? (occurrences : List Occurrence) (env : Environment) (s : Setting) :
    Option SettingValue :=
  match (occurrencesOf occurrences s).getLast? with
  | some occurrence => occurrence.value?
  | none =>
    match env.get? s.variableName with
    | some text => s.read? text
    | none => some (s.valueIn Config.standard)

theorem occurrencesOf_append (front back : List Occurrence) (s : Setting) :
    occurrencesOf (front ++ back) s = occurrencesOf front s ++ occurrencesOf back s :=
  List.filter_append ..

/-! ## The arguments -/

/-- Valid occurrences are set, the last one of each option to stay. -/
theorem exists_settings_of_valid (occurrences : List Occurrence)
    (valid : ∀ occurrence ∈ occurrences, occurrence.value?.isSome = true) :
    ∃ settings, occurrences.foldlM Occurrence.apply Settings.empty = .ok settings ∧
      ∀ s, settings.get? s = given? occurrences s := by
  induction occurrences using List.reverseRecOn with
  | nil => exact ⟨Settings.empty, rfl, fun s => Settings.get?_empty s⟩
  | append_singleton front last ih =>
    obtain ⟨settings, set, holds⟩ := ih fun occurrence mem =>
      valid occurrence (List.mem_append_left _ mem)
    obtain ⟨value, asked⟩ := Option.isSome_iff_exists.mp (valid last List.mem_concat_self)
    have puts := Occurrence.puts_apply settings last
    rw [asked] at puts
    obtain ⟨after, applied, sets⟩ := puts
    refine ⟨after, ?_, fun s => ?_⟩
    · rw [List.foldlM_append, set]
      show last.apply settings >>= pure = _
      rw [applied]
      rfl
    · rw [sets, given?, occurrencesOf_append]
      by_cases same : s = last.setting
      · subst same
        simp [occurrencesOf, asked]
      · have other : occurrencesOf [last] s = [] := by simp [occurrencesOf, Ne.symm same]
        rw [if_neg same, other, List.append_nil, holds]
        rfl

/-- One value that is not valid is enough for a refusal. -/
theorem exists_error_of_invalid {occurrences : List Occurrence} {occurrence : Occurrence}
    (mem : occurrence ∈ occurrences) (invalid : occurrence.value? = none) (settings : Settings) :
    ∃ e, occurrences.foldlM Occurrence.apply settings = .error e := by
  induction occurrences generalizing settings with
  | nil => cases mem
  | cons first rest ih =>
    rw [List.foldlM_cons]
    cases applied : first.apply settings with
    | error e => exact ⟨e, rfl⟩
    | ok after =>
      rcases List.mem_cons.mp mem with rfl | later
      · have puts := Occurrence.puts_apply settings occurrence
        rw [invalid] at puts
        obtain ⟨e, refused⟩ := puts
        rw [applied] at refused
        cases refused
      · exact ih later after

/-! ## The environment -/

/-- What a setting's variable asks for, if it is set to a valid text. -/
def lookedUp? (env : Environment) (s : Setting) : Option SettingValue :=
  (env.get? s.variableName).bind s.read?

/-- Whether a setting's variable is not set or is valid. -/
def Usable (env : Environment) (s : Setting) : Prop :=
  ∀ text, env.get? s.variableName = some text → (s.read? text).isSome = true

theorem puts_readVariable (env : Environment) {settings : Settings} {s : Setting} {text : String}
    (notSet : settings.get? s = none) (looked : env.get? s.variableName = some text) :
    settings.Puts s (s.read? text) (readVariable env settings s) := by
  rw [readVariable, Settings.has_eq_isSome_get?, notSet, looked]
  simp only [Option.isSome_none, Bool.false_eq_true, if_false]
  cases flag : s.isFlag with
  | false => exact settings.puts_store flag text
  | true =>
    rw [Setting.read?_of_isFlag flag, if_pos rfl]
    split
    · exact settings.puts_setFlag flag true
    · split
      · exact settings.puts_setFlag flag false
      · exact ⟨_, rfl⟩

/-- A usable variable sets its setting if nothing else has, and no other. -/
theorem exists_settings_of_usable {env : Environment} {settings : Settings} {s : Setting}
    (usable : settings.get? s = none → Usable env s) :
    ∃ after, readVariable env settings s = .ok after ∧
      ∀ other, after.get? other =
        if other = s then (settings.get? s).or (lookedUp? env s) else settings.get? other := by
  have kept (same : settings.get? s = (settings.get? s).or (lookedUp? env s)) (other : Setting) :
      settings.get? other =
        if other = s then (settings.get? s).or (lookedUp? env s) else settings.get? other := by
    split
    · rename_i is
      rw [is, ← same]
    · rfl
  cases set : settings.get? s with
  | some value =>
    refine ⟨settings, ?_, set ▸ kept (by rw [set]; rfl)⟩
    rw [readVariable, Settings.has_eq_isSome_get?, set]
    rfl
  | none =>
    cases looked : env.get? s.variableName with
    | none =>
      refine ⟨settings, ?_, set ▸ kept (by rw [set, lookedUp?, looked]; rfl)⟩
      rw [readVariable, Settings.has_eq_isSome_get?, set, looked]
      rfl
    | some text =>
      obtain ⟨value, valid⟩ := Option.isSome_iff_exists.mp (usable set text looked)
      have puts := puts_readVariable env set looked
      rw [valid] at puts
      obtain ⟨after, read, sets⟩ := puts
      refine ⟨after, read, fun other => ?_⟩
      rw [sets, lookedUp?, looked, Option.bind_some, valid]
      rfl

/-- A variable that is looked up and not usable is refused. -/
theorem exists_error_of_unusable {env : Environment} {settings : Settings} {s : Setting}
    (notSet : settings.get? s = none) (unusable : ¬Usable env s) :
    ∃ e, readVariable env settings s = .error e := by
  simp only [Usable, not_forall] at unusable
  obtain ⟨text, looked, invalid⟩ := unusable
  have puts := puts_readVariable env notSet looked
  rw [Option.not_isSome_iff_eq_none.mp invalid] at puts
  exact puts

/-- Looking up settings in a row, none of them twice. -/
theorem exists_settings_of_all_usable {env : Environment} {todo : List Setting}
    (distinct : todo.Nodup) {settings : Settings}
    (usable : ∀ s ∈ todo, settings.get? s = none → Usable env s) :
    ∃ after, todo.foldlM (readVariable env) settings = .ok after ∧
      ∀ s, after.get? s =
        if s ∈ todo then (settings.get? s).or (lookedUp? env s) else settings.get? s := by
  induction todo generalizing settings with
  | nil => exact ⟨settings, rfl, fun s => (if_neg List.not_mem_nil).symm⟩
  | cons first rest ih =>
    obtain ⟨new, distinct⟩ := List.nodup_cons.mp distinct
    obtain ⟨next, read, sets⟩ := exists_settings_of_usable (usable first List.mem_cons_self)
    have others (s : Setting) (mem : s ∈ rest) : next.get? s = settings.get? s := by
      rw [sets, if_neg]
      rintro rfl
      exact new mem
    obtain ⟨after, readAll, setAll⟩ := ih distinct fun s mem notSet =>
      usable s (List.mem_cons_of_mem _ mem) (others s mem ▸ notSet)
    refine ⟨after, ?_, fun s => ?_⟩
    · rw [List.foldlM_cons, read]
      exact readAll
    · rw [setAll]
      by_cases mem : s ∈ rest
      · rw [if_pos mem, if_pos (List.mem_cons_of_mem _ mem), others s mem]
      · rw [if_neg mem, sets]
        by_cases same : s = first
        · rw [if_pos same, if_pos (same ▸ List.mem_cons_self), same]
        · rw [if_neg same, if_neg fun has => (List.mem_cons.mp has).elim same mem]

theorem exists_error_of_some_unusable {env : Environment} {todo : List Setting} {s : Setting}
    (mem : s ∈ todo) {settings : Settings} (notSet : settings.get? s = none)
    (unusable : ¬Usable env s) :
    ∃ e, todo.foldlM (readVariable env) settings = .error e := by
  induction todo generalizing settings with
  | nil => cases mem
  | cons first rest ih =>
    rw [List.foldlM_cons]
    by_cases refused : settings.get? first = none ∧ ¬Usable env first
    · obtain ⟨e, error⟩ := exists_error_of_unusable refused.1 refused.2
      exact ⟨e, by rw [error]; rfl⟩
    · obtain ⟨next, read, sets⟩ := exists_settings_of_usable fun notSet =>
        Classical.not_not.mp fun unusable => refused ⟨notSet, unusable⟩
      rw [read]
      have differs : s ≠ first := by
        rintro rfl
        exact refused ⟨notSet, unusable⟩
      refine ih ((List.mem_cons.mp mem).resolve_left differs) ?_
      rw [sets, if_neg differs, notSet]

end ExpiringStore.CommandLine
