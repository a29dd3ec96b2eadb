import Mathlib.Data.List.Forall2
import ExpiringStore.Proofs.CommandLine.Precedence

/-!
# The configuration that is asked for

What a command line of options and an environment come to: whether they are accepted, what each
setting then is, and how little the order and the spelling of the options matter.
-/
namespace ExpiringStore

theorem Setting.mem_all (s : Setting) : s ∈ all := by
  cases s <;> decide

theorem Setting.nodup_all : all.Nodup := by decide

namespace CommandLine

/-- Whether all that is checked is valid: each value among the arguments, and the variable of each
option that does not occur among them. -/
structure Acceptable (occurrences : List Occurrence) (env : Environment) : Prop where
  values : ∀ occurrence ∈ occurrences, occurrence.value?.isSome = true
  lookups : ∀ s, occurrencesOf occurrences s = [] → Usable env s

/-- A command line of options is read as its occurrences, and then the environment. -/
theorem parse_arguments (occurrences : List Occurrence) (env : Environment) :
    parse (arguments occurrences) env =
      (occurrences.foldlM Occurrence.apply Settings.empty).bind fun settings =>
        (Setting.all.foldlM (readVariable env) settings).map Settings.toConfig := by
  have read : readArguments env Progress.start (arguments occurrences) =
      occurrences.foldlM Occurrence.apply Settings.empty :=
    readArguments_arguments env Progress.start occurrences
  rw [parse, read]
  cases occurrences.foldlM Occurrence.apply Settings.empty <;> rfl

theorem given?_eq_none_iff {occurrences : List Occurrence}
    (valid : ∀ occurrence ∈ occurrences, occurrence.value?.isSome = true) {s : Setting} :
    given? occurrences s = none ↔ occurrencesOf occurrences s = [] := by
  rw [← List.getLast?_eq_none_iff, given?]
  cases last : (occurrencesOf occurrences s).getLast? with
  | none => simp
  | some occurrence =>
    have mem := (mem_occurrencesOf.mp (List.mem_of_getLast? last)).1
    obtain ⟨value, asked⟩ := Option.isSome_iff_exists.mp (valid occurrence mem)
    simp [asked]

/-- What is acceptable is accepted, and every setting is what decides it. -/
theorem exists_config_of_acceptable {occurrences : List Occurrence} {env : Environment}
    (acceptable : Acceptable occurrences env) :
    ∃ config, parse (arguments occurrences) env = .ok config ∧
      ∀ s, decided? occurrences env s = some (s.valueIn config) := by
  obtain ⟨values, lookups⟩ := acceptable
  obtain ⟨settings, set, holds⟩ := exists_settings_of_valid occurrences values
  obtain ⟨after, read, sets⟩ := exists_settings_of_all_usable Setting.nodup_all fun s _ notSet =>
    lookups s ((given?_eq_none_iff values).mp (holds s ▸ notSet))
  refine ⟨after.toConfig, ?_, fun s => ?_⟩
  · rw [parse_arguments, set]
    show (Setting.all.foldlM (readVariable env) settings).map Settings.toConfig = _
    rw [read]
    rfl
  · rw [Settings.valueIn_toConfig, sets, if_pos s.mem_all, holds, given?, decided?]
    cases last : (occurrencesOf occurrences s).getLast? with
    | some occurrence =>
      have mem := (mem_occurrencesOf.mp (List.mem_of_getLast? last)).1
      obtain ⟨value, asked⟩ := Option.isSome_iff_exists.mp (values occurrence mem)
      simp only [Option.bind_some, asked, Option.some_or, Option.getD_some]
    | none =>
      have usable := lookups s (List.getLast?_eq_none_iff.mp last)
      simp only [Option.bind_none, Option.none_or, lookedUp?]
      cases looked : env.get? s.variableName with
      | none => rfl
      | some text =>
        obtain ⟨value, asked⟩ := Option.isSome_iff_exists.mp (usable text looked)
        simp only [Option.bind_some, asked, Option.getD_some]

/-- Whatever is not acceptable is refused. -/
theorem exists_error_of_not_acceptable {occurrences : List Occurrence} {env : Environment}
    (unacceptable : ¬Acceptable occurrences env) :
    ∃ e, parse (arguments occurrences) env = .error e := by
  rw [parse_arguments]
  by_cases values : ∀ occurrence ∈ occurrences, occurrence.value?.isSome = true
  · have lookups : ¬∀ s, occurrencesOf occurrences s = [] → Usable env s :=
      fun lookups => unacceptable ⟨values, lookups⟩
    simp only [not_forall] at lookups
    obtain ⟨s, absent, unusable⟩ := lookups
    obtain ⟨settings, set, holds⟩ := exists_settings_of_valid occurrences values
    have notSet : settings.get? s = none := by rw [holds, given?_eq_none_iff values, absent]
    obtain ⟨e, refused⟩ := exists_error_of_some_unusable s.mem_all notSet unusable
    rw [set]
    exact ⟨e, by show Except.map _ _ = _; rw [refused]; rfl⟩
  · simp only [not_forall] at values
    obtain ⟨occurrence, mem, invalid⟩ := values
    obtain ⟨e, refused⟩ :=
      exists_error_of_invalid mem (Option.not_isSome_iff_eq_none.mp invalid) Settings.empty
    exact ⟨e, by rw [refused]; rfl⟩

theorem exists_config_iff {occurrences : List Occurrence} {env : Environment} :
    (∃ config, parse (arguments occurrences) env = .ok config) ↔ Acceptable occurrences env := by
  constructor
  · rintro ⟨config, accepted⟩
    by_contra unacceptable
    obtain ⟨e, refused⟩ := exists_error_of_not_acceptable unacceptable
    rw [accepted] at refused
    cases refused
  · intro acceptable
    obtain ⟨config, accepted, -⟩ := exists_config_of_acceptable acceptable
    exact ⟨config, accepted⟩

theorem decided?_of_ok {occurrences : List Occurrence} {env : Environment} {config : Config}
    (accepted : parse (arguments occurrences) env = .ok config) (s : Setting) :
    decided? occurrences env s = some (s.valueIn config) := by
  obtain ⟨other, again, decided⟩ :=
    exists_config_of_acceptable (exists_config_iff.mp ⟨config, accepted⟩)
  rw [accepted] at again
  rw [decided s, Except.ok.inj again]

/-! ## What does not matter -/

/-- The texts that the occurrences of one option give it, in order. -/
def textsOf (occurrences : List Occurrence) (s : Setting) : List (Option String) :=
  (occurrencesOf occurrences s).map Occurrence.text?

/-- What a setting is asked to be by an occurrence with a text or, of a flag, without one. -/
def valueOf? (s : Setting) : Option String → Option SettingValue
  | some text => s.read? text
  | none => some (.switch true)

theorem value?_of_mem {occurrences : List Occurrence} {s : Setting} {occurrence : Occurrence}
    (mem : occurrence ∈ occurrencesOf occurrences s) :
    occurrence.value? = valueOf? s occurrence.text? := by
  obtain ⟨-, rfl⟩ := mem_occurrencesOf.mp mem
  rw [Occurrence.value?]
  cases occurrence.text? <;> rfl

theorem values_iff (occurrences : List Occurrence) :
    (∀ occurrence ∈ occurrences, occurrence.value?.isSome = true) ↔
      ∀ s, ∀ text ∈ textsOf occurrences s, (valueOf? s text).isSome = true := by
  constructor
  · intro valid s text mem
    obtain ⟨occurrence, among, rfl⟩ := List.mem_map.mp mem
    rw [← value?_of_mem among]
    exact valid occurrence (mem_occurrencesOf.mp among).1
  · intro valid occurrence mem
    have among : occurrence ∈ occurrencesOf occurrences occurrence.setting :=
      mem_occurrencesOf.mpr ⟨mem, rfl⟩
    rw [value?_of_mem among]
    exact valid _ _ (List.mem_map_of_mem among)

theorem decided?_eq (occurrences : List Occurrence) (env : Environment) (s : Setting) :
    decided? occurrences env s =
      match (textsOf occurrences s).getLast? with
      | some text => valueOf? s text
      | none =>
        match env.get? s.variableName with
        | some text => s.read? text
        | none => some (s.valueIn Config.standard) := by
  rw [decided?, textsOf, List.getLast?_map]
  cases last : (occurrencesOf occurrences s).getLast? with
  | none => rfl
  | some occurrence => exact value?_of_mem (List.mem_of_getLast? last)

section

variable {occurrences others : List Occurrence} {env env' : Environment}

theorem occurrencesOf_eq_nil_iff (same : ∀ s, textsOf occurrences s = textsOf others s)
    (s : Setting) :
    occurrencesOf occurrences s = [] ↔ occurrencesOf others s = [] := by
  have lengths := congrArg List.length (same s)
  simp only [textsOf, List.length_map] at lengths
  rw [← List.length_eq_zero_iff, ← List.length_eq_zero_iff, lengths]

theorem acceptable_congr (same : ∀ s, textsOf occurrences s = textsOf others s)
    (agree : ∀ s, occurrencesOf occurrences s = [] →
      env.get? s.variableName = env'.get? s.variableName)
    (acceptable : Acceptable occurrences env) : Acceptable others env' := by
  refine ⟨?_, fun s absent => ?_⟩
  · rw [values_iff]
    intro s text mem
    exact (values_iff occurrences).mp acceptable.values s text (same s ▸ mem)
  · have absent' := (occurrencesOf_eq_nil_iff same s).mpr absent
    intro text looked
    exact acceptable.lookups s absent' text ((agree s absent').trans looked)

theorem decided?_congr (same : ∀ s, textsOf occurrences s = textsOf others s)
    (agree : ∀ s, occurrencesOf occurrences s = [] →
      env.get? s.variableName = env'.get? s.variableName)
    (s : Setting) : decided? occurrences env s = decided? others env' s := by
  rw [decided?_eq, decided?_eq, ← same s]
  cases last : (textsOf occurrences s).getLast? with
  | some text => rfl
  | none =>
    have absent : occurrencesOf occurrences s = [] :=
      List.map_eq_nil_iff.mp (List.getLast?_eq_none_iff.mp last)
    rw [agree s absent]

/-- Only what is said of each option in order matters, and of options that occur not
what their variables say. -/
theorem parse_congr (same : ∀ s, textsOf occurrences s = textsOf others s)
    (agree : ∀ s, occurrencesOf occurrences s = [] →
      env.get? s.variableName = env'.get? s.variableName) :
    (parse (arguments occurrences) env).toOption = (parse (arguments others) env').toOption := by
  by_cases acceptable : Acceptable occurrences env
  · obtain ⟨config, accepted, decided⟩ := exists_config_of_acceptable acceptable
    obtain ⟨config', accepted', decided'⟩ :=
      exists_config_of_acceptable (acceptable_congr same agree acceptable)
    have configs : config = config' := by
      apply Setting.valueIn_injective
      intro s
      rw [← Option.some.injEq, ← decided, ← decided', decided?_congr same agree]
    rw [accepted, accepted', configs]
  · have unacceptable : ¬Acceptable others env' := fun acceptable' =>
      acceptable (acceptable_congr (fun s => (same s).symm)
        (fun s absent => (agree s ((occurrencesOf_eq_nil_iff same s).mpr absent)).symm) acceptable')
    obtain ⟨e, refused⟩ := exists_error_of_not_acceptable acceptable
    obtain ⟨e', refused'⟩ := exists_error_of_not_acceptable unacceptable
    rw [refused, refused']
    rfl

/-- In which of its spellings an option is written does not matter even to what is reported. -/
theorem parse_respelled (env : Environment)
    (respelled : List.Forall₂ (fun one other : Occurrence =>
      one.setting = other.setting ∧ one.text? = other.text?) occurrences others) :
    parse (arguments occurrences) env = parse (arguments others) env := by
  have applied (settings : Settings) : occurrences.foldlM Occurrence.apply settings =
      others.foldlM Occurrence.apply settings := by
    induction respelled generalizing settings with
    | nil => rfl
    | @cons one other rest rest' same _ ih =>
      have step : one.apply settings = other.apply settings := by
        obtain ⟨settings', texts⟩ := same
        cases one <;> cases other <;>
          simp_all [Occurrence.apply, Occurrence.setting, Occurrence.text?]
      simp only [List.foldlM_cons, step, ih]
  rw [parse_arguments, parse_arguments, applied]

end

theorem value?_of_isFlag {occurrence : Occurrence} (flag : occurrence.setting.isFlag = true) :
    occurrence.value? = some (.switch true) := by
  cases occurrence with
  | separate s text valued plain => exact absurd (valued.symm.trans flag) nofun
  | attached s text valued => exact absurd (valued.symm.trans flag) nofun
  | flag s name isFlag names => rfl

/-- A flag that occurs is on, and one that does not is on if its variable says
so in so many letters. -/
theorem valueIn_eq_switch_true_iff {occurrences : List Occurrence} {env : Environment}
    {config : Config} (accepted : parse (arguments occurrences) env = .ok config) {s : Setting}
    (flag : s.isFlag = true) :
    s.valueIn config = .switch true ↔
      occurrencesOf occurrences s ≠ [] ∨
        occurrencesOf occurrences s = [] ∧ env.get? s.variableName = some "true" := by
  have decided := decided?_of_ok accepted s
  rw [decided?] at decided
  cases last : (occurrencesOf occurrences s).getLast? with
  | some occurrence =>
    have mem := List.mem_of_getLast? last
    have own : occurrence.setting = s := (mem_occurrencesOf.mp mem).2
    rw [last] at decided
    simp only [value?_of_isFlag (own.symm ▸ flag), Option.some.injEq] at decided
    exact iff_of_true decided.symm (.inl (List.ne_nil_of_mem mem))
  | none =>
    have absent := List.getLast?_eq_none_iff.mp last
    rw [last] at decided
    simp only [absent, ne_eq, not_true_eq_false, false_or, true_and]
    cases looked : env.get? s.variableName with
    | none =>
      rw [looked] at decided
      simp only [Setting.valueIn_standard_of_isFlag flag, Option.some.injEq] at decided
      simp [← decided]
    | some text =>
      rw [looked] at decided
      simp only [Setting.read?_of_isFlag flag] at decided
      split at decided
      · rename_i is
        rw [← Option.some.inj decided, is]
        exact iff_of_true rfl rfl
      · rename_i isNot
        split at decided
        · rw [← Option.some.inj decided]
          simp [isNot]
        · cases decided

/-- Options and flags among the arguments, and the environment, are accepted exactly if every value
among the arguments is valid and so is the variable of every option that does not occur, if it is
set. Each setting is then what its last occurrence says, else its variable, else the standard value;
a flag is on if it occurs under either name, or does not and its variable is `true`. Spelling does
not matter at all, and what is accepted does not depend on how occurrences of different options are
mixed, nor on the variables of options that occur. -/
theorem configuration_precedence (occurrences : List Occurrence) (env : Environment) :
    ((∃ config, parse (arguments occurrences) env = .ok config) ↔
      (∀ occurrence ∈ occurrences, occurrence.value?.isSome = true) ∧
        ∀ s, occurrencesOf occurrences s = [] → ∀ text, env.get? s.variableName = some text →
          (s.read? text).isSome = true) ∧
    (∀ config, parse (arguments occurrences) env = .ok config →
      ∀ s, some (s.valueIn config) =
        match (occurrencesOf occurrences s).getLast? with
        | some occurrence => occurrence.value?
        | none =>
          match env.get? s.variableName with
          | some text => s.read? text
          | none => some (s.valueIn Config.standard)) ∧
    (∀ config, parse (arguments occurrences) env = .ok config → ∀ s, s.isFlag = true →
      (s.valueIn config = .switch true ↔ occurrencesOf occurrences s ≠ [] ∨
        occurrencesOf occurrences s = [] ∧ env.get? s.variableName = some "true")) ∧
    (∀ others, List.Forall₂ (fun one other : Occurrence =>
        one.setting = other.setting ∧ one.text? = other.text?) occurrences others →
      parse (arguments occurrences) env = parse (arguments others) env) ∧
    ∀ others env', (∀ s, textsOf occurrences s = textsOf others s) →
      (∀ s, occurrencesOf occurrences s = [] → env.get? s.variableName = env'.get? s.variableName) →
        (parse (arguments occurrences) env).toOption =
        (parse (arguments others) env').toOption := by
  refine ⟨?_, ?_, ?_, ?_, ?_⟩
  · rw [exists_config_iff]
    exact ⟨fun acceptable => ⟨acceptable.values, acceptable.lookups⟩,
      fun valid => ⟨valid.1, valid.2⟩⟩
  · intro config accepted s
    exact (decided?_of_ok accepted s).symm
  · intro config accepted s flag
    exact valueIn_eq_switch_true_iff accepted flag
  · intro others respelled
    exact parse_respelled env respelled
  · intro others env' same agree
    exact parse_congr same agree

/-- A port given twice, a flag under its hidden name, a port's variable that is invalid and
not looked up, and one for a flag that is; the same options mixed and spelled otherwise,
with no such variable. -/
theorem configuration_precedence_lastPort :
    let one : List Occurrence := [.separate .httpPort "1" rfl (by decide),
      .flag .disableGrpc "disableGRPC" rfl (.inr rfl), .attached .httpPort "2" rfl]
    let other : List Occurrence := [.flag .disableGrpc "disable-grpc" rfl (.inl rfl),
      .attached .httpPort "1" rfl, .separate .httpPort "2" rfl (by decide)]
    let env := [("STASHR_HTTP_PORT", "no port"), ("STASHR_DISABLE_HTTP", "true")]
    let config : Config :=
      { Config.standard with httpPort := 2, disableHttp := true, disableGrpc := true }
    arguments one = ["--hport", "1", "--disableGRPC", "--hport=2"] ∧
      parse (arguments one) env = .ok config ∧
      some (Setting.httpPort.valueIn config) = Setting.httpPort.read? "2" ∧
      (Setting.disableHttp.valueIn config = .switch true ↔
        occurrencesOf one .disableHttp ≠ [] ∨
          occurrencesOf one .disableHttp = [] ∧ env.lookup "STASHR_DISABLE_HTTP" = some "true") ∧
      (parse (arguments one) env).toOption = (parse (arguments other) (env.drop 1)).toOption := by
  intro one other env config
  have accepted : parse (arguments one) env = .ok config := by decide
  obtain ⟨-, decided, switched, -, invariant⟩ := configuration_precedence one env
  refine ⟨by decide, accepted, ?_, ?_, ?_⟩
  · exact decided config accepted .httpPort
  · exact switched config accepted .disableHttp rfl
  · refine invariant other (env.drop 1) (fun s => ?_) fun s absent => ?_
    · cases s <;> decide
    · cases s with
      | httpPort => exact absurd absent (by decide)
      | host | grpcPort | disableHttp | disableGrpc | sweepIntervalMillis => decide

end CommandLine

end ExpiringStore
