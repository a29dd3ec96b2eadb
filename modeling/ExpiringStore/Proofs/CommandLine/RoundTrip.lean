import ExpiringStore.Proofs.Address.Canonical
import ExpiringStore.Proofs.CommandLine.Configuration
import ExpiringStore.Proofs.CommandLine.Readings
import ExpiringStore.Server.Run

/-!
# Configurations written as arguments

A configuration can be written as arguments, from which it is read back whatever the environment
holds of the options with a value. The interval that a store is then given has exactly so many
milliseconds, and at least one.
-/
namespace ExpiringStore

/-- A configuration as arguments: each value behind its option, and each flag that is on. -/
def Config.arguments (c : Config) : List String :=
  ["--host", c.host.text, "--hport", toString c.httpPort.toNat, "--gport",
    toString c.grpcPort.toNat, "--sweep-interval-ms", toString c.sweepIntervalMillis.toNat] ++
    (if c.disableHttp then ["--disable-http"] else []) ++
      if c.disableGrpc then ["--disable-grpc"] else []

/-! ## Values -/

namespace Setting

theorem readHost_text (ip : IpAddr) : readHost ip.text = .ok ip :=
  readHost_eq_ok_iff.mpr ip.spelled_text

theorem readPort_toString (port : UInt16) : readPort (toString port.toNat) = .ok port :=
  readPort_eq_ok_iff.mpr ⟨_, decimal_toDigits port.toNat, .inl Nat.toList_repr⟩

theorem readMillis_toString (millis : UInt64) : readMillis (toString millis.toNat) = .ok millis :=
  readMillis_eq_ok_iff.mpr ⟨_, decimal_toDigits millis.toNat, .inl Nat.toList_repr⟩

/-- No decimal number begins with a hyphen. -/
theorem head?_toString_ne_hyphen (n : Nat) : (toString n).toList.head? ≠ some '-' := by
  have letters : (toString n).toList = Nat.toDigits 10 n := Nat.toList_repr
  obtain ⟨first, rest, digits, digit, -, -⟩ := toDigits_eq_cons n
  rw [letters, digits, List.head?_cons]
  rintro ⟨⟩
  cases digit

theorem head?_text_ne_hyphen (ip : IpAddr) : ip.text.toList.head? ≠ some '-' :=
  IpAddr.head?_ne_hyphen_of_ofString? (IpAddr.ofString?_eq_some_iff.mpr ip.spelled_text)

end Setting

/-! ## The sweep interval -/

theorem Duration.toNanos_ofMillis (millis : UInt64) :
    (Duration.ofMillis millis).toNanos = millis.toNat * 1000000 := by
  simp [Duration.toNanos, Duration.ofMillis, nanosPerSecond, nanosPerMilli]
  omega

/-- The interval is as long as it is asked to be, but at least one millisecond. -/
theorem Config.sweepInterval_eq (c : Config) :
    c.sweepInterval.span.seconds.toNat = max c.sweepIntervalMillis.toNat 1 / 1000 ∧
      c.sweepInterval.span.nanos.val = max c.sweepIntervalMillis.toNat 1 % 1000 * 1000000 := by
  have one : (Duration.ofMillis 1).toNanos = 1000000 := by decide
  simp only [sweepInterval, SweepInterval.clamp, SweepInterval.shortest, Duration.max, one,
    Duration.toNanos_ofMillis]
  split
  · rename_i less
    have none : c.sweepIntervalMillis.toNat = 0 := by omega
    rw [none]
    decide
  · rename_i notLess
    have some : max c.sweepIntervalMillis.toNat 1 = c.sweepIntervalMillis.toNat := by omega
    rw [some]
    simp [Duration.ofMillis, nanosPerMilli]

namespace CommandLine

/-! ## Reading a configuration back -/

def occurrencesOfConfig (c : Config) : List Occurrence :=
  [.separate .host c.host.text rfl (Setting.head?_text_ne_hyphen c.host),
    .separate .httpPort (toString c.httpPort.toNat) rfl (Setting.head?_toString_ne_hyphen _),
    .separate .grpcPort (toString c.grpcPort.toNat) rfl (Setting.head?_toString_ne_hyphen _),
    .separate .sweepIntervalMillis (toString c.sweepIntervalMillis.toNat) rfl
      (Setting.head?_toString_ne_hyphen _)] ++
    (if c.disableHttp then [.flag .disableHttp "disable-http" rfl (.inl rfl)] else []) ++
    if c.disableGrpc then [.flag .disableGrpc "disable-grpc" rfl (.inl rfl)] else []

theorem arguments_occurrencesOfConfig (c : Config) :
    arguments (occurrencesOfConfig c) = c.arguments := by
  obtain ⟨host, httpPort, grpcPort, disableHttp, disableGrpc, millis⟩ := c
  cases disableHttp <;> cases disableGrpc <;> rfl

/-- Every occurrence asks for what the configuration holds. -/
theorem value?_of_mem_occurrencesOfConfig {c : Config} {occurrence : Occurrence}
    (mem : occurrence ∈ occurrencesOfConfig c) :
    occurrence.value? = some (occurrence.setting.valueIn c) := by
  rcases List.mem_append.mp mem with others | grpc
  · rcases List.mem_append.mp others with valued | http
    · simp only [List.mem_cons, List.not_mem_nil, or_false] at valued
      rcases valued with rfl | rfl | rfl | rfl
      · simp only [Occurrence.value?, Occurrence.text?, Occurrence.setting, Setting.read?,
          Setting.readHost_text]
        rfl
      · simp only [Occurrence.value?, Occurrence.text?, Occurrence.setting, Setting.read?,
          Setting.readPort_toString]
        rfl
      · simp only [Occurrence.value?, Occurrence.text?, Occurrence.setting, Setting.read?,
          Setting.readPort_toString]
        rfl
      · simp only [Occurrence.value?, Occurrence.text?, Occurrence.setting, Setting.read?,
          Setting.readMillis_toString]
        rfl
    · split at http
      · rename_i on
        rw [List.mem_singleton.mp http]
        exact congrArg (fun on => some (SettingValue.switch on)) on.symm
      · cases http
  · split at grpc
    · rename_i on
      rw [List.mem_singleton.mp grpc]
      exact congrArg (fun on => some (SettingValue.switch on)) on.symm
    · cases grpc

/-- Only a flag that is off does not occur. -/
theorem off_of_absent {c : Config} {s : Setting}
    (absent : occurrencesOf (occurrencesOfConfig c) s = []) :
    s.isFlag = true ∧ s.valueIn c = .switch false := by
  obtain ⟨host, httpPort, grpcPort, disableHttp, disableGrpc, millis⟩ := c
  cases s with
  | host | httpPort | grpcPort | sweepIntervalMillis => cases absent
  | disableHttp =>
    cases disableHttp with
    | false => exact ⟨rfl, rfl⟩
    | true => cases absent
  | disableGrpc =>
    cases disableGrpc with
    | false => exact ⟨rfl, rfl⟩
    | true => cases disableHttp <;> cases absent

/-- The arguments that a configuration is written as are read as the configuration. -/
theorem parse_arguments_of_config {c : Config} {env : Environment}
    (unset : ∀ s : Setting, s.isFlag = true → env.get? s.variableName = none) :
    parse c.arguments env = .ok c := by
  have acceptable : Acceptable (occurrencesOfConfig c) env := by
    refine ⟨fun occurrence mem => ?_, fun s absent text looked => ?_⟩
    · rw [value?_of_mem_occurrencesOfConfig mem]
      rfl
    · rw [unset s (off_of_absent absent).1] at looked
      cases looked
  obtain ⟨config, accepted, decided⟩ := exists_config_of_acceptable acceptable
  have same : config = c := by
    refine Setting.valueIn_injective fun s => ?_
    have decides := decided s
    rw [decided?] at decides
    cases last : (occurrencesOf (occurrencesOfConfig c) s).getLast? with
    | some occurrence =>
      obtain ⟨mem, own⟩ := mem_occurrencesOf.mp (List.mem_of_getLast? last)
      simp only [last, value?_of_mem_occurrencesOfConfig mem, own, Option.some.injEq] at decides
      exact decides.symm
    | none =>
      obtain ⟨flag, off⟩ := off_of_absent (List.getLast?_eq_none_iff.mp last)
      simp only [last, unset s flag, Setting.valueIn_standard_of_isFlag flag,
        Option.some.injEq] at decides
      exact decides.symm.trans off.symm
  rw [← arguments_occurrencesOfConfig, accepted, same]

/-- The store of a run is given the interval of the configuration. -/
theorem interval_of_run {c : Config} {network : Network} {now : Instant}
    {ending : List FrontEnd → Ending} {store : Store}
    (created : (Server.run c network now ending).store = some store) :
    store.sweeper.interval = c.sweepInterval := by
  unfold Server.run at created
  split at created
  · cases created
  · obtain rfl := Option.some.inj created
    rfl

/-- Whatever the environment holds, as long as it says nothing of flags, the arguments that a
configuration is written as are read as the configuration. The address among them is in its
canonical text. The interval has as many milliseconds as were asked for, or one where none was asked
for, in seconds and nanoseconds, and it is what a run hands to its store. -/
theorem configurations_are_read_back (c : Config) (env : Environment)
    (unset : ∀ s : Setting, s.isFlag = true → env.get? s.variableName = none) :
    parse c.arguments env = .ok c ∧
    c.host.Written c.host.text ∧
    c.sweepInterval.span.seconds.toNat = max c.sweepIntervalMillis.toNat 1 / 1000 ∧
    c.sweepInterval.span.nanos.val = max c.sweepIntervalMillis.toNat 1 % 1000 * 1000000 ∧
    c.sweepInterval.span ≠ Duration.zero ∧
    ∀ network now ending store, (Server.run c network now ending).store = some store →
      store.sweeper.interval = c.sweepInterval := by
  obtain ⟨seconds, nanos⟩ := c.sweepInterval_eq
  refine ⟨parse_arguments_of_config unset, c.host.written_text, seconds, nanos, fun none => ?_, ?_⟩
  · have filled := c.sweepInterval.atLeastMilli
    rw [none] at filled
    exact absurd filled (by decide)
  · intro network now ending store created
    exact interval_of_run created

/-- An address with two rows of zero groups of one length, of which the first is left out, the
least and the largest port, the longest interval and one flag; the environment holds an
address that is none. -/
theorem configurations_are_read_back_elided :
    let host : Ipv6 := ⟨[0x2001, 0xdb8, 0, 0, 1, 0, 0, 0xa], rfl⟩
    let c : Config := ⟨.v6 host, 65535, 0, false, true, 18446744073709551615⟩
    c.arguments = ["--host", "2001:db8::1:0:0:a", "--hport", "65535", "--gport", "0",
      "--sweep-interval-ms", "18446744073709551615", "--disable-grpc"] ∧
      parse c.arguments [("STASHR_HOST", "nowhere")] = .ok c := by
  intro host c
  refine ⟨by decide, ?_⟩
  refine (configurations_are_read_back c [("STASHR_HOST", "nowhere")] fun s flag => ?_).1
  cases s with
  | disableHttp | disableGrpc => decide
  | host | httpPort | grpcPort | sweepIntervalMillis => cases flag

end CommandLine

end ExpiringStore
