import ExpiringStore.CommandLine.Parser

/-!
# Settings by their values

All that a setting can be set to, what text stands for it, and what the settings so far and a
configuration hold of it. Setting one setting leaves the others as they were.
-/
namespace ExpiringStore

inductive SettingValue where
  | address (ip : IpAddr)
  | port (number : UInt16)
  | switch (on : Bool)
  | millis (number : UInt64)
  deriving DecidableEq, Repr

namespace Setting

/-- The value of a setting that a text stands for. A flag's text can come from its variable only. -/
def read? (s : Setting) (text : String) : Option SettingValue :=
  match s with
  | .host => (readHost text).toOption.map .address
  | .httpPort | .grpcPort => (readPort text).toOption.map .port
  | .sweepIntervalMillis => (readMillis text).toOption.map .millis
  | .disableHttp | .disableGrpc =>
    if text = "true" then some (.switch true)
    else if text = "false" then some (.switch false) else none

theorem read?_of_isFlag {s : Setting} (flag : s.isFlag = true) (text : String) :
    s.read? text =
      if text = "true" then some (.switch true)
      else if text = "false" then some (.switch false) else none := by
  cases s with
  | disableHttp | disableGrpc => rfl
  | host | httpPort | grpcPort | sweepIntervalMillis => cases flag

def valueIn (c : Config) : Setting → SettingValue
  | .host => .address c.host
  | .httpPort => .port c.httpPort
  | .grpcPort => .port c.grpcPort
  | .disableHttp => .switch c.disableHttp
  | .disableGrpc => .switch c.disableGrpc
  | .sweepIntervalMillis => .millis c.sweepIntervalMillis

/-- Flags are off where nothing is said. -/
theorem valueIn_standard_of_isFlag {s : Setting} (flag : s.isFlag = true) :
    s.valueIn Config.standard = .switch false := by
  cases s with
  | disableHttp | disableGrpc => rfl
  | host | httpPort | grpcPort | sweepIntervalMillis => cases flag

/-- A configuration is known by its settings. -/
theorem valueIn_injective {c d : Config} (same : ∀ s, valueIn c s = valueIn d s) : c = d := by
  obtain ⟨host, httpPort, grpcPort, disableHttp, disableGrpc, millis⟩ := c
  have fields := And.intro (same .host) <| And.intro (same .httpPort) <|
    And.intro (same .grpcPort) <| And.intro (same .disableHttp) <|
    And.intro (same .disableGrpc) (same .sweepIntervalMillis)
  simp only [valueIn, SettingValue.address.injEq, SettingValue.port.injEq,
    SettingValue.switch.injEq, SettingValue.millis.injEq] at fields
  obtain ⟨rfl, rfl, rfl, rfl, rfl, rfl⟩ := fields
  rfl

end Setting

namespace Settings

def get? (g : Settings) : Setting → Option SettingValue
  | .host => g.host.map .address
  | .httpPort => g.httpPort.map .port
  | .grpcPort => g.grpcPort.map .port
  | .disableHttp => g.disableHttp.map .switch
  | .disableGrpc => g.disableGrpc.map .switch
  | .sweepIntervalMillis => g.sweepIntervalMillis.map .millis

theorem get?_empty (s : Setting) : empty.get? s = none := by
  cases s <;> rfl

theorem has_eq_isSome_get? (g : Settings) (s : Setting) : g.has s = (g.get? s).isSome := by
  cases s <;> exact Option.isSome_map.symm

/-- What has not been set has its standard value. -/
theorem valueIn_toConfig (g : Settings) (s : Setting) :
    s.valueIn g.toConfig = (g.get? s).getD (s.valueIn Config.standard) := by
  obtain ⟨host, httpPort, grpcPort, disableHttp, disableGrpc, millis⟩ := g
  cases s with
  | host => cases host <;> rfl
  | httpPort => cases httpPort <;> rfl
  | grpcPort => cases grpcPort <;> rfl
  | disableHttp => cases disableHttp <;> rfl
  | disableGrpc => cases disableGrpc <;> rfl
  | sweepIntervalMillis => cases millis <;> rfl

/-- A result that sets one setting to a value and leaves the others, or is an error
if there is no value. -/
def Puts (g : Settings) (s : Setting) : Option SettingValue → Except EarlyExit Settings → Prop
  | none, result => ∃ e, result = .error e
  | some value, result =>
    ∃ after, result = .ok after ∧
      ∀ other, after.get? other = if other = s then some value else g.get? other

theorem puts_setFlag (g : Settings) {s : Setting} (flag : s.isFlag = true) (on : Bool) :
    g.Puts s (some (.switch on)) (.ok (g.setFlag s on)) := by
  refine ⟨_, rfl, fun other => ?_⟩
  cases s with
  | disableHttp => cases other <;> rfl
  | disableGrpc => cases other <;> rfl
  | host | httpPort | grpcPort | sweepIntervalMillis => cases flag

/-- A text that is read as a value and then written into its field. -/
theorem puts_of_read {α : Type} {g : Settings} {s : Setting} {text : String}
    (read : Except ValueError α) {wrap : α → SettingValue} {write : α → Settings}
    (stored : g.setText s text = read.map write)
    (writes : ∀ value other, (write value).get? other = if other = s then some (wrap value)
      else g.get? other) :
    g.Puts s (read.toOption.map wrap) (CommandLine.store g s text) := by
  rw [CommandLine.store, stored]
  cases read with
  | error e => exact ⟨_, rfl⟩
  | ok value => exact ⟨_, rfl, writes value⟩

theorem puts_store (g : Settings) {s : Setting} (valued : s.isFlag = false) (text : String) :
    g.Puts s (s.read? text) (CommandLine.store g s text) := by
  cases s with
  | host => exact puts_of_read (Setting.readHost text) rfl fun _ other => by cases other <;> rfl
  | httpPort => exact puts_of_read (Setting.readPort text) rfl fun _ other => by cases other <;> rfl
  | grpcPort => exact puts_of_read (Setting.readPort text) rfl fun _ other => by cases other <;> rfl
  | sweepIntervalMillis =>
    exact puts_of_read (Setting.readMillis text) rfl fun _ other => by cases other <;> rfl
  | disableHttp | disableGrpc => cases valued

end Settings

end ExpiringStore
