import Metronome.Decimal.Layout

namespace Metronome

structure Settings where
  /-- Steps of the interpreter in one tick, at most. -/
  tickBudget : Nat
  /-- How many milliseconds a tick takes at speed 0. -/
  maxTickLength : Float
  /-- Ticks after which a run has timed out. -/
  maxTicks : Option Nat
  maxMarshalDepth : Nat
  speed : Float
  pauseOnEntry : Bool

def Settings.default : Settings :=
  { tickBudget := 10000
    maxTickLength := 300.0
    maxTicks := none
    maxMarshalDepth := 5
    speed := 1.0
    pauseOnEntry := false }

inductive SettingsFault where
  | noBudget
  | badTickLength (length : Float)
  | badSpeed (speed : Float)

namespace SettingsFault

def field : SettingsFault → String
  | noBudget => "tick_budget"
  | badTickLength _ => "max_tick_length_ms"
  | badSpeed _ => "speed"

def reason : SettingsFault → String
  | noBudget => "must be at least 1"
  | badTickLength length => Decimal.plain.write length ++ " is not a non-negative number"
  | badSpeed speed => Decimal.plain.write speed ++ " is outside 0.0..=1.0"

def message (fault : SettingsFault) : String :=
  "invalid config value for `" ++ fault.field ++ "`: " ++ fault.reason

end SettingsFault

def Settings.fault? (settings : Settings) : Option SettingsFault :=
  if settings.tickBudget = 0 then some .noBudget
  else if !settings.maxTickLength.isFinite || settings.maxTickLength < 0.0 then
    some (.badTickLength settings.maxTickLength)
  else if settings.speed >= 0.0 && settings.speed <= 1.0 then none
  else some (.badSpeed settings.speed)

end Metronome
