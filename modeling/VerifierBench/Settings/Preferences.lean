import VerifierBench.Settings.Layers

/-! Preferences: the settings that a run goes by. -/
namespace VerifierBench

structure Preferences where
  logDir : String
  dumpReports : Bool
  quiet : Bool
  jsonOutput : Bool
  sweepMin : Int32
  sweepMax : Int32
  randomCases : UInt64
  randomSeed : UInt64
  iterationLimit : UInt64
  failFast : Bool
  deriving DecidableEq, Repr

namespace Preferences

/-- The settings of all names; a missing or malformed one has its default value. -/
def ofSettings (s : Settings) : Preferences where
  logDir := (s.lookup SettingValue.toText? "LOG_DIR").getD "./log/"
  dumpReports := (s.lookup SettingValue.toBool? "DUMP_REPORTS").getD false
  quiet := (s.lookup SettingValue.toBool? "QUIET").getD false
  jsonOutput := (s.lookup SettingValue.toBool? "JSON_OUTPUT").getD false
  sweepMin := (s.lookup SettingValue.toInt32? "SWEEP_MIN").getD (-2)
  sweepMax := (s.lookup SettingValue.toInt32? "SWEEP_MAX").getD 2
  randomCases := (s.lookup SettingValue.toUInt64? "RANDOM_CASES").getD 10000
  randomSeed := (s.lookup SettingValue.toUInt64? "RANDOM_SEED").getD 0
  iterationLimit := (s.lookup SettingValue.toUInt64? "ITERATION_LIMIT").getD 1000000
  failFast := (s.lookup SettingValue.toBool? "FAIL_FAST").getD false

/-- The preferences when nothing else is said. -/
def default : Preferences := ofSettings ⟨[]⟩

/-- If the settings cannot be made, all of them are dropped. -/
def ofSurroundings (s : Surroundings) : Preferences :=
  (s.settings?.map ofSettings).getD default

end Preferences
end VerifierBench
