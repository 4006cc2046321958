/-
PcEngine/Settings/Logging.lean

The log level of the settings takes effect when a session opens.
-/
import PcEngine.Log.State
import PcEngine.Settings.Basic

namespace PcEngine.Settings

/-- Make the log level of the settings the global level of a log. -/
def applyTo (s : Settings) (log : Log.State) : Log.State := log.setGlobalLevel s.logLevel

end PcEngine.Settings
