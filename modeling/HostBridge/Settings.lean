import HostBridge.Binding.Mode
import HostBridge.Log.Filter

/-!
# Settings

What can be set, with defaults: how classes are bound, what is logged, and whether evaluations run
the job queue. The log level is kept as it was given and means a filter, or nothing.
-/

namespace HostBridge

/-- How host classes are bound. -/
structure BindingSettings where
  proxyMode : ProxyMode := .objectProxy
  collisions : CollisionPolicy := .reject
deriving DecidableEq

/-- What is logged. -/
structure LoggingSettings where
  level : String := "info"
  logRejections : Bool := true
deriving DecidableEq

/-- How scripts are run. -/
structure ScriptSettings where
  drainsJobs : Bool := true
deriving DecidableEq

/-- The settings of a session. -/
structure Settings where
  binding : BindingSettings := {}
  logging : LoggingSettings := {}
  script : ScriptSettings := {}
deriving DecidableEq

/-- The filter that the log level means, white space around it aside. -/
def LoggingSettings.filter? (s : LoggingSettings) : Option Filter := Filter.read? s.level

end HostBridge
