import EventCheck.Settings.Basic

/-! # Opening the endpoint

    A test opens its endpoint before it begins. What can stand in the way: the
    settings want none, or the port is taken.
-/

namespace EventCheck

/-- What stands in the way of an endpoint. -/
inductive Obstacle where
  | disabled | portTaken
  deriving DecidableEq, Repr

def Obstacle.message : Obstacle → String
  | .disabled => "event server is disabled in configuration"
  | .portTaken => "[Errno 98] Address already in use"

namespace Endpoint

/-- What stands in the way of opening the endpoint on a port. -/
def openingObstacle? (settings : ServerSettings) (isPortTaken : Bool) : Option Obstacle :=
  if !settings.enabled then some .disabled
  else if isPortTaken then some .portTaken
  else none

end Endpoint

end EventCheck
