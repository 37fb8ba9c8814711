/-
Topics of devices: `devices/ID/STREAM`. An id is one plain level, so that
the text of a topic gives the topic back.
-/
import FlowScript.Channel.Filter

namespace FlowScript

namespace Channel

/-- The streams of messages that a device has. -/
inductive Stream where
  | command
  | status
  | heartbeat
  | data
  | logs
deriving DecidableEq, Repr

/-- The first level of every device topic. -/
def deviceRoot : String := "devices"

namespace Stream

def all : List Stream := [.command, .status, .heartbeat, .data, .logs]

def name : Stream → String
  | .command => "command"
  | .status => "status"
  | .heartbeat => "heartbeat"
  | .data => "data"
  | .logs => "logs"

/-- The filter for this stream of every device. -/
def wildcard (stream : Stream) : String := deviceRoot ++ "/+/" ++ stream.name

/-- The stream with exactly this name. -/
def ofName? (s : String) : Option Stream := all.find? (·.name == s)

/-- What is said of a name that no stream has. -/
def unknownMessage (s : String) : String := "unknown topic kind '" ++ s ++ "'"

theorem ofName?_name (stream : Stream) : ofName? stream.name = some stream := by
  cases stream <;> decide

end Stream

/-- Whether a text is one level of a topic and no pattern. -/
def isPlainLevel (s : String) : Bool :=
  !s.isEmpty && s.toList.all fun c => c != '/' && c != '+' && c != '#'

/-- The topic of a stream of a device. -/
structure DeviceTopic where
  deviceId : String
  stream : Stream
  plain : isPlainLevel deviceId = true
deriving DecidableEq

namespace DeviceTopic

/-- The topic for an id, if the id is one plain level. -/
def make? (deviceId : String) (stream : Stream) : Option DeviceTopic :=
  if plain : isPlainLevel deviceId = true then some { deviceId, stream, plain } else none

def text (t : DeviceTopic) : String := deviceRoot ++ "/" ++ t.deviceId ++ "/" ++ t.stream.name

/-- The topic that a text is. -/
def parse? (s : String) : Option DeviceTopic :=
  match levels s with
  | [root, device, stream] =>
    if root = deviceRoot then (Stream.ofName? stream).bind (make? device) else none
  | _ => none

end DeviceTopic

end Channel

end FlowScript
