import SbusRemote.Core.Run
import SbusRemote.Core.ByteLine
import SbusRemote.Handle.Msg
import SbusRemote.Handle.Command
import SbusRemote.Handle.Line
import SbusRemote.Handle.Receive
import SbusRemote.Control.Dds
import SbusRemote.Control.Filter
import SbusRemote.Control.RobotControl
import SbusRemote.Control.MainLoop
import SbusRemote.Handle.Frame
import SbusRemote.Stance.Protocol
import SbusRemote.Stance.Damping
import SbusRemote.Stance.Stutter
import SbusRemote.Motion.Stale
import SbusRemote.Motion.Delivery
import SbusRemote.Motion.Envelope
import SbusRemote.Align.Cursor
import SbusRemote.Align.Resync
import SbusRemote.Startup.Independence
import SbusRemote.Align.Unambiguous
import SbusRemote.Motion.Suppression
import SbusRemote.Keys.Calls
import SbusRemote.Keys.Shoulder
import SbusRemote.Keys.Press
import SbusRemote.Align.Spacing
import SbusRemote.Keys.StopPress
import SbusRemote.Align.Freshness
import SbusRemote.Core.LittleEndian
import SbusRemote.Handle.Unpacking
import SbusRemote.Motion.Following
import SbusRemote.Core.DeadBand
import SbusRemote.Handle.Scaling
import SbusRemote.Core.Descriptor
import SbusRemote.Serial.Port
import SbusRemote.Serial.Ownership
import SbusRemote.Core.Decimal
import SbusRemote.Json.Text
import SbusRemote.Json.Number
import SbusRemote.Json.Strings
import SbusRemote.Json.Escape
import SbusRemote.Json.Parse
import SbusRemote.Json.Grammar
import SbusRemote.Json.Exact
import SbusRemote.Json.Soundness
import SbusRemote.Json.Print
import SbusRemote.Json.Buffer
import SbusRemote.Json.RoundTrip
import SbusRemote.Json.Minify
import SbusRemote.Json.Build
import SbusRemote.Control.Wire
import SbusRemote.Core.Mealy
import SbusRemote.Dds.EasyModel
import SbusRemote.Dds.Registry
import SbusRemote.Dds.SetOnce
import SbusRemote.Dds.Session
import SbusRemote.Serial.Receiver
