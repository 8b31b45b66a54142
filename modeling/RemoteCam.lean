import RemoteCam.Backend.Accounting
import RemoteCam.Backend.Acknowledgement
import RemoteCam.Backend.Admission
import RemoteCam.Backend.Authentication
import RemoteCam.Backend.ConsumerLifetime
import RemoteCam.Backend.ControlPath
import RemoteCam.Backend.Deadlines
import RemoteCam.Backend.Decoding
import RemoteCam.Backend.Failure
import RemoteCam.Backend.Opening
import RemoteCam.Backend.OptOut
import RemoteCam.Backend.ResetOrder
import RemoteCam.Cbor.Canonical
import RemoteCam.Cbor.Diagnosis
import RemoteCam.Control.Capabilities
import RemoteCam.Control.StreamFormats
import RemoteCam.Geometry.Coverage
import RemoteCam.Link.Agreement
import RemoteCam.Media.FrameRingSink
import RemoteCam.Media.LiveMediaPipeline
import RemoteCam.Media.Mp4Recorder
import RemoteCam.Media.Streaks
import RemoteCam.Media.StudioRange
import RemoteCam.Net.Handles
import RemoteCam.Net.Serving
import RemoteCam.Phone.Generations
import RemoteCam.Phone.Hello
import RemoteCam.Phone.Keyframes
import RemoteCam.Phone.Trust
import RemoteCam.Ring.Fill
import RemoteCam.Ring.Lifetime
import RemoteCam.Ring.Rejection
import RemoteCam.Ring.RequestedGeometry
import RemoteCam.Security.GlobalBudget
import RemoteCam.Security.SessionAttempts
import RemoteCam.Security.Spake2
import RemoteCam.Video.Inspection
import RemoteCam.Wire.Buffering
import RemoteCam.Media.Timeline
import RemoteCam.Geometry.Bounds
import RemoteCam.Cbor.Cost
import RemoteCam.Media.Publication
import RemoteCam.Vcam.MediaStream
import RemoteCam.Security.PairingServer
import RemoteCam.Security.PairingStore
import RemoteCam.Media.TestPattern
import RemoteCam.Link.AccessUnits
import RemoteCam.Link.Delivery
import RemoteCam.Net.Receiving
import RemoteCam.App.Announcements
import RemoteCam.Phone.CaptureEngine
import RemoteCam.Link.Steering
import RemoteCam.Link.CameraChoice
import RemoteCam.Phone.Telemetry
import RemoteCam.Link.CameraFeed
