import Moonlight.Lib.Trace
import Moonlight.Lib.Presence
import Moonlight.Lib.Replay
import Moonlight.Lib.Machine
import Moonlight.Lib.Stdio
import Moonlight.Limelight
import Moonlight.Input.Mapping
import Moonlight.Input.MappingFile
import Moonlight.Input.EvdevDevice
import Moonlight.Input.EvdevEvent
import Moonlight.Input.EvdevFrame
import Moonlight.Input.EvdevReports
import Moonlight.Input.EvdevAxis
import Moonlight.Input.EvdevControllers
import Moonlight.Lib.Masks
import Moonlight.Input.Modifiers
import Moonlight.Input.SdlKeys
import Moonlight.Input.EvdevLoop
import Moonlight.Input.EvdevPolling
import Moonlight.Gamestream.Client
import Moonlight.Gamestream.Session
import Moonlight.Gamestream.Pair
import Moonlight.Gamestream.PairOutcome
import Moonlight.Gamestream.PairAuthentic
import Moonlight.Input.EvdevPad
import Moonlight.Input.EvdevRelease
import Moonlight.Input.EvdevStick
import Moonlight.Input.SdlPads
import Moonlight.Input.SdlRelease
import Moonlight.Input.EvdevMotion
import Moonlight.Input.Udev
import Moonlight.Gamestream.PairBounds
import Moonlight.Gamestream.Sps
import Moonlight.Gamestream.SpsReplay
import Moonlight.Config.Environment
import Moonlight.Lib.Getopt
import Moonlight.Config.Parse
import Moonlight.Config.Sources
import Moonlight.Config.Fields
import Moonlight.Config.Reload
import Moonlight.Config.Reset
import Moonlight.Config.Bitrate
import Moonlight.Input.EvdevStickRange
import Moonlight.Gamestream.XmlTree
import Moonlight.Gamestream.AppList
import Moonlight.Gamestream.AppListTree
import Moonlight.Gamestream.AppListResult
import Moonlight.Gamestream.ServerStatus
import Moonlight.Gamestream.ServerHeights
import Moonlight.Gamestream.StartApp
import Moonlight.Config.RoundTrip
import Moonlight.Lib.Depth
import Moonlight.Config.Include
import Moonlight.Gamestream.SpsLevel
import Moonlight.Input.EvdevDivision
import Moonlight.Input.EvdevTrigger
import Moonlight.Input.PollTable
import Moonlight.Video.ImxDisplay
import Moonlight.Video.RenderStates
import Moonlight.Lib.Ring
import Moonlight.Video.ImxRing
import Moonlight.Input.MapPrompts
import Moonlight.Gamestream.H264Bits
import Moonlight.Gamestream.H264Sps
import Moonlight.Gamestream.H264RoundTrip
import Moonlight.Gamestream.H264Nal
import Moonlight.Gamestream.H264Unit
import Moonlight.Gamestream.SpsFixup
import Moonlight.Gamestream.SpsFixupCall
import Moonlight.Gamestream.SpsFailSafe
import Moonlight.Input.SdlSlots
import Moonlight.Gamestream.HttpData
import Moonlight.Input.SdlKeyTable
import Moonlight.Gamestream.HexCoding
import Moonlight.Config.PathSearch
import Moonlight.Config.PathList
import Moonlight.Gamestream.KeyStore
import Moonlight.PairStart
import Moonlight.AppStart
import Moonlight.Config.Inputs
import Moonlight.Gamestream.H264Emulation
import Moonlight.Gamestream.H264Framing
import Moonlight.Gamestream.Identity
import Moonlight.Gamestream.KeyDirectory
import Moonlight.Input.Cec
import Moonlight.Input.EvdevHost
import Moonlight.Input.EvdevShown
import Moonlight.Input.MapAnswers
import Moonlight.Input.MapPlay
import Moonlight.Input.MapSticks
import Moonlight.Lib.Mailbox
import Moonlight.Video.ImxStream
import Moonlight.Video.SdlFrames
import Moonlight.Input.SdlWindow
