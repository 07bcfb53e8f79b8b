import DroidHost.Bootloader.Retry
import DroidHost.Bridge.Client
import DroidHost.Bridge.Device
import DroidHost.Bridge.Handshake
import DroidHost.Bridge.Shell.Background
import DroidHost.CommandLine.Help
import DroidHost.CommandLine.Program
import DroidHost.CommandLine.Request
import DroidHost.Json.Printer
import DroidHost.Json.Reader
import DroidHost.Json.Records
import DroidHost.Main
import DroidHost.Settings.Environment
import DroidHost.Proofs.Run
import DroidHost.Proofs.Steps
import DroidHost.Proofs.Delivery
import DroidHost.Proofs.Framing
import DroidHost.Proofs.Ownership
import DroidHost.Proofs.Wire
import DroidHost.Proofs.ReleasedHandle
import DroidHost.Proofs.Pacing
import DroidHost.Proofs.OutgoingFraming
import DroidHost.Proofs.StreamIds
import DroidHost.Proofs.SyncTraffic
import DroidHost.Proofs.FileCalls
import DroidHost.Proofs.FileSession
import DroidHost.Proofs.Handshake
import DroidHost.Proofs.Acknowledgement
import DroidHost.Proofs.StreamCourse
import DroidHost.Proofs.Separation
import DroidHost.Proofs.Strangers
import DroidHost.Proofs.Lifetime
import DroidHost.Proofs.Codec
import DroidHost.Proofs.Service
import DroidHost.Proofs.Upload
import DroidHost.Proofs.ReplyParser
import DroidHost.Proofs.Replies
import DroidHost.Proofs.IdSearch
import DroidHost.Proofs.Numerals
import DroidHost.Proofs.FrameWait
import DroidHost.Proofs.Download
import DroidHost.Proofs.LateAnswer
import DroidHost.Proofs.DrainOrder
import DroidHost.Proofs.Splitting
import DroidHost.Proofs.ListingCut
import DroidHost.Proofs.UploadFailure
import DroidHost.Proofs.Opening
import DroidHost.Proofs.Timetable
import DroidHost.Proofs.Overrun
import DroidHost.Proofs.Listening
import DroidHost.Proofs.OneShot
import DroidHost.Proofs.LostOutput
import DroidHost.Proofs.Retrying
import DroidHost.Proofs.Corruption
import DroidHost.Proofs.Effort
import DroidHost.Proofs.Grammar
import DroidHost.Proofs.Decoding
import DroidHost.Proofs.Banner
