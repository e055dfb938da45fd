import FfbInterceptor.Library.Runs
import FfbInterceptor.Telemetry.Sink
import FfbInterceptor.Telemetry.Ledger
import FfbInterceptor.Telemetry.Worker
import FfbInterceptor.Telemetry.Delivery
import FfbInterceptor.Telemetry.Disclosure
import FfbInterceptor.Library.Faulting
import FfbInterceptor.Library.Framing
import FfbInterceptor.Library.Reader
import FfbInterceptor.Library.Utf8
import FfbInterceptor.Protocol.Accumulator
import FfbInterceptor.Server.Agreement
import FfbInterceptor.Server.Safety
import FfbInterceptor.Engine.DeviceClock
import FfbInterceptor.Engine.Evidence
import FfbInterceptor.Engine.Mixer
import FfbInterceptor.Library.CommandLine
import FfbInterceptor.Launcher.RoundTrip
import FfbInterceptor.Telemetry.Isolation
import FfbInterceptor.Engine.Updates
import FfbInterceptor.Installer.Restoration
import FfbInterceptor.Engine.Transitions
import FfbInterceptor.Protocol.Chunking
import FfbInterceptor.Protocol.Ignored
import FfbInterceptor.Viewer.Agreement
import FfbInterceptor.Viewer.Draining
import FfbInterceptor.Proxy.Safety
import FfbInterceptor.Engine.Connections
import FfbInterceptor.Engine.Locality
import FfbInterceptor.Engine.Waveforms
import FfbInterceptor.Telemetry.Confidential
import FfbInterceptor.Engine.Acquisition
import FfbInterceptor.Installer.PortableRoundTrip
import FfbInterceptor.Hook.Patching
import FfbInterceptor.Server.Shutdown
import FfbInterceptor.Viewer.SessionSafety
import FfbInterceptor.Engine.Unclamped
import FfbInterceptor.Manager.ManifestExact
import FfbInterceptor.Manager.ElevatedExact
import FfbInterceptor.Manager.SignatureSafety
import FfbInterceptor.Manager.PackageLockSafety
import FfbInterceptor.Manager.ProfileFaults
import FfbInterceptor.Release.ArchiveExact
import FfbInterceptor.Release.Publish
import FfbInterceptor.Telemetry.Ordering
import FfbInterceptor.Manager.IntegrityExact
import FfbInterceptor.Engine.Projection
import FfbInterceptor.Telemetry.Truncation
import FfbInterceptor.Launcher.Architecture
import FfbInterceptor.Manager.Redaction
import FfbInterceptor.Viewer.Rms
import FfbInterceptor.Viewer.Attribution
import FfbInterceptor.Viewer.Errors
import FfbInterceptor.Release.BuildPolicyExact
import FfbInterceptor.Installer.PackageBoundaryExact
import FfbInterceptor.Launcher.Custody
import FfbInterceptor.Release.PublisherAgain
