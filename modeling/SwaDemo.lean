import SwaDemo.PaceTimers
import SwaDemo.LatestRun
import SwaDemo.NoRewind
import SwaDemo.ForeignCarrier
import SwaDemo.ReadBoundaries
import SwaDemo.CarrierLookup
import SwaDemo.ForwardCopies
import SwaDemo.CellsAgree
import SwaDemo.NeverStuck
import SwaDemo.SplitterLaws
import SwaDemo.SubscriberIsolation
import SwaDemo.EmitClock
import SwaDemo.TraceServer
import SwaDemo.ExternalCarrier
import SwaDemo.FailsClosed
import SwaDemo.LookupEvents
import SwaDemo.SkipWalk
import SwaDemo.StageProgress
import SwaDemo.RichErrors
import SwaDemo.GateViews
import SwaDemo.CarrierCall
import SwaDemo.TruncatedReplies
import SwaDemo.ShipmentHop
import SwaDemo.IdentityCache
import SwaDemo.GracePeriod
import SwaDemo.Base64
import SwaDemo.JsonText
import SwaDemo.TokenTtl
import SwaDemo.WeightedPacing
import SwaDemo.TtlCountdown
import SwaDemo.JsonStrings
import SwaDemo.JsonNumbers
import SwaDemo.JsonEncode
import SwaDemo.JsonQuoting
import SwaDemo.JsonCut
import SwaDemo.Utf8Strings
import SwaDemo.TraceWire
import SwaDemo.TraceVocabulary
import SwaDemo.DoubleWrap
import SwaDemo.ResolveRequest
import SwaDemo.ResolveChain
import SwaDemo.EventStream
import SwaDemo.TraceFeed
import SwaDemo.WalkCompletion
import SwaDemo.Float64
import SwaDemo.SvidClaims
import SwaDemo.PaceDrain
import SwaDemo.TraceDisclosure
import SwaDemo.SecretsRequests
import SwaDemo.InspectorViews
import SwaDemo.AppControls
import SwaDemo.Calendar
import SwaDemo.Rfc3339
import SwaDemo.IdentityChain
import SwaDemo.ExternalResolve
