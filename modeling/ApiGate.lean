import ApiGate.EventLoop.Act
import ApiGate.EventLoop.Run
import ApiGate.EventLoop.Tally
import ApiGate.EventLoop.Relay
import ApiGate.BufferBudget
import ApiGate.Server
import ApiGate.ServerInvariant
import ApiGate.ServerHandlers
import ApiGate.ServerSafety
import ApiGate.Message
import ApiGate.Config
import ApiGate.Handler
import ApiGate.Admission
import ApiGate.Rewrite
import ApiGate.Metrics
import ApiGate.UpstreamPool
import ApiGate.Exchange
import ApiGate.ExchangeRules
import ApiGate.ExchangeSafety
import ApiGate.StreamJournal
import ApiGate.StreamAccept
import ApiGate.Session
import ApiGate.SessionHandlers
import ApiGate.SessionSteps
import ApiGate.Gateway
import ApiGate.GatewaySafety
import ApiGate.SessionInvariant
import ApiGate.Rate.Bucket
import ApiGate.Rate.Checked
import ApiGate.RateLimitExact
import ApiGate.RetryAfter
import ApiGate.UpstreamPoolSafety
import ApiGate.PoolCleanup
import ApiGate.EventLoop.Feed
import ApiGate.Json
import ApiGate.RoutesCallback
import ApiGate.RoutesShape
import ApiGate.HealthChecks
import ApiGate.HealthChecksSafety
import ApiGate.ProbeFairness
import ApiGate.Outline
import ApiGate.KeepAlive
import ApiGate.SessionMoves
import ApiGate.RequestMoves
import ApiGate.GatewayMoves
import ApiGate.RateIsolation
import ApiGate.RequestBound
import ApiGate.ServerDrain
import ApiGate.System
import ApiGate.Drain
import ApiGate.RequestLedger
import ApiGate.MetricsSafety
import ApiGate.Output.Bounded
import ApiGate.MetricsText
import ApiGate.MetricsRender
import ApiGate.MetricsWellFormed
import ApiGate.EventLoop.Streak
import ApiGate.HealthHysteresis
import ApiGate.AdmissionOutcomes
import ApiGate.EventLoop.Rotation
import ApiGate.RoundRobin
import ApiGate.RouteSelection
import ApiGate.FieldFilters
import ApiGate.RequestRewrite
import ApiGate.ResponseRewrite
import ApiGate.StreamHeads
import ApiGate.StreamDelivery
import ApiGate.ConnectionReuse
import ApiGate.DownstreamTls
import ApiGate.ConfigText
import ApiGate.ConfigGrammar
import ApiGate.LoadConfig
import ApiGate.AcceptedRoutes
import ApiGate.ApiKeys
import ApiGate.DeadlineTimeline
import ApiGate.StageDeadlines
import ApiGate.Reservations
import ApiGate.BodyLedger
import ApiGate.BodyReservations
import ApiGate.ReservationsExact
import ApiGate.StopSessions
import ApiGate.AcceptedConfig
import ApiGate.AdmissionGuards
import ApiGate.ConfigGuards
import ApiGate.Custody
import ApiGate.CustodyMoves
import ApiGate.Estate
import ApiGate.AdmissionTrace
import ApiGate.HealthLoop
import ApiGate.RateWindow
import ApiGate.RouteDocuments
import ApiGate.DrainReport
import ApiGate.Quiescence
import ApiGate.Bootstrap
import ApiGate.Environments
import ApiGate.ProbeEnds
import ApiGate.RouteMeaning
