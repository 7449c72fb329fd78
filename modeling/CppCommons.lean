import CppCommons.Foundation.Ascii
import CppCommons.Foundation.BitString
import CppCommons.Foundation.Brackets
import CppCommons.Foundation.CheckedReads
import CppCommons.Foundation.FallibleCalls
import CppCommons.Foundation.Iteration
import CppCommons.Foundation.JsonScanner
import CppCommons.Foundation.JsonSyntax
import CppCommons.Foundation.JsonWriter
import CppCommons.Foundation.LabelledRun
import CppCommons.Foundation.Loop
import CppCommons.Foundation.Machine
import CppCommons.Foundation.Parenthesized
import CppCommons.Foundation.Placement
import CppCommons.Foundation.RankedSearch
import CppCommons.Foundation.Regex
import CppCommons.Foundation.RegexReplace
import CppCommons.Foundation.SecureHash
import CppCommons.Cxx.ByteOrder
import CppCommons.Cxx.ByteString
import CppCommons.Cxx.Format
import CppCommons.Cxx.Json
import CppCommons.Cxx.JsonDump
import CppCommons.Cxx.Numeric
import CppCommons.Cxx.SignedArithmetic
import CppCommons.Cxx.StandardLibrary
import CppCommons.Cxx.StreamDouble
import CppCommons.Kernel.AggregateRoot
import CppCommons.Kernel.Email
import CppCommons.Kernel.Identity
import CppCommons.Kernel.Money
import CppCommons.Kernel.Specification
import CppCommons.Kernel.UuidOrder
import CppCommons.Kernel.UuidText
import CppCommons.Observability.CorrelationContext
import CppCommons.Observability.CorrelationScope
import CppCommons.Observability.HealthRegistry
import CppCommons.Observability.JsonLogger
import CppCommons.Observability.MetricsText
import CppCommons.Observability.MetricsThreads
import CppCommons.Observability.OtelTracer
import CppCommons.Observability.PrometheusMetrics
import CppCommons.Observability.SharedMetrics
import CppCommons.Observability.SpanIdentity
import CppCommons.Observability.SpanNesting
import CppCommons.Observability.TracerThreads
import CppCommons.Resilience.BreakerCalls
import CppCommons.Resilience.BreakerReference
import CppCommons.Resilience.Bulkhead
import CppCommons.Resilience.CircuitBreaker
import CppCommons.Resilience.CoolDown
import CppCommons.Resilience.FailureCount
import CppCommons.Resilience.HalfOpenProbes
import CppCommons.Resilience.Hedge
import CppCommons.Resilience.RateLimiter
import CppCommons.Resilience.RetryBreaker
import CppCommons.Resilience.RetryDelays
import CppCommons.Resilience.RetryPolicy
import CppCommons.Resilience.RetryRun
import CppCommons.Resilience.TimedBulkhead
import CppCommons.Resilience.Timeout
import CppCommons.Security.AesGcmProvider
import CppCommons.Security.AesGcmRoundTrip
import CppCommons.Security.AuthenticBlobs
import CppCommons.Security.Base64Url
import CppCommons.Security.Base64UrlCodec
import CppCommons.Security.ConstantTime
import CppCommons.Security.GcmCipher
import CppCommons.Security.JwtDecoder
import CppCommons.Security.JwtSegments
import CppCommons.Security.JwtSigner
import CppCommons.Security.KeyRotation
import CppCommons.Security.PiiRedactor
import CppCommons.Security.SecureRandom
import CppCommons.Security.Sha256
import CppCommons.Security.Sha256Padding
import CppCommons.Security.Sha256Standard
import CppCommons.Web.AcceptHeader
import CppCommons.Web.AcceptSpaces
import CppCommons.Web.AuthMiddleware
import CppCommons.Web.BodyLimitMiddleware
import CppCommons.Web.CompressionMiddleware
import CppCommons.Web.ContentNegotiation
import CppCommons.Web.CorrelationMiddleware
import CppCommons.Web.CorsMiddleware
import CppCommons.Web.ErrorResponses
import CppCommons.Web.FakeHttpServer
import CppCommons.Web.Filters
import CppCommons.Web.HealthHandler
import CppCommons.Web.Http
import CppCommons.Web.IdempotencyHistory
import CppCommons.Web.IdempotencyMiddleware
import CppCommons.Web.IdempotencyOverlap
import CppCommons.Web.MiddlewareChain
import CppCommons.Web.RateLimitMiddleware
import CppCommons.Web.ServiceStack
import CppCommons.Application.DecoratorReports
import CppCommons.Application.HandlerDecorators
import CppCommons.Application.InstrumentedUseCase
import CppCommons.Application.Mediator
import CppCommons.Application.OutboxDelivery
import CppCommons.Application.OutboxPublisher
import CppCommons.Application.OutboxThreads
import CppCommons.Application.Pagination
import CppCommons.Application.SagaOrchestrator
import CppCommons.Application.TracingMiddleware
import CppCommons.Config.ConfigValidator
import CppCommons.Config.ConfigWatcher
import CppCommons.Config.DotenvSource
import CppCommons.Config.Settings
import CppCommons.Config.SettingsGrammar
import CppCommons.Config.WatchEvents
import CppCommons.Config.YamlSource
import CppCommons.OrderService.Order
import CppCommons.OrderService.PlaceOrder
import CppCommons.Testing.InMemoryEventBus
