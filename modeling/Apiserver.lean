import Apiserver.Abac.File
import Apiserver.Abac.Policy
import Apiserver.Abac.Rules
import Apiserver.Audit.Buffered
import Apiserver.Audit.Documented
import Apiserver.Audit.Event
import Apiserver.Audit.Policy
import Apiserver.Audit.Truncate
import Apiserver.Audit.Union
import Apiserver.Authentication.Bootstrap
import Apiserver.Authentication.Module
import Apiserver.Authentication.Oidc
import Apiserver.Authentication.Request
import Apiserver.Authentication.RequestHeader
import Apiserver.Authentication.ServiceAccount
import Apiserver.Authentication.TokenCache
import Apiserver.Authentication.Websocket
import Apiserver.Authorization.Modes
import Apiserver.Authorization.PathPatterns
import Apiserver.Authorization.Webhook
import Apiserver.Basic
import Apiserver.Certificates.Content
import Apiserver.Certificates.Reload
import Apiserver.Certificates.Serving
import Apiserver.Certificates.Sni
import Apiserver.Client.Pager
import Apiserver.Featuregate.Gate
import Apiserver.Featuregate.History
import Apiserver.Filters.Audit
import Apiserver.Filters.AuditCode
import Apiserver.Filters.AuditStages
import Apiserver.Filters.Authentication
import Apiserver.Filters.Authorization
import Apiserver.Filters.Handler
import Apiserver.Filters.Impersonation
import Apiserver.Filters.Timeout
import Apiserver.Filters.Warning
import Apiserver.Flag.Maps
import Apiserver.Flag.NamedCertKey
import Apiserver.Go.Backoff
import Apiserver.Go.Binary
import Apiserver.Go.Channel
import Apiserver.Go.Dedup
import Apiserver.Go.Encoding
import Apiserver.Go.HeaderWriter
import Apiserver.Go.Http
import Apiserver.Go.LevelOrder
import Apiserver.Go.LevelSearch
import Apiserver.Go.LinkedList
import Apiserver.Go.Merge
import Apiserver.Go.Net
import Apiserver.Go.ResponseWriter
import Apiserver.Go.Sampling
import Apiserver.Go.Sort
import Apiserver.Go.Strings
import Apiserver.Go.Visit
import Apiserver.Go.Workqueue
import Apiserver.Handlers.Watch
import Apiserver.Logs.Reduction
import Apiserver.Proc.Hooks
import Apiserver.Proc.Process
import Apiserver.Proc.Status
import Apiserver.Rbac.Additive
import Apiserver.Rbac.File
import Apiserver.Rbac.NilUser
import Apiserver.Rbac.Rule
import Apiserver.Rbac.Subjects
import Apiserver.Rbac.Types
import Apiserver.Request.ReadPath
import Apiserver.Request.RequestInfo
import Apiserver.Request.RoundTrip
import Apiserver.ResponseWriters.Negotiation
import Apiserver.ResponseWriters.Writers
import Apiserver.Rest.AuditRecord
import Apiserver.Rest.Discovery
import Apiserver.Rest.FieldKeys
import Apiserver.Rest.FieldWalk
import Apiserver.Rest.FormFields
import Apiserver.Rest.HandleShapes
import Apiserver.Rest.ParameterCodec
import Apiserver.Rest.RespWriter
import Apiserver.Rest.RouteBuilder
import Apiserver.Rest.RouteHandle
import Apiserver.Rest.TypeFields
import Apiserver.Rest.Urlencoded
import Apiserver.Rest.Values
import Apiserver.Server.Director
import Apiserver.Server.HandlerChain
import Apiserver.Server.Mux
import Apiserver.Server.MuxListing
import Apiserver.Server.Shutdown
import Apiserver.Sessions.Orm
import Apiserver.Sessions.Session
import Apiserver.Storage.Db
import Apiserver.Streaming.PortForward
import Apiserver.Streaming.RemoteCommand
import Apiserver.Streaming.RequestCache
import Apiserver.Streaming.Server
import Apiserver.Transition.Calls
import Apiserver.Transition.System
import Apiserver.Transition.Table
import Apiserver.Webhook.Credentials
import Apiserver.Webhook.Retry
