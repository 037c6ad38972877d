import Wallermax.Base.Retention
import Wallermax.Base.Runs
import Wallermax.Base.Occurrence
import Wallermax.Base.FilePrograms
import Wallermax.Base.SlidingWindow
import Wallermax.Base.Symlinks
import Wallermax.Base.Table
import Wallermax.Base.Constrained
import Wallermax.Base.Gregorian
import Wallermax.Base.HashMap
import Wallermax.Base.TokenBucket
import Wallermax.Base.FullText
import Wallermax.Base.ParentTree
import Wallermax.Base.Refresh
import Wallermax.Base.Paths
import Wallermax.Base.PatternTable
import Wallermax.Base.PercentEncoding
import Wallermax.Base.Trim
import Wallermax.Base.Ascii
import Wallermax.Base.Uri
import Wallermax.Base.UrlScheme
import Wallermax.Base.Cookies
import Wallermax.Base.UrlOrigin
import Wallermax.Base.Csp
import Wallermax.Base.Cut
import Wallermax.Base.Exposition
import Wallermax.Base.ForestWalk
import Wallermax.Base.Xml
import Wallermax.Base.XmlWriting
import Wallermax.Base.XmlRoundTrip
import Wallermax.Base.XmlPaths
import Wallermax.Base.FormFields
import Wallermax.Base.FtsQuery
import Wallermax.Base.JoinedWords
import Wallermax.Base.LossyCuts
import Wallermax.Base.Reads
import Wallermax.Base.RingLog
import Wallermax.Base.UrlHost
import Wallermax.Base.UrlAuthority
import Wallermax.Base.TomlTree
import Wallermax.Base.Escaping
import Wallermax.Base.Paging
import Wallermax.Accounts.Users
import Wallermax.Accounts.Memberships
import Wallermax.Accounts.Administration
import Wallermax.Accounts.LastAdmin
import Wallermax.Accounts.Register
import Wallermax.Accounts.Mirror
import Wallermax.Accounts.Evolution
import Wallermax.Auth.FormAction
import Wallermax.Auth.Widening
import Wallermax.Auth.RefreshTokens
import Wallermax.Auth.Sessions
import Wallermax.Auth.SessionInvariant
import Wallermax.Auth.Revocation
import Wallermax.Auth.Handlers
import Wallermax.Auth.ReuseDetection
import Wallermax.Auth.Redirects
import Wallermax.Auth.RedirectQuery
import Wallermax.Auth.SignInReturn
import Wallermax.Auth.SessionCookie
import Wallermax.Auth.CookieLines
import Wallermax.Auth.BrowserSession
import Wallermax.Auth.AccessTokens
import Wallermax.Auth.AccessRuns
import Wallermax.Limits.RateLimiter
import Wallermax.Limits.IdealLimiter
import Wallermax.Limits.LoginThrottle
import Wallermax.Limits.SprayLock
import Wallermax.Limits.RetryHint
import Wallermax.Limits.Scrapes
import Wallermax.Limits.LoginAttempts
import Wallermax.Proxy.IpAddr
import Wallermax.Proxy.Cidr
import Wallermax.Proxy.ClientIp
import Wallermax.Config.Sections
import Wallermax.Config.Validation
import Wallermax.Config.Routes
import Wallermax.Config.Assembly
import Wallermax.Config.SafeToRun
import Wallermax.External.UpstreamUrl
import Wallermax.External.FixedParameters
import Wallermax.Storage.Content
import Wallermax.Storage.Migration0011
import Wallermax.Tenants.TenantDb
import Wallermax.Tenants.Forms
import Wallermax.Tenants.Routing
import Wallermax.Tenants.Requests
import Wallermax.Tenants.Orphans
import Wallermax.Tenants.RoutingUpdates
import Wallermax.Tenants.Dispatch
import Wallermax.Tenants.Boot
import Wallermax.Tenants.Restart
import Wallermax.Tenants.Seeding
import Wallermax.Tenants.HostNames
import Wallermax.Tenants.Classification
import Wallermax.Tenants.Lockout
import Wallermax.Tenants.OneRequest
import Wallermax.Templates.Middleware
import Wallermax.Templates.Containment
import Wallermax.Templates.PanelViews
import Wallermax.Templates.LocalRedirects
import Wallermax.Templates.IncludeExpansion
import Wallermax.Templates.StaticFiles
import Wallermax.Templates.WorkerIncludes
import Wallermax.Templates.Parser
import Wallermax.Templates.Literals
import Wallermax.Templates.Lossless
import Wallermax.Templates.Engine
import Wallermax.Templates.Renders
import Wallermax.Templates.Coherence
import Wallermax.Templates.Require
import Wallermax.Templates.ModuleJail
import Wallermax.Templates.RequireWorker
import Wallermax.Templates.Hops
import Wallermax.Templates.IncludeCalls
import Wallermax.Templates.ModuleBan
import Wallermax.Templates.EscapeHtml
import Wallermax.Content.ImportSlugs
import Wallermax.Content.ListedTree
import Wallermax.Content.Feeds
import Wallermax.Content.FeedReading
import Wallermax.Content.Dates
import Wallermax.Content.DatetimeLocal
import Wallermax.Content.DatetimeRoundTrip
import Wallermax.Content.SaveUnchanged
import Wallermax.Content.Calendar
import Wallermax.Content.ContentDb
import Wallermax.Content.Pages
import Wallermax.Content.Menus
import Wallermax.Content.Forms
import Wallermax.Content.Handlers
import Wallermax.Content.Effects
import Wallermax.Content.Search
import Wallermax.Content.Sites
import Wallermax.Content.Isolation
import Wallermax.Content.Ancestors
import Wallermax.Content.PageTree
import Wallermax.Content.History
import Wallermax.Content.Restore
import Wallermax.Content.Markdown
import Wallermax.Content.Media
import Wallermax.Content.MediaInStep
import Wallermax.Content.Views
import Wallermax.Content.PublicPages
import Wallermax.Content.PanelPages
import Wallermax.Content.Drafts
import Wallermax.Content.Confidentiality
import Wallermax.Content.SearchInput
import Wallermax.Content.SearchPage
import Wallermax.Content.ListingLinks
import Wallermax.Content.ListingWalk
import Wallermax.Sidecar.Pool
import Wallermax.Sidecar.Ledger
import Wallermax.Sidecar.Discipline
import Wallermax.Sidecar.AutoRenderer
import Wallermax.Sidecar.Backoff
import Wallermax.Sidecar.Fallback
import Wallermax.Sidecar.Response
import Wallermax.Manager.Logs
import Wallermax.Manager.LogPaging
import Wallermax.Manager.ConfigFiles
import Wallermax.Manager.ConfigRuns
import Wallermax.Manager.Metrics
import Wallermax.Manager.MetricsLines
import Wallermax.Manager.MetricsRoundTrip
import Wallermax.Manager.Http
import Wallermax.Manager.AnswerFraming
import Wallermax.Manager.Chunks
import Wallermax.Manager.SameHost
import Wallermax.Manager.EditAlone
import Wallermax.Manager.SettingsForm
import Wallermax.Manager.ServerBind
import Wallermax.Manager.CommandLine
import Wallermax.Server.HtmlErrorPage
import Wallermax.Server.ErrorPages
import Wallermax.Json.Documents
import Wallermax.Server.AppErrors
import Wallermax.Server.Pipeline
import Wallermax.Server.PipelineRuns
import Wallermax.Server.HttpsRedirect
import Wallermax.Manager.Stops
import Wallermax.Manager.BootProbe
