import Waf.Lib.Text
import Waf.Lib.HashMap
import Waf.Lib.Guard
import Waf.Lib.Ring
import Waf.Lib.Window
import Waf.Lib.Ledger
import Waf.Lib.Feed
import Waf.Lib.Frequent
import Waf.Lib.Publish
import Waf.Lib.Tally
import Waf.Lib.Bounded
import Waf.Lib.Sweep
import Waf.Lib.Unwinding
import Waf.Lib.Newest
import Waf.Lib.Regex
import Waf.Lib.Regex.Joined
import Waf.Lib.Regex.Words
import Waf.Lib.Regex.Respell
import Waf.Lib.Regex.Syntax
import Waf.Lib.Regex.Case
import Waf.Lib.Percent
import Waf.Lib.Position
import Waf.Lib.JsString
import Waf.Net.Addr
import Waf.Net.AddrText
import Waf.Net.Header
import Waf.Net.Fingerprint
import Waf.Config
import Waf.Runtime
import Waf.Runtime.Persisted
import Waf.Runtime.Lists
import Waf.Limiter.Counter
import Waf.Limiter.RateLimiter
import Waf.Limiter.Admission
import Waf.Limiter.Isolation
import Waf.Limiter.Sweeps
import Waf.Ban.Reputation
import Waf.Ban.Locks
import Waf.Ban.Bursts
import Waf.Ban.Early
import Waf.Ban.Eviction
import Waf.Token.Challenge
import Waf.Token.Bic
import Waf.Token.Separation
import Waf.Token.Work
import Waf.Decision
import Waf.Signal.Anomaly
import Waf.Signal.Tracker
import Waf.Signal.Gate
import Waf.Signal.Lookups
import Waf.Signal.Sessions
import Waf.Signal.Intervals
import Waf.Signal.Floods
import Waf.Signal.Shared
import Waf.Signal.Traps
import Waf.Signal.Subnets
import Waf.Rules
import Waf.Rules.Decode
import Waf.Rules.Patterns
import Waf.Rules.Case
import Waf.Rules.Order
import Waf.Rules.Spaces
import Waf.Rules.Dots
import Waf.Events
import Waf.Storage
import Waf.Storage.Query
import Waf.Storage.Series
import Waf.Engine
import Waf.Engine.Exits
import Waf.Engine.Allow
import Waf.Engine.Uam
import Waf.Engine.Refusal
import Waf.Engine.Tighten
import Waf.Engine.Log
import Waf.Engine.Redact
import Waf.Ban.Holds
import Waf.Engine.Bans
import Waf.Engine.Alike
import Waf.Admin
import Waf.Admin.Restart
import Waf.Admin.Auth
import Waf.Admin.Thresholds
import Waf.Admin.Stream
import Waf.Admin.AutoUam
import Waf.Admin.Escalation
import Waf.Admin.Writers
import Waf.Admin.Controls
import Waf.Admin.Chart
import Waf.Admin.TopLists
import Waf.Admin.Ranges
import Waf.Admin.Reading
import Waf.Admin.Calls
import Waf.Proxy.ClientIp
import Waf.Proxy.Upstream
import Waf.Proxy.Filter
import Waf.Proxy.Flight
import Waf.Engine.Groups
import Waf.Proxy.Context
import Waf.Proxy.Ladder
import Waf.Proxy.Pages
import Waf.Proxy.Cookies
import Waf.Proxy.Siteverify
import Waf.Proxy.Ja4h
import Waf.Proxy.Clearance
import Waf.Proxy.Browser
