import TrustedRelay.Format.Delimited
import TrustedRelay.Url.Parse
import TrustedRelay.Rust.Outcome
import TrustedRelay.Core.Config
import TrustedRelay.Core.Origin
import TrustedRelay.Core.TlsPins
import TrustedRelay.Core.ConfigHash
import TrustedRelay.Core.Proxy
import TrustedRelay.Http.Client
import TrustedRelay.Core.Destination
import TrustedRelay.Core.Pinning
import TrustedRelay.Machine.Run
import TrustedRelay.Server.OneShot
import TrustedRelay.Attest.ConfidentialSpace
import TrustedRelay.Attest.CertTable
import TrustedRelay.Attest.Endorsement
import TrustedRelay.Attest.SevSnp
import TrustedRelay.Attest.Mock
import TrustedRelay.Attest.Quote
import TrustedRelay.Tls.Client
import TrustedRelay.Server.Startup
import TrustedRelay.OnlineCheck.ExpectedHash
import TrustedRelay.OnlineCheck.Decision
import TrustedRelay.Tls.Server
import TrustedRelay.Attest.MetadataCache
import TrustedRelay.Rust.BufReader
import TrustedRelay.Tunnel.Gateway
import TrustedRelay.Tunnel.Transport
import TrustedRelay.Server.Presentation
import TrustedRelay.Attest.SnpEvidence
import TrustedRelay.Attest.AmdSignature
import TrustedRelay.Attest.TbsCertificate
import TrustedRelay.Attest.ReportSpec
import TrustedRelay.Attest.LauncherResponse
import TrustedRelay.Attest.ChunkedToken
import TrustedRelay.Attest.ReportdataNonces
import TrustedRelay.Core.ResponseHeaders
import TrustedRelay.Attest.ImageDigest
import TrustedRelay.Core.ReleaseDigest
import TrustedRelay.Rust.Words
import TrustedRelay.Core.Redact
import TrustedRelay.Format.Json
import TrustedRelay.Tunnel.LocalError
import TrustedRelay.Http.StatusLine
import TrustedRelay.Tunnel.StatusCheck
import TrustedRelay.Attest.KdsCache
import TrustedRelay.Attest.SnpAttester
import TrustedRelay.Attest.TokenAttester
import TrustedRelay.Core.ModelName
import TrustedRelay.Core.Router
import TrustedRelay.Machine.Effects
import TrustedRelay.OnlineCheck.Verdict
import TrustedRelay.Rust.Arrival
import TrustedRelay.Sdk.ChatCompletions
import TrustedRelay.Sdk.Client
import TrustedRelay.Sdk.Types
import TrustedRelay.Server.Admin
import TrustedRelay.Server.PinnedRelay
import TrustedRelay.Tls.SnpServer
import TrustedRelay.Tls.TokenServer
import TrustedRelay.Tunnel.Session
