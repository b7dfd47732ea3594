import Offprint.Artifact.JournalSize
import Offprint.Artifact.Outcome
import Offprint.Artifact.Survival
import Offprint.Artifact.Torn
import Offprint.Capture.Terminal
import Offprint.Chromium.Cookies
import Offprint.Chromium.EventBus
import Offprint.Chromium.ProxyRequest
import Offprint.Chromium.ResponseReuse
import Offprint.Chromium.Transport
import Offprint.Collector.Snapshot
import Offprint.Collector.Transfer
import Offprint.Document.Bound
import Offprint.Document.Freeze
import Offprint.Document.JavascriptUrl
import Offprint.Document.Preformatted
import Offprint.Document.Srcdoc
import Offprint.Export.Pdf
import Offprint.Html.Accounting
import Offprint.Model.RedactedUrl
import Offprint.Network.Guard
import Offprint.Network.Registry
import Offprint.Pipeline.Rendering
import Offprint.Scheduler.Checkpoints
import Offprint.Scheduler.CrawlKills
import Offprint.Scheduler.Links
import Offprint.Scheduler.Shutdown
