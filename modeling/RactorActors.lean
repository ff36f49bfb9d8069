import RactorActors.Watchdog.Accounting
import RactorActors.Watchdog.Availability
import RactorActors.Watchdog.Deadline
import RactorActors.Time.Cron.Worker
import RactorActors.Time.Cron.Trigger
import RactorActors.Time.Cron.Manager
import RactorActors.Time.Cron.Registry
import RactorActors.Time.Cron.Survival
import RactorActors.Foundations.LengthPrefix
import RactorActors.Net.Tcp.Reader
import RactorActors.Net.Tcp.Decoding
import RactorActors.Net.Tcp.Writer
import RactorActors.Net.Tcp.Framing
import RactorActors.Net.Tcp.Session
import RactorActors.Net.Tcp.Flow
import RactorActors.Net.Tcp.Delivery
import RactorActors.Net.Tcp.Close
import RactorActors.Net.Tcp.Liveness
import RactorActors.Net.Tcp.AnyPeer
import RactorActors.Time.Cron.Correspondence
import RactorActors.Time.Cron.Notices
import RactorActors.Watchdog.Cleanup
import RactorActors.Time.Cron.Agreement
import RactorActors.Time.Cron.StartFirst
import RactorActors.FileWatcher.Impl
import RactorActors.FileWatcher.Subscriptions
import RactorActors.FileWatcher.Watching
import RactorActors.Sync.Broadcast.Delivery
import RactorActors.Sync.Broadcast.Subscribers
import RactorActors.Net.Tcp.Teardown
import RactorActors.Streams.Mux.Impl
import RactorActors.Streams.Mux.Delivery
import RactorActors.Streams.Mux.Family
import RactorActors.Time.Cron.Liveness
import RactorActors.Time.Cron.Occurrences
import RactorActors.Time.Cron.Pool
import RactorActors.Time.Cron.Board
import RactorActors.Time.Cron.Rescheduling
import RactorActors.Time.Cron.Update
import RactorActors.Streams.Forwarding
import RactorActors.Streams.Looping
import RactorActors.Net.Tcp.Loop
import RactorActors.Net.Tcp.Parsing
import RactorActors.Net.Tcp.Lengths
import RactorActors.Foundations.Document
import RactorActors.Foundations.Semver
import RactorActors.Xtask.Deps.Updater
import RactorActors.Xtask.Deps.PrGenerator
import RactorActors.Xtask.Deps.CheckDependencies
import RactorActors.Foundations.Projection
import RactorActors.Watchdog.Isolation
import RactorActors.Watchdog.Clients
import RactorActors.Net.Tcp.Listener
import RactorActors.Xtask.Deps.CratesIo
import RactorActors.Xtask.Deps.CurrentVersion
import RactorActors.Xtask.Deps.AllOrNothing
import RactorActors.Xtask.Deps.Reruns
import RactorActors.Xtask.Deps.Report
import RactorActors.Xtask.Deps.LocalRuns
