import OpsMonitor.Task.Admission
import OpsMonitor.Task.Batches
import OpsMonitor.Task.Closure
import OpsMonitor.Task.Confirmation
import OpsMonitor.Task.CronRetries
import OpsMonitor.Task.Deadlines
import OpsMonitor.Task.Dispatch
import OpsMonitor.Task.Outcomes
import OpsMonitor.Task.Overwrites
import OpsMonitor.Task.Redelivery
import OpsMonitor.Scheduler.Phases
import OpsMonitor.Scheduler.Retention
import OpsMonitor.Metric.Archive
import OpsMonitor.Alert.Firing
import OpsMonitor.Alert.History
import OpsMonitor.Alert.Races
import OpsMonitor.Agent.Gateway
import OpsMonitor.Agent.KeyCustody
import OpsMonitor.Agent.Liveness
import OpsMonitor.Agent.ReplayWindow
import OpsMonitor.Agent.RetryDecisions
import OpsMonitor.Agent.SharedConfig
import OpsMonitor.Agent.Timeouts
import OpsMonitor.Agent.Transport
import OpsMonitor.Management.Requests
import OpsMonitor.Alert.Hysteresis
import OpsMonitor.Server.AssetSync
import OpsMonitor.Server.Discovery
import OpsMonitor.Metric.Rates
import OpsMonitor.Metric.Reaggregation
import OpsMonitor.Metric.Overview
import OpsMonitor.Management.Listings
import OpsMonitor.Management.Seeding
import OpsMonitor.Server.ClientAddress
import OpsMonitor.Agent.Collector
import OpsMonitor.Agent.Package
import OpsMonitor.Agent.SigningScheme
import OpsMonitor.Agent.Retransmission
import OpsMonitor.Deploy.Installer
import OpsMonitor.Deploy.Prepare
import OpsMonitor.Deploy.Settings
import OpsMonitor.Deploy.ConnectionUrls
import OpsMonitor.Library.Percent
import OpsMonitor.Management.Sessions
import OpsMonitor.Management.Auditing
import OpsMonitor.Agent.Simulation
import OpsMonitor.Deploy.Migrations
import OpsMonitor.Deploy.Downgrades
