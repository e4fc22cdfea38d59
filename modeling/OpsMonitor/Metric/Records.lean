import OpsMonitor.Clock
import OpsMonitor.Library.Decimal
import OpsMonitor.Library.Table
import OpsMonitor.Library.Upsert

/-! The raw metric samples of the servers, and the rows of their daily archive. -/

namespace OpsMonitor.Metric
open Library

structure MonitorServerMetric where
  id : ℕ
  serverId : ℕ
  collectedAt : Time
  cpuUsage : Option (Decimal 5 2)
  memoryUsage : Option (Decimal 5 2)
  memoryUsedBytes : Option ℕ
  diskUsage : Option (Decimal 5 2)
  networkInBytes : Option ℕ
  networkOutBytes : Option ℕ
  load1m : Option (Decimal 10 2)
  load5m : Option (Decimal 10 2)
  load15m : Option (Decimal 10 2)
  tcpConnections : Option ℕ
  uptimeSeconds : Option ℕ
  deriving DecidableEq

instance : Keyed MonitorServerMetric :=
  ⟨MonitorServerMetric.id, fun n m => { m with id := n }, fun _ _ => rfl⟩

/-- The aggregates of a server and a date, the unique key `uk_metric_daily_server_date`. -/
structure MonitorServerMetricDaily where
  serverId : ℕ
  metricDate : ℤ
  cpuUsageAvg : Option (Decimal 12 4)
  cpuUsageMax : Option (Decimal 12 4)
  memoryUsageAvg : Option (Decimal 12 4)
  memoryUsageMax : Option (Decimal 12 4)
  diskUsageAvg : Option (Decimal 12 4)
  diskUsageMax : Option (Decimal 12 4)
  load1mAvg : Option (Decimal 12 4)
  load1mMax : Option (Decimal 12 4)
  tcpConnectionsAvg : Option (Decimal 12 4)
  tcpConnectionsMax : Option (Decimal 12 4)
  sampleCount : ℕ
  deriving DecidableEq

instance : Indexed MonitorServerMetricDaily (ℕ × ℤ) := ⟨fun d => (d.serverId, d.metricDate)⟩

structure Db where
  metrics : Table MonitorServerMetric
  daily : UniqueTable MonitorServerMetricDaily

def Db.empty : Db := ⟨.empty, .empty⟩

/-- `get_latest_map`: of the samples with the latest `collected_at` of a server, the dictionary
keeps the last one. -/
def getLatestMap (metrics : Table MonitorServerMetric) (serverIds : List ℕ) (sid : ℕ) :
    Option MonitorServerMetric :=
  if sid ∈ serverIds then
    (metrics.select fun m => m.serverId = sid ∧
      ∀ m' ∈ metrics.rows, m'.serverId = sid → m'.collectedAt ≤ m.collectedAt).getLast?
  else none

end OpsMonitor.Metric
