import OpsMonitor.Library.DdlScripts

/-! The migrations of the database (`migrations/versions`), and how alembic runs them. -/

namespace OpsMonitor.Deploy
open Library Ddl

/-! ## The statements -/

namespace Migrations

def baselineUpgrade : List Operation :=
  [.createTable "sys_permission"
     [⟨"id", false, none⟩, ⟨"permission_code", false, none⟩, ⟨"permission_name", false, none⟩,
      ⟨"permission_type", false, none⟩, ⟨"path", true, none⟩, ⟨"method", true, none⟩, ⟨"parent_id", true, none⟩,
      ⟨"status", false, some "1"⟩, ⟨"created_at", false, some "CURRENT_TIMESTAMP(3)"⟩,
      ⟨"updated_at", false, some "CURRENT_TIMESTAMP(3) ON UPDATE CURRENT_TIMESTAMP(3)"⟩]
     ["id"] [("uk_sys_permission_code", ["permission_code"])]
     [⟨"fk_sys_permission_parent", ["parent_id"], "sys_permission"⟩],
   .createIndex "sys_permission" "idx_sys_permission_parent_id" ["parent_id"] false,
   .createIndex "sys_permission" "idx_sys_permission_type_status" ["permission_type", "status"] false,
   .createTable "sys_role"
     [⟨"id", false, none⟩, ⟨"role_code", false, none⟩, ⟨"role_name", false, none⟩, ⟨"description", true, none⟩,
      ⟨"status", false, some "1"⟩, ⟨"created_at", false, some "CURRENT_TIMESTAMP(3)"⟩,
      ⟨"updated_at", false, some "CURRENT_TIMESTAMP(3) ON UPDATE CURRENT_TIMESTAMP(3)"⟩]
     ["id"] [("uk_sys_role_code", ["role_code"])]
     [],
   .createIndex "sys_role" "idx_sys_role_status" ["status"] false,
   .createTable "sys_user"
     [⟨"id", false, none⟩, ⟨"username", false, none⟩, ⟨"password_hash", false, none⟩, ⟨"nickname", true, none⟩,
      ⟨"email", true, none⟩, ⟨"phone", true, none⟩, ⟨"status", false, some "1"⟩, ⟨"last_login_at", true, none⟩,
      ⟨"last_login_ip", true, none⟩, ⟨"created_at", false, some "CURRENT_TIMESTAMP(3)"⟩,
      ⟨"updated_at", false, some "CURRENT_TIMESTAMP(3) ON UPDATE CURRENT_TIMESTAMP(3)"⟩,
      ⟨"deleted_at", true, none⟩]
     ["id"] [("uk_sys_user_email", ["email"]), ("uk_sys_user_username", ["username"])]
     [],
   .createIndex "sys_user" "idx_sys_user_deleted_at" ["deleted_at"] false,
   .createIndex "sys_user" "idx_sys_user_status" ["status"] false,
   .createTable "alert_rule"
     [⟨"id", false, none⟩, ⟨"rule_name", false, none⟩, ⟨"metric_type", false, none⟩,
      ⟨"target_type", false, some "SERVER"⟩, ⟨"severity", false, none⟩, ⟨"operator", false, none⟩,
      ⟨"threshold", true, none⟩, ⟨"duration_seconds", false, some "0"⟩, ⟨"recovery_threshold", true, none⟩,
      ⟨"enabled", false, some "1"⟩, ⟨"description", true, none⟩, ⟨"created_by", true, none⟩,
      ⟨"created_at", false, some "CURRENT_TIMESTAMP(3)"⟩,
      ⟨"updated_at", false, some "CURRENT_TIMESTAMP(3) ON UPDATE CURRENT_TIMESTAMP(3)"⟩]
     ["id"] []
     [⟨"fk_alert_rule_created_by", ["created_by"], "sys_user"⟩],
   .createIndex "alert_rule" "fk_alert_rule_created_by" ["created_by"] false,
   .createIndex "alert_rule" "idx_alert_rule_metric_enabled" ["metric_type", "enabled"] false,
   .createIndex "alert_rule" "idx_alert_rule_target_enabled" ["target_type", "enabled"] false,
   .createTable "ops_server"
     [⟨"id", false, none⟩, ⟨"server_code", false, none⟩, ⟨"hostname", false, none⟩, ⟨"ip_address", false, none⟩,
      ⟨"ssh_port", false, some "22"⟩, ⟨"os_name", true, none⟩, ⟨"os_version", true, none⟩,
      ⟨"kernel_version", true, none⟩, ⟨"architecture", true, none⟩, ⟨"cpu_model", true, none⟩,
      ⟨"cpu_cores", true, none⟩, ⟨"memory_total_bytes", true, none⟩, ⟨"disk_total_bytes", true, none⟩,
      ⟨"agent_version", true, none⟩, ⟨"agent_status", false, some "OFFLINE"⟩, ⟨"last_heartbeat_at", true, none⟩,
      ⟨"registered_at", true, none⟩, ⟨"status", false, some "1"⟩, ⟨"remark", true, none⟩,
      ⟨"created_by", true, none⟩, ⟨"created_at", false, some "CURRENT_TIMESTAMP(3)"⟩,
      ⟨"updated_at", false, some "CURRENT_TIMESTAMP(3) ON UPDATE CURRENT_TIMESTAMP(3)"⟩,
      ⟨"deleted_at", true, none⟩]
     ["id"] [("uk_ops_server_ip_port", ["ip_address", "ssh_port"]), ("uk_ops_server_code", ["server_code"])]
     [⟨"fk_ops_server_created_by", ["created_by"], "sys_user"⟩],
   .createIndex "ops_server" "fk_ops_server_created_by" ["created_by"] false,
   .createIndex "ops_server" "idx_ops_server_agent_status" ["agent_status"] false,
   .createIndex "ops_server" "idx_ops_server_hostname" ["hostname"] false,
   .createIndex "ops_server" "idx_ops_server_last_heartbeat" ["last_heartbeat_at"] false,
   .createIndex "ops_server" "idx_ops_server_status" ["status"] false,
   .createTable "ops_task"
     [⟨"id", false, none⟩, ⟨"task_name", false, none⟩, ⟨"task_type", false, none⟩, ⟨"action", true, none⟩,
      ⟨"service_name", true, none⟩, ⟨"schedule_type", false, some "ONCE"⟩, ⟨"cron_expression", true, none⟩,
      ⟨"status", false, some "CREATED"⟩, ⟨"created_by", false, none⟩, ⟨"started_at", true, none⟩,
      ⟨"finished_at", true, none⟩, ⟨"timeout_seconds", false, some "300"⟩,
      ⟨"confirmation_required", false, some "0"⟩, ⟨"confirmed_by", true, none⟩, ⟨"confirmed_at", true, none⟩,
      ⟨"created_at", false, some "CURRENT_TIMESTAMP(3)"⟩,
      ⟨"updated_at", false, some "CURRENT_TIMESTAMP(3) ON UPDATE CURRENT_TIMESTAMP(3)"⟩]
     ["id"] []
     [⟨"fk_ops_task_confirmed_by", ["confirmed_by"], "sys_user"⟩,
      ⟨"fk_ops_task_created_by", ["created_by"], "sys_user"⟩],
   .createIndex "ops_task" "fk_ops_task_confirmed_by" ["confirmed_by"] false,
   .createIndex "ops_task" "idx_ops_task_creator_time" ["created_by", "created_at"] false,
   .createIndex "ops_task" "idx_ops_task_schedule" ["schedule_type", "status"] false,
   .createIndex "ops_task" "idx_ops_task_status" ["status"] false,
   .createTable "sys_login_log"
     [⟨"id", false, none⟩, ⟨"user_id", true, none⟩, ⟨"username", false, none⟩, ⟨"login_ip", true, none⟩,
      ⟨"user_agent", true, none⟩, ⟨"login_status", false, none⟩, ⟨"failure_reason", true, none⟩,
      ⟨"request_id", true, none⟩, ⟨"created_at", false, some "CURRENT_TIMESTAMP(3)"⟩]
     ["id"] []
     [⟨"fk_sys_login_log_user", ["user_id"], "sys_user"⟩],
   .createIndex "sys_login_log" "idx_sys_login_log_status_time" ["login_status", "created_at"] false,
   .createIndex "sys_login_log" "idx_sys_login_log_user_time" ["user_id", "created_at"] false,
   .createIndex "sys_login_log" "idx_sys_login_log_username_time" ["username", "created_at"] false,
   .createTable "sys_role_permission"
     [⟨"role_id", false, none⟩, ⟨"permission_id", false, none⟩,
      ⟨"created_at", false, some "CURRENT_TIMESTAMP(3)"⟩]
     ["role_id", "permission_id"] []
     [⟨"fk_sys_role_permission_permission", ["permission_id"], "sys_permission"⟩,
      ⟨"fk_sys_role_permission_role", ["role_id"], "sys_role"⟩],
   .createIndex "sys_role_permission" "idx_sys_role_permission_permission_id" ["permission_id"] false,
   .createTable "sys_user_role"
     [⟨"user_id", false, none⟩, ⟨"role_id", false, none⟩, ⟨"created_at", false, some "CURRENT_TIMESTAMP(3)"⟩]
     ["user_id", "role_id"] []
     [⟨"fk_sys_user_role_role", ["role_id"], "sys_role"⟩, ⟨"fk_sys_user_role_user", ["user_id"], "sys_user"⟩],
   .createIndex "sys_user_role" "idx_sys_user_role_role_id" ["role_id"] false,
   .createTable "alert_event"
     [⟨"id", false, none⟩, ⟨"rule_id", false, none⟩, ⟨"server_id", true, none⟩,
      ⟨"resource_type", false, some "SERVER"⟩, ⟨"resource_id", true, none⟩, ⟨"alert_key", false, none⟩,
      ⟨"metric_type", false, none⟩, ⟨"severity", false, none⟩, ⟨"status", false, some "PENDING"⟩,
      ⟨"is_active", true, none⟩, ⟨"first_fired_at", true, none⟩, ⟨"last_fired_at", true, none⟩,
      ⟨"acknowledged_by", true, none⟩, ⟨"acknowledged_at", true, none⟩, ⟨"resolved_at", true, none⟩,
      ⟨"current_value", true, none⟩, ⟨"threshold_value", true, none⟩, ⟨"message", false, none⟩,
      ⟨"created_at", false, some "CURRENT_TIMESTAMP(3)"⟩,
      ⟨"updated_at", false, some "CURRENT_TIMESTAMP(3) ON UPDATE CURRENT_TIMESTAMP(3)"⟩]
     ["id"] [("uk_alert_event_active_key", ["alert_key", "is_active"])]
     [⟨"fk_alert_event_acknowledged_by", ["acknowledged_by"], "sys_user"⟩,
      ⟨"fk_alert_event_rule", ["rule_id"], "alert_rule"⟩, ⟨"fk_alert_event_server", ["server_id"], "ops_server"⟩],
   .createIndex "alert_event" "fk_alert_event_acknowledged_by" ["acknowledged_by"] false,
   .createIndex "alert_event" "idx_alert_event_rule_id" ["rule_id"] false,
   .createIndex "alert_event" "idx_alert_event_server_status" ["server_id", "status"] false,
   .createIndex "alert_event" "idx_alert_event_status_time" ["status", "created_at"] false,
   .createTable "monitor_process_snapshot"
     [⟨"id", false, none⟩, ⟨"server_id", false, none⟩, ⟨"process_pid", false, none⟩, ⟨"process_name", true, none⟩,
      ⟨"username", true, none⟩, ⟨"cpu_percent", true, none⟩, ⟨"memory_percent", true, none⟩,
      ⟨"memory_bytes", true, none⟩, ⟨"process_status", true, none⟩, ⟨"command_line", true, none⟩,
      ⟨"collected_at", false, none⟩, ⟨"created_at", false, some "CURRENT_TIMESTAMP(3)"⟩]
     ["id"] []
     [⟨"fk_monitor_process_snapshot_server", ["server_id"], "ops_server"⟩],
   .createIndex "monitor_process_snapshot" "idx_monitor_process_snapshot_server_pid_time"
     ["server_id", "process_pid", "collected_at"] false,
   .createIndex "monitor_process_snapshot" "idx_monitor_process_snapshot_server_time"
     ["server_id", "collected_at"] false,
   .createTable "monitor_server_metric"
     [⟨"id", false, none⟩, ⟨"server_id", false, none⟩, ⟨"collected_at", false, none⟩, ⟨"cpu_usage", true, none⟩,
      ⟨"memory_usage", true, none⟩, ⟨"memory_used_bytes", true, none⟩, ⟨"disk_usage", true, none⟩,
      ⟨"network_in_bytes", true, none⟩, ⟨"network_out_bytes", true, none⟩, ⟨"load_1m", true, none⟩,
      ⟨"load_5m", true, none⟩, ⟨"load_15m", true, none⟩, ⟨"tcp_connections", true, none⟩,
      ⟨"uptime_seconds", true, none⟩, ⟨"created_at", false, some "CURRENT_TIMESTAMP(3)"⟩]
     ["id"] []
     [⟨"fk_monitor_server_metric_server", ["server_id"], "ops_server"⟩],
   .createIndex "monitor_server_metric" "idx_monitor_server_metric_collected_at" ["collected_at"] false,
   .createIndex "monitor_server_metric" "idx_monitor_server_metric_server_time" ["server_id", "collected_at"] false,
   .createTable "ops_agent_heartbeat"
     [⟨"id", false, none⟩, ⟨"server_id", false, none⟩, ⟨"agent_version", true, none⟩, ⟨"ip_address", true, none⟩,
      ⟨"collected_at", false, none⟩, ⟨"received_at", false, some "CURRENT_TIMESTAMP(3)"⟩,
      ⟨"created_at", false, some "CURRENT_TIMESTAMP(3)"⟩]
     ["id"] []
     [⟨"fk_ops_agent_heartbeat_server", ["server_id"], "ops_server"⟩],
   .createIndex "ops_agent_heartbeat" "idx_ops_agent_heartbeat_received_at" ["received_at"] false,
   .createIndex "ops_agent_heartbeat" "idx_ops_agent_heartbeat_server_time" ["server_id", "collected_at"] false,
   .createTable "ops_agent_token"
     [⟨"id", false, none⟩, ⟨"server_id", false, none⟩, ⟨"token_name", false, none⟩, ⟨"token_prefix", false, none⟩,
      ⟨"token_hash", false, none⟩, ⟨"status", false, some "1"⟩, ⟨"expires_at", true, none⟩,
      ⟨"last_used_at", true, none⟩, ⟨"created_at", false, some "CURRENT_TIMESTAMP(3)"⟩,
      ⟨"revoked_at", true, none⟩]
     ["id"] [("uk_ops_agent_token_hash", ["token_hash"])]
     [⟨"fk_ops_agent_token_server", ["server_id"], "ops_server"⟩],
   .createIndex "ops_agent_token" "idx_ops_agent_token_server_status" ["server_id", "status"] false,
   .createTable "ops_server_container"
     [⟨"id", false, none⟩, ⟨"server_id", false, none⟩, ⟨"container_id", false, none⟩,
      ⟨"container_name", false, none⟩, ⟨"image_name", true, none⟩, ⟨"container_status", true, none⟩,
      ⟨"restart_count", true, none⟩, ⟨"container_created_at", true, none⟩, ⟨"is_critical", false, some "0"⟩,
      ⟨"last_seen_at", true, none⟩, ⟨"status", false, some "1"⟩,
      ⟨"created_at", false, some "CURRENT_TIMESTAMP(3)"⟩,
      ⟨"updated_at", false, some "CURRENT_TIMESTAMP(3) ON UPDATE CURRENT_TIMESTAMP(3)"⟩]
     ["id"] [("uk_ops_server_container", ["server_id", "container_id"])]
     [⟨"fk_ops_server_container_server", ["server_id"], "ops_server"⟩],
   .createIndex "ops_server_container" "idx_ops_server_container_critical"
     ["is_critical", "container_status"] false,
   .createIndex "ops_server_container" "idx_ops_server_container_status" ["server_id", "container_status"] false,
   .createTable "ops_server_disk"
     [⟨"id", false, none⟩, ⟨"server_id", false, none⟩, ⟨"device_name", false, none⟩, ⟨"mount_point", true, none⟩,
      ⟨"filesystem", true, none⟩, ⟨"total_bytes", true, none⟩, ⟨"status", false, some "1"⟩,
      ⟨"created_at", false, some "CURRENT_TIMESTAMP(3)"⟩,
      ⟨"updated_at", false, some "CURRENT_TIMESTAMP(3) ON UPDATE CURRENT_TIMESTAMP(3)"⟩]
     ["id"] [("uk_ops_server_disk", ["server_id", "device_name", "mount_point"])]
     [⟨"fk_ops_server_disk_server", ["server_id"], "ops_server"⟩],
   .createIndex "ops_server_disk" "idx_ops_server_disk_server_id" ["server_id"] false,
   .createTable "ops_server_network"
     [⟨"id", false, none⟩, ⟨"server_id", false, none⟩, ⟨"interface_name", false, none⟩,
      ⟨"mac_address", true, none⟩, ⟨"ip_address", true, none⟩, ⟨"status", false, some "1"⟩,
      ⟨"created_at", false, some "CURRENT_TIMESTAMP(3)"⟩,
      ⟨"updated_at", false, some "CURRENT_TIMESTAMP(3) ON UPDATE CURRENT_TIMESTAMP(3)"⟩]
     ["id"] [("uk_ops_server_network_interface", ["server_id", "interface_name"])]
     [⟨"fk_ops_server_network_server", ["server_id"], "ops_server"⟩],
   .createIndex "ops_server_network" "idx_ops_server_network_server_id" ["server_id"] false,
   .createTable "ops_server_service"
     [⟨"id", false, none⟩, ⟨"server_id", false, none⟩, ⟨"service_name", false, none⟩,
      ⟨"display_name", true, none⟩, ⟨"service_type", false, some "SYSTEMD"⟩, ⟨"is_whitelisted", false, some "1"⟩,
      ⟨"is_critical", false, some "0"⟩, ⟨"current_status", true, none⟩, ⟨"last_checked_at", true, none⟩,
      ⟨"status", false, some "1"⟩, ⟨"created_at", false, some "CURRENT_TIMESTAMP(3)"⟩,
      ⟨"updated_at", false, some "CURRENT_TIMESTAMP(3) ON UPDATE CURRENT_TIMESTAMP(3)"⟩]
     ["id"] [("uk_ops_server_service", ["server_id", "service_name"])]
     [⟨"fk_ops_server_service_server", ["server_id"], "ops_server"⟩],
   .createIndex "ops_server_service" "idx_ops_server_service_critical" ["is_critical", "current_status"] false,
   .createIndex "ops_server_service" "idx_ops_server_service_status" ["server_id", "current_status"] false,
   .createTable "ops_task_target"
     [⟨"id", false, none⟩, ⟨"task_id", false, none⟩, ⟨"server_id", false, none⟩,
      ⟨"target_status", false, some "PENDING"⟩, ⟨"created_at", false, some "CURRENT_TIMESTAMP(3)"⟩]
     ["id"] [("uk_ops_task_target", ["task_id", "server_id"])]
     [⟨"fk_ops_task_target_server", ["server_id"], "ops_server"⟩,
      ⟨"fk_ops_task_target_task", ["task_id"], "ops_task"⟩],
   .createIndex "ops_task_target" "idx_ops_task_target_server_id" ["server_id"] false,
   .createIndex "ops_task_target" "idx_ops_task_target_status" ["target_status"] false,
   .createTable "sys_operation_log"
     [⟨"id", false, none⟩, ⟨"user_id", true, none⟩, ⟨"username", true, none⟩, ⟨"module", false, none⟩,
      ⟨"operation", false, none⟩, ⟨"http_method", true, none⟩, ⟨"request_path", true, none⟩,
      ⟨"target_type", true, none⟩, ⟨"target_id", true, none⟩, ⟨"server_id", true, none⟩,
      ⟨"request_ip", true, none⟩, ⟨"request_id", true, none⟩, ⟨"request_params", true, none⟩,
      ⟨"result_status", false, none⟩, ⟨"error_message", true, none⟩, ⟨"duration_ms", true, none⟩,
      ⟨"created_at", false, some "CURRENT_TIMESTAMP(3)"⟩]
     ["id"] []
     [⟨"fk_sys_operation_log_server", ["server_id"], "ops_server"⟩,
      ⟨"fk_sys_operation_log_user", ["user_id"], "sys_user"⟩],
   .createIndex "sys_operation_log" "idx_sys_operation_log_created_at" ["created_at"] false,
   .createIndex "sys_operation_log" "idx_sys_operation_log_module_time" ["module", "created_at"] false,
   .createIndex "sys_operation_log" "idx_sys_operation_log_server_time" ["server_id", "created_at"] false,
   .createIndex "sys_operation_log" "idx_sys_operation_log_status_time" ["result_status", "created_at"] false,
   .createIndex "sys_operation_log" "idx_sys_operation_log_user_time" ["user_id", "created_at"] false,
   .createTable "alert_event_log"
     [⟨"id", false, none⟩, ⟨"event_id", false, none⟩, ⟨"old_status", true, none⟩, ⟨"new_status", false, none⟩,
      ⟨"current_value", true, none⟩, ⟨"message", true, none⟩, ⟨"operator_id", true, none⟩,
      ⟨"created_at", false, some "CURRENT_TIMESTAMP(3)"⟩]
     ["id"] []
     [⟨"fk_alert_event_log_event", ["event_id"], "alert_event"⟩,
      ⟨"fk_alert_event_log_operator", ["operator_id"], "sys_user"⟩],
   .createIndex "alert_event_log" "fk_alert_event_log_operator" ["operator_id"] false,
   .createIndex "alert_event_log" "idx_alert_event_log_event_time" ["event_id", "created_at"] false,
   .createTable "monitor_container_metric"
     [⟨"id", false, none⟩, ⟨"container_asset_id", false, none⟩, ⟨"server_id", false, none⟩,
      ⟨"container_id", false, none⟩, ⟨"container_status", true, none⟩, ⟨"cpu_usage", true, none⟩,
      ⟨"memory_usage", true, none⟩, ⟨"memory_used_bytes", true, none⟩, ⟨"network_in_bytes", true, none⟩,
      ⟨"network_out_bytes", true, none⟩, ⟨"restart_count", true, none⟩, ⟨"collected_at", false, none⟩,
      ⟨"created_at", false, some "CURRENT_TIMESTAMP(3)"⟩]
     ["id"] []
     [⟨"fk_monitor_container_metric_asset", ["container_asset_id"], "ops_server_container"⟩,
      ⟨"fk_monitor_container_metric_server", ["server_id"], "ops_server"⟩],
   .createIndex "monitor_container_metric" "idx_monitor_container_metric_asset_time"
     ["container_asset_id", "collected_at"] false,
   .createIndex "monitor_container_metric" "idx_monitor_container_metric_server_time"
     ["server_id", "collected_at"] false,
   .createTable "monitor_disk_metric"
     [⟨"id", false, none⟩, ⟨"disk_id", false, none⟩, ⟨"server_id", false, none⟩, ⟨"collected_at", false, none⟩,
      ⟨"used_bytes", true, none⟩, ⟨"total_bytes", true, none⟩, ⟨"usage_percent", true, none⟩,
      ⟨"read_bytes", true, none⟩, ⟨"write_bytes", true, none⟩, ⟨"created_at", false, some "CURRENT_TIMESTAMP(3)"⟩]
     ["id"] []
     [⟨"fk_monitor_disk_metric_disk", ["disk_id"], "ops_server_disk"⟩,
      ⟨"fk_monitor_disk_metric_server", ["server_id"], "ops_server"⟩],
   .createIndex "monitor_disk_metric" "idx_monitor_disk_metric_disk_time" ["disk_id", "collected_at"] false,
   .createIndex "monitor_disk_metric" "idx_monitor_disk_metric_server_time" ["server_id", "collected_at"] false,
   .createTable "monitor_network_metric"
     [⟨"id", false, none⟩, ⟨"network_id", false, none⟩, ⟨"server_id", false, none⟩, ⟨"collected_at", false, none⟩,
      ⟨"bytes_received", true, none⟩, ⟨"bytes_sent", true, none⟩, ⟨"packets_received", true, none⟩,
      ⟨"packets_sent", true, none⟩, ⟨"errors_received", true, none⟩, ⟨"errors_sent", true, none⟩,
      ⟨"created_at", false, some "CURRENT_TIMESTAMP(3)"⟩]
     ["id"] []
     [⟨"fk_monitor_network_metric_network", ["network_id"], "ops_server_network"⟩,
      ⟨"fk_monitor_network_metric_server", ["server_id"], "ops_server"⟩],
   .createIndex "monitor_network_metric" "idx_monitor_network_metric_network_time"
     ["network_id", "collected_at"] false,
   .createIndex "monitor_network_metric" "idx_monitor_network_metric_server_time"
     ["server_id", "collected_at"] false,
   .createTable "ops_task_execution"
     [⟨"id", false, none⟩, ⟨"task_id", false, none⟩, ⟨"target_id", false, none⟩, ⟨"server_id", false, none⟩,
      ⟨"status", false, some "PENDING"⟩, ⟨"exit_code", true, none⟩, ⟨"result_text", true, none⟩,
      ⟨"error_message", true, none⟩, ⟨"started_at", true, none⟩, ⟨"finished_at", true, none⟩,
      ⟨"duration_ms", true, none⟩, ⟨"created_at", false, some "CURRENT_TIMESTAMP(3)"⟩,
      ⟨"updated_at", false, some "CURRENT_TIMESTAMP(3) ON UPDATE CURRENT_TIMESTAMP(3)"⟩]
     ["id"] [("uk_ops_task_execution_target", ["task_id", "target_id"])]
     [⟨"fk_ops_task_execution_server", ["server_id"], "ops_server"⟩,
      ⟨"fk_ops_task_execution_target", ["target_id"], "ops_task_target"⟩,
      ⟨"fk_ops_task_execution_task", ["task_id"], "ops_task"⟩],
   .createIndex "ops_task_execution" "fk_ops_task_execution_target" ["target_id"] false,
   .createIndex "ops_task_execution" "idx_ops_task_execution_server_time" ["server_id", "created_at"] false,
   .createIndex "ops_task_execution" "idx_ops_task_execution_task_status" ["task_id", "status"] false,
   .createTable "ops_task_log"
     [⟨"id", false, none⟩, ⟨"execution_id", false, none⟩, ⟨"log_level", false, some "INFO"⟩,
      ⟨"log_content", false, none⟩, ⟨"created_at", false, some "CURRENT_TIMESTAMP(3)"⟩]
     ["id"] []
     [⟨"fk_ops_task_log_execution", ["execution_id"], "ops_task_execution"⟩],
   .createIndex "ops_task_log" "idx_ops_task_log_execution_time" ["execution_id", "created_at"] false]

def baselineDowngrade : List Operation :=
  [.dropIndex "ops_task_log" "idx_ops_task_log_execution_time",
   .dropTable "ops_task_log",
   .dropIndex "ops_task_execution" "idx_ops_task_execution_task_status",
   .dropIndex "ops_task_execution" "idx_ops_task_execution_server_time",
   .dropIndex "ops_task_execution" "fk_ops_task_execution_target",
   .dropTable "ops_task_execution",
   .dropIndex "monitor_network_metric" "idx_monitor_network_metric_server_time",
   .dropIndex "monitor_network_metric" "idx_monitor_network_metric_network_time",
   .dropTable "monitor_network_metric",
   .dropIndex "monitor_disk_metric" "idx_monitor_disk_metric_server_time",
   .dropIndex "monitor_disk_metric" "idx_monitor_disk_metric_disk_time",
   .dropTable "monitor_disk_metric",
   .dropIndex "monitor_container_metric" "idx_monitor_container_metric_server_time",
   .dropIndex "monitor_container_metric" "idx_monitor_container_metric_asset_time",
   .dropTable "monitor_container_metric",
   .dropIndex "alert_event_log" "idx_alert_event_log_event_time",
   .dropIndex "alert_event_log" "fk_alert_event_log_operator",
   .dropTable "alert_event_log",
   .dropIndex "sys_operation_log" "idx_sys_operation_log_user_time",
   .dropIndex "sys_operation_log" "idx_sys_operation_log_status_time",
   .dropIndex "sys_operation_log" "idx_sys_operation_log_server_time",
   .dropIndex "sys_operation_log" "idx_sys_operation_log_module_time",
   .dropIndex "sys_operation_log" "idx_sys_operation_log_created_at",
   .dropTable "sys_operation_log",
   .dropIndex "ops_task_target" "idx_ops_task_target_status",
   .dropIndex "ops_task_target" "idx_ops_task_target_server_id",
   .dropTable "ops_task_target",
   .dropIndex "ops_server_service" "idx_ops_server_service_status",
   .dropIndex "ops_server_service" "idx_ops_server_service_critical",
   .dropTable "ops_server_service",
   .dropIndex "ops_server_network" "idx_ops_server_network_server_id",
   .dropTable "ops_server_network",
   .dropIndex "ops_server_disk" "idx_ops_server_disk_server_id",
   .dropTable "ops_server_disk",
   .dropIndex "ops_server_container" "idx_ops_server_container_status",
   .dropIndex "ops_server_container" "idx_ops_server_container_critical",
   .dropTable "ops_server_container",
   .dropIndex "ops_agent_token" "idx_ops_agent_token_server_status",
   .dropTable "ops_agent_token",
   .dropIndex "ops_agent_heartbeat" "idx_ops_agent_heartbeat_server_time",
   .dropIndex "ops_agent_heartbeat" "idx_ops_agent_heartbeat_received_at",
   .dropTable "ops_agent_heartbeat",
   .dropIndex "monitor_server_metric" "idx_monitor_server_metric_server_time",
   .dropIndex "monitor_server_metric" "idx_monitor_server_metric_collected_at",
   .dropTable "monitor_server_metric",
   .dropIndex "monitor_process_snapshot" "idx_monitor_process_snapshot_server_time",
   .dropIndex "monitor_process_snapshot" "idx_monitor_process_snapshot_server_pid_time",
   .dropTable "monitor_process_snapshot",
   .dropIndex "alert_event" "idx_alert_event_status_time",
   .dropIndex "alert_event" "idx_alert_event_server_status",
   .dropIndex "alert_event" "idx_alert_event_rule_id",
   .dropIndex "alert_event" "fk_alert_event_acknowledged_by",
   .dropTable "alert_event",
   .dropIndex "sys_user_role" "idx_sys_user_role_role_id",
   .dropTable "sys_user_role",
   .dropIndex "sys_role_permission" "idx_sys_role_permission_permission_id",
   .dropTable "sys_role_permission",
   .dropIndex "sys_login_log" "idx_sys_login_log_username_time",
   .dropIndex "sys_login_log" "idx_sys_login_log_user_time",
   .dropIndex "sys_login_log" "idx_sys_login_log_status_time",
   .dropTable "sys_login_log",
   .dropIndex "ops_task" "idx_ops_task_status",
   .dropIndex "ops_task" "idx_ops_task_schedule",
   .dropIndex "ops_task" "idx_ops_task_creator_time",
   .dropIndex "ops_task" "fk_ops_task_confirmed_by",
   .dropTable "ops_task",
   .dropIndex "ops_server" "idx_ops_server_status",
   .dropIndex "ops_server" "idx_ops_server_last_heartbeat",
   .dropIndex "ops_server" "idx_ops_server_hostname",
   .dropIndex "ops_server" "idx_ops_server_agent_status",
   .dropIndex "ops_server" "fk_ops_server_created_by",
   .dropTable "ops_server",
   .dropIndex "alert_rule" "idx_alert_rule_target_enabled",
   .dropIndex "alert_rule" "idx_alert_rule_metric_enabled",
   .dropIndex "alert_rule" "fk_alert_rule_created_by",
   .dropTable "alert_rule",
   .dropIndex "sys_user" "idx_sys_user_status",
   .dropIndex "sys_user" "idx_sys_user_deleted_at",
   .dropTable "sys_user",
   .dropIndex "sys_role" "idx_sys_role_status",
   .dropTable "sys_role",
   .dropIndex "sys_permission" "idx_sys_permission_type_status",
   .dropIndex "sys_permission" "idx_sys_permission_parent_id",
   .dropTable "sys_permission"]

def retryUpgrade : List Operation :=
  [.addColumn "ops_task" ⟨"max_attempts", false, some "3"⟩ (by decide),
   .addColumn "ops_task" ⟨"attempt", false, some "0"⟩ (by decide),
   .addColumn "ops_task" ⟨"deadline_at", true, none⟩ (by decide),
   .addColumn "ops_task" ⟨"idempotency_key", true, none⟩ (by decide),
   .createIndex "ops_task" "uk_ops_task_idempotency" ["idempotency_key"] true,
   .addColumn "ops_task_execution" ⟨"attempt", false, some "1"⟩ (by decide),
   .addColumn "ops_task_execution" ⟨"next_retry_at", true, none⟩ (by decide),
   .addColumn "ops_task_execution" ⟨"error_type", true, none⟩ (by decide),
   .alterColumn "ops_task_execution" "status",
   .dropIndex "ops_task_execution" "uk_ops_task_execution_target",
   .createIndex "ops_task_execution" "uk_ops_task_execution_target" ["task_id", "target_id", "attempt"] true,
   .createIndex "ops_task_execution" "idx_ops_task_execution_retry" ["status", "next_retry_at"] false]

def retryDowngrade : List Operation :=
  [.dropIndex "ops_task_execution" "idx_ops_task_execution_retry",
   .dropIndex "ops_task_execution" "uk_ops_task_execution_target",
   .createIndex "ops_task_execution" "uk_ops_task_execution_target" ["task_id", "target_id"] true,
   .alterColumn "ops_task_execution" "status",
   .dropColumn "ops_task_execution" "error_type",
   .dropColumn "ops_task_execution" "next_retry_at",
   .dropColumn "ops_task_execution" "attempt",
   .dropIndex "ops_task" "uk_ops_task_idempotency",
   .dropColumn "ops_task" "idempotency_key",
   .dropColumn "ops_task" "deadline_at",
   .dropColumn "ops_task" "attempt",
   .dropColumn "ops_task" "max_attempts"]

def signingUpgrade : List Operation :=
  [.addColumn "ops_agent_token" ⟨"signing_public_key", true, none⟩ (by decide),
   .addColumn "ops_agent_token" ⟨"signing_algorithm", true, some "ed25519"⟩ (by decide),
   .addColumn "ops_agent_token" ⟨"key_registered_at", true, none⟩ (by decide)]

def signingDowngrade : List Operation :=
  [.dropColumn "ops_agent_token" "key_registered_at",
   .dropColumn "ops_agent_token" "signing_algorithm",
   .dropColumn "ops_agent_token" "signing_public_key"]

def archiveUpgrade : List Operation :=
  [.createTable "monitor_server_metric_daily"
     [⟨"id", false, none⟩, ⟨"server_id", false, none⟩, ⟨"metric_date", false, none⟩,
      ⟨"cpu_usage_avg", true, none⟩, ⟨"cpu_usage_max", true, none⟩, ⟨"memory_usage_avg", true, none⟩,
      ⟨"memory_usage_max", true, none⟩, ⟨"disk_usage_avg", true, none⟩, ⟨"disk_usage_max", true, none⟩,
      ⟨"load_1m_avg", true, none⟩, ⟨"load_1m_max", true, none⟩, ⟨"tcp_connections_avg", true, none⟩,
      ⟨"tcp_connections_max", true, none⟩, ⟨"sample_count", false, none⟩,
      ⟨"created_at", false, some "CURRENT_TIMESTAMP(3)"⟩,
      ⟨"updated_at", false, some "CURRENT_TIMESTAMP(3) ON UPDATE CURRENT_TIMESTAMP(3)"⟩]
     ["id"] [("uk_metric_daily_server_date", ["server_id", "metric_date"])]
     [⟨"fk_metric_daily_server", ["server_id"], "ops_server"⟩],
   .createIndex "monitor_server_metric_daily" "idx_metric_daily_date" ["metric_date"] false]

def archiveDowngrade : List Operation :=
  [.dropIndex "monitor_server_metric_daily" "idx_metric_daily_date",
   .dropTable "monitor_server_metric_daily"]

end Migrations

structure Migration where
  revision : String
  downRevision : Option String
  upgrade : List Operation
  downgrade : List Operation

namespace Migrations

/-- `096f952de48e_initial_baseline.py`. -/
def baseline : Migration := ⟨"096f952de48e", none, baselineUpgrade, baselineDowngrade⟩

/-- `b1805a5af57f_task_retry_and_idempotency.py`. -/
def retry : Migration := ⟨"b1805a5af57f", some "096f952de48e", retryUpgrade, retryDowngrade⟩

/-- `7aa13a973276_agent_request_signing.py`. -/
def signing : Migration := ⟨"7aa13a973276", some "b1805a5af57f", signingUpgrade, signingDowngrade⟩

/-- `4f50bb136572_metric_daily_archive.py`. -/
def archive : Migration := ⟨"4f50bb136572", some "7aa13a973276", archiveUpgrade, archiveDowngrade⟩

end Migrations

/-- The migrations, each after the one that it revises. -/
def migrations : List Migration := [Migrations.baseline, Migrations.retry, Migrations.signing, Migrations.archive]

/-! ## Running them -/

/-- The tables, and the revision in the table `alembic_version`. -/
structure Versioned where
  db : Database
  version : Option String

inductive AlembicError
  | statement (e : Ddl.Error)
  | unknownRevision
  deriving DecidableEq

/-- The revision is written when all statements of a migration have gone through. -/
def upgradeAll : List Migration → Versioned → Except AlembicError Unit × Versioned
  | [], v => (.ok (), v)
  | m :: ms, v =>
    match v.db.script m.upgrade with
    | (.ok _, db) => upgradeAll ms ⟨db, some m.revision⟩
    | (.error e, db) => (.error (.statement e), { v with db := db })

/-- The migrations after a revision. -/
def pending : Option String → Option (List Migration)
  | none => some migrations
  | some revision =>
    if revision ∈ migrations.map (·.revision) then
      some (migrations.dropWhile (·.revision ≠ revision)).tail
    else none

/-- `alembic upgrade head`. -/
def upgradeHead (v : Versioned) : Except AlembicError Unit × Versioned :=
  match pending v.version with
  | none => (.error .unknownRevision, v)
  | some ms => upgradeAll ms v

/-- `alembic downgrade -1`. -/
def downgradeOne (v : Versioned) : Except AlembicError Unit × Versioned :=
  match migrations.find? (some ·.revision = v.version) with
  | none => (.error .unknownRevision, v)
  | some m =>
    match v.db.script m.downgrade with
    | (.ok _, db) => (.ok (), ⟨db, m.downRevision⟩)
    | (.error e, db) => (.error (.statement e), { v with db := db })

/-- The catalogue that some migrations make of an empty database. -/
def catalogAfter (done : List Migration) : Catalog := (done.foldlM (fun (c : Catalog) m => c.dryRun m.upgrade) []).getD []

end OpsMonitor.Deploy
