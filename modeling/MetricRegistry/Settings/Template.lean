import MetricRegistry.Core.Instances

/-!
The settings file the program writes on request: every setting with its default value and a
comment saying what it means, in the order the settings are read.
-/

namespace MetricRegistry.Settings

/-- The text of a settings file with every default spelled out. -/
def defaultText : String :=
  "# gidstore Configuration\n" ++
  "#\n" ++
  "# Environment variables override these settings:\n" ++
  "# - GIDSTORE_DATA_DIR\n" ++
  "# - GIDSTORE_LOG_ACCESS\n" ++
  "# - GIDSTORE_API_HOST\n" ++
  "# - GIDSTORE_API_PORT\n" ++
  "# - GIDSTORE_LOG_LEVEL\n" ++
  "# - GIDSTORE_LOG_FORMAT\n" ++
  "\n" ++
  "[store]\n" ++
  "# Directory holding the identity log\n" ++
  "data_dir = \"~/.local/share/gidstore\"\n" ++
  "\n" ++
  "# Log access: mapped (memory-mapped files) or file (positioned I/O)\n" ++
  "log_access = \"mapped\"\n" ++
  "\n" ++
  "# Sync mode: every_write, batched or none\n" ++
  "sync_mode = \"batched\"\n" ++
  "\n" ++
  "# Pending bytes before a batched sync\n" ++
  "sync_threshold = 65536\n" ++
  "\n" ++
  "[caches.name]\n" ++
  "# Entries before the first growth\n" ++
  "initial_capacity = 1024\n" ++
  "\n" ++
  "# Fraction of slots that may be occupied (0, 1)\n" ++
  "load_factor = 0.5\n" ++
  "\n" ++
  "[caches.opaque]\n" ++
  "initial_capacity = 1024\n" ++
  "load_factor = 0.5\n" ++
  "\n" ++
  "[caches.location]\n" ++
  "initial_capacity = 1024\n" ++
  "load_factor = 0.5\n" ++
  "\n" ++
  "[defrag]\n" ++
  "# Defragment once this fraction of log records are tombstones...\n" ++
  "tombstone_ratio = 0.3\n" ++
  "\n" ++
  "# ...and at least this many tombstones exist\n" ++
  "min_tombstones = 1000\n" ++
  "\n" ++
  "# How often the server checks (seconds, 0 disables)\n" ++
  "interval_secs = 300\n" ++
  "\n" ++
  "[api]\n" ++
  "# API server host\n" ++
  "host = \"0.0.0.0\"\n" ++
  "\n" ++
  "# API server port\n" ++
  "port = 8090\n" ++
  "\n" ++
  "# Allowed CORS origins (empty allows any)\n" ++
  "cors_origins = []\n" ++
  "\n" ++
  "[logging]\n" ++
  "# Log level: trace, debug, info, warn, error\n" ++
  "level = \"info\"\n" ++
  "\n" ++
  "# Log format: pretty (for development) or json (for production)\n" ++
  "format = \"pretty\"\n"

end MetricRegistry.Settings
