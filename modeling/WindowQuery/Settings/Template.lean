import WindowQuery.Settings.Basic

/-!
# A settings file to start from

The text that is written for someone who has no settings yet: every
setting with its default, and those without one as comments.
-/

namespace WindowQuery

namespace Settings

/-- The lines of the file. -/
def templateLines : List String :=
  [ "# sqlframe Configuration",
    "#",
    "# Environment variables override these settings:",
    "# - SQLFRAME_FRAME_NAME",
    "# - SQLFRAME_QUERY_TIMEOUT_SECS",
    "# - SQLFRAME_DEFAULT_FORMAT",
    "# - SQLFRAME_SQLITE_PATH",
    "# - SQLFRAME_LOG_LEVEL",
    "# - SQLFRAME_LOG_FORMAT",
    "",
    "[query]",
    "# Name of every result frame",
    "frame_name = \"response\"",
    "",
    "# Deadline for a single database call (seconds)",
    "timeout_secs = 30",
    "",
    "# Format used when a query declares none: \"table\" or \"time series\"",
    "default_format = \"time series\"",
    "",
    "[sqlite]",
    "# Database file used by `sqlframe run`; in-memory when unset",
    "# path = \"/var/lib/sqlframe/metrics.db\"",
    "",
    "[logging]",
    "# Log level: trace, debug, info, warn, error",
    "level = \"info\"",
    "",
    "# Log format: pretty (for development) or json (for production)",
    "format = \"pretty\"",
    "",
    "# Optional log file path",
    "# file = \"/var/log/sqlframe/sqlframe.log\"" ]

/-- **A settings file to start from.** -/
def template : String := String.join (templateLines.map (· ++ "\n"))

end Settings

end WindowQuery
