/-!
# How the program is used
-/

namespace ComponentSurvey.CommandLine

def versionLines : List String := ["archbase 0.3.0"]

def usageLines : List String := [
  "Component analysis and V1 to V2 migration for Archbase React projects",
  "",
  "Usage: archbase [OPTIONS] <COMMAND>",
  "",
  "Commands:",
  "  scan [PATH]              Scan component usages and report issues",
  "      -i, --include <PATTERN>    Include patterns, replacing the configured ones",
  "      -e, --exclude <PATTERN>    Exclude patterns, replacing the configured ones",
  "          --shallow              Do not descend into subdirectories",
  "      -f, --format <FORMAT>      Output format: text, json or compact",
  "          --report <FILE>        Write a JSON report to this file",
  "  analyze [PATH]           Extract reusable patterns and recommendations",
  "      -f, --format <FORMAT>      Output format: text, json or compact",
  "      -o, --output <FILE>        Write the analysis as JSON to this file",
  "  migrate analyze [PATH]   Report migration candidates without changing files",
  "          --component <NAME>     Only consider this component",
  "          --report <FILE>        Write a JSON report to this file",
  "  migrate v1-to-v2 [PATH]  Run every enabled rule over the project",
  "          --component <NAME>     Only run rules targeting this component",
  "          --dry-run              Report changes without writing files",
  "          --no-backup            Do not write .backup files",
  "      -i, --include <PATTERN>    Include patterns, replacing the configured ones",
  "      -e, --exclude <PATTERN>    Exclude patterns, replacing the configured ones",
  "  migrate batch [PATH]     Migrate the files named by a migration analysis",
  "          --rules <IDS>          Only run these rules (comma-separated ids)",
  "          --exclude-complex      Skip usages rated complex",
  "          --dry-run              Report changes without writing files",
  "          --report <FILE>        Write a JSON report to this file",
  "  list-rules               List available migration and recommendation rules",
  "  init                     Initialize configuration file",
  "          --force                Overwrite existing config",
  "",
  "Options:",
  "  -v, --verbose            Enable verbose output",
  "  -c, --config <FILE>      Path to configuration file",
  "  -h, --help               Print help",
  "  -V, --version            Print version"]

end ComponentSurvey.CommandLine
