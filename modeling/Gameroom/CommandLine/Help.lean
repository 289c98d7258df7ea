/-! The texts that explain the commands. -/
namespace Gameroom.CommandLine.Help

def main : String := "\n".intercalate [
  "usage: gamesim [-h] [--log-level LOG_LEVEL] \x7bvalidate,run,reactor\x7d ...",
  "",
  "gamesim - Declarative Game Simulation Engine",
  "",
  "positional arguments:",
  "  \x7bvalidate,run,reactor\x7d",
  "                        Commands",
  "    validate            Validate a game definition",
  "    run                 Run a game definition for a number of ticks",
  "    reactor             Run the sample reactor game",
  "",
  "options:",
  "  -h, --help            show this help message and exit",
  "  --log-level LOG_LEVEL",
  "                        Logging level (default: GAMESIM_LOG_LEVEL or INFO)",
  ""]

def validate : String := "\n".intercalate [
  "usage: gamesim validate [-h] definition_file",
  "",
  "positional arguments:",
  "  definition_file  Path to definition JSON file",
  "",
  "options:",
  "  -h, --help       show this help message and exit",
  ""]

def run : String := "\n".intercalate [
  "usage: gamesim run [-h] [--ticks TICKS] [--seed SEED] [--json] definition_file",
  "",
  "positional arguments:",
  "  definition_file  Path to definition JSON file",
  "",
  "options:",
  "  -h, --help       show this help message and exit",
  "  --ticks TICKS    Number of ticks to run",
  "  --seed SEED      Random seed",
  "  --json           Print the final state as JSON",
  ""]

def reactor : String := "\n".intercalate [
  "usage: gamesim reactor [-h] [--ticks TICKS] [--seed SEED] [--json]",
  "",
  "options:",
  "  -h, --help     show this help message and exit",
  "  --ticks TICKS  Number of ticks to run",
  "  --seed SEED    Random seed",
  "  --json         Print the final state as JSON",
  ""]

end Gameroom.CommandLine.Help
