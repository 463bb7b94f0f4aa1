namespace ResourceNames.Arguments

def program : String := "seqrip"

def programVersion : String := "1.0.0"

/-- Where to learn how the program is used. -/
def helpHint : String :=
  "\nUsage: seqrip [OPTIONS] [INPUTS]...\n\nFor more information, try '--help'."

/-- How the program is used. -/
def helpText : String :=
  "\n".intercalate
    ["SeqRip scans each game binary for runs of printable ASCII, keeps the ones ending in .SEQ, " ++
      "and writes them sorted to <input>.txt as quoted literals. With no arguments it scans the " ++
      "nine known build variants in the current directory.",
    "",
    "Usage: seqrip [OPTIONS] [INPUTS]...",
    "",
    "Arguments:",
    "  [INPUTS]...  Binaries to scan (replaces the configured input list)",
    "",
    "Options:",
    "  -c, --config <CONFIG>                Path to TOML configuration file",
    "  -n, --min-length <MIN_LENGTH>        Minimum length of a printable run (default: 4)",
    "  -s, --suffix <SUFFIX>                Suffix to keep, matched case-sensitively " ++
      "(default: .SEQ)",
    "  -o, --output-dir <OUTPUT_DIR>        Write lists here instead of next to each input",
    "      --output-format <OUTPUT_FORMAT>  Output format for results [default: human] " ++
      "[possible values: human, json, plain]",
    "  -v, --verbose...                     Verbose output level (-v, -vv)",
    "  -q, --quiet                          Quiet mode (suppress non-essential output)",
    "      --dry-run                        Show what would be scanned without reading or " ++
      "writing files",
    "      --generate-config                Generate a sample configuration file",
    "  -h, --help                           Print help",
    "  -V, --version                        Print version",
    "",
    "EXAMPLES:",
    "  seqrip",
    "  seqrip AoPc AoPsx --output-dir lists",
    "  seqrip game.exe --suffix .VH --min-length 3",
    "  seqrip --config my-config.toml --dry-run"]

end ResourceNames.Arguments
