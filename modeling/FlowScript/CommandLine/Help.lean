/-
What the command line says of itself: its version, and how it is used.
-/
import FlowScript.CommandLine.Arguments

namespace FlowScript

namespace CommandLine

def versionLines : List String := ["stimflow 0.1.0"]

def helpLines : Topic → List String
  | .program =>
    ["Usage: stimflow [OPTIONS] <COMMAND>",
      "",
      "Commands:",
      "  compile  Compile an experiment document into source programs",
      "  check    Validate an experiment document without compiling it",
      "  help     Print this message or the help of the given subcommand(s)",
      "",
      "Options:",
      "      --config <CONFIG>  Configuration file (TOML). `STIMFLOW_*` environment variables apply on top",
      "  -h, --help             Print help",
      "  -V, --version          Print version"]
  | .compile =>
    ["Compile an experiment document into source programs",
      "",
      "Usage: stimflow compile [OPTIONS] --in <IN_PATH>",
      "",
      "Options:",
      "      --config <CONFIG>        Configuration file (TOML). `STIMFLOW_*` environment variables apply on top",
      "      --in <IN_PATH>           Input experiment JSON (`react_flow` + `component_props`)",
      "      --name <NAME>            Experiment name. Defaults to the input file stem",
      "      --target <TARGET>        Target to emit. Defaults to the configured targets [possible values: desktop, browser, all]",
      "      --out <OUT>              Output directory [default: .]",
      "      --templates <TEMPLATES>  Template directory with `desktop/` and/or `browser/` overrides",
      "      --strict                 Fail when any node produced a diagnostic",
      "  -h, --help                   Print help"]
  | .check =>
    ["Validate an experiment document without compiling it",
      "",
      "Usage: stimflow check [OPTIONS] --in <IN_PATH>",
      "",
      "Options:",
      "      --config <CONFIG>  Configuration file (TOML). `STIMFLOW_*` environment variables apply on top",
      "      --in <IN_PATH>     Input experiment JSON",
      "  -h, --help             Print help"]
  | .help =>
    ["Print this message or the help of the given subcommand(s)",
      "",
      "Usage: stimflow help [COMMAND]...",
      "",
      "Arguments:",
      "  [COMMAND]...  Print help for the subcommand(s)"]

end CommandLine

end FlowScript
