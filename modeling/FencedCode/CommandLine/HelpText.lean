import FencedCode.Text.Basic

/-!
# Fixed texts

The texts that the program prints about itself.
-/
namespace FencedCode.CommandLine

/-- Lines as a text, each with a line end. -/
def joinLines (lines : List String) : Text :=
  lines.flatMap fun line => line.toList ++ ['\n']

/-- How the program is called. -/
def usageLine : Text :=
  "Usage: extract-code-blocks [OPTIONS] <markdown-file>\n".toList

/-- The name of the program and its version. -/
def versionText : Text :=
  "extract-code-blocks 0.1.0\n".toList

/-- The short help text. -/
def shortHelp : Text :=
  joinLines [
    "Extract fenced code blocks of one language from a markdown file",
    "",
    "Usage: extract-code-blocks [OPTIONS] <markdown-file>",
    "",
    "Arguments:",
    "  <markdown-file>  Markdown file to scan",
    "",
    "Options:",
    "      --lang <NAME>      Language tag to extract (default: rust)",
    "      --format <FORMAT>  Output format [possible values: records, json]",
    "      --config <PATH>    TOML configuration file",
    "  -h, --help             Print help (see more with '--help')",
    "  -V, --version          Print version"]

/-- The long help text. -/
def longHelp : Text :=
  joinLines [
    "Extract fenced code blocks of one language from a markdown file.",
    "",
    "Each block is written to stdout as `<line>\\t<attributes>\\t<content>\\0`.",
    "",
    "Usage: extract-code-blocks [OPTIONS] <markdown-file>",
    "",
    "Arguments:",
    "  <markdown-file>",
    "          Markdown file to scan",
    "",
    "Options:",
    "      --lang <NAME>",
    "          Language tag to extract (default: rust)",
    "",
    "      --format <FORMAT>",
    "          Output format",
    "",
    "          Possible values:",
    "          - records: `<start_line>\\t<attributes>\\t<content>\\0` per block",
    "          - json:    One JSON object per line with `start_line`, `attributes` and `content`",
    "",
    "      --config <PATH>",
    "          TOML configuration file",
    "",
    "  -h, --help",
    "          Print help (see a summary with '-h')",
    "",
    "  -V, --version",
    "          Print version"]

end FencedCode.CommandLine
