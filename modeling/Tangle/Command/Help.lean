import Tangle.Text.Line

namespace Tangle.Command.Help

open Text

def page (lines : List String) : Text := unlines (lines.map ofString)

def sharedFlags : List String :=
  ["      --absolute-source-paths   Use absolute paths in Source comments",
    "      --dry-run                 Resolve everything but write no files",
    "  -i, --input-path string       Directory to scan for Markdown documents",
    "      --max-passes int          Maximum expansion passes per block",
    "      --md-file string          Only write output blocks from documents matching this regex",
    "      --output-file string      Only write the output block with this target",
    "  -o, --output-path string      Directory output files are written under",
    "      --output-source           Prefix substituted blocks with Source/Anchor comments (default true)",
    "  -q, --quiet                   Only log warnings and errors",
    "      --unresolved string       Unresolved placeholders: keep, warn or error",
    "  -v, --verbose                 Log debug details"]

def main : Text :=
  page (["Extracts code from fenced blocks in Markdown documents and writes it",
    "to source files.",
    "",
    "Blocks are marked with lit- attributes on the opening fence:",
    "",
    "  ```js lit-type:code lit-name:greet",
    "  ```js lit-type:output lit-file:main.js",
    "",
    "Placeholders like \x7b\x7b\x7b greet \x7d\x7d\x7d are replaced with the named block.",
    "",
    "Usage:",
    "  lit [input-path] [flags]",
    "  lit [command]",
    "",
    "Available Commands:",
    "  check       Report problems in the documents without writing anything",
    "  completion  Generate the autocompletion script for the specified shell",
    "  help        Help about any command",
    "",
    "Flags:"] ++ sharedFlags.take 2 ++
    ["  -h, --help                    help for lit"] ++ sharedFlags.drop 2 ++
    ["      --version                 version for lit",
    "",
    "Use \"lit [command] --help\" for more information about a command."])

def check : Text :=
  page (["Scans and resolves every block like a normal run but writes no files.",
    "Exits non-zero when a document has a problem or a block fails to resolve.",
    "",
    "Usage:",
    "  lit check [input-path] [flags]",
    "",
    "Flags:",
    "  -h, --help   help for check",
    "",
    "Global Flags:"] ++ sharedFlags)

def help : Text :=
  page (["Help provides help for any command in the application.",
    "Simply type lit help [path to command] for full details.",
    "",
    "Usage:",
    "  lit help [command] [flags]",
    "",
    "Flags:",
    "  -h, --help   help for help",
    "",
    "Global Flags:"] ++ sharedFlags)

def version : Text := page ["lit version 0.1.0"]

end Tangle.Command.Help
