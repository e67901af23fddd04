/-!
# Usage

The help texts, in which the program calls itself by the name that it was called by.

## Main definitions

* `Usage.program`, `Usage.run`, `Usage.check` — the help on all commands, and on each of them.
-/

namespace TapeMachine.Usage

/-- The lines of a help text, with an empty one behind them. -/
def ofLines (lines : List String) : String :=
  lines.foldr (fun line text => line ++ "\n" ++ text) "\n"

/-- The help on all commands. -/
def program (name : String) : String :=
  ofLines [
    "Usage:",
    "  " ++ name ++ " run   [OPTIONS] <PATH>           # Run a program file",
    "  " ++ name ++ " run   [OPTIONS] --code \"<code>\"  # Run program text given inline",
    "  " ++ name ++ " check <PATH>                     # Validate brackets without running",
    "",
    "Run \"" ++ name ++ " <subcommand> --help\" for more info.",
    "Set RUST_LOG=debug (or trace) to see interpreter diagnostics on stderr."]

/-- The help on the command that checks a program. -/
def check (name : String) : String :=
  ofLines [
    "Usage:",
    "  " ++ name ++ " check <PATH>",
    "  " ++ name ++ " check --code \"<code>\"",
    "",
    "Options:",
    "  --code, -c <CODE>  Check CODE instead of a program file",
    "  --help, -h         Show this help",
    "",
    "Description:",
    "  Validates that every bracket is matched without running the program.",
    "  Prints \"Valid Code\" on success; otherwise reports the first offending",
    "  bracket by line and character and exits with status 1."]

/-- The help on the command that runs a program. -/
def run (name : String) : String :=
  ofLines [
    "Usage:",
    "  " ++ name ++ " run [OPTIONS] <PATH>",
    "  " ++ name ++ " run [OPTIONS] --code \"<code>\"",
    "",
    "Options:",
    "  --code,        -c <CODE>   Run CODE instead of a program file",
    "  --input,       -i <PATH>   Bytes consumed by `,` (\"-\" reads stdin until EOF)",
    "  --output,      -o <PATH>   Also write the complete program output to PATH",
    "  --dump-memory, -m <PATH>   Write a dump of the final tape to PATH",
    "  --bits,        -b <BITS>   Cell width: 8, 16 or 32 (env BF_CELL_BITS; default 8)",
    "  --tape,        -t <CELLS>  Number of tape cells (env BF_MEMORY_SIZE; default 30000)",
    "  --quiet,       -q          Do not print the execution summary",
    "  --help,        -h          Show this help",
    "",
    "Notes:",
    "- Program output goes to stdout as it is produced; the summary goes to stderr.",
    "- Cells and the data pointer wrap around; nothing overflows.",
    "- When input is exhausted, `,` leaves the current cell unchanged.",
    "- With 16 or 32-bit cells, `,` reads one UTF-8 character and `.` writes one.",
    "- Characters outside of ><+-.,[] are ignored.",
    "- Tape settings can also be set in the [tape] section of bf.toml in the",
    "  config directory (cell_bits, memory_size).",
    "",
    "Examples:",
    "- Run a program file with 16-bit cells:",
    "    " ++ name ++ " run --bits 16 ./program.bf",
    "- Feed a file to `,` and keep a dump of the tape:",
    "    " ++ name ++ " run -i input.txt -m memory.txt ./program.bf"]

end TapeMachine.Usage
