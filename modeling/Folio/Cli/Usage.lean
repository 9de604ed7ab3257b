/-!
# Usage and help

The texts that explain the command line, for a terminal of 80 columns.
-/

namespace Folio.Cli

/-- The name of the program. -/
def programName : String := "split_spreads.py"

/-- How the program is called. -/
def usageLines : List String := [
  "usage: split_spreads.py [-h] -i INPUT [INPUT ...] -o OUTPUT [-p PREFIX]",
  "                        [--overwrite]",
  "                        [--pdf-version \x7b1.0,1.1,1.2,1.3,1.4,1.5,1.6,1.7,2.0\x7d]",
  "                        [--repagination \x7bnone,last-first\x7d]",
  "                        [--password PASSWORD] [-v] [--log-dir LOG_DIR]"]

/-- The help text. -/
def helpLines : List String := usageLines ++ [
  "",
  "Split double-page spreads into single pages.",
  "",
  "options:",
  "  -h, --help            show this help message and exit",
  "  -i INPUT [INPUT ...], --input INPUT [INPUT ...]",
  "                        Input PDF files and/or directories containing PDFs.",
  "  -o OUTPUT, --output OUTPUT",
  "                        Output directory to write processed PDFs.",
  "  -p PREFIX, --prefix PREFIX",
  "                        Output name prefix, may contain [BASENAME],",
  "                        [FILENUMBER], [TIMESTAMP]. Default: [BASENAME]_split",
  "  --overwrite           Replace existing files in the output directory.",
  "  --pdf-version \x7b1.0,1.1,1.2,1.3,1.4,1.5,1.6,1.7,2.0\x7d",
  "                        PDF version of the outputs. Default: same as the",
  "                        input.",
  "  --repagination \x7bnone,last-first\x7d",
  "                        'last-first' reorders documents scanned starting from",
  "                        the last sheet. Default: none",
  "  --password PASSWORD   Password of encrypted inputs.",
  "  -v, --verbose         Log every step.",
  "  --log-dir LOG_DIR     Also write a detailed log file in this directory."]

/-- Lines as text. -/
def unlines (lines : List String) : String := String.join (lines.map (· ++ "\n"))

end Folio.Cli
