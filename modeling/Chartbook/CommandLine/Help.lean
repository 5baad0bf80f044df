import Chartbook.CommandLine.Arguments

/-!
# Help

The text that answers a request for help.
-/

namespace Chartbook.CommandLine

def optionHelp : List (String × String) :=
  [("--input <INPUT>", "CSV file to analyse (`,` or `;` separated)"),
   ("--classification <CLASSIFICATION>",
    "Classifier reply with the column classification " ++
      "(`\x7b\"columns\": [...]\x7d`)"),
   ("--plan <PLAN>",
    "Classifier reply with the dashboard plan " ++
      "(`\x7b\"kpis\": [...], \"charts\": [...]\x7d`)"),
   ("--config <CONFIG>", "JSON file overlaid on the built-in settings"),
   ("--agg-mode <AGG_MODE>",
    "Month axis: `groupby` (months present) or `resample` (continuous)"),
   ("--keep-zero-months", "Keep months whose sums are all zero"),
   ("--skip-failed", "Leave failing KPIs/charts out instead of aborting"),
   ("--output <OUTPUT>", "Write the result here instead of stdout")]

def helpText (program : String) : String :=
  let options := optionHelp.map fun (name, purpose) =>
    s!"      {name}\n          {purpose}\n"
  "Builds a dashboard document from a CSV and a classifier plan\n\n" ++
    s!"Usage: {program} [OPTIONS] --input <INPUT> " ++
    "--classification <CLASSIFICATION> --plan <PLAN>\n\n" ++
    "Options:\n" ++ String.join options ++
    "  -h, --help\n          Print help\n"

end Chartbook.CommandLine
