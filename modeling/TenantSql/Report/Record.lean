import TenantSql.Model.Record
import TenantSql.Report.Report

/-!
# Reports as records

The entries of a report under the names by which other programs know them. Times
are left out: two runs that do the same have equal records.
-/

namespace TenantSql

def Stage.toValue (s : Stage) : Value :=
  .list [.text s.name, .bool s.success, .text s.detail]

def Export.Manifest.toTimelessValue (m : Export.Manifest) : Value :=
  match m.toValue with
  | .object entries => .object (entries.filter fun entry => entry.1 != .text "export_timestamp")
  | other => other

def Report.entries (r : Report) : List (String × Value) :=
  [("success", .bool r.success), ("dry_run", .bool r.dryRun),
    ("project_name", .text r.projectName), ("output_directory", .text r.outputDirectory),
    ("total_models", .int r.models), ("total_queries", .int r.queries),
    ("total_files", .int r.fileCount), ("total_bytes", .int r.bytes),
    ("total_lines", .int r.lines), ("steps", .list (r.stages.map Stage.toValue)),
    ("validation_errors", .ofTexts r.validationErrors),
    ("validation_warnings", .ofTexts r.validationWarnings),
    ("generation_errors", .ofTexts r.generationErrors),
    ("format_errors", .ofTexts r.formatErrors), ("export_errors", .ofTexts r.exportErrors),
    ("skipped_files", .ofTexts r.skippedFiles),
    ("manifest", .ofOption Export.Manifest.toTimelessValue r.manifest)]

end TenantSql
