import TenantSql.Digest.Sha256
import TenantSql.Json.Printer
import TenantSql.Text.Blank

/-!
# Manifests

What was written, with the size, the lines and the digest of every file, so that
a later reader can tell whether a file was changed.
-/

namespace TenantSql.Export

structure FileRecord where
  path : String
  bytes : Int
  lines : Int
  digest : String
  deriving DecidableEq, Repr

def FileRecord.ofContent (path content : String) : FileRecord where
  path := path
  bytes := content.utf8ByteSize
  lines := Text.countLines content
  digest := Digest.sha256Text content

def FileRecord.toValue (r : FileRecord) : Value :=
  .ofFields [("relative_path", .text r.path), ("size_bytes", .int r.bytes),
    ("line_count", .int r.lines), ("sha256", .text r.digest)]

def generatorVersion : String := "1.0.0"

structure Manifest where
  projectName : String := ""
  projectVersion : String := ""
  generatorVersion : String := ""
  timestamp : String := ""
  outputDirectory : String := ""
  files : List FileRecord := []
  deriving DecidableEq, Repr

namespace Manifest

def totalFiles (m : Manifest) : Nat :=
  m.files.length

def totalBytes (m : Manifest) : Int :=
  (m.files.map FileRecord.bytes).sum

def totalLines (m : Manifest) : Int :=
  (m.files.map FileRecord.lines).sum

def toValue (m : Manifest) : Value :=
  .ofFields [("project_name", .text m.projectName), ("project_version", .text m.projectVersion),
    ("generator_version", .text m.generatorVersion), ("export_timestamp", .text m.timestamp),
    ("output_directory", .text m.outputDirectory), ("total_files", .int m.totalFiles),
    ("total_bytes", .int m.totalBytes), ("total_lines", .int m.totalLines),
    ("files", .list (m.files.map FileRecord.toValue))]

def json (m : Manifest) (indent : Option String) : String :=
  (Json.Layout.mk .unicode indent).print m.toValue

end Manifest

end TenantSql.Export
