/-!
# Faults

A value of a kind or a content that the place where it stands does not provide
for. A fault is no complaint to the author of a definition; it says only what
sort of thing went wrong.
-/

namespace TenantSql

inductive Fault where
  | wrongKind
  | wrongContent
  | missingEntry
  | outOfRange
  | notFound
  | notARecord
  | tooLarge
  | tooDeep
  deriving DecidableEq, Repr

end TenantSql
