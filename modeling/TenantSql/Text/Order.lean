/-!
# Lists of texts in order

Texts are ordered by code points.
-/

namespace TenantSql.Text

def sorted (texts : List String) : List String :=
  texts.mergeSort fun a b => !decide (b < a)

def distinct (texts : List String) : List String :=
  texts.foldl (fun seen s => if seen.contains s then seen else seen ++ [s]) []

def repeated (texts : List String) : List String :=
  sorted (distinct (texts.filter fun s => 1 < texts.count s))

theorem sorted_perm (texts : List String) : (sorted texts).Perm texts :=
  List.mergeSort_perm ..

end TenantSql.Text
