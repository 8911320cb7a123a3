/-!
# File maps

The files of a run by their paths, in the order in which the paths first came
up. A later text for a path takes the place of the earlier one.
-/

namespace TenantSql

abbrev FileMap := List (String × String)

namespace FileMap

def paths (files : FileMap) : List String :=
  files.map (·.1)

def get? (files : FileMap) (path : String) : Option String :=
  files.lookup path

def insert (files : FileMap) (path text : String) : FileMap :=
  if files.any (·.1 == path) then
    files.map fun file => if file.1 == path then (path, text) else file
  else files ++ [(path, text)]

def union (files more : FileMap) : FileMap :=
  more.foldl (fun files file => insert files file.1 file.2) files

def without (files : FileMap) (dropped : List String) : FileMap :=
  files.filter fun file => !dropped.contains file.1

theorem paths_insert_of_mem {files : FileMap} {path : String} (present : path ∈ files.paths)
    (text : String) : (files.insert path text).paths = files.paths := by
  have found : files.any (·.1 == path) = true := by
    simp only [paths, List.mem_map] at present
    obtain ⟨file, member, equal⟩ := present
    exact List.any_eq_true.2 ⟨file, member, by simp [equal]⟩
  simp only [insert, found, if_true, paths, List.map_map]
  refine List.map_congr_left fun file _ => ?_
  by_cases same : file.1 = path <;> simp [same]

end FileMap

end TenantSql
