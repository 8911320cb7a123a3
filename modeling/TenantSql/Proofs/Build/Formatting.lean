import TenantSql.Build.Stage
import TenantSql.Proofs.Check.Result
import TenantSql.Proofs.Output.FileMap

/-!
# Formatted files

The files of SQL for which a formatter fails are left out, one by one, and every
failure is told. A failure that cannot be told leaves no files at all.
-/

namespace TenantSql.Build

def leftOf (formatText : String → String → Except Formatter.Failure String)
    (file : String × String) : Option (String × String) :=
  if isSql file.1 then (formatText file.1 file.2).toOption.map fun text => (file.1, text)
  else some file

section

variable {formatText : String → String → Except Formatter.Failure String} {files : FileMap}

/-- Formatting leaves what the formatter leaves of every file, and tells its failures one by one. -/
theorem formatFiles_eq_ok {formatted : Formatted}
    (done : formatFiles formatText files = .ok formatted) :
    formatted.files = files.filterMap (leftOf formatText) ∧
      List.Forall₂ (fun file e => formatText file.1 file.2 = .error (.reported e))
        (files.filter fun file => isSql file.1 && !(formatText file.1 file.2).isOk)
        formatted.failures := by
  induction files generalizing formatted with
  | nil =>
      cases done
      exact ⟨rfl, .nil⟩
  | cons file rest induction =>
      obtain ⟨path, text⟩ := file
      rw [formatFiles] at done
      split at done
      · rename_i sql
        split at done
        · rename_i new formats
          obtain ⟨later, rest, same⟩ := Result.bind_eq_ok.mp done
          cases same
          obtain ⟨left, told⟩ := induction rest
          simpa [leftOf, sql, formats, Except.isOk, Except.toBool, Except.toOption, left] using told
        · rename_i e formats
          obtain ⟨later, rest, same⟩ := Result.bind_eq_ok.mp done
          cases same
          obtain ⟨left, told⟩ := induction rest
          simpa [leftOf, sql, formats, Except.isOk, Except.toBool, Except.toOption, left] using told
        · cases done
      · rename_i other
        obtain ⟨later, rest, same⟩ := Result.bind_eq_ok.mp done
        cases same
        obtain ⟨left, told⟩ := induction rest
        simpa [leftOf, other, left] using told

theorem paths_filterMap_leftOf : FileMap.paths (files.filterMap (leftOf formatText)) =
    FileMap.paths (files.filter fun file =>
      !(isSql file.1 && !(formatText file.1 file.2).isOk)) := by
  induction files with
  | nil => rfl
  | cons file rest induction =>
      rw [List.filterMap_cons, List.filter_cons, leftOf]
      cases sql : isSql file.1 with
      | false => simp [induction]
      | true => cases formatText file.1 file.2 <;>
          simp [Except.isOk, Except.toBool, Except.toOption, induction]

/-- Every file of SQL for which the formatter fails is left out, and every failure is told. -/
theorem formatFiles_spec {formatted : Formatted}
    (done : formatFiles formatText files = .ok formatted) :
    formatted.files.paths =
        FileMap.paths (files.filter fun file =>
          !(isSql file.1 && !(formatText file.1 file.2).isOk)) ∧
      formatted.failures.length =
        (files.filter fun file => isSql file.1 && !(formatText file.1 file.2).isOk).length := by
  obtain ⟨left, told⟩ := formatFiles_eq_ok done
  exact ⟨left ▸ paths_filterMap_leftOf, told.length_eq.symm⟩

theorem mem_formatFiles {formatted : Formatted}
    (done : formatFiles formatText files = .ok formatted) {file : String × String}
    (other : isSql file.1 = false) :
    file ∈ formatted.files ↔ file ∈ files := by
  rw [(formatFiles_eq_ok done).1, List.mem_filterMap]
  constructor
  · rintro ⟨old, member, left⟩
    rw [leftOf] at left
    split at left
    · rename_i sql
      obtain ⟨text, _, rfl⟩ := Option.map_eq_some_iff.mp left
      rw [other] at sql
      cases sql
    · cases left
      exact member
  · exact fun member => ⟨file, member, by rw [leftOf, other]; rfl⟩

theorem filter_isSql_formatFiles {formatted : Formatted}
    (done : formatFiles formatText files = .ok formatted) :
    (formatted.files.filter fun file => isSql file.1) =
      (files.filter fun file => isSql file.1).filterMap fun file =>
        (formatText file.1 file.2).toOption.map fun text => (file.1, text) := by
  rw [(formatFiles_eq_ok done).1, List.filter_filterMap, List.filterMap_filter]
  refine List.filterMap_congr fun file _ => ?_
  rw [leftOf]
  cases sql : isSql file.1 with
  | true => cases (formatText file.1 file.2).toOption <;> simp [sql, Option.filter]
  | false => simp [sql, Option.filter]

theorem formatFiles_ok_iff :
    (∃ formatted, formatFiles formatText files = .ok formatted) ↔
      ∀ file ∈ files, isSql file.1 → ∀ failure, formatText file.1 file.2 = .error failure →
        ∃ e, failure = .reported e := by
  induction files with
  | nil => exact iff_of_true ⟨_, rfl⟩ nofun
  | cons file rest induction =>
      obtain ⟨path, text⟩ := file
      rw [List.forall_mem_cons, ← induction, formatFiles]
      split
      · rename_i sql
        split
        · rename_i new formats
          simp [Result.map_eq_ok, formats]
        · rename_i e formats
          simp [Result.map_eq_ok, formats]
        · rename_i failure untold formats
          simp only [formats, sql]
          exact iff_of_false nofun fun told => (told.1 trivial failure rfl).elim untold
      · rename_i other
        simp [Result.map_eq_ok, other]

end

theorem paths_dropEntries {files kept : FileMap} {dropped : List String}
    (done : Output.dropEntries files dropped = .ok kept) : kept.paths = files.paths := by
  refine Result.foldlM_invariant
    (fun (state : FileMap) directory next _ stepped (same : state.paths = files.paths) => ?_) done
    rfl
  rw [Output.dropFromDirectory] at stepped
  split at stepped
  · cases stepped
    exact same
  · rename_i text found
    obtain ⟨new, _, rfl⟩ := Result.map_eq_ok.mp stepped
    rw [FileMap.paths_insert_of_mem (FileMap.mem_paths_of_get? found), same]

theorem file_of_reported {env : Environment} {command : List String} {path text : String}
    {e : FormatError} (failed : formatText env command path text = .error (.reported e)) :
    e.file = path := by
  rw [formatText, Formatter.format] at failed
  split at failed
  · rw [Formatter.judge] at failed
    split at failed
    · cases failed
    · cases failed
      rfl
    · split at failed
      · split at failed
        · cases failed
        · cases failed
          rfl
      · cases failed
  · cases failed
  · cases failed
    rfl

def failsFor (env : Environment) (settings : Settings) (file : String × String) : Bool :=
  match Formatter.choose env.available settings with
  | none => false
  | some command => isSql file.1 && !(formatText env command file.1 file.2).isOk

section

variable {env : Environment} {settings : Settings} {files : FileMap} {r : Report}

theorem failsFor_eq {command : List String}
    (chosen : Formatter.choose env.available settings = some command) :
    failsFor env settings = fun file =>
      isSql file.1 && !(formatText env command file.1 file.2).isOk := by
  funext file
  simp only [failsFor, chosen]

structure IsFormatted (env : Environment) (settings : Settings) (files : FileMap)
    (r formatted : Report) (kept : FileMap) : Prop where
  paths : kept.paths = FileMap.paths (files.filter fun file => !failsFor env settings file)
  failures : formatted.formatErrors.length =
    r.formatErrors.length + (files.filter (failsFor env settings)).length
  queries : formatted.queries = r.queries
  exportErrors : formatted.exportErrors = r.exportErrors

theorem format_spec {formatted : Report} {kept : FileMap}
    (done : format env settings files r = .ok (formatted, kept)) :
    IsFormatted env settings files r formatted kept := by
  rw [format] at done
  split at done
  · rename_i none
    cases done
    exact ⟨by simp [failsFor, none], by simp [failsFor, none], rfl, rfl⟩
  · rename_i command chosen
    obtain ⟨result, ran, rest⟩ := Result.bind_eq_ok.mp done
    obtain ⟨lists, dropped, same⟩ := Result.bind_eq_ok.mp rest
    cases same
    obtain ⟨paths, failures⟩ := formatFiles_spec ran
    refine ⟨?_, ?_, rfl, rfl⟩
    · rw [paths_dropEntries (Result.mapError_eq_ok.mp dropped), paths, failsFor_eq chosen]
    · rw [Report.addStage, List.length_append, List.length_map, failures, failsFor_eq chosen]

theorem exists_format_iff {command : List String}
    (chosen : Formatter.choose env.available settings = some command) :
    (∃ p, format env settings files r = .ok p) ↔
      ∃ formatted, formatFiles (formatText env command) files = .ok formatted ∧
        ∃ kept, Output.dropEntries formatted.files (formatted.failures.map FormatError.file) =
          .ok kept := by
  rw [format, chosen]
  constructor
  · rintro ⟨p, done⟩
    obtain ⟨formatted, ran, rest⟩ := Result.bind_eq_ok.mp done
    obtain ⟨kept, dropped, _⟩ := Result.bind_eq_ok.mp rest
    exact ⟨formatted, ran, kept, Result.mapError_eq_ok.mp dropped⟩
  · rintro ⟨formatted, ran, kept, dropped⟩
    exact ⟨_, Result.bind_eq_ok.mpr ⟨formatted, ran, Result.bind_eq_ok.mpr
      ⟨kept, Result.mapError_eq_ok.mpr dropped, rfl⟩⟩⟩

def FailuresOf (env : Environment) (settings : Settings) (command : List String) (files : FileMap)
    (failures : List FormatError) : Prop :=
  List.Forall₂ (fun file e =>
      formatText env command file.1 file.2 = .error (.reported e) ∧ e.file = file.1)
    (files.filter (failsFor env settings)) failures

theorem FailuresOf.map_file {command : List String} {failures : List FormatError}
    (each : FailuresOf env settings command files failures) :
    failures.map FormatError.file = FileMap.paths (files.filter (failsFor env settings)) := by
  have same : List.Forall₂ (fun file e => FormatError.file e = file.1)
      (files.filter (failsFor env settings)) failures := each.imp fun _ _ both => both.2
  exact (List.forall₂_eq_eq_eq ▸ List.forall₂_map_left_iff.mpr (List.forall₂_map_right_iff.mpr
    (same.imp fun _ _ equal => equal.symm)) : _ = _).symm

theorem failuresOf_formatFiles {command : List String}
    (chosen : Formatter.choose env.available settings = some command)
    {formatted : Formatted} (done : formatFiles (formatText env command) files = .ok formatted) :
    FailuresOf env settings command files formatted.failures := by
  rw [FailuresOf, failsFor_eq chosen]
  exact (formatFiles_eq_ok done).2.imp fun _ _ failed => ⟨failed, file_of_reported failed⟩

theorem format_of_dropEntries {command : List String}
    (chosen : Formatter.choose env.available settings = some command)
    {formatted : Formatted} (ran : formatFiles (formatText env command) files = .ok formatted)
    {kept : FileMap} (dropped : Output.dropEntries formatted.files
      (formatted.failures.map FormatError.file) = .ok kept) (r : Report) :
    ∃ shown, format env settings files r = .ok (shown, kept) ∧
      shown.formatErrors = r.formatErrors ++
        formatted.failures.map fun e => e.diagnostic.display := by
  rw [format, chosen]
  exact ⟨_, Result.bind_eq_ok.mpr ⟨formatted, ran, Result.bind_eq_ok.mpr
    ⟨kept, Result.mapError_eq_ok.mpr dropped, rfl⟩⟩, rfl⟩

end

end TenantSql.Build
