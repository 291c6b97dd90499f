import FilterQuery.CommandLine.Run
import FilterQuery.Proofs.Failures

/-!
# How a run of the command ends

The command reads a file, loads a table from it and asks for one document. `EndsAs` says what these three steps can
come to and knows nothing of what is printed; an `Ending` says what is left behind and knows nothing of the steps. Every
run has exactly one ending, and leaves behind what belongs to it (`run_ends`).

The code tells the endings apart. It is 1 only for a file, whatever the request is, because a request has no error that
is not its sender's. A document is printed as a whole or not at all. All this holds whatever the reader of YAML says of
a text that it refuses, which is the last cause in the report of such a text.
-/

namespace FilterQuery.CommandLine

/-- The layout that the arguments ask for. -/
def Arguments.layout (a : Arguments) : Json.Layout := if a.pretty then .indented else .compact

inductive Ending where
  /-- There is no table. -/
  | unloaded (error : FileError)
  /-- There is a document. -/
  | printed (document : String)
  /-- There is a table, and the request is wrong. -/
  | rejected (error : TransformError)

/-- What the steps of a run come to. -/
inductive EndsAs (refusal : String → String) (a : Arguments) : FileContent → Ending → Prop
  | unreadable (reason : String) : EndsAs refusal a (.unreadable reason) (.unloaded (.unreadable a.config reason))
  | unloadable {text : String} {err : TableError} (h : FieldTable.ofYaml refusal text = .error err) :
    EndsAs refusal a (.text text) (.unloaded (.unloadable a.config err))
  | printed {text document : String} {table : FieldTable} (ht : FieldTable.ofYaml refusal text = .ok table)
    (hd : transform a.layout table.resolver a.scope a.filter a.options = .ok document) :
    EndsAs refusal a (.text text) (.printed document)
  | rejected {text : String} {table : FieldTable} {err : TransformError}
    (ht : FieldTable.ofYaml refusal text = .ok table)
    (hd : transform a.layout table.resolver a.scope a.filter a.options = .error err) :
    EndsAs refusal a (.text text) (.rejected err)

/-- The place in the filter that a line ends with, for an error of its form. -/
def atByte : TransformError → String
  | .malformed e => " (at byte " ++ toString e.position ++ ")"
  | _ => ""

/-- What an ending leaves behind. -/
def Ending.outcome : Ending → Outcome
  | unloaded e => ⟨1, "", configurationReport e⟩
  | printed document => ⟨0, document ++ "\n", ""⟩
  | rejected e => ⟨2, "", "BAD_REQUEST: " ++ e.message ++ atByte e ++ "\n"⟩

/-! ## Codes -/

namespace Ending

theorem code_eq_one_iff (e : Ending) : e.outcome.code = 1 ↔ ∃ err, e = unloaded err := by
  cases e <;> simp [outcome]

theorem code_eq_zero_iff (e : Ending) : e.outcome.code = 0 ↔ ∃ document, e = printed document := by
  cases e <;> simp [outcome]

theorem code_eq_two_iff (e : Ending) : e.outcome.code = 2 ↔ ∃ err, e = rejected err := by
  cases e <;> simp [outcome]

/-- Only a document is printed, and it is never nothing: a line feed is behind it. -/
theorem stdout_ne_empty_iff (e : Ending) : e.outcome.stdout ≠ "" ↔ e.outcome.code = 0 := by
  cases e <;> simp [outcome]

theorem stderr_eq_empty_iff (e : Ending) : e.outcome.stderr = "" ↔ e.outcome.code = 0 := by
  cases e with
  | unloaded err =>
    have hreport : configurationReport err ≠ "" := by
      unfold configurationReport
      simp
    exact iff_of_false hreport (by simp [outcome])
  | printed document => exact iff_of_true rfl rfl
  | rejected err =>
    have hline : "BAD_REQUEST: " ++ err.message ++ atByte err ++ "\n" ≠ "" := by simp
    exact iff_of_false hline (by simp [outcome])

end Ending

/-! ## Errors of a request -/

theorem failureLine_eq {e : TransformError} (h : e.kind = .badRequest) :
    failureLine e = "BAD_REQUEST: " ++ e.message ++ atByte e := by
  rw [failureLine, h]
  cases e <;> rfl

/-- No error of a request is one within. -/
theorem kind_of_transform {layout : Json.Layout} {resolver : Resolver} {scope filter : String} {options : QueryOptions}
    {err : TransformError} (h : transform layout resolver scope filter options = .error err) :
    err.kind = .badRequest :=
  (buildQuery_eq_error_iff.1 (transform_eq_error_iff.1 h)).kind

/-! ## Reports -/

theorem causes_append (n : Nat) (ms others : List String) :
    causes n (ms ++ others) = causes n ms ++ causes (n + ms.length) others := by
  induction ms generalizing n with
  | nil => rw [List.nil_append, causes, String.empty_append, List.length_nil, Nat.add_zero]
  | cons m ms ih =>
    have hplace : n + 1 + ms.length = n + (m :: ms).length := by
      rw [List.length_cons]
      omega
    rw [List.cons_append, causes, causes, ih, hplace]
    simp only [String.append_assoc]

/-- No cause is left out of a report: each has lines of its own, behind its place among the causes. -/
theorem configurationReport_cause {e : FileError} {before behind : List String} {m : String}
    (h : e.messages = before ++ m :: behind) :
    configurationReport e = "Error: Load field mappings failed.\n\nCaused by:\n" ++ causes 0 before ++
      ("    " ++ toString before.length ++ ": " ++ indentLines m ++ "\n") ++ causes (before.length + 1) behind := by
  unfold configurationReport
  rw [h, causes_append]
  simp only [causes, Nat.zero_add, String.append_assoc]

/-- The report of a text that is no document ends with what its reader says of it. -/
theorem run_refused {text : String} (refusal : String → String) (a : Arguments) (h : Yaml.read? text = none) :
    (run refusal a (.text text)).stderr =
      "Error: Load field mappings failed.\n\nCaused by:\n" ++
        causes 0 ["Load field mappings from " ++ a.config ++ " failed.", "Parse field mappings failed."] ++
        ("    2: " ++ indentLines (refusal text) ++ "\n") := by
  have hrun : (run refusal a (.text text)).stderr =
      configurationReport (.unloadable a.config (.malformed (refusal text))) := by
    simp only [run, FieldTable.ofFile, FieldTable.ofYaml, h]
  have hmessages : (FileError.unloadable a.config (.malformed (refusal text))).messages =
      ["Load field mappings from " ++ a.config ++ " failed.", "Parse field mappings failed."] ++
        refusal text :: [] := rfl
  have hplace : "    " ++ toString 2 ++ ": " = "    2: " := by decide
  rw [hrun, configurationReport_cause hmessages, causes, String.append_empty]
  exact congrArg (fun line => _ ++ (line ++ indentLines (refusal text) ++ "\n")) hplace

example : configurationReport (.unloadable "fields.yaml" (.malformed "found a tab\nat line 2")) =
    "Error: Load field mappings failed.\n\nCaused by:\n" ++
      "    0: Load field mappings from fields.yaml failed.\n" ++
      "    1: Parse field mappings failed.\n" ++
      "    2: found a tab\n       at line 2\n" := by
  decide +kernel

/-! ## Runs -/

section Runs

variable {refusal : String → String} {a : Arguments} {file : FileContent} {ending : Ending}

theorem EndsAs.run_eq (h : EndsAs refusal a file ending) : run refusal a file = ending.outcome := by
  cases h with
  | unreadable reason => rfl
  | unloadable h => simp only [run, FieldTable.ofFile, h, Ending.outcome]
  | printed ht hd =>
    rw [Arguments.layout] at hd
    simp only [run, FieldTable.ofFile, ht, hd, Ending.outcome]
  | @rejected text table err ht hd =>
    have hkind := kind_of_transform hd
    have huser : err.isUserError = true := by
      rw [TransformError.isUserError, hkind]
      rfl
    rw [Arguments.layout] at hd
    simp only [run, FieldTable.ofFile, ht, hd, Ending.outcome, huser, if_true, failureLine_eq hkind]

theorem exists_endsAs (refusal : String → String) (a : Arguments) :
    ∀ file : FileContent, ∃ ending, EndsAs refusal a file ending
  | .unreadable reason => ⟨_, .unreadable reason⟩
  | .text text => by
    cases ht : FieldTable.ofYaml refusal text with
    | error err => exact ⟨_, .unloadable ht⟩
    | ok table =>
      cases hd : transform a.layout table.resolver a.scope a.filter a.options with
      | ok document => exact ⟨_, .printed ht hd⟩
      | error err => exact ⟨_, .rejected ht hd⟩

theorem EndsAs.unique {other : Ending} (h : EndsAs refusal a file ending) (h' : EndsAs refusal a file other) :
    ending = other := by
  cases h <;> cases h' <;> simp_all

theorem EndsAs.exists_iff {α : Type} (h : EndsAs refusal a file ending) (f : α → Ending) :
    (∃ x, EndsAs refusal a file (f x)) ↔ ∃ x, ending = f x := by
  constructor
  · rintro ⟨x, h'⟩
    exact ⟨x, h.unique h'⟩
  · rintro ⟨x, rfl⟩
    exact ⟨x, h⟩

/-- Where there is no table, nothing but the path of the file matters. -/
theorem EndsAs.of_unloaded {b : Arguments} {err : FileError} (h : EndsAs refusal a file (.unloaded err))
    (hb : b.config = a.config) : EndsAs refusal b file (.unloaded err) := by
  cases h with
  | unreadable reason => exact hb ▸ .unreadable reason
  | unloadable h => exact hb ▸ .unloadable h

end Runs

/-- **A run ends in exactly one of three ways.** The file cannot be read or is no table: the code is 1, and the report
with all the causes is all there is, the same for every request. Or the request has a document, which is all that is
printed, with a line feed behind it and code 0. Or the request is wrong: the code is 2, and there is one line with the
message, and with the place in the filter exactly if the error is one of its form. -/
theorem run_ends (refusal : String → String) (a : Arguments) (file : FileContent) :
    (∃! ending, EndsAs refusal a file ending) ∧
    (∀ ending, EndsAs refusal a file ending → run refusal a file = ending.outcome) ∧
    ((run refusal a file).code = 1 ↔ ∃ err, EndsAs refusal a file (.unloaded err)) ∧
    ((run refusal a file).code = 0 ↔ ∃ document, EndsAs refusal a file (.printed document)) ∧
    ((run refusal a file).code = 2 ↔ ∃ err, EndsAs refusal a file (.rejected err)) ∧
    ((run refusal a file).stdout ≠ "" ↔ (run refusal a file).code = 0) ∧
    ((run refusal a file).stderr = "" ↔ (run refusal a file).code = 0) ∧
    ((run refusal a file).code = 1 →
      ∀ b : Arguments, b.config = a.config → run refusal b file = run refusal a file) := by
  obtain ⟨ending, h⟩ := exists_endsAs refusal a file
  refine ⟨⟨ending, h, fun other h' => h'.unique h⟩, fun other h' => h'.run_eq, ?_⟩
  rw [h.run_eq, h.exists_iff, h.exists_iff, h.exists_iff]
  refine ⟨ending.code_eq_one_iff, ending.code_eq_zero_iff, ending.code_eq_two_iff, ending.stdout_ne_empty_iff,
    ending.stderr_eq_empty_iff, fun hcode b hb => ?_⟩
  obtain ⟨err, rfl⟩ := ending.code_eq_one_iff.1 hcode
  exact (h.of_unloaded hb).run_eq

end FilterQuery.CommandLine
