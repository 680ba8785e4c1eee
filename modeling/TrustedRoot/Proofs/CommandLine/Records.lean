import TrustedRoot.CommandLine.Program
import TrustedRoot.Proofs.CommandLine.Steps
import TrustedRoot.Volume

namespace TrustedRoot

namespace Json

/-- The whole record of a resolved path. There is none if one of its three paths is not text. -/
def recordText? (path : Path) (r : Resolution) : Option String := do
  let given ← path.text?
  let root ← r.root.text?
  let resolved ← r.path.text?
  some ("\x7b\"path\":" ++ quote given ++ ",\"root\":" ++ quote root ++ ",\"resolved\":" ++
    quote resolved ++ ",\"expansions\":" ++ toString r.expansions ++ ",\"short_circuited\":" ++
    (if r.shortCircuited then "true" else "false") ++ "\x7d")

/-- What has been written of a record when the first path that is not text comes up. -/
def tornText (path : Path) (r : Resolution) : String :=
  match path.text?, r.root.text? with
  | none, _ => "\x7b\"path\":"
  | some given, none => "\x7b\"path\":" ++ quote given ++ ",\"root\":"
  | some given, some root =>
    "\x7b\"path\":" ++ quote given ++ ",\"root\":" ++ quote root ++ ",\"resolved\":"

/-- A record is written whole if its paths are text, and else up to the one that is not. -/
theorem write_ofJoined (path : Path) (r : Resolution) :
    (ofJoined path r).write =
      match recordText? path r with
      | some text => ⟨text, true⟩
      | none => ⟨tornText path r, false⟩ := by
  have hnames : quote "path" = "\"path\"" ∧ quote "root" = "\"root\"" ∧
      quote "resolved" = "\"resolved\"" ∧ quote "expansions" = "\"expansions\"" ∧
      quote "short_circuited" = "\"short_circuited\"" := by decide
  obtain ⟨hpath, hroot, hresolved, hexpansions, hshort⟩ := hnames
  have hopen (rest : String) : "\x7b" ++ ("\"path\":" ++ rest) = "\x7b\"path\":" ++ rest := by
    rw [← String.append_assoc]
    rfl
  simp only [ofJoined, resolutionFields, Value.write, writeFields, recordText?, tornText]
  cases path.text? <;> cases r.root.text? <;> cases r.path.text? <;>
    simp [hpath, hroot, hresolved, hexpansions, hshort, hopen, String.append_assoc]

end Json

namespace CommandLine

open Session

/-- The whole record that is printed for a path below a root. -/
def RecordOf (host : Host Id) (root path : Path) (text : String) : Prop :=
  ∃ r, (Resolver.resolve host.toLookup root path).run.outcome = .ok r ∧
    Json.recordText? path r = some text

/-- How printing records ends in front of the paths that are left: what is still
written, and the result. Only the first of them plays a part. -/
inductive Stopped (host : Host Id) (root : Path) : List Path → String → Except Failure Unit → Prop
  /-- Every path has its record. -/
  | finished : Stopped host root [] "" (.ok ())
  /-- A path cannot be resolved. -/
  | unresolved {path : Path} {rest : List Path} {e : Error}
      (houtcome : (Resolver.resolve host.toLookup root path).run.outcome = .error e) :
      Stopped host root (path :: rest) "" (.error (.library e))
  /-- A path is resolved, but its record cannot be written to its end. -/
  | unwritten {path : Path} {rest : List Path} {r : Resolution}
      (houtcome : (Resolver.resolve host.toLookup root path).run.outcome = .ok r)
      (htext : Json.recordText? path r = none) :
      Stopped host root (path :: rest) (Json.tornText path r) (.error (.io Json.notText))

private theorem Stopped.torn_eq
    {host : Host Id} {root path : Path} {rest : List Path} {torn : String}
    {result : Except Failure Unit} {r : Resolution}
    (hstopped : Stopped host root (path :: rest) torn result)
    (hr : (Resolver.resolve host.toLookup root path).run.outcome = .ok r) :
    torn = Json.tornText path r := by
  cases hstopped with
  | unresolved houtcome => simp [hr] at houtcome
  | unwritten houtcome _ =>
    obtain rfl := Except.ok.inj (hr.symm.trans houtcome)
    rfl

/-- In front of a path that is not text there are no records. -/
theorem records_eq_nil {host : Host Id} {root path : Path} {rest left : List Path}
    {records : List (Path × String)} (htext : path.text? = none)
    (hpaths : path :: rest = records.map Prod.fst ++ left)
    (hrecords : ∀ record ∈ records, RecordOf host root record.1 record.2) : records = [] := by
  cases records with
  | nil => rfl
  | cons record more =>
    obtain rfl : path = record.1 := by simpa using (List.cons.inj hpaths).1
    obtain ⟨r, _, hrecord⟩ := hrecords record (by simp)
    simp [Json.recordText?, htext] at hrecord

section Steps

variable (host : Host Id) (root path : Path) (before : List Notice)

private theorem result_printJson (r : Resolution) :
    result (printJson path r) before =
      match Json.recordText? path r with
      | some _ => .ok ()
      | none => .error (.io Json.notText) := by
  simp only [printJson, Json.write_ofJoined]
  cases Json.recordText? path r <;> rfl

private theorem output_printJson (r : Resolution) :
    outputOf (notices (printJson path r) before) = outputOf before ++
      match Json.recordText? path r with
      | some text => text ++ "\n"
      | none => Json.tornText path r := by
  simp only [printJson, Json.write_ofJoined]
  cases Json.recordText? path r <;> simp [notices_bind, Notice.outputText]

/-- One path either adds its whole record, or is where printing records stops. -/
theorem joinOne_json_cases :
    (∃ text, RecordOf host root path text ∧ result (joinOne host root true path) before = .ok () ∧
      outputOf (notices (joinOne host root true path) before) =
        outputOf before ++ (text ++ "\n")) ∨
    ∃ torn failure, (∀ rest, Stopped host root (path :: rest) torn (.error failure)) ∧
      result (joinOne host root true path) before = .error failure ∧
      outputOf (notices (joinOne host root true path) before) = outputOf before ++ torn := by
  have hsilent := silent_resolve host root path before
  have hresult := result_resolve host root path before
  simp only [joinOne, result_bind, notices_bind, hresult]
  cases houtcome : (Resolver.resolve host.toLookup root path).run.outcome with
  | error e =>
    refine .inr ⟨"", .library e, fun rest => .unresolved houtcome, rfl, ?_⟩
    simp [Except.mapError, hsilent]
  | ok r =>
    simp only [Except.mapError, ok_bind, result_put, notices_put, if_true, result_printJson,
      output_printJson, outputOf_append, hsilent]
    cases htext : Json.recordText? path r with
    | some text => exact .inl ⟨text, ⟨r, houtcome, htext⟩, rfl, by simp [Notice.outputText]⟩
    | none =>
      exact .inr ⟨_, _, fun rest => .unwritten houtcome htext, rfl, by simp [Notice.outputText]⟩

/-- Records are printed whole and in order up to the path that stops this. -/
theorem joinAll_json (paths : List Path) :
    ∃ (records : List (Path × String)) (rest : List Path) (torn : String),
      paths = records.map Prod.fst ++ rest ∧
      (∀ record ∈ records, RecordOf host root record.1 record.2) ∧
      Stopped host root rest torn (result (joinAll host root true paths) before) ∧
      outputOf (notices (joinAll host root true paths) before) =
        outputOf before ++ (String.join (records.map (·.2 ++ "\n")) ++ torn) := by
  -- The rest of the paths finds the records of those before it put out.
  induction paths generalizing before with
  | nil => exact ⟨[], [], "", rfl, by simp, .finished, by simp [joinAll]⟩
  | cons path rest ih =>
    simp only [joinAll, result_bind, notices_bind]
    rcases joinOne_json_cases host root path before with
      ⟨text, hrecord, hresult, houtput⟩ | ⟨torn, failure, hstopped, hresult, houtput⟩
    · obtain ⟨records, left, torn, hpaths, hrecords, hstopped, hmore⟩ :=
        ih (notices (joinOne host root true path) before)
      refine ⟨(path, text) :: records, left, torn, by simp [hpaths], ?_, ?_, ?_⟩
      · exact List.forall_mem_cons.mpr ⟨hrecord, hrecords⟩
      · rwa [hresult, ok_bind]
      · rw [hresult]
        simp only [hmore, houtput, List.map_cons, String.join_cons, String.append_assoc]
    · refine ⟨[], path :: rest, torn, rfl, by simp, ?_, ?_⟩
      · rw [hresult]
        exact hstopped rest
      · rw [hresult]
        simpa using houtput

end Steps

section Runs

variable {host : Host Id} (wording : Wording) {environment : Environment}
  {configDirectory : Option Path} {selection : Selection}

private theorem output_run (verbose quiet : Bool) (command : Command) :
    (Invocation.run host wording environment
        ⟨verbose, quiet, configDirectory, command⟩).run.output =
      outputOf (notices (command.run host wording environment configDirectory) []) :=
  rfl

private theorem result_run_join_of_chosen {root : Path} (json : Bool) (paths : List Path)
    (hroot : result (chooseRoot host environment configDirectory selection) [] = .ok root) :
    result ((Command.join selection json paths).run host wording environment configDirectory) [] =
      result (joinAll host root json paths)
        (notices (chooseRoot host environment configDirectory selection) []) := by
  simp only [Command.run, result_bind, hroot, ok_bind]

private theorem notices_run_join_of_chosen {root : Path} (json : Bool) (paths : List Path)
    (hroot : result (chooseRoot host environment configDirectory selection) [] = .ok root) :
    notices ((Command.join selection json paths).run host wording environment configDirectory) [] =
      notices (joinAll host root json paths)
        (notices (chooseRoot host environment configDirectory selection) []) := by
  simp only [Command.run, notices_bind, hroot]

/-- Without a root nothing is written. -/
theorem run_join_of_not_chosen {failure : Failure} (json : Bool) (paths : List Path)
    (hroot : result (chooseRoot host environment configDirectory selection) [] = .error failure) :
    result ((Command.join selection json paths).run host wording environment configDirectory) [] =
        .error failure ∧
      outputOf (notices
        ((Command.join selection json paths).run host wording environment configDirectory) []) =
          "" := by
  have hsilent := silent_chooseRoot host environment configDirectory selection []
  constructor
  · simp only [Command.run, result_bind, hroot, error_bind]
  · simp only [Command.run, notices_bind, hroot, hsilent, outputOf_nil]

/-- Asked for JSON, the program writes the records of the paths before the first that
fails, each whole and on its own line, and reports the failure of that path. If that
path could not be resolved nothing else is written; if it is its record that could not
be written to its end, the part in front of the path that is not text stays. -/
theorem output_join_json (host : Host Id) (wording : Wording) (environment : Environment)
    (configDirectory : Option Path) (selection : Selection) (paths : List Path)
    (verbose quiet : Bool) :
    let command := Command.join selection true paths
    let output := (Invocation.run host wording environment
      ⟨verbose, quiet, configDirectory, command⟩).run.output
    let result := (command.run host wording environment configDirectory).start.run.1
    match (chooseRoot host environment configDirectory selection).start.run.1 with
    | .error failure => result = .error failure ∧ output = ""
    | .ok root =>
      ∃ (records : List (Path × String)) (rest : List Path) (torn : String),
        paths = records.map Prod.fst ++ rest ∧
        (∀ record ∈ records, RecordOf host root record.1 record.2) ∧
        Stopped host root rest torn result ∧
        output = String.join (records.map (·.2 ++ "\n")) ++ torn := by
  intro command output result
  rw [run_start]
  cases hroot : Session.result (chooseRoot host environment configDirectory selection) [] with
  | error failure => exact run_join_of_not_chosen wording true paths hroot
  | ok root =>
    have hsilent := silent_chooseRoot host environment configDirectory selection []
    obtain ⟨records, rest, torn, hpaths, hrecords, hstopped, houtput⟩ := joinAll_json host root
      (notices (chooseRoot host environment configDirectory selection) []) paths
    refine ⟨records, rest, torn, hpaths, hrecords, ?_, ?_⟩
    · rwa [← result_run_join_of_chosen wording true paths hroot] at hstopped
    · rwa [← notices_run_join_of_chosen wording true paths hroot, hsilent, outputOf_nil,
        String.empty_append] at houtput

/-- A path that is not text leaves the beginning of its record behind. -/
theorem not_forall_output_eq_records :
    ¬ ∀ (host : Host Id) (wording : Wording) (environment : Environment) (selection : Selection)
      (root : Path) (paths : List Path),
      (chooseRoot host environment none selection).start.run.1 = .ok root →
      ∃ (records : List (Path × String)) (rest : List Path),
        paths = records.map Prod.fst ++ rest ∧
        (∀ record ∈ records, RecordOf host root record.1 record.2) ∧
        (Invocation.run host wording environment
          ⟨false, false, none, .join selection true paths⟩).run.output =
            String.join (records.map (·.2 ++ "\n")) := by
  intro hall
  have hroot : (chooseRoot Volume.empty.host bare none ⟨some (.ofString "/jail"), none⟩).start.run.1 =
      .ok (.ofString "/jail") := by cbv
  have htext : Path.text? ⟨[0xff]⟩ = none := by cbv
  have hr : (Resolver.resolve Volume.empty.host.toLookup (.ofString "/jail") ⟨[0xff]⟩).run.outcome =
      .ok ⟨.ofString "/jail", (Path.ofString "/jail").join ⟨[0xff]⟩, 0, false⟩ := by cbv
  obtain ⟨records, _, hpaths, hrecords, houtput⟩ := hall _ wordless _ _ _ [⟨[0xff]⟩] hroot
  obtain ⟨records', rest, torn, hpaths', hrecords', hstopped, houtput'⟩ :=
    joinAll_json Volume.empty.host (.ofString "/jail")
      (notices (chooseRoot Volume.empty.host bare none ⟨some (.ofString "/jail"), none⟩) [])
      [⟨[0xff]⟩]
  obtain rfl := records_eq_nil htext hpaths hrecords
  obtain rfl := records_eq_nil htext hpaths' hrecords'
  obtain rfl := hpaths'
  rw [output_run, notices_run_join_of_chosen wordless true _ hroot, houtput', silent_chooseRoot]
    at houtput
  have htorn : torn = "" := by simpa using houtput
  simp [hstopped.torn_eq hr, Json.tornText, htext] at htorn

end Runs

end CommandLine
end TrustedRoot
