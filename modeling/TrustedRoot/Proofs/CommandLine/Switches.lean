import TrustedRoot.Proofs.CommandLine.Words

namespace TrustedRoot.CommandLine

/-- Whether a switch is turned on among the words in front of `--`. -/
def Switch.IsIn (s : Switch) (words : List Bytes) : Prop :=
  s.word ∈ words.takeWhile (· ≠ escapeWord)

/-- A switch is on in a command line if its word comes first or, unless that is `--`, in
the rest. -/
theorem Switch.isIn_cons {s : Switch} {word : Bytes} {rest : List Bytes} :
    s.IsIn (word :: rest) ↔ word ≠ escapeWord ∧ (word = s.word ∨ s.IsIn rest) := by
  by_cases hword : word = escapeWord
  · simp [IsIn, hword]
  · simp [IsIn, hword, eq_comm]

instance (s : Switch) (words : List Bytes) : Decidable (s.IsIn words) :=
  inferInstanceAs (Decidable (_ ∈ _))

/-- No word for a command turns a switch on or opens the arguments. -/
theorem ne_of_ofWord? {word : Bytes} {verb : Verb} (hverb : Verb.ofWord? word = some verb) :
    word ≠ escapeWord ∧ ∀ s : Switch, word ≠ s.word := by
  have hword : Utf8.encode verb.word = word := by simpa using List.find?_some hverb
  subst hword
  refine ⟨?_, fun s => ?_⟩
  · cases verb <;> decide
  · cases verb <;> cases s <;> decide

open Gathered

variable {g h front : Gathered} {place : Option Verb} {words rest behind : List Bytes}
  {word : Bytes} {verb : Verb} {s : Switch} {setting : Option Bytes} {command : Command}
  {invocation : Invocation}

private theorem isOn_empty (s : Switch) : empty.isOn s = false := by cases s <;> rfl

/-- A row of words turns on what it holds in front of `--`, beside what was on. -/
theorem isOn_of_foldlM (hs : s ≠ .json) (hfold : words.foldlM (addWord place) g = .ok h) :
    h.isOn s = true ↔ g.isOn s = true ∨ (g.escaped = false ∧ s.IsIn words) := by
  induction words generalizing g with
  | nil =>
    obtain rfl := Except.ok.inj hfold
    simp [Switch.IsIn]
  | cons word rest ih =>
    rw [List.foldlM_cons] at hfold
    obtain ⟨k, hadd, hrest⟩ := Session.bind_eq_ok_iff.mp hfold
    rw [ih hrest, Switch.isIn_cons]
    by_cases hescaped : g.escaped = true
    · -- Every further word is an argument and turns nothing on.
      rw [addWord_of_escaped hescaped] at hadd
      obtain ⟨hswitches, hkept⟩ := addArgument_keeps hadd
      simp [hswitches, hkept, hescaped]
    · have hno : g.escaped = false := by simpa using hescaped
      obtain ⟨hswitches, hkept⟩ := addWord_keeps hno hadd
      have hne := s.word_ne_escapeWord
      rw [hswitches s hs, ← Bool.not_eq_true, hkept]
      by_cases hword : word = escapeWord
      · simp [hword, hne.symm]
      · simp [hword, hno, or_assoc]

private theorem readFront_ne_ok_of_escaped (hescaped : g.escaped = true) :
    readFront g words ≠ .ok (front, some (verb, rest)) := by
  cases words with
  | nil => simp [readFront]
  | cons word words =>
    simp [readFront, hescaped, addWord_of_escaped hescaped, addArgument]

/-- The reading up to the command either is at the command or takes a word that is none. -/
theorem readFront_cons_eq_ok_iff (hescaped : g.escaped = false) :
    readFront g (word :: rest) = .ok (front, some (verb, behind)) ↔
      (g.isWaiting = false ∧ word ≠ helpWord ∧ Verb.ofWord? word = some verb ∧
        g = front ∧ rest = behind) ∨
      ((g.isWaiting = true ∨ isCommandWord word = false) ∧
        ∃ h, g.addWord none word = .ok h ∧ readFront h rest = .ok (front, some (verb, behind))) := by
  rw [readFront]
  cases hwaiting : g.isWaiting with
  | true => simp [hescaped, Session.bind_eq_ok_iff]
  | false =>
    by_cases hhelp : word = helpWord
    · simp [hescaped, hhelp, isCommandWord]
    · cases hverb : Verb.ofWord? word with
      | none => simp [hescaped, hhelp, hverb, isCommandWord, Session.bind_eq_ok_iff]
      | some verb' => simp [hescaped, hhelp, hverb, isCommandWord, and_left_comm]

/-- Nothing in front of the command opens the arguments. -/
theorem escaped_of_readFront (hescaped : g.escaped = false) (hadd : g.addWord none word = .ok h)
    (hread : readFront h words = .ok (front, some (verb, rest))) :
    word ≠ escapeWord ∧ h.escaped = false := by
  have hkept := (addWord_keeps hescaped hadd).2
  have hescape : word ≠ escapeWord := by
    intro hescape
    exact readFront_ne_ok_of_escaped (hkept.mpr hescape) hread
  exact ⟨hescape, by simpa [hescape] using hkept⟩

private theorem isOn_of_readFront (hs : s ≠ .json) (hescaped : g.escaped = false)
    (hread : readFront g words = .ok (front, some (verb, rest))) :
    front.isOn s = true ∨ s.IsIn rest ↔ g.isOn s = true ∨ s.IsIn words := by
  induction words generalizing g with
  | nil => simp [readFront] at hread
  | cons word words ih =>
    rw [Switch.isIn_cons]
    obtain ⟨_, _, hverb, rfl, rfl⟩ | ⟨_, h, hadd, hread⟩ :=
      (readFront_cons_eq_ok_iff hescaped).mp hread
    · obtain ⟨hescape, hswitches⟩ := ne_of_ofWord? hverb
      simp [hescape, hswitches]
    · obtain ⟨hescape, hno⟩ := escaped_of_readFront hescaped hadd hread
      rw [ih hno hread, (addWord_keeps hescaped hadd).1 s hs]
      simp [hescape, or_assoc]

/-- Reading the words behind a verb, stage by stage. -/
theorem readBehind_eq_ok_iff : readBehind verb words setting = .ok (g, command) ↔
    ∃ f h, words.foldlM (addWord (some verb)) empty = .ok f ∧ f.settle = .ok g ∧
      g.withSetting setting = .ok h ∧ h.command verb = .ok command := by
  unfold readBehind
  simp only [Session.bind_eq_ok_iff, Except.ok.injEq, Prod.mk.injEq]
  constructor
  · rintro ⟨f, hfold, g, hsettle, h, hset, command, hcommand, rfl, rfl⟩
    exact ⟨f, h, hfold, hsettle, hset, hcommand⟩
  · rintro ⟨f, h, hfold, hsettle, hset, hcommand⟩
    exact ⟨f, hfold, g, hsettle, h, hset, command, hcommand, rfl, rfl⟩

private theorem isOn_of_readBehind (hs : s ≠ .json)
    (hread : readBehind verb words setting = .ok (g, command)) :
    g.isOn s = true ↔ s.IsIn words := by
  obtain ⟨f, h, hfold, hsettle, -, -⟩ := readBehind_eq_ok_iff.mp hread
  rw [(settle_keeps hsettle).1 s, isOn_of_foldlM hs hfold, isOn_empty]
  simp [empty]

/-- How a command line is understood. -/
inductive Understood (setting : Option Bytes) (words : List Bytes) (invocation : Invocation) : Prop
  | mk {front settled set behind : Gathered} {verb : Verb} {rest : List Bytes} {command : Command}
      (hfront : readFront .empty words = .ok (front, some (verb, rest)))
      (hbehind : readBehind verb rest setting = .ok (behind, command))
      (hsettle : front.settle = .ok settled) (hset : settled.withSetting setting = .ok set)
      (hinvocation : invocation = {
        verbose := settled.verbose || behind.verbose
        quiet := settled.quiet || behind.quiet
        configDirectory :=
          (behind.configDirectory.or settled.configDirectory).or (setting.map Path.mk)
        command })

/-- A command line is read exactly if it is understood: by words in front of a verb, the
verb, and words behind it. -/
theorem read_eq_ok_iff :
    Invocation.read setting words = .ok invocation ↔ Understood setting words invocation := by
  unfold Invocation.read
  constructor
  · intro hread
    obtain ⟨⟨front, found⟩, hfront, hread⟩ := Session.bind_eq_ok_iff.mp hread
    cases found with
    | none =>
      obtain ⟨_, _, hread⟩ := Session.bind_eq_ok_iff.mp hread
      obtain ⟨_, _, hstop⟩ := Session.bind_eq_ok_iff.mp hread
      cases hstop
    | some found =>
      obtain ⟨⟨behind, command⟩, hbehind, hread⟩ := Session.bind_eq_ok_iff.mp hread
      obtain ⟨settled, hsettle, hread⟩ := Session.bind_eq_ok_iff.mp hread
      obtain ⟨set, hset, hread⟩ := Session.bind_eq_ok_iff.mp hread
      exact .mk hfront hbehind hsettle hset (Except.ok.inj hread).symm
  · rintro ⟨hfront, hbehind, hsettle, hset, rfl⟩
    simp [hfront, hbehind, hsettle, hset]

/-- The tone of a command line is the one that its words in front of `--` set. -/
theorem isOn_of_read (hread : Invocation.read setting words = .ok invocation) :
    (invocation.verbose = true ↔ Switch.verbose.IsIn words) ∧
      (invocation.quiet = true ↔ Switch.quiet.IsIn words) := by
  cases read_eq_ok_iff.mp hread with
  | @mk front settled _ behind _ _ _ hfront hbehind hsettle _ hinvocation =>
  subst hinvocation
  have hswitch (s : Switch) (hs : s ≠ .json) :
      (settled.isOn s || behind.isOn s) = true ↔ s.IsIn words := by
    have hall := isOn_of_readFront hs rfl hfront
    rw [Bool.or_eq_true, (settle_keeps hsettle).1 s, isOn_of_readBehind hs hbehind, hall, isOn_empty]
    simp
  exact ⟨hswitch .verbose (by decide), hswitch .quiet (by decide)⟩

end TrustedRoot.CommandLine
