import TrustedRoot.CommandLine.Grammar
import TrustedRoot.Proofs.Session

namespace TrustedRoot.CommandLine

/-- The long name of a switch. -/
def Switch.name : Switch → String
  | .verbose => "verbose"
  | .quiet => "quiet"
  | .json => "json"

/-- The word that turns a switch on. -/
def Switch.word (s : Switch) : Bytes := hyphen :: hyphen :: Utf8.encode s.name

/-- The word behind which every word is an argument. -/
def escapeWord : Bytes := [hyphen, hyphen]

/-- No switch is written `--`. -/
theorem Switch.word_ne_escapeWord (s : Switch) : s.word ≠ escapeWord := by
  cases s <;> decide

/-- The word for a switch is read as a long flag without a value. -/
theorem ofBytes_switch (s : Switch) : Word.ofBytes s.word = .long (Utf8.encode s.name) none := by
  cases s <;> decide

private theorem ofBytes_escapeWord : Word.ofBytes escapeWord = .escape := by decide

/-- Two of the looks tell the whole word. -/
theorem spelling_of_look (word : Bytes) :
    match Word.ofBytes word with
    | .escape => word = escapeWord
    | .long name none => word = hyphen :: hyphen :: name
    | _ => True := by
  rcases word with _ | ⟨b, _ | ⟨c, rest⟩⟩
  · trivial
  · by_cases hfirst : b ≠ hyphen <;> simp [Word.ofBytes, hfirst]
  · simp only [Word.ofBytes]
    split_ifs with hfirst hsecond hrest
    · trivial
    · trivial
    · simp_all [escapeWord]
    · cases Split.splitFirst equalSign rest <;> simp_all

private theorem eq_escapeWord {word : Bytes} (hword : Word.ofBytes word = .escape) :
    word = escapeWord := by
  simpa only [hword] using spelling_of_look word

private theorem eq_of_ofBytes_long
    {word name : Bytes} (hword : Word.ofBytes word = .long name none) :
    word = hyphen :: hyphen :: name := by
  simpa only [hword] using spelling_of_look word

private theorem mem_flags_of_ofLong? {place : Option Verb} {name : Bytes} {flag : Flag}
    (hflag : Flag.ofLong? place name = some flag) :
    ∃ text, Utf8.encode text = name ∧ (text, flag) ∈ flags place := by
  obtain ⟨⟨text, _⟩, hfind, hsnd⟩ := Option.map_eq_some_iff.mp hflag
  obtain rfl : _ = flag := hsnd
  exact ⟨text, by simpa using List.find?_some hfind, List.mem_of_find?_eq_some hfind⟩

private theorem eq_name_of_mem_flags {place : Option Verb} {text : String} {s : Switch}
    (hrow : (text, .switch s) ∈ flags place) : text = s.name := by
  cases s <;> rcases place with _ | (_ | _ | _ | _ | _) <;>
    simp_all [flags, flags.general, flags.selection, Switch.name]

/-- Only its own word turns a switch on. -/
theorem Switch.word_eq {place : Option Verb} {word name : Bytes} {s : Switch}
    (hword : Word.ofBytes word = .long name none)
    (hflag : Flag.ofLong? place name = some (.switch s)) : word = s.word := by
  obtain ⟨text, rfl, hrow⟩ := mem_flags_of_ofLong? hflag
  rw [eq_of_ofBytes_long hword, eq_name_of_mem_flags hrow]
  rfl

/-- The row of arguments is no option. -/
theorem ofLong?_ne_paths {place : Option Verb} {name : Bytes} {flag : Flag}
    (hflag : Flag.ofLong? place name = some flag) : flag ≠ .option .paths := by
  rintro rfl
  obtain ⟨text, _, hrow⟩ := mem_flags_of_ofLong? hflag
  rcases place with _ | (_ | _ | _ | _ | _) <;>
    simp [flags, flags.general, flags.selection] at hrow

/-- The switches for the tone are flags everywhere. -/
theorem ofLong?_tone (place : Option Verb) {s : Switch} (hs : s ≠ .json) :
    Flag.ofLong? place (Utf8.encode s.name) = some (.switch s) := by
  cases s with
  | json => exact absurd rfl hs
  | verbose | quiet => rcases place with _ | (_ | _ | _ | _ | _) <;> decide

namespace Gathered

variable {g h : Gathered} {slot : Slot} {values : List Bytes}

/-- Whether a switch was turned on. -/
def isOn (g : Gathered) : Switch → Bool
  | .verbose => g.verbose
  | .quiet => g.quiet
  | .json => g.json

/-- The same slots and pending values with other marks. -/
def marked (g : Gathered) (verbose quiet json escaped : Bool) : Gathered :=
  { g with verbose, quiet, json, escaped }

/-- Filling a slot neither looks at nor changes anything but what the slots hold. -/
theorem fill_frame (g : Gathered) (verbose quiet json escaped : Bool)
    (pending : Option (Slot × List Bytes)) (slot : Slot) (values : List Bytes) :
    fill { g.marked verbose quiet json escaped with pending } slot values =
      (g.fill slot values).map fun h => { h.marked verbose quiet json escaped with pending } := by
  cases slot with
  | configDirectory =>
    simp only [fill, marked]
    cases single g.configDirectory readPath values <;> rfl
  | root =>
    simp only [fill, marked]
    cases single g.root readPath values <;> rfl
  | rootName =>
    simp only [fill, marked]
    cases single g.rootName readText values <;> rfl
  | shell =>
    simp only [fill, marked]
    cases single g.shell readShell values <;> rfl
  | paths | path =>
    simp only [fill, marked]
    split_ifs
    · rfl
    · cases values.mapM readPath <;> rfl

/-- Filling a slot leaves the switches, the pending values and the mark of `--` as they are. -/
theorem fill_keeps (hfill : g.fill slot values = .ok h) :
    (∀ s, h.isOn s = g.isOn s) ∧ h.pending = g.pending ∧ h.escaped = g.escaped := by
  have hsame : g.fill slot values = (g.fill slot values).map fun h =>
      { h.marked g.verbose g.quiet g.json g.escaped with pending := g.pending } :=
    g.fill_frame g.verbose g.quiet g.json g.escaped g.pending slot values
  rw [hfill] at hsame
  have hh := Except.ok.inj hsame
  refine ⟨fun s => ?_, ?_, ?_⟩
  · cases s <;> rw [hh] <;> rfl
  · rw [hh]
  · rw [hh]
    rfl

/-- A slot is not filled by nothing. -/
theorem fill_nil (g : Gathered) (slot : Slot) : g.fill slot [] = .error .invalidValue := by
  cases slot <;> rfl

/-- Without pending values there is nothing to settle. -/
theorem settle_of_none (hpending : g.pending = none) : g.settle = .ok g := by
  simp [settle, hpending]

/-- Pending values are settled by filling their slot. -/
theorem settle_of_some (hpending : g.pending = some (slot, values)) :
    g.settle = ({ g with pending := none }).fill slot values := by
  simp [settle, hpending]

/-- Settling leaves the switches and the mark of `--` as they are. -/
theorem settle_keeps (hsettle : g.settle = .ok h) :
    (∀ s, h.isOn s = g.isOn s) ∧ h.pending = none ∧ h.escaped = g.escaped := by
  cases hpending : g.pending with
  | none =>
    rw [settle_of_none hpending] at hsettle
    obtain rfl := Except.ok.inj hsettle
    exact ⟨fun _ => rfl, hpending, rfl⟩
  | some pending =>
    obtain ⟨slot, values⟩ := pending
    rw [settle_of_some hpending] at hsettle
    obtain ⟨hswitches, hnone, hescaped⟩ := fill_keeps hsettle
    refine ⟨fun s => (hswitches s).trans ?_, hnone, hescaped⟩
    cases s <;> rfl

/-- Marks play no part in settling. -/
theorem settle_marked (g : Gathered) (verbose quiet json escaped : Bool) :
    (g.marked verbose quiet json escaped).settle =
      g.settle.map fun h => h.marked verbose quiet json escaped := by
  cases hpending : g.pending with
  | none =>
    have hpending' : (g.marked verbose quiet json escaped).pending = none := hpending
    rw [settle_of_none hpending, settle_of_none hpending']
    rfl
  | some pending =>
    obtain ⟨slot, values⟩ := pending
    have hpending' : (g.marked verbose quiet json escaped).pending = some (slot, values) := hpending
    have hframe := fill_frame { g with pending := none } verbose quiet json escaped none slot values
    rw [settle_of_some hpending, settle_of_some hpending']
    refine Eq.trans hframe ?_
    cases hfill : fill { g with pending := none } slot values with
    | error e => rfl
    | ok h =>
      have hnone : h.pending = none := (fill_keeps hfill).2.1
      simp [Except.map, marked, hnone]

/-- The ways in which a word becomes an argument: behind the other values of a
row, or as the first value of a slot. -/
inductive Argued (place : Option Verb) (word : Bytes) (g h : Gathered) : Prop
  | more {verb : Verb} {values : List Bytes} (hplace : place = some verb)
      (hslot : verb.argument? = some .paths)
      (hpending : g.pending = some (.paths, values))
      (hh : h = { g with pending := some (.paths, values ++ [word]) })
  | first {verb : Verb} {slot : Slot} {k : Gathered} (hplace : place = some verb)
      (hslot : verb.argument? = some slot)
      (hrow : slot = .paths → ∀ values, g.pending ≠ some (.paths, values))
      (hroom : slot ≠ .paths → g.hasArgument slot = false) (hsettle : g.settle = .ok k)
      (hh : h = { k with pending := some (slot, [word]) })

/-- The ways in which a flag is taken. -/
inductive Flagged (flag : Flag) (value : Option Bytes) (g h : Gathered) : Prop
  | switch {s : Switch} {k : Gathered} (hflag : flag = .switch s) (hvalue : value = none)
      (hsettle : g.settle = .ok k) (hturn : k.turnOn s = .ok h)
  | waits {slot : Slot} {k : Gathered} (hflag : flag = .option slot) (hvalue : value = none)
      (hsettle : g.settle = .ok k) (hh : h = { k with pending := some (slot, []) })
  | attached {slot : Slot} {v : Bytes} {k : Gathered} (hflag : flag = .option slot)
      (hvalue : value = some v) (hsettle : g.settle = .ok k) (hfill : k.fill slot [v] = .ok h)

/-- The ways in which a word is taken. -/
inductive Taken (place : Option Verb) (word : Bytes) (g h : Gathered) : Prop
  | argument (hfree : g.escaped = true ∨
        (Word.ofBytes word = .plain ∧ ∀ slot, g.pending ≠ some (slot, [])))
      (hadd : g.addArgument place word = .ok h)
  | escape (hescaped : g.escaped = false) (hword : word = escapeWord)
      (hh : h = { g with escaped := true })
  | value {slot : Slot} (hescaped : g.escaped = false) (hword : Word.ofBytes word = .plain)
      (hpending : g.pending = some (slot, []))
      (hh : h = { g with pending := some (slot, [word]) })
  | flag {name : Bytes} {value : Option Bytes} {flag : Flag} (hescaped : g.escaped = false)
      (hword : Word.ofBytes word = .long name value)
      (hflag : Flag.ofLong? place name = some flag) (hadd : g.addFlag flag value = .ok h)

variable {place : Option Verb} {word : Bytes}

/-- An argument is taken exactly in the ways of `Argued`. -/
theorem addArgument_eq_ok_iff : g.addArgument place word = .ok h ↔ Argued place word g h := by
  constructor
  · intro hok
    unfold addArgument at hok
    split at hok
    · cases hok
    · rename_i verb
      split at hok
      · cases hok
      · rename_i values hslot hpending
        exact .more rfl hslot hpending (Except.ok.inj hok).symm
      · rename_i slot _ hslot hrow
        split_ifs at hok with hfull
        obtain ⟨k, hsettle, hh⟩ := Session.bind_eq_ok_iff.mp hok
        refine .first rfl hslot ?_ ?_ hsettle (Except.ok.inj hh).symm
        · rintro rfl values hpending
          exact hrow values hpending rfl
        · intro hne
          simpa [hne] using hfull
  · intro hargued
    unfold addArgument
    cases hargued with
    | more hplace hslot hpending hh =>
      subst hplace hh
      simp only [hslot, hpending]
    | @first verb slot k hplace hslot hrow hroom hsettle hh =>
      subst hplace hh
      dsimp only
      split
      · rename_i hnone
        rw [hslot] at hnone
        cases hnone
      · rename_i values hpaths hpending
        exact absurd hpending (hrow (Option.some.inj (hslot.symm.trans hpaths)) values)
      · rename_i slot' hslot' _
        obtain rfl : slot = slot' := Option.some.inj (hslot.symm.trans hslot')
        have hfree : ¬ (slot ≠ .paths ∧ g.hasArgument slot = true) := by
          rintro ⟨hne, hfull⟩
          rw [hroom hne] at hfull
          cases hfull
        rw [if_neg hfree, hsettle]
        rfl

/-- A flag is taken exactly in the ways of `Flagged`. -/
theorem addFlag_eq_ok_iff {flag : Flag} {value : Option Bytes} :
    g.addFlag flag value = .ok h ↔ Flagged flag value g h := by
  constructor
  · intro hok
    cases flag with
    | help | version =>
      cases value with
      | none =>
        obtain ⟨_, _, hstop⟩ := Session.bind_eq_ok_iff.mp hok
        cases hstop
      | some v => cases hok
    | switch s =>
      cases value with
      | none =>
        obtain ⟨k, hsettle, hturn⟩ := Session.bind_eq_ok_iff.mp hok
        exact .switch rfl rfl hsettle hturn
      | some v => cases hok
    | option slot =>
      cases value with
      | none =>
        obtain ⟨k, hsettle, hh⟩ := Session.bind_eq_ok_iff.mp hok
        exact .waits rfl rfl hsettle (Except.ok.inj hh).symm
      | some v =>
        obtain ⟨k, hsettle, hfill⟩ := Session.bind_eq_ok_iff.mp hok
        exact .attached rfl rfl hsettle hfill
  · intro hflagged
    cases hflagged with
    | switch hflag hvalue hsettle hturn =>
      subst hflag hvalue
      simpa [addFlag, hsettle] using hturn
    | waits hflag hvalue hsettle hh =>
      subst hflag hvalue hh
      simp [addFlag, hsettle]
    | attached hflag hvalue hsettle hfill =>
      subst hflag hvalue
      simpa [addFlag, hsettle] using hfill

/-- A flag with a short name stops the reading. -/
theorem addFlag_short {name : UInt8} {flag : Flag} (hflag : Flag.ofShort? place name = some flag) :
    g.addFlag flag none ≠ .ok h := by
  intro hok
  unfold Flag.ofShort? at hflag
  split_ifs at hflag
  all_goals
    cases hflag
    obtain ⟨_, _, hstop⟩ := Session.bind_eq_ok_iff.mp hok
    cases hstop

/-- A word is taken exactly in the ways of `Taken`. -/
theorem addWord_eq_ok_iff : g.addWord place word = .ok h ↔ Taken place word g h := by
  constructor
  · intro hok
    unfold addWord at hok
    split_ifs at hok with hescaped
    · exact .argument (.inl hescaped) hok
    · have hescaped : g.escaped = false := by simpa using hescaped
      split at hok
      · rename_i hword
        exact .escape hescaped (eq_escapeWord hword) (Except.ok.inj hok).symm
      · rename_i name value hword
        split at hok
        · cases hok
        · rename_i flag hflag
          exact .flag hescaped hword hflag hok
      · rename_i name hword
        split at hok
        · cases hok
        · rename_i flag hflag
          exact absurd hok (addFlag_short hflag)
      · rename_i hword
        split at hok
        · rename_i slot hpending
          exact .value hescaped hword hpending (Except.ok.inj hok).symm
        · rename_i hwaiting
          exact .argument (.inr ⟨hword, hwaiting⟩) hok
  · intro htaken
    unfold addWord
    cases htaken with
    | argument hfree hadd =>
      rcases hfree with hescaped | ⟨hword, hwaiting⟩
      · rw [if_pos hescaped, hadd]
      · split_ifs
        · exact hadd
        · simp only [hword]
          exact hadd
    | escape hescaped hword hh =>
      subst hword hh
      simp [hescaped, ofBytes_escapeWord]
    | value hescaped hword hpending hh =>
      subst hh
      simp [hescaped, hword, hpending]
    | flag hescaped hword hflag hadd => simp [hescaped, hword, hflag, hadd]

variable {flag : Flag} {value : Option Bytes} {s : Switch}

/-- Turning a switch on leaves all others as they are. -/
theorem turnOn_keeps (hturn : g.turnOn s = .ok h) :
    (∀ t, h.isOn t = true ↔ g.isOn t = true ∨ s = t) ∧ h.pending = g.pending ∧
      h.escaped = g.escaped := by
  cases s
  all_goals
    simp only [turnOn] at hturn
    split_ifs at hturn
    obtain rfl := Except.ok.inj hturn
    refine ⟨fun t => ?_, rfl, rfl⟩
    cases t <;> simp [isOn]

private theorem addFlag_keeps (hadd : g.addFlag flag value = .ok h) :
    (∀ t, h.isOn t = true ↔ g.isOn t = true ∨ flag = .switch t) ∧ h.escaped = g.escaped := by
  cases addFlag_eq_ok_iff.mp hadd with
  | switch hflag hvalue hsettle hturn =>
    obtain ⟨hswitches, _, hescaped⟩ := settle_keeps hsettle
    obtain ⟨hturned, _, hkept⟩ := turnOn_keeps hturn
    exact ⟨by simpa [hflag, hswitches] using hturned, hkept.trans hescaped⟩
  | waits hflag hvalue hsettle hh =>
    obtain ⟨hswitches, _, hescaped⟩ := settle_keeps hsettle
    subst hh
    refine ⟨fun t => ?_, hescaped⟩
    rw [← hswitches t]
    cases t <;> simp [isOn, hflag]
  | attached hflag hvalue hsettle hfill =>
    obtain ⟨hswitches, _, hescaped⟩ := settle_keeps hsettle
    obtain ⟨hfilled, _, hkept⟩ := fill_keeps hfill
    exact ⟨by simp [hflag, hfilled, hswitches], hkept.trans hescaped⟩

/-- A switch takes no value. -/
theorem eq_none_of_addFlag (hadd : g.addFlag (.switch s) value = .ok h) : value = none := by
  cases addFlag_eq_ok_iff.mp hadd with
  | switch _ hvalue => exact hvalue
  | waits hflag | attached hflag => cases hflag

/-- An argument turns no switch on. -/
theorem addArgument_keeps (hadd : g.addArgument place word = .ok h) :
    (∀ t, h.isOn t = g.isOn t) ∧ h.escaped = g.escaped := by
  cases addArgument_eq_ok_iff.mp hadd with
  | more hplace hslot hpending hh =>
    subst hh
    exact ⟨fun t => by cases t <;> rfl, rfl⟩
  | first hplace hslot hrow hroom hsettle hh =>
    obtain ⟨hswitches, _, hescaped⟩ := settle_keeps hsettle
    subst hh
    refine ⟨fun t => Eq.trans ?_ (hswitches t), hescaped⟩
    cases t <;> rfl

/-- Behind `--` every word is an argument. -/
theorem addWord_of_escaped (hescaped : g.escaped = true) :
    g.addWord place word = g.addArgument place word := by
  simp [addWord, hescaped]

/-- A word in front of `--` turns on the switch that it is for and no other. -/
theorem addWord_keeps (hescaped : g.escaped = false) (hadd : g.addWord place word = .ok h) :
    (∀ t ≠ .json, h.isOn t = true ↔ g.isOn t = true ∨ word = t.word) ∧
      (h.escaped = true ↔ word = escapeWord) := by
  have hplain : Word.ofBytes word = .plain → (∀ t : Switch, word ≠ t.word) ∧ word ≠ escapeWord := by
    intro hword
    constructor
    · rintro t rfl
      cases hword.symm.trans (ofBytes_switch t)
    · rintro rfl
      cases hword.symm.trans ofBytes_escapeWord
  cases addWord_eq_ok_iff.mp hadd with
  | argument hfree hadd =>
    obtain ⟨hswitches, hkept⟩ := addArgument_keeps hadd
    have hword : Word.ofBytes word = .plain := by
      rcases hfree with hyes | hword
      · rw [hescaped] at hyes
        cases hyes
      · exact hword.1
    simp [hswitches, hkept, hescaped, hplain hword]
  | escape _ hword hh =>
    subst hword hh
    refine ⟨fun t _ => ?_, by simp⟩
    have hne := t.word_ne_escapeWord
    cases t <;> simp [isOn, hne.symm]
  | value _ hword hpending hh =>
    subst hh
    refine ⟨fun t _ => ?_, by simp [hescaped, hplain hword]⟩
    cases t <;> simp [isOn, hplain hword]
  | @flag name value flag _ hword hflag hadd =>
    obtain ⟨hswitches, hkept⟩ := addFlag_keeps hadd
    have hescape : word ≠ escapeWord := by
      rintro rfl
      cases hword.symm.trans ofBytes_escapeWord
    refine ⟨fun t ht => (hswitches t).trans (or_congr_right ?_), by simp [hkept, hescaped, hescape]⟩
    constructor
    · rintro rfl
      obtain rfl := eq_none_of_addFlag hadd
      exact Switch.word_eq hword hflag
    · rintro rfl
      obtain ⟨rfl, _⟩ := Word.long.inj (hword.symm.trans (ofBytes_switch t))
      exact Option.some.inj (hflag.symm.trans (ofLong?_tone place ht))

end Gathered
end TrustedRoot.CommandLine
