import TrustedRoot.Proofs.CommandLine.Switches

namespace TrustedRoot.CommandLine

/-- The words that set the tone of a run. -/
def IsToneWord (word : Bytes) : Prop := word = Switch.verbose.word ∨ word = Switch.quiet.word

instance (word : Bytes) : Decidable (IsToneWord word) := inferInstanceAs (Decidable (_ ∨ _))

/-- The tone is set by every switch but that for JSON. -/
theorem isToneWord_iff {word : Bytes} :
    IsToneWord word ↔ ∃ s : Switch, s ≠ .json ∧ word = s.word := by
  constructor
  · rintro (rfl | rfl)
    · exact ⟨.verbose, by decide, rfl⟩
    · exact ⟨.quiet, by decide, rfl⟩
  · rintro ⟨s, hs, rfl⟩
    cases s with
    | verbose => exact .inl rfl
    | quiet => exact .inr rfl
    | json => exact absurd rfl hs

/-- A command line without the words that set its tone. Behind `--` they are
arguments like any other. -/
def withoutTone : List Bytes → List Bytes
  | [] => []
  | word :: rest =>
    if word = escapeWord then word :: rest
    else if IsToneWord word then withoutTone rest
    else word :: withoutTone rest

namespace Gathered

variable {g g' h k : Gathered} {place : Option Verb} {word : Bytes} {words : List Bytes}
  {slot : Slot} {values : List Bytes} {flag : Flag} {value : Option Bytes} {s : Switch}

/-- What was gathered, but for the tone. -/
def toneless (g : Gathered) : Gathered := g.marked false false g.json g.escaped

private theorem settle_toneless (hsettle : g.settle = .ok h) :
    g.toneless.settle = .ok h.toneless := by
  have hjson : h.json = g.json := (settle_keeps hsettle).1 .json
  have hescaped : h.escaped = g.escaped := (settle_keeps hsettle).2.2
  rw [toneless, settle_marked, hsettle, ← hjson, ← hescaped]
  rfl

private theorem fill_toneless (hfill : g.fill slot values = .ok h) :
    g.toneless.fill slot values = .ok h.toneless := by
  obtain ⟨hswitches, hpending, hescaped⟩ := fill_keeps hfill
  have hjson : h.json = g.json := hswitches .json
  have hframe : g.toneless.fill slot values = _ :=
    g.fill_frame false false g.json g.escaped g.pending slot values
  rw [hframe, hfill, ← hjson, ← hescaped, ← hpending]
  rfl

private theorem settle_escaped (g : Gathered) :
    settle { g with escaped := true } = g.settle.map fun h => { h with escaped := true } := by
  have hmarked : settle { g with escaped := true } = _ :=
    g.settle_marked g.verbose g.quiet g.json true
  rw [hmarked]
  cases hsettle : g.settle with
  | error e => rfl
  | ok h =>
    have hswitches := (settle_keeps hsettle).1
    have hverbose : h.verbose = g.verbose := hswitches .verbose
    have hquiet : h.quiet = g.quiet := hswitches .quiet
    have hjson : h.json = g.json := hswitches .json
    simp [Except.map, marked, hverbose, hquiet, hjson]

private theorem turnOn_tone (hs : s ≠ .json) (hturn : g.turnOn s = .ok h) :
    ∃ verbose quiet, h = g.marked verbose quiet g.json g.escaped := by
  cases s with
  | json => exact absurd rfl hs
  | verbose | quiet =>
    simp only [turnOn] at hturn
    split_ifs at hturn
    exact ⟨_, _, (Except.ok.inj hturn).symm⟩

private theorem turnOn_json_toneless (hturn : g.turnOn .json = .ok h) :
    g.toneless.turnOn .json = .ok h.toneless := by
  simp only [turnOn] at hturn
  split_ifs at hturn with hjson
  obtain rfl := Except.ok.inj hturn
  have hjson' : ¬ g.toneless.json = true := hjson
  simp only [turnOn, if_neg hjson']
  rfl

/-- A row of paths may be filled in two goes. -/
theorem fill_paths_append {front back : List Bytes} (hfront : front ≠ []) (hback : back ≠ [])
    (g : Gathered) :
    g.fill .paths (front ++ back) = g.fill .paths front >>= fun k => k.fill .paths back := by
  have hboth : front ++ back ≠ [] := by simp [hfront]
  simp only [fill, if_neg hfront, if_neg hback, if_neg hboth, List.mapM_append]
  cases front.mapM readPath with
  | error e => rfl
  | ok paths =>
    cases back.mapM readPath with
    | error e => rfl
    | ok more => simp [pure, Except.pure, List.append_assoc]

private theorem settle_more (hpending : g.pending = some (.paths, values)) (hvalues : values ≠ []) :
    settle { g with pending := some (.paths, values ++ [word]) } =
      g.settle >>= fun k => k.fill .paths [word] := by
  rw [settle_of_some hpending, settle_of_some rfl]
  exact fill_paths_append hvalues (by simp) _

private theorem paths_ne_nil_of_fill (hslot : slot = .paths ∨ slot = .path)
    (hfill : g.fill slot values = .ok h) : h.paths ≠ [] := by
  cases values with
  | nil =>
    rw [fill_nil] at hfill
    cases hfill
  | cons value more =>
    have hpaths : ∃ paths, (value :: more).mapM readPath = .ok paths ∧
        h = { g with paths := g.paths ++ paths } := by
      rcases hslot with rfl | rfl
      all_goals
        obtain ⟨paths, hpaths, hh⟩ := Session.bind_eq_ok_iff.mp hfill
        exact ⟨paths, hpaths, (Except.ok.inj hh).symm⟩
    obtain ⟨paths, hpaths, rfl⟩ := hpaths
    rw [List.mapM_cons] at hpaths
    obtain ⟨path, _, hrest⟩ := Session.bind_eq_ok_iff.mp hpaths
    obtain ⟨rest, _, hcons⟩ := Session.bind_eq_ok_iff.mp hrest
    obtain rfl : path :: rest = paths := Except.ok.inj hcons
    simp

private theorem isSome_of_single {α : Type} {before after : Option α} {read : Bytes → Except Stop α}
    (hsingle : single before read values = .ok after) : after.isSome = true := by
  cases values with
  | nil => cases hsingle
  | cons value more =>
    simp only [single] at hsingle
    split_ifs at hsingle
    obtain ⟨_, _, rfl⟩ := Session.map_eq_ok_iff.mp hsingle
    rfl

private theorem hasArgument_of_paths (hpaths : g.paths ≠ []) (slot : Slot) :
    g.hasArgument slot = true := by
  simp [hasArgument, hpaths]

/-- The only argument of a command is still there when the pending values were looked at. -/
theorem hasArgument_of_settle (hslot : slot = .path ∨ slot = .shell) (hsettle : g.settle = .ok h)
    (hfull : g.hasArgument slot = true) : h.hasArgument slot = true := by
  cases hpending : g.pending with
  | none =>
    rw [settle_of_none hpending] at hsettle
    obtain rfl := Except.ok.inj hsettle
    exact hfull
  | some pending =>
    obtain ⟨slot', values⟩ := pending
    rw [settle_of_some hpending] at hsettle
    cases slot' with
    | paths | path => exact hasArgument_of_paths (paths_ne_nil_of_fill (by simp) hsettle) slot
    | shell =>
      obtain ⟨shell, hshell, hh⟩ := Session.bind_eq_ok_iff.mp hsettle
      obtain rfl := Except.ok.inj hh
      simp [hasArgument, isSome_of_single hshell]
    | configDirectory | root | rootName =>
      obtain ⟨_, _, hh⟩ := Session.bind_eq_ok_iff.mp hsettle
      obtain rfl := Except.ok.inj hh
      rcases hslot with rfl | rfl <;> simpa [hasArgument, hpending] using hfull

private theorem isWaiting_iff : g.isWaiting = true ↔
    (∃ slot, g.pending = some (slot, [])) ∧ g.escaped = false := by
  unfold isWaiting
  split
  · rename_i hpending
    simp [hpending]
  · rename_i hrow
    refine ⟨by simp, ?_⟩
    rintro ⟨⟨slot, hpending⟩, _⟩
    exact absurd hpending (hrow slot)

/-- `g'` is what was gathered from the words of `g` but for those that set the
tone. As each of these has the pending values looked at, `g'` may lag behind. -/
structure Lags (g g' : Gathered) : Prop where
  escaped : g'.escaped = g.escaped
  settle : ∀ {h}, g.settle = .ok h → g'.settle = .ok h.toneless
  -- Between an option and its value there is no room for a word of the tone.
  waiting : ∀ {slot}, g.pending = some (slot, []) → g' = g.toneless
  waiting_of : ∀ {slot}, g'.pending = some (slot, []) → g.pending = some (slot, [])
  -- Among the arguments there is: their row may have begun earlier in `g'`.
  row : ∀ {values}, g.pending = some (.paths, values) → ∃ more, g'.pending = some (.paths, more)
  begun : g.pending ≠ some (.paths, [])
  room : ∀ {slot}, slot = .path ∨ slot = .shell → g.hasArgument slot = false →
    g'.hasArgument slot = false

namespace Lags

/-- Where no row of paths has just begun, nothing lags. -/
theorem refl (hbegun : g.pending ≠ some (.paths, [])) : Lags g g.toneless where
  escaped := rfl
  settle := settle_toneless
  waiting _ := rfl
  waiting_of := id
  row hrow := ⟨_, hrow⟩
  begun := hbegun
  room _ := id

private theorem isWaiting_eq (hlags : Lags g g') : g'.isWaiting = g.isWaiting := by
  rw [Bool.eq_iff_iff, isWaiting_iff, isWaiting_iff, hlags.escaped]
  refine and_congr_left fun _ => ⟨?_, ?_⟩
  · rintro ⟨slot, hpending⟩
    exact ⟨slot, hlags.waiting_of hpending⟩
  · rintro ⟨slot, hpending⟩
    exact ⟨slot, by rw [hlags.waiting hpending]; exact hpending⟩

/-- A word for the tone brings the reading forward to where nothing is pending. -/
theorem tone (hlags : Lags g g') (hs : s ≠ .json)
    (hadd : g.addFlag (.switch s) none = .ok h) : Lags h g' := by
  cases addFlag_eq_ok_iff.mp hadd with
  | waits hflag | attached hflag => cases hflag
  | @switch _ k hflag _ hsettle hturn =>
    obtain rfl := Flag.switch.inj hflag
    obtain ⟨verbose, quiet, rfl⟩ := turnOn_tone hs hturn
    obtain ⟨_, hnone, hescaped⟩ := settle_keeps hsettle
    have hpending : (k.marked verbose quiet k.json k.escaped).pending = none := hnone
    constructor
    case escaped => exact hlags.escaped.trans hescaped.symm
    case settle =>
      intro h hh
      rw [settle_of_none hpending] at hh
      obtain rfl := Except.ok.inj hh
      exact (hlags.settle hsettle).trans rfl
    case waiting_of =>
      intro slot hwaiting
      rw [settle_of_some (hlags.waiting_of hwaiting), fill_nil] at hsettle
      cases hsettle
    case room =>
      intro slot hslot hroom
      refine hlags.room hslot ?_
      by_contra hfull
      have hk := hasArgument_of_settle hslot hsettle (by simpa using hfull)
      exact absurd (hk.symm.trans hroom) (by decide)
    all_goals simp [hpending]

/-- Any other flag brings both readings to the same point. -/
theorem addFlag (hlags : Lags g g') (htone : ∀ s, flag = .switch s → s = .json)
    (hflag : flag ≠ .option .paths) (hadd : g.addFlag flag value = .ok h) :
    ∃ h', g'.addFlag flag value = .ok h' ∧ Lags h h' := by
  have hadd' : g'.addFlag flag value = .ok h.toneless ∧ h.pending ≠ some (.paths, []) := by
    cases addFlag_eq_ok_iff.mp hadd with
    | @switch s k hs hvalue hsettle hturn =>
      obtain rfl := htone s hs
      have hnone := (settle_keeps hsettle).2.1
      have hturn' := turnOn_json_toneless hturn
      refine ⟨addFlag_eq_ok_iff.mpr (.switch hs hvalue (hlags.settle hsettle) hturn'), ?_⟩
      simp [(turnOn_keeps hturn).2.1, hnone]
    | waits hslot hvalue hsettle hh =>
      subst hh
      refine ⟨addFlag_eq_ok_iff.mpr (.waits hslot hvalue (hlags.settle hsettle) rfl), ?_⟩
      rintro hpaths
      obtain ⟨rfl, _⟩ := Prod.mk.inj (Option.some.inj hpaths)
      exact hflag hslot
    | attached hslot hvalue hsettle hfill =>
      have hfill' := fill_toneless hfill
      refine ⟨addFlag_eq_ok_iff.mpr (.attached hslot hvalue (hlags.settle hsettle) hfill'), ?_⟩
      simp [(fill_keeps hfill).2.1, (settle_keeps hsettle).2.1]
  exact ⟨_, hadd'.1, refl hadd'.2⟩

/-- One more value in a row that the reading without the words for the tone may
have begun earlier. -/
theorem more {more : List Bytes} (front : List Bytes) (hlags : Lags g g')
    (hmore : g'.pending = some (.paths, more)) (hescaped : h.escaped = g.escaped)
    (hrow : h.pending = some (.paths, front ++ [word]))
    (hsettle : h.settle = g.settle >>= fun k => k.fill .paths [word])
    (hroom : ∀ {slot}, slot = .path ∨ slot = .shell → h.hasArgument slot = false →
      g'.hasArgument slot = false) :
    Lags h { g' with pending := some (.paths, more ++ [word]) } where
  escaped := hlags.escaped.trans hescaped.symm
  settle := by
    intro k hk
    have hne : more ≠ [] := by
      rintro rfl
      exact hlags.begun (hlags.waiting_of hmore)
    rw [hsettle] at hk
    obtain ⟨j, hj, hfill⟩ := Session.bind_eq_ok_iff.mp hk
    rw [settle_more hmore hne, hlags.settle hj]
    exact fill_toneless hfill
  waiting hwaiting := by simp [hrow] at hwaiting
  waiting_of hwaiting := by simp at hwaiting
  row _ := ⟨_, rfl⟩
  begun := by simp [hrow]
  room := by
    intro slot hslot hfree
    have hfree' := hroom hslot hfree
    rcases hslot with rfl | rfl <;> simpa [hasArgument, hmore] using hfree'

/-- An argument is taken on both sides. -/
theorem addArgument (hlags : Lags g g') (hadd : g.addArgument place word = .ok h) :
    ∃ h', g'.addArgument place word = .ok h' ∧ Lags h h' := by
  cases addArgument_eq_ok_iff.mp hadd with
  | @more verb values hplace hslot hpending hh =>
    -- What is a later value of a row for `g` is one for `g'`.
    obtain ⟨more, hmore⟩ := hlags.row hpending
    refine ⟨_, addArgument_eq_ok_iff.mpr (.more hplace hslot hmore rfl), ?_⟩
    have hne : values ≠ [] := by
      rintro rfl
      exact hlags.begun hpending
    subst hh
    refine hlags.more values hmore rfl rfl (settle_more hpending hne) fun {slot} hkind hfree => ?_
    refine hlags.room hkind ?_
    rcases hkind with rfl | rfl <;> simpa [hasArgument, hpending] using hfree
  | @first verb slot k hplace hslot hrow hroom hsettle hh =>
    have hk := hlags.settle hsettle
    -- A row that begins again behind a word of the tone goes on in `g'`.
    by_cases hmore : slot = .paths ∧ ∃ more, g'.pending = some (.paths, more)
    · obtain ⟨rfl, more, hmore⟩ := hmore
      refine ⟨_, addArgument_eq_ok_iff.mpr (.more hplace hslot hmore rfl), ?_⟩
      have hbegun : k.toneless.paths ≠ [] := by
        rw [settle_of_some hmore] at hk
        exact paths_ne_nil_of_fill (.inl rfl) hk
      have hnone := (settle_keeps hsettle).2.1
      have hescaped := (settle_keeps hsettle).2.2
      subst hh
      refine hlags.more [] hmore hescaped rfl ?_ fun {slot} _ hfree => ?_
      · rw [hsettle, settle_of_some rfl, Session.ok_bind, ← hnone]
      · have hfull : hasArgument { k with pending := some (.paths, [word]) } slot = true :=
          hasArgument_of_paths (g := { k with pending := some (.paths, [word]) }) hbegun slot
        cases hfull.symm.trans hfree
    · have hfirst : Argued place word g' h.toneless := by
        subst hh
        refine .first hplace hslot ?_ ?_ hk rfl
        · rintro rfl values hpending
          exact hmore ⟨rfl, values, hpending⟩
        · intro hne
          refine hlags.room ?_ (hroom hne)
          cases verb <;> cases hslot <;> simp at hne ⊢
      refine ⟨_, addArgument_eq_ok_iff.mpr hfirst, refl ?_⟩
      simp [hh]

/-- A `--` on both sides keeps the lag as it is. -/
theorem escape (hlags : Lags g g') :
    Lags { g with escaped := true } { g' with escaped := true } where
  escaped := rfl
  settle := by
    intro h hh
    obtain ⟨k, hk, rfl⟩ := Session.map_eq_ok_iff.mp (g.settle_escaped.symm.trans hh)
    rw [settle_escaped, hlags.settle hk]
    rfl
  waiting hwaiting := by
    rw [hlags.waiting hwaiting]
    rfl
  waiting_of := hlags.waiting_of
  row := hlags.row
  begun := hlags.begun
  room := hlags.room

/-- A word that does not set the tone is taken by both readings. -/
theorem addWord (hlags : Lags g g') (hword : g.escaped = true ∨ ¬ IsToneWord word)
    (hadd : g.addWord place word = .ok h) :
    ∃ h', g'.addWord place word = .ok h' ∧ Lags h h' := by
  cases addWord_eq_ok_iff.mp hadd with
  | argument hfree hadd =>
    obtain ⟨h', hadd', hlags'⟩ := hlags.addArgument hadd
    refine ⟨h', addWord_eq_ok_iff.mpr (.argument ?_ hadd'), hlags'⟩
    rw [hlags.escaped]
    refine hfree.imp id fun ⟨hplain, hpending⟩ => ⟨hplain, fun slot hwaiting => ?_⟩
    exact hpending slot (hlags.waiting_of hwaiting)
  | escape hescaped hescape hh =>
    subst hh
    have hescaped' := hlags.escaped.trans hescaped
    exact ⟨_, addWord_eq_ok_iff.mpr (.escape hescaped' hescape rfl), hlags.escape⟩
  | @value slot hescaped hplain hpending hh =>
    obtain rfl := hlags.waiting hpending
    refine ⟨h.toneless, addWord_eq_ok_iff.mpr (.value hescaped hplain hpending ?_), refl ?_⟩
    · rw [hh]
      rfl
    · simp [hh]
  | @flag name value flag hescaped hlong hflag hadd =>
    have htone : ∀ s, flag = .switch s → s = .json := by
      rintro s rfl
      by_contra hs
      obtain rfl := eq_none_of_addFlag hadd
      have hset : IsToneWord word := isToneWord_iff.mpr ⟨s, hs, Switch.word_eq hlong hflag⟩
      exact hword.elim (fun hyes => by simp [hescaped] at hyes) fun hno => hno hset
    obtain ⟨h', hadd', hlags'⟩ := hlags.addFlag htone (ofLong?_ne_paths hflag) hadd
    have hescaped' := hlags.escaped.trans hescaped
    exact ⟨h', addWord_eq_ok_iff.mpr (.flag hescaped' hlong hflag hadd'), hlags'⟩

/-- A word for the tone is taken by one reading alone. -/
theorem toneWord (hlags : Lags g g') (hescaped : g.escaped = false) (hword : IsToneWord word)
    (hadd : g.addWord place word = .ok h) : Lags h g' := by
  obtain ⟨s, hs, rfl⟩ := isToneWord_iff.mp hword
  refine hlags.tone hs ?_
  simpa [Gathered.addWord, hescaped, ofBytes_switch, ofLong?_tone place hs] using hadd

/-- Behind `--` both readings take every word. -/
theorem foldlM_of_escaped (hlags : Lags g g') (hescaped : g.escaped = true)
    (hfold : words.foldlM (Gathered.addWord place) g = .ok h) :
    ∃ h', words.foldlM (Gathered.addWord place) g' = .ok h' ∧ Lags h h' := by
  induction words generalizing g g' with
  | nil =>
    obtain rfl := Except.ok.inj hfold
    exact ⟨g', rfl, hlags⟩
  | cons word rest ih =>
    obtain ⟨k, hadd, hrest⟩ := Session.bind_eq_ok_iff.mp (List.foldlM_cons.symm.trans hfold)
    obtain ⟨k', hadd', hlags'⟩ := hlags.addWord (.inl hescaped) hadd
    rw [addWord_of_escaped hescaped] at hadd
    have hkept := (addArgument_keeps hadd).2.trans hescaped
    obtain ⟨h', hrest', hlags''⟩ := ih hlags' hkept hrest
    refine ⟨h', ?_, hlags''⟩
    rw [List.foldlM_cons, hadd', Session.ok_bind, hrest']

/-- So the words of a command line are taken on both sides, those for the tone on one alone. -/
theorem foldlM (hlags : Lags g g') (hescaped : g.escaped = false)
    (hfold : words.foldlM (Gathered.addWord place) g = .ok h) :
    ∃ h', (withoutTone words).foldlM (Gathered.addWord place) g' = .ok h' ∧ Lags h h' := by
  induction words generalizing g g' with
  | nil =>
    obtain rfl := Except.ok.inj hfold
    exact ⟨g', rfl, hlags⟩
  | cons word rest ih =>
    obtain ⟨k, hadd, hrest⟩ := Session.bind_eq_ok_iff.mp (List.foldlM_cons.symm.trans hfold)
    have hkept := (addWord_keeps hescaped hadd).2
    rw [withoutTone]
    by_cases hescape : word = escapeWord
    · obtain ⟨k', hadd', hlags'⟩ := hlags.addWord (.inr (by rw [hescape]; decide)) hadd
      obtain ⟨h', hrest', hlags''⟩ := hlags'.foldlM_of_escaped (hkept.mpr hescape) hrest
      refine ⟨h', ?_, hlags''⟩
      rw [if_pos hescape, List.foldlM_cons, hadd', Session.ok_bind, hrest']
    · have hno : k.escaped = false := by simpa [hescape] using hkept
      rw [if_neg hescape]
      by_cases htone : IsToneWord word
      · rw [if_pos htone]
        exact ih (hlags.toneWord hescaped htone hadd) hno hrest
      · obtain ⟨k', hadd', hlags'⟩ := hlags.addWord (.inr htone) hadd
        obtain ⟨h', hrest', hlags''⟩ := ih hlags' hno hrest
        refine ⟨h', ?_, hlags''⟩
        rw [if_neg htone, List.foldlM_cons, hadd', Session.ok_bind, hrest']

end Lags

end Gathered

section Reading

open Gathered

variable {g g' h front : Gathered} {words rest behind : List Bytes} {word : Bytes} {verb : Verb}
  {s : Switch}

/-- The words in front of a verb are read alike without those for the tone. -/
theorem Gathered.Lags.readFront (hlags : Lags g g') (hescaped : g.escaped = false)
    (hread : readFront g words = .ok (front, some (verb, rest))) :
    ∃ front', CommandLine.readFront g' (withoutTone words) =
      .ok (front', some (verb, withoutTone rest)) ∧ Lags front front' := by
  have hescaped' := hlags.escaped.trans hescaped
  induction words generalizing g g' with
  | nil => simp [CommandLine.readFront] at hread
  | cons word words ih =>
    obtain ⟨hwaiting, hhelp, hverb, rfl, rfl⟩ | ⟨hword, h, hadd, hread⟩ :=
      (readFront_cons_eq_ok_iff hescaped).mp hread
    · obtain ⟨hescape, hswitches⟩ := ne_of_ofWord? hverb
      have htone : ¬ IsToneWord word := by simp [IsToneWord, hswitches]
      refine ⟨g', ?_, hlags⟩
      rw [withoutTone, if_neg hescape, if_neg htone, readFront_cons_eq_ok_iff hescaped']
      exact .inl ⟨hlags.isWaiting_eq.trans hwaiting, hhelp, hverb, rfl, rfl⟩
    · obtain ⟨hescape, hno⟩ := escaped_of_readFront hescaped hadd hread
      by_cases htone : IsToneWord word
      · rw [withoutTone, if_neg hescape, if_pos htone]
        exact ih (hlags.toneWord hescaped htone hadd) hno hread hescaped'
      · obtain ⟨h', hadd', hlags'⟩ := hlags.addWord (.inr htone) hadd
        obtain ⟨front', hread', hfront⟩ := ih hlags' hno hread (hlags'.escaped.trans hno)
        refine ⟨front', ?_, hfront⟩
        rw [withoutTone, if_neg hescape, if_neg htone, readFront_cons_eq_ok_iff hescaped']
        exact .inr ⟨hword.imp hlags.isWaiting_eq.trans id, h', hadd', hread'⟩

private theorem lags_empty : Lags empty empty := Lags.refl (g := empty) (by decide)

variable {setting : Option Bytes} {command : Command} {invocation : Invocation}

private theorem withSetting_toneless (hset : g.withSetting setting = .ok h) :
    g.toneless.withSetting setting = .ok h.toneless := by
  have hsame : g.toneless.configDirectory = g.configDirectory := rfl
  unfold withSetting at hset ⊢
  rw [hsame]
  split at hset
  · exact fill_toneless hset
  · obtain rfl := Except.ok.inj hset
    rfl

private theorem command_toneless (g : Gathered) (verb : Verb) :
    g.toneless.command verb = g.command verb := by
  cases verb <;> rfl

/-- The words behind a verb are read alike without those for the tone. -/
theorem readBehind_withoutTone (hread : readBehind verb words setting = .ok (g, command)) :
    readBehind verb (withoutTone words) setting = .ok (g.toneless, command) := by
  obtain ⟨f, h, hfold, hsettle, hset, hcommand⟩ := readBehind_eq_ok_iff.mp hread
  obtain ⟨f', hfold', hlags⟩ := lags_empty.foldlM rfl hfold
  have hset' := withSetting_toneless hset
  have hcommand' := (command_toneless h verb).trans hcommand
  exact readBehind_eq_ok_iff.mpr ⟨f', _, hfold', hlags.settle hsettle, hset', hcommand'⟩

/-- Without the words that set the tone a command line asks for the same. -/
theorem read_withoutTone (hread : Invocation.read setting words = .ok invocation) :
    Invocation.read setting (withoutTone words) =
      .ok { invocation with verbose := false, quiet := false } := by
  obtain ⟨hfront, hbehind, hsettle, hset, rfl⟩ := read_eq_ok_iff.mp hread
  obtain ⟨front', hfront', hlags⟩ := lags_empty.readFront rfl hfront
  have hbehind' := readBehind_withoutTone hbehind
  have hset' := withSetting_toneless hset
  exact read_eq_ok_iff.mpr (.mk hfront' hbehind' (hlags.settle hsettle) hset' rfl)

end Reading
end TrustedRoot.CommandLine
