import Mathlib
import TrustedRoot.Resolver

open Std.Do

set_option mvcgen.warning false

namespace TrustedRoot.Resolver

/-- Where a resolution stands: the names walked below the root, innermost
first, the links followed so far, and the components still to be taken. -/
structure State where
  trail : List Name
  expansions : Nat
  pending : List Component

/-- Where the resolution of a path begins. -/
def State.start (path : Path) : State := ⟨[], 0, path.components⟩

/-- Which answers a lookup may give to which question. -/
structure Answers where
  entry : Path → Except IoError Entry → Prop
  target : Path → Except IoError Path → Prop

/-- The answers of a lookup that may say anything at any time. -/
def Answers.any : Answers := ⟨fun _ _ => True, fun _ _ => True⟩

/-- The answers of a lookup that says the same about a path every time. -/
def Answers.of (lookup : Lookup Id) : Answers :=
  ⟨fun p answer => answer = lookup.inspect p, fun p answer => answer = lookup.target p⟩

/-- The path of a trail below the root. -/
def trailPath (root : Path) (trail : List Name) : Path := root.confine (.ofNames trail.reverse)

/-- An answer after which a name is kept as it is: no link, or nothing there. -/
def Passable : Except IoError Entry → Prop
  | .ok entry => entry.isLink = false
  | .error e => e.meansAbsent = true

/-- One component taken by a resolution that goes on, with what happens. -/
inductive Move (answers : Answers) (root : Path) : State → List Event → State → Prop where
  | stay {trail expansions c rest} (hc : c = .root ∨ c = .here) :
      Move answers root ⟨trail, expansions, c :: rest⟩ [] ⟨trail, expansions, rest⟩
  | leave {name trail expansions rest} :
      Move answers root ⟨name :: trail, expansions, .parent :: rest⟩ [] ⟨trail, expansions, rest⟩
  | clamp {expansions rest} :
      Move answers root ⟨[], expansions, .parent :: rest⟩ [.clamped root] ⟨[], expansions, rest⟩
  | enter {trail expansions name rest answer}
      (hanswer : answers.entry (trailPath root (name :: trail)) answer) (hpass : Passable answer) :
      Move answers root ⟨trail, expansions, .name name :: rest⟩
        [.inspected (trailPath root (name :: trail)) answer] ⟨name :: trail, expansions, rest⟩
  | follow {trail expansions name rest entry target}
      (hentry : answers.entry (trailPath root (name :: trail)) (.ok entry))
      (hlink : entry.isLink = true) (hroom : expansions < maxExpansions)
      (htarget : answers.target (trailPath root (name :: trail)) (.ok target))
      (hrelative : target.isAbsolute = false) :
      Move answers root ⟨trail, expansions, .name name :: rest⟩
        [.inspected (trailPath root (name :: trail)) (.ok entry),
          .targetRead (trailPath root (name :: trail)) (.ok target),
          .expanded (trailPath root (name :: trail)) target (expansions + 1)]
        ⟨trail, expansions + 1, target.components ++ rest⟩
  | restart {trail expansions name rest entry target}
      (hentry : answers.entry (trailPath root (name :: trail)) (.ok entry))
      (hlink : entry.isLink = true) (hroom : expansions < maxExpansions)
      (htarget : answers.target (trailPath root (name :: trail)) (.ok target))
      (habsolute : target.isAbsolute = true)
      (houtside : entry.isDirectory = true ∨ target.inside? root = none) :
      Move answers root ⟨trail, expansions, .name name :: rest⟩
        [.inspected (trailPath root (name :: trail)) (.ok entry),
          .targetRead (trailPath root (name :: trail)) (.ok target),
          .expanded (trailPath root (name :: trail)) target (expansions + 1), .restarted target]
        ⟨[], expansions + 1, target.components ++ rest⟩

/-- The end of a resolution, with what happens last. -/
inductive Stop (answers : Answers) (root path : Path) :
    State → List Event → Except Error Resolution → Prop where
  | arrive {trail expansions} :
      Stop answers root path ⟨trail, expansions, []⟩ []
        (.ok ⟨root, trailPath root trail, expansions, false⟩)
  | refuse {trail expansions name rest e}
      (hentry : answers.entry (trailPath root (name :: trail)) (.error e))
      (hpresent : e.meansAbsent = false) :
      Stop answers root path ⟨trail, expansions, .name name :: rest⟩
        [.inspected (trailPath root (name :: trail)) (.error e)]
        (.error (.lookup (trailPath root (name :: trail)) e))
  | giveUp {trail expansions name rest entry}
      (hentry : answers.entry (trailPath root (name :: trail)) (.ok entry))
      (hlink : entry.isLink = true) (hfull : maxExpansions ≤ expansions) :
      Stop answers root path ⟨trail, expansions, .name name :: rest⟩
        [.inspected (trailPath root (name :: trail)) (.ok entry), .gaveUp root path]
        (.error (.symlinkLoop root path maxExpansions))
  | unread {trail expansions name rest entry e}
      (hentry : answers.entry (trailPath root (name :: trail)) (.ok entry))
      (hlink : entry.isLink = true) (hroom : expansions < maxExpansions)
      (htarget : answers.target (trailPath root (name :: trail)) (.error e)) :
      Stop answers root path ⟨trail, expansions, .name name :: rest⟩
        [.inspected (trailPath root (name :: trail)) (.ok entry),
          .targetRead (trailPath root (name :: trail)) (.error e)]
        (.error (.lookup (trailPath root (name :: trail)) e))
  | keep {trail expansions name rest entry target inside}
      (hentry : answers.entry (trailPath root (name :: trail)) (.ok entry))
      (hlink : entry.isLink = true) (hroom : expansions < maxExpansions)
      (htarget : answers.target (trailPath root (name :: trail)) (.ok target))
      (habsolute : target.isAbsolute = true) (hinside : target.inside? root = some inside)
      (hfile : entry.isDirectory = false) :
      Stop answers root path ⟨trail, expansions, .name name :: rest⟩
        [.inspected (trailPath root (name :: trail)) (.ok entry),
          .targetRead (trailPath root (name :: trail)) (.ok target),
          .expanded (trailPath root (name :: trail)) target (expansions + 1), .kept inside]
        (.ok ⟨root, inside, expansions + 1, true⟩)

/-- The runs from a state that some answers lead to. -/
inductive LeadsTo (answers : Answers) (root path : Path) : State → Run → Prop where
  | stop {state events outcome} (hstop : Stop answers root path state events outcome) :
      LeadsTo answers root path state ⟨events, outcome⟩
  | move {state events next run} (hmove : Move answers root state events next)
      (hrest : LeadsTo answers root path next run) :
      LeadsTo answers root path state (run.after events)

/-- Whatever monad a lookup answers in, a walk makes one of the runs that its
answers lead to. Nothing is asked of how one answer depends on another. -/
theorem walk_leadsTo {m : Type → Type} {shape : PostShape.{0}} [Monad m] [WPMonad m shape]
    (lookup : Lookup m) (answers : Answers)
    (hinspect : ∀ p, ⦃⌜True⌝⦄ lookup.inspect p ⦃⇓ answer => ⌜answers.entry p answer⌝⦄)
    (htarget : ∀ p, ⦃⌜True⌝⦄ lookup.target p ⦃⇓ answer => ⌜answers.target p answer⌝⦄)
    (root path : Path) (trail : List Name) (expansions : Nat) (pending : List Component) :
    ⦃⌜True⌝⦄ walk lookup root path trail expansions pending
      ⦃⇓ run => ⌜LeadsTo answers root path ⟨trail, expansions, pending⟩ run⌝⦄ := by
  induction trail, expansions, pending using walk.induct root with
  | case1 trail expansions =>
    rw [walk]
    mvcgen
    exact SPred.pure_intro (.stop .arrive)
  | case2 trail expansions rest ih =>
    rw [walk]
    mvcgen [ih]
    exact SPred.pure_mono (.move (.stay (.inl rfl)))
  | case3 trail expansions rest ih =>
    rw [walk]
    mvcgen [ih]
    exact SPred.pure_mono (.move (.stay (.inr rfl)))
  | case4 expansions rest name outer ih =>
    rw [walk]
    mvcgen [ih]
    exact SPred.pure_mono (.move .leave)
  | case5 expansions rest ih =>
    rw [walk]
    mvcgen [ih]
    rename_i run hrest
    exact SPred.pure_intro (.move .clamp hrest)
  | case6 trail expansions name rest ihenter ihrestart ihfollow =>
    rw [walk]
    mvcgen [hinspect, htarget, ihenter, ihrestart, ihfollow]
    -- nothing there, a failed question, no link, a link too many
    · rename_i e hanswer habsent hentry run hrest
      subst hanswer
      exact SPred.pure_intro (.move (.enter hentry habsent) hrest)
    · rename_i e hanswer hpresent hentry
      subst hanswer
      exact SPred.pure_intro (.stop (.refuse hentry (by simpa using hpresent)))
    · rename_i entry hanswer hplain hentry run hrest
      subst hanswer
      exact SPred.pure_intro (.move (.enter hentry (by simpa [Passable] using hplain)) hrest)
    · rename_i entry hanswer hlink hfull hentry
      subst hanswer
      exact SPred.pure_intro (.stop (.giveUp hentry (by simpa using hlink) hfull))
    -- a link: not readable, taken as it stands, followed from the root or from where it lies
    · rename_i entry hanswer hlink hroom hentry _ _ e hread htarget
      subst hanswer hread
      exact SPred.pure_intro
        (.stop (.unread hentry (by simpa using hlink) (by simpa using hroom) htarget))
    · rename_i entry hanswer hlink hroom hentry _ _ target hread _ habsolute inside hinside htarget
      subst hanswer hread
      have hkept : entry.isDirectory = false ∧ target.inside? root = some inside := by
        split at hinside
        · cases hinside
        · rename_i hfile
          exact ⟨by simpa using hfile, hinside⟩
      exact SPred.pure_intro (.stop (.keep hentry (by simpa using hlink) (by simpa using hroom)
        htarget habsolute hkept.2 hkept.1))
    · rename_i entry hanswer hlink hroom hentry _ _ target hread _ habsolute houtside htarget run hrest
      subst hanswer hread
      have houtside : entry.isDirectory = true ∨ target.inside? root = none := by
        split at houtside
        · exact .inl ‹_›
        · exact .inr houtside
      exact SPred.pure_intro (.move
        (.restart hentry (by simpa using hlink) (by simpa using hroom) htarget habsolute houtside)
        hrest)
    · rename_i entry hanswer hlink hroom hentry _ _ target hread _ hrelative htarget run hrest
      subst hanswer hread
      exact SPred.pure_intro (.move
        (.follow hentry (by simpa using hlink) (by simpa using hroom) htarget
          (by simpa using hrelative)) hrest)

/-- A resolution whose lookup answers from a state of its own, so in any way and
differently each time, makes a run that some answers lead to. -/
theorem resolve_leadsTo_any {σ : Type} (lookup : Lookup (StateM σ)) (s : σ) (root path : Path) :
    LeadsTo .any root path (.start path) ((resolve lookup root path).run s).1 := by
  have hany {α : Type} (question : StateM σ α) : ⦃⌜True⌝⦄ question ⦃⇓ _ => ⌜True⌝⦄ := by
    apply Triple.of_entails_wp
    intro s _
    trivial
  have hwalk := walk_leadsTo lookup .any (fun _ => hany _) (fun _ => hany _)
    root path [] 0 path.components
  apply StateM.of_wp_run_eq rfl fun result => LeadsTo .any root path (.start path) result.1
  intro _
  exact Triple.iff.mp hwalk s trivial

/-- A resolution whose lookup answers by the path alone makes a run that these answers lead to. -/
theorem resolve_leadsTo_of (lookup : Lookup Id) (root path : Path) :
    LeadsTo (.of lookup) root path (.start path) (resolve lookup root path).run := by
  have hsame {α : Type} (question : Id α) : ⦃⌜True⌝⦄ question ⦃⇓ answer => ⌜answer = question⌝⦄ := by
    apply Triple.of_entails_wp
    intro _
    rfl
  have hwalk := walk_leadsTo lookup (.of lookup) (fun _ => hsame _) (fun _ => hsame _)
    root path [] 0 path.components
  exact Id.of_wp_run_eq rfl (LeadsTo (.of lookup) root path (.start path)) (Triple.iff.mp hwalk)

end TrustedRoot.Resolver
