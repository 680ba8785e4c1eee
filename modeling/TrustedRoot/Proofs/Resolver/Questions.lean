import Mathlib
import TrustedRoot.Resolver

namespace TrustedRoot.Resolver

/-- A question that was put to a lookup, with its answer. -/
inductive Call
  | inspect (path : Path) (answer : Except IoError Entry)
  | target (path : Path) (answer : Except IoError Path)

namespace Call

def path : Call → Path
  | inspect path _ => path
  | target path _ => path

def isInspect : Call → Bool
  | inspect .. => true
  | target .. => false

def isTarget : Call → Bool
  | inspect .. => false
  | target .. => true

/-- The target that was read, if one was. -/
def read? : Call → Option Path
  | target _ (.ok found) => some found
  | _ => none

end Call

def Event.call? : Event → Option Call
  | .inspected path answer => some (.inspect path answer)
  | .targetRead path answer => some (.target path answer)
  | _ => none

/-- The questions among what happens, in order. -/
def calls (events : List Event) : List Call := events.filterMap Event.call?

@[simp] theorem calls_nil : calls [] = [] := rfl

@[simp] theorem calls_cons (event : Event) (more : List Event) :
    calls (event :: more) = event.call?.toList ++ calls more := by
  cases hcall : event.call? <;> simp [calls, hcall]

@[simp] theorem calls_append (front back : List Event) :
    calls (front ++ back) = calls front ++ calls back :=
  List.filterMap_append

section Noted

variable {m : Type → Type} [Monad m]

/-- The lookup that answers in the same way and writes down what it is asked. -/
def noted (lookup : Lookup m) : Lookup (StateT (List Call) m) where
  inspect p := do
    let answer ← lookup.inspect p
    modify (· ++ [.inspect p answer])
    pure answer
  target p := do
    let answer ← lookup.target p
    modify (· ++ [.target p answer])
    pure answer

variable [LawfulMonad m] (lookup : Lookup m)

private theorem run_inspect_noted (p : Path) (log : List Call) :
    ((noted lookup).inspect p).run log =
      (fun answer => (answer, log ++ [.inspect p answer])) <$> lookup.inspect p := by
  simp [noted]

private theorem run_target_noted (p : Path) (log : List Call) :
    ((noted lookup).target p).run log =
      (fun answer => (answer, log ++ [.target p answer])) <$> lookup.target p := by
  simp [noted]

/-- The events of a walk are true to the lookup: a lookup that writes down what
it is asked ends up with the questions among them, and the walk goes as before. -/
theorem run_walk_noted (root path : Path) (trail : List Name) (expansions : Nat)
    (pending : List Component) (log : List Call) :
    (walk (noted lookup) root path trail expansions pending).run log =
      (fun run => (run, log ++ calls run.events)) <$>
        walk lookup root path trail expansions pending := by
  induction trail, expansions, pending using walk.induct root generalizing log with
  | case1 trail expansions =>
    rw [walk, walk]
    simp [Run.ending]
  | case2 trail expansions rest ih | case3 trail expansions rest ih =>
    rw [walk, walk]
    exact ih log
  | case4 expansions rest name outer ih =>
    rw [walk, walk]
    exact ih log
  | case5 expansions rest ih =>
    rw [walk, walk]
    simp [ih, Run.after, Event.call?]
  | case6 trail expansions name rest ihenter ihrestart ihfollow =>
    rw [walk, walk]
    simp only [StateT.run_bind, run_inspect_noted, map_bind, bind_map_left]
    refine congrArg (lookup.inspect _ >>= ·) (funext fun answer => ?_)
    cases answer with
    | error e =>
      by_cases habsent : e.meansAbsent = true
      · simp [habsent, ihenter, Run.after, Event.call?]
      · simp [habsent, Event.call?]
    | ok entry =>
      by_cases hplain : entry.isLink = false
      · simp [hplain, ihenter, Run.after, Event.call?]
      · by_cases hfull : maxExpansions ≤ expansions
        · simp [hplain, hfull, Event.call?]
        · simp only [hplain, hfull, Bool.not_true, Bool.false_eq_true, if_false]
          simp only [StateT.run_bind, run_target_noted, map_bind, bind_map_left]
          refine congrArg (lookup.target _ >>= ·) (funext fun answer => ?_)
          cases answer with
          | error e => simp [Event.call?]
          | ok target =>
            by_cases habsolute : target.isAbsolute = true
            · simp only [habsolute, if_true]
              cases (if entry.isDirectory = true then none else target.inside? root) with
              | none => simp [ihrestart hfull, Run.after, Event.call?]
              | some inside => simp [Event.call?]
            · simp [habsolute, ihfollow hfull, Run.after, Event.call?]

end Noted

/-- What a lookup is asked during a resolution, with its answers, in order. -/
def asked (lookup : Lookup Id) (root path : Path) : List Call :=
  ((resolve (noted lookup) root path).run []).run.2

/-- The questions that a lookup is asked are those in the log. -/
theorem asked_eq_calls (lookup : Lookup Id) (root path : Path) :
    asked lookup root path = calls (resolve lookup root path).run.events := by
  rw [asked, resolve, run_walk_noted]
  rfl

end TrustedRoot.Resolver
