import TrustedRoot.Log
import TrustedRoot.Lookup
import TrustedRoot.Path.Place

/-!
Resolution of an untrusted path below a root. The components are taken one by one; names that were
inspected and are no links make up the trail below the root; a link puts its target in front of what
is left. `..` stays at the root, an absolute target starts again at the root, and one that leads
into the root by its own spelling ends the resolution.
-/

namespace TrustedRoot

/-- A path resolved below a root. -/
structure Resolution where
  /-- The root as the caller spelled it. -/
  root : Path
  /-- The resolved path, root included. -/
  path : Path
  /-- How many links were followed. -/
  expansions : Nat
  /-- Whether an absolute target inside the root ended the resolution. -/
  shortCircuited : Bool
deriving DecidableEq, Repr

/-- The resolved path below the root, if it lies there by its spelling. -/
def Resolution.relative? (r : Resolution) : Option Path := r.path.stripPrefix? r.root.normalize

namespace Resolver

/-- How many links one resolution may follow. -/
def maxExpansions : Nat := 255

/-- What happens during a resolution, in order. -/
inductive Event
  /-- An entry was inspected. -/
  | inspected (path : Path) (answer : Except IoError Entry)
  /-- The target of a link was read. -/
  | targetRead (path : Path) (answer : Except IoError Path)
  /-- A `..` stayed at the root. -/
  | clamped (root : Path)
  /-- A link was followed; `count` links so far. -/
  | expanded (path target : Path) (count : Nat)
  /-- An absolute target inside the root was taken as the result. -/
  | kept (inside : Path)
  /-- An absolute target starts again at the root. -/
  | restarted (target : Path)
  /-- The limit was reached. -/
  | gaveUp (root path : Path)

/-- The message of an event for the log; the questions themselves are not logged. -/
def Event.record? : Event → Option Record
  | .inspected .. | .targetRead .. => none
  | .clamped root => some ⟨.trace, s!"clamped '..' at {root.display}"⟩
  | .expanded path target count =>
    some ⟨.trace, s!"expanding {path.display} -> {target.display} ({count}/{maxExpansions})"⟩
  | .kept inside => some ⟨.debug, s!"keeping root-prefixed target {inside.display}"⟩
  | .restarted target => some ⟨.debug, s!"absolute target {target.display} restarts at root"⟩
  | .gaveUp root path =>
    some ⟨.debug,
      s!"gave up on {path.display} under {root.display} after {maxExpansions} symlinks"⟩

/-- How a resolution went and how it ended. -/
structure Run where
  events : List Event
  outcome : Except Error Resolution

namespace Run

/-- A run that ends at once. -/
def ending (outcome : Except Error Resolution) : Run := ⟨[], outcome⟩

/-- The run with events in front. -/
def after (run : Run) (events : List Event) : Run := { run with events := events ++ run.events }

/-- The messages of a run for the log. -/
def records (run : Run) : List Record := run.events.filterMap Event.record?

end Run

/-- Follows the components that are `pending`. `trail` holds the names below the root that were
walked, innermost first. The run ends because each link takes one of the expansions that are left,
and everything else shortens the pending components. -/
def walk {m : Type → Type} [Monad m] (lookup : Lookup m) (root path : Path) (trail : List Name)
    (expansions : Nat) : List Component → m Run
  | [] => pure <| .ending <| .ok ⟨root, root.confine (.ofNames trail.reverse), expansions, false⟩
  | .root :: rest | .here :: rest => walk lookup root path trail expansions rest
  | .parent :: rest =>
    match trail with
    | _ :: outer => walk lookup root path outer expansions rest
    | [] => do
      let run ← walk lookup root path [] expansions rest
      pure (run.after [.clamped root])
  | .name n :: rest => do
    let full := root.confine (.ofNames (n :: trail).reverse)
    let answer ← lookup.inspect full
    let inspected := Event.inspected full answer
    match answer with
    | .error e =>
      if e.meansAbsent then
        let run ← walk lookup root path (n :: trail) expansions rest
        pure (run.after [inspected])
      else pure ⟨[inspected], .error (.lookup full e)⟩
    | .ok entry =>
      if !entry.isLink then
        let run ← walk lookup root path (n :: trail) expansions rest
        pure (run.after [inspected])
      else if maxExpansions ≤ expansions then
        pure ⟨[inspected, .gaveUp root path], .error (.symlinkLoop root path maxExpansions)⟩
      else
        let answer ← lookup.target full
        let read := Event.targetRead full answer
        match answer with
        | .error e => pure ⟨[inspected, read], .error (.lookup full e)⟩
        | .ok target =>
          let expanded := Event.expanded full target (expansions + 1)
          if target.isAbsolute then
            match if entry.isDirectory then none else target.inside? root with
            | some inside =>
              pure ⟨[inspected, read, expanded, .kept inside],
                .ok ⟨root, inside, expansions + 1, true⟩⟩
            | none =>
              let run ← walk lookup root path [] (expansions + 1) (target.components ++ rest)
              pure (run.after [inspected, read, expanded, .restarted target])
          else
            let run ← walk lookup root path trail (expansions + 1) (target.components ++ rest)
            pure (run.after [inspected, read, expanded])
termination_by pending => (maxExpansions - expansions, pending.length)
decreasing_by all_goals simp_wf; omega

/-- Resolves an untrusted path below a root. -/
def resolve {m : Type → Type} [Monad m] (lookup : Lookup m) (root path : Path) : m Run :=
  walk lookup root path [] 0 path.components

end Resolver
end TrustedRoot
