import TrustedRoot.Proofs.Catalog.Following
import TrustedRoot.Proofs.Resolver.Discipline

namespace TrustedRoot

namespace Resolver

/-- An answer that fails no resolution: an entry or the word that there is none, and a target. -/
def Call.Answered : Call → Prop
  | .inspect _ answer => ∀ e, answer = .error e → e.meansAbsent = true
  | .target _ answer => ∃ found, answer = .ok found

/-- A lookup that serves the resolutions below a root. It fails below a way
without links only where there is nothing, and reads every link that it reports. -/
structure Serves (lookup : Lookup Id) (root : Path) : Prop where
  inspect : ∀ (n : Name) (trail : List Name), (∀ k ∈ n :: trail, ProperName k) →
    Settled lookup root trail → ∀ e, (lookup.inspect (trailPath root (n :: trail))).run = .error e →
      e.meansAbsent = true
  target : ∀ (q : Path) (entry : Entry), (lookup.inspect q).run = .ok entry →
    entry.isLink = true → ∃ found, (lookup.target q).run = .ok found

/-- An end that the limit alone can keep from being a success. -/
def Served (root path : Path) (result : Except Error Resolution) : Prop :=
  (∃ r, result = .ok r) ∨ result = .error (.symlinkLoop root path maxExpansions)

variable {answers : Answers} {lookup : Lookup Id} {root path : Path} {state next : State}
  {events : List Event} {result : Except Error Resolution} {run : Run}

private theorem answered_link (q : Path) (entry : Entry) (target : Path) :
    ∀ call ∈ [Call.inspect q (.ok entry), .target q (.ok target)], call.Answered := by
  simp [Call.Answered]

/-- A resolution goes on only after answers that do not fail it. -/
theorem Move.answered (hmove : Move answers root state events next) :
    ∀ call ∈ calls events, call.Answered := by
  obtain ⟨hcalls, _⟩ | ⟨name, answer, _, hpass, hcalls, _⟩ | ⟨name, entry, target, _, _, hcalls, _⟩ :=
    hmove.calls_cases
  · simp [hcalls]
  · rw [hcalls, List.forall_mem_singleton]
    intro e he
    rw [he] at hpass
    exact hpass
  · rw [hcalls]
    exact answered_link _ entry target

/-- A stop has no answer that fails the resolution, and but for the limit it is a success. -/
theorem Stop.answered (hstop : Stop (.of lookup) root path state events result)
    (hserves : Serves lookup root) (hvalid : state.Valid)
    (hsettled : Settled lookup root state.trail) :
    Served root path result ∧ ∀ call ∈ calls events, call.Answered := by
  cases hstop with
  | arrive => exact ⟨.inl ⟨_, rfl⟩, by simp⟩
  | refuse hentry hpresent =>
    have habsent := hserves.inspect _ _ hvalid.name_cons hsettled _ hentry.symm
    rw [hpresent] at habsent
    cases habsent
  | giveUp => exact ⟨.inr rfl, by simp [Event.call?, Call.Answered]⟩
  | unread hentry hlink _ htarget =>
    obtain ⟨found, hfound⟩ := hserves.target _ _ hentry.symm hlink
    rw [← htarget] at hfound
    cases hfound
  | keep => exact ⟨.inl ⟨_, rfl⟩, answered_link _ _ _⟩

/-- Nor has a whole run. -/
theorem LeadsTo.answered (hrun : LeadsTo (.of lookup) root path state run)
    (hserves : Serves lookup root) (hvalid : state.Valid)
    (hsettled : Settled lookup root state.trail) :
    Served root path run.outcome ∧ ∀ call ∈ calls run.events, call.Answered := by
  induction hrun with
  | stop hstop => exact hstop.answered hserves hvalid hsettled
  | move hmove _ ih =>
    obtain ⟨hserved, hmore⟩ := ih (hmove.valid hvalid) (hmove.settled hsettled)
    refine ⟨hserved, ?_⟩
    rw [Run.after, calls_append]
    exact List.forall_mem_append.mpr ⟨hmove.answered, hmore⟩

end Resolver

namespace Catalog

open Resolver (Settled Serves Served trailPath trailPath_eq_absolute asked)

variable {catalog : Catalog} {root : Path}

/-- What is taken for a link can be read: both questions find the same node. -/
theorem exists_target_of_inspect {q : Path} {entry : Entry} (hentry : catalog.inspect q = .ok entry)
    (hlink : entry.isLink = true) : ∃ found, catalog.target q = .ok found := by
  rw [inspect] at hentry
  cases hfind : catalog.find? q with
  | error e =>
    rw [hfind] at hentry
    cases hentry
  | ok found =>
    rw [hfind] at hentry
    cases hentry
    rcases found with _ | _ | _ | target
    · cases hlink
    · cases hlink
    · cases hlink
    · refine ⟨target, ?_⟩
      rw [Catalog.target, hfind]
      rfl

/-- The way down a settled trail is that to the root and then straight on, so only
the way to the root takes links. Where it fails, there is nothing. -/
theorem meansAbsent_of_descend (hfailures : catalog.failures = ∅) (hroot : root.isAbsolute = true)
    (htop : ∀ e, catalog.directory root.normalize = .error e → e.meansAbsent = true)
    {trail : List Name} (htrail : ∀ k ∈ trail, ProperName k)
    (hsettled : Settled catalog.lookup root trail) {e : IoError}
    (he : catalog.descend [] 0 ((root.place.names ++ trail.reverse).map .name) = .error e) :
    e.meansAbsent = true := by
  have hbase : ∀ k ∈ root.place.names, ProperName k := fun _ => Path.properName_of_mem_place
  have hnames := properNames_reverse htrail
  rw [List.map_append, descend_append] at he
  cases houter : catalog.descend [] 0 (root.place.names.map .name) with
  | error e' =>
    rw [houter] at he
    cases he
    apply htop
    rw [Path.normalize_of_isAbsolute hroot, directory_absolute catalog hbase, houter]
    rfl
  | ok spot =>
    have hpass : ∀ way, way ≠ [] → way <+: trail.reverse →
        Resolver.Passable (catalog.inspect (.absolute (root.place.names ++ way))) := by
      intro way hne hway
      have hproper : ∀ k ∈ way, ProperName k := fun k hk => hnames k (hway.subset hk)
      rw [← Path.confine_ofNames hroot hproper]
      exact hsettled.passable hne hway
    rw [houter] at he
    change catalog.descend spot.1 spot.2 (trail.reverse.map .name) = .error e at he
    rcases descend_passable hfailures (List.forall_mem_append.mpr ⟨hbase, hnames⟩) houter hpass
      with hdown | ⟨e', hfail, habsent⟩
    · rw [hdown] at he
      cases he
    · rw [hfail] at he
      cases he
      exact habsent

/-- An inspection below a settled trail fails for one reason: there is nothing. -/
theorem meansAbsent_of_inspect (hfailures : catalog.failures = ∅) (hroot : root.isAbsolute = true)
    (htop : ∀ e, catalog.directory root.normalize = .error e → e.meansAbsent = true) {n : Name}
    {trail : List Name} (hnames : ∀ k ∈ n :: trail, ProperName k)
    (hsettled : Settled catalog.lookup root trail) {e : IoError}
    (he : catalog.inspect (trailPath root (n :: trail)) = .error e) : e.meansAbsent = true := by
  have hbase : ∀ k ∈ root.place.names, ProperName k := fun _ => Path.properName_of_mem_place
  have hplace : trailPath root (n :: trail) =
      .absolute ((root.place.names ++ trail.reverse) ++ [n]) := by
    rw [trailPath_eq_absolute hroot hnames, List.reverse_cons, List.append_assoc]
  have hall : ∀ k ∈ (root.place.names ++ trail.reverse) ++ [n], ProperName k := by
    rw [List.append_assoc, ← List.reverse_cons]
    exact List.forall_mem_append.mpr ⟨hbase, properNames_reverse hnames⟩
  rw [hplace, inspect, find?_absolute_eq_bind hfailures hall] at he
  cases hway : catalog.descend [] 0 ((root.place.names ++ trail.reverse).map .name) with
  | error e' =>
    rw [hway] at he
    cases he
    exact meansAbsent_of_descend hfailures hroot htop (List.forall_mem_cons.mp hnames).2 hsettled
      hway
  | ok spot =>
    rw [hway, Except.bind] at he
    cases hnode : catalog.nodes[Path.absolute (n :: spot.1).reverse]? with
    | none =>
      rw [hnode] at he
      cases he
      rfl
    | some node =>
      rw [hnode] at he
      cases he

/-- A catalogue without failures set up serves every root that it leads to or that is not there. -/
theorem serves (hfailures : catalog.failures = ∅) (hroot : root.isAbsolute = true)
    (htop : ∀ e, catalog.directory root.normalize = .error e → e.meansAbsent = true) :
    Serves catalog.lookup root where
  inspect _ _ hnames hsettled _ he :=
    meansAbsent_of_inspect hfailures hroot htop hnames hsettled he
  target _ _ hentry hlink := exists_target_of_inspect hentry hlink

/-- Over a catalogue a resolution fails by its own limit and by nothing else. No
question on its way comes to the limit of the catalogue, though links of any kind
and number may stand below the root, and no link that is met is not read. Only the
way to the root itself must not be too long. -/
theorem resolve_fails_only_by_limit (hfailures : catalog.failures = ∅)
    (hroot : root.isAbsolute = true)
    (htop : ∀ e, catalog.directory root.normalize = .error e → e.meansAbsent = true) (path : Path) :
    ((∃ r, (Resolver.resolve catalog.lookup root path).run.outcome = .ok r) ∨
      (Resolver.resolve catalog.lookup root path).run.outcome =
        .error (.symlinkLoop root path Resolver.maxExpansions)) ∧
    (∀ q e, .inspect q (.error e) ∈ asked catalog.lookup root path →
      e.meansAbsent = true ∧ e ≠ tooManyLinks) ∧
    ∀ q answer, .target q answer ∈ asked catalog.lookup root path →
      ∃ found, answer = .ok found := by
  obtain ⟨hserved, hanswered⟩ := (Resolver.resolve_leadsTo_of catalog.lookup root path).answered
    (serves hfailures hroot htop) (.start path) (Resolver.settled_nil catalog.lookup root)
  rw [← Resolver.asked_eq_calls] at hanswered
  refine ⟨hserved, fun q e hcall => ?_, fun q answer hcall => hanswered _ hcall⟩
  have habsent := hanswered _ hcall e rfl
  refine ⟨habsent, ?_⟩
  rintro rfl
  cases habsent

/-- The root is a link, `up` leads out of it, and there is nothing at the end. -/
theorem resolve_annex_fails_only_by_limit :
    annex.directory (Path.ofString "/jail").normalize = .ok (.ofString "/srv/jail", 1) ∧
      ((∃ r, (Resolver.resolve annex.lookup (.ofString "/jail")
          (.ofString "up/../a/b/gone/x")).run.outcome = .ok r) ∨
        (Resolver.resolve annex.lookup (.ofString "/jail")
          (.ofString "up/../a/b/gone/x")).run.outcome =
          .error (.symlinkLoop (.ofString "/jail") (.ofString "up/../a/b/gone/x")
            Resolver.maxExpansions)) := by
  have htop : annex.directory (Path.ofString "/jail").normalize = .ok (.ofString "/srv/jail", 1) := by
    cbv
  have hreached : ∀ e, annex.directory (Path.ofString "/jail").normalize = .error e →
      e.meansAbsent = true := by
    intro e he
    rw [htop] at he
    cases he
  exact ⟨htop, (resolve_fails_only_by_limit rfl (by decide) hreached _).1⟩

end Catalog
end TrustedRoot
