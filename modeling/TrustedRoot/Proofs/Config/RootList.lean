import TrustedRoot.Config.Variables
import TrustedRoot.Proofs.Session
import TrustedRoot.Proofs.Text.Cutting

namespace TrustedRoot.Config

open Blank Session

variable {item before after : List Char}

/-- An item of a list of roots that gives a path to a name: neither what stands before
its first `=` nor what stands behind that is blank. -/
structure Gives (item before after : List Char) : Prop where
  split : item = before ++ '=' :: after
  first : '=' ∉ before
  before : isAllBlank before = false
  after : isAllBlank after = false

/-- A name and a path without the blanks around them. -/
def entry (before after : List Char) : String × Path :=
  (String.ofList (trim before), Path.ofString (String.ofList (trim after)))

/-- A blank item has no root. -/
theorem parseRoot_of_blank (hitem : isAllBlank item = true) : parseRoot item = .ok none := by
  simp [parseRoot, trim_eq_nil_iff.mpr hitem]

/-- Blanks are cut off before an item is split and again afterwards, and all that
comes of it is an item that is split first. -/
theorem parseRoot_of_split (hsplit : item = before ++ '=' :: after) (hfirst : '=' ∉ before) :
    parseRoot item =
      if trim before = [] ∨ trim after = [] then
        .error (.validation rootsVariable
          s!"Empty name or path in '{String.ofList (trim item)}'")
      else .ok (some (entry before after)) := by
  have hequals : isBlank '=' = false := by decide
  have hfront : '=' ∉ trimFront before := fun hmem => hfirst (mem_of_mem_trimFront hmem)
  have htrim : trim item = trimFront before ++ '=' :: trimBack after := by
    rw [hsplit, trim_append_cons hequals]
  simp [parseRoot, htrim, Split.splitFirst_append _ hfront, trim_trimFront, trim_trimBack, entry,
    Path.ofString, Utf8.encode]

/-- An item is read as what it gives. -/
theorem parseRoot_of_gives (hitem : Gives item before after) :
    parseRoot item = .ok (some (entry before after)) := by
  rw [parseRoot_of_split hitem.split hitem.first, if_neg]
  simp [trim_eq_nil_iff, hitem.before, hitem.after]

/-- Why an item of a list of roots is rejected: it has no `=`, or what stands before the
first one is blank, or what stands behind it. -/
inductive Faulty (item : List Char) : String → Prop
  | noEquals (hfilled : isAllBlank item = false) (hequals : '=' ∉ item) :
      Faulty item s!"Expected name=path, got '{String.ofList (trim item)}'"
  | halved {before after : List Char} (hsplit : item = before ++ '=' :: after)
      (hfirst : '=' ∉ before) (hblank : isAllBlank before = true ∨ isAllBlank after = true) :
      Faulty item s!"Empty name or path in '{String.ofList (trim item)}'"

/-- An item is rejected for its fault. -/
theorem parseRoot_of_faulty {message : String} (hitem : Faulty item message) :
    parseRoot item = .error (.validation rootsVariable message) := by
  cases hitem with
  | noEquals hfilled hequals =>
    have hblank : trim item ≠ [] := by simp [trim_eq_nil_iff, hfilled]
    have htrimmed : '=' ∉ trim item := fun hin => hequals (mem_of_mem_trim hin)
    simp [parseRoot, hblank, Split.splitFirst_eq_none htrimmed]
  | halved hsplit hfirst hblank =>
    refine (parseRoot_of_split hsplit hfirst).trans (if_pos ?_)
    simpa only [trim_eq_nil_iff] using hblank

/-- An item that is rejected is not blank, and it gives nothing. -/
theorem Faulty.not_gives {message : String} (hitem : Faulty item message) :
    isAllBlank item = false ∧ ∀ before after, ¬ Gives item before after := by
  have hread := parseRoot_of_faulty hitem
  constructor
  · rw [← Bool.not_eq_true]
    intro hblank
    simp [parseRoot_of_blank hblank] at hread
  · intro before after hgives
    simp [parseRoot_of_gives hgives] at hread

/-- An item that is not blank and gives nothing has a fault. -/
theorem exists_faulty (hitem : isAllBlank item = false)
    (hgives : ∀ before after, ¬ Gives item before after) : ∃ message, Faulty item message := by
  by_cases hmem : '=' ∈ item
  · obtain ⟨before, after, hsplit, hfirst⟩ := List.eq_append_cons_of_mem hmem
    refine ⟨_, .halved hsplit hfirst ?_⟩
    by_contra hnot
    simp only [not_or, Bool.not_eq_true] at hnot
    exact hgives before after ⟨hsplit, hfirst, hnot.1, hnot.2⟩
  · exact ⟨_, .noEquals hitem hmem⟩

/-- An item says what it gives. -/
def Says (item : List Char) (root : String × Path) : Prop :=
  ∃ before after, Gives item before after ∧ root = entry before after

/-- The items that are not blank. -/
def filled (items : List (List Char)) : List (List Char) :=
  items.filter fun item => !isAllBlank item

private theorem filled_cons (item : List Char) (rest : List (List Char)) :
    filled (item :: rest) = filled [item] ++ filled rest := by
  rw [filled, filled, filled, ← List.filter_append, List.singleton_append]

private theorem parseRoot_cases (item : List Char) :
    (∃ root, parseRoot item = .ok root ∧ List.Forall₂ Says (filled [item]) root.toList) ∨
      ∃ message, Faulty item message := by
  cases hitem : isAllBlank item with
  | true => exact .inl ⟨none, parseRoot_of_blank hitem, by simp [filled, hitem]⟩
  | false =>
    by_cases hgives : ∃ before after, Gives item before after
    · obtain ⟨before, after, hgives⟩ := hgives
      have hsaid : Says item (entry before after) := ⟨before, after, hgives, rfl⟩
      exact .inl ⟨_, parseRoot_of_gives hgives, by simpa [filled, hitem] using hsaid⟩
    · have hnone (before after : List Char) : ¬ Gives item before after :=
        fun hitem => hgives ⟨before, after, hitem⟩
      exact .inr (exists_faulty hitem hnone)

/-- What a list of items says: one root for each item that is not blank, in order, unless
an item is rejected. Then the first such item tells why the whole list is. -/
inductive ItemsSay (items : List (List Char)) : Except Error (List (String × Path)) → Prop
  | faulty {front rest : List (List Char)} {item : List Char} {message : String}
      (hitems : items = front ++ item :: rest)
      (hfront : ∀ earlier ∈ front, ∀ message, ¬ Faulty earlier message)
      (hitem : Faulty item message) : ItemsSay items (.error (.validation rootsVariable message))
  | roots {roots : List (String × Path)} (hsaid : List.Forall₂ Says (filled items) roots) :
      ItemsSay items (.ok roots)

/-- A list of items is read as what it says. -/
theorem itemsSay_parseItems (items : List (List Char)) : ItemsSay items (parseItems items) := by
  induction items with
  | nil => exact .roots .nil
  | cons item rest ih =>
    rcases parseRoot_cases item with ⟨root, hread, hsaid⟩ | ⟨message, hitem⟩
    · have hnone (message : String) : ¬ Faulty item message := fun hitem => by
        simp [parseRoot_of_faulty hitem] at hread
      rw [parseItems, hread, ok_bind]
      generalize parseItems rest = said at ih
      cases ih with
      | faulty hitems hfront hbad =>
        exact .faulty (congrArg _ hitems) (List.forall_mem_cons.mpr ⟨hnone, hfront⟩) hbad
      | roots hmore =>
        refine .roots ?_
        rw [filled_cons]
        exact List.rel_append hsaid hmore
    · rw [parseItems, parseRoot_of_faulty hitem, error_bind]
      exact .faulty (List.nil_append _).symm (by simp) hitem

private theorem exists_said {items : List (List Char)} {roots : List (String × Path)}
    (hsaid : List.Forall₂ Says items roots) : ∀ item ∈ items, ∃ root, Says item root := by
  induction hsaid with
  | nil => simp
  | cons hfirst _ ih => exact List.forall_mem_cons.mpr ⟨⟨_, hfirst⟩, ih⟩

/-- An item says one root at most. -/
theorem says_rightUnique : Relator.RightUnique Says := by
  rintro item _ _ ⟨_, _, hgives, rfl⟩ ⟨_, _, hgives', rfl⟩
  have hread := (parseRoot_of_gives hgives).symm.trans (parseRoot_of_gives hgives')
  exact Option.some.inj (Except.ok.inj hread)

/-- Whatever a list of items says is what is read from it, the message included. -/
theorem itemsSay_iff {items : List (List Char)} {said : Except Error (List (String × Path))} :
    ItemsSay items said ↔ parseItems items = said := by
  constructor
  · intro hsays
    cases hsays with
    | @faulty front rest item message hitems hfront hitem =>
      rw [hitems]
      clear hitems
      induction front with
      | nil => simp [parseItems, parseRoot_of_faulty hitem]
      | cons earlier front ih =>
        obtain ⟨hnone, hfront⟩ := List.forall_mem_cons.mp hfront
        rcases parseRoot_cases earlier with ⟨root, hread, _⟩ | ⟨message, hearlier⟩
        · simp [parseItems, hread, ih hfront]
        · exact absurd hearlier (hnone message)
    | roots hsaid =>
      have hread := itemsSay_parseItems items
      generalize parseItems items = said at hread
      cases hread with
      | roots hsaid' => exact congrArg _ (says_rightUnique.forall₂ hsaid' hsaid)
      | @faulty _ _ item _ hitems _ hitem =>
        obtain ⟨hfilled, hnone⟩ := hitem.not_gives
        have hmem : item ∈ filled items := List.mem_filter.mpr ⟨by simp [hitems], by simp [hfilled]⟩
        obtain ⟨_, before, after, hgives, _⟩ := exists_said hsaid item hmem
        exact absurd hgives (hnone before after)
  · rintro rfl
    exact itemsSay_parseItems items

section Listings

/-- A text that can stand in a list as it is. -/
structure Plain (text : String) : Prop where
  ne_empty : text ≠ ""
  trimmed : trim text.toList = text.toList
  no_comma : ',' ∉ text.toList

/-- The items in which names and paths are written: one for each pair, with blanks around
name and path, and any number of blank ones. -/
inductive Listing : List (String × String) → List (List Char) → Prop
  | nil : Listing [] []
  | blank {pairs : List (String × String)} {items : List (List Char)} {item : List Char} :
      isAllBlank item = true → Listing pairs items → Listing pairs (item :: items)
  | pair {pairs : List (String × String)} {items : List (List Char)} {name path : String}
      {b₁ b₂ b₃ b₄ : List Char} :
      Plain name → '=' ∉ name.toList → Plain path →
        isAllBlank b₁ = true → isAllBlank b₂ = true → isAllBlank b₃ = true → isAllBlank b₄ = true →
          Listing pairs items → Listing ((name, path) :: pairs)
            ((b₁ ++ name.toList ++ b₂ ++ '=' :: (b₃ ++ path.toList ++ b₄)) :: items)

variable {pairs : List (String × String)} {items : List (List Char)} {name path : String}

/-- A text that can stand in a list is what is left of it without the blanks around it. -/
theorem Plain.trim_padded {text : String} (htext : Plain text) {front back : List Char}
    (hfront : isAllBlank front = true) (hback : isAllBlank back = true) :
    trim (front ++ text.toList ++ back) = text.toList := by
  rw [Blank.trim_padded hfront hback, htext.trimmed]

private theorem Plain.isAllBlank_padded {text : String} (htext : Plain text)
    {front back : List Char} (hfront : isAllBlank front = true) (hback : isAllBlank back = true) :
    isAllBlank (front ++ text.toList ++ back) = false := by
  rw [← Bool.not_eq_true, ← trim_eq_nil_iff, htext.trim_padded hfront hback]
  simpa using htext.ne_empty

/-- An item of a listing is read as its pair. -/
theorem parseRoot_pair (hname : Plain name) (hequals : '=' ∉ name.toList) (hpath : Plain path)
    {b₁ b₂ b₃ b₄ : List Char} (h₁ : isAllBlank b₁ = true) (h₂ : isAllBlank b₂ = true)
    (h₃ : isAllBlank b₃ = true) (h₄ : isAllBlank b₄ = true) :
    parseRoot (b₁ ++ name.toList ++ b₂ ++ '=' :: (b₃ ++ path.toList ++ b₄)) =
      .ok (some (name, Path.ofString path)) := by
  have hnone {b : List Char} (hb : isAllBlank b = true) : '=' ∉ b :=
    not_mem_of_isAllBlank (by decide) hb
  have hgives : Gives (b₁ ++ name.toList ++ b₂ ++ '=' :: (b₃ ++ path.toList ++ b₄))
      (b₁ ++ name.toList ++ b₂) (b₃ ++ path.toList ++ b₄) :=
    ⟨rfl, by simp [hnone h₁, hnone h₂, hequals], hname.isAllBlank_padded h₁ h₂,
      hpath.isAllBlank_padded h₃ h₄⟩
  rw [parseRoot_of_gives hgives, entry, hname.trim_padded h₁ h₂, hpath.trim_padded h₃ h₄,
    String.ofList_toList, String.ofList_toList]

private theorem Listing.no_comma (hlisting : Listing pairs items) : ∀ item ∈ items, ',' ∉ item := by
  have hnone {b : List Char} (hb : isAllBlank b = true) : ',' ∉ b :=
    not_mem_of_isAllBlank (by decide) hb
  induction hlisting with
  | nil => simp
  | blank hitem _ ih => exact List.forall_mem_cons.mpr ⟨hnone hitem, ih⟩
  | pair hname _ hpath h₁ h₂ h₃ h₄ _ ih =>
    refine List.forall_mem_cons.mpr ⟨?_, ih⟩
    simp [hnone h₁, hnone h₂, hnone h₃, hnone h₄, hname.no_comma, hpath.no_comma]

/-- The items of a listing are read as its pairs. -/
theorem Listing.parseItems (hlisting : Listing pairs items) :
    parseItems items = .ok (pairs.map fun pair => (pair.1, Path.ofString pair.2)) := by
  induction hlisting with
  | nil => rfl
  | blank hitem _ ih => simp [Config.parseItems, parseRoot_of_blank hitem, ih]
  | pair hname hequals hpath h₁ h₂ h₃ h₄ _ ih =>
    rw [Config.parseItems, parseRoot_pair hname hequals hpath h₁ h₂ h₃ h₄, ih]
    rfl

/-- A listing is read back as its pairs. -/
theorem Listing.parseRoots (hlisting : Listing pairs items) :
    parseRoots (String.ofList ([','].intercalate items)) =
      .ok (pairs.map fun pair => (pair.1, Path.ofString pair.2)) := by
  rw [Config.parseRoots, String.toList_ofList]
  by_cases hne : items = []
  · -- No items at all make the empty text, which is one blank item.
    subst hne
    cases hlisting
    rfl
  · rw [Split.splitOn_intercalate hne hlisting.no_comma, hlisting.parseItems]

end Listings

/-- A text is a list of roots exactly if every item between its commas that is not blank
gives a path to a name. Then it says one root for each of these items, in order,
without the blanks around name and path; else it is rejected as a whole, whatever
the other items say. What is written by these rules is read back as it was. -/
theorem parseRoots_grammar :
    (∀ text : String,
      ((∃ roots, parseRoots text = .ok roots) ↔
        ∀ item ∈ Split.splitOn ',' text.toList, isAllBlank item = false →
          ∃ before after, Gives item before after) ∧
      (∀ roots, parseRoots text = .ok roots →
        List.Forall₂ Says (filled (Split.splitOn ',' text.toList)) roots) ∧
      ∀ e, parseRoots text = .error e → ∃ message, e = .validation rootsVariable message) ∧
    ∀ pairs items, Listing pairs items →
      parseRoots (String.ofList ([','].intercalate items)) =
        .ok (pairs.map fun pair => (pair.1, Path.ofString pair.2)) := by
  refine ⟨fun text => ?_, fun pairs items hlisting => hlisting.parseRoots⟩
  rw [parseRoots]
  have hsays := itemsSay_parseItems (Split.splitOn ',' text.toList)
  generalize parseItems (Split.splitOn ',' text.toList) = said at hsays
  cases hsays with
  | roots hsaid =>
    refine ⟨⟨fun _ item hitem hfilled => ?_, fun _ => ⟨_, rfl⟩⟩, ?_, by simp⟩
    · have hmem : item ∈ filled (Split.splitOn ',' text.toList) :=
        List.mem_filter.mpr ⟨hitem, by simp [hfilled]⟩
      obtain ⟨_, before, after, hgives, _⟩ := exists_said hsaid item hmem
      exact ⟨before, after, hgives⟩
    · rintro _ ⟨⟩
      exact hsaid
  | faulty hitems _ hitem =>
    obtain ⟨hfilled, hnone⟩ := hitem.not_gives
    refine ⟨⟨by simp, fun hall => ?_⟩, by simp, ?_⟩
    · obtain ⟨before, after, hgives⟩ := hall _ (by simp [hitems]) hfilled
      exact absurd hgives (hnone before after)
    · rintro _ ⟨⟩
      exact ⟨_, rfl⟩

/-- Blanks and blank items do not show, and a path may hold a further `=`. -/
theorem parseRoots_grammar_spaced :
    let roots := [("a", Path.ofString "/x=y"), ("b", Path.ofString "/z")]
    parseRoots " a = /x=y ,,b=/z" = .ok roots ∧
      List.Forall₂ Says (filled (Split.splitOn ',' " a = /x=y ,,b=/z".toList)) roots ∧
      ∃ items, Listing [("a", "/x=y"), ("b", "/z")] items ∧
        parseRoots (String.ofList ([','].intercalate items)) = .ok roots := by
  intro roots
  have hvalue : parseRoots " a = /x=y ,,b=/z" = .ok roots := by cbv
  have hlisting : Listing [("a", "/x=y"), ("b", "/z")]
      [[' '] ++ "a".toList ++ [' '] ++ '=' :: ([' '] ++ "/x=y".toList ++ [' ']), [],
        [] ++ "b".toList ++ [] ++ '=' :: ([] ++ "/z".toList ++ [])] := by
    refine .pair ⟨?_, ?_, ?_⟩ ?_ ⟨?_, ?_, ?_⟩ ?_ ?_ ?_ ?_
      (.blank rfl (.pair ⟨?_, ?_, ?_⟩ ?_ ⟨?_, ?_, ?_⟩ ?_ ?_ ?_ ?_ .nil))
    all_goals decide
  obtain ⟨hread, hwritten⟩ := parseRoots_grammar
  exact ⟨hvalue, (hread _).2.1 roots hvalue, _, hlisting, hwritten _ _ hlisting⟩

end TrustedRoot.Config
