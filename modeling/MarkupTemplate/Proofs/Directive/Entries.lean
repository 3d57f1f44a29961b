import MarkupTemplate.Directive.Arguments
import MarkupTemplate.Directive.Entries
import MarkupTemplate.Proofs.Results
import MarkupTemplate.Proofs.Text.Blanks

/-!
# Entries of an argument

A definition, a loop, a parameter or an attribute that has been read has the name and the expression that stand in
its entry. Entries are written behind each other with semicolons and blanks between them and every semicolon inside of
them doubled. They are read back as they were, whatever semicolons stand at their ends (`splitEntries_joinEntries`), and
whatever is read is an entry that can be written so (`entries_lossless`). So an argument without the entries for one
name computes the other attributes of the whole one (`Directive.computedAttributes_withoutEntries`).
-/

/-! ## What has been read -/

namespace MarkupTemplate

namespace Directive

variable {location : Location} {argument entry : String}

theorem definition_ok {d : Definition} (h : definition location entry = .ok d) :
    ∃ written rest, name .definedVariable written = .ok d.name ∧ expression rest location = .ok d.value := by
  unfold definition at h
  dsimp only at h
  obtain ⟨n, hn, h⟩ := bind_eq_ok.1 h
  -- The first split is on the word in front of the name, the second on what stands behind it.
  split at h
  all_goals
    split at h
    · cases h
    · obtain ⟨e, he, h⟩ := bind_eq_ok.1 h
      cases h
      exact ⟨_, _, hn, he⟩

theorem loop_ok {l : String × LocatedExpression} (h : loop argument location = .ok l) :
    ∃ written rest, name .loopVariable written = .ok l.1 ∧ expression rest location = .ok l.2 := by
  unfold loop at h
  dsimp only at h
  obtain ⟨n, hn, h⟩ := bind_eq_ok.1 h
  split at h
  · cases h
  · obtain ⟨e, he, h⟩ := bind_eq_ok.1 h
    cases h
    exact ⟨_, _, hn, he⟩

theorem parameter_ok {p : Parameter} (h : parameter location entry = .ok p) :
    ∃ written, name .parameter written = .ok p.name := by
  unfold parameter at h
  dsimp only at h
  split at h
  · cases h
  · obtain ⟨n, hn, h⟩ := bind_eq_ok.1 h
    split at h
    · cases h
      exact ⟨_, hn⟩
    · obtain ⟨e, -, h⟩ := bind_eq_ok.1 h
      cases h
      exact ⟨_, hn⟩

theorem computedAttribute_ok {a : ComputedAttribute} (h : computedAttribute location entry = .ok a) :
    a.name = String.ofList (firstWord entry.toList).1 ∧ ∃ rest, expression rest location = .ok a.value := by
  unfold computedAttribute at h
  dsimp only at h
  split at h
  · cases h
  split at h
  · cases h
  · obtain ⟨e, he, h⟩ := bind_eq_ok.1 h
    cases h
    exact ⟨rfl, _, he⟩

end Directive

end MarkupTemplate

/-! ## Writing entries -/

namespace MarkupTemplate

open Text

/-- The characters of an entry with its semicolons doubled. -/
def doubled (cs : List Char) : List Char :=
  cs.flatMap fun c => if c = ';' then [';', ';'] else [c]

/-- Entries behind each other, with semicolons and blanks between them. -/
def joinEntriesFrom : List (List Char) → List Char
  | [] => []
  | [e] => doubled e
  | e :: es => doubled e ++ ';' :: ' ' :: joinEntriesFrom es

/-- An argument with these entries. -/
def joinEntries (entries : List String) : String :=
  String.ofList (joinEntriesFrom (entries.map String.toList))

theorem splitEntriesFrom_doubled (cs rest part : List Char) :
    splitEntriesFrom part (doubled cs ++ rest) = splitEntriesFrom (cs.reverse ++ part) rest := by
  induction cs generalizing part with
  | nil => rfl
  | cons c cs ih =>
    rw [doubled, List.flatMap_cons, ← doubled, List.append_assoc, List.reverse_cons, List.append_assoc]
    split
    · next hc =>
      subst hc
      exact ih (';' :: part)
    · next hc =>
      rw [List.singleton_append, splitEntriesFrom]
      · exact ih (c :: part)
      · exact fun _ h _ => hc h
      · exact hc

theorem splitEntriesFrom_joinEntriesFrom (e : List Char) (es : List (List Char)) (part : List Char) :
    splitEntriesFrom part (joinEntriesFrom (e :: es)) = (part.reverse ++ e) :: es.map (' ' :: ·) := by
  induction es generalizing e part with
  | nil =>
    rw [joinEntriesFrom, ← List.append_nil (doubled e), splitEntriesFrom_doubled, splitEntriesFrom,
      List.reverse_append, List.reverse_reverse]
    rfl
  | cons e' es ih =>
    have hrest : splitEntriesFrom (e.reverse ++ part) (';' :: ' ' :: joinEntriesFrom (e' :: es)) =
        (e.reverse ++ part).reverse :: splitEntriesFrom [' '] (joinEntriesFrom (e' :: es)) := rfl
    rw [joinEntriesFrom, splitEntriesFrom_doubled, hrest, ih, List.reverse_append, List.reverse_reverse]
    · rfl
    · exact List.cons_ne_nil _ _

theorem trim_cons_blank (cs : List Char) : trim (' ' :: cs) = trim cs := rfl

/-- An entry has no blanks around it and is not empty. -/
theorem trim_of_mem_splitEntries {argument entry : String} (h : entry ∈ splitEntries argument) :
    trim entry.toList = entry.toList ∧ entry.toList ≠ [] := by
  obtain ⟨part, hpart, rfl⟩ := List.mem_map.1 h
  obtain ⟨hpart, hne⟩ := List.mem_filter.1 hpart
  obtain ⟨cs, -, rfl⟩ := List.mem_map.1 hpart
  rw [String.toList_ofList]
  exact ⟨trim_trim cs, by simpa using hne⟩

/-- Entries that are joined are the entries of what comes of it. -/
theorem splitEntries_joinEntries {entries : List String}
    (h : ∀ e ∈ entries, trim e.toList = e.toList ∧ e.toList ≠ []) :
    splitEntries (joinEntries entries) = entries := by
  cases entries with
  | nil => rfl
  | cons e es =>
    have htrim : (e.toList :: es.map ((' ' :: ·) ∘ String.toList)).map trim = (e :: es).map String.toList := by
      rw [List.map_cons, List.map_map, (h e List.mem_cons_self).1, List.map_cons]
      congr 1
      refine List.map_congr_left fun e he => ?_
      exact (trim_cons_blank _).trans (h e (List.mem_cons_of_mem _ he)).1
    have hnone : ((e :: es).map String.toList).filter (fun part => !part.isEmpty) = (e :: es).map String.toList := by
      refine List.filter_eq_self.2 fun part hpart => ?_
      obtain ⟨e, he, rfl⟩ := List.mem_map.1 hpart
      simpa using (h e he).2
    unfold splitEntries
    rw [joinEntries, String.toList_ofList, List.map_cons, splitEntriesFrom_joinEntriesFrom, List.map_map]
    dsimp only
    rw [List.reverse_nil, List.nil_append, htrim, hnone, List.map_map]
    exact List.map_id'' (fun _ => String.ofList_toList) _

/-! ### What an entry can be -/

/-- A text that is not empty and has no blank at either end. -/
structure IsEntry (e : String) : Prop where
  nonempty : e ≠ ""
  first : ∀ c ∈ e.toList.head?, isBlank c = false
  last : ∀ c ∈ e.toList.getLast?, isBlank c = false

theorem isEntry_iff {e : String} : IsEntry e ↔ trim e.toList = e.toList ∧ e.toList ≠ [] := by
  rw [trim_eq_self, ne_eq, String.toList_eq_nil_iff]
  exact ⟨fun h => ⟨⟨h.first, h.last⟩, h.nonempty⟩, fun ⟨⟨hfirst, hlast⟩, hne⟩ => ⟨hne, hfirst, hlast⟩⟩

/-- An entry with its semicolons doubled. -/
def doubledEntry (e : String) : String :=
  String.ofList (doubled e.toList)

theorem joinEntries_eq (entries : List String) :
    joinEntries entries = "; ".intercalate (entries.map doubledEntry) := by
  unfold joinEntries
  induction entries with
  | nil => rfl
  | cons e entries ih =>
    cases entries with
    | nil => simp [joinEntriesFrom, doubledEntry]
    | cons e' entries =>
      rw [List.map_cons, List.map_cons, joinEntriesFrom, String.ofList_append, String.ofList_cons, String.ofList_cons,
        ← List.map_cons, ih]
      · have hseparator : "; " = String.singleton ';' ++ String.singleton ' ' := rfl
        simp only [List.map_cons, String.intercalate_cons_cons, doubledEntry, hseparator, String.append_assoc]
      · exact List.cons_ne_nil _ _

/-- Doubling semicolons loses nothing: entries that are joined so are read back, as many as there are, and whatever
is read from any argument is an entry. -/
theorem entries_lossless :
    (∀ entries : List String, (∀ e ∈ entries, IsEntry e) →
      splitEntries ("; ".intercalate (entries.map doubledEntry)) = entries) ∧
    ∀ argument : String, ∀ e ∈ splitEntries argument, IsEntry e := by
  refine ⟨fun entries h => ?_, fun argument e he => isEntry_iff.2 (trim_of_mem_splitEntries he)⟩
  rw [← joinEntries_eq]
  exact splitEntries_joinEntries fun e he => isEntry_iff.1 (h e he)

theorem entries_lossless_semicolons :
    (∀ e ∈ [";", "a;", ";;b", "c"], IsEntry e) ∧ splitEntries ";;; a;;; ;;;;b; c" = [";", "a;", ";;b", "c"] := by
  have h : ∀ e ∈ [";", "a;", ";;b", "c"], IsEntry e := by
    simp only [List.forall_mem_cons, isEntry_iff]
    decide
  exact ⟨h, entries_lossless.1 _ h⟩

end MarkupTemplate

/-! ## Entries taken out -/

namespace MarkupTemplate

open Text

namespace Directive

/-- The attribute that an entry is for. -/
def entryName (entry : String) : String :=
  String.ofList (firstWord entry.toList).1

/-- An argument without the entries for an attribute. -/
def withoutEntries (name argument : String) : String :=
  joinEntries ((splitEntries argument).filter fun entry => entryName entry != name)

theorem name_of_computedAttribute {location : Location} {entry : String} {a : ComputedAttribute}
    (h : computedAttribute location entry = .ok a) : a.name = entryName entry :=
  (computedAttribute_ok h).1

/-- Without the entries for one attribute an argument computes the others. -/
theorem computedAttributes_withoutEntries {argument : String} {location : Location}
    {computed : List ComputedAttribute} (h : computedAttributes argument location = .ok computed) (name : String) :
    computedAttributes (withoutEntries name argument) location = .ok (computed.filter (·.name != name)) := by
  have hentries : splitEntries (withoutEntries name argument) =
      (splitEntries argument).filter fun entry => entryName entry != name :=
    splitEntries_joinEntries fun e he => trim_of_mem_splitEntries (List.mem_filter.1 he).1
  rw [computedAttributes, hentries]
  exact mapM_filter h fun entry a ha => by rw [name_of_computedAttribute ha]

end Directive

end MarkupTemplate
