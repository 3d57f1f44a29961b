import MarkupTemplate.Proofs.Markup.LexicalScopes

/-!
# The open tags of the builder

The names in the stack of open tags stand at the places of the working list where a start tag is still open, and
each of them opens one scope (`Builder.Aligned`). So an end tag that finds an open tag of its name closes it
(`Builder.closeTag_eq`), and one that is written as the innermost open start tag finds this one
(`Builder.Stacked.innermost`).
-/

namespace MarkupTemplate.Builder

theorem getElem?_reverse_cons {α : Type} (a : α) (as : List α) (i : Nat) :
    (a :: as).reverse[i]? = if i = as.length then some a else as.reverse[i]? := by
  rw [List.reverse_cons, List.getElem?_append, List.length_reverse]
  rcases Nat.lt_trichotomy i as.length with hlt | rfl | hgt
  · rw [if_pos hlt, if_neg hlt.ne]
  · simp
  · rw [if_neg hgt.not_gt, if_neg hgt.ne', List.getElem?_eq_none (Nat.sub_pos_of_lt hgt),
      List.getElem?_eq_none (by simpa using hgt.le)]

/-- The stack of open tags lists the open start tags of the working list with their names, the innermost first,
and every open tag opens a scope under the one below it. Places count from the oldest entry. -/
structure Aligned (b : Builder) : Prop where
  length : b.scopes.length = b.openTags.length + 1
  increasing : (b.openTags.reverse.map Prod.snd).Pairwise (· < ·)
  places : ∀ name position, (name, position) ∈ b.openTags ↔
    ∃ start, b.entries.reverse[position]? = some (.openTag start) ∧ start.name = name
  root : b.scopes.reverse[0]? = some .root
  opened : ∀ i name position, b.openTags.reverse[i]? = some (name, position) → ∃ start scope,
    b.entries.reverse[position]? = some (.openTag start) ∧ b.scopes.reverse[i]? = some scope ∧
      b.scopes.reverse[i + 1]? = some (scope.inside start)

namespace Aligned

variable {entries : List Entry} {openTags : List (QName × Nat)} {scope : NamespaceScope}
  {scopes : List NamespaceScope} {name : QName} {position : Nat}

theorem lt_length (h : Aligned ⟨entries, openTags, scopes⟩) (hp : (name, position) ∈ openTags) :
    position < entries.length := by
  obtain ⟨start, hstart, -⟩ := (h.places name position).1 hp
  simpa using (List.getElem?_eq_some_iff.1 hstart).1

theorem initial : Aligned ⟨[], [], [.root]⟩ where
  length := rfl
  increasing := .nil
  places name position := by simp
  root := rfl
  opened i name position h := by simp at h

/-- A finished node opens nothing. -/
theorem node (h : Aligned ⟨entries, openTags, scopes⟩) (n : Node) :
    Aligned ⟨.node n :: entries, openTags, scopes⟩ := by
  have hsame (position : Nat) (start : StartTag) :
      (Entry.node n :: entries).reverse[position]? = some (.openTag start) ↔
        entries.reverse[position]? = some (.openTag start) := by
    rw [getElem?_reverse_cons]
    split
    · next hp => simp [hp]
    · exact Iff.rfl
  refine ⟨h.length, h.increasing, fun name position => ?_, h.root, fun i name position hi => ?_⟩
  · simp only [hsame]
    exact h.places name position
  · simp only [hsame]
    exact h.opened i name position hi

/-- A start tag is open at its own place, behind all others, and opens a scope under the innermost one. -/
theorem openTag (h : Aligned ⟨entries, openTags, scope :: scopes⟩) (start : StartTag) :
    Aligned ⟨.openTag start :: entries, (start.name, entries.length) :: openTags,
      scope.inside start :: scope :: scopes⟩ := by
  have hlength : scopes.length = openTags.length := Nat.succ.inj h.length
  refine ⟨?_, ?_, fun name position => ?_, ?_, fun i name position hi => ?_⟩
  · simp [hlength]
  · show (((start.name, entries.length) :: openTags).reverse.map Prod.snd).Pairwise (· < ·)
    rw [List.reverse_cons, List.map_append, List.pairwise_append]
    refine ⟨h.increasing, List.pairwise_singleton .., fun position hp last hlast => ?_⟩
    obtain ⟨⟨name, position⟩, hmem, rfl⟩ := List.mem_map.1 hp
    rw [List.mem_singleton.1 hlast]
    exact h.lt_length (List.mem_reverse.1 hmem)
  · show (name, position) ∈ (start.name, entries.length) :: openTags ↔ _
    rw [List.mem_cons, Prod.mk.injEq, getElem?_reverse_cons]
    by_cases hp : position = entries.length
    · have hnew : (name, position) ∉ openTags := fun hold => (h.lt_length hold).ne hp
      simp [hp, hp ▸ hnew, eq_comm]
    · simpa [hp] using h.places name position
  · show (scope.inside start :: scope :: scopes).reverse[0]? = some .root
    rw [getElem?_reverse_cons, if_neg (by simp)]
    exact h.root
  · dsimp only at hi ⊢
    rw [getElem?_reverse_cons] at hi
    split at hi
    · next hlast =>
      cases hi
      refine ⟨start, scope, ?_, ?_, ?_⟩
      · rw [getElem?_reverse_cons, if_pos rfl]
      · rw [getElem?_reverse_cons, if_neg (by simp [hlast, hlength]), getElem?_reverse_cons,
          if_pos (hlast.trans hlength.symm)]
      · rw [getElem?_reverse_cons, if_pos (by simp [hlast, hlength])]
    · have hp : position < entries.length := h.lt_length (List.mem_reverse.1 (List.mem_of_getElem? hi))
      have hlt : i < openTags.length := by simpa using (List.getElem?_eq_some_iff.1 hi).1
      obtain ⟨first, outer, hfirst, houter, hinner⟩ := h.opened i name position hi
      refine ⟨first, outer, ?_, ?_, ?_⟩
      · rwa [getElem?_reverse_cons, if_neg hp.ne]
      · rwa [getElem?_reverse_cons, if_neg (by simp [hlength]; omega)]
      · rwa [getElem?_reverse_cons, if_neg (by simp [hlength]; omega)]

end Aligned

/-- What is stacked for a working list is aligned with it. -/
theorem Stacked.aligned {entries : List Entry} {openTags : List (QName × Nat)} {scopes : List NamespaceScope}
    (h : Stacked entries openTags scopes) : Aligned ⟨entries, openTags, scopes⟩ := by
  induction h with
  | root => exact .initial
  | node _ _ ih => exact ih.node _
  | openTag _ _ ih => exact ih.openTag _

/-! ### End tags -/

variable {b : Builder} {token rawName : Token} {name : QName}

/-- An end tag closes the first open tag of its name. -/
theorem closeTag_eq {scope outer : NamespaceScope} {outermost : List NamespaceScope}
    {passed openTags : List (QName × Nat)} {inside before : List Entry} {start : StartTag}
    (hscopes : b.scopes = scope :: outer :: outermost) (hraw : token.tagName? = some rawName)
    (hname : resolveName scope rawName = .ok name)
    (hopen : b.openTags = passed ++ (name, before.length) :: openTags) (hpassed : ∀ p ∈ passed, p.1 ≠ name)
    (hentries : b.entries = inside ++ .openTag start :: before) :
    b.closeTag token = .ok {
      entries := .node (.element start (inside.reverse.map Entry.toNode)
        (some ⟨name, rawName.text, token.text, token.location⟩)) :: before
      openTags
      scopes := (outer :: outermost).drop ((outer :: outermost).length - (openTags.length + 1)) } := by
  have hfound : b.openTags.dropWhile (·.1 != name) = (name, before.length) :: openTags := by
    rw [hopen, List.dropWhile_append_of_pos fun p hp => by simpa using hpassed p hp]
    simp
  have hinside : (inside ++ .openTag start :: before).length - (before.length + 1) = inside.length := by
    rw [List.length_append, List.length_cons, Nat.add_sub_cancel]
  unfold closeTag
  simp only [hscopes, hraw, hname, hfound, hinside, hentries, List.drop_left, List.take_left, bind, Except.bind]
  rfl

/-- An end tag is taken if some open tag has its name. -/
theorem IsScoped.closeTag_of_mem (h : b.IsScoped) (hraw : token.tagName? = some rawName)
    (hname : resolveName b.scope rawName = .ok name) (hopen : ∃ p ∈ b.openTags, p.1 = name) :
    ∃ b', b.closeTag token = .ok b' := by
  obtain ⟨⟨found, position⟩, hfind⟩ : ∃ p, b.openTags.find? (·.1 == name) = some p :=
    Option.isSome_iff_exists.1 (List.find?_isSome.2 (by simpa using hopen))
  obtain ⟨hfound, passed, openTags, hsplit, hpassed⟩ := List.find?_eq_some_iff_append.1 hfind
  obtain rfl : found = name := by simpa using hfound
  have hstacked := h.stacked
  rw [hsplit] at hstacked
  obtain ⟨inside, start, before, inner, scope, outer, hentries, rfl, -, hscopes, -⟩ := hstacked.cut
  obtain ⟨last, next, rest, hlast⟩ : ∃ last next rest, b.scopes = last :: next :: rest := by
    rw [hscopes]
    rcases inner with _ | ⟨first, _ | ⟨second, inner⟩⟩
    all_goals exact ⟨_, _, _, rfl⟩
  rw [Builder.scope, hlast] at hname
  exact ⟨_, closeTag_eq hlast hraw hname hsplit (fun p hp => by simpa using hpassed p hp) hentries⟩

/-- An end tag is not expected if no open tag has its name. -/
theorem closeTag_of_not_mem (hraw : token.tagName? = some rawName)
    (hname : resolveName b.scope rawName = .ok name)
    (hopen : ∀ p ∈ b.openTags, p.1 ≠ name) :
    b.closeTag token = .error ⟨.unexpectedEndTag, token.location, token.text⟩ := by
  unfold closeTag scope at *
  dsimp only
  split
  · next scope outer outermost hscopes =>
    have hnone : b.openTags.dropWhile (·.1 != name) = [] := by
      rw [List.dropWhile_eq_nil_iff]
      simpa using hopen
    rw [hscopes] at hname
    simp only [List.head?_cons, Option.getD_some] at hname
    simp only [hraw, hname, hnone, bind, Except.bind]
  · rfl

/-- The innermost open start tag is the first open tag, and opens the innermost scope. -/
theorem Stacked.innermost {inside before : List Entry} {start : StartTag} {openTags : List (QName × Nat)}
    {scopes : List NamespaceScope} (h : Stacked (inside ++ .openTag start :: before) openTags scopes)
    (hinside : ∀ other, .openTag other ∉ inside) : ∃ rest scope outer,
      openTags = (start.name, before.length) :: rest ∧ scopes = scope.inside start :: scope :: outer ∧
        Stacked before rest (scope :: outer) := by
  induction inside with
  | nil =>
    cases h with
    | openTag _ h => exact ⟨_, _, _, rfl, rfl, h⟩
  | cons e inside ih =>
    cases h with
    | node _ h => exact ih h fun other hother => hinside other (List.mem_cons_of_mem _ hother)
    | @openTag _ _ _ _ other => exact absurd (List.mem_cons_self ..) (hinside other)

/-- An end tag that is written as the innermost open start tag closes it, with everything behind it inside. -/
theorem IsScoped.closeTag_innermost (h : b.IsScoped) {inside before : List Entry} {start : StartTag}
    (hentries : b.entries = inside ++ .openTag start :: before) (hinside : ∀ other, .openTag other ∉ inside)
    (hraw : token.tagName? = some rawName) (hname : rawName.text = start.rawName) : b.closeTag token = .ok {
      entries := .node (.element start (inside.reverse.map Entry.toNode)
        (some ⟨start.name, rawName.text, token.text, token.location⟩)) :: before
      openTags := b.openTags.tail
      scopes := b.scopes.tail } := by
  have hstacked := h.stacked
  rw [hentries] at hstacked
  obtain ⟨rest, scope, outer, hopen, hscopes, hbefore⟩ := hstacked.innermost hinside
  -- the start tag's name was resolved in the scope that is innermost now
  have hresolves := h.resolves
  rw [nodes_of_entries hentries] at hresolves
  have hstart := (Node.allResolveIn_cons.1 (Node.allResolveIn_append.1 hresolves).2).1
  rw [← hbefore.head_scopes] at hstart
  have htag := (Node.resolvesIn_element.1 hstart).1.tag
  have hresolve : resolveName (scope.inside start) rawName = .ok start.name := by
    rw [resolveName, hname]
    simp only [List.head?_cons, Option.getD_some] at htag
    rw [htag]
  have hfirst : b.openTags = [] ++ (start.name, before.length) :: rest := hopen
  rw [closeTag_eq hscopes hraw hresolve hfirst (by simp) hentries, hopen, hscopes, List.tail_cons,
    List.tail_cons, hbefore.length_scopes, Nat.sub_self, List.drop_zero]

/-- While tokens are read, those of a source or any others, the open tags are the open start tags of the working list
and open the scopes above the root, one each. So an end tag is taken if its name is that of an open tag, it is
unexpected if it has the name of none, and if it is written as the innermost open start tag, it closes this one. -/
theorem aligned_run {tokens : List Token} (h : tokens.foldlM step .initial = .ok b) :
    b.Aligned ∧
    (∀ token rawName name, token.kind = .endTag → token.tagName? = some rawName →
      resolveName b.scope rawName = .ok name →
        ((∃ p ∈ b.openTags, p.1 = name) → ∃ b', b.step token = .ok b') ∧
          ((∀ p ∈ b.openTags, p.1 ≠ name) →
            b.step token = .error ⟨.unexpectedEndTag, token.location, token.text⟩)) ∧
    ∀ token rawName inside start before, token.kind = .endTag → token.tagName? = some rawName →
      b.entries = inside ++ .openTag start :: before → (∀ other, .openTag other ∉ inside) →
        rawName.text = start.rawName → b.step token = .ok {
          entries := .node (.element start (inside.reverse.map Entry.toNode)
            (some ⟨start.name, rawName.text, token.text, token.location⟩)) :: before
          openTags := b.openTags.tail
          scopes := b.scopes.tail } := by
  have hscoped := isScoped_run h
  have hstep {token : Token} (hk : token.kind = .endTag) : b.step token = b.closeTag token := by
    rw [step, hk]
  refine ⟨hscoped.stacked.aligned, fun token rawName name hk hraw hname => ?_,
    fun token rawName inside start before hk hraw hentries hinside hname => ?_⟩
  · rw [hstep hk]
    exact ⟨hscoped.closeTag_of_mem hraw hname, closeTag_of_not_mem hraw hname⟩
  · rw [hstep hk]
    exact hscoped.closeTag_innermost hentries hinside hraw hname

/-- Elements of which the inner one declares a prefix anew; two start tags have no end tag. -/
def nestedPrefixes : String :=
  "<x:a xmlns:x=\"urn:1\"><br><x:b xmlns:x=\"urn:2\">t<i></x:b></x:a>"

/-- The node that was read last, the open start tag before it, and what stands before that. -/
def lastInside? (b : Builder) : Option (Node × StartTag × List Entry) :=
  match b.entries with
  | .node n :: .openTag start :: before => some (n, start, before)
  | _ => none

theorem lastInside?_eq_some {n : Node} {start : StartTag} {before : List Entry}
    (h : b.lastInside? = some (n, start, before)) : b.entries = [.node n] ++ .openTag start :: before := by
  unfold lastInside? at h
  split at h
  · next hentries =>
    cases h
    exact hentries
  · cases h

/-- The end tag of the inner element closes it before the start tag in it is read, and is taken afterwards. -/
theorem aligned_run_nestedPrefixes : ∃ b later closing rawName n start before b',
    ((Token.scan nestedPrefixes none).take 4).foldlM step .initial = .ok b ∧ b.Aligned ∧
    ((Token.scan nestedPrefixes none).take 5).foldlM step .initial = .ok later ∧ later.Aligned ∧
    (Token.scan nestedPrefixes none)[5]? = some closing ∧ closing.tagName? = some rawName ∧
    b.step closing = .ok {
      entries := .node (.element start [n]
        (some ⟨start.name, rawName.text, closing.text, closing.location⟩)) :: before
      openTags := b.openTags.tail
      scopes := b.scopes.tail } ∧
    later.step closing = .ok b' := by
  have hfacts : (((Token.scan nestedPrefixes none).take 4).foldlM step .initial).toOption.any fun b =>
      (((Token.scan nestedPrefixes none).take 5).foldlM step .initial).toOption.any fun later =>
        (Token.scan nestedPrefixes none)[5]?.any fun closing => closing.tagName?.any fun rawName =>
          b.lastInside?.any fun (_, start, _) => closing.kind = .endTag ∧ rawName.text = start.rawName ∧
            (resolveName later.scope rawName).toOption.any fun name => later.openTags.any (·.1 = name) := by
    decide +kernel
  simp only [Option.any_eq_true, Prod.exists, decide_eq_true_eq, List.any_eq_true] at hfacts
  obtain ⟨b, hb, later, hlater, closing, hclosing, rawName, hraw, n, start, before, hinside, hk, hname,
    name, hresolve, found, position, hp, hopen⟩ := hfacts
  have hb := eq_ok_of_toOption hb
  have hlater := eq_ok_of_toOption hlater
  obtain ⟨haligned, -, hinnermost⟩ := aligned_run hb
  obtain ⟨halignedLater, htaken, -⟩ := aligned_run hlater
  obtain ⟨b', hb'⟩ := (htaken closing rawName name hk hraw (eq_ok_of_toOption hresolve)).1 ⟨_, hp, hopen⟩
  exact ⟨b, later, closing, rawName, n, start, before, b', hb, haligned, hlater, halignedLater, hclosing, hraw,
    hinnermost closing rawName [.node n] start before hk hraw (lastInside?_eq_some hinside) (by simp) hname, hb'⟩

end MarkupTemplate.Builder
