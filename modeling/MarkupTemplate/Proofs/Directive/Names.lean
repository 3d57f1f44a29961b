import MarkupTemplate.Proofs.Directive.Entries
import MarkupTemplate.Proofs.Expression.Paths

/-!
# Names that expressions can use

A name that a directive binds is an identifier. Without hyphens it is a variable, so as an expression it is that
variable, or the sentinel whose word it is, and with segments behind it a path that starts from the variable
(`Directive.names_read_back`). Identifiers may have hyphens and variables may not, so a name with one can be bound
and no path starts from it (`Directive.names_not_read_back`).
-/

namespace MarkupTemplate

open Text

theorem isRoot_of_isIdentifier {name : String} (h : isIdentifier name.toList) (hhyphen : '-' ∉ name.toList) :
    Path.IsRoot name := by
  cases hchars : name.toList with
  | nil => rw [hchars] at h; cases h
  | cons c cs =>
    rw [hchars] at h hhyphen
    obtain ⟨hc, hcs⟩ := Bool.and_eq_true_iff.1 h
    refine ⟨c, cs, hchars, hc, List.all_eq_true.2 fun d hd => ?_⟩
    have hd' := List.all_eq_true.1 hcs d hd
    have hne : d ≠ '-' := fun he => hhyphen (List.mem_cons_of_mem _ (he ▸ hd))
    simpa [Path.isRootChar, hne] using hd'

namespace Directive

variable {location : Location} {argument : String}

theorem isIdentifier_of_name {role : NameRole} {cs : List Char} {n : String} (h : name role cs = .ok n) :
    isIdentifier n.toList := by
  unfold name at h
  split at h
  · next hid =>
    cases h
    rwa [String.toList_ofList]
  · split at h <;> cases h

theorem isIdentifier_of_definitions {ds : List Definition} (h : definitions argument location = .ok ds) :
    ∀ d ∈ ds, isIdentifier d.name.toList := by
  intro d hd
  obtain ⟨entry, -, h⟩ := mem_of_mapM_ok h hd
  obtain ⟨written, rest, hn, -⟩ := definition_ok h
  exact isIdentifier_of_name hn

theorem isIdentifier_of_loop {l : String × LocatedExpression} (h : loop argument location = .ok l) :
    isIdentifier l.1.toList := by
  obtain ⟨written, rest, hn, -⟩ := loop_ok h
  exact isIdentifier_of_name hn

theorem isIdentifier_of_parameters {ps : List Parameter} (h : parameters argument location = .ok ps) :
    ∀ p ∈ ps, isIdentifier p.name.toList := by
  intro p hp
  obtain ⟨entry, -, h⟩ := mem_of_mapM_ok h hp
  obtain ⟨written, hn⟩ := parameter_ok h
  exact isIdentifier_of_name hn

theorem isIdentifier_of_imports : ∀ entry ∈ imports argument, entry.label ≠ "" → isIdentifier entry.label.toList := by
  intro entry he hlabel
  obtain ⟨text, -, rfl⟩ := List.mem_map.1 he
  unfold importEntry at hlabel ⊢
  split
  · next front rest hsplit =>
    rw [hsplit] at hlabel
    dsimp only at hlabel ⊢
    split
    · next hid =>
      rw [String.toList_ofList]
      exact (Bool.and_eq_true_iff.1 hid).1
    · next hid =>
      rw [if_neg hid] at hlabel
      exact absurd rfl hlabel
  · next hsplit =>
    rw [hsplit] at hlabel
    exact absurd rfl hlabel

/-- Names without hyphens can be read back. What is bound under one is reached by the name alone, unless it is the
word of a sentinel; the macros imported under one are reached by paths from it, whatever word it is. -/
theorem names_read_back (argument : String) (location : Location) :
    (∀ ds, definitions argument location = .ok ds → ∀ d ∈ ds, '-' ∉ d.name.toList →
      Expression.parse d.name = .ok (.ofName d.name)) ∧
    (∀ l, loop argument location = .ok l → '-' ∉ l.1.toList → Expression.parse l.1 = .ok (.ofName l.1)) ∧
    (∀ ps, parameters argument location = .ok ps → ∀ p ∈ ps, '-' ∉ p.name.toList →
      Expression.parse p.name = .ok (.ofName p.name)) ∧
    ∀ entry ∈ imports argument, entry.label ≠ "" → '-' ∉ entry.label.toList →
      ∀ (first : String) (more : List (Char × String)), Path.IsSegment first → Path.AreWritable more →
      Expression.parse (entry.label ++ "/macros/" ++ first ++ String.ofList (Path.written more)) =
        .ok (.path ⟨entry.label, "macros" :: first :: more.map (·.2)⟩) := by
  refine ⟨fun ds h d hd hhyphen => ?_, fun l h hhyphen => ?_, fun ps h p hp hhyphen => ?_,
    fun entry he hlabel hhyphen first more hfirst hmore => ?_⟩
  · exact Expression.parse_of_isRoot (isRoot_of_isIdentifier (isIdentifier_of_definitions h d hd) hhyphen)
  · exact Expression.parse_of_isRoot (isRoot_of_isIdentifier (isIdentifier_of_loop h) hhyphen)
  · exact Expression.parse_of_isRoot (isRoot_of_isIdentifier (isIdentifier_of_parameters h p hp) hhyphen)
  · have hroot := isRoot_of_isIdentifier (isIdentifier_of_imports entry he hlabel) hhyphen
    have hsegments : Path.AreWritable (('/', "macros") :: ('/', first) :: more) := by
      refine List.forall_mem_cons.2 ⟨⟨rfl, by decide, by decide⟩, List.forall_mem_cons.2 ⟨⟨rfl, hfirst⟩, hmore⟩⟩
    have htext : entry.label ++ "/macros/" ++ first ++ String.ofList (Path.written more) =
        entry.label ++ String.ofList (Path.written (('/', "macros") :: ('/', first) :: more)) := by
      apply String.toList_injective
      simp [Path.written]
    rw [htext, Expression.parse_of_segments hroot hsegments]
    rfl

theorem names_read_back_bound :
    (∃ ds, definitions "global naïve_1 2" default = .ok ds ∧ ∃ d ∈ ds, '-' ∉ d.name.toList ∧
      d.name = "naïve_1" ∧ Expression.parse d.name = .ok (.path ⟨"naïve_1", []⟩)) ∧
    (∃ l, loop "default xs" default = .ok l ∧ '-' ∉ l.1.toList ∧
      l.1 = "default" ∧ Expression.parse l.1 = .ok .default) ∧
    (∃ ps, parameters "int x; str y 7" default = .ok ps ∧ ∃ p ∈ ps, '-' ∉ p.name.toList ∧
      p.name = "y" ∧ Expression.parse p.name = .ok (.path ⟨"y", []⟩)) ∧
    imports "nothing: ui.pt" = [⟨"nothing", "ui.pt"⟩] ∧
    Expression.parse "nothing/macros/card.my-part" = .ok (.path ⟨"nothing", ["macros", "card", "my-part"]⟩) := by
  have hdefinitions : (definitions "global naïve_1 2" default).toOption.any (·.any (·.name = "naïve_1")) := by
    decide +kernel
  have hloop : (loop "default xs" default).toOption.any (·.1 = "default") := by decide +kernel
  have hparameters : (parameters "int x; str y 7" default).toOption.any (·.any (·.name = "y")) := by decide +kernel
  have himports : imports "nothing: ui.pt" = [⟨"nothing", "ui.pt"⟩] := by decide +kernel
  refine ⟨?_, ?_, ?_, himports, ?_⟩
  · obtain ⟨ds, hds, d, hd, hname⟩ := exists_mem_of_any hdefinitions
    have hhyphen : '-' ∉ d.name.toList := by rw [hname]; decide
    have hread := (names_read_back _ _).1 ds hds d hd hhyphen
    rw [hname] at hread
    exact ⟨ds, hds, d, hd, hhyphen, hname, by rw [hname]; exact hread⟩
  · obtain ⟨l, hl, hname⟩ := (Option.any_eq_true ..).1 hloop
    have hl := eq_ok_of_toOption hl
    have hname : l.1 = "default" := of_decide_eq_true hname
    have hhyphen : '-' ∉ l.1.toList := by rw [hname]; decide
    have hread := (names_read_back _ _).2.1 l hl hhyphen
    rw [hname] at hread
    exact ⟨l, hl, hhyphen, hname, by rw [hname]; exact hread⟩
  · obtain ⟨ps, hps, p, hp, hname⟩ := exists_mem_of_any hparameters
    have hhyphen : '-' ∉ p.name.toList := by rw [hname]; decide
    have hread := (names_read_back _ _).2.2.1 ps hps p hp hhyphen
    rw [hname] at hread
    exact ⟨ps, hps, p, hp, hhyphen, hname, by rw [hname]; exact hread⟩
  · have hentry : ⟨"nothing", "ui.pt"⟩ ∈ imports "nothing: ui.pt" := by rw [himports]; exact List.mem_cons_self
    have hmore : Path.AreWritable [('.', "my-part")] := List.forall_mem_singleton.2 ⟨rfl, by decide, by decide⟩
    exact (names_read_back _ default).2.2.2 _ hentry (by decide) (by decide) "card" [('.', "my-part")]
      ⟨by decide, by decide⟩ hmore

/-- A sentinel's word and a name with a hyphen are bound and not read back; with a hyphen, macros are imported under
a name that no path starts from. -/
theorem names_not_read_back :
    (∃ ds, definitions "default 1" default = .ok ds ∧ ∃ d ∈ ds, d.name = "default" ∧
      Expression.parse d.name ≠ .ok (.path ⟨d.name, []⟩)) ∧
    (∃ ds, definitions "a-b 1" default = .ok ds ∧ ∃ d ∈ ds, d.name = "a-b" ∧
      ∀ e, Expression.parse d.name ≠ .ok e) ∧
    imports "a-b: ui.pt" = [⟨"a-b", "ui.pt"⟩] ∧ ∀ e, Expression.parse "a-b/macros/card" ≠ .ok e := by
  have hword : (definitions "default 1" default).toOption.any (·.any (·.name = "default")) := by decide +kernel
  have hhyphen : (definitions "a-b 1" default).toOption.any (·.any (·.name = "a-b")) := by decide +kernel
  have hfails : ∀ text, (Expression.parse text).toOption.isNone → ∀ e, Expression.parse text ≠ .ok e := by
    intro text hnone e he
    rw [he] at hnone
    cases hnone
  refine ⟨?_, ?_, by decide +kernel, hfails _ (by decide +kernel)⟩
  · obtain ⟨ds, hds, d, hd, hname⟩ := exists_mem_of_any hword
    refine ⟨ds, hds, d, hd, hname, ?_⟩
    rw [hname, Expression.parse_of_isRoot ⟨'d', _, rfl, rfl, by decide⟩]
    nofun
  · obtain ⟨ds, hds, d, hd, hname⟩ := exists_mem_of_any hhyphen
    refine ⟨ds, hds, d, hd, hname, ?_⟩
    rw [hname]
    exact hfails _ (by decide +kernel)

end Directive

end MarkupTemplate
