import MarkupTemplate.Proofs.Host.Comparisons

/-!
# Equality and order

Order looks at the floats of numbers and truth values, at any depth of lists (`Compares`). Equality does so for two
numbers only: it tells a truth value from a number, and within lists an integer from a float and any two integers. So
values that are level can be different (`Blurred`); all others that can be compared are equal when they are level
(`Compares.equals_iff`). The other way round the order is the opposite one (`Compares.swap`), and equality does not
depend on the sides (`equals_comm`).
-/

namespace MarkupTemplate

namespace Host

open Numeric

variable {a b v : Value} {as bs : List Value} {x y : Float}

/-! ### Comparison by rules -/

/-- Comparing two values gives an order, or none. -/
inductive Compares : Value → Value → Option Ordering → Prop
  | nothing {a b : Value} (h : a = .nothing ∨ b = .nothing) : Compares a b none
  | strings (s t : String) : Compares (.str s) (.str t) (some (Ord.compare s t))
  | numbers {a b : Value} {x y : Float} (ha : number a = some x) (hb : number b = some y) :
    Compares a b (compareFloats x y)
  | ended : Compares (.list []) (.list []) (some .eq)
  | shorter (b : Value) (bs : List Value) : Compares (.list []) (.list (b :: bs)) (some .lt)
  | longer (a : Value) (as : List Value) : Compares (.list (a :: as)) (.list []) (some .gt)
  | level {a b : Value} {as bs : List Value} {o : Option Ordering} (h : Compares a b (some .eq))
    (hrest : Compares (.list as) (.list bs) o) : Compares (.list (a :: as)) (.list (b :: bs)) o
  | decided {a b : Value} (as bs : List Value) {o : Option Ordering} (h : Compares a b o) (ho : o ≠ some .eq) :
    Compares (.list (a :: as)) (.list (b :: bs)) o

theorem compare_number (ha : number a = some x) (hb : number b = some y) : compare a b = .ok (compareFloats x y) := by
  unfold compare
  split
  · cases ha
  · cases hb
  · cases ha
  · cases ha
  · rw [ha, hb]

mutual

theorem compares_of_compare : ∀ {a b : Value} {o : Option Ordering}, compare a b = .ok o → Compares a b o
  | a, b, o, h => by
    unfold compare at h
    split at h
    · cases h
      exact .nothing (.inl rfl)
    · cases h
      exact .nothing (.inr rfl)
    · next s t =>
      cases h
      exact .strings s t
    · exact compares_of_compareItems h
    · split at h
      · next ha hb =>
        cases h
        exact .numbers ha hb
      · cases h

theorem compares_of_compareItems : ∀ {as bs : List Value} {o : Option Ordering}, compareItems as bs = .ok o →
    Compares (.list as) (.list bs) o
  | [], [], _, h => by
    cases h
    exact .ended
  | [], b :: bs, _, h => by
    cases h
    exact .shorter b bs
  | a :: as, [], _, h => by
    cases h
    exact .longer a as
  | a :: as, b :: bs, o, h => by
    rw [compareItems] at h
    split at h
    · next hab => exact .level (compares_of_compare hab) (compares_of_compareItems h)
    · next hab => exact .decided as bs (compares_of_compare h) fun ho => hab (ho ▸ h)

end

namespace Compares

variable {o : Option Ordering}

theorem compare_eq (h : Compares a b o) : compare a b = .ok o := by
  induction h with
  | nothing h =>
    unfold compare
    rcases h with rfl | rfl
    · rfl
    · split <;> first | rfl | contradiction
  | strings s t => rw [compare]
  | numbers ha hb => exact compare_number ha hb
  | ended => rw [compare, compareItems]
  | shorter b bs => rw [compare, compareItems]
  | longer a as => rw [compare, compareItems]
  | level h hrest ih ihrest =>
    rw [compare] at ihrest
    rw [compare, compareItems, ih]
    exact ihrest
  | decided as bs h ho ih =>
    rw [compare, compareItems, ih]
    split
    · next h => exact absurd (Except.ok.inj h) ho
    · rfl

/-- The other way round the order is the opposite one. -/
theorem swap (h : Compares a b o) : Compares b a (o.map Ordering.swap) := by
  induction h with
  | nothing h => exact .nothing h.symm
  | strings s t =>
    have hswap : Ord.compare t s = (Ord.compare s t).swap := Std.OrientedCmp.eq_swap
    have := strings t s
    rwa [hswap] at this
  | numbers ha hb => exact compareFloats_swap _ _ ▸ numbers hb ha
  | ended => exact .ended
  | shorter b bs => exact .longer b bs
  | longer a as => exact .shorter a as
  | level h hrest ih ihrest => exact .level ih ihrest
  | @decided a b as bs o h ho ih =>
    refine .decided bs as ih fun heq => ho ?_
    rcases o with _ | o
    · cases heq
    · cases o <;> first | rfl | cases heq

end Compares

/-! ### What a comparison comes to -/

mutual

/-- The pairs of items that a comparison of two values comes to. -/
def itemsCompared (a b : Value) : List (Value × Value) :=
  match a, b with
  | .list as, .list bs => pairsCompared as bs
  | _, _ => []

/-- The pairs that a comparison of two lists comes to: it goes on as long as items are level. -/
def pairsCompared : List Value → List Value → List (Value × Value)
  | a :: as, b :: bs =>
    (a, b) :: itemsCompared a b ++
      match compare a b with
      | .ok (some .eq) => pairsCompared as bs
      | _ => []
  | _, _ => []

end

/-- The value is neither nothing nor the float that is no number. -/
def hasPlace : Value → Bool
  | .nothing => false
  | .float x => !x.isNaN
  | _ => true

theorem itemsCompared_level (h : Compares a b (some .eq)) (as bs : List Value) :
    itemsCompared (.list (a :: as)) (.list (b :: bs)) =
      (a, b) :: itemsCompared a b ++ itemsCompared (.list as) (.list bs) := by
  rw [itemsCompared, pairsCompared, h.compare_eq, itemsCompared.eq_1]

theorem itemsCompared_decided {o : Option Ordering} (h : Compares a b o) (ho : o ≠ some .eq) (as bs : List Value) :
    itemsCompared (.list (a :: as)) (.list (b :: bs)) = (a, b) :: itemsCompared a b := by
  rw [itemsCompared, pairsCompared, h.compare_eq]
  split
  · next h => exact absurd (Except.ok.inj h) ho
  · exact List.append_nil _

theorem isNaN_number (ha : number a = some x) (hplace : hasPlace a) : x.isNaN = false := by
  cases a with
  | int n =>
    cases ha
    exact isNaN_ofInt64 n
  | float x =>
    cases ha
    simpa [hasPlace] using hplace
  | bool b =>
    cases ha
    cases b <;> rfl
  | _ => cases ha

theorem Compares.isSome {o : Option Ordering} (h : Compares a b o)
    (hplace : ∀ p ∈ (a, b) :: itemsCompared a b, hasPlace p.1 ∧ hasPlace p.2) : o.isSome := by
  induction h with
  | nothing h =>
    obtain ⟨ha, hb⟩ := hplace _ (List.mem_cons_self ..)
    rcases h with rfl | rfl <;> contradiction
  | strings s t => rfl
  | numbers ha hb =>
    obtain ⟨hpa, hpb⟩ := hplace _ (List.mem_cons_self ..)
    exact isSome_compareFloats (isNaN_number ha hpa) (isNaN_number hb hpb)
  | ended => rfl
  | shorter b bs => rfl
  | longer a as => rfl
  | @level a b as bs o h hrest ih ihrest =>
    -- The rest of the lists stands for itself as a pair of lists, which always have a place.
    rw [itemsCompared_level h] at hplace
    exact ihrest (List.forall_mem_cons.2 ⟨⟨rfl, rfl⟩, fun p hp => hplace p (by simp [hp])⟩)
  | decided as bs h ho ih =>
    rw [itemsCompared_decided h ho] at hplace
    exact ih fun p hp => hplace p (List.mem_cons_of_mem _ hp)

/-! ### Equality -/

/-- A truth value and a number. -/
def mixed (a b : Value) : Bool :=
  match a, b with
  | .bool _, b => isNumeric b
  | a, .bool _ => isNumeric a
  | _, _ => false

/-- A truth value and a number, an integer and a float, or two different integers. -/
def unlike (a b : Value) : Bool :=
  match a, b with
  | .int m, .int n => m != n
  | .int _, .float _ => true
  | .float _, .int _ => true
  | a, b => mixed a b

/-- Two values that are level and yet not the same. -/
def Clash (a b : Value) : Prop :=
  compare a b = .ok (some .eq) ∧ unlike a b

/-- Level values that equality tells apart, by themselves or by their items. -/
def Blurred (a b : Value) : Prop :=
  compare a b = .ok (some .eq) ∧ (mixed a b ∨ ∃ p ∈ itemsCompared a b, Clash p.1 p.2)

/-- The same numbers are level, unless they are no numbers. -/
theorem compareFloats_of_same (ha : number a = some x) (hb : number b = some y) (hsome : (compareFloats x y).isSome)
    (h : a.same b) : compareFloats x y = some .eq := by
  have hself (hxy : x = y) : compareFloats x y = some .eq := by
    subst hxy
    obtain ⟨o, ho⟩ := Option.isSome_iff_exists.1 hsome
    have hswap := compareFloats_swap x x
    rw [ho, Option.map_some, Option.some_inj] at hswap
    cases o with
    | eq => exact ho
    | lt | gt => cases hswap
  cases a <;> cases ha <;> cases b <;> cases hb <;> try contradiction
  · exact hself (by rw [beq_iff_eq.1 h])
  · exact hself (by rw [beq_iff_eq.1 h])
  · exact beq_iff_compareFloats.1 h

theorem unlike_of_same (h : a.same b) : unlike a b = false := by
  cases a <;> cases b <;> try first | rfl | contradiction
  exact bne_eq_false_iff_eq.2 (beq_iff_eq.1 h)

theorem same_of_level (ha : number a = some x) (hb : number b = some y) (h : compareFloats x y = some .eq)
    (hlike : unlike a b = false) : a.same b := by
  cases a <;> cases ha <;> cases b <;> cases hb <;> try contradiction
  · next s t => cases s <;> cases t <;> first | rfl | contradiction
  · exact beq_iff_eq.2 (bne_eq_false_iff_eq.1 hlike)
  · exact beq_iff_compareFloats.2 h

@[simp] theorem not_clash_str (s : String) (b : Value) : ¬ Clash (.str s) b := by
  rintro ⟨-, h⟩
  cases b <;> contradiction

@[simp] theorem not_clash_list (as : List Value) (b : Value) : ¬ Clash (.list as) b := by
  rintro ⟨-, h⟩
  cases b <;> contradiction

/-- What can be compared is the same if it is level and nothing clashes. -/
theorem Compares.same_iff {o : Option Ordering} (h : Compares a b o) (ho : o.isSome) :
    a.same b ↔ o = some .eq ∧ ¬ Clash a b ∧ ∀ p ∈ itemsCompared a b, ¬ Clash p.1 p.2 := by
  induction h with
  | nothing h => cases ho
  | strings s t => simp [Value.same, itemsCompared, Std.LawfulEqCmp.compare_eq_iff_eq]
  | @numbers a b x y ha hb =>
    have hitems : itemsCompared a b = [] := by
      cases a <;> first | rfl | cases ha
    rw [hitems, and_iff_left (List.forall_mem_nil _)]
    refine ⟨fun h => ⟨compareFloats_of_same ha hb ho h, fun hc => ?_⟩, fun ⟨heq, hc⟩ => same_of_level ha hb heq ?_⟩
    · exact Bool.false_ne_true ((unlike_of_same h).symm.trans hc.2)
    · exact Bool.eq_false_iff.2 fun hunlike => hc ⟨heq ▸ (numbers ha hb).compare_eq, hunlike⟩
  | ended => simp [Value.same, Value.sameItems, itemsCompared, pairsCompared]
  | shorter b bs => simp [Value.same, Value.sameItems]
  | longer a as => simp [Value.same, Value.sameItems]
  | level h hrest ih ihrest =>
    have ih := ih rfl
    have ihrest := ihrest ho
    simp only [Value.same, not_clash_list, not_false_iff, true_and] at ih ihrest
    simp only [Value.same, Value.sameItems, Bool.and_eq_true, ih, ihrest, itemsCompared_level h, not_clash_list,
      not_false_iff, true_and, List.cons_append, List.forall_mem_cons, List.forall_mem_append]
    rw [and_left_comm, and_assoc]
  | decided as bs h hne ih =>
    refine iff_of_false (fun hsame => hne ?_) fun ⟨heq, _⟩ => hne heq
    rw [Value.same, Value.sameItems, Bool.and_eq_true] at hsame
    exact ((ih ho).1 hsame.1).1

theorem unlike_eq_mixed (hnumeric : (isNumeric a && isNumeric b) = false) : unlike a b = mixed a b := by
  cases a <;> cases b <;> first | rfl | contradiction

theorem Compares.unique {o o' : Option Ordering} (h : Compares a b o) (h' : Compares a b o') : o = o' :=
  Except.ok.inj (h.compare_eq.symm.trans h'.compare_eq)

theorem number_of_numeric (h : isNumeric a) : ∃ x, number a = some x := by
  cases a with
  | int n => exact ⟨_, rfl⟩
  | float x => exact ⟨_, rfl⟩
  | _ => cases h

/-- What can be compared is equal if it is level and not blurred. -/
theorem Compares.equals_iff {o : Option Ordering} (h : Compares a b o) (ho : o.isSome) :
    equals a b ↔ o = some .eq ∧ ¬ Blurred a b := by
  cases hnumeric : isNumeric a && isNumeric b with
  | false =>
    -- Equality goes by the parts here, so a clash of the values themselves can only be a mixed one.
    rw [equals, hnumeric, if_neg Bool.false_ne_true, h.same_iff ho]
    refine and_congr_right fun heq => ?_
    have hlevel := heq ▸ h.compare_eq
    rw [Blurred, Clash, unlike_eq_mixed hnumeric, and_iff_right hlevel, and_iff_right hlevel, not_or, not_exists]
    simp only [not_and]
  | true =>
    obtain ⟨ha, hb⟩ := Bool.and_eq_true_iff.1 hnumeric
    obtain ⟨x, hx⟩ := number_of_numeric ha
    obtain ⟨y, hy⟩ := number_of_numeric hb
    -- Two numbers have no items, and equality looks at their floats as the order does.
    have hclear : ¬ Blurred a b := by
      rintro ⟨-, hm | ⟨p, hp, -⟩⟩
      · cases a <;> cases b <;> contradiction
      · cases a <;> first | cases hp | cases ha
    rw [equals, hnumeric, if_pos rfl, hx, hy, h.unique (.numbers hx hy), and_iff_left hclear]
    exact beq_iff_compareFloats

theorem equals_mixed (h : mixed a b) : equals a b = false := by
  cases a <;> cases b <;> first | rfl | contradiction

mutual

theorem same_comm (a b : Value) : a.same b = b.same a := by
  cases a with
  | list as =>
    cases b with
    | list bs => exact sameItems_comm as bs
    | _ => rfl
  | map as =>
    cases b with
    | map bs => exact sameFields_comm as bs
    | _ => rfl
  | float x =>
    cases b with
    | float y => exact BEq.comm
    | _ => rfl
  | _ => cases b <;> first | rfl | exact Bool.beq_comm

theorem sameItems_comm (as bs : List Value) : Value.sameItems as bs = Value.sameItems bs as := by
  cases as with
  | nil => cases bs <;> rfl
  | cons a as =>
    cases bs with
    | nil => rfl
    | cons b bs => rw [Value.sameItems, Value.sameItems, same_comm a b, sameItems_comm as bs]

theorem sameFields_comm (as bs : List (String × Value)) : Value.sameFields as bs = Value.sameFields bs as := by
  cases as with
  | nil => cases bs <;> rfl
  | cons a as =>
    cases bs with
    | nil => rfl
    | cons b bs =>
      rw [Value.sameFields, Value.sameFields, same_comm a.2 b.2, sameFields_comm as bs, Bool.beq_comm]

end

theorem equals_comm (a b : Value) : equals a b = equals b a := by
  rw [equals, equals, Bool.and_comm, same_comm a b]
  refine ite_congr rfl (fun _ => ?_) fun _ => rfl
  rcases number a with _ | x <;> rcases number b with _ | y
  · rfl
  · rfl
  · rfl
  · exact BEq.comm

/-! ### Operators -/

theorem exists_of_ordered {holds : Ordering → Bool} (h : ordered holds a b = .ok v) : ∃ o, Compares a b o := by
  rw [ordered] at h
  cases hcompare : compare a b with
  | ok o => exact ⟨o, compares_of_compare hcompare⟩
  | error fault =>
    rw [hcompare] at h
    cases h

end Host

namespace HostRuntime

open Host

variable {libraries : List Library} {scope : Scope} {l r : HostExpr} {a b v : Value}

/-- Of two values that can be compared, without nothing and without floats that are no numbers, at most one of less,
equal and greater holds, and the sides can be changed. A truth value is not equal to a number. Unless the values are
blurred, exactly one of the three holds, and being less or equal is what it says. -/
theorem comparisons_coherent (hl : eval libraries scope l = .ok a) (hr : eval libraries scope r = .ok b)
    (hrun : eval libraries scope (.binary .lt l r) = .ok v)
    (hplace : ∀ p ∈ (a, b) :: itemsCompared a b, hasPlace p.1 ∧ hasPlace p.2) :
    ∃ truth : BinaryOp → Bool,
      (∀ op ∈ comparisons, eval libraries scope (.binary op l r) = .ok (.bool (truth op))) ∧
      eval libraries scope (.binary .le r l) = .ok (.bool (truth .ge)) ∧
      eval libraries scope (.binary .eq r l) = .ok (.bool (truth .eq)) ∧
      [truth .lt, truth .eq, truth .gt].count true ≤ 1 ∧ (mixed a b → truth .eq = false) ∧
      (¬ Blurred a b →
        [truth .lt, truth .eq, truth .gt].count true = 1 ∧ (truth .le ↔ truth .lt ∨ truth .eq)) := by
  rw [eval_comparison (by decide) hl hr] at hrun
  obtain ⟨o, h⟩ := exists_of_ordered hrun
  obtain ⟨o, rfl⟩ := Option.isSome_iff_exists.1 (h.isSome hplace)
  have hequals := h.equals_iff rfl
  refine ⟨tells o (equals a b), fun op hop => ?_, ?_, ?_, ?_, fun hmixed => equals_mixed hmixed, fun hclear => ?_⟩
  · rw [eval_comparison hop hl hr, binary_tells hop h.compare_eq]
  · rw [eval_comparison (by decide) hr hl, binary_tells (by decide) h.swap.compare_eq]
    cases o <;> rfl
  · rw [eval_comparison (by decide) hr hl, binary_tells (by decide) h.swap.compare_eq, equals_comm b a]
    rfl
  · -- Equal values are level.
    have hlevel : equals a b = true → o = .eq := fun he => Option.some_inj.1 (hequals.1 he).1
    cases he : equals a b with
    | false => cases o <;> decide
    | true => rw [hlevel he]; decide
  · have hequal : equals a b = (o == .eq) := by
      rw [Bool.eq_iff_iff, hequals, and_iff_left hclear, Option.some_inj, beq_iff_eq]
    rw [hequal]
    cases o <;> decide

theorem comparisons_coherent_nestedLists :
    let left : Value := .list [.int 1, .str "a", .list [.float 2.5, .bool true]]
    let right : Value := .list [.float 1, .str "a", .list [.float 2.5, .bool false]]
    let evaluate := eval [] default
    ∃ truth : BinaryOp → Bool,
      (∀ op ∈ comparisons, evaluate (.binary op (.literal left) (.literal right)) = .ok (.bool (truth op))) ∧
      [truth .lt, truth .eq, truth .gt].count true = 1 := by
  intro left right evaluate
  have hliteral (v : Value) : eval [] default (.literal v) = .ok v := by rw [eval]
  have horder : compare left right = .ok (some .gt) := rfl
  have hblurred : ¬ Blurred left right := by
    rintro ⟨hlevel, -⟩
    rw [horder] at hlevel
    cases hlevel
  obtain ⟨truth, htruth, -, -, -, -, hclear⟩ :=
    comparisons_coherent (hliteral left) (hliteral right) (v := .bool false) rfl (by decide)
  exact ⟨truth, htruth, (hclear hblurred).1⟩

/-- A truth value is level with a number and not equal to it, and so are lists of an integer and of a float. -/
theorem comparisons_ofLevelValues :
    let evaluate := eval [] default
    let results (l r : Value) :=
      [BinaryOp.lt, .eq, .gt, .le].map fun op => evaluate (.binary op (.literal l) (.literal r))
    results (.bool true) (.int 1) = [false, false, false, true].map (.ok ∘ .bool) ∧
    results (.list [.int 1]) (.list [.float 1]) = [false, false, false, true].map (.ok ∘ .bool) :=
  ⟨rfl, rfl⟩

end HostRuntime

end MarkupTemplate
