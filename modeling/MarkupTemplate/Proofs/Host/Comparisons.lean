import MarkupTemplate.Host.Runtime
import MarkupTemplate.Proofs.Numeric.Floats
import MarkupTemplate.Proofs.Results

/-!
# Comparisons of integers

Integers are compared by their nearest floats, and so are the items of lists: by `in`, `min`, `max` and `sorted`
(`Compared nearest`). Conversion never turns the order around, so all of this is exact where no two of the integers
have one nearest float (`Separated`), which is so up to `2 ^ 53`. Two integers with one nearest float are equal to every
comparison.
-/

namespace MarkupTemplate

namespace Host

open Numeric

/-- The operators that compare. -/
def comparisons : List BinaryOp := [.eq, .ne, .lt, .le, .gt, .ge]

/-- The truth value of a comparison of numbers. -/
def relates (op : BinaryOp) (a b : Int) : Bool :=
  match op with
  | .eq => a = b
  | .ne => a ≠ b
  | .lt => a < b
  | .le => a ≤ b
  | .gt => b < a
  | .ge => b ≤ a
  | _ => false

/-- No two of the integers have one nearest float. -/
def Separated (ns : List Int64) : Prop :=
  ∀ m ∈ ns, ∀ n ∈ ns, nearest m.toInt = nearest n.toInt → m = n

variable {a b m n : Int64} {ns : List Int64} {x y x' y' : Int}

theorem separated_of_le (h : ∀ n ∈ ns, n.toInt.natAbs ≤ 2 ^ 53) : Separated ns := by
  intro m hm n hn heq
  have hm := h m hm
  have hn := h n hn
  rw [nearest_of_le (by omega) (by omega), nearest_of_le (by omega) (by omega)] at heq
  exact Int64.toInt_inj.1 heq

theorem Separated.compare_nearest (h : Separated ns) (hm : m ∈ ns) (hn : n ∈ ns) :
    Ord.compare (nearest m.toInt) (nearest n.toInt) = Ord.compare m.toInt n.toInt := by
  rcases lt_trichotomy m.toInt n.toInt with hlt | heq | hlt
  · rw [compare_lt_iff_lt.2 hlt, compare_lt_iff_lt]
    exact (nearest_mono hlt.le).lt_of_ne fun heq => hlt.ne (congrArg _ (h m hm n hn heq))
  · rw [heq, compare_eq_iff_eq.2 rfl, compare_eq_iff_eq.2 rfl]
  · rw [compare_gt_iff_gt.2 hlt, compare_gt_iff_gt]
    exact (nearest_mono hlt.le).lt_of_ne fun heq => hlt.ne (congrArg _ (h n hn m hm heq))

theorem relates_congr (h : Ord.compare x y = Ord.compare x' y') (op : BinaryOp) :
    relates op x y = relates op x' y' := by
  have hlt : x < y ↔ x' < y' := compare_lt_iff_lt.symm.trans (h ▸ compare_lt_iff_lt)
  have hgt : y < x ↔ y' < x' := compare_gt_iff_gt.symm.trans (h ▸ compare_gt_iff_gt)
  cases op <;> simp only [relates, decide_eq_decide] <;> omega

/-! ### Operators -/

theorem equals_int (a b : Int64) : equals (.int a) (.int b) = decide (nearest a.toInt = nearest b.toInt) := by
  show (ofInt64 a == ofInt64 b) = _
  rw [Bool.eq_iff_iff, beq_iff_compareFloats, compareFloats_ofInt64, Option.some_inj, compare_eq_iff_eq,
    decide_eq_true_iff]

theorem compare_int (a b : Int64) :
    compare (.int a) (.int b) = .ok (some (Ord.compare (nearest a.toInt) (nearest b.toInt))) := by
  rw [← compareFloats_ofInt64]
  simp [compare, number]

/-- What comparisons tell of values with an order. -/
def tells (o : Ordering) (equal : Bool) (op : BinaryOp) : Bool :=
  match op with
  | .eq => equal
  | .ne => !equal
  | .lt => o == .lt
  | .le => o != .gt
  | .gt => o == .gt
  | .ge => o != .lt
  | _ => false

theorem binary_tells {op : BinaryOp} (hop : op ∈ comparisons) {v w : Value} {o : Ordering}
    (h : compare v w = .ok (some o)) : binary op v w = .ok (.bool (tells o (equals v w) op)) := by
  have hordered (holds : Ordering → Bool) : ordered holds v w = .ok (.bool (holds o)) := by
    rw [ordered, h]
    rfl
  simp only [comparisons, List.mem_cons, List.not_mem_nil, or_false] at hop
  rcases hop with rfl | rfl | rfl | rfl | rfl | rfl
  · rfl
  · rfl
  all_goals exact hordered _

theorem tells_compare {op : BinaryOp} (hop : op ∈ comparisons) (x y : Int) :
    tells (Ord.compare x y) (decide (x = y)) op = relates op x y := by
  simp only [comparisons, List.mem_cons, List.not_mem_nil, or_false] at hop
  rcases hop with rfl | rfl | rfl | rfl | rfl | rfl
  · rfl
  · rw [tells, relates, decide_not]
  all_goals rw [tells, relates, Bool.eq_iff_iff, decide_eq_true_iff]
  · rw [beq_iff_eq, compare_lt_iff_lt]
  · rw [bne_iff_ne, compare_le_iff_le]
  · rw [beq_iff_eq, compare_gt_iff_gt]
  · rw [bne_iff_ne, compare_ge_iff_ge]

theorem binary_int {op : BinaryOp} (hop : op ∈ comparisons) (a b : Int64) :
    binary op (.int a) (.int b) = .ok (.bool (relates op (nearest a.toInt) (nearest b.toInt))) := by
  rw [binary_tells hop (compare_int a b), equals_int, tells_compare hop]

theorem contains_ints (ns : List Int64) (a : Int64) :
    contains (.list (ns.map .int)) (.int a) = .ok (decide (∃ n ∈ ns, nearest n.toInt = nearest a.toInt)) := by
  rw [contains, List.any_map]
  refine congrArg _ (Bool.eq_iff_iff.2 ?_)
  simp only [List.any_eq_true, Function.comp_apply, equals_int, decide_eq_true_iff]

/-! ### Functions -/

theorem better_int (f : Builtin) (prefer : Ordering) (best candidate : Int64) :
    better f prefer (.int best) (.int candidate) =
      .ok (.int (if Ord.compare (nearest candidate.toInt) (nearest best.toInt) = prefer then candidate else best)) := by
  show (Except.ok (if compareFloats (ofInt64 candidate) (ofInt64 best) == some prefer then _ else _) :
    Except EvalFault Value) = _
  simp only [compareFloats_ofInt64, beq_iff_eq, Option.some_inj, apply_ite Value.int]

/-- Of three numbers, the last one is no better than the better one of the others unless it is worse than both. -/
theorem compare_ne_of_better {prefer : Ordering} (hprefer : prefer = .lt ∨ prefer = .gt) {best candidate m : Int}
    (h : Ord.compare (if Ord.compare candidate best = prefer then candidate else best) m ≠ prefer) :
    Ord.compare best m ≠ prefer ∧ Ord.compare candidate m ≠ prefer := by
  rcases hprefer with rfl | rfl
  · simp only [ne_eq, compare_lt_iff_lt] at h ⊢
    split_ifs at h <;> omega
  · simp only [ne_eq, compare_gt_iff_gt] at h ⊢
    split_ifs at h <;> omega

/-- No item is on the preferred side of the best one. -/
theorem foldlM_better (f : Builtin) {prefer : Ordering} (hprefer : prefer = .lt ∨ prefer = .gt) (best : Int64)
    (ns : List Int64) :
    ∃ m ∈ best :: ns, (ns.map Value.int).foldlM (better f prefer) (.int best) = .ok (.int m) ∧
      ∀ n ∈ best :: ns, Ord.compare (nearest n.toInt) (nearest m.toInt) ≠ prefer := by
  induction ns generalizing best with
  | nil =>
    refine ⟨best, List.mem_singleton_self _, rfl, List.forall_mem_singleton.2 ?_⟩
    rw [compare_eq_iff_eq.2 rfl]
    rcases hprefer with rfl | rfl <;> decide
  | cons candidate ns ih =>
    rw [List.map_cons, List.foldlM_cons, better_int]
    obtain ⟨m, hm, hrun, hbest⟩ :=
      ih (if Ord.compare (nearest candidate.toInt) (nearest best.toInt) = prefer then candidate else best)
    obtain ⟨hfirst, hrest⟩ := List.forall_mem_cons.1 hbest
    rw [apply_ite Int64.toInt, apply_ite nearest] at hfirst
    obtain ⟨hold, hnew⟩ := compare_ne_of_better hprefer hfirst
    refine ⟨m, ?_, hrun, List.forall_mem_cons.2 ⟨hold, List.forall_mem_cons.2 ⟨hnew, hrest⟩⟩⟩
    split at hm
    · exact List.mem_cons_of_mem _ hm
    · exact List.mem_cons.2 ((List.mem_cons.1 hm).imp_right (List.mem_cons_of_mem _))

theorem extremum_ints (f : Builtin) {prefer : Ordering} (hprefer : prefer = .lt ∨ prefer = .gt) (hne : ns ≠ []) :
    ∃ m ∈ ns, extremum f prefer [.list (ns.map .int)] = .ok (.int m) ∧
      ∀ n ∈ ns, Ord.compare (nearest n.toInt) (nearest m.toInt) ≠ prefer := by
  cases ns with
  | nil => exact absurd rfl hne
  | cons first ns =>
    obtain ⟨m, hm, hrun, hbest⟩ := foldlM_better f hprefer first ns
    refine ⟨m, hm, ?_, hbest⟩
    show (ns.map Value.int).foldlM (better f prefer) (.int first) >>= _ = _
    rw [hrun]
    rfl

theorem le_number (a b : Int64) :
    (SortKey.number (ofInt64 a)).le (.number (ofInt64 b)) = decide (nearest a.toInt ≤ nearest b.toInt) := by
  have hlt : ofInt64 b < ofInt64 a ↔ nearest b.toInt < nearest a.toInt := by
    rw [lt_iff_compareFloats, compareFloats_ofInt64, Option.some_inj, compare_lt_iff_lt]
  rw [SortKey.le, Bool.eq_iff_iff, Bool.not_eq_true', decide_eq_true_iff, decide_eq_false_iff_not, hlt, not_lt]

theorem sortItems_ints (ns : List Int64) :
    ∃ ms : List Int64, sortItems [.list (ns.map .int)] = .ok (.list (ms.map .int)) ∧ ms.Perm ns ∧
      ms.Pairwise fun m n => nearest m.toInt ≤ nearest n.toInt := by
  have hkeys : ((ns.map Value.int).mapM fun item => do return (← sortKey item, item)) =
      (.ok (ns.map fun n => (.number (ofInt64 n), .int n)) : Except EvalFault (List (SortKey × Value))) := by
    induction ns with
    | nil => rfl
    | cons n ns ih =>
      rw [List.map_cons, List.mapM_cons, ih]
      rfl
  have hsorted := List.map_mergeSort (f := fun n => (SortKey.number (ofInt64 n), Value.int n))
    (s := fun a b => a.1.le b.1) (l := ns) fun m _ n _ => (le_number m n).symm
  refine ⟨ns.mergeSort fun m n => nearest m.toInt ≤ nearest n.toInt, ?_, List.mergeSort_perm .., ?_⟩
  · show (((ns.map Value.int).mapM fun item => do return (← sortKey item, item)) >>= _) = _
    rw [hkeys]
    show (Except.ok (Value.list _) : Except EvalFault Value) = _
    rw [← hsorted, List.map_map]
    rfl
  · have htrans (a b c : Int64) (h : decide (nearest a.toInt ≤ nearest b.toInt))
        (h' : decide (nearest b.toInt ≤ nearest c.toInt)) : decide (nearest a.toInt ≤ nearest c.toInt) :=
      decide_eq_true ((of_decide_eq_true h).trans (of_decide_eq_true h'))
    have htotal (a b : Int64) :
        decide (nearest a.toInt ≤ nearest b.toInt) || decide (nearest b.toInt ≤ nearest a.toInt) := by
      rw [Bool.or_eq_true, decide_eq_true_iff, decide_eq_true_iff]
      exact Int.le_total ..
    exact (List.pairwise_mergeSort htrans htotal ns).imp of_decide_eq_true

end Host

namespace HostRuntime

open Host Numeric

theorem eval_comparison {libraries : List Library} {scope : Scope} {l r : HostExpr} {v w : Value} {op : BinaryOp}
    (hop : op ∈ comparisons) (hl : eval libraries scope l = .ok v) (hr : eval libraries scope r = .ok w) :
    eval libraries scope (.binary op l r) = Host.binary op v w := by
  simp only [comparisons, List.mem_cons, List.not_mem_nil, or_false] at hop
  rw [eval, hl, hr]
  rcases hop with rfl | rfl | rfl | rfl | rfl | rfl <;> rfl

/-- What comparisons tell of two integers and of a list, if they see each integer as `place` puts it. -/
structure Compared (place : Int → Int) (libraries : List Library) (scope : Scope) (l r e : HostExpr) (a b : Int64)
    (ns : List Int64) : Prop where
  operators : ∀ op ∈ comparisons, eval libraries scope (.binary op l r) =
    .ok (.bool (relates op (place a.toInt) (place b.toInt)))
  member : eval libraries scope (.binary .isIn l e) = .ok (.bool (decide (∃ n ∈ ns, place n.toInt = place a.toInt)))
  least : ∃ m ∈ ns, eval libraries scope (.call "min" [e]) = .ok (.int m) ∧ ∀ n ∈ ns, place m.toInt ≤ place n.toInt
  greatest : ∃ m ∈ ns, eval libraries scope (.call "max" [e]) = .ok (.int m) ∧ ∀ n ∈ ns, place n.toInt ≤ place m.toInt
  ascending : ∃ ms : List Int64, eval libraries scope (.call "sorted" [e]) = .ok (.list (ms.map .int)) ∧ ms.Perm ns ∧
    ms.Pairwise fun m n => place m.toInt ≤ place n.toInt

variable {libraries : List Library} {scope : Scope} {l r e : HostExpr} {a b : Int64} {ns : List Int64}
  {place place' : Int → Int}

/-- Places in the same order tell the same. -/
theorem Compared.congr (h : Compared place libraries scope l r e a b ns)
    (hplace : ∀ m ∈ a :: b :: ns, ∀ n ∈ a :: b :: ns,
      Ord.compare (place m.toInt) (place n.toInt) = Ord.compare (place' m.toInt) (place' n.toInt)) :
    Compared place' libraries scope l r e a b ns := by
  have hle {m n : Int64} (hm : m ∈ ns) (hn : n ∈ ns) :
      place m.toInt ≤ place n.toInt ↔ place' m.toInt ≤ place' n.toInt := by
    rw [← compare_le_iff_le, hplace m (by simp [hm]) n (by simp [hn]), compare_le_iff_le]
  have heq {n : Int64} (hn : n ∈ ns) : place n.toInt = place a.toInt ↔ place' n.toInt = place' a.toInt := by
    rw [← compare_eq_iff_eq, hplace n (by simp [hn]) a (by simp), compare_eq_iff_eq]
  obtain ⟨least, hleast, hmin, hlow⟩ := h.least
  obtain ⟨greatest, hgreatest, hmax, hup⟩ := h.greatest
  obtain ⟨ms, hsorted, hperm, hpairs⟩ := h.ascending
  refine ⟨fun op hop => ?_, ?_, ⟨least, hleast, hmin, ?_⟩, ⟨greatest, hgreatest, hmax, ?_⟩, ⟨ms, hsorted, hperm, ?_⟩⟩
  · rw [h.operators op hop, relates_congr (hplace a (by simp) b (by simp))]
  · rw [h.member]
    refine congrArg _ (congrArg _ (decide_eq_decide.2 (exists_congr fun n => and_congr_right fun hn => heq hn)))
  · exact fun n hn => (hle hleast hn).1 (hlow n hn)
  · exact fun n hn => (hle hn hgreatest).1 (hup n hn)
  · exact hpairs.imp_of_mem fun hm hn => (hle (hperm.mem_iff.1 hm) (hperm.mem_iff.1 hn)).1

theorem compared_nearest (hl : eval libraries scope l = .ok (.int a)) (hr : eval libraries scope r = .ok (.int b))
    (he : eval libraries scope e = .ok (.list (ns.map .int))) (hne : ns ≠ [])
    (hmin : findFunction? libraries "min" = some .min) (hmax : findFunction? libraries "max" = some .max)
    (hsorted : findFunction? libraries "sorted" = some .sorted) :
    Compared nearest libraries scope l r e a b ns := by
  have hcall {name : String} {f : Builtin} (hf : findFunction? libraries name = some f) :
      eval libraries scope (.call name [e]) = f.call [.list (ns.map .int)] := by
    rw [eval, hf]
    simp only [evalAll, he]
    rfl
  obtain ⟨least, hleast, hmin', hlow⟩ := extremum_ints .min (.inl rfl) hne
  obtain ⟨greatest, hgreatest, hmax', hup⟩ := extremum_ints .max (.inr rfl) hne
  obtain ⟨ms, hsorted', hperm, hpairs⟩ := sortItems_ints ns
  refine ⟨fun op hop => (eval_comparison hop hl hr).trans (binary_int hop a b), ?_,
    ⟨least, hleast, (hcall hmin).trans hmin', ?_⟩, ⟨greatest, hgreatest, (hcall hmax).trans hmax', ?_⟩,
    ⟨ms, (hcall hsorted).trans hsorted', hperm, hpairs⟩⟩
  · rw [eval, hl, he]
    show Value.bool <$> contains (.list (ns.map .int)) (.int a) = _
    rw [contains_ints]
    rfl
  · exact fun n hn => not_lt.1 fun h => hlow n hn (compare_lt_iff_lt.2 h)
  · exact fun n hn => not_lt.1 fun h => hup n hn (compare_gt_iff_gt.2 h)

/-- Comparisons see the nearest float of each integer. The operators are exact for two integers unless these are
different and have one nearest float, and everything is exact where no two of the integers have one, as up to
`2 ^ 53`. -/
theorem integers_compared (hl : eval libraries scope l = .ok (.int a)) (hr : eval libraries scope r = .ok (.int b))
    (he : eval libraries scope e = .ok (.list (ns.map .int))) (hne : ns ≠ [])
    (hmin : findFunction? libraries "min" = some .min) (hmax : findFunction? libraries "max" = some .max)
    (hsorted : findFunction? libraries "sorted" = some .sorted) :
    Compared nearest libraries scope l r e a b ns ∧
    ((∀ op ∈ comparisons, eval libraries scope (.binary op l r) = .ok (.bool (relates op a.toInt b.toInt))) ↔
      (nearest a.toInt = nearest b.toInt → a = b)) ∧
    (Separated (a :: b :: ns) → Compared id libraries scope l r e a b ns) ∧
    ((∀ n ∈ a :: b :: ns, n.toInt.natAbs ≤ 2 ^ 53) → Compared id libraries scope l r e a b ns) := by
  have hnearest := compared_nearest hl hr he hne hmin hmax hsorted
  have hexact (h : Separated (a :: b :: ns)) : Compared id libraries scope l r e a b ns :=
    hnearest.congr fun m hm n hn => h.compare_nearest hm hn
  refine ⟨hnearest, ⟨fun h hab => ?_, fun h op hop => ?_⟩, hexact, fun h => hexact (separated_of_le h)⟩
  · have heq := (hnearest.operators .eq (by decide)).symm.trans (h .eq (by decide))
    have : relates .eq (nearest a.toInt) (nearest b.toInt) = relates .eq a.toInt b.toInt := by simpa using heq
    rw [relates, relates, decide_eq_decide] at this
    exact Int64.toInt_inj.1 (this.1 hab)
  · have hpair : Separated [a, b] := by
      intro m hm n hn hmn
      simp only [List.mem_cons, List.not_mem_nil, or_false] at hm hn
      rcases hm with rfl | rfl <;> rcases hn with rfl | rfl
      · rfl
      · exact h hmn
      · exact (h hmn.symm).symm
      · rfl
    rw [hnearest.operators op hop, relates_congr (hpair.compare_nearest (by simp) (by simp))]

theorem integers_compared_lengthOf53 :
    let items : List Int64 := [7, -9007199254740992, 7]
    Compared id [.core, .math, .seq] default (.literal (.int 9007199254740992)) (.literal (.int 9007199254740991))
      (.literal (.list (items.map .int))) 9007199254740992 9007199254740991 items := by
  intro items
  have hliteral (v : Value) : eval [.core, .math, .seq] default (.literal v) = .ok v := by rw [eval]
  have hsmall : ∀ n ∈ 9007199254740992 :: 9007199254740991 :: items, n.toInt.natAbs ≤ 2 ^ 53 := by
    simp [items]
  exact (integers_compared (hliteral _) (hliteral _) (hliteral _) (by decide) (by decide +kernel) (by decide +kernel)
    (by decide +kernel)).2.2.2 hsmall

/-- From `2 ^ 53` on the next integer is equal to every comparison. -/
theorem compared_nextInteger :
    let small : HostExpr := .literal (.int 9007199254740992)
    let large : HostExpr := .literal (.int 9007199254740993)
    let evaluate := eval [.core, .math, .seq] default
    evaluate (.binary .eq small large) = .ok (.bool true) ∧ evaluate (.binary .lt small large) = .ok (.bool false) ∧
    evaluate (.binary .isIn small (.list [large])) = .ok (.bool true) ∧
    evaluate (.call "min" [.list [large, small]]) = .ok (.int 9007199254740993) ∧
    evaluate (.call "max" [.list [small, large]]) = .ok (.int 9007199254740992) ∧
    evaluate (.call "sorted" [.list [large, small]]) =
      .ok (.list [.int 9007199254740993, .int 9007199254740992]) := by
  refine ⟨rfl, rfl, rfl, rfl, rfl, ?_⟩
  have hkept : [(SortKey.number (ofInt64 9007199254740993), Value.int 9007199254740993),
      (SortKey.number (ofInt64 9007199254740992), Value.int 9007199254740992)].mergeSort (fun a b => a.1.le b.1) = _ :=
    List.mergeSort_of_pairwise (List.pairwise_pair.2 (le_number _ _))
  exact congrArg (fun keyed => Except.ok (Value.list (keyed.map (·.2)))) hkept

end HostRuntime

end MarkupTemplate
