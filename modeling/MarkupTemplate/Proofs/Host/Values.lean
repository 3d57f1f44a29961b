import MarkupTemplate.Host.Runtime
import MarkupTemplate.Proofs.Host.Reading

/-!
# The values of host code

Operators and functions take the handles of their results from their operands, and none of their faults is one
of host code that cannot be evaluated. So an expression whose functions are known, and whose literals hold no
handle, gives only handles that its variables hold, and fails only as a path or an operation fails.
-/

namespace MarkupTemplate

open Value (HandlesIn gives_bool gives_int gives_float gives_str gives_mismatch)
open EvalFault (NotHost)

namespace Host

variable {K : MacroHandle → Prop} {f : Builtin} {args : List Value} {v w : Value}

/-! ### Operators -/

theorem fitted_gives (op : BinaryOp) (n : Option Int64) : Gives (HandlesIn K) NotHost (fitted op n) := by
  unfold fitted
  split
  · exact gives_int _
  · exact gives_mismatch _

theorem arithmetic_gives (op : BinaryOp) (v w : Value) :
    Gives (HandlesIn K) NotHost (arithmetic op v w) := by
  have hunsupported : Gives (HandlesIn K) NotHost
      (.error (.mismatch (.unsupported op v.kind w.kind)) : Except EvalFault Value) := gives_mismatch _
  have hdivided (zero : Prop) [Decidable zero] {x : Except EvalFault Value}
      (hx : Gives (HandlesIn K) NotHost x) :
      Gives (HandlesIn K) NotHost (if zero then .error (.mismatch .divisionByZero) else x) := by
    split
    · exact gives_mismatch _
    · exact hx
  unfold arithmetic
  dsimp only
  split
  · unfold integerArithmetic
    cases op
    case add | sub | mul => exact fitted_gives _ _
    case div => exact hdivided _ (gives_float _)
    case floorDiv => exact hdivided _ (fitted_gives _ _)
    case mod => exact hdivided _ (gives_int _)
    all_goals exact hunsupported
  · split
    · unfold floatArithmetic
      cases op
      case add | sub | mul => exact gives_float _
      case div | floorDiv | mod => exact hdivided _ (gives_float _)
      all_goals exact hunsupported
    · exact hunsupported

theorem add_gives (hv : v.HandlesIn K) (hw : w.HandlesIn K) : Gives (HandlesIn K) NotHost (add v w) := by
  unfold add
  split
  · exact gives_str _
  · refine .ok (Value.handlesIn_list.2 fun item hi => ?_)
    rcases List.mem_append.1 hi with hi | hi
    · exact Value.handlesIn_list.1 hv item hi
    · exact Value.handlesIn_list.1 hw item hi
  · exact arithmetic_gives ..

theorem negate_gives (v : Value) : Gives (HandlesIn K) NotHost (negate v) := by
  unfold negate
  split
  · split
    · exact gives_int _
    · exact gives_mismatch _
  · exact gives_float _
  · exact gives_mismatch _

mutual

theorem compare_gives : ∀ v w : Value, Gives (fun _ => True) NotHost (compare v w)
  | v, w => by
    unfold compare
    split
    · exact .ok trivial
    · exact .ok trivial
    · exact .ok trivial
    · next as bs => exact compareItems_gives as bs
    · split
      · exact .ok trivial
      · exact gives_mismatch _

theorem compareItems_gives : ∀ as bs : List Value, Gives (fun _ => True) NotHost (compareItems as bs)
  | [], [] => .ok trivial
  | [], _ :: _ => .ok trivial
  | _ :: _, [] => .ok trivial
  | a :: as, b :: bs => by
    rw [compareItems]
    split
    · exact compareItems_gives as bs
    · exact compare_gives a b

end

theorem contains_gives (container item : Value) :
    Gives (fun _ => True) NotHost (contains container item) := by
  unfold contains
  split
  · exact .ok trivial
  · exact .ok trivial
  · exact .ok trivial
  · exact .ok trivial
  · exact gives_mismatch _

theorem binary_gives (hv : v.HandlesIn K) (hw : w.HandlesIn K) (op : BinaryOp) :
    Gives (HandlesIn K) NotHost (binary op v w) := by
  cases op with
  | add => exact add_gives hv hw
  | sub | mul | div | floorDiv | mod => exact arithmetic_gives ..
  | eq | ne => exact gives_bool _
  | lt | le | gt | ge => exact (compare_gives v w).map fun _ _ => Value.handlesIn_bool _
  | isIn | isNotIn => exact (contains_gives w v).map fun _ _ => Value.handlesIn_bool _
  | and | or => exact gives_mismatch _

theorem mem_of_itemAt {α : Type} {items : List α} {i : Int64} {a : α} (h : itemAt? items i = some a) :
    a ∈ items := by
  unfold itemAt? at h
  dsimp only at h
  generalize (if i.toInt < 0 then items.length + i.toInt else i.toInt) = position at h
  split at h
  · cases h
  · exact List.mem_of_getElem? h

theorem subscript_gives (hv : v.HandlesIn K) (i : Value) : Gives (HandlesIn K) NotHost (subscript v i) := by
  unfold subscript
  split
  · split
    · next hi => exact .ok (Value.handlesIn_list.1 hv _ (mem_of_itemAt hi))
    · exact .error (.navigation _ _ _)
  · split
    · exact gives_str _
    · exact .error (.navigation _ _ _)
  · split
    · next hfield => exact .ok (Value.handlesIn_map.1 hv _ (Fields.mem_of_get? hfield))
    · exact .error (.navigation _ _ _)
  · exact gives_mismatch _

/-! ### Arguments -/

theorem oneArgument_gives (ha : ∀ v ∈ args, v.HandlesIn K) {run : Value → Result}
    (hrun : ∀ v, v.HandlesIn K → Gives (HandlesIn K) NotHost (run v)) :
    Gives (HandlesIn K) NotHost (oneArgument f args run) := by
  unfold oneArgument
  split
  · exact hrun _ (ha _ (by simp))
  · exact gives_mismatch _

theorem twoArguments_gives (ha : ∀ v ∈ args, v.HandlesIn K) {run : Value → Value → Result}
    (hrun : ∀ v w, v.HandlesIn K → w.HandlesIn K → Gives (HandlesIn K) NotHost (run v w)) :
    Gives (HandlesIn K) NotHost (twoArguments f args run) := by
  unfold twoArguments
  split
  · exact hrun _ _ (ha _ (by simp)) (ha _ (by simp))
  · exact gives_mismatch _

theorem threeArguments_gives (ha : ∀ v ∈ args, v.HandlesIn K) {run : Value → Value → Value → Result}
    (hrun : ∀ u v w, u.HandlesIn K → Gives (HandlesIn K) NotHost (run u v w)) :
    Gives (HandlesIn K) NotHost (threeArguments f args run) := by
  unfold threeArguments
  split
  · exact hrun _ _ _ (ha _ (by simp))
  · exact gives_mismatch _

theorem stringArgument_gives (f : Builtin) (v : Value) :
    Gives (fun _ => True) NotHost (stringArgument f v) := by
  unfold stringArgument
  split
  · exact .ok trivial
  · exact gives_mismatch _

theorem listArgument_gives (f : Builtin) (hv : v.HandlesIn K) :
    Gives (fun items => ∀ item ∈ items, item.HandlesIn K) NotHost (listArgument f v) := by
  unfold listArgument
  split
  · exact .ok (Value.handlesIn_list.1 hv)
  · exact gives_mismatch _

theorem integerArgument_gives (f : Builtin) (v : Value) :
    Gives (fun _ => True) NotHost (integerArgument f v) := by
  unfold integerArgument
  split
  · exact .ok trivial
  · exact gives_mismatch _

theorem numberArgument_gives (f : Builtin) (v : Value) :
    Gives (fun _ => True) NotHost (numberArgument f v) := by
  unfold numberArgument
  split
  · exact .ok trivial
  · exact gives_mismatch _

/-! ### Functions -/

theorem lengthOf_gives (v : Value) : Gives (HandlesIn K) NotHost (lengthOf v) := by
  unfold lengthOf
  split
  · exact .ok (Value.handlesIn_ofNat _)
  · exact .ok (Value.handlesIn_ofNat _)
  · exact .ok (Value.handlesIn_ofNat _)
  · exact gives_mismatch _

theorem toInt_gives (v : Value) : Gives (HandlesIn K) NotHost (toInt v) := by
  unfold toInt
  split
  · exact gives_int _
  · exact gives_int _
  · exact gives_int _
  · split
    · exact gives_int _
    · exact gives_mismatch _
  · exact gives_mismatch _

theorem toFloat_gives (v : Value) : Gives (HandlesIn K) NotHost (toFloat v) := by
  unfold toFloat
  split
  · split
    · exact gives_float _
    · exact gives_mismatch _
  · split
    · exact gives_float _
    · exact gives_mismatch _

theorem rangeOf_gives (args : List Value) : Gives (HandlesIn K) NotHost (rangeOf args) := by
  have hbetween (start stop : Int64) : (integersBetween start stop).HandlesIn K := by
    refine Value.handlesIn_list.2 fun v hv => ?_
    obtain ⟨i, -, rfl⟩ := List.mem_map.1 hv
    exact Value.handlesIn_int _
  unfold rangeOf
  split
  · exact (integerArgument_gives ..).bind fun stop _ _ => .ok (hbetween 0 stop)
  · exact (integerArgument_gives ..).bind fun start _ _ =>
      (integerArgument_gives ..).bind fun stop _ _ => .ok (hbetween start stop)
  · exact gives_mismatch _

theorem onString_gives (ha : ∀ v ∈ args, v.HandlesIn K) {run : String → Value}
    (hrun : ∀ s, (run s).HandlesIn K) : Gives (HandlesIn K) NotHost (onString f args run) :=
  oneArgument_gives ha fun v _ => (stringArgument_gives f v).map fun s _ => hrun s

theorem onStrings_gives (ha : ∀ v ∈ args, v.HandlesIn K) {run : List Char → List Char → Value}
    (hrun : ∀ s t, (run s t).HandlesIn K) : Gives (HandlesIn K) NotHost (onStrings f args run) :=
  twoArguments_gives ha fun _ _ _ _ => (stringArgument_gives ..).bind fun s _ _ =>
    (stringArgument_gives ..).bind fun t _ _ => .ok (hrun s.toList t.toList)

theorem splitText_gives (args : List Value) : Gives (HandlesIn K) NotHost (splitText args) := by
  have hparts (parts : List (List Char)) : (stringList parts).HandlesIn K := by
    refine Value.handlesIn_list.2 fun v hv => ?_
    obtain ⟨part, -, rfl⟩ := List.mem_map.1 hv
    exact Value.handlesIn_str _
  unfold splitText
  split
  · exact (stringArgument_gives ..).bind fun text _ _ => .ok (hparts _)
  · exact (stringArgument_gives ..).bind fun text _ _ =>
      (stringArgument_gives ..).bind fun mark _ _ => .ok (hparts _)
  · exact gives_mismatch _

theorem replaceText_gives (ha : ∀ v ∈ args, v.HandlesIn K) :
    Gives (HandlesIn K) NotHost (replaceText args) :=
  threeArguments_gives ha fun _ _ _ _ => (stringArgument_gives ..).bind fun _ _ _ =>
    (stringArgument_gives ..).bind fun _ _ _ => (stringArgument_gives ..).bind fun _ _ _ => gives_str _

theorem joinTexts_gives (ha : ∀ v ∈ args, v.HandlesIn K) : Gives (HandlesIn K) NotHost (joinTexts args) :=
  twoArguments_gives ha fun _ _ hv _ => (listArgument_gives _ hv).bind fun _ _ _ =>
    (stringArgument_gives ..).bind fun _ _ _ => gives_str _

theorem absolute_gives (v : Value) : Gives (HandlesIn K) NotHost (absolute v) := by
  unfold absolute
  split
  · exact gives_int _
  · exact (numberArgument_gives ..).bind fun x _ _ => gives_float _

theorem best_gives (f : Builtin) (prefer : Ordering) (candidates : List Value) :
    (∀ v ∈ candidates, v.HandlesIn K) → Gives (HandlesIn K) NotHost (match candidates with
      | [] => refuse (.emptySequence f.name)
      | v :: others => do
        let best ← others.foldlM (better f prefer) v
        let _ ← numberArgument f best
        return best) := by
  intro hc
  cases candidates with
  | nil => exact gives_mismatch _
  | cons v others =>
    refine (Gives.foldlM (fun candidate hm best hb => ?_) (hc v (by simp))).bind
      fun best _ hb => (numberArgument_gives f best).bind fun _ _ _ => .ok hb
    unfold better
    refine (numberArgument_gives ..).bind fun x _ _ => (numberArgument_gives ..).bind fun y _ _ => .ok ?_
    split
    · exact hc candidate (by simp [hm])
    · exact hb

theorem extremum_gives (f : Builtin) (prefer : Ordering) (ha : ∀ v ∈ args, v.HandlesIn K) :
    Gives (HandlesIn K) NotHost (extremum f prefer args) := by
  unfold extremum
  refine best_gives f prefer _ ?_
  split
  · exact Value.handlesIn_list.1 (ha _ (by simp))
  · exact ha

theorem roundNumber_gives (args : List Value) : Gives (HandlesIn K) NotHost (roundNumber args) := by
  unfold roundNumber
  split
  · exact (numberArgument_gives ..).bind fun x _ _ => gives_int _
  · exact (integerArgument_gives ..).bind fun digits _ _ =>
      (numberArgument_gives ..).bind fun x _ _ => gives_float _
  · exact gives_mismatch _

theorem sumOf_gives (ha : ∀ v ∈ args, v.HandlesIn K) : Gives (HandlesIn K) NotHost (sumOf args) := by
  refine oneArgument_gives ha fun v hv => (listArgument_gives .sum hv).bind fun items _ _ => ?_
  split
  · refine (Gives.foldlM (Q := fun _ => True) (fun item _ total _ => ?_) trivial).bind
      fun total _ _ => gives_int _
    exact (integerArgument_gives ..).bind fun n _ _ => .ok trivial
  · refine (Gives.foldlM (Q := fun _ => True) (fun item _ total _ => ?_) trivial).bind
      fun total _ _ => gives_float _
    exact (numberArgument_gives ..).bind fun x _ _ => .ok trivial

theorem sortItems_gives (ha : ∀ v ∈ args, v.HandlesIn K) : Gives (HandlesIn K) NotHost (sortItems args) := by
  have hkey (item : Value) : Gives (fun _ => True) NotHost (sortKey item) := by
    unfold sortKey
    split
    · exact .ok trivial
    · split
      · exact .ok trivial
      · exact gives_mismatch _
  refine oneArgument_gives ha fun v hv => (listArgument_gives .sorted hv).bind fun items _ hitems => ?_
  have hkeyed : ∀ item ∈ items, Gives (fun keyed : SortKey × Value => keyed.2.HandlesIn K) NotHost
      (do return (← sortKey item, item)) :=
    fun item hm => (hkey item).bind fun _ _ _ => .ok (hitems item hm)
  refine (Gives.mapM hkeyed).bind fun keyed _ hk => .ok (Value.handlesIn_list.2 fun v hv => ?_)
  obtain ⟨entry, he, rfl⟩ := List.mem_map.1 hv
  exact hk entry (List.mem_mergeSort.1 he)

theorem reverseOf_gives (hv : v.HandlesIn K) : Gives (HandlesIn K) NotHost (reverseOf v) := by
  unfold reverseOf
  split
  · exact gives_str _
  · refine (listArgument_gives .reversed hv).bind fun items _ hi => .ok (Value.handlesIn_list.2 ?_)
    exact fun item hm => hi item (List.mem_reverse.1 hm)

theorem sliceItems_gives (ha : ∀ v ∈ args, v.HandlesIn K) : Gives (HandlesIn K) NotHost (sliceItems args) := by
  refine threeArguments_gives ha fun v start stop hv => (listArgument_gives .slice hv).bind
    fun items _ hi => (integerArgument_gives ..).bind fun start _ _ =>
      (integerArgument_gives ..).bind fun stop _ _ => .ok (Value.handlesIn_list.2 fun item hm => ?_)
  exact hi item (List.mem_of_mem_take (List.mem_of_mem_drop hm))

theorem enumerateItems_gives (hv : v.HandlesIn K) : Gives (HandlesIn K) NotHost (enumerateItems v) := by
  refine (listArgument_gives .enumerate hv).bind fun items _ hi => .ok (Value.handlesIn_list.2 fun pair hp => ?_)
  obtain ⟨⟨item, i⟩, hm, rfl⟩ := List.mem_map.1 hp
  refine Value.handlesIn_list.2 fun part hpart => ?_
  rcases List.mem_cons.1 hpart with rfl | hpart
  · exact Value.handlesIn_ofNat _
  · rw [List.mem_singleton.1 hpart]
    exact hi item (List.fst_mem_of_mem_zipIdx hm)

/-- A function gives only handles that its arguments hold. -/
theorem call_gives (f : Builtin) (ha : ∀ v ∈ args, v.HandlesIn K) :
    Gives (HandlesIn K) NotHost (f.call args) := by
  unfold Builtin.call
  cases f with
  | len => exact oneArgument_gives ha fun v _ => lengthOf_gives v
  | str => exact oneArgument_gives ha fun v _ => gives_str _
  | int => exact oneArgument_gives ha fun v _ => toInt_gives v
  | float => exact oneArgument_gives ha fun v _ => toFloat_gives v
  | bool => exact oneArgument_gives ha fun v _ => gives_bool _
  | range => exact rangeOf_gives args
  | upper | lower | strip | title => exact onString_gives ha fun _ => Value.handlesIn_str _
  | replace => exact replaceText_gives ha
  | split => exact splitText_gives args
  | join => exact joinTexts_gives ha
  | startsWith => exact onStrings_gives ha fun _ _ => Value.handlesIn_bool _
  | endsWith => exact onStrings_gives ha fun _ _ => Value.handlesIn_bool _
  | abs => exact oneArgument_gives ha fun v _ => absolute_gives v
  | min | max => exact extremum_gives _ _ ha
  | round => exact roundNumber_gives args
  | floor | ceil =>
    exact oneArgument_gives ha fun v _ => (numberArgument_gives ..).bind fun x _ _ => gives_int _
  | sum => exact sumOf_gives ha
  | sorted => exact sortItems_gives ha
  | reversed => exact oneArgument_gives ha fun v hv => reverseOf_gives hv
  | first =>
    refine oneArgument_gives ha fun v hv => (listArgument_gives _ hv).bind fun items _ hi => .ok ?_
    cases items with
    | nil => exact Value.handlesIn_nothing
    | cons v items => exact hi v (by simp)
  | last =>
    refine oneArgument_gives ha fun v hv => (listArgument_gives _ hv).bind fun items _ hi => .ok ?_
    cases hlast : items.getLast? with
    | none => exact Value.handlesIn_nothing
    | some v => exact hi v (List.mem_of_getLast? hlast)
  | slice => exact sliceItems_gives ha
  | enumerate => exact oneArgument_gives ha fun v hv => enumerateItems_gives hv

end Host

/-! ### Expressions -/

namespace HostExpr

/-- The literals hold no handle, and the functions called are known. -/
structure IsRunnable (libraries : List Host.Library) (e : HostExpr) : Prop where
  tame : e.IsTame
  called : ∀ f ∈ e.called, (Host.findFunction? libraries f).isSome

theorem IsRunnable.part {libraries : List Host.Library} {d e : HostExpr} (h : e.IsRunnable libraries)
    (hl : d.literals ⊆ e.literals) (hc : d.called ⊆ e.called) : d.IsRunnable libraries :=
  ⟨fun v hv => h.tame v (hl hv), fun f hf => h.called f (hc hf)⟩

theorem mem_calledAll {f : String} {es : List HostExpr} : f ∈ calledAll es ↔ ∃ e ∈ es, f ∈ e.called := by
  induction es with
  | nil => simp [calledAll]
  | cons e es ih => simp [calledAll, ih]

theorem IsRunnable.items {libraries : List Host.Library} {e : HostExpr} {es : List HostExpr}
    (h : e.IsRunnable libraries) (hl : literalsAll es ⊆ e.literals) (hc : calledAll es ⊆ e.called) :
    ∀ d ∈ es, d.IsRunnable libraries := by
  intro d hd
  refine h.part (fun v hv => hl ?_) fun f hf => hc ?_
  · exact mem_literalsAll.2 ⟨d, hd, hv⟩
  · exact mem_calledAll.2 ⟨d, hd, hf⟩

end HostExpr

namespace HostRuntime

variable {K : MacroHandle → Prop} {libraries : List Host.Library} {σ : Scope}

mutual

theorem eval_gives (hσ : σ.HandlesIn K) : ∀ e : HostExpr, e.IsRunnable libraries →
    Gives (HandlesIn K) NotHost (eval libraries σ e)
  | .literal v, h => .ok (.of_eq_nil (h.tame v (by simp [HostExpr.literals])))
  | .name n, _ => by
    rw [eval]
    split
    · next hv => exact .ok (hσ.get? hv)
    · exact .error (.undefinedVariable n)
  | .list items, h => by
    rw [eval]
    refine (evalAll_gives hσ items ?_).map fun vs hvs => Value.handlesIn_list.2 hvs
    exact h.items (List.Subset.refl _) (List.Subset.refl _)
  | .unary .not e, h => by
    rw [eval]
    exact (eval_gives hσ e (h.part (List.Subset.refl _) (List.Subset.refl _))).map
      fun v _ => Value.handlesIn_bool _
  | .unary .neg e, h => by
    rw [eval]
    exact (eval_gives hσ e (h.part (List.Subset.refl _) (List.Subset.refl _))).bind
      fun v _ _ => Host.negate_gives v
  | .binary op l r, h => by
    have hl := eval_gives hσ l (h.part (List.subset_append_left ..) (List.subset_append_left ..))
    have hr := eval_gives hσ r (h.part (List.subset_append_right ..) (List.subset_append_right ..))
    rw [eval]
    refine hl.bind fun left _ hleft => ?_
    cases op
    case and =>
      dsimp only
      split
      · exact hr
      · exact .ok hleft
    case or =>
      dsimp only
      split
      · exact .ok hleft
      · exact hr
    all_goals exact hr.bind fun right _ hright => Host.binary_gives hleft hright _
  | .member e n, h => by
    rw [eval]
    refine (eval_gives hσ e (h.part (List.Subset.refl _) (List.Subset.refl _))).bind fun v _ hv => ?_
    split
    · next hpart => exact .ok (hv.get? hpart)
    · exact .error (.navigation _ _ _)
  | .index e i, h => by
    have he := eval_gives hσ e (h.part (List.subset_append_left ..) (List.subset_append_left ..))
    have hi := eval_gives hσ i (h.part (List.subset_append_right ..) (List.subset_append_right ..))
    rw [eval]
    exact he.bind fun v _ hv => hi.bind fun j _ _ => Host.subscript_gives hv j
  | .call f args, h => by
    have hargs := evalAll_gives hσ args (h.items (List.Subset.refl _) (List.subset_cons_self ..))
    have hf := h.called f (by simp [HostExpr.called])
    rw [eval]
    split
    · next builtin _ => exact hargs.bind fun vs _ hvs => Host.call_gives builtin hvs
    · next hnone =>
      rw [hnone] at hf
      cases hf

theorem evalAll_gives (hσ : σ.HandlesIn K) : ∀ es : List HostExpr, (∀ e ∈ es, e.IsRunnable libraries) →
    Gives (fun vs => ∀ v ∈ vs, v.HandlesIn K) NotHost (evalAll libraries σ es)
  | [], _ => .ok (List.forall_mem_nil _)
  | e :: es, h => by
    rw [evalAll]
    refine (eval_gives hσ e (h e (by simp))).bind fun v _ hv =>
      (evalAll_gives hσ es fun e he => h e (by simp [he])).bind fun vs _ hvs => .ok fun w hw => ?_
    rcases List.mem_cons.1 hw with rfl | hw
    · exact hv
    · exact hvs w hw

end

end HostRuntime

end MarkupTemplate
