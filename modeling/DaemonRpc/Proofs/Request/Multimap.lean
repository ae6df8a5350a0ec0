import Mathlib.Data.List.Basic
import Mathlib.Data.List.TakeWhile
import DaemonRpc.Proofs.Request.Query

/-!
# Parameters as a multimap

Parameters are a list of pairs in the order in which they were added, and every operation on them is
an operation on this list.

* `overlay_assoc`: layers may be merged in either grouping.
* `Params.pairs_set_eq`: setting a key puts one pair in the place of its first one.
* `Params.pairs_run`: after any operations the pairs are those that a list would hold.
* `Params.multimap_laws`: these together, with what is read from the parameters.
-/

namespace DaemonRpc

open Url.Form (Pair)

variable {key value : String} {pairs earlier later : List Pair}

/-! ## Lists of pairs -/

/-- The values of the pairs with a key. -/
def valuesOf (key : String) (pairs : List Pair) : List String :=
  pairs.filterMap fun pair => if pair.1 = key then some pair.2 else none

/-- One pair for a key, in the place of its first one or at the end, and no other pair for it. -/
def placed (key value : String) (pairs : List Pair) : List Pair :=
  pairs.takeWhile (fun pair => pair.1 ≠ key) ++
    (key, value) :: (pairs.dropWhile fun pair => pair.1 ≠ key).filter fun pair => pair.1 ≠ key

theorem valuesOf_append (key : String) (first second : List Pair) :
    valuesOf key (first ++ second) = valuesOf key first ++ valuesOf key second :=
  List.filterMap_append

/-- A key has no value if it is no key of a pair. -/
theorem valuesOf_eq_nil (h : ∀ pair ∈ pairs, pair.1 ≠ key) : valuesOf key pairs = [] :=
  List.filterMap_eq_nil_iff.2 fun pair hpair => if_neg (h pair hpair)

/-- Taking pairs with other keys away leaves the values of a key. -/
theorem valuesOf_filter {p : Pair → Bool} (h : ∀ pair ∈ pairs, pair.1 = key → p pair = true) :
    valuesOf key (pairs.filter p) = valuesOf key pairs := by
  rw [valuesOf, valuesOf, List.filterMap_filter]
  refine List.filterMap_congr fun pair hpair => ?_
  by_cases hkey : pair.1 = key
  · rw [if_pos (h pair hpair hkey)]
  · simp [hkey]

/-! ## Layers -/

theorem mem_keys_overlay :
    key ∈ (overlay earlier later).map Prod.fst ↔
      key ∈ earlier.map Prod.fst ∨ key ∈ later.map Prod.fst := by
  rw [overlay, List.map_append, List.mem_append]
  constructor
  · rintro (h | h)
    · obtain ⟨pair, hpair, rfl⟩ := List.mem_map.1 h
      exact .inl (List.mem_map_of_mem (List.mem_filter.1 hpair).1)
    · exact .inr h
  · rintro (h | h)
    · -- A key of the earlier layer is left, or the later layer has it too.
      by_cases hlater : key ∈ later.map Prod.fst
      · exact .inr hlater
      · obtain ⟨pair, hpair, rfl⟩ := List.mem_map.1 h
        exact .inl (List.mem_map_of_mem (List.mem_filter.2 ⟨hpair, decide_eq_true hlater⟩))
    · exact .inr h

/-- Three layers make one in either grouping. -/
theorem overlay_assoc (a b c : List Pair) : overlay (overlay a b) c = overlay a (overlay b c) := by
  have hkept : ((a.filter fun pair => pair.1 ∉ b.map Prod.fst).filter
      fun pair => pair.1 ∉ c.map Prod.fst) =
        a.filter fun pair => pair.1 ∉ (overlay b c).map Prod.fst := by
    rw [List.filter_filter]
    refine List.filter_congr fun pair _ => ?_
    rw [Bool.eq_iff_iff, Bool.and_eq_true, decide_eq_true_iff, decide_eq_true_iff,
      decide_eq_true_iff, mem_keys_overlay, not_or, and_comm]
  calc overlay (overlay a b) c
      = ((a.filter fun pair => pair.1 ∉ b.map Prod.fst).filter
          fun pair => pair.1 ∉ c.map Prod.fst) ++ overlay b c := by
        rw [overlay, overlay, List.filter_append, List.append_assoc]
        rfl
    _ = overlay a (overlay b c) := by
        rw [hkept]
        rfl

theorem overlay_nil (pairs : List Pair) : overlay pairs [] = pairs := by
  rw [overlay, List.append_nil]
  exact List.filter_eq_self.2 fun _ _ => decide_eq_true List.not_mem_nil

/-- A key has the values of the later layer if that has the key, and else those of the earlier. -/
theorem valuesOf_overlay (key : String) (earlier later : List Pair) :
    valuesOf key (overlay earlier later) =
      if key ∈ later.map Prod.fst then valuesOf key later else valuesOf key earlier := by
  rw [overlay, valuesOf_append]
  split
  · next hkey =>
    -- What is left of the earlier layer has other keys.
    rw [valuesOf_eq_nil, List.nil_append]
    rintro pair hpair rfl
    exact of_decide_eq_true (List.mem_filter.1 hpair).2 hkey
  · next hkey =>
    have hlater : valuesOf key later = [] :=
      valuesOf_eq_nil fun pair hpair heq => hkey (List.mem_map.2 ⟨pair, hpair, heq⟩)
    rw [hlater, List.append_nil]
    exact valuesOf_filter fun pair _ heq => decide_eq_true (heq ▸ hkey)

/-! ## Placing a pair -/

theorem ne_of_mem_takeWhile {pair : Pair}
    (h : pair ∈ pairs.takeWhile fun pair => pair.1 ≠ key) : pair.1 ≠ key := by
  simpa using List.mem_takeWhile_imp h

theorem ne_of_mem_filter {pair : Pair} (h : pair ∈ pairs.filter fun pair => pair.1 ≠ key) :
    pair.1 ≠ key :=
  of_decide_eq_true (List.mem_filter.1 h).2

theorem valuesOf_placed (key value : String) (pairs : List Pair) :
    valuesOf key (placed key value pairs) = [value] := by
  have hvalue : valuesOf key [(key, value)] = [value] := by simp [valuesOf]
  rw [placed, ← List.singleton_append, valuesOf_append, valuesOf_append, hvalue,
    valuesOf_eq_nil fun _ => ne_of_mem_takeWhile, valuesOf_eq_nil fun _ => ne_of_mem_filter]
  rfl

/-- The pairs with other keys stay as they are, in their order. -/
theorem filter_placed (key value : String) (pairs : List Pair) :
    (placed key value pairs).filter (fun pair => pair.1 ≠ key) =
      pairs.filter fun pair => pair.1 ≠ key := by
  conv_rhs => rw [← List.takeWhile_append_dropWhile (p := fun pair => pair.1 ≠ key) (l := pairs)]
  rw [placed, List.filter_append, List.filter_append, List.filter_cons_of_neg (by simp),
    List.filter_filter]
  simp only [Bool.and_self]

/-- Of two values that are placed one after the other only the second is left. -/
theorem placed_placed (key first second : String) (pairs : List Pair) :
    placed key second (placed key first pairs) = placed key second pairs := by
  have hbefore : ∀ pair ∈ pairs.takeWhile (fun pair => pair.1 ≠ key),
      decide (pair.1 ≠ key) = true := fun _ => List.mem_takeWhile_imp
  -- The pair that was put first is cut off where it stands, and then it is filtered out.
  rw [placed, placed, List.takeWhile_append_of_pos hbefore, List.dropWhile_append_of_pos hbefore,
    List.takeWhile_cons_of_neg (by simp), List.dropWhile_cons_of_neg (by simp), List.append_nil,
    List.filter_cons_of_neg (by simp), List.filter_filter, placed]
  simp only [Bool.and_self]

namespace Params

/-! ## Operations -/

/-- An operation on parameters. -/
inductive Edit where
  | append (key value : String)
  | set (key value : String)
  | remove (key : String)
  | merge (other : Params)

/-- The parameters after an operation. -/
def edit (p : Params) : Edit → Params
  | .append key value => p.append key value
  | .set key value => p.set key value
  | .remove key => p.remove key
  | .merge other => p.merge other

/-- The parameters after operations one behind the other. -/
def run (p : Params) (edits : List Edit) : Params := edits.foldl edit p

/-- What an operation does to a list of pairs. -/
def Edit.onPairs (pairs : List Pair) : Edit → List Pair
  | .append key value => pairs ++ [(key, value)]
  | .set key value => placed key value pairs
  | .remove key => pairs.filter fun pair => pair.1 ≠ key
  | .merge other => overlay pairs other.pairs

theorem setPairs_eq (key value : String) (pairs : List Pair) :
    setPairs key value pairs = placed key value pairs := by
  induction pairs with
  | nil => rfl
  | cons pair rest ih =>
    rw [setPairs]
    by_cases hkey : pair.1 = key
    · simp [placed, hkey]
    · rw [if_neg hkey, ih]
      simp [placed, hkey]

/-- Setting a key puts one pair in the place of its first one. -/
theorem pairs_set_eq (p : Params) (key value : String) :
    (p.set key value).pairs = placed key value p.pairs :=
  setPairs_eq key value p.pairs

theorem pairs_edit (p : Params) (e : Edit) : (p.edit e).pairs = e.onPairs p.pairs := by
  cases e with
  | append key value => rfl
  | set key value => exact pairs_set_eq p key value
  | remove key => rfl
  | merge other => exact pairs_merge p other

/-- After operations the pairs are those that a list would hold. -/
theorem pairs_run (p : Params) (edits : List Edit) :
    (p.run edits).pairs = edits.foldl Edit.onPairs p.pairs := by
  induction edits generalizing p with
  | nil => rfl
  | cons e edits ih =>
    rw [List.foldl_cons, ← pairs_edit]
    exact ih (p.edit e)

/-! ## What is read -/

theorem getAll_eq (p : Params) (key : String) : p.getAll key = valuesOf key p.pairs := by
  rw [getAll, valuesOf]
  induction p.pairs with
  | nil => rfl
  | cons pair rest ih => by_cases hkey : pair.1 = key <;> simp [hkey, ih]

/-- The first value of a key is the one that is looked up. -/
theorem get?_eq (p : Params) (key : String) : p.get? key = p.pairs.lookup key := by
  rw [get?]
  induction p.pairs with
  | nil => rfl
  | cons pair rest ih =>
    rw [List.find?_cons, List.lookup_cons]
    by_cases hkey : pair.1 = key
    · simp [hkey]
    · simpa [hkey, beq_false_of_ne (Ne.symm hkey)] using ih

theorem merge_assoc (a b c : Params) : (a.merge b).merge c = a.merge (b.merge c) := by
  have h : ((a.merge b).merge c).pairs = (a.merge (b.merge c)).pairs := by
    simp only [pairs_merge, overlay_assoc]
  exact congrArg Params.mk h

theorem getAll_merge (a b : Params) (key : String) :
    (a.merge b).getAll key = if b.contains key then b.getAll key else a.getAll key := by
  simp only [getAll_eq, pairs_merge, valuesOf_overlay, contains_eq, decide_eq_true_eq]

theorem set_set (p : Params) (key first second : String) :
    (p.set key first).set key second = p.set key second := by
  have h : ((p.set key first).set key second).pairs = (p.set key second).pairs := by
    simp only [pairs_set_eq, placed_placed]
  exact congrArg Params.mk h

/-- Merging is associative and has no parameters as its unit. Under each key it gives the values of
the second operand if that has the key, and else those of the first; the pairs that are left of the
first come before those of the second, each in their order. Setting a key leaves it one value, in
the place of its first one or at the end, and all other pairs as they are; to set it again changes
nothing more. After any operations, all that is read is read from the list of pairs on which each of
them was made. -/
theorem multimap_laws :
    (∀ a b c : Params, (a.merge b).merge c = a.merge (b.merge c)) ∧
    (∀ a : Params, a.merge {} = a ∧ Params.merge {} a = a) ∧
    (∀ a b : Params, (a.merge b).pairs =
      (a.pairs.filter fun pair => pair.1 ∉ b.pairs.map Prod.fst) ++ b.pairs) ∧
    (∀ (a b : Params) (key : String),
      (a.merge b).getAll key = if b.contains key then b.getAll key else a.getAll key) ∧
    (∀ (p : Params) (key value : String),
      (p.set key value).getAll key = [value] ∧
      (p.set key value).pairs = p.pairs.takeWhile (fun pair => pair.1 ≠ key) ++
        (key, value) ::
          (p.pairs.dropWhile fun pair => pair.1 ≠ key).filter (fun pair => pair.1 ≠ key) ∧
      (p.set key value).pairs.filter (fun pair => pair.1 ≠ key) =
        p.pairs.filter (fun pair => pair.1 ≠ key) ∧
      (p.set key value).set key value = p.set key value) ∧
    ∀ (p : Params) (edits : List Edit),
      let pairs := edits.foldl Edit.onPairs p.pairs
      (p.run edits).pairs = pairs ∧ (p.run edits).size = pairs.length ∧
        ∀ key, (p.run edits).get? key = pairs.lookup key ∧
          (p.run edits).getAll key = valuesOf key pairs ∧
          (p.run edits).contains key = decide (key ∈ pairs.map Prod.fst) ∧
          ((p.run edits).remove key).pairs = pairs.filter fun pair => pair.1 ≠ key := by
  refine ⟨merge_assoc, fun a => ⟨?_, ?_⟩, pairs_merge, getAll_merge, fun p key value => ?_,
    fun p edits => ?_⟩
  · exact congrArg Params.mk ((pairs_merge a {}).trans (overlay_nil a.pairs))
  · exact congrArg Params.mk (pairs_merge {} a)
  · refine ⟨?_, pairs_set_eq p key value, ?_, set_set p key value value⟩
    · rw [getAll_eq, pairs_set_eq, valuesOf_placed]
    · rw [pairs_set_eq, filter_placed]
  · intro pairs
    have hpairs : (p.run edits).pairs = pairs := pairs_run p edits
    refine ⟨hpairs, congrArg List.length hpairs, fun key => ⟨?_, ?_, ?_, ?_⟩⟩
    · rw [get?_eq, hpairs]
    · rw [getAll_eq, hpairs]
    · rw [contains_eq, hpairs]
    · rw [remove, hpairs]

end Params

end DaemonRpc
