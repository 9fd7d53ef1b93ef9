import ChatCalculator.Registry
import Mathlib.Data.Finset.Card
import Mathlib.Data.List.Dedup
import Mathlib.Data.List.DropRight

/-!
# Registries in order of use

If every use of a key pushes it, a registry lists its keys by their last use. Dropping its first
key then drops the one that was not used for longest. So a key can only be dropped when as many
others as there is room for have been used since; the keys that stand behind it are among those.

What is listed can also be told from the uses alone: each key at its last use, cut to as many as
there is room for. Keys that are cut off once may be forgotten, as `lastUsed_concat` says, and that
is why the table itself needs no history.

## Main definitions

* `Registry.FollowedWithin`: a key is there, and all keys behind it belong to a given set
* `lastUsed`: the keys of a list of uses, ordered by their last use and cut

## Main results

* `lastUsed_concat`: what is kept after one more use
* `replace_push`, `replace_tail`: replacing a value does not disturb the order of use
* `find?_tail`: dropping the first key leaves the others as they are
* `FollowedWithin.push`: one more use puts one more key behind
* `FollowedWithin.head?_ne`: a key is not the first one while the set is small enough
-/

namespace ChatCalculator

section LastUsed

variable {κ : Type}

/-! ### Keys by their last use -/

theorem rtake_of_length_le {l : List κ} {m : ℕ} (h : l.length ≤ m) : l.rtake m = l := by
  rw [List.rtake, Nat.sub_eq_zero_of_le h, List.drop_zero]

theorem rtake_append_of_le_length {older newer : List κ} {m : ℕ} (h : m ≤ newer.length) :
    (older ++ newer).rtake m = newer.rtake m := by
  rw [List.rtake, List.rtake, List.length_append,
    show older.length + newer.length - m = older.length + (newer.length - m) by omega,
    List.drop_append, List.drop_eq_nil_of_le (by omega), List.nil_append, Nat.add_sub_cancel_left]

variable [DecidableEq κ]

/-- The keys of a list of uses, each at its last use, cut to the `m` used last. -/
def lastUsed (m : ℕ) (uses : List κ) : List κ :=
  uses.dedup.rtake m

theorem lastUsed_nil (m : ℕ) : lastUsed m ([] : List κ) = [] := by
  rw [lastUsed, List.dedup_nil, List.rtake_nil]

theorem length_lastUsed_le (m : ℕ) (uses : List κ) : (lastUsed m uses).length ≤ m := by
  rw [lastUsed, List.rtake, List.length_drop]
  omega

/-- One more use takes a key away from where it was, and puts it last. -/
theorem dedup_concat (uses : List κ) (k : κ) :
    (uses ++ [k]).dedup = uses.dedup.filter (· ≠ k) ++ [k] := by
  induction uses with
  | nil => rfl
  | cons j uses ih =>
    rw [List.cons_append, List.dedup_cons, List.dedup_cons]
    by_cases hj : j ∈ uses
    · rw [if_pos hj, if_pos (List.mem_append_left _ hj), ih]
    · by_cases hjk : j = k
      · rw [if_neg hj, if_pos (by simp [hjk]), ih, List.filter_cons_of_neg (by simp [hjk])]
      · rw [if_neg hj, if_neg (by simp [hj, hjk]), ih, List.filter_cons_of_pos (by simp [hjk]),
          List.cons_append]

/-- A key stands in one place at most. -/
theorem length_le_length_filter_ne {l : List κ} (h : l.Nodup) (k : κ) :
    l.length ≤ (l.filter (· ≠ k)).length + 1 := by
  have herase : l.erase k = l.filter (· ≠ k) := by
    rw [h.erase_eq_filter]
    exact List.filter_congr fun j _ => by rw [decide_not]; rfl
  have hlength := List.le_length_erase (a := k) (l := l)
  rw [herase] at hlength
  omega

/-- **Keys that are cut off may be forgotten**: what is kept after one more use does not depend on
them. -/
theorem lastUsed_concat (m : ℕ) (uses : List κ) (k : κ) :
    lastUsed m (uses ++ [k]) = ((lastUsed m uses).filter (· ≠ k) ++ [k]).rtake m := by
  rw [lastUsed, lastUsed, dedup_concat]
  by_cases hm : uses.dedup.length ≤ m
  · rw [rtake_of_length_le hm]
  · have hsplit : uses.dedup = uses.dedup.rdrop m ++ uses.dedup.rtake m :=
      (List.take_append_drop _ _).symm
    have hlength : (uses.dedup.rtake m).length = m := by
      rw [List.rtake, List.length_drop]
      omega
    -- the use takes away at most one of the `m` keys that were kept, and adds one
    have hfilter : m ≤ ((uses.dedup.rtake m).filter (· ≠ k) ++ [k]).length := by
      have hnodup : (uses.dedup.rtake m).Nodup :=
        (List.nodup_dedup uses).sublist (List.drop_sublist _ _)
      have := length_le_length_filter_ne hnodup k
      rw [List.length_append, List.length_singleton]
      omega
    conv_lhs => rw [hsplit, List.filter_append, List.append_assoc]
    exact rtake_append_of_le_length hfilter

end LastUsed

namespace Registry

variable {κ α : Type}

theorem length_keys (r : Registry κ α) : r.keys.length = r.size :=
  List.length_map _

theorem keys_tail (r : Registry κ α) : r.tail.keys = r.keys.tail :=
  List.map_tail

/-! ### What stands behind a key -/

/-- Whether a key is there and all keys behind it are among the given ones. -/
def FollowedWithin (r : Registry κ α) (k : κ) (later : Finset κ) : Prop :=
  ∃ older newer, r.keys = older ++ k :: newer ∧ ∀ j ∈ newer, j ∈ later

variable {r : Registry κ α} {k : κ} {later : Finset κ}

theorem FollowedWithin.mono (h : r.FollowedWithin k later) {more : Finset κ} (hsub : later ⊆ more) :
    r.FollowedWithin k more := by
  obtain ⟨older, newer, hkeys, hnewer⟩ := h
  exact ⟨older, newer, hkeys, fun j hj => hsub (hnewer j hj)⟩

/-- A key that is not the first one keeps its place. -/
theorem FollowedWithin.tail (h : r.FollowedWithin k later) (hhead : r.keys.head? ≠ some k) :
    r.tail.FollowedWithin k later := by
  obtain ⟨older, newer, hkeys, hnewer⟩ := h
  cases older with
  | nil => exact absurd (by rw [hkeys]; rfl) hhead
  | cons i older =>
    refine ⟨older, newer, ?_, hnewer⟩
    rw [keys_tail, hkeys, List.cons_append, List.tail_cons]

variable [DecidableEq κ]

/-! ### Dropping the first key -/

/-- Dropping the first key leaves the others as they are. -/
theorem find?_tail (h : r.keys.head? ≠ some k) :
    r.tail.find? k = r.find? k := by
  obtain ⟨toList, _⟩ := r
  cases toList with
  | nil => rfl
  | cons p ps =>
    have hp : p.1 ≠ k := fun e => h (congrArg some e)
    simp [find?, tail, List.find?_cons_of_neg, hp]

/-- A key that is there without the first one is not the first one itself. -/
theorem find?_of_find?_tail {a : α} (h : r.tail.find? k = some a) : r.find? k = some a := by
  have hmem : k ∈ r.keys.tail := keys_tail r ▸ mem_keys_of_find?_eq_some h
  have hhead : r.keys.head? ≠ some k := by
    intro hhead
    obtain ⟨rest, hrest⟩ := List.head?_eq_some_iff.mp hhead
    have hnodup : r.keys.Nodup := r.nodup
    rw [hrest, List.nodup_cons] at hnodup
    rw [hrest] at hmem
    exact hnodup.1 hmem
  rwa [find?_tail hhead] at h

/-! ### Replacing the value of the key used last -/

theorem replace_tail (r : Registry κ α) (k : κ) (a : α) :
    r.tail.replace k a = (r.replace k a).tail := by
  simp only [replace, tail, List.map_tail]

theorem replace_push (r : Registry κ α) (k : κ) (a b : α) :
    (r.push k a).replace k b = r.push k b := by
  have herase : (r.erase k).toList.map (fun p => if p.1 = k then (k, b) else p) =
      (r.erase k).toList := by
    conv_rhs => rw [← List.map_id (r.erase k).toList]
    refine List.map_congr_left fun p hp => if_neg ?_
    simpa using (List.mem_filter.mp hp).2
  simp [replace, push, herase]

theorem size_push (r : Registry κ α) (k : κ) (a : α) :
    (r.push k a).size = (r.erase k).size + 1 :=
  List.length_append

/-! ### One more use -/

/-- A new key comes behind the others. -/
theorem keys_push_of_notMem (h : k ∉ r.keys) (a : α) : (r.push k a).keys = r.keys ++ [k] := by
  rw [keys_push, List.filter_eq_self.mpr]
  exact fun j hj => decide_eq_true fun hjk => h (hjk ▸ hj)

theorem size_push_of_notMem (h : k ∉ r.keys) (a : α) : (r.push k a).size = r.size + 1 := by
  rw [← length_keys, keys_push_of_notMem h, List.length_append, length_keys]
  rfl

/-- Nothing stands behind the key that was used last. -/
theorem followedWithin_push (r : Registry κ α) (k : κ) (a : α) :
    (r.push k a).FollowedWithin k ∅ :=
  ⟨_, [], keys_push r k a, fun _ h => absurd h List.not_mem_nil⟩

/-- The use of another key puts that key behind. -/
theorem FollowedWithin.push (h : r.FollowedWithin k later) {j : κ} (hj : j ≠ k) (a : α) :
    (r.push j a).FollowedWithin k (later ∪ {j}) := by
  obtain ⟨older, newer, hkeys, hnewer⟩ := h
  refine ⟨older.filter (· ≠ j), newer.filter (· ≠ j) ++ [j], ?_, fun i hi => ?_⟩
  · simp [keys_push, hkeys, List.filter_append, hj.symm]
  · rcases List.mem_append.mp hi with hi | hi
    · exact Finset.mem_union_left _ (hnewer i (List.mem_filter.mp hi).1)
    · exact Finset.mem_union_right _ (Finset.mem_singleton.mpr (List.mem_singleton.mp hi))

/-- A key is not the first one if there are more keys than it and those that may be behind it. -/
theorem FollowedWithin.head?_ne (h : r.FollowedWithin k later) (hsize : later.card + 1 < r.size) :
    r.keys.head? ≠ some k := by
  obtain ⟨older, newer, hkeys, hnewer⟩ := h
  have hnodup : (older ++ k :: newer).Nodup := hkeys ▸ r.nodup
  rw [List.nodup_append, List.nodup_cons] at hnodup
  obtain ⟨-, ⟨-, hnewernodup⟩, hdisjoint⟩ := hnodup
  have hlength : newer.length ≤ later.card := by
    rw [← List.toFinset_card_of_nodup hnewernodup]
    exact Finset.card_le_card fun j hj => hnewer j (List.mem_toFinset.mp hj)
  rw [← length_keys, hkeys, List.length_append, List.length_cons] at hsize
  rw [hkeys]
  cases older with
  | nil => rw [List.length_nil] at hsize; omega
  | cons i older =>
    intro hhead
    exact hdisjoint i List.mem_cons_self k List.mem_cons_self (Option.some.inj hhead)

end Registry

end ChatCalculator
