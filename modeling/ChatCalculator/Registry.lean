/-!
# Tables in order of insertion

A `Registry` maps keys to values and remembers the order in which the keys came. The table of
operators, the settings, the rows of the prefix table and the displays in use are registries:
each is looked up by key, and each is also listed, in an order that its users see.

## Main definitions

* `Registry.find?`, `Registry.insert`, `Registry.erase`: look a key up, give it a value, drop it
* `Registry.push`: give a key a value and move it to the end
* `Registry.ofList`: a registry of pairs, in which the last value of a repeated key counts

## Main results

* `find?_insert`, `find?_erase`, `find?_push`: what a look-up finds after each change
* `filter_toList`, `mem_toList_iff`: a look-up finds what is listed
* `keys_erase`, `keys_push`: where the keys stand after each change
* `toList_insert_of_toList_eq`, `toList_push_of_notMem`: what is listed after them
-/

namespace ChatCalculator

/-- A finite map whose keys keep the order in which they came. -/
structure Registry (κ α : Type) where
  /-- The keys with their values, the first key first. -/
  toList : List (κ × α)
  /-- No key occurs twice. -/
  nodup : (toList.map Prod.fst).Nodup

namespace Registry

variable {κ α : Type}

/-- The keys in order. -/
def keys (r : Registry κ α) : List κ :=
  r.toList.map Prod.fst

/-- The number of keys. -/
def size (r : Registry κ α) : Nat :=
  r.toList.length

/-- The registry without keys. -/
def empty : Registry κ α :=
  ⟨[], List.nodup_nil⟩

/-- Drops the first key and its value. -/
def tail (r : Registry κ α) : Registry κ α :=
  ⟨r.toList.tail, by
    rw [List.map_tail]
    exact r.nodup.sublist (List.tail_sublist _)⟩

/-- Changes every value, keys staying where they are. -/
def mapValues {β : Type} (f : κ → α → β) (r : Registry κ α) : Registry κ β :=
  ⟨r.toList.map fun p => (p.1, f p.1 p.2), by
    rw [List.map_map]
    exact r.nodup⟩

@[simp] theorem keys_mapValues {β : Type} (f : κ → α → β) (r : Registry κ α) :
    (r.mapValues f).keys = r.keys := by
  simp [keys, mapValues]

/-- The pairs before and after a key have other keys. -/
theorem ne_of_toList_eq {r : Registry κ α} {k : κ} {a : α} {before after : List (κ × α)}
    (h : r.toList = before ++ (k, a) :: after) : ∀ p ∈ before ++ after, p.1 ≠ k := by
  have hnodup := r.nodup
  rw [h, List.map_append, List.map_cons, List.perm_middle.nodup_iff, List.nodup_cons,
    ← List.map_append] at hnodup
  have hnotMem : k ∉ (before ++ after).map Prod.fst := hnodup.1
  exact fun p hp hk => hnotMem (hk ▸ List.mem_map_of_mem hp)

section Keys

variable [DecidableEq κ]

/-- The value of a key. -/
def find? (r : Registry κ α) (k : κ) : Option α :=
  (r.toList.find? (·.1 = k)).map Prod.snd

/-- Drops a key. -/
def erase (r : Registry κ α) (k : κ) : Registry κ α :=
  ⟨r.toList.filter (·.1 ≠ k), r.nodup.sublist (List.filter_sublist.map Prod.fst)⟩

/-- Gives a key a value and moves it behind all other keys. -/
def push (r : Registry κ α) (k : κ) (a : α) : Registry κ α :=
  ⟨(r.erase k).toList ++ [(k, a)], by
    rw [List.map_append, List.nodup_append]
    refine ⟨(r.erase k).nodup, by simp, ?_⟩
    simp only [erase, List.mem_map, List.mem_filter, List.map_cons, List.map_nil,
      List.mem_singleton]
    rintro _ ⟨p, ⟨-, hp⟩, rfl⟩ _ rfl
    simpa using hp⟩

/-- Replaces the value of a key that is there. -/
def replace (r : Registry κ α) (k : κ) (a : α) : Registry κ α :=
  ⟨r.toList.map fun p => if p.1 = k then (k, a) else p, by
    have h : (r.toList.map fun p => if p.1 = k then (k, a) else p).map Prod.fst =
        r.toList.map Prod.fst := by
      rw [List.map_map]
      refine List.map_congr_left fun p _ => ?_
      by_cases hp : p.1 = k <;> simp [hp]
    rw [h]
    exact r.nodup⟩

/-- Gives a key a value. A key that is there keeps its place, a new one comes last. -/
def insert (r : Registry κ α) (k : κ) (a : α) : Registry κ α :=
  if k ∈ r.keys then r.replace k a else r.push k a

/-- The registry of a list of pairs: a key stands where it comes first and has the value that it
has last. -/
def ofList (l : List (κ × α)) : Registry κ α :=
  l.foldl (fun r p => r.insert p.1 p.2) empty

/-! ### Where the keys stand -/

theorem keys_erase (r : Registry κ α) (k : κ) : (r.erase k).keys = r.keys.filter (· ≠ k) := by
  simp [keys, erase, List.filter_map, Function.comp_def]

theorem keys_push (r : Registry κ α) (k : κ) (a : α) :
    (r.push k a).keys = r.keys.filter (· ≠ k) ++ [k] := by
  rw [← keys_erase]
  simp [keys, push]

/-- Dropping a key that is not there changes nothing. -/
theorem erase_of_notMem {r : Registry κ α} {k : κ} (h : k ∉ r.keys) : r.erase k = r := by
  obtain ⟨toList, nodup⟩ := r
  simp only [erase, mk.injEq, List.filter_eq_self]
  intro p hp
  exact decide_eq_true fun hk => h (hk ▸ List.mem_map_of_mem hp)

/-- A new key comes last. -/
theorem toList_push_of_notMem {r : Registry κ α} {k : κ} (h : k ∉ r.keys) (a : α) :
    (r.push k a).toList = r.toList ++ [(k, a)] := by
  simp only [push, erase_of_notMem h]

/-- A key that is there gets its value where it stands. -/
theorem toList_insert_of_toList_eq {r : Registry κ α} {k : κ} {a : α} {before after : List (κ × α)}
    (h : r.toList = before ++ (k, a) :: after) (b : α) :
    (r.insert k b).toList = before ++ (k, b) :: after := by
  have hmem : k ∈ r.keys := by simp [keys, h]
  have hother : ∀ p ∈ before ++ after, (if p.1 = k then (k, b) else p) = p := fun p hp =>
    if_neg (ne_of_toList_eq h p hp)
  obtain ⟨hbefore, hafter⟩ := List.forall_mem_append.1 hother
  simp only [insert, if_pos hmem, replace, h, List.map_append, List.map_cons, if_true]
  rw [List.map_congr_left hbefore, List.map_congr_left hafter, List.map_id', List.map_id']

/-! ### What a look-up finds -/

theorem find?_eq_none_iff {r : Registry κ α} {k : κ} : r.find? k = none ↔ k ∉ r.keys := by
  simp only [find?, Option.map_eq_none_iff, List.find?_eq_none, keys, List.mem_map,
    decide_eq_true_eq]
  exact ⟨fun h ⟨p, hp, e⟩ => h p hp e, fun h p hp e => h ⟨p, hp, e⟩⟩

theorem mem_keys_of_find?_eq_some {r : Registry κ α} {k : κ} {a : α} (h : r.find? k = some a) :
    k ∈ r.keys := by
  refine Decidable.byContradiction fun hmem => ?_
  rw [find?_eq_none_iff.2 hmem] at h
  cases h

theorem exists_find?_of_mem_keys {r : Registry κ α} {k : κ} (h : k ∈ r.keys) :
    ∃ a, r.find? k = some a := by
  cases hfind : r.find? k with
  | none => exact absurd h (find?_eq_none_iff.1 hfind)
  | some a => exact ⟨a, rfl⟩

/-- A key is listed once if a look-up finds it, and not at all otherwise. -/
theorem filter_toList (r : Registry κ α) (k : κ) :
    r.toList.filter (·.1 = k) = ((r.find? k).map fun a => (k, a)).toList := by
  obtain ⟨toList, nodup⟩ := r
  simp only [find?]
  induction toList with
  | nil => rfl
  | cons p ps ih =>
    rw [List.map_cons, List.nodup_cons] at nodup
    obtain ⟨hp, hps⟩ := nodup
    by_cases hk : p.1 = k
    · subst hk
      have hnone : ps.filter (·.1 = p.1) = [] :=
        List.filter_eq_nil_iff.2 fun q hq hqk =>
          hp (List.mem_map.2 ⟨q, hq, of_decide_eq_true hqk⟩)
      simp [hnone]
    · simp [hk, ih hps]

theorem mem_toList_iff {r : Registry κ α} {k : κ} {a : α} :
    (k, a) ∈ r.toList ↔ r.find? k = some a := by
  have hfilter : (k, a) ∈ r.toList ↔ (k, a) ∈ r.toList.filter (·.1 = k) := by simp
  rw [hfilter, filter_toList]
  simp

/-- What a look-up finds is found in every longer list, too. -/
theorem find?_eq_some_of_prefix {r s : Registry κ α} (h : r.toList <+: s.toList) {k : κ} {a : α}
    (hfind : r.find? k = some a) : s.find? k = some a :=
  mem_toList_iff.1 (h.subset (mem_toList_iff.2 hfind))

theorem find?_erase (r : Registry κ α) (k j : κ) :
    (r.erase k).find? j = if j = k then none else r.find? j := by
  simp only [find?, erase, List.find?_filter]
  by_cases h : j = k
  · subst h
    rw [if_pos rfl, Option.map_eq_none_iff, List.find?_eq_none]
    simp
  · rw [if_neg h]
    congr 2
    funext p
    by_cases hp : p.1 = j <;> simp [hp, h]

theorem find?_push (r : Registry κ α) (k : κ) (a : α) (j : κ) :
    (r.push k a).find? j = if j = k then some a else r.find? j := by
  have he := find?_erase r k j
  simp only [find?] at he ⊢
  by_cases h : j = k
  · subst h
    rw [if_pos rfl, Option.map_eq_none_iff] at he
    simp [push, List.find?_append, he]
  · rw [if_neg h] at he
    have hkj : k ≠ j := fun e => h e.symm
    rw [if_neg h, ← he]
    simp [push, List.find?_append, hkj]

theorem find?_replace (r : Registry κ α) {k : κ} (hk : k ∈ r.keys) (a : α) (j : κ) :
    (r.replace k a).find? j = if j = k then some a else r.find? j := by
  have hcomp : ((fun p : κ × α => decide (p.1 = j)) ∘ fun p => if p.1 = k then (k, a) else p) =
      fun p => decide (p.1 = j) := by
    funext p
    by_cases hp : p.1 = k <;> simp [hp]
  simp only [find?, replace, List.find?_map, hcomp, Option.map_map]
  by_cases h : j = k
  · subst h
    obtain ⟨p, hp, rfl⟩ := List.mem_map.1 hk
    have hsome : (r.toList.find? fun x => decide (x.1 = p.1)).isSome :=
      List.find?_isSome.2 ⟨p, hp, by simp⟩
    obtain ⟨q, hq⟩ := Option.isSome_iff_exists.1 hsome
    have hqk : q.1 = p.1 := by simpa using List.find?_some hq
    simp [hq, hqk]
  · rw [if_neg h]
    cases hf : r.toList.find? fun p => decide (p.1 = j) with
    | none => rfl
    | some q =>
      have hqj : q.1 = j := by simpa using List.find?_some hf
      simp [hqj, h]

theorem find?_insert (r : Registry κ α) (k : κ) (a : α) (j : κ) :
    (r.insert k a).find? j = if j = k then some a else r.find? j := by
  rw [insert]
  split
  · rename_i h
    exact find?_replace r h a j
  · exact find?_push r k a j

end Keys

end Registry

end ChatCalculator
