import ChatCalculator.Settings

/-!
# A setting keeps the value that it was first loaded with

A load only adds rows, and what it brings into use has a row in the end, be it one that was there
or one that is new. From then on it does not matter any more with which defaults the setting is
loaded, since a row counts before a default does, even if it has no value.

## Main definitions

* `Settings.storedAfter`: what is stored after any loads

## Main results

* `Settings.toList_load`, `Settings.toList_save`: the settings in use and the rows, after a load
* `Settings.find?_save_of_find?_load`: what is in use is stored
* `Settings.prefix_storedAfter`: no load changes a row
* `Settings.load_keeps_first`: a load, and what all later ones keep of it
-/

namespace ChatCalculator

namespace Settings

variable {stored defaults : Settings} {name : String} {value : Option String}

/-! ### One load -/

/-- A load gets to its end, with no change that waits and with the defaults that it was given. -/
theorem load?_eq (stored defaults : Settings) :
    load? stored defaults =
      some ⟨.start (save stored defaults), defaults, load stored defaults⟩ := by
  obtain ⟨table, answer, hload, -, -⟩ := exists_load? stored defaults
  simp [save, load, loading, hload, Session.stored_start]

theorem toList_load (stored defaults : Settings) :
    (load stored defaults).toList =
      defaults.toList.map fun p => (p.1, (stored.find? p.1).getD p.2) := by
  obtain ⟨table, answer, hload, hanswer, -⟩ := exists_load? stored defaults
  simp [load, loading, hload, hanswer]

theorem toList_save (stored defaults : Settings) :
    (save stored defaults).toList =
      stored.toList ++ defaults.toList.filter (·.1 ∉ stored.keys) := by
  obtain ⟨table, answer, hload, -, htable⟩ := exists_load? stored defaults
  simp [save, loading, hload, htable, Session.stored_start]

/-! ### Rows and settings in use -/

/-- A load changes no row. -/
theorem prefix_save (stored defaults : Settings) :
    stored.toList <+: (save stored defaults).toList :=
  ⟨_, (toList_save stored defaults).symm⟩

/-- A setting that has a row is loaded with the value of the row. -/
theorem find?_load_of_find?_stored (hrow : stored.find? name = some value)
    (hname : name ∈ defaults.keys) : (load stored defaults).find? name = some value := by
  obtain ⟨p, hp, rfl⟩ := List.mem_map.1 hname
  rw [← Registry.mem_toList_iff, toList_load]
  exact List.mem_map.2 ⟨p, hp, by rw [hrow, Option.getD_some]⟩

/-- What a load brings into use is stored. -/
theorem find?_save_of_find?_load (hload : (load stored defaults).find? name = some value) :
    (save stored defaults).find? name = some value := by
  rw [← Registry.mem_toList_iff, toList_load] at hload
  obtain ⟨⟨name', default⟩, hp, he⟩ := List.mem_map.1 hload
  obtain ⟨rfl, rfl⟩ := Prod.mk.inj he
  cases hrow : stored.find? name' with
  | some value => exact Registry.find?_eq_some_of_prefix (prefix_save stored defaults) hrow
  | none =>
    rw [← Registry.mem_toList_iff, toList_save]
    refine List.mem_append_right _ (List.mem_filter.2 ⟨hp, ?_⟩)
    exact decide_eq_true (Registry.find?_eq_none_iff.1 hrow)

/-! ### Any number of loads -/

/-- What is stored after loads with these defaults, one load after the other. -/
def storedAfter (stored : Settings) (loads : List Settings) : Settings :=
  loads.foldl save stored

/-- No load changes a row. -/
theorem prefix_storedAfter (stored : Settings) (loads : List Settings) :
    stored.toList <+: (storedAfter stored loads).toList := by
  induction loads generalizing stored with
  | nil => exact List.prefix_refl _
  | cons defaults loads ih => exact (prefix_save stored defaults).trans (ih _)

/-- **A setting keeps the value that it was first loaded with.** A load is never stuck and leaves
the defaults that it was given as they are. It answers with the same names in the same order; the
value of a row counts, also if there is none in the row, and the default does where no row is. Rows
stay as they are, and behind them stands a new one for each name that had none. Whatever is loaded
later, with whichever defaults, no row is changed, and each setting that was in use is still stored
with its value and comes into use with it again. -/
theorem load_keeps_first (stored defaults : Settings) :
    (load? stored defaults =
        some ⟨.start (save stored defaults), defaults, load stored defaults⟩ ∧
      (load stored defaults).toList =
        defaults.toList.map (fun p => (p.1, (stored.find? p.1).getD p.2)) ∧
      (save stored defaults).toList =
        stored.toList ++ defaults.toList.filter (·.1 ∉ stored.keys)) ∧
    ∀ later : List Settings,
      (save stored defaults).toList <+: (storedAfter (save stored defaults) later).toList ∧
      ∀ name value, (load stored defaults).find? name = some value →
        (storedAfter (save stored defaults) later).find? name = some value ∧
        ∀ again : Settings, name ∈ again.keys →
          (load (storedAfter (save stored defaults) later) again).find? name = some value := by
  refine ⟨⟨load?_eq stored defaults, toList_load stored defaults, toList_save stored defaults⟩,
    fun later => ?_⟩
  have hkept := prefix_storedAfter (save stored defaults) later
  refine ⟨hkept, fun name value hload => ?_⟩
  have hrow := Registry.find?_eq_some_of_prefix hkept (find?_save_of_find?_load hload)
  exact ⟨hrow, fun again hname => find?_load_of_find?_stored hrow hname⟩

/-- A row without a value, a row that is added, and other defaults for both of them later. -/
theorem load_keeps_first_null :
    let stored : Settings := ⟨[("token", none)], by decide⟩
    let defaults : Settings := ⟨[("precision", some "8"), ("token", some "abc")], by decide⟩
    let other : Settings := ⟨[("url", some "there"), ("precision", some "3")], by decide⟩
    let again : Settings := ⟨[("token", some "xyz"), ("precision", none)], by decide⟩
    (load stored defaults).toList = [("precision", some "8"), ("token", none)] ∧
      (save stored defaults).toList = [("token", none), ("precision", some "8")] ∧
      (load (storedAfter (save stored defaults) [other]) again).find? "precision" =
        some (some "8") ∧
      (load (storedAfter (save stored defaults) [other]) again).find? "token" = some none := by
  intro stored defaults other again
  obtain ⟨⟨-, hload, hsave⟩, hlater⟩ := load_keeps_first stored defaults
  obtain ⟨-, hkept⟩ := hlater [other]
  have hprecision : (load stored defaults).find? "precision" = some (some "8") := by
    rw [← Registry.mem_toList_iff, hload]
    decide
  have htoken : (load stored defaults).find? "token" = some none := by
    rw [← Registry.mem_toList_iff, hload]
    decide
  exact ⟨hload, hsave, (hkept _ _ hprecision).2 again (by decide),
    (hkept _ _ htoken).2 again (by decide)⟩

end Settings

end ChatCalculator
