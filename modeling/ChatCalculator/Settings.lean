import ChatCalculator.Display.Result
import ChatCalculator.Session
import ChatCalculator.Text.Integer
import ChatCalculator.Text.Quoted

/-!
# Settings

Settings are kept by name; a setting may be stored without a value. On loading, a setting that is
not stored takes its default value and is stored with it, so that it keeps that value whatever
the defaults are later.

A load goes through its settings one by one. It changes the settings in use while it reads the
defaults from them, and it stores a row at a time, so what it does with one setting could depend on
what it did with those before. It does not, because no setting comes twice: where a setting waits
for its turn, the value in use is still its default, and the rows of other settings do not matter.
So the outcome can be said at once, for all settings.

## Main definitions

* `Settings`, `defaultSettings`: settings by name, and those of the bot
* `Loading`, `Loading.setting?`: a load, and how it goes on with one setting
* `Settings.load`, `Settings.save`: the settings in use and what is stored afterwards
* `Settings.precision`: the precision of new displays

## Main results

* `Settings.exists_load?`: the settings in use and the rows, after a load
* `Settings.isSome_load?`: a load never gets stuck
-/

namespace ChatCalculator

/-- Settings by name. -/
abbrev Settings := Registry String (Option String)

/-- The settings of the bot, with the values that they have unless others are stored. -/
def defaultSettings : Settings where
  toList := [("token", none), ("url", none), ("precision", some defaultPrecision.repr)]
  nodup := by decide

/-! ### Loading -/

/-- A load that has gone through some of the settings. -/
structure Loading where
  /-- The session in which rows are read and added. -/
  session : Session String (Option String)
  /-- The defaults as they were given. Loading works on a copy. -/
  defaults : Settings
  /-- The copy: stored values as far as settings have been loaded, and defaults for the others. -/
  inUse : Settings

namespace Loading

/-- A load that has not begun. -/
def start (stored defaults : Settings) : Loading :=
  ⟨.start stored, defaults, defaults⟩

/-- Loads one setting. The value of a row that is there comes into use, even if the row has none.
Otherwise a row with the value in use is added and stored at once. The load does not get further if
no value is in use, or if the row does not fit. -/
def setting? (l : Loading) (name : String) : Option Loading :=
  match l.session.find? name with
  | some value => some { l with inUse := l.inUse.insert name value }
  | none =>
    match l.inUse.find? name with
    | none => none
    | some value =>
      ((l.session.record (.add name value)).commit? true).map fun session => { l with session }

variable {stored inUse : Settings} (defaults : Settings) {name : String} {value : Option String}

/-- A row that is there comes into use. -/
theorem setting?_of_find?_eq_some (h : stored.find? name = some value) :
    setting? ⟨.start stored, defaults, inUse⟩ name =
      some ⟨.start stored, defaults, inUse.insert name value⟩ := by
  have hrow : (Session.start stored).find? name = some value := h
  simp only [setting?, hrow]

/-- A missing row is added, if no other change waits. -/
theorem setting?_of_find?_eq_none (h : stored.find? name = none)
    (hvalue : inUse.find? name = some value) :
    setting? ⟨.start stored, defaults, inUse⟩ name =
      some ⟨.start (stored.push name value), defaults, inUse⟩ := by
  have hrow : (Session.start stored).find? name = none := h
  simp only [setting?, hrow, hvalue, Session.commit?_record_start, RowChange.rowsAfter?,
    if_neg (Registry.find?_eq_none_iff.1 h), Option.map_some]

end Loading

namespace Settings

/-- A load of all settings that there are defaults for, one after the other. -/
def load? (stored defaults : Settings) : Option Loading :=
  defaults.keys.foldlM Loading.setting? (.start stored defaults)

/-- The load of the settings that are left. Rows decide for them, and those without a row get
one. -/
theorem exists_foldlM_setting? (defaults : Settings) (left : List (String × Option String)) :
    ∀ (done : List (String × Option String)) (stored inUse : Settings),
      inUse.toList = done ++ left →
        ∃ table answer : Settings,
          (left.map Prod.fst).foldlM Loading.setting? ⟨.start stored, defaults, inUse⟩ =
            some ⟨.start table, defaults, answer⟩ ∧
          answer.toList = done ++ left.map (fun p => (p.1, (stored.find? p.1).getD p.2)) ∧
          table.toList = stored.toList ++ left.filter (·.1 ∉ stored.keys) := by
  induction left with
  | nil =>
    intro done stored inUse hinUse
    exact ⟨stored, inUse, rfl, hinUse, (List.append_nil _).symm⟩
  | cons p left ih =>
    obtain ⟨name, default⟩ := p
    intro done stored inUse hinUse
    cases hrow : stored.find? name with
    | some value =>
      have hinUse' : (inUse.insert name value).toList = (done ++ [(name, value)]) ++ left := by
        rw [Registry.toList_insert_of_toList_eq hinUse, List.append_assoc, List.singleton_append]
      obtain ⟨table, answer, hrun, hanswer, htable⟩ := ih _ stored _ hinUse'
      refine ⟨table, answer, ?_, ?_, ?_⟩
      · rw [List.map_cons, List.foldlM_cons, Loading.setting?_of_find?_eq_some defaults hrow]
        exact hrun
      · simp [hanswer, hrow]
      · simp [htable, Registry.mem_keys_of_find?_eq_some hrow]
    | none =>
      have hmem : (name, default) ∈ inUse.toList := by simp [hinUse]
      have hnew := Registry.find?_eq_none_iff.1 hrow
      -- The settings that are left have other names, so the new row says nothing about them.
      have hfind : ∀ p ∈ left, (stored.push name default).find? p.1 = stored.find? p.1 :=
        fun p hp => by
          rw [Registry.find?_push,
            if_neg (Registry.ne_of_toList_eq hinUse p (List.mem_append_right done hp))]
      have hvalues : left.map (fun p => (p.1, ((stored.push name default).find? p.1).getD p.2)) =
          left.map fun p => (p.1, (stored.find? p.1).getD p.2) :=
        List.map_congr_left fun p hp => by rw [hfind p hp]
      have hrows : left.filter (·.1 ∉ (stored.push name default).keys) =
          left.filter (·.1 ∉ stored.keys) :=
        List.filter_congr fun p hp => decide_eq_decide.2 <| by
          rw [← Registry.find?_eq_none_iff, ← Registry.find?_eq_none_iff, hfind p hp]
      have hinUse' : inUse.toList = (done ++ [(name, default)]) ++ left := by
        rw [hinUse, List.append_assoc, List.singleton_append]
      obtain ⟨table, answer, hrun, hanswer, htable⟩ := ih _ (stored.push name default) _ hinUse'
      refine ⟨table, answer, ?_, ?_, ?_⟩
      · rw [List.map_cons, List.foldlM_cons,
          Loading.setting?_of_find?_eq_none defaults hrow (Registry.mem_toList_iff.1 hmem)]
        exact hrun
      · rw [hanswer, hvalues]
        simp [hrow]
      · rw [htable, hrows, Registry.toList_push_of_notMem hnew]
        simp [hnew]

/-- **The outcome of a load.** All settings that there are defaults for are in use, in their order:
a setting that has a row with the value of the row, if it has one or not, and any other with its
default. Rows stay as they are, and settings without a row get one. -/
theorem exists_load? (stored defaults : Settings) :
    ∃ table answer : Settings,
      load? stored defaults = some ⟨.start table, defaults, answer⟩ ∧
      answer.toList = defaults.toList.map (fun p => (p.1, (stored.find? p.1).getD p.2)) ∧
      table.toList = stored.toList ++ defaults.toList.filter (·.1 ∉ stored.keys) :=
  exists_foldlM_setting? defaults defaults.toList [] stored defaults rfl

/-- A load never gets stuck. -/
theorem isSome_load? (stored defaults : Settings) : (load? stored defaults).isSome := by
  obtain ⟨table, answer, hload, -, -⟩ := exists_load? stored defaults
  rw [hload, Option.isSome_some]

/-- The load of all settings, when it is done. -/
def loading (stored defaults : Settings) : Loading :=
  (load? stored defaults).get (isSome_load? stored defaults)

/-- The settings in use: those of the defaults, with stored values where there are any. A setting
stored without a value has none. -/
def load (stored defaults : Settings) : Settings :=
  (loading stored defaults).inUse

/-- What is stored after loading: every setting that was missing is added. -/
def save (stored defaults : Settings) : Settings :=
  (loading stored defaults).session.stored

/-! ### Values of settings -/

/-- The value of a setting, if it is there, has a value, and that is not empty. -/
def nonempty? (s : Settings) (name : String) : Option String :=
  match s.find? name with
  | some (some value) => if value = "" then none else some value
  | _ => none

/-- The precision of new displays. -/
def precision (s : Settings) : Except String Int :=
  match s.nonempty? "precision" with
  | none => .ok defaultPrecision
  | some value =>
    match readInteger value.toList with
    | .ok p => .ok p
    | .error .malformed =>
      .error ("invalid literal for int() with base 10: " ++
        .ofList ((quoted value.toList).take 200))
    | .error (.tooLong digits) =>
      .error ("Exceeds the limit (" ++ mostDigits.repr ++
        " digits) for integer string conversion: value has " ++ digits.repr ++
        " digits; use sys.set_int_max_str_digits() to increase the limit")

end Settings

end ChatCalculator
