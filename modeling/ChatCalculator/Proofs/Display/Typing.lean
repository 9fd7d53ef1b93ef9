import ChatCalculator.Proofs.Display.Entry
import Mathlib.Logic.Function.Iterate

/-!
# Typing and deleting keys

Keys are typed behind what the display holds, and deleting as many of them leaves what was there
before. It makes no difference how keys are grouped when they are pressed, whether they are given
by value or by label, and whether there is white space between them.

## What could tell groups apart

Pressing keys while a result is shown starts over with the text of that result, and that must
happen once. It does, because starting over hides the result, whatever is pressed with it; so the
first group starts over even if it has no key at all, and the groups behind it do not. That is why
no groups are not the same as one group without keys.

Expression and text hold different characters, and nothing says that they are of one length. Both
grow by one character for each key, so deleting takes the same keys off both of them.

## Main definitions

* `IsPressable`, `typed`: what can be pressed, and the key values that are typed by it
* `Display.append`: a display with key values typed behind what it holds
* `Display.Buffer`: what keys are typed behind

## Main results

* `Display.press_eq_append`: pressing keys is starting over, if a result is shown, and typing them
* `Display.foldlM_press_of_hidden`: groups of keys pressed one after the other
* `Display.backspace_iterate_append`: deleting what has been typed
* `Display.press_flatten`: groups do not matter, and keys can be taken back
-/

namespace ChatCalculator

/-! ### What is typed -/

/-- A character that can be pressed: a key, by its value or its label, or white space. -/
def IsPressable (c : Char) : Prop :=
  c ∈ keys.keys ++ labels.keys ∨ isSpace c = true

instance : DecidablePred IsPressable :=
  fun c => inferInstanceAs (Decidable (c ∈ keys.keys ++ labels.keys ∨ isSpace c = true))

/-- The key values that are typed by pressing characters, of which white space types nothing. -/
def typed (pressed : List Char) : List Char :=
  (pressed.filter fun c => !isSpace c).map labelKey

theorem typed_append (pressed more : List Char) :
    typed (pressed ++ more) = typed pressed ++ typed more := by
  simp [typed]

theorem length_typed (pressed : List Char) :
    (typed pressed).length = pressed.countP fun c => !isSpace c := by
  rw [typed, List.length_map, List.countP_eq_length_filter]

/-- A label stands for the value of a key, and that for itself. -/
theorem mem_keys_labelKey {c : Char} (h : c ∈ keys.keys ++ labels.keys) :
    labelKey c ∈ keys.keys ∧ labelKey (labelKey c) = labelKey c := by
  have hall : (keys.keys ++ labels.keys).all (fun c =>
      labelKey c ∈ keys.keys ∧ labelKey (labelKey c) = labelKey c) = true := by decide
  exact of_decide_eq_true (List.all_eq_true.mp hall c h)

/-- What is typed can be pressed, and types itself. -/
theorem typed_typed {pressed : List Char} (h : ∀ c ∈ pressed, IsPressable c) :
    (∀ c ∈ typed pressed, IsPressable c) ∧ typed (typed pressed) = typed pressed := by
  have hkey : ∀ c ∈ pressed.filter (fun c => !isSpace c), c ∈ keys.keys ++ labels.keys := by
    intro c hc
    obtain ⟨hmem, hspace⟩ := List.mem_filter.mp hc
    exact (h c hmem).resolve_right (by simpa using hspace)
  have hmem : ∀ c ∈ typed pressed, c ∈ keys.keys ++ labels.keys ∧ labelKey c = c := by
    intro c hc
    obtain ⟨b, hb, rfl⟩ := List.mem_map.mp hc
    obtain ⟨hvalue, hself⟩ := mem_keys_labelKey (hkey b hb)
    exact ⟨List.mem_append_left _ hvalue, hself⟩
  refine ⟨fun c hc => .inl (hmem c hc).1, ?_⟩
  rw [typed, List.filter_eq_self.mpr fun c hc => ?_]
  · rw [List.map_congr_left fun c hc => (hmem c hc).2, List.map_id']
  · simp [(keyValue?_eq_labelKey (hmem c hc).1).1]

namespace Display

theorem pressedKeys_eq_typed {pressed : List Char} (h : ∀ c ∈ pressed, IsPressable c) :
    pressedKeys pressed = .ok (typed pressed) := by
  induction pressed with
  | nil => rfl
  | cons c cs ih =>
    obtain ⟨hc, hcs⟩ := List.forall_mem_cons.mp h
    rw [pressedKeys, ih hcs]
    split
    · rename_i hspace
      simp [typed, hspace]
    · rename_i hspace
      obtain ⟨-, hvalue, -⟩ := keyValue?_eq_labelKey (hc.resolve_right hspace)
      rw [hvalue]
      simp [typed, hspace]

/-! ### Typing behind what a display holds -/

/-- The display with key values typed behind what it holds. -/
def append (d : Display) (values : List Char) : Display :=
  { d with
    expression := d.expression ++ values
    text := d.text ++ values.map keyLabel }

variable {d d' start : Display}

theorem append_nil (d : Display) : d.append [] = d := by
  simp [append]

theorem append_append (d : Display) (values more : List Char) :
    (d.append values).append more = d.append (values ++ more) := by
  simp [append]

theorem resume_of_hidden (h : d.shown = false) : d.resume = .ok d := by
  rw [resume, h]
  rfl

theorem shown_of_resume (h : d.resume = .ok start) : start.shown = false := by
  rw [resume] at h
  split at h
  · split at h
    · obtain ⟨text, -, rfl⟩ := map_eq_ok_iff.mp h
      rfl
    · cases h
      rfl
  · rename_i hshown
    cases h
    exact Bool.eq_false_iff.mpr hshown

/-- Pressing keys is starting over, if a result is shown, and typing them. -/
theorem press_eq_append {pressed : List Char} (h : ∀ c ∈ pressed, IsPressable c) :
    d.press pressed = (·.append (typed pressed)) <$> d.resume.mapError .result := by
  rw [press, pressedKeys_eq_typed h]
  cases d.resume with
  | error fault => rfl
  | ok start => rfl

theorem press_of_hidden (hd : d.shown = false) {pressed : List Char}
    (h : ∀ c ∈ pressed, IsPressable c) : d.press pressed = .ok (d.append (typed pressed)) := by
  rw [press_eq_append h, resume_of_hidden hd]
  rfl

/-- **Groups of keys are typed one behind the other** as long as no result is shown. -/
theorem foldlM_press_of_hidden {groups : List (List Char)} (hd : d.shown = false)
    (h : ∀ pressed ∈ groups, ∀ c ∈ pressed, IsPressable c) :
    groups.foldlM press d = .ok (d.append (typed groups.flatten)) := by
  induction groups generalizing d with
  | nil =>
    rw [List.flatten_nil, typed, List.filter_nil, List.map_nil, append_nil]
    rfl
  | cons pressed groups ih =>
    obtain ⟨hpressed, hgroups⟩ := List.forall_mem_cons.mp h
    rw [List.foldlM_cons, press_of_hidden hd hpressed, ok_bind, ih (by exact hd) hgroups,
      append_append, ← typed_append, List.flatten_cons]

/-! ### Deleting what has been typed -/

theorem backspace_append_concat (d : Display) (values : List Char) (key : Char) :
    (d.append (values ++ [key])).backspace = { d with shown := false }.append values := by
  simp [append, backspace, ← List.append_assoc]

/-- **Deleting as many keys as have been typed** leaves what was there before. -/
theorem backspace_iterate_append (d : Display) (values : List Char) :
    (backspace^[values.length] (d.append values)).expression = d.expression ∧
      (backspace^[values.length] (d.append values)).text = d.text := by
  -- from the end, where keys are deleted; the first one deleted may hide a result
  induction values using List.reverseRecOn generalizing d with
  | nil => simp [append]
  | append_singleton values key ih =>
    rw [List.length_append, List.length_singleton, Function.iterate_succ_apply,
      backspace_append_concat]
    exact ih { d with shown := false }

/-! ### What keys are typed behind -/

/-- **What keys are typed behind**: the old expression and text if no result is shown, the text of a
finite result that is shown, and nothing behind any other result. -/
inductive Buffer (d : Display) : (expression text : List Char) → Prop
  /-- What has been typed before. -/
  | kept (hshown : d.shown = false) : Buffer d d.expression d.text
  /-- The result. -/
  | result {text : List Char} (hshown : d.shown = true) (hfinite : d.result.isFinite = true)
      (htext : resultText d.result d.precision = .ok text) : Buffer d text text
  /-- Nothing. -/
  | empty (hshown : d.shown = true) (hfinite : d.result.isFinite = false) : Buffer d [] []

theorem buffer_iff {expression text : List Char} :
    d.Buffer expression text ↔
      ∃ start, d.resume = .ok start ∧ start.expression = expression ∧ start.text = text := by
  constructor
  · intro h
    cases h with
    | kept hshown => exact ⟨d, resume_of_hidden hshown, rfl, rfl⟩
    | result hshown hfinite htext =>
      refine ⟨d.startWith expression, ?_, rfl, rfl⟩
      rw [resume, if_pos hshown, if_pos hfinite, htext]
      rfl
    | empty hshown hfinite =>
      refine ⟨d.startWith [], ?_, rfl, rfl⟩
      rw [resume, if_pos hshown, hfinite]
      rfl
  · rintro ⟨start, hstart, rfl, rfl⟩
    rw [resume] at hstart
    split at hstart
    · rename_i hshown
      split at hstart
      · rename_i hfinite
        obtain ⟨text, htext, rfl⟩ := map_eq_ok_iff.mp hstart
        exact .result hshown hfinite htext
      · rename_i hfinite
        cases hstart
        exact .empty hshown (Bool.eq_false_iff.mpr hfinite)
    · rename_i hshown
      cases hstart
      exact .kept (Bool.eq_false_iff.mpr hshown)

/-! ### Groups of keys -/

/-- Keys that are pressed are typed behind the buffer, if there is one. -/
theorem exists_press_iff_buffer {pressed : List Char} (h : ∀ c ∈ pressed, IsPressable c) :
    (∃ d', d.press pressed = .ok d') ↔ ∃ expression text, d.Buffer expression text := by
  simp only [press_eq_append h, map_eq_ok_iff, mapError_eq_ok_iff, buffer_iff]
  constructor
  · rintro ⟨d', start, hstart, -⟩
    exact ⟨_, _, start, hstart, rfl, rfl⟩
  · rintro ⟨_, _, start, hstart, -, -⟩
    exact ⟨_, start, hstart, rfl⟩

/-- Deleting all keys that have been pressed leaves the buffer. -/
theorem exists_buffer_of_press {pressed : List Char} (h : ∀ c ∈ pressed, IsPressable c)
    (hpress : d.press pressed = .ok d') :
    ∃ expression text, d.Buffer expression text ∧
      (backspace^[pressed.countP fun c => !isSpace c] d').expression = expression ∧
      (backspace^[pressed.countP fun c => !isSpace c] d').text = text := by
  rw [press_eq_append h] at hpress
  obtain ⟨start, hstart, rfl⟩ := map_eq_ok_iff.mp hpress
  rw [← length_typed]
  refine ⟨_, _, buffer_iff.mpr ⟨start, mapError_eq_ok_iff.mp hstart, rfl, rfl⟩, ?_⟩
  exact backspace_iterate_append start (typed pressed)

/-- **Groups of keys do not matter, and keys can be taken back.** Pressing several groups one after
the other, pressing them as one, and pressing the key values that are typed by them come to the
same, be it a display or a failure, and they fail only if the display has no buffer to type behind.
Deleting one key for each character that is not white space leaves that buffer, and nothing is
assumed of the lengths of expression and text. -/
theorem press_flatten (d : Display) {groups : List (List Char)} (hne : groups ≠ [])
    (hkeys : ∀ pressed ∈ groups, ∀ c ∈ pressed, IsPressable c) :
    groups.foldlM press d = d.press groups.flatten ∧
    d.press (typed groups.flatten) = d.press groups.flatten ∧
    ((∃ d', d.press groups.flatten = .ok d') ↔ ∃ expression text, d.Buffer expression text) ∧
    ∀ d', d.press groups.flatten = .ok d' → ∃ expression text, d.Buffer expression text ∧
      (backspace^[groups.flatten.countP fun c => !isSpace c] d').expression = expression ∧
      (backspace^[groups.flatten.countP fun c => !isSpace c] d').text = text := by
  have hall : ∀ c ∈ groups.flatten, IsPressable c := by
    intro c hc
    obtain ⟨pressed, hpressed, hc⟩ := List.mem_flatten.mp hc
    exact hkeys pressed hpressed c hc
  obtain ⟨htyped, hsame⟩ := typed_typed hall
  refine ⟨?_, ?_, exists_press_iff_buffer hall, fun d' => exists_buffer_of_press hall⟩
  · obtain ⟨pressed, groups, rfl⟩ := List.exists_cons_of_ne_nil hne
    obtain ⟨hpressed, hgroups⟩ := List.forall_mem_cons.mp hkeys
    rw [List.foldlM_cons, press_eq_append hall, press_eq_append hpressed]
    cases hresume : d.resume with
    | error fault => rfl
    | ok start =>
      -- behind the first group no result is shown
      have hhidden : start.shown = false := shown_of_resume hresume
      refine (foldlM_press_of_hidden (d := start.append (typed pressed)) hhidden hgroups).trans ?_
      rw [append_append, ← typed_append, ← List.flatten_cons]
      rfl
  · rw [press_eq_append htyped, press_eq_append hall, hsame]

/-- White space that is pressed while a result is shown, and keys behind it. -/
theorem press_flatten_result :
    let d : Display := { precision := 2, result := .ofBits 0x4000000000000000, shown := true }
    let groups := [[' '], ['×', '3'], [], ['\u00a0', '−']]
    (groups ≠ [] ∧ ∀ pressed ∈ groups, ∀ c ∈ pressed, IsPressable c) ∧
      ∃ d', groups.foldlM press d = .ok d' ∧ d.press ['*', '3', '-'] = .ok d' ∧
        d'.text = ['2', '×', '3', '-'] ∧ ∃ expression text, d.Buffer expression text ∧
          (backspace^[3] d').expression = expression ∧ (backspace^[3] d').text = text := by
  intro d groups
  have hall : groups.flatten.all (fun c => IsPressable c) = true := by decide
  have hkeys : ∀ pressed ∈ groups, ∀ c ∈ pressed, IsPressable c := fun pressed hpressed c hc =>
    of_decide_eq_true (List.all_eq_true.mp hall c (List.mem_flatten_of_mem hpressed hc))
  obtain ⟨hgroups, htyped, -, hdelete⟩ := @press_flatten d groups (by decide) hkeys
  have hpress : d.press groups.flatten =
      .ok (({ precision := 2, result := d.result } : Display).startWith ['2'] |>.append
        ['*', '3', '-']) := by
    decide +kernel
  exact ⟨⟨by decide, hkeys⟩, _, hgroups.trans hpress, htyped.trans hpress, rfl,
    hdelete _ hpress⟩

end Display

end ChatCalculator
