import ChatCalculator.Display.Basic
import ChatCalculator.Proofs.Expression.Numeral
import ChatCalculator.Proofs.Outcome

/-!
# The characters of an expression

Whatever has tokens is written with the values of keys and with blanks. That makes the labels
harmless: of such characters each one can be told from its label, although there are labels that
no key shows, and although a label that is entered may itself be the value of a key.

## Main definitions

* `IsKeyOrBlank`: the value of a key, or a blank

## Main results

* `labelKey_keyLabel`: a character can be told from its label
* `isKeyOrBlank_of_tokenize`: what has tokens consists of such characters
* `mem_keys_of_pressedKeys`: and so does what is pressed
-/

namespace ChatCalculator

open Expression

/-- The value of a key, or a blank. -/
def IsKeyOrBlank (c : Char) : Prop :=
  c ∈ keys.keys ∨ isBlank c = true

/-! ### Labels -/

theorem keyLabel_eq_self {c : Char} (h : c ∉ keys.keys) : keyLabel c = c := by
  rw [keyLabel, Registry.find?_eq_none_iff.mpr h]
  rfl

theorem labelKey_eq_self {c : Char} (h : c ∉ labels.keys) : labelKey c = c := by
  rw [labelKey, Registry.find?_eq_none_iff.mpr h]
  rfl

/-- Keys and labels are not blank. -/
theorem isBlank_eq_false_of_mem {c : Char} (h : c ∈ keys.keys ++ labels.keys) :
    isBlank c = false := by
  have hall : (keys.keys ++ labels.keys).all (fun c => isBlank c = false) = true := by decide
  exact of_decide_eq_true (List.all_eq_true.mp hall c h)

/-- **A character can be told from its label.** -/
theorem labelKey_keyLabel {c : Char} (h : IsKeyOrBlank c) : labelKey (keyLabel c) = c := by
  rcases h with hkey | hblank
  · have hall : keys.keys.all (fun c => labelKey (keyLabel c) = c) = true := by decide
    exact of_decide_eq_true (List.all_eq_true.mp hall c hkey)
  · have hmem : c ∉ keys.keys ++ labels.keys := by
      intro hc
      rw [isBlank_eq_false_of_mem hc] at hblank
      cases hblank
    rw [List.mem_append, not_or] at hmem
    rw [keyLabel_eq_self hmem.1, labelKey_eq_self hmem.2]

theorem map_labelKey_map_keyLabel {cs : List Char} (h : ∀ c ∈ cs, IsKeyOrBlank c) :
    (cs.map keyLabel).map labelKey = cs := by
  rw [List.map_map]
  calc cs.map (labelKey ∘ keyLabel) = cs.map id :=
        List.map_congr_left fun c hc => labelKey_keyLabel (h c hc)
    _ = cs := List.map_id cs

/-! ### Characters of numerals -/

/-- The characters of numerals are values of keys, and their own labels. -/
theorem mem_keys_of_mem_numeral {n : Numeral} (h : n.Proper) {c : Char} (hc : c ∈ n.text) :
    c ∈ keys.keys ∧ keyLabel c = c := by
  rcases h.mem_text hc with hdigit | rfl | rfl
  · obtain ⟨k, hk, rfl⟩ := exists_digitChar_of_isDigit hdigit
    have hall : ∀ k < 10, Nat.digitChar k ∈ keys.keys ∧
        keyLabel (Nat.digitChar k) = Nat.digitChar k := by decide
    exact hall k hk
  · decide
  · decide

theorem map_keyLabel_numeral {n : Numeral} (h : n.Proper) : n.text.map keyLabel = n.text := by
  calc n.text.map keyLabel = n.text.map id :=
        List.map_congr_left fun c hc => (mem_keys_of_mem_numeral h hc).2
    _ = n.text := List.map_id n.text

/-! ### What is read and what is pressed -/

theorem isKeyOrBlank_of_mem_lexeme {cs : List Char} {l : Lexeme}
    (h : Lexeme.first? standardOperators.keys cs = some l) : ∀ c ∈ l.text, IsKeyOrBlank c := by
  intro c hc
  rcases Lexeme.first?_cases h with rfl | ⟨n, hn, rfl⟩ | ⟨symbol, hsymbol, rfl⟩ | rfl | rfl
  · exact .inr (List.all_eq_true.mp List.all_takeWhile c hc)
  · exact .inl (mem_keys_of_mem_numeral (Numeral.proper_of_scan? hn) hc).1
  · rcases hsymbol with rfl | hmem
    · cases hc
    · have hall : standardOperators.keys.all (fun s => s.all (· ∈ keys.keys)) = true := by decide
      exact .inl (of_decide_eq_true
        (List.all_eq_true.mp (List.all_eq_true.mp hall symbol hmem) c hc))
  · rw [List.mem_singleton.mp hc]
    exact .inl (by decide)
  · rw [List.mem_singleton.mp hc]
    exact .inl (by decide)

/-- **What has tokens is written with values of keys and blanks.** -/
theorem isKeyOrBlank_of_tokenize {expression : List Char} {ts : List Token}
    (h : tokenize standardOperators expression = .ok ts) : ∀ c ∈ expression, IsKeyOrBlank c := by
  obtain ⟨ls, hscan, -⟩ := exists_scan_of_tokenize h
  have hpieces := Lexeme.flatMap_text_scan standardOperators.keys expression
  have hmem : ∀ l ∈ ls, ∀ c ∈ l.text, IsKeyOrBlank c := by
    have hall := @Lexeme.forall_mem_scan standardOperators.keys
      (fun l => ∀ c ∈ l.text, IsKeyOrBlank c)
      (fun _ _ hfirst _ => isKeyOrBlank_of_mem_lexeme hfirst) expression
    rwa [hscan] at hall
  rw [hscan, List.append_nil] at hpieces
  intro c hc
  rw [← hpieces] at hc
  obtain ⟨l, hl, hcl⟩ := List.mem_flatMap.mp hc
  exact hmem l hl c hcl

theorem mem_keys_of_keyValue? {c key : Char} (h : keyValue? c = some key) : key ∈ keys.keys := by
  rw [keyValue?] at h
  split at h
  · cases h
    assumption
  · obtain ⟨p, hp, rfl⟩ := Option.map_eq_some_iff.mp h
    have hall : labels.toList.all (fun p => p.2 ∈ keys.keys) = true := by decide
    exact of_decide_eq_true (List.all_eq_true.mp hall p (List.mem_of_find?_eq_some hp))

namespace Display

/-- What is pressed are values of keys. -/
theorem mem_keys_of_pressedKeys {pressed values : List Char}
    (h : pressedKeys pressed = .ok values) : ∀ c ∈ values, c ∈ keys.keys := by
  induction pressed generalizing values with
  | nil =>
    cases h
    intro c hc
    cases hc
  | cons c cs ih =>
    rw [pressedKeys] at h
    split at h
    · exact ih h
    · split at h
      · cases h
      · rename_i key hkey
        obtain ⟨rest, hrest, rfl⟩ := map_eq_ok_iff.mp h
        exact List.forall_mem_cons.mpr ⟨mem_keys_of_keyValue? hkey, ih hrest⟩

end Display

end ChatCalculator
