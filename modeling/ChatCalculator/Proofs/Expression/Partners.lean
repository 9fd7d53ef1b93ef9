import ChatCalculator.Proofs.Expression.Counting

/-!
# Partners of parentheses

Two parentheses are partners if what stands between them is balanced. `Partners` says so by their
places among the tokens, without reading anything, and an opening parenthesis is `Unpaired` if no
later token is its partner.

## Reading and looking back

Whether a parenthesis is unpaired depends on all that follows it, but it can be kept up to date
while the tokens are read: it is enough to know how many groups that began later are still open.
`WaitsAt ts j k` says that the parenthesis at `j` waits with `k` others behind it. The next token
changes that number by at most one and looks at nothing else (`waitsAt_concat`), and the
parenthesis is closed by the token that finds the number at zero.

## Main definitions

* `depthAfter`: how many groups are open behind some tokens
* `Partners`, `Unpaired`: parentheses that belong together, and those that have no partner
* `WaitsAt`: a parenthesis that is still open, with the number of groups open inside it

## Main results

* `waitsAt_concat`, `partners_concat`: what one more token changes
* `unpaired_iff_exists_waitsAt`: the unpaired parentheses are those that wait at the end
-/

namespace ChatCalculator

namespace Expression

/-! ### Depth -/

namespace Token

/-- Whether this is an opening parenthesis. -/
def isOpening : Token → Bool
  | .opening _ => true
  | _ => false

/-- Whether this is a closing parenthesis. -/
def isClosing : Token → Bool
  | .closing _ => true
  | _ => false

/-- How many groups are open behind a token. Where none is open, none can be closed. -/
def nextDepth : Token → (depth : ℕ) → Option ℕ
  | .opening _, depth => some (depth + 1)
  | .closing _, 0 => none
  | .closing _, depth + 1 => some depth
  | _, depth => some depth

theorem nextDepth_eq_none_iff {t : Token} {depth : ℕ} :
    t.nextDepth depth = none ↔ t.isClosing = true ∧ depth = 0 := by
  cases t <;> cases depth <;> simp [nextDepth, isClosing]

end Token

/-- How many groups are open behind some tokens, given how many were open before. There is no
answer if one of them closes a group where none is open. -/
def depthAfter (depth : ℕ) (ts : List Token) : Option ℕ :=
  ts.foldlM (fun d t => t.nextDepth d) depth

@[simp] theorem depthAfter_nil (depth : ℕ) : depthAfter depth [] = some depth := rfl

theorem depthAfter_cons (depth : ℕ) (t : Token) (ts : List Token) :
    depthAfter depth (t :: ts) = (t.nextDepth depth).bind fun d => depthAfter d ts := rfl

theorem depthAfter_concat (depth : ℕ) (ts : List Token) (t : Token) :
    depthAfter depth (ts ++ [t]) = (depthAfter depth ts).bind t.nextDepth := by
  simp [depthAfter, List.foldlM_append]

/-- Balanced tokens leave no group open. -/
theorem balanced_iff_depthAfter {depth : ℕ} {ts : List Token} :
    balanced depth ts = true ↔ depthAfter depth ts = some 0 := by
  induction ts generalizing depth with
  | nil => simp [balanced]
  | cons t ts ih =>
    cases t <;> cases depth <;> simp [balanced, depthAfter_cons, Token.nextDepth, ih]

/-- Groups are closed too often exactly if some token closes one where none is open. -/
theorem depthAfter_eq_none_iff {ts : List Token} {depth : ℕ} :
    depthAfter depth ts = none ↔
      ∃ n, ts[n]?.any Token.isClosing = true ∧ depthAfter depth (ts.take n) = some 0 := by
  induction ts generalizing depth with
  | nil => simp
  | cons t ts ih =>
    rw [depthAfter_cons, Option.bind_eq_none_iff]
    constructor
    · intro h
      cases hd : t.nextDepth depth with
      | none =>
        obtain ⟨hclosing, rfl⟩ := Token.nextDepth_eq_none_iff.mp hd
        exact ⟨0, by simpa using hclosing, rfl⟩
      | some d =>
        obtain ⟨n, hclosing, hdepth⟩ := ih.mp (h d hd)
        exact ⟨n + 1, by simpa using hclosing, by simp [depthAfter_cons, hd, hdepth]⟩
    · rintro ⟨n, hclosing, hdepth⟩ d hd
      cases n with
      | zero =>
        have hnone : t.nextDepth depth = none :=
          Token.nextDepth_eq_none_iff.mpr ⟨by simpa using hclosing, Option.some.inj hdepth⟩
        rw [hnone] at hd
        cases hd
      | succ n =>
        rw [List.take_succ_cons, depthAfter_cons, hd] at hdepth
        exact ih.mpr ⟨n, by simpa using hclosing, hdepth⟩

/-! ### Partners -/

/-- The tokens at two places are parentheses that belong together. -/
structure Partners (ts : List Token) (j k : ℕ) : Prop where
  /-- The first one opens a group. -/
  opening : ts[j]?.any Token.isOpening = true
  /-- The second one closes a group. -/
  closing : ts[k]?.any Token.isClosing = true
  /-- They stand in this order. -/
  lt : j < k
  /-- What stands between them is balanced. -/
  balanced : balanced 0 ((ts.take k).drop (j + 1)) = true

/-- An opening parenthesis without partner. -/
def Unpaired (ts : List Token) (j : ℕ) : Prop :=
  ts[j]?.any Token.isOpening = true ∧ ∀ k, ¬ Partners ts j k

theorem lt_length_of_any {ts : List Token} {p : Token → Bool} {j : ℕ}
    (h : ts[j]?.any p = true) : j < ts.length := by
  by_contra hj
  rw [List.getElem?_eq_none (Nat.not_lt.mp hj)] at h
  cases h

instance (ts : List Token) (j k : ℕ) : Decidable (Partners ts j k) :=
  decidable_of_iff (ts[j]?.any Token.isOpening = true ∧ ts[k]?.any Token.isClosing = true ∧ j < k ∧
      Expression.balanced 0 ((ts.take k).drop (j + 1)) = true)
    ⟨fun ⟨ho, hc, hlt, hb⟩ => ⟨ho, hc, hlt, hb⟩, fun ⟨ho, hc, hlt, hb⟩ => ⟨ho, hc, hlt, hb⟩⟩

instance (ts : List Token) (j : ℕ) : Decidable (Unpaired ts j) :=
  decidable_of_iff (ts[j]?.any Token.isOpening = true ∧ ∀ k < ts.length, ¬ Partners ts j k)
    (and_congr_right fun _ =>
      ⟨fun h k hk => h k (lt_length_of_any hk.closing) hk, fun h k _ => h k⟩)

/-- An opening parenthesis that waits to be closed, while `k` groups are open that began later. -/
structure WaitsAt (ts : List Token) (j k : ℕ) : Prop where
  /-- It opens a group. -/
  opening : ts[j]?.any Token.isOpening = true
  /-- Behind it, so many groups are open. -/
  depth : depthAfter 0 (ts.drop (j + 1)) = some k

theorem WaitsAt.lt_length {ts : List Token} {j k : ℕ} (h : WaitsAt ts j k) : j < ts.length :=
  lt_length_of_any h.opening

/-- **What one more token changes.** It waits itself if it opens a group, and it changes the number
of groups that are open behind every parenthesis that waits already. -/
theorem waitsAt_concat {ts : List Token} {t : Token} {j k : ℕ} :
    WaitsAt (ts ++ [t]) j k ↔
      (j = ts.length ∧ t.isOpening = true ∧ k = 0) ∨
        ∃ d, WaitsAt ts j d ∧ t.nextDepth d = some k := by
  have hbefore : j < ts.length → (WaitsAt (ts ++ [t]) j k ↔
      ∃ d, WaitsAt ts j d ∧ t.nextDepth d = some k) := by
    intro hj
    have hget : (ts ++ [t])[j]? = ts[j]? := List.getElem?_append_left hj
    have hdrop : (ts ++ [t]).drop (j + 1) = ts.drop (j + 1) ++ [t] :=
      List.drop_append_of_le_length hj
    constructor
    · rintro ⟨hopening, hdepth⟩
      rw [hget] at hopening
      rw [hdrop, depthAfter_concat] at hdepth
      obtain ⟨d, hd, hnext⟩ := Option.bind_eq_some_iff.mp hdepth
      exact ⟨d, ⟨hopening, hd⟩, hnext⟩
    · rintro ⟨d, ⟨hopening, hd⟩, hnext⟩
      refine ⟨hget ▸ hopening, ?_⟩
      rw [hdrop, depthAfter_concat, hd]
      exact hnext
  constructor
  · intro h
    rcases Nat.lt_or_eq_of_le (Nat.lt_succ_iff.mp (by simpa using h.lt_length)) with hj | rfl
    · exact .inr ((hbefore hj).mp h)
    · have hopening := h.opening
      have hdepth := h.depth
      rw [List.getElem?_append_right (Nat.le_refl _)] at hopening
      rw [List.drop_eq_nil_of_le (by simp)] at hdepth
      exact .inl ⟨rfl, by simpa using hopening, (Option.some.inj hdepth).symm⟩
  · rintro (⟨rfl, hopening, rfl⟩ | ⟨d, hd, hnext⟩)
    · refine ⟨?_, ?_⟩
      · rw [List.getElem?_append_right (Nat.le_refl _)]
        simpa using hopening
      · rw [List.drop_eq_nil_of_le (by simp)]
        rfl
    · exact (hbefore hd.lt_length).mpr ⟨d, hd, hnext⟩

/-- The partner of a parenthesis is the token that closes it while nothing behind it is open. -/
theorem partners_iff_waitsAt {ts : List Token} {j k : ℕ} :
    Partners ts j k ↔ ts[k]?.any Token.isClosing = true ∧ WaitsAt (ts.take k) j 0 := by
  constructor
  · intro h
    refine ⟨h.closing, ?_, balanced_iff_depthAfter.mp h.balanced⟩
    rw [List.getElem?_take_of_lt h.lt]
    exact h.opening
  · rintro ⟨hclosing, h⟩
    have hlt : j < k := by
      have := h.lt_length
      rw [List.length_take] at this
      omega
    refine ⟨?_, hclosing, hlt, balanced_iff_depthAfter.mpr h.depth⟩
    have hopening := h.opening
    rwa [List.getElem?_take_of_lt hlt] at hopening

/-- One more token gives a parenthesis its partner only if it closes the group that began last. -/
theorem partners_concat {ts : List Token} {t : Token} {j k : ℕ} :
    Partners (ts ++ [t]) j k ↔
      Partners ts j k ∨ k = ts.length ∧ t.isClosing = true ∧ WaitsAt ts j 0 := by
  rw [partners_iff_waitsAt, partners_iff_waitsAt]
  rcases Nat.lt_trichotomy k ts.length with hk | rfl | hk
  · rw [List.getElem?_append_left hk, List.take_append_of_le_length hk.le]
    simp [hk.ne]
  · rw [List.getElem?_append_right (Nat.le_refl _), List.take_left]
    simp
  · have hlong : (ts ++ [t]).length ≤ k := by
      rw [List.length_append]
      exact hk
    rw [List.getElem?_eq_none hlong, List.getElem?_eq_none hk.le]
    simp [hk.ne']

/-- **The unpaired parentheses are those that wait at the end.** -/
theorem unpaired_iff_exists_waitsAt {ts : List Token} {j : ℕ} :
    Unpaired ts j ↔ ∃ k, WaitsAt ts j k := by
  -- a partner is a token that closes too much of what follows
  have hpartner : (∃ k, Partners ts j k) ↔
      ts[j]?.any Token.isOpening = true ∧ depthAfter 0 (ts.drop (j + 1)) = none := by
    rw [depthAfter_eq_none_iff]
    constructor
    · rintro ⟨k, h⟩
      obtain ⟨n, rfl⟩ := Nat.exists_eq_add_of_lt h.lt
      refine ⟨h.opening, n, ?_, ?_⟩
      · rw [List.getElem?_drop, Nat.add_right_comm]
        exact h.closing
      · have hbalanced := balanced_iff_depthAfter.mp h.balanced
        rwa [List.take_drop, Nat.add_right_comm]
    · rintro ⟨hopening, n, hclosing, hdepth⟩
      rw [List.getElem?_drop] at hclosing
      refine ⟨j + 1 + n, hopening, hclosing, by omega, balanced_iff_depthAfter.mpr ?_⟩
      rwa [← List.take_drop]
  constructor
  · rintro ⟨hopening, hnone⟩
    cases hdepth : depthAfter 0 (ts.drop (j + 1)) with
    | none =>
      obtain ⟨k, hk⟩ := hpartner.mpr ⟨hopening, hdepth⟩
      exact absurd hk (hnone k)
    | some k => exact ⟨k, hopening, hdepth⟩
  · rintro ⟨k, h⟩
    refine ⟨h.opening, fun k' hk' => ?_⟩
    obtain ⟨-, hdepth⟩ := hpartner.mp ⟨k', hk'⟩
    rw [h.depth] at hdepth
    cases hdepth

end Expression

end ChatCalculator
