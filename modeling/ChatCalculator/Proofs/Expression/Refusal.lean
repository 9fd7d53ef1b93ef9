import ChatCalculator.Proofs.Expression.Conversion
import ChatCalculator.Proofs.Expression.Partners

/-!
# Where putting tokens into postfix order fails

Tokens are refused for three reasons while they are read, and for a fourth one when all of them
have been read: some parenthesis still waits. All four can be said of the tokens by their places.
`RefusedAt` is the rule for the first three, and the smallest place at which it holds is the one
that is reported. If there is none, the parentheses that still wait are the unpaired ones, and the
last of them is reported.

Nothing in these rules looks at a precedence, at an associativity or at a number.

## What the stack knows

The parentheses on the stack, the topmost one first, are those that wait, and the number of others
above a parenthesis is the number of groups that are open inside it. `Tracks` says that. Operators
come and go between them without any effect on it, so one step only has to be compared with what
one more token changes for the parentheses that wait (`waitsAt_concat`).

## Main definitions

* `Refuses`, `RefusedAt`: the tokens that are refused, and why
* `openPlaces`: the places of the parentheses on a stack
* `Tracks`: the stack holds exactly the parentheses that wait

## Main results

* `Tracks.readToken_cases`: one step
* `Tracks.toPostfixFrom_cases`: a run
* `toPostfix_refuses_first`: where postfix order fails, and that nothing else decides it
-/

namespace ChatCalculator

namespace Expression

variable {table : OperatorTable} {before : List Token} {stack : List Pending}

/-- Which tokens are refused behind others, and what is reported: a token of no known kind, an
operator that is not in the table, and a parenthesis with which more groups have been closed than
opened. -/
inductive Refuses (table : OperatorTable) (before : List Token) : Token → Fault → Prop
  /-- A token of no known kind. -/
  | unknownToken (text : List Char) : Refuses table before (.other text) (.unknownToken text)
  /-- An operator that is not in the table. -/
  | unknownOperator {symbol : List Char} (hkeys : symbol ∉ table.keys) :
      Refuses table before (.operator symbol) (.unknownOperator symbol)
  /-- One closing parenthesis more than there are opening ones. -/
  | closing {text : List Char}
      (hcount : (before ++ [Token.closing text]).countP Token.isOpening <
        (before ++ [Token.closing text]).countP Token.isClosing) :
      Refuses table before (.closing text) (.unbalancedParentheses before.length)

/-- A place at which a token is refused. -/
def RefusedAt (table : OperatorTable) (ts : List Token) (i : ℕ) (fault : Fault) : Prop :=
  ∃ t, ts[i]? = some t ∧ Refuses table (ts.take i) t fault

theorem RefusedAt.lt_length {ts : List Token} {i : ℕ} {fault : Fault}
    (h : RefusedAt table ts i fault) : i < ts.length := by
  obtain ⟨t, ht, -⟩ := h
  exact (List.getElem?_eq_some_iff.mp ht).1

/-- A token is refused for one reason. -/
theorem Refuses.unique {t : Token} {fault fault' : Fault} (h : Refuses table before t fault)
    (h' : Refuses table before t fault') : fault = fault' := by
  cases h <;> cases h' <;> rfl

theorem refusedAt_append_cons {t : Token} {ts : List Token} {fault : Fault} :
    RefusedAt table (before ++ t :: ts) before.length fault ↔ Refuses table before t fault := by
  simp [RefusedAt]

/-- Nothing is refused among known tokens, if no first part of them closes more groups than it
opens. -/
theorem not_refusedAt_of_countP_le {ts : List Token} (hknown : ∀ t ∈ ts, t.Known table)
    (hcount : ∀ i < ts.length, (ts.take (i + 1)).countP Token.isClosing ≤
      (ts.take (i + 1)).countP Token.isOpening) (i : ℕ) (fault : Fault) :
    ¬ RefusedAt table ts i fault := by
  rintro ⟨t, ht, hrefuses⟩
  obtain ⟨hlt, rfl⟩ := List.getElem?_eq_some_iff.mp ht
  have htable := hknown ts[i] (List.getElem_mem hlt)
  have hprefix := hcount i hlt
  rw [List.take_succ_eq_append_getElem hlt] at hprefix
  generalize ts[i] = t at *
  cases hrefuses with
  | unknownToken text => exact htable
  | unknownOperator hkeys => exact hkeys htable
  | closing hmore => exact absurd hprefix (Nat.not_le.mpr hmore)

/-! ### The parentheses on the stack -/

/-- The place of a parenthesis that waits. -/
def Pending.place? : Pending → Option ℕ
  | .operator _ _ => none
  | .opening position => some position

/-- The places of the parentheses on a stack, the topmost one first. -/
def openPlaces (stack : List Pending) : List ℕ :=
  stack.filterMap Pending.place?

@[simp] theorem openPlaces_nil : openPlaces [] = [] := rfl

@[simp] theorem openPlaces_operator (symbol : List Char) (entry : Operator)
    (stack : List Pending) : openPlaces (.operator symbol entry :: stack) = openPlaces stack := rfl

@[simp] theorem openPlaces_opening (position : ℕ) (stack : List Pending) :
    openPlaces (.opening position :: stack) = position :: openPlaces stack := rfl

theorem openPlaces_append (above stack : List Pending) :
    openPlaces (above ++ stack) = openPlaces above ++ openPlaces stack :=
  List.filterMap_append ..

/-- Where no parenthesis waits there are operators only. -/
theorem openPlaces_eq_nil_iff {stack : List Pending} :
    openPlaces stack = [] ↔ ∀ p ∈ stack, p.isOperator = true := by
  rw [openPlaces, List.filterMap_eq_nil_iff]
  refine forall₂_congr fun p _ => ?_
  cases p <;> simp [Pending.place?, Pending.isOperator]

/-- No parenthesis leaves the stack with the operators. -/
theorem openPlaces_dropWhile {p : Pending → Bool} (hp : ∀ x, p x = true → x.isOperator = true)
    (stack : List Pending) : openPlaces (stack.dropWhile p) = openPlaces stack := by
  induction stack with
  | nil => rfl
  | cons x stack ih =>
    cases hx : p x with
    | false => rw [List.dropWhile_cons_of_neg (by simp [hx])]
    | true =>
      rw [List.dropWhile_cons_of_pos hx, ih]
      cases x with
      | operator symbol entry => rfl
      | opening position => cases hp _ hx

/-- At the end the topmost parenthesis is reported, if there is one. -/
theorem flush_eq (stack : List Pending) :
    flush stack = match openPlaces stack with
      | [] => .ok (stack.map Pending.token)
      | position :: _ => .error (.unbalancedParentheses position) := by
  induction stack with
  | nil => rfl
  | cons p stack ih =>
    cases p with
    | operator symbol entry =>
      rw [flush, ih, openPlaces_operator]
      cases openPlaces stack <;> rfl
    | opening position => rfl

/-- The parentheses on the stack are those that wait, each below as many others as there are
groups open inside it. -/
structure Tracks (before : List Token) (stack : List Pending) : Prop where
  /-- Which parentheses wait, and how deep. -/
  waits : ∀ j k, WaitsAt before j k ↔ (openPlaces stack)[k]? = some j
  /-- Those that began later are above. -/
  descending : (openPlaces stack).Pairwise (· > ·)
  /-- They are as many as have been opened and not closed. -/
  count : before.countP Token.isOpening =
    before.countP Token.isClosing + (openPlaces stack).length

theorem tracks_nil : Tracks [] [] where
  waits j k := by
    refine ⟨fun h => absurd h.lt_length (Nat.not_lt_zero j), fun h => ?_⟩
    cases h
  descending := List.Pairwise.nil
  count := rfl

namespace Tracks

theorem lt_length (h : Tracks before stack) {j : ℕ} (hj : j ∈ openPlaces stack) :
    j < before.length := by
  obtain ⟨k, hk⟩ := List.mem_iff_getElem?.mp hj
  exact ((h.waits j k).mpr hk).lt_length

/-- Operators on the stack do not matter. -/
theorem congr (h : Tracks before stack) {next : List Pending}
    (hnext : openPlaces next = openPlaces stack) : Tracks before next where
  waits j k := hnext ▸ h.waits j k
  descending := hnext ▸ h.descending
  count := hnext ▸ h.count

/-- Numbers and operators open and close nothing. -/
theorem concat (h : Tracks before stack) {t : Token} (hopening : t.isOpening = false)
    (hclosing : t.isClosing = false) : Tracks (before ++ [t]) stack := by
  have hdepth : ∀ d, t.nextDepth d = some d := by
    intro d
    cases t with
    | opening text => cases hopening
    | closing text => cases hclosing
    | _ => rfl
  refine ⟨fun j k => ?_, h.descending, ?_⟩
  · rw [← h.waits, waitsAt_concat]
    simp [hopening, hdepth]
  · simpa [List.countP_append, List.countP_singleton, hopening, hclosing] using h.count

theorem concat_opening (h : Tracks before stack) (text : List Char) :
    Tracks (before ++ [.opening text]) (.opening before.length :: stack) := by
  refine ⟨fun j k => ?_, ?_, ?_⟩
  · rw [waitsAt_concat, openPlaces_opening]
    cases k with
    | zero => simp [Token.isOpening, Token.nextDepth, eq_comm (a := j)]
    | succ k => simp [Token.nextDepth, h.waits]
  · exact List.pairwise_cons.mpr ⟨fun j hj => h.lt_length hj, h.descending⟩
  · have hcount := h.count
    simp [List.countP_append, Token.isOpening, Token.isClosing]
    omega

theorem concat_closing (h : Tracks before stack) (text : List Char) {opened : ℕ}
    {below : List Pending} (hstack : openPlaces stack = opened :: openPlaces below) :
    Tracks (before ++ [.closing text]) below := by
  obtain ⟨waits, descending, count⟩ := h
  rw [hstack] at waits descending count
  refine ⟨fun j k => ?_, (List.pairwise_cons.mp descending).2, ?_⟩
  · have hdepth : ∀ d, (Token.closing text).nextDepth d = some k ↔ d = k + 1 := by
      intro d
      cases d <;> simp [Token.nextDepth]
    rw [waitsAt_concat]
    simp [Token.isOpening, hdepth, waits]
  · rw [List.length_cons] at count
    simp [List.countP_append, Token.isOpening, Token.isClosing]
    omega

/-- **One step.** A token is read exactly if it is not refused, and then the stack holds what
waits behind it. -/
theorem readToken_cases (h : Tracks before stack) (table : OperatorTable) (t : Token) :
    (∃ xs next, readToken table before.length stack t = .ok (xs, next) ∧
        (∀ fault, ¬ Refuses table before t fault) ∧ Tracks (before ++ [t]) next) ∨
      ∃ fault, readToken table before.length stack t = .error fault ∧
        Refuses table before t fault := by
  cases t with
  | number value => exact .inl ⟨_, _, rfl, fun _ => nofun, h.concat rfl rfl⟩
  | opening text => exact .inl ⟨_, _, rfl, fun _ => nofun, h.concat_opening text⟩
  | closing text =>
    have hplaces := openPlaces_dropWhile (p := Pending.isOperator) (fun _ h => h) stack
    rw [readToken]
    rcases dropWhile_isOperator_cases stack with hstack | ⟨opened, below, hstack⟩
    · rw [hstack] at hplaces ⊢
      have hcount := h.count
      rw [← hplaces] at hcount
      refine .inr ⟨_, rfl, .closing ?_⟩
      simpa [List.countP_append, Token.isOpening, Token.isClosing, Nat.lt_succ_iff] using hcount.le
    · rw [hstack] at hplaces ⊢
      refine .inl ⟨_, _, rfl, ?_, h.concat_closing text hplaces.symm⟩
      rintro fault ⟨⟩
      rename_i hcount
      have hopen := h.count
      rw [← hplaces, openPlaces_opening, List.length_cons] at hopen
      simp [List.countP_append, Token.isOpening, Token.isClosing] at hcount
      omega
  | operator symbol =>
    rw [readToken]
    cases he : table.find? symbol with
    | none => exact .inr ⟨_, rfl, .unknownOperator (Registry.find?_eq_none_iff.mp he)⟩
    | some entry =>
      refine .inl ⟨_, _, rfl, ?_, (h.concat rfl rfl).congr ?_⟩
      · rintro fault ⟨⟩
        rename_i hkeys
        exact hkeys (Registry.mem_keys_of_find?_eq_some he)
      · rw [openPlaces_operator, openPlaces_dropWhile fun _ => Pending.isOperator_of_precedes]
  | other text => exact .inr ⟨_, rfl, .unknownToken text⟩

/-- **A run.** It fails with the first token that is refused, or else it ends with a stack that
holds what waits behind all tokens. -/
theorem toPostfixFrom_cases {ts : List Token} : ∀ {before : List Token} {stack : List Pending},
    Tracks before stack →
      (∃ i fault, before.length ≤ i ∧ RefusedAt table (before ++ ts) i fault ∧
        (∀ j f, before.length ≤ j → j < i → ¬ RefusedAt table (before ++ ts) j f) ∧
          toPostfixFrom table before.length stack ts = .error fault) ∨
      ((∀ i fault, before.length ≤ i → ¬ RefusedAt table (before ++ ts) i fault) ∧
        ∃ xs last, Tracks (before ++ ts) last ∧
          toPostfixFrom table before.length stack ts = (xs ++ ·) <$> flush last) := by
  induction ts with
  | nil =>
    intro before stack h
    refine .inr ⟨fun i fault hi hrefused => ?_, [], stack, by simpa using h, ?_⟩
    · have hlt := hrefused.lt_length
      rw [List.append_nil] at hlt
      omega
    · simp only [List.nil_append, id_map']
      rfl
  | cons t ts ih =>
    intro before stack h
    rw [toPostfixFrom_cons]
    rcases h.readToken_cases table t with ⟨xs, next, hread, hnot, hnext⟩ | ⟨fault, hread, hrefuses⟩
    · -- the place of this token is not refused, the later ones are as the rest of the run says
      have hhere : ∀ j f, before.length ≤ j → RefusedAt table (before ++ t :: ts) j f →
          before.length + 1 ≤ j := by
        intro j f hj hrefused
        rcases Nat.eq_or_lt_of_le hj with rfl | hlt
        · exact absurd (refusedAt_append_cons.mp hrefused) (hnot f)
        · exact hlt
      have hrest := ih hnext
      rw [List.length_append, List.length_singleton, List.append_assoc,
        List.singleton_append] at hrest
      rw [hread, ok_bind]
      rcases hrest with ⟨i, fault, hi, hrefused, hfirst, hrun⟩ | ⟨hnone, ys, last, hlast, hrun⟩
      · refine .inl ⟨i, fault, by omega, hrefused, fun j f hj hji hj' => ?_, by rw [hrun]; rfl⟩
        exact hfirst j f (hhere j f hj hj') hji hj'
      · refine .inr ⟨fun i fault hi hi' => hnone i fault (hhere i fault hi hi') hi',
          xs ++ ys, last, hlast, ?_⟩
        rw [hrun]
        simp only [Functor.map_map, List.append_assoc]
    · refine .inl ⟨before.length, fault, Nat.le_refl _, refusedAt_append_cons.mpr hrefuses,
        fun j f hj hji => absurd hji (Nat.not_lt.mpr hj), ?_⟩
      rw [hread]
      rfl

/-- What waits at the end are the unpaired parentheses. -/
theorem unpaired_iff (h : Tracks before stack) {j : ℕ} :
    Unpaired before j ↔ j ∈ openPlaces stack := by
  simp [unpaired_iff_exists_waitsAt, h.waits, List.mem_iff_getElem?]

end Tracks

/-! ### What success depends on -/

/-- Postfix order exists for known tokens that are balanced, and for no others. -/
theorem exists_toPostfix_eq_ok_iff {ts : List Token} :
    (∃ out, toPostfix table ts = .ok out) ↔
      (∀ t ∈ ts, t.Known table) ∧ balanced 0 ts = true := by
  constructor
  · rintro ⟨out, h⟩
    obtain ⟨hb, hk, -⟩ := toPostfix_eq_ok h
    exact ⟨hk, hb⟩
  · rintro ⟨hk, hb⟩
    rcases toPostfixFrom_of_known 0 [] hk with ⟨-, out, hout, -⟩ | ⟨hb', -⟩
    · exact ⟨out, hout⟩
    · rw [openGroups, List.countP_nil, hb] at hb'
      cases hb'

/-- Numbers open and close nothing. -/
theorem balanced_filter_not_isNumber (depth : ℕ) (ts : List Token) :
    balanced depth (ts.filter fun t => !t.isNumber) = balanced depth ts := by
  induction ts generalizing depth with
  | nil => rfl
  | cons t ts ih =>
    cases t with
    | number value =>
      rw [List.filter_cons_of_neg Bool.false_ne_true, ih]
      cases depth <;> rfl
    | _ =>
      rw [List.filter_cons_of_pos rfl]
      cases depth <;> simp only [balanced, ih]

/-- Whether there is a postfix order depends on the symbols of the table and on the tokens that
are not numbers. -/
theorem exists_toPostfix_eq_ok_congr {table' : OperatorTable} {ts ts' : List Token}
    (hkeys : ∀ symbol, symbol ∈ table'.keys ↔ symbol ∈ table.keys)
    (hts : (ts'.filter fun t => !t.isNumber) = ts.filter fun t => !t.isNumber) :
    (∃ out, toPostfix table' ts' = .ok out) ↔ ∃ out, toPostfix table ts = .ok out := by
  have hknown : ∀ (tab : OperatorTable) (us : List Token), (∀ t ∈ us, t.Known tab) ↔
      ∀ t ∈ us.filter (fun t => !t.isNumber), t.Known tab := by
    intro tab us
    constructor
    · exact fun h t ht => h t (List.mem_filter.mp ht).1
    · intro h t ht
      cases hn : t.isNumber with
      | false => exact h t (List.mem_filter.mpr ⟨ht, by simp only [hn]; rfl⟩)
      | true =>
        cases t with
        | number value => exact Token.known_number value
        | _ => cases hn
  have htable : ∀ t : Token, t.Known table' ↔ t.Known table := by
    intro t
    cases t <;> simp [hkeys]
  rw [exists_toPostfix_eq_ok_iff, exists_toPostfix_eq_ok_iff, hknown table', hknown table,
    ← balanced_filter_not_isNumber, ← balanced_filter_not_isNumber 0 ts, hts]
  simp only [htable]

/-- **Where putting tokens into postfix order fails.** The first token that is refused is reported.
If none is, the last opening parenthesis without partner is reported, and if there is none, the
tokens have a postfix order. Whether they have one depends on nothing but the symbols of the
table and the tokens other than numbers. -/
theorem toPostfix_refuses_first (table : OperatorTable) (ts : List Token) :
    (∀ i fault, RefusedAt table ts i fault → (∀ j < i, ∀ f, ¬ RefusedAt table ts j f) →
      toPostfix table ts = .error fault) ∧
    ((∀ i fault, ¬ RefusedAt table ts i fault) →
      (∀ j, Unpaired ts j → (∀ k, Unpaired ts k → k ≤ j) →
        toPostfix table ts = .error (.unbalancedParentheses j)) ∧
      ((∀ j, ¬ Unpaired ts j) → ∃ out, toPostfix table ts = .ok out)) ∧
    ∀ (table' : OperatorTable) (ts' : List Token),
      (∀ symbol, symbol ∈ table'.keys ↔ symbol ∈ table.keys) →
      (ts'.filter fun t => !t.isNumber) = (ts.filter fun t => !t.isNumber) →
        ((∃ out, toPostfix table' ts' = .ok out) ↔ ∃ out, toPostfix table ts = .ok out) := by
  refine ⟨?_, ?_, fun table' ts' => exists_toPostfix_eq_ok_congr⟩
  · intro i fault hi hfirst
    rcases @Tracks.toPostfixFrom_cases table ts _ _ tracks_nil with
      ⟨i', fault', -, hi', hfirst', hrun⟩ | ⟨hnone, -⟩
    · -- both places are the first one
      have hle : ¬ i' < i := fun hlt => hfirst i' hlt fault' hi'
      have hge : ¬ i < i' := fun hlt => hfirst' i fault (Nat.zero_le i) hlt hi
      obtain rfl : i = i' := by omega
      obtain ⟨t, ht, hrefuses⟩ := hi
      obtain ⟨t', ht', hrefuses'⟩ := hi'
      obtain rfl : t = t' := Option.some.inj (ht.symm.trans ht')
      rw [hrefuses.unique hrefuses']
      exact hrun
    · exact absurd hi (hnone i fault (Nat.zero_le i))
  · intro hnone
    rcases @Tracks.toPostfixFrom_cases table ts _ _ tracks_nil with
      ⟨i, fault, -, hi, -⟩ | ⟨-, xs, last, hlast, hrun⟩
    · exact absurd hi (hnone i fault)
    · have hrun' : toPostfix table ts = (xs ++ ·) <$> flush last := hrun
      rw [List.nil_append] at hlast
      rw [hrun', flush_eq]
      cases hplaces : openPlaces last with
      | nil => exact ⟨fun j hj => by simp [hlast.unpaired_iff, hplaces] at hj, fun _ => ⟨_, rfl⟩⟩
      | cons top below =>
        have htop : Unpaired ts top := hlast.unpaired_iff.mpr (by simp [hplaces])
        refine ⟨fun j hj hlargest => ?_, fun h => absurd htop (h top)⟩
        -- the topmost parenthesis is the last one
        have hle : j ≤ top := by
          have hmem := hlast.unpaired_iff.mp hj
          have hdescending := hlast.descending
          rw [hplaces] at hmem hdescending
          rcases List.mem_cons.mp hmem with rfl | hbelow
          · exact Nat.le_refl _
          · exact ((List.pairwise_cons.mp hdescending).1 j hbelow).le
        obtain rfl : j = top := Nat.le_antisymm hle (hlargest top htop)
        rfl

/-- A parenthesis that closes too much, one that is not the last and has no partner, a group, and
a sum whose operator has moved in front and binds differently. -/
theorem toPostfix_refuses_first_examples :
    RefusedAt standardOperators [.operator ['+'], .closing [')'], .other ['?']] 1
        (.unbalancedParentheses 1) ∧
      toPostfix standardOperators [.operator ['+'], .closing [')'], .other ['?']] =
        .error (.unbalancedParentheses 1) ∧
      Unpaired [.opening ['('], .opening ['('], .number .zero, .closing [')']] 0 ∧
      toPostfix standardOperators [.opening ['('], .opening ['('], .number .zero, .closing [')']] =
        .error (.unbalancedParentheses 0) ∧
      (∃ out, toPostfix standardOperators [.opening ['('], .closing [')']] = .ok out) ∧
      ((∃ out, toPostfix (standardOperators.mapValues fun _ entry => { entry with precedence := 0 })
          [.operator ['+'], .number .zero] = .ok out) ↔
        ∃ out, toPostfix standardOperators [.number .zero, .operator ['+'], .number .zero] =
          .ok out) := by
  have hrefused : RefusedAt standardOperators [.operator ['+'], .closing [')'], .other ['?']] 1
      (.unbalancedParentheses 1) := ⟨_, rfl, .closing (by decide)⟩
  refine ⟨hrefused, ?_, by decide, ?_, ?_, ?_⟩
  · refine (toPostfix_refuses_first _ _).1 1 _ hrefused ?_
    rintro j hj f ⟨t, ht, hrefuses⟩
    obtain rfl : j = 0 := by omega
    cases ht
    cases hrefuses with
    | unknownOperator hkeys => exact hkeys (by decide)
  · refine ((toPostfix_refuses_first _ _).2.1 ?_).1 0 (by decide) ?_
    · exact not_refusedAt_of_countP_le (by simp) (by decide)
    · intro k hk
      have hlt := lt_length_of_any hk.1
      have hall : ∀ k < 4, Unpaired [.opening ['('], .opening ['('], .number .zero,
          .closing [')']] k → k ≤ 0 := by decide
      exact hall k hlt hk
  · refine ((toPostfix_refuses_first _ _).2.1 ?_).2 ?_
    · exact not_refusedAt_of_countP_le (by simp) (by decide)
    · intro k hk
      have hlt := lt_length_of_any hk.1
      have hall : ∀ k < 2, ¬ Unpaired [.opening ['('], .closing [')']] k := by decide
      exact hall k hlt hk
  · refine (toPostfix_refuses_first _ _).2.2 _ _ (fun symbol => ?_) rfl
    rw [Registry.keys_mapValues]

end Expression

end ChatCalculator
