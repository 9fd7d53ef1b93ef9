import ChatCalculator.Proofs.Expression.Refusal

/-!
# Where the tokens go

Postfix order moves operators behind what follows them. To say of a token where it has gone, it has
to be known from others that look the same, so the tokens are given marks. `toPostfixMarked` puts
marked tokens into postfix order. It is defined for marks of any kind, so it can only pass them on,
and without the marks it is `toPostfix` (`map_fst_toPostfixMarked`). With the places of the tokens
as marks, it tells for every token of the result which one of the expression it is.

## What is known after a prefix

All three facts about the order are of one form: some token is passed on before another one. Each
is seen at a moment at which the first token has been passed on and the second has not been read
yet. `Keeps` says what is known at any moment. What has been passed on and what waits are the
numbers and operators read so far; no number waits; and of a group that has been closed nothing
waits, since the stack is in the order of the places and was cut at the place where the group
began.

## Main definitions

* `readMarked`, `toPostfixMarked`: one step and the whole of it, with marks
* `Keeps`: what has been passed on and what waits

## Main results

* `map_fst_toPostfixMarked`: the marks change nothing
* `Keeps.readMarked`: one step keeps what is known
* `Keeps.exists_split`: so it is known at every moment of a run
* `toPostfix_placement`: what is lost, what is added and what comes before what
-/

namespace ChatCalculator

namespace Expression

variable {table : OperatorTable} {α : Type}

/-! ### Marks -/

/-- The token that leaves the stack, with its mark. -/
def leaving (p : Pending × α) : Token × α :=
  (p.1.token, p.2)

/-- What one marked token passes on, and what waits behind it. -/
def readMarked (table : OperatorTable) (position : ℕ) (stack : List (Pending × α)) :
    Token × α → Except Fault (List (Token × α) × List (Pending × α))
  | (.number value, mark) => .ok ([(.number value, mark)], stack)
  | (.opening _, mark) => .ok ([], (.opening position, mark) :: stack)
  | (.closing _, _) =>
    match stack.dropWhile fun p => p.1.isOperator with
    | [] => .error (.unbalancedParentheses position)
    | _ :: below => .ok ((stack.takeWhile fun p => p.1.isOperator).map leaving, below)
  | (.operator symbol, mark) =>
    match table.find? symbol with
    | none => .error (.unknownOperator symbol)
    | some entry =>
      .ok ((stack.takeWhile fun p => p.1.precedes entry).map leaving,
        (.operator symbol entry, mark) :: stack.dropWhile fun p => p.1.precedes entry)
  | (.other text, _) => .error (.unknownToken text)

/-- The postfix order of marked tokens from a position on, given what waits. -/
def toPostfixMarkedFrom (table : OperatorTable) (position : ℕ) (stack : List (Pending × α)) :
    List (Token × α) → Except Fault (List (Token × α))
  | [] => (fun _ => stack.map leaving) <$> flush (stack.map Prod.fst)
  | t :: ts => do
    let (xs, next) ← readMarked table position stack t
    (xs ++ ·) <$> toPostfixMarkedFrom table (position + 1) next ts

/-- The postfix order of marked tokens. -/
def toPostfixMarked (table : OperatorTable) (ts : List (Token × α)) :
    Except Fault (List (Token × α)) :=
  toPostfixMarkedFrom table 0 [] ts

/-- A marked token is read as it is without its mark. -/
theorem map_fst_readMarked (position : ℕ) (stack : List (Pending × α)) (t : Token × α) :
    (Prod.map (List.map Prod.fst) (List.map Prod.fst)) <$> readMarked table position stack t =
      readToken table position (stack.map Prod.fst) t.1 := by
  have hleaving : (Prod.fst ∘ leaving : Pending × α → Token) = Pending.token ∘ Prod.fst := rfl
  obtain ⟨t, mark⟩ := t
  cases t with
  | number value => rfl
  | opening text => rfl
  | closing text =>
    rw [readMarked, readToken, List.dropWhile_map, List.takeWhile_map]
    simp only [Function.comp_def]
    cases stack.dropWhile fun p => p.1.isOperator with
    | nil => rfl
    | cons opened below => simp [hleaving]
  | operator symbol =>
    rw [readMarked, readToken]
    cases table.find? symbol with
    | none => rfl
    | some entry =>
      simp only [List.dropWhile_map, List.takeWhile_map, Function.comp_def]
      simp [hleaving]
  | other text => rfl

theorem map_fst_toPostfixMarkedFrom (ts : List (Token × α)) :
    ∀ (position : ℕ) (stack : List (Pending × α)),
      List.map Prod.fst <$> toPostfixMarkedFrom table position stack ts =
        toPostfixFrom table position (stack.map Prod.fst) (ts.map Prod.fst) := by
  induction ts with
  | nil =>
    intro position stack
    rw [toPostfixMarkedFrom, List.map_nil, toPostfixFrom, flush_eq]
    cases openPlaces (stack.map Prod.fst) with
    | nil => simp [leaving, Function.comp_def]
    | cons place places => rfl
  | cons t ts ih =>
    intro position stack
    rw [toPostfixMarkedFrom, List.map_cons, toPostfixFrom_cons, ← map_fst_readMarked]
    cases readMarked table position stack t with
    | error fault => rfl
    | ok r =>
      obtain ⟨xs, next⟩ := r
      show List.map Prod.fst <$> (xs ++ ·) <$> toPostfixMarkedFrom table (position + 1) next ts =
        (xs.map Prod.fst ++ ·) <$>
          toPostfixFrom table (position + 1) (next.map Prod.fst) (ts.map Prod.fst)
      rw [← ih]
      simp only [Functor.map_map, List.map_append]

/-- **The marks change nothing.** -/
theorem map_fst_toPostfixMarked (ts : List (Token × α)) :
    List.map Prod.fst <$> toPostfixMarked table ts = toPostfix table (ts.map Prod.fst) :=
  map_fst_toPostfixMarkedFrom ts 0 []

/-! ### What is known at every moment -/

/-- The operators that wait, with their marks. -/
def waitingMarked (stack : List (Pending × α)) : List (Token × α) :=
  (stack.filter fun p => p.1.isOperator).map leaving

/-- The numbers and operators among marked tokens. -/
def passedOnMarked (ts : List (Token × α)) : List (Token × α) :=
  ts.filter fun t => t.1.isPassedOn

/-- No number waits. -/
theorem filter_isNumber_map_leaving (stack : List (Pending × α)) :
    ((stack.map leaving).filter fun t => t.1.isNumber) = [] := by
  rw [List.filter_eq_nil_iff]
  intro t ht
  obtain ⟨p, -, rfl⟩ := List.mem_map.mp ht
  cases hp : p.1 <;> simp [leaving, hp, Pending.token]

/-- What is known when some tokens have been read, `out` has been passed on and `stack` waits, all
marked with their places. -/
structure Keeps (before : List Token) (out : List (Token × ℕ)) (stack : List (Pending × ℕ)) :
    Prop where
  /-- The parentheses that wait are on the stack. -/
  tracks : Tracks before (stack.map Prod.fst)
  /-- Nothing is lost and nothing is added. -/
  perm : (out ++ waitingMarked stack).Perm (passedOnMarked before.zipIdx)
  /-- All numbers have been passed on, in order. -/
  numbers : (out.filter fun t => t.1.isNumber) = before.zipIdx.filter fun t => t.1.isNumber
  /-- Parentheses are marked with their places, too. -/
  place : ∀ position mark, (Pending.opening position, mark) ∈ stack → mark = position
  /-- What came later is above. -/
  descending : stack.Pairwise fun p q => q.2 < p.2
  /-- What waits has been read. -/
  lt_length : ∀ p ∈ stack, p.2 < before.length
  /-- Of a group that has been closed nothing waits. -/
  closed : ∀ j k, Partners before j k → ∀ p ∈ stack, p.2 < j ∨ k < p.2

theorem zipIdx_concat (before : List Token) (t : Token) :
    (before ++ [t]).zipIdx = before.zipIdx ++ [(t, before.length)] := by
  simp [List.zipIdx_append]

namespace Keeps

variable {before : List Token} {out : List (Token × ℕ)} {stack : List (Pending × ℕ)}

theorem nil : Keeps [] [] [] where
  tracks := tracks_nil
  perm := List.Perm.refl _
  numbers := rfl
  place := nofun
  descending := List.Pairwise.nil
  lt_length := nofun
  closed := nofun

/-- Operators on top of the stack may be passed on. -/
theorem pass {popped : List (Pending × ℕ)} (h : Keeps before out (popped ++ stack))
    (hpopped : ∀ p ∈ popped, p.1.isOperator = true) :
    Keeps before (out ++ popped.map leaving) stack := by
  have hplaces : openPlaces (popped.map Prod.fst) = [] := by
    rw [openPlaces_eq_nil_iff]
    exact List.forall_mem_map.mpr hpopped
  have hwaiting : waitingMarked (popped ++ stack) = popped.map leaving ++ waitingMarked stack := by
    rw [waitingMarked, List.filter_append, List.filter_eq_self.mpr hpopped, List.map_append]
    rfl
  refine ⟨?_, ?_, ?_, ?_, ?_, ?_, ?_⟩
  · refine h.tracks.congr ?_
    rw [List.map_append, openPlaces_append, hplaces, List.nil_append]
  · rw [List.append_assoc, ← hwaiting]
    exact h.perm
  · rw [List.filter_append, filter_isNumber_map_leaving, List.append_nil]
    exact h.numbers
  · exact fun position mark hp => h.place position mark (List.mem_append_right _ hp)
  · exact (List.pairwise_append.mp h.descending).2.1
  · exact fun p hp => h.lt_length p (List.mem_append_right _ hp)
  · exact fun j k hjk p hp => h.closed j k hjk p (List.mem_append_right _ hp)

/-- What waits has been read, also when one more token has been. -/
theorem lt_length_concat (h : Keeps before out stack) (t : Token) :
    ∀ p ∈ stack, p.2 < (before ++ [t]).length := by
  intro p hp
  rw [List.length_append, List.length_singleton]
  exact Nat.lt_succ_of_lt (h.lt_length p hp)

/-- Nothing is lost of one more token that is passed on or waits now. -/
theorem perm_concat (h : Keeps before out stack) {t : Token} {xs : List (Token × ℕ)}
    (hxs : xs = passedOnMarked [(t, before.length)]) :
    (out ++ (xs ++ waitingMarked stack)).Perm (passedOnMarked (before ++ [t]).zipIdx) := by
  rw [zipIdx_concat, passedOnMarked, List.filter_append, ← passedOnMarked, ← passedOnMarked, ← hxs]
  refine (List.perm_append_comm.append_left out).trans ?_
  rw [← List.append_assoc]
  exact h.perm.append_right xs

/-- A number is passed on. -/
theorem number (h : Keeps before out stack) (value : Binary64) :
    Keeps (before ++ [.number value]) (out ++ [(.number value, before.length)]) stack := by
  refine ⟨h.tracks.concat rfl rfl, ?_, ?_, h.place, h.descending, h.lt_length_concat _, ?_⟩
  · rw [List.append_assoc]
    exact h.perm_concat rfl
  · rw [zipIdx_concat, List.filter_append, List.filter_append, h.numbers]
  · intro j k hjk
    rcases partners_concat.mp hjk with hold | ⟨-, hclosing, -⟩
    · exact h.closed j k hold
    · cases hclosing

/-- An operator or an opening parenthesis is put on the stack. -/
theorem push (h : Keeps before out stack) {t : Token} {p : Pending}
    (htracks : Tracks (before ++ [t]) (p :: stack.map Prod.fst)) (hnumber : t.isNumber = false)
    (hclosing : t.isClosing = false)
    (hplace : ∀ position, p = .opening position → before.length = position)
    (hwaits : waitingMarked [(p, before.length)] = passedOnMarked [(t, before.length)]) :
    Keeps (before ++ [t]) out ((p, before.length) :: stack) := by
  refine ⟨htracks, ?_, ?_, ?_, ?_, ?_, ?_⟩
  · have hcons : waitingMarked ((p, before.length) :: stack) =
        waitingMarked [(p, before.length)] ++ waitingMarked stack := by
      rw [waitingMarked, waitingMarked, waitingMarked, ← List.map_append, ← List.filter_append,
        List.singleton_append]
    rw [hcons]
    exact h.perm_concat hwaits
  · rw [zipIdx_concat, List.filter_append, h.numbers]
    simp only [List.filter_cons, hnumber]
    simp
  · intro position mark hp
    rcases List.mem_cons.mp hp with heq | hp
    · cases heq
      exact hplace position rfl
    · exact h.place position mark hp
  · exact List.pairwise_cons.mpr ⟨fun q hq => h.lt_length q hq, h.descending⟩
  · refine List.forall_mem_cons.mpr ⟨?_, h.lt_length_concat t⟩
    rw [List.length_append, List.length_singleton]
    exact Nat.lt_succ_self _
  · intro j k hjk q hq
    rcases partners_concat.mp hjk with hold | ⟨-, hclosing', -⟩
    · rcases List.mem_cons.mp hq with rfl | hq
      · exact .inr (lt_length_of_any hold.closing)
      · exact h.closed j k hold q hq
    · rw [hclosing] at hclosing'
      cases hclosing'

/-- A closing parenthesis takes its partner off the top of the stack. -/
theorem close {opened mark : ℕ} (h : Keeps before out ((.opening opened, mark) :: stack))
    (text : List Char) : Keeps (before ++ [.closing text]) out stack := by
  obtain ⟨habove, hdescending⟩ := List.pairwise_cons.mp h.descending
  obtain rfl : mark = opened := h.place opened mark List.mem_cons_self
  refine ⟨h.tracks.concat_closing text rfl, ?_, ?_, ?_, hdescending,
    fun q hq => h.lt_length_concat _ q (List.mem_cons_of_mem _ hq), ?_⟩
  · rw [zipIdx_concat, passedOnMarked, List.filter_append]
    exact (List.append_nil (passedOnMarked before.zipIdx)).symm ▸ h.perm
  · rw [zipIdx_concat, List.filter_append, h.numbers]
    simp
  · exact fun position mark hp => h.place position mark (List.mem_cons_of_mem _ hp)
  · intro j k hjk q hq
    rcases partners_concat.mp hjk with hold | ⟨-, -, hwaits⟩
    · exact h.closed j k hold q (List.mem_cons_of_mem _ hq)
    · -- the partner was on top, and what is below came earlier
      obtain rfl : mark = j := Option.some.inj ((h.tracks.waits j 0).mp hwaits)
      exact .inl (habove q hq)

/-- **One step** keeps what is known. -/
theorem readMarked {t : Token} {xs : List (Token × ℕ)} {next : List (Pending × ℕ)}
    (h : Keeps before out stack)
    (hread : readMarked table before.length stack (t, before.length) = .ok (xs, next)) :
    Keeps (before ++ [t]) (out ++ xs) next := by
  cases t with
  | number value =>
    cases hread
    exact h.number value
  | opening text =>
    cases hread
    rw [List.append_nil]
    exact h.push (h.tracks.concat_opening text) rfl rfl (fun _ => Pending.opening.inj) rfl
  | closing text =>
    have hsplit : (stack.takeWhile fun p => p.1.isOperator) ++
        (stack.dropWhile fun p => p.1.isOperator) = stack := List.takeWhile_append_dropWhile
    have htop := List.head?_dropWhile_not (fun p : Pending × ℕ => p.1.isOperator) stack
    rw [Expression.readMarked] at hread
    cases hstack : stack.dropWhile fun p => p.1.isOperator with
    | nil =>
      rw [hstack] at hread
      cases hread
    | cons top below =>
      rw [hstack] at hread hsplit htop
      cases hread
      obtain ⟨p, mark⟩ := top
      cases p with
      | operator symbol entry => cases htop
      | opening opened =>
        have hpass := (hsplit ▸ h).pass fun p hp => List.all_eq_true.mp List.all_takeWhile p hp
        exact hpass.close text
  | operator symbol =>
    rw [Expression.readMarked] at hread
    cases he : table.find? symbol with
    | none =>
      rw [he] at hread
      cases hread
    | some entry =>
      rw [he] at hread
      cases hread
      have hsplit : (stack.takeWhile fun p => p.1.precedes entry) ++
          (stack.dropWhile fun p => p.1.precedes entry) = stack := List.takeWhile_append_dropWhile
      have hpass := (hsplit ▸ h).pass fun p hp =>
        Pending.isOperator_of_precedes (List.all_eq_true.mp List.all_takeWhile p hp)
      exact hpass.push ((hpass.tracks.concat rfl rfl).congr rfl) rfl rfl (fun _ => nofun) rfl
  | other text => cases hread

/-- **At every moment of a run** what is known can be said of the tokens read until then, and at
the end nothing waits. -/
theorem exists_split {ts : List Token} : ∀ {before : List Token} {out : List (Token × ℕ)}
    {stack : List (Pending × ℕ)} {rest : List (Token × ℕ)}, Keeps before out stack →
      toPostfixMarkedFrom table before.length stack (ts.zipIdx before.length) = .ok rest →
        ∀ n ≤ ts.length, ∃ first last later, out ++ rest = first ++ later ∧
          Keeps (before ++ ts.take n) first last ∧
            (n = ts.length → later = waitingMarked last) := by
  induction ts with
  | nil =>
    intro before out stack rest h hrun n hn
    obtain rfl : n = 0 := Nat.le_zero.mp hn
    refine ⟨out, stack, rest, rfl, by simpa using h, fun _ => ?_⟩
    obtain ⟨tokens, hflush, rfl⟩ := map_eq_ok_iff.mp hrun
    have hall : ∀ p ∈ stack, p.1.isOperator = true :=
      fun p hp => (flush_eq_ok hflush).1 p.1 (List.mem_map_of_mem hp)
    rw [waitingMarked, List.filter_eq_self.mpr hall]
  | cons t ts ih =>
    intro before out stack rest h hrun n hn
    cases n with
    | zero => exact ⟨out, stack, rest, rfl, by simpa using h, fun hlen => by cases hlen⟩
    | succ n =>
      rw [List.zipIdx_cons, toPostfixMarkedFrom] at hrun
      obtain ⟨⟨xs, next⟩, hread, hrun⟩ := bind_eq_ok_iff.mp hrun
      obtain ⟨ys, hys, rfl⟩ := map_eq_ok_iff.mp hrun
      have hlength : (before ++ [t]).length = before.length + 1 := List.length_append ..
      rw [← hlength] at hys
      obtain ⟨first, last, later, hsplit, hkeeps, hend⟩ :=
        ih (h.readMarked hread) hys n (Nat.le_of_succ_le_succ hn)
      refine ⟨first, last, later, ?_, ?_, fun hlen => hend (Nat.succ.inj hlen)⟩
      · rw [← hsplit, List.append_assoc]
      · simpa using hkeeps

/-- What waits is no number. -/
theorem filter_isNumber (h : Keeps before out stack) :
    ((out ++ waitingMarked stack).filter fun t => t.1.isNumber) =
      before.zipIdx.filter fun t => t.1.isNumber := by
  rw [List.filter_append, waitingMarked, filter_isNumber_map_leaving, List.append_nil, h.numbers]

/-- What has been passed on has been read. -/
theorem mem_zipIdx (h : Keeps before out stack) {x : Token × ℕ} (hx : x ∈ out) :
    x ∈ before.zipIdx :=
  List.mem_of_mem_filter (h.perm.subset (List.mem_append_left _ hx))

/-- A number that has been read has been passed on. -/
theorem mem_of_isNumber (h : Keeps before out stack) {x : Token × ℕ} (hx : x ∈ before.zipIdx)
    (hnumber : x.1.isNumber = true) : x ∈ out := by
  have hmem : x ∈ before.zipIdx.filter fun t => t.1.isNumber := List.mem_filter.mpr ⟨hx, hnumber⟩
  rw [← h.numbers] at hmem
  exact List.mem_of_mem_filter hmem

/-- So has an operator that stands in a group that has been closed. -/
theorem mem_of_partners (h : Keeps before out stack) {j k : ℕ} (hjk : Partners before j k)
    {x : Token × ℕ} (hx : x ∈ before.zipIdx) (hoperator : x.1.isOperator = true) (hj : j < x.2)
    (hk : x.2 < k) : x ∈ out := by
  have hpassed : x.1.isPassedOn = true := by
    rw [Token.isPassedOn, hoperator, Bool.or_true]
  rcases List.mem_append.mp (h.perm.symm.subset (List.mem_filter.mpr ⟨hx, hpassed⟩)) with
    hout | hwaiting
  · exact hout
  · obtain ⟨p, hp, rfl⟩ := List.mem_map.mp hwaiting
    have hclosed : p.2 < j ∨ k < p.2 := h.closed j k hjk p (List.mem_of_mem_filter hp)
    have hj' : j < p.2 := hj
    have hk' : p.2 < k := hk
    omega

end Keeps

/-! ### The order -/

/-- The places in a prefix are those below its length. -/
theorem mem_zipIdx_take {ts : List Token} {n : ℕ} {x : Token × ℕ} :
    x ∈ (ts.take n).zipIdx ↔ x ∈ ts.zipIdx ∧ x.2 < n := by
  obtain ⟨t, i⟩ := x
  rw [List.mk_mem_zipIdx_iff_getElem?, List.mk_mem_zipIdx_iff_getElem?, List.getElem?_take]
  split <;> simp_all

/-- The partners among the first tokens. -/
theorem Partners.take {ts : List Token} {j k : ℕ} (h : Partners ts j k) :
    Partners (ts.take (k + 1)) j k := by
  have hk := lt_length_of_any h.closing
  have htake : ts.take (k + 1) = ts.take k ++ [ts[k]] := List.take_succ_eq_append_getElem hk
  obtain ⟨hclosing, hwaits⟩ := partners_iff_waitsAt.mp h
  rw [List.getElem?_eq_getElem hk] at hclosing
  rw [htake, partners_concat]
  exact .inr ⟨by simp [hk.le], hclosing, hwaits⟩

/-- What is passed on by some moment comes before what is passed on later. -/
theorem pair_sublist_append {first later : List (Token × ℕ)} {x y : Token × ℕ} (hx : x ∈ first)
    (hy : y ∈ first ++ later) (hnot : y ∉ first) : [x, y].Sublist (first ++ later) := by
  have hlater := (List.mem_append.mp hy).resolve_left hnot
  exact (List.singleton_sublist.mpr hx).append (List.singleton_sublist.mpr hlater)

/-- **Where the tokens go.** Postfix order holds the numbers and operators of the expression, each
as often as it occurs there, and no parentheses. The numbers stay in order. Told apart by their
places, an operator comes after all numbers in front of it, and the operators of a group come
before everything that follows the group. -/
theorem toPostfix_placement {ts out : List Token} (h : toPostfix table ts = .ok out) :
    out.Perm (ts.filter Token.isPassedOn) ∧ (∀ t ∈ out, t.isNumber = true ∨ t.isOperator = true) ∧
      out.filter Token.isNumber = ts.filter Token.isNumber ∧
      ∃ marked, toPostfixMarked table ts.zipIdx = .ok marked ∧ marked.map Prod.fst = out ∧
        marked.Perm (ts.zipIdx.filter fun x => x.1.isPassedOn) ∧
        (marked.filter fun x => x.1.isNumber) = (ts.zipIdx.filter fun x => x.1.isNumber) ∧
        (∀ x ∈ marked, ∀ y ∈ marked, x.1.isNumber = true → y.1.isOperator = true → x.2 < y.2 →
          [x, y].Sublist marked) ∧
        ∀ j k, Partners ts j k → ∀ x ∈ marked, ∀ y ∈ marked, x.1.isOperator = true →
          j < x.2 → x.2 < k → k < y.2 → [x, y].Sublist marked := by
  have hperm := (toPostfix_eq_ok h).2.2
  have herase := @map_fst_toPostfixMarked table _ ts.zipIdx
  rw [List.zipIdx_map_fst, h] at herase
  obtain ⟨marked, hmarked, hout⟩ := map_eq_ok_iff.mp herase
  have hmoment : ∀ n ≤ ts.length, ∃ first last later, marked = first ++ later ∧
      Keeps (ts.take n) first last ∧ (n = ts.length → later = waitingMarked last) := by
    simpa using @Keeps.exists_split table ts [] [] [] marked .nil hmarked
  obtain ⟨hall, hnumbers⟩ : marked.Perm (passedOnMarked ts.zipIdx) ∧
      (marked.filter fun x => x.1.isNumber) = ts.zipIdx.filter fun x => x.1.isNumber := by
    obtain ⟨first, last, later, rfl, hkeeps, hend⟩ := hmoment ts.length (Nat.le_refl _)
    rw [List.take_length] at hkeeps
    rw [hend rfl]
    exact ⟨hkeeps.perm, hkeeps.filter_isNumber⟩
  have hread : ∀ x ∈ marked, x ∈ ts.zipIdx := fun x hx => List.mem_of_mem_filter (hall.subset hx)
  -- at the moment `n`, tokens from the place `n` on have not been passed on
  have hlater : ∀ {n first last}, Keeps (ts.take n) first last → ∀ {y : Token × ℕ}, n ≤ y.2 →
      y ∉ first := fun {n first last} hkeeps {y} hn hy =>
    absurd (mem_zipIdx_take.mp (hkeeps.mem_zipIdx hy)).2 (Nat.not_lt.mpr hn)
  refine ⟨hperm, fun t ht => ?_, ?_, marked, hmarked, hout, hall, hnumbers, ?_, ?_⟩
  · have hpassed := (List.mem_filter.mp (hperm.subset ht)).2
    rwa [Token.isPassedOn, Bool.or_eq_true] at hpassed
  · have htokens : out.filter Token.isNumber = (ts.zipIdx.map Prod.fst).filter Token.isNumber := by
      rw [← hout, List.filter_map, List.filter_map]
      exact congrArg (List.map Prod.fst) hnumbers
    rwa [List.zipIdx_map_fst] at htokens
  · intro x hx y hy hnumber hoperator hlt
    have hn : y.2 ≤ ts.length :=
      (List.getElem?_eq_some_iff.mp (List.mk_mem_zipIdx_iff_getElem?.mp (hread y hy))).1.le
    obtain ⟨first, last, later, rfl, hkeeps, -⟩ := hmoment y.2 hn
    have hfirst := hkeeps.mem_of_isNumber (mem_zipIdx_take.mpr ⟨hread x hx, hlt⟩) hnumber
    exact pair_sublist_append hfirst hy (hlater hkeeps (Nat.le_refl _))
  · intro j k hjk x hx y hy hoperator hj hk hlt
    obtain ⟨first, last, later, rfl, hkeeps, -⟩ := hmoment (k + 1) (lt_length_of_any hjk.closing)
    have hfirst := hkeeps.mem_of_partners hjk.take
      (mem_zipIdx_take.mpr ⟨hread x hx, Nat.lt_succ_of_lt hk⟩) hoperator hj hk
    exact pair_sublist_append hfirst hy (hlater hkeeps hlt)

/-- The sum `(0+0)+0`, in which two operators look the same. -/
def nestedSum : List Token :=
  [.opening ['('], .number .zero, .operator ['+'], .number .zero, .closing [')'], .operator ['+'],
    .number .zero]

/-- The operator of the group comes first, and so does the number in front of the other one. -/
theorem toPostfix_placement_nestedSum :
    toPostfix standardOperators nestedSum =
        .ok [.number .zero, .number .zero, .operator ['+'], .number .zero, .operator ['+']] ∧
      Partners nestedSum 0 4 ∧
      ∃ marked, toPostfixMarked standardOperators nestedSum.zipIdx = .ok marked ∧
        [(Token.operator ['+'], 2), (Token.operator ['+'], 5)].Sublist marked ∧
          [(Token.number .zero, 3), (Token.operator ['+'], 5)].Sublist marked := by
  have hout : toPostfix standardOperators nestedSum =
      .ok [.number .zero, .number .zero, .operator ['+'], .number .zero, .operator ['+']] := rfl
  have hgroup : Partners nestedSum 0 4 := by decide
  obtain ⟨-, -, -, marked, hmarked, -, hperm, -, hnumber, hpartners⟩ := toPostfix_placement hout
  have hmem : ∀ x ∈ nestedSum.zipIdx.filter (fun x => x.1.isPassedOn), x ∈ marked :=
    fun x hx => hperm.symm.subset hx
  have hinner := hmem (.operator ['+'], 2) (by decide)
  have houter := hmem (.operator ['+'], 5) (by decide)
  have hzero := hmem (.number .zero, 3) (by decide)
  exact ⟨hout, hgroup, marked, hmarked,
    hpartners 0 4 hgroup _ hinner _ houter rfl (by decide) (by decide) (by decide),
    hnumber _ hzero _ houter rfl rfl (by decide)⟩

end Expression

end ChatCalculator
