import ChatCalculator.Chat.Prefix
import Mathlib.Data.List.Induction
import Mathlib.Logic.Function.Basic

/-!
# The prefix of a server is the one it chose last

What a command does to the table depends on the row that it finds and on the prefix that is chosen:
a row is added, set or deleted, or nothing is done. All of this comes to one thing, which is that
the server has another prefix afterwards and all others have theirs. The rows are the prefixes other
than the default one, no more and no less; a row too many would outlive the choice that it came
from, and only the members of one server would notice.

A change that the database refuses leaves no trace, as what waits in a session is not stored.

## Main definitions

* `PrefixTable.choose`: the table in which a server has another prefix
* `PrefixTable.Reflects`: whether the rows of a table are given prefixes of servers
* `Addressed`, `SpacesBehind`: contents that start with a mention, and the white space behind it
* `PrefixCall`, `PrefixTable.run`: what reads or writes the table, and the table after a run
* `latestPrefix`: the prefix that each server chose last, as far as it was stored

## Main results

* `serverKey_injective`: the number of a server can be told from its key
* `changePrefix_accepted`, `changePrefix_refused`: what becomes of a change
* `PrefixTable.Reflects.choose`, `PrefixTable.reflects_run`: the rows follow the choices
* `mentionPrefix?_of_addressed`, `mentionPrefix?_of_not_addressed`: when a mention is the prefix
* `prefixOf_run`: the prefix of any message after any calls
-/

namespace ChatCalculator

namespace Chat

/-! ### The keys of servers -/

theorem toDigits_injective : Function.Injective (Nat.toDigits 10) :=
  Function.LeftInverse.injective (g := fun digits => Nat.ofDigitChars 10 digits 0)
    fun _ => Nat.ofDigitChars_ten_toDigits

theorem toList_serverKey_ofNat (n : ℕ) : (serverKey (.ofNat n)).toList = Nat.toDigits 10 n :=
  Nat.toList_repr

theorem toList_serverKey_negSucc (n : ℕ) :
    (serverKey (.negSucc n)).toList = '-' :: Nat.toDigits 10 (n + 1) := by
  rw [← Nat.toList_repr]
  exact String.toList_append

/-- A number below zero has another key than one that is not, as no digit is a minus sign. -/
theorem serverKey_ofNat_ne_negSucc (m n : ℕ) : serverKey (.ofNat m) ≠ serverKey (.negSucc n) := by
  intro h
  have hminus : '-' ∈ Nat.toDigits 10 m := by
    rw [← toList_serverKey_ofNat, h, toList_serverKey_negSucc]
    exact List.mem_cons_self
  have hdigit : Char.isDigit '-' = true :=
    Nat.isDigit_of_mem_toDigits (by decide) (by decide) hminus
  exact absurd hdigit (by decide)

/-- **Every server has a key of its own.** -/
theorem serverKey_injective : Function.Injective serverKey := by
  intro a b h
  have hlist : (serverKey a).toList = (serverKey b).toList := congrArg String.toList h
  cases a with
  | ofNat m =>
    cases b with
    | ofNat n =>
      rw [toList_serverKey_ofNat, toList_serverKey_ofNat] at hlist
      exact congrArg Int.ofNat (toDigits_injective hlist)
    | negSucc n => exact absurd h (serverKey_ofNat_ne_negSucc m n)
  | negSucc m =>
    cases b with
    | ofNat n => exact absurd h.symm (serverKey_ofNat_ne_negSucc n m)
    | negSucc n =>
      rw [toList_serverKey_negSucc, toList_serverKey_negSucc] at hlist
      have hsucc : m + 1 = n + 1 := toDigits_injective (List.cons.inj hlist).2
      exact congrArg Int.negSucc (Nat.succ.inj hsucc)

/-! ### One change -/

/-- The table in which a server has another prefix. -/
def PrefixTable.choose (table : PrefixTable) (server : Int) (chosen : String) : PrefixTable :=
  if chosen = defaultPrefix then table.erase (serverKey server)
  else table.insert (serverKey server) chosen

theorem find?_choose (table : PrefixTable) (server : Int) (chosen key : String) :
    (table.choose server chosen).find? key =
      if key = serverKey server then if chosen = defaultPrefix then none else some chosen
      else table.find? key := by
  rw [PrefixTable.choose]
  by_cases hdefault : chosen = defaultPrefix
  · rw [if_pos hdefault, if_pos hdefault, Registry.find?_erase]
  · rw [if_neg hdefault, if_neg hdefault, Registry.find?_insert]

/-- A change that waits in a session is not stored. -/
theorem stored_choosePrefix (session : Session String String) (server : Int) (chosen : String) :
    (choosePrefix session server chosen).stored = session.stored := by
  simp only [choosePrefix]
  split <;> split <;> rfl

/-- The change fits the rows, whatever they are, and all four cases store the same choice. -/
theorem commit?_choosePrefix (table : PrefixTable) (server : Int) (chosen : String) :
    (choosePrefix (.start table) server chosen).commit? true =
      some (.start (table.choose server chosen)) := by
  have hfind : (Session.start table).find? (serverKey server) = table.find? (serverKey server) :=
    rfl
  simp only [choosePrefix, PrefixTable.choose, hfind]
  by_cases hdefault : chosen = defaultPrefix
  · rw [if_pos hdefault, if_pos hdefault]
    cases hrow : table.find? (serverKey server) with
    | none =>
      rw [Registry.find?_eq_none_iff] at hrow
      simp only [Session.commit?_start, Registry.erase_of_notMem hrow]
    | some row =>
      have hmem := Registry.mem_keys_of_find?_eq_some hrow
      simp only [Session.commit?_record_start, RowChange.rowsAfter?, if_pos hmem, Option.map_some]
  · rw [if_neg hdefault, if_neg hdefault]
    cases hrow : table.find? (serverKey server) with
    | none =>
      rw [Registry.find?_eq_none_iff] at hrow
      simp only [Session.commit?_record_start, RowChange.rowsAfter?, Registry.insert, if_neg hrow,
        Option.map_some]
    | some row =>
      have hmem := Registry.mem_keys_of_find?_eq_some hrow
      simp only [Session.commit?_record_start, RowChange.rowsAfter?, Registry.insert, if_pos hmem,
        Option.map_some]

/-- **A change that the database accepts is stored and announced.** -/
theorem changePrefix_accepted (table : PrefixTable) (server : Int) (chosen : String) :
    changePrefix table server chosen true =
      (table.choose server chosen,
        { sent := [.text ("Prefix changed to " ++ codeSpan chosen)] }) := by
  simp only [changePrefix, commit?_choosePrefix, Session.stored_start]

/-- **A change that the database refuses leaves the rows alone**, and the answer says that it
failed. -/
theorem changePrefix_refused (table : PrefixTable) (server : Int) (chosen : String) :
    changePrefix table server chosen false =
      (table,
        { sent := [.text "Error: Could not change prefix, an unknown error occured"] }) := by
  simp only [changePrefix, Session.commit?_refused, Session.stored_rollback, stored_choosePrefix,
    Session.stored_start]
  rfl

/-! ### The rows and the prefixes -/

/-- The rows of a table are the given prefixes of servers, apart from those that have the default
one. -/
structure PrefixTable.Reflects (table : PrefixTable) (prefixes : Int → String) : Prop where
  /-- A server has a row unless its prefix is the default one. -/
  find?_eq : ∀ server, table.find? (serverKey server) =
    if prefixes server = defaultPrefix then none else some (prefixes server)
  /-- There are no rows but those of servers. -/
  exists_server : ∀ key ∈ table.keys, ∃ server, key = serverKey server

namespace PrefixTable

variable {table : PrefixTable} {prefixes : Int → String}

theorem reflects_empty : Reflects .empty fun _ => defaultPrefix where
  find?_eq _ := rfl
  exists_server _ h := absurd h List.not_mem_nil

/-- **The rows follow a choice.** -/
theorem Reflects.choose (h : table.Reflects prefixes) (server : Int) (chosen : String) :
    (table.choose server chosen).Reflects (Function.update prefixes server chosen) where
  find?_eq other := by
    rw [find?_choose, Function.update_apply]
    by_cases hother : other = server
    · rw [if_pos (congrArg serverKey hother), if_pos hother]
    · rw [if_neg (serverKey_injective.ne hother), if_neg hother, h.find?_eq other]
  exists_server key hkey := by
    by_cases hserver : key = serverKey server
    · exact ⟨server, hserver⟩
    · obtain ⟨row, hrow⟩ := Registry.exists_find?_of_mem_keys hkey
      rw [find?_choose, if_neg hserver] at hrow
      exact h.exists_server key (Registry.mem_keys_of_find?_eq_some hrow)

theorem Reflects.getD_find? (h : table.Reflects prefixes) (server : Int) :
    (table.find? (serverKey server)).getD defaultPrefix = prefixes server := by
  rw [h.find?_eq]
  split
  · rename_i hdefault
    exact hdefault.symm
  · rfl

/-- A server has one row, or none if its prefix is the default one. -/
theorem Reflects.filter_toList (h : table.Reflects prefixes) (server : Int) :
    table.toList.filter (·.1 = serverKey server) =
      if prefixes server = defaultPrefix then [] else [(serverKey server, prefixes server)] := by
  rw [Registry.filter_toList, h.find?_eq]
  split <;> rfl

/-- The default prefix has no row. -/
theorem Reflects.ne_defaultPrefix (h : table.Reflects prefixes) {row : String × String}
    (hrow : row ∈ table.toList) : row.2 ≠ defaultPrefix := by
  obtain ⟨server, hserver⟩ := h.exists_server row.1 (List.mem_map_of_mem hrow)
  have hfind : table.find? row.1 = some row.2 := Registry.mem_toList_iff.mp hrow
  rw [hserver, h.find?_eq] at hfind
  split at hfind
  · cases hfind
  · rename_i hdefault
    rwa [Option.some.inj hfind] at hdefault

end PrefixTable

/-! ### The mention as a prefix -/

/-- Whether a content starts with a mention and white space behind it. -/
def Addressed (mention content : List Char) : Prop :=
  ∃ c rest, isSpace c ∧ content = mention ++ c :: rest

/-- What stands behind a mention at the start of a content, as far as it is white space. -/
structure SpacesBehind (mention content spaces : List Char) : Prop where
  /-- All of it is white space. -/
  isSpace_of_mem : ∀ c ∈ spaces, isSpace c
  /-- No white space follows. -/
  exists_rest : ∃ rest, content = mention ++ spaces ++ rest ∧ ∀ c ∈ rest.head?, ¬ isSpace c

theorem mentionPrefix?_append_cons (mention : List Char) {c : Char} (hc : isSpace c)
    (rest : List Char) :
    mentionPrefix? mention (mention ++ c :: rest) =
      some (mention ++ c :: rest.takeWhile isSpace) := by
  have hstart : mention.isPrefixOf (mention ++ c :: rest) :=
    List.isPrefixOf_iff_prefix.mpr (List.prefix_append _ _)
  rw [mentionPrefix?, if_pos hstart, List.drop_left, List.takeWhile_cons_of_pos hc]

/-- The prefix is the mention with all white space behind it. -/
theorem mentionPrefix?_of_addressed {mention content : List Char} (h : Addressed mention content) :
    ∃ spaces, SpacesBehind mention content spaces ∧
      mentionPrefix? mention content = some (mention ++ spaces) := by
  obtain ⟨c, rest, hc, rfl⟩ := h
  refine ⟨c :: rest.takeWhile isSpace, ⟨fun d hd => ?_, rest.dropWhile isSpace, ?_, ?_⟩,
    mentionPrefix?_append_cons mention hc rest⟩
  · rcases List.mem_cons.mp hd with rfl | hd
    · exact hc
    · exact List.all_eq_true.mp List.all_takeWhile d hd
  · rw [List.append_assoc, List.cons_append, List.takeWhile_append_dropWhile]
  · intro d hd
    have hhead := List.head?_dropWhile_not isSpace rest
    rw [Option.mem_def.mp hd] at hhead
    simp [hhead]

/-- Without white space behind it a mention is no prefix. -/
theorem mentionPrefix?_of_not_addressed {mention content : List Char}
    (h : ¬ Addressed mention content) : mentionPrefix? mention content = none := by
  rw [mentionPrefix?]
  split
  · rename_i hstart
    obtain ⟨behind, rfl⟩ := List.isPrefixOf_iff_prefix.mp hstart
    rw [List.drop_left]
    cases behind with
    | nil => rfl
    | cons c rest =>
      have hc : ¬ isSpace c := fun hc => h ⟨c, rest, hc, rfl⟩
      rw [List.takeWhile_cons_of_neg hc]
  · rfl

/-! ### Runs -/

/-- What reads or writes the table. -/
inductive PrefixCall
  /-- Somebody changes the prefix of a server, and the database accepts the change or does not. -/
  | change (server : Int) (chosen : String) (accepted : Bool)
  /-- A message comes in, from a server or from none. -/
  | look (server : Option Int) (content : List Char)

/-- The prefix that a call stores for a server. -/
def PrefixCall.stored? (server : Int) : PrefixCall → Option String
  | .change other chosen true => if server = other then some chosen else none
  | .change _ _ false => none
  | .look _ _ => none

/-- The prefix that a server chose last, as far as it was stored; the default one if it has never
stored any. -/
def latestPrefix (calls : List PrefixCall) (server : Int) : String :=
  (calls.filterMap (PrefixCall.stored? server)).getLastD defaultPrefix

theorem latestPrefix_concat_accepted (calls : List PrefixCall) (server : Int) (chosen : String) :
    latestPrefix (calls ++ [.change server chosen true]) =
      Function.update (latestPrefix calls) server chosen := by
  funext other
  rw [Function.update_apply, latestPrefix, List.filterMap_append]
  by_cases hother : other = server
  · rw [if_pos hother, hother]
    simp [PrefixCall.stored?]
  · rw [if_neg hother]
    simp [PrefixCall.stored?, hother, latestPrefix]

theorem latestPrefix_concat_of_stored?_eq_none (calls : List PrefixCall) {call : PrefixCall}
    (h : ∀ server, call.stored? server = none) :
    latestPrefix (calls ++ [call]) = latestPrefix calls := by
  funext server
  simp [latestPrefix, List.filterMap_append, h server]

namespace PrefixTable

/-- The table after a call. -/
def after (table : PrefixTable) : PrefixCall → PrefixTable
  | .change server chosen accepted => (changePrefix table server chosen accepted).1
  | .look _ _ => table

/-- The table after several calls, empty at first. -/
def run (calls : List PrefixCall) : PrefixTable :=
  calls.foldl after .empty

theorem run_concat (calls : List PrefixCall) (call : PrefixCall) :
    run (calls ++ [call]) = (run calls).after call := by
  rw [run, List.foldl_append]
  rfl

/-- **The rows follow the choices that are stored**, over any calls. -/
theorem reflects_run (calls : List PrefixCall) : (run calls).Reflects (latestPrefix calls) := by
  induction calls using List.reverseRecOn with
  | nil => exact reflects_empty
  | append_singleton calls call ih =>
    rw [run_concat]
    cases call with
    | change server chosen accepted =>
      cases accepted with
      | true =>
        rw [after, changePrefix_accepted, latestPrefix_concat_accepted]
        exact ih.choose server chosen
      | false =>
        rw [after, changePrefix_refused, latestPrefix_concat_of_stored?_eq_none calls fun _ => rfl]
        exact ih
    | look server content =>
      rw [after, latestPrefix_concat_of_stored?_eq_none calls fun _ => rfl]
      exact ih

end PrefixTable

/-- **The prefix of a message.** If it starts with a mention of the bot and white space, its prefix
is the mention with all white space behind it, whatever the table holds. The prefix of any other
message is the one that its server chose last, as far as that was stored, and the default one
outside of servers. A change that is not stored leaves all rows as they were. At any time a server
has one row, which holds its prefix, or none if that is the default one, and no row at all holds the
default one. -/
theorem prefixOf_run (mention : List Char) (calls : List PrefixCall) :
    let table := PrefixTable.run calls
    (∀ (anyTable : PrefixTable) (server : Option Int) (content : List Char),
        Addressed mention content →
          ∃ spaces, SpacesBehind mention content spaces ∧
            prefixOf anyTable mention server content = .ofList (mention ++ spaces)) ∧
      (∀ content, ¬ Addressed mention content →
        prefixOf table mention none content = defaultPrefix ∧
          ∀ server, prefixOf table mention (some server) content = latestPrefix calls server) ∧
      (∀ server chosen, PrefixTable.run (calls ++ [.change server chosen false]) = table) ∧
      (∀ server, table.toList.filter (·.1 = serverKey server) =
        if latestPrefix calls server = defaultPrefix then []
        else [(serverKey server, latestPrefix calls server)]) ∧
      ∀ row ∈ table.toList, row.2 ≠ defaultPrefix := by
  intro table
  have hreflects : table.Reflects (latestPrefix calls) := PrefixTable.reflects_run calls
  refine ⟨fun anyTable server content h => ?_, fun content h => ⟨?_, fun server => ?_⟩,
    fun server chosen => ?_, hreflects.filter_toList, fun row => hreflects.ne_defaultPrefix⟩
  · obtain ⟨spaces, hspaces, hprefix⟩ := mentionPrefix?_of_addressed h
    exact ⟨spaces, hspaces, by simp only [prefixOf, hprefix]⟩
  · simp only [prefixOf, mentionPrefix?_of_not_addressed h]
  · simp only [prefixOf, mentionPrefix?_of_not_addressed h]
    exact hreflects.getD_find? server
  · rw [PrefixTable.run_concat, PrefixTable.after, changePrefix_refused]

/-- Two servers choose prefixes. The first one fails to change its prefix again, and the second one
goes back to the default. -/
theorem prefixOf_run_two :
    let mention := ['<', '@', '4', '2', '>']
    let calls : List PrefixCall := [
      .change 7 "!" true, .change 8 "?" true, .look (some 7) ['!', 'c'], .change 7 "$" false,
      .change 8 ";" true]
    let table := PrefixTable.run calls
    (∃ spaces, SpacesBehind mention (mention ++ [' ', '\u00a0', 'c']) spaces ∧
        prefixOf table mention (some 7) (mention ++ [' ', '\u00a0', 'c']) =
          .ofList (mention ++ spaces)) ∧
      ¬ Addressed mention ['!', 'c'] ∧
      prefixOf table mention (some 7) ['!', 'c'] = "!" ∧
      prefixOf table mention (some 8) ['!', 'c'] = ";" ∧
      table.toList.filter (·.1 = serverKey 8) = [] ∧ ("7", "!") ∈ table.toList := by
  intro mention calls table
  obtain ⟨hmention, hother, -, hrows, -⟩ := prefixOf_run mention calls
  have hnot : ¬ Addressed mention ['!', 'c'] := by
    rintro ⟨c, rest, -, h⟩
    exact absurd (List.cons.inj h).1 (by decide)
  obtain ⟨-, hservers⟩ := hother _ hnot
  refine ⟨hmention table (some 7) _ ⟨' ', _, by decide, rfl⟩, hnot, ?_, ?_, ?_, by decide⟩
  · rw [hservers]
    decide
  · rw [hservers]
    decide
  · rw [hrows, if_pos (by decide)]

end Chat

end ChatCalculator
