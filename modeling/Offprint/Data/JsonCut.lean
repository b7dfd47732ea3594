import Offprint.Data.JsonRoundTrip

/-!
# Texts that were cut short

What the reader finds at the start of a text it finds in every longer one, unless the text
ends within a number.  So no proper part of a rendered object, from its start, reads as a value.
-/

namespace Offprint.Data.Json

open List Option

section Tokens

variable {input after : List Char}

theorem scanString_append {content : List Char}
    (read : scanString input = some (content, after)) (more : List Char) :
    scanString (input ++ more) = some (content, after ++ more) := by
  induction input using scanString.induct generalizing content with
  | case1 => cases read
  | case2 rest =>
    obtain ⟨rfl, rfl⟩ := read
    rfl
  | case3 char rest ih =>
    rw [scanString, map_eq_some_iff] at read
    obtain ⟨⟨raw, remaining⟩, restRead, same⟩ := read
    cases same
    rw [cons_append, cons_append, scanString, ih restRead]
    rfl
  | case4 char rest quote backslash ih =>
    rw [scanString.eq_4 char rest quote backslash, map_eq_some_iff] at read
    obtain ⟨⟨raw, remaining⟩, restRead, same⟩ := read
    cases same
    have plain : char ≠ '\\' := by
      rintro rfl
      cases rest with
      | nil => cases restRead
      | cons next others => exact backslash next others rfl rfl
    rw [cons_append, scanString_plain quote plain, ih restRead]
    rfl

theorem readString_append {found : String}
    (read : readString input = some (found, after)) (more : List Char) :
    readString (input ++ more) = some (found, after ++ more) := by
  simp only [readString, bind_eq_bind, bind_eq_some_iff] at read ⊢
  obtain ⟨⟨raw, remaining⟩, scanned, content, resolved, same⟩ := read
  cases same
  exact ⟨_, scanString_append scanned more, content, resolved, rfl⟩

theorem skipSpace_append {rest : List Char} {char : Char}
    (seen : skipSpace input = char :: rest) (more : List Char) :
    skipSpace (input ++ more) = char :: (rest ++ more) := by
  unfold skipSpace at seen ⊢
  rw [dropWhile_append, seen]
  rfl

/-- A reader that stops before the end of a text does not look behind it. -/
def Settles {α : Type} (reader : List Char → Option (α × List Char)) : Prop :=
  ∀ {input : List Char} {found : α} {rest : List Char}, reader input = some (found, rest) →
    rest ≠ [] → input ≠ [] ∧ ∀ more, reader (input ++ more) = some (found, rest ++ more)

theorem settles_readDigits : Settles readDigits := by
  intro input found rest read left
  unfold readDigits at read
  split_ifs at read with none
  cases read
  refine ⟨fun empty => none (by rw [empty]; rfl), fun more => ?_⟩
  have shorter : (input.takeWhile Char.isDigit).length ≠ input.length := by
    have parts := congrArg List.length
      (takeWhile_append_dropWhile (p := Char.isDigit) (l := input))
    have positive := length_pos_iff.mpr left
    rw [length_append] at parts
    omega
  rw [readDigits, takeWhile_append, if_neg shorter, if_neg none, dropWhile_append,
    if_neg (by simpa using left)]

theorem settles_readFraction : Settles readFraction := by
  intro input found rest read left
  unfold readFraction at read
  split at read
  · obtain ⟨⟨digits, after⟩, digitsRead, same⟩ := map_eq_some_iff.mp read
    cases same
    refine ⟨cons_ne_nil _ _, fun more => ?_⟩
    rw [cons_append, readFraction, (settles_readDigits digitsRead left).2 more]
    rfl
  · next other =>
    cases read
    refine ⟨left, fun more => readFraction.eq_2 _ fun rest same => ?_⟩
    obtain ⟨first, others, rfl⟩ := exists_cons_of_ne_nil left
    exact other _ (by rw [(List.cons.inj same).1])

theorem settles_readExponent : Settles readExponent := by
  intro input found rest read left
  cases input with
  | nil =>
    cases read
    exact absurd rfl left
  | cons marker input =>
    refine ⟨cons_ne_nil _ _, fun more => ?_⟩
    rw [cons_append]
    unfold readExponent at read ⊢
    dsimp only at read ⊢
    split_ifs at read ⊢
    · cases input with
      | nil => cases read
      | cons sign others =>
        rw [cons_append]
        simp only at read ⊢
        split_ifs at read ⊢
        all_goals
          obtain ⟨⟨digits, after⟩, digitsRead, same⟩ := map_eq_some_iff.mp read
          cases same
        · rw [(settles_readDigits digitsRead left).2 more]
          rfl
        · rw [← cons_append, (settles_readDigits digitsRead left).2 more]
          rfl
    · cases read
      rfl

theorem settles_readUnsigned (negative : Bool) : Settles (readUnsigned negative) := by
  intro input found rest read left
  simp only [readUnsigned, bind_eq_bind, bind_eq_some_iff] at read
  obtain ⟨⟨digits, afterDigits⟩, first, ⟨fraction, afterFraction⟩, second, ⟨exponent, after⟩, third,
    result⟩ := read
  obtain rfl : after = rest := by
    split_ifs at result <;> cases result <;> rfl
  have exponentRead := settles_readExponent third left
  have fractionRead := settles_readFraction second exponentRead.1
  have digitsRead := settles_readDigits first fractionRead.1
  refine ⟨digitsRead.1, fun more => ?_⟩
  simp only [readUnsigned, bind_eq_bind, digitsRead.2, fractionRead.2, exponentRead.2,
    bind_some]
  split_ifs at result ⊢ <;> cases result <;> rfl

theorem settles_readNumber : Settles readNumber := by
  intro input found rest read left
  unfold readNumber at read
  split at read
  · exact ⟨cons_ne_nil _ _, (settles_readUnsigned true read left).2⟩
  · next other =>
    obtain ⟨filled, reads⟩ := settles_readUnsigned false read left
    refine ⟨filled, fun more => ?_⟩
    rw [readNumber.eq_2, reads more]
    obtain ⟨first, others, rfl⟩ := exists_cons_of_ne_nil filled
    exact fun rest same => other _ (by rw [(List.cons.inj same).1])

end Tokens

section Values

def isNumber : Json → Bool
  | number _ => true
  | _ => false

/-- A longer text reads the same with at least as much fuel. -/
structure Keeps (fuel : Nat) : Prop where
  value {more limit input found rest} {deeper : Nat} (grows : fuel ≤ deeper)
    (read : readValue fuel limit input = some (found, rest))
    (ended : rest = [] → found.isNumber = false) :
    readValue deeper limit (input ++ more) = some (found, rest ++ more)
  elements {more limit input found rest} {deeper : Nat} (grows : fuel ≤ deeper)
    (read : readElements fuel limit input = some (found, rest)) :
    readElements deeper limit (input ++ more) = some (found, rest ++ more)
  members {more limit input found rest} {deeper : Nat} (grows : fuel ≤ deeper)
    (read : readMembers fuel limit input = some (found, rest)) :
    readMembers deeper limit (input ++ more) = some (found, rest ++ more)

variable {input more : List Char} {fuel limit : Nat}

theorem number_head {found : JsonNumber × List Char} (read : readNumber input = some found) :
    ∃ first rest, input = first :: rest ∧ (first.isDigit = true ∨ first = '-') := by
  unfold readNumber at read
  split at read
  · exact ⟨_, _, rfl, .inr rfl⟩
  · simp only [readUnsigned, readDigits, bind_eq_bind, bind_eq_some_iff] at read
    obtain ⟨_, first, -⟩ := read
    split_ifs at first with none
    cases input with
    | nil => exact absurd rfl none
    | cons char rest =>
      refine ⟨char, rest, rfl, .inl ?_⟩
      by_contra other
      exact none (by simp [other])

theorem visible_of_readValue {found : Json × List Char}
    (read : readValue fuel limit input = some found) : skipSpace input ≠ [] := by
  intro blank
  cases fuel with
  | zero => cases read
  | succ fuel =>
    rw [readValue, blank] at read
    cases read

theorem visible_of_readElements
    {found : List Json × List Char} (read : readElements fuel limit input = some found) :
    skipSpace input ≠ [] := by
  cases fuel with
  | zero => cases read
  | succ fuel =>
    rw [readElements] at read
    split at read
    · cases read
    · next first => exact visible_of_readValue first

/-- More text does not close what was not closed. -/
theorem not_closed_append {close : Char} (visible : skipSpace input ≠ [])
    (open_ : ∀ after, skipSpace input ≠ close :: after) (after : List Char) :
    skipSpace (input ++ more) ≠ close :: after := by
  obtain ⟨char, rest, seen⟩ := exists_cons_of_ne_nil visible
  rw [skipSpace_append seen]
  rintro same
  exact open_ rest (by rw [seen, (List.cons.inj same).1])

theorem keeps_value (keeps : Keeps fuel) {rest : List Char} {deeper : Nat} {found : Json}
    (grows : fuel ≤ deeper) (read : readValue (fuel + 1) limit input = some (found, rest))
    (ended : rest = [] → found.isNumber = false) :
    readValue (deeper + 1) limit (input ++ more) = some (found, rest ++ more) := by
  rw [readValue] at read
  split at read
  case h_1 seen | h_2 seen | h_3 seen =>
    cases read
    rw [readValue, skipSpace_append seen]
    rfl
  · next seen =>
    obtain ⟨⟨text, after⟩, textRead, same⟩ := map_eq_some_iff.mp read
    cases same
    rw [readValue, skipSpace_append seen]
    simp only [readString_append textRead more, map_some]
  · next rest seen =>
    cases limit with
    | zero => cases read
    | succ limit =>
    rw [readValue, skipSpace_append seen]
    simp only at read ⊢
    split at read
    · next closed =>
      cases read
      rw [skipSpace_append closed]
      rfl
    · next open_ =>
      obtain ⟨⟨elements, after⟩, elementsRead, same⟩ := map_eq_some_iff.mp read
      cases same
      split
      · next closed =>
        exact absurd closed (not_closed_append (visible_of_readElements elementsRead) open_ _)
      · rw [keeps.elements grows elementsRead]
        rfl
  · next rest seen =>
    cases limit with
    | zero => cases read
    | succ limit =>
    rw [readValue, skipSpace_append seen]
    simp only at read ⊢
    split at read
    · next closed =>
      cases read
      rw [skipSpace_append closed]
      rfl
    · next open_ =>
      obtain ⟨⟨members, after⟩, membersRead, same⟩ := map_eq_some_iff.mp read
      cases same
      split
      · next closed =>
        refine absurd closed (not_closed_append ?_ open_ _)
        intro blank
        cases fuel with
        | zero => cases membersRead
        | succ fuel =>
          rw [readMembers, blank] at membersRead
          cases membersRead
      · rw [keeps.members grows membersRead]
        rfl
  · next other =>
    obtain ⟨⟨value, after⟩, numberRead, same⟩ := map_eq_some_iff.mp read
    cases same
    obtain ⟨first, others, seen, leading⟩ := number_head numberRead
    rw [readValue_of_number leading (skipSpace_append seen more), ← cons_append, ← seen,
      (settles_readNumber numberRead fun none => by cases ended none).2 more]
    rfl

theorem keeps (fuel : Nat) : Keeps fuel := by
  induction fuel with
  | zero => constructor <;> intro _ _ _ _ _ _ _ read <;> cases read
  | succ fuel ih =>
    refine ⟨fun {_ _ _ _ _ deeper} grows read ended => ?_, fun {_ _ _ _ _ deeper} grows read => ?_,
      fun {_ _ _ _ _ deeper} grows read => ?_⟩
    all_goals
      obtain ⟨deeper, rfl⟩ := Nat.exists_eq_succ_of_ne_zero (Nat.ne_of_gt (Nat.zero_lt_of_lt grows))
      have grows := Nat.le_of_succ_le_succ grows
    · exact keeps_value ih grows read ended
    · rw [readElements] at read ⊢
      split at read
      · cases read
      · next firstRead =>
        split at read
        · next more_ seen =>
          rw [ih.value grows firstRead (by rintro rfl; cases seen)]
          obtain ⟨⟨others, after⟩, othersRead, same⟩ := map_eq_some_iff.mp read
          cases same
          simp only [skipSpace_append seen, ih.elements grows othersRead, map_some]
        · next seen =>
          cases read
          rw [ih.value grows firstRead (by rintro rfl; cases seen)]
          simp only [skipSpace_append seen]
        · cases read
    · rw [readMembers] at read ⊢
      split at read
      · next quoted opened =>
        split at read
        · cases read
        · next keyRead =>
          split at read
          · next colon =>
            split at read
            · cases read
            · next firstRead =>
              split at read
              · next more_ seen =>
                obtain ⟨⟨others, after⟩, othersRead, same⟩ := map_eq_some_iff.mp read
                cases same
                simp only [skipSpace_append opened, readString_append keyRead,
                  skipSpace_append colon, ih.value grows firstRead (by rintro rfl; cases seen),
                  skipSpace_append seen, ih.members grows othersRead, map_some]
              · next seen =>
                cases read
                simp only [skipSpace_append opened, readString_append keyRead,
                  skipSpace_append colon, ih.value grows firstRead (by rintro rfl; cases seen),
                  skipSpace_append seen]
              · cases read
          · cases read
      · cases read

/-- A rendered object cannot be cut short: no proper part of its text from the start reads as a
value. -/
theorem read_cut {members : List (String × Json)} (integral : (object members).Integral)
    (shallow : (object members).depth ≤ maximumDepth) {cut missing : List Char}
    (parts : cut ++ missing = render (object members)) (proper : missing ≠ []) :
    read cut = none := by
  have whole := readValue_render (object members) ((render (object members)).length + 1)
    maximumDepth [] integral shallow trivial (Nat.lt_succ_self _)
  rw [append_nil, ← parts] at whole
  rw [read]
  split
  · next found rest cutRead =>
    have object : found.isNumber = false := by
      cases cut with
      | nil => cases cutRead
      | cons first cut =>
        obtain ⟨tail, opens⟩ : ∃ tail, render (object members) = '\x7b' :: tail := by
          cases members with
          | nil => exact ⟨_, rfl⟩
          | cons member others => exact ⟨_, by rw [render]⟩
        rw [opens] at parts
        obtain ⟨rfl, -⟩ := List.cons.inj parts
        rw [readValue, skipSpace_of_head rfl] at cutRead
        simp only [maximumDepth] at cutRead
        split at cutRead
        · cases cutRead
          rfl
        · obtain ⟨_, -, same⟩ := map_eq_some_iff.mp cutRead
          cases same
          rfl
    rw [(keeps _).value (by rw [length_append]; omega) cutRead fun _ => object] at whole
    cases rest with
    | nil => exact absurd (Prod.mk.inj (Option.some.inj whole)).2 proper
    | cons char rest => cases (Prod.mk.inj (Option.some.inj whole)).2
  · rfl

end Values

end Offprint.Data.Json
