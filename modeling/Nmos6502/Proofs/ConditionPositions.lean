import Nmos6502.Proofs.NumeralSpelling

/-!
Where a text is cut. The cutting comes from one place of the text to the next, past a blank or a
token at a time; every place is told by the bytes before it and lies between two characters, since
blanks and tokens are plain ASCII.
-/

namespace Nmos6502.Lexeme

def byteLength (text : List Char) : Nat :=
  (String.ofList text).utf8ByteSize

theorem byteLength_append (front back : List Char) :
    byteLength (front ++ back) = byteLength front + byteLength back := by
  rw [byteLength, String.ofList_append, String.utf8ByteSize_append]
  rfl

theorem byteLength_cons (character : Char) (rest : List Char) :
    byteLength (character :: rest) = character.utf8Size + byteLength rest := by
  rw [byteLength, String.ofList_cons, String.utf8ByteSize_append, String.utf8ByteSize_singleton]
  rfl

theorem utf8Size_of_ascii {character : Char} (ascii : character.toNat < 128) :
    character.utf8Size = 1 := by
  rw [Char.utf8Size_eq_one_iff, UInt32.le_iff_toNat_le]
  exact Nat.le_of_lt_succ ascii

theorem byteLength_of_ascii {text : List Char}
    (ascii : ∀ character ∈ text, character.toNat < 128) : byteLength text = text.length := by
  induction text with
  | nil => rfl
  | cons character rest ih =>
      rw [List.forall_mem_cons] at ascii
      rw [byteLength_cons, utf8Size_of_ascii ascii.1, ih ascii.2, List.length_cons, Nat.add_comm]

theorem isValid_byteLength (front rest : List Char) :
    String.Pos.Raw.IsValid (String.ofList (front ++ rest)) ⟨byteLength front⟩ :=
  String.Pos.Raw.isValid_iff_exists_append.mpr
    ⟨String.ofList front, String.ofList rest, String.ofList_append, rfl⟩

/-! What the characters of blanks and tokens are. -/

theorem toNat_lt_of_isBlank {character : Char} (blank : isBlank character = true) :
    character.toNat < 128 := by
  simp only [isBlank, Bool.or_eq_true, beq_iff_eq] at blank
  rcases blank with (((rfl | rfl) | rfl) | rfl) | rfl <;> decide

theorem toNat_lt_of_continuesName {character : Char} (word : continuesName character = true) :
    character.toNat < 128 := by
  simp only [continuesName, Bool.or_eq_true, beq_iff_eq] at word
  rcases word with word | rfl
  · exact Numeral.toNat_lt_of_isAlphanum word
  · decide

theorem toNat_lt_of_startsNumeral {character : Char} (starts : startsNumeral character = true) :
    character.toNat < 128 := by
  simp only [startsNumeral, Bool.or_eq_true, beq_iff_eq] at starts
  rcases starts with (rfl | rfl) | digit
  · decide
  · decide
  · exact Numeral.toNat_lt_of_isAlphanum (by simp [Char.isAlphanum, digit])

/-- A check over lists, so that deciding it never runs over all characters. -/
theorem plain_of_all {text : List Char}
    (plain : (text.all fun character => decide (character.toNat < 128)) = true) :
    ∀ character ∈ text, character.toNat < 128 :=
  fun character member => of_decide_eq_true (List.all_eq_true.mp plain character member)

def sign? : Char → Option Char → Option (Token × Nat)
  | '&', some '&' => some (.both, 2)
  | '|', some '|' => some (.either, 2)
  | '=', some '=' => some (.comparison .equal, 2)
  | '!', some '=' => some (.comparison .different, 2)
  | '<', some '=' => some (.comparison .atMost, 2)
  | '>', some '=' => some (.comparison .atLeast, 2)
  | '<', _ => some (.comparison .less, 1)
  | '>', _ => some (.comparison .greater, 1)
  | '!', _ => some (.negation, 1)
  | '(', _ => some (.opening, 1)
  | ')', _ => some (.closing, 1)
  | _, _ => none

theorem readToken_eq (offset : Nat) (first : Char) (rest : List Char) :
    readToken offset first rest =
      match sign? first rest.head? with
      | some read => .ok read
      | none =>
          if startsNumeral first then readNumeral offset (first :: rest)
          else if startsName first then
            .ok (.name (String.ofList (first :: rest.takeWhile continuesName)),
              (first :: rest.takeWhile continuesName).length)
          else .error (.malformed offset (.unexpectedCharacter first)) := by
  rw [readToken.eq_def, sign?.eq_def]
  rcases rest with _ | ⟨next, tail⟩
  · rw [List.head?_nil]
    split <;> simp_all
  · rw [List.head?_cons]
    split <;> simp_all

def TakesPlain (first : Char) (rest : List Char) (length : Nat) : Prop :=
  ∃ more tail, rest = more ++ tail ∧ length = more.length + 1 ∧
    ∀ character ∈ first :: more, character.toNat < 128

theorem sign?_takes {first : Char} {rest : List Char} {token : Token} {length : Nat}
    (read : sign? first rest.head? = some (token, length)) : TakesPlain first rest length := by
  rw [sign?.eq_def] at read
  split at read
  case h_12 => simp at read
  all_goals
    rename_i second head
    simp only [Option.some.injEq, Prod.mk.injEq] at read
    obtain ⟨-, rfl⟩ := read
  case h_1 | h_2 | h_3 | h_4 | h_5 | h_6 =>
    obtain ⟨tail, rfl⟩ := List.head?_eq_some_iff.mp head
    exact ⟨[_], tail, rfl, rfl, plain_of_all (by decide)⟩
  all_goals exact ⟨[], rest, rfl, rfl, plain_of_all (by decide)⟩

theorem ascii_of_mem_mark (mark : Numeral.Mark) :
    ∀ character ∈ mark.text, character.toNat < 128 := by
  cases mark <;> exact plain_of_all (by decide)

theorem readToken_takes {offset length : Nat} {first : Char} {rest : List Char} {token : Token}
    (read : readToken offset first rest = .ok (token, length)) : TakesPlain first rest length := by
  rw [readToken_eq] at read
  -- Signs, numerals and names are plain, and no token starts with anything else.
  rcases sign : sign? first rest.head? with _ | found
  · simp only [sign] at read
    split at read
    · rename_i numeral
      obtain ⟨mark, run, tail, same, stands⟩ := Numeral.exists_stands numeral
      obtain ⟨_, more, start, _⟩ := stands.starts
      rw [same, readNumeral_stands stands] at read
      split at read
      · simp only [Except.ok.injEq, Prod.mk.injEq] at read
        rw [← List.append_assoc, start] at same
        obtain ⟨rfl, rest⟩ := List.cons.inj same
        refine ⟨more, tail, rest, by rw [← read.2, start, List.length_cons], ?_⟩
        rw [← start]
        intro character member
        rcases List.mem_append.mp member with inMark | inRun
        · exact ascii_of_mem_mark mark character inMark
        · exact Numeral.toNat_lt_of_isAlphanum (stands.word character inRun)
      · simp at read
    · split at read
      · rename_i name
        simp only [Except.ok.injEq, Prod.mk.injEq] at read
        refine ⟨rest.takeWhile continuesName, rest.dropWhile continuesName,
          List.takeWhile_append_dropWhile.symm, read.2.symm, ?_⟩
        rw [List.forall_mem_cons]
        refine ⟨toNat_lt_of_continuesName (continuesName_of_startsName name), ?_⟩
        intro character member
        exact toNat_lt_of_continuesName (List.all_eq_true.mp List.all_takeWhile _ member)
      · simp at read
  · simp only [sign, Except.ok.injEq] at read
    subst read
    exact sign?_takes sign

/-- The places that the cutting of a text comes to, with the bytes before and the characters
after. -/
inductive Reaches (text : List Char) : Nat → List Char → Prop
  | start : Reaches text 0 text
  | blank {offset character rest} : Reaches text offset (character :: rest) →
      isBlank character = true → Reaches text (offset + 1) rest
  | token {offset first rest token length} : Reaches text offset (first :: rest) →
      isBlank first = false → readToken offset first rest = .ok (token, length) →
      Reaches text (offset + length) (rest.drop (length - 1))

namespace Reaches

variable {text rest : List Char} {offset : Nat}

theorem position (reaches : Reaches text offset rest) :
    ∃ front, text = front ++ rest ∧ offset = byteLength front := by
  induction reaches with
  | start => exact ⟨[], rfl, rfl⟩
  | @blank _ character _ _ blank ih =>
      obtain ⟨front, rfl, rfl⟩ := ih
      refine ⟨front ++ [character], by simp, ?_⟩
      rw [byteLength_append, byteLength_cons, utf8Size_of_ascii (toNat_lt_of_isBlank blank)]
      rfl
  | @token _ first _ _ _ _ _ read ih =>
      obtain ⟨front, rfl, rfl⟩ := ih
      obtain ⟨more, tail, rfl, rfl, ascii⟩ := readToken_takes read
      refine ⟨front ++ first :: more, by simp, ?_⟩
      rw [byteLength_append, byteLength_of_ascii ascii, List.length_cons]

/-- What lies before a place has been cut, and does not depend on what comes after. -/
theorem exists_before (reaches : Reaches text offset rest) :
    ∃ before, scan 0 text = (scan offset rest).map (before ++ ·) := by
  induction reaches with
  | start =>
      refine ⟨[], ?_⟩
      rcases scan 0 text with error | lexemes <;> rfl
  | blank _ blank ih =>
      obtain ⟨before, scanned⟩ := ih
      exact ⟨before, by rw [scanned, scan_blank blank]⟩
  | @token offset first rest token length _ solid read ih =>
      obtain ⟨before, scanned⟩ := ih
      refine ⟨before ++ [⟨token, offset⟩], ?_⟩
      rw [scanned, scan_token solid read]
      rcases scan (offset + length) (rest.drop (length - 1)) with error | lexemes
      · rfl
      · simp [Except.map]

theorem scan_error (reaches : Reaches text offset rest) {error : ConditionError}
    (fails : scan offset rest = .error error) : scan 0 text = .error error := by
  obtain ⟨before, scanned⟩ := reaches.exists_before
  rw [scanned, fails]
  rfl

end Reaches

theorem exists_reaches_of_error {text rest : List Char} {offset : Nat} {error : ConditionError}
    (reaches : Reaches text offset rest) (fails : scan offset rest = .error error) :
    ∃ place first tail, Reaches text place (first :: tail) ∧ isBlank first = false ∧
      readToken place first tail = .error error := by
  induction offset, rest using scan.induct with
  | case1 offset => simp [scan] at fails
  | case2 offset first rest blank ih =>
      rw [scan_blank blank] at fails
      exact ih (reaches.blank blank) fails
  | case3 offset first rest solid problem read =>
      rw [scan, if_neg solid, read] at fails
      simp only [Except.error.injEq] at fails
      subst fails
      exact ⟨offset, first, rest, reaches, by simpa using solid, read⟩
  | case4 offset first rest solid token length read problem later ih =>
      rw [Bool.not_eq_true] at solid
      rw [scan_token solid read, later] at fails
      exact ih (reaches.token solid read) (later.trans fails)
  | case5 offset first rest solid token length read found later ih =>
      rw [Bool.not_eq_true] at solid
      rw [scan_token solid read, later] at fails
      simp [Except.map] at fails

theorem scan_offsets {text rest : List Char} {offset : Nat} {lexemes : List Lexeme}
    (reaches : Reaches text offset rest) (scanned : scan offset rest = .ok lexemes) :
    lexemes.Pairwise (fun first second => first.offset < second.offset) ∧
      ∀ lexeme ∈ lexemes, offset ≤ lexeme.offset ∧ ∃ first tail length,
        Reaches text lexeme.offset (first :: tail) ∧
          readToken lexeme.offset first tail = .ok (lexeme.token, length) := by
  induction offset, rest using scan.induct generalizing lexemes with
  | case1 offset =>
      rw [scan, Except.ok.injEq] at scanned
      simp [← scanned]
  | case2 offset first rest blank ih =>
      rw [scan_blank blank] at scanned
      obtain ⟨growing, places⟩ := ih (reaches.blank blank) scanned
      refine ⟨growing, fun lexeme member => ?_⟩
      obtain ⟨after, place⟩ := places lexeme member
      exact ⟨by omega, place⟩
  | case3 offset first rest solid problem read =>
      rw [scan, if_neg solid, read] at scanned
      simp at scanned
  | case4 offset first rest solid token length read problem failed ih =>
      rw [Bool.not_eq_true] at solid
      rw [scan_token solid read, failed] at scanned
      simp [Except.map] at scanned
  | case5 offset first rest solid token length read found later ih =>
      rw [Bool.not_eq_true] at solid
      obtain ⟨_, again, rfl⟩ := exists_of_scan_token solid read scanned
      obtain ⟨growing, places⟩ := ih (reaches.token solid read) again
      -- A token takes in one character at least, so that the next one lies further on.
      obtain ⟨more, _, _, taken, _⟩ := readToken_takes read
      constructor
      · refine List.pairwise_cons.mpr ⟨fun lexeme member => ?_, growing⟩
        have after := (places lexeme member).1
        simp only
        omega
      · rw [List.forall_mem_cons]
        refine ⟨⟨Nat.le_refl _, first, rest, length, reaches, read⟩, fun lexeme member => ?_⟩
        obtain ⟨after, place⟩ := places lexeme member
        exact ⟨by omega, place⟩

end Nmos6502.Lexeme
