import Nmos6502.Proofs.ConditionPositions

/-!
Cutting a text by its bytes. An index walks over the bytes, and what a token or an error tells is
sliced out of the text. The walk stops at a slice that does not start and end between characters,
and at a token that takes up no byte; neither happens with any text, and the tokens are those of
the characters.
-/

namespace Nmos6502

/-- What comes of a walk under checks; nothing if a check fails. -/
abbrev Checked (α : Type) := ExceptT ConditionError Option α

namespace Checked

def failed {α : Type} : Checked α := ExceptT.mk none

def of {α : Type} (result : Except ConditionError α) : Checked α := ExceptT.mk (some result)

theorem of_ok_bind {α β : Type} (value : α) (next : α → Checked β) :
    of (.ok value) >>= next = next value :=
  rfl

theorem of_bind_pure {α β : Type} (result : Except ConditionError α) (change : α → β) :
    (of result >>= fun value => pure (change value)) = of (result.map change) := by
  rcases result with error | value <;> rfl

theorem of_error_bind {α β : Type} (error : ConditionError) (next : α → Checked β) :
    of (.error error) >>= next = of (.error error) :=
  rfl

end Checked

namespace Lexeme

def bytes (text : String) : List Char :=
  text.toByteArray.data.toList.map Char.ofUInt8

def slice (text : String) (start stop : Nat) : Checked String :=
  if inside : start ≤ stop ∧ String.Pos.Raw.IsValid text ⟨start⟩ ∧
      String.Pos.Raw.IsValid text ⟨stop⟩ then
    pure (text.extract ⟨⟨start⟩, inside.2.1⟩ ⟨⟨stop⟩, inside.2.2⟩)
  else .failed

def runEnd (text : String) (wanted : Char → Bool) (index : Nat) : Nat :=
  index + (((bytes text).drop index).takeWhile wanted).length

def readAt (text : String) (index : Nat) (first : Char) : Checked (Token × Nat) :=
  match sign? first (bytes text)[index + 1]? with
  | some (token, length) => pure (token, index + length)
  | none =>
      if startsNumeral first then do
        let (radix, mark) := Numeral.radixMark ((bytes text).drop index)
        let stop := runEnd text Char.isAlphanum (index + mark)
        let digits ← slice text (index + mark) stop
        match Numeral.value? radix digits.toList with
        | some value => pure (.number value, stop)
        | none => do
            let spelling ← slice text index stop
            throw (.malformed index (.invalidNumber spelling))
      else if startsName first then do
        let stop := runEnd text continuesName index
        let name ← slice text index stop
        pure (.name name, stop)
      else do
        let rest ← slice text index text.utf8ByteSize
        throw (.malformed index (.unexpectedCharacter (rest.toList.headD '?')))

/-- The tokens from an index on. Every token has to move the index on, and not past the end. -/
def scanBytes (text : String) (index : Nat) : Checked (List Lexeme) :=
  match _ : (bytes text)[index]? with
  | none => pure []
  | some first =>
      if isBlank first then scanBytes text (index + 1)
      else do
        let (token, stop) ← readAt text index first
        if _ : index < stop ∧ stop ≤ (bytes text).length then do
          let later ← scanBytes text stop
          pure (⟨token, index⟩ :: later)
        else .failed
termination_by (bytes text).length - index
decreasing_by
  all_goals
    have inside := (List.getElem?_eq_some_iff.mp ‹(bytes text)[index]? = some first›).1
    omega

/-! The bytes of a text and its characters. -/

def bytesOf (characters : List Char) : List Char :=
  (characters.flatMap String.utf8EncodeChar).map Char.ofUInt8

theorem bytes_eq (text : String) : bytes text = bytesOf text.toList := by
  rw [bytes, bytesOf, ← String.utf8Encode_toList]
  unfold List.utf8Encode
  rw [List.toList_data_toByteArray]

theorem bytesOf_append (front back : List Char) :
    bytesOf (front ++ back) = bytesOf front ++ bytesOf back := by
  rw [bytesOf, List.flatMap_append, List.map_append]
  rfl

theorem length_bytesOf (characters : List Char) :
    (bytesOf characters).length = byteLength characters := by
  induction characters with
  | nil => rfl
  | cons character rest ih =>
      rw [← List.singleton_append, bytesOf_append, List.length_append, ih, List.singleton_append,
        byteLength_cons]
      simp [bytesOf]

theorem bytesOf_cons (character : Char) (rest : List Char) :
    bytesOf (character :: rest) = bytesOf [character] ++ bytesOf rest :=
  bytesOf_append [character] rest

theorem toNat_ofUInt8 (byte : UInt8) : (Char.ofUInt8 byte).toNat = byte.toNat := by
  have code : (Char.ofUInt8 byte).toNat = byte.toUInt32.toNat := rfl
  rw [code, UInt8.toNat_toUInt32]

theorem bytesOf_ascii {character : Char} (ascii : character.toNat < 128) :
    bytesOf [character] = [character] := by
  have small : character.val.toNat ≤ 0x7f := Nat.le_of_lt_succ ascii
  have same : Char.ofUInt8 (UInt8.ofNat character.val.toNat) = character := by
    apply Char.ext
    apply UInt32.toNat_inj.mp
    change (Char.ofUInt8 _).toNat = character.val.toNat
    rw [toNat_ofUInt8, UInt8.toNat_ofNat']
    omega
  simp only [bytesOf, List.flatMap_singleton, String.utf8EncodeChar, small, if_true,
    List.map_cons, List.map_nil, same]

theorem bytesOf_foreign {character : Char} (foreign : 128 ≤ character.toNat) :
    ∃ byte more, bytesOf [character] = byte :: more ∧ 128 ≤ byte.toNat := by
  have large : ¬ character.val.toNat ≤ 0x7f := Nat.not_le.mpr foreign
  simp only [bytesOf, List.flatMap_singleton, String.utf8EncodeChar, large, if_false]
  split
  · refine ⟨_, _, rfl, ?_⟩
    rw [toNat_ofUInt8, UInt8.toNat_ofNat']
    omega
  · split
    · refine ⟨_, _, rfl, ?_⟩
      rw [toNat_ofUInt8, UInt8.toNat_ofNat']
      omega
    · refine ⟨_, _, rfl, ?_⟩
      rw [toNat_ofUInt8, UInt8.toNat_ofNat']
      omega

theorem slice_eq (front middle back : List Char) :
    slice (String.ofList (front ++ (middle ++ back))) (byteLength front)
      (byteLength front + byteLength middle) = .of (.ok (String.ofList middle)) := by
  have start := isValid_byteLength front (middle ++ back)
  have stop := isValid_byteLength (front ++ middle) back
  rw [byteLength_append, List.append_assoc] at stop
  rw [slice, dif_pos ⟨Nat.le_add_right _ _, start, stop⟩]
  refine congrArg (fun part => Checked.of (.ok part)) (String.toByteArray_inj.mp ?_)
  have joined (first second : List Char) : (String.ofList (first ++ second)).toByteArray =
      (String.ofList first).toByteArray ++ (String.ofList second).toByteArray := by
    rw [String.ofList_append, String.toByteArray_append]
  rw [String.toByteArray_extract, joined]
  calc ((String.ofList front).toByteArray ++ (String.ofList (middle ++ back)).toByteArray).extract
        (byteLength front + 0) (byteLength front + byteLength middle)
      = (String.ofList (middle ++ back)).toByteArray.extract 0 (byteLength middle) :=
        ByteArray.extract_append_size_add' String.size_toByteArray.symm
    _ = (String.ofList middle).toByteArray := by
        rw [joined]
        exact ByteArray.extract_append_eq_left String.size_toByteArray.symm

/-! What the bytes at a place of a text show. -/

theorem drop_bytes (front rest : List Char) :
    (bytes (String.ofList (front ++ rest))).drop (byteLength front) = bytesOf rest := by
  rw [bytes_eq, String.toList_ofList, bytesOf_append, ← length_bytesOf, List.drop_left]

theorem head?_drop_bytes (front rest : List Char) :
    (bytes (String.ofList (front ++ rest)))[byteLength front]? = (bytesOf rest).head? := by
  rw [← drop_bytes front rest, List.head?_drop]

/-- The first byte of a character is the character itself, or both are beyond ASCII. -/
def Shows (byte character : Char) : Prop :=
  byte = character ∧ character.toNat < 128 ∨ 128 ≤ byte.toNat ∧ 128 ≤ character.toNat

theorem bytesOf_cons_eq (character : Char) (rest : List Char) : ∃ byte more,
    bytesOf (character :: rest) = byte :: more ∧ Shows byte character ∧
      (character.toNat < 128 → more = bytesOf rest) := by
  rw [bytesOf_cons]
  by_cases ascii : character.toNat < 128
  · rw [bytesOf_ascii ascii]
    exact ⟨character, bytesOf rest, rfl, .inl ⟨rfl, ascii⟩, fun _ => rfl⟩
  · obtain ⟨byte, more, same, foreign⟩ := bytesOf_foreign (Nat.not_lt.mp ascii)
    rw [same]
    exact ⟨byte, more ++ bytesOf rest, rfl, .inr ⟨foreign, Nat.not_lt.mp ascii⟩,
      fun plain => absurd plain ascii⟩

theorem eq_false_of_foreign {wanted : Char → Bool}
    (plain : ∀ character, wanted character = true → character.toNat < 128) {character : Char}
    (foreign : 128 ≤ character.toNat) : wanted character = false := by
  by_contra taken
  rw [Bool.not_eq_false] at taken
  exact absurd (plain character taken) (Nat.not_lt.mpr foreign)

theorem Shows.agree {byte character : Char} (shows : Shows byte character) {wanted : Char → Bool}
    (plain : ∀ character, wanted character = true → character.toNat < 128) :
    wanted byte = wanted character := by
  obtain ⟨rfl, _⟩ | ⟨foreign, other⟩ := shows
  · rfl
  · rw [eq_false_of_foreign plain foreign, eq_false_of_foreign plain other]

theorem takeWhile_bytesOf {wanted : Char → Bool}
    (plain : ∀ character, wanted character = true → character.toNat < 128)
    (rest : List Char) : (bytesOf rest).takeWhile wanted = rest.takeWhile wanted := by
  induction rest with
  | nil => rfl
  | cons character later ih =>
      obtain ⟨byte, more, same, shows, next⟩ := bytesOf_cons_eq character later
      rw [same, List.takeWhile_cons, List.takeWhile_cons, shows.agree plain]
      by_cases taken : wanted character = true
      · have ascii := plain character taken
        obtain ⟨rfl, _⟩ | ⟨_, foreign⟩ := shows
        · rw [if_pos taken, if_pos taken, next ascii, ih]
        · omega
      · rw [if_neg taken, if_neg taken]

theorem runEnd_eq {wanted : Char → Bool}
    (plain : ∀ character, wanted character = true → character.toNat < 128)
    (front rest : List Char) :
    runEnd (String.ofList (front ++ rest)) wanted (byteLength front) =
      byteLength front + byteLength (rest.takeWhile wanted) := by
  have run : ∀ character ∈ rest.takeWhile wanted, character.toNat < 128 := fun character member =>
    plain _ (List.all_eq_true.mp List.all_takeWhile _ member)
  rw [runEnd, drop_bytes, takeWhile_bytesOf plain, byteLength_of_ascii run]

theorem sign?_eq_none {first : Char} (foreign : 128 ≤ first.toNat) (second : Option Char) :
    sign? first second = none := by
  rw [sign?.eq_def]
  split
  case h_12 => rfl
  all_goals exact absurd foreign (by decide)

theorem sign?_of_foreign {first second : Char} (foreign : 128 ≤ second.toNat) :
    sign? first (some second) = sign? first none := by
  rw [sign?.eq_def]
  split
  case h_1 | h_2 | h_3 | h_4 | h_5 | h_6 =>
    rename_i same
    cases same
    exact absurd foreign (by decide)
  all_goals simp_all [sign?]

theorem sign?_head_bytesOf (first : Char) (rest : List Char) :
    sign? first (bytesOf rest).head? = sign? first rest.head? := by
  rcases rest with _ | ⟨second, later⟩
  · rfl
  · obtain ⟨byte, more, same, ⟨rfl, _⟩ | ⟨foreign, other⟩, _⟩ := bytesOf_cons_eq second later
    · rw [same, List.head?_cons, List.head?_cons]
    · rw [same, List.head?_cons, List.head?_cons, sign?_of_foreign foreign, sign?_of_foreign other]

theorem stands_bytesOf {mark : Numeral.Mark} {run tail : List Char}
    (stands : mark.Stands run tail) : mark.Stands run (bytesOf tail) := by
  refine ⟨stands.word, fun next head => ?_, stands.bare⟩
  rcases tail with _ | ⟨character, later⟩
  · simp [bytesOf] at head
  · obtain ⟨byte, more, same, shows, _⟩ := bytesOf_cons_eq character later
    obtain rfl : byte = next := by simpa [same] using head
    rw [shows.agree fun _ => Numeral.toNat_lt_of_isAlphanum]
    exact stands.ends character rfl

/-- What is read at an index, with the index after it for its length. -/
def placed (index : Nat) (read : Except ConditionError (Token × Nat)) :
    Checked (Token × Nat) :=
  .of (read.map fun (token, length) => (token, index + length))

theorem readAt_sign {text : String} {index length : Nat} {first : Char} {token : Token}
    (sign : sign? first (bytes text)[index + 1]? = some (token, length)) :
    readAt text index first = .of (.ok (token, index + length)) := by
  rw [readAt, sign]
  rfl

theorem bytesOf_plain {front : List Char} (plain : ∀ character ∈ front, character.toNat < 128)
    (rest : List Char) : bytesOf (front ++ rest) = front ++ bytesOf rest := by
  induction front with
  | nil => rfl
  | cons character later ih =>
      rw [List.forall_mem_cons] at plain
      rw [List.cons_append, bytesOf_cons, bytesOf_ascii plain.1, ih plain.2]
      rfl

section

variable {text : String} {front : List Char} {first : Char}
  (unsigned : sign? first (bytes text)[byteLength front + 1]? = none)

include unsigned

theorem readAt_numeral {run tail : List Char} {mark : Numeral.Mark}
    (split : text = String.ofList (front ++ (mark.text ++ (run ++ tail))))
    (stands : mark.Stands run tail) (starts : startsNumeral first = true) :
    readAt text (byteLength front) first =
      placed (byteLength front) (readNumeral (byteLength front) (mark.text ++ (run ++ tail))) := by
  -- All of a numeral is ASCII, where bytes and characters count alike.
  have plainMark := ascii_of_mem_mark mark
  have plainRun : ∀ character ∈ run, character.toNat < 128 := fun character member =>
    Numeral.toNat_lt_of_isAlphanum (stands.word character member)
  have marked : byteLength front + mark.text.length = byteLength (front ++ mark.text) := by
    rw [byteLength_append, byteLength_of_ascii plainMark]
  have radix : Numeral.radixMark ((bytes text).drop (byteLength front)) =
      (mark.radix, mark.text.length) := by
    rw [split, drop_bytes, bytesOf_plain plainMark, bytesOf_plain plainRun]
    exact (stands_bytesOf stands).radixMark_eq
  have ends : runEnd text Char.isAlphanum (byteLength (front ++ mark.text)) =
      byteLength (front ++ mark.text) + byteLength run := by
    rw [split, ← List.append_assoc, runEnd_eq fun _ => Numeral.toNat_lt_of_isAlphanum,
      takeWhile_append stands.word stands.ends]
  have digits := slice_eq (front ++ mark.text) run tail
  rw [List.append_assoc, ← split] at digits
  have spelling := slice_eq front (mark.text ++ run) tail
  rw [List.append_assoc, ← split, byteLength_append mark.text, ← Nat.add_assoc,
    ← byteLength_append] at spelling
  have stop : byteLength (front ++ mark.text) + byteLength run =
      byteLength front + (mark.text ++ run).length := by
    rw [← marked, byteLength_of_ascii plainRun, List.length_append, Nat.add_assoc]
  rw [readAt, unsigned, readNumeral_stands stands]
  simp only [starts, if_true, radix, marked, ends, digits, Checked.of_ok_bind, String.toList_ofList]
  rcases Numeral.value? mark.radix run with _ | value
  · simp only [spelling, Checked.of_ok_bind]
    rfl
  · simp only [stop]
    rfl

theorem readAt_name {rest : List Char} (split : text = String.ofList (front ++ first :: rest))
    (starts : startsName first = true) (unnumbered : startsNumeral first = false) :
    readAt text (byteLength front) first =
      .of (.ok (.name (String.ofList (first :: rest.takeWhile continuesName)),
        byteLength front + (first :: rest.takeWhile continuesName).length)) := by
  have run : (first :: rest).takeWhile continuesName = first :: rest.takeWhile continuesName :=
    List.takeWhile_cons_of_pos (continuesName_of_startsName starts)
  have plain : ∀ character ∈ first :: rest.takeWhile continuesName, character.toNat < 128 := by
    rw [← run]
    exact fun character member =>
      toNat_lt_of_continuesName (List.all_eq_true.mp List.all_takeWhile _ member)
  have name := slice_eq front (first :: rest.takeWhile continuesName) (rest.dropWhile continuesName)
  have ends := runEnd_eq (fun _ => toNat_lt_of_continuesName) front (first :: rest)
  rw [run, ← split, byteLength_of_ascii plain] at ends
  rw [List.cons_append, List.takeWhile_append_dropWhile, ← split, byteLength_of_ascii plain] at name
  rw [readAt, unsigned]
  simp only [starts, unnumbered, Bool.false_eq_true, if_false, if_true, ends, name,
    Checked.of_ok_bind]
  rfl

theorem readAt_foreign {rest : List Char} {character : Char}
    (split : text = String.ofList (front ++ character :: rest))
    (unnamed : startsName first = false) (unnumbered : startsNumeral first = false) :
    readAt text (byteLength front) first =
      .of (.error (.malformed (byteLength front) (.unexpectedCharacter character))) := by
  have whole := slice_eq front (character :: rest) []
  have last : text.utf8ByteSize = byteLength front + byteLength (character :: rest) := by
    rw [split]
    exact byteLength_append _ _
  rw [← last, List.append_nil, ← split] at whole
  rw [readAt, unsigned]
  simp only [unnamed, unnumbered, Bool.false_eq_true, if_false, whole, Checked.of_ok_bind]
  rw [String.toList_ofList]
  rfl

end

theorem next_byte {first : Char} (ascii : first.toNat < 128) (front rest : List Char) :
    (bytes (String.ofList (front ++ first :: rest)))[byteLength front + 1]? =
      (bytesOf rest).head? := by
  have next := head?_drop_bytes (front ++ [first]) rest
  rwa [List.append_assoc, byteLength_append, byteLength_cons, utf8Size_of_ascii ascii] at next

theorem readAt_plain {first : Char} (ascii : first.toNat < 128) (front rest : List Char) :
    readAt (String.ofList (front ++ first :: rest)) (byteLength front) first =
      placed (byteLength front) (readToken (byteLength front) first rest) := by
  have signs : sign? first (bytes (String.ofList (front ++ first :: rest)))[byteLength front + 1]? =
      sign? first rest.head? := by
    rw [next_byte ascii, sign?_head_bytesOf]
  rcases sign : sign? first rest.head? with _ | ⟨token, length⟩
  · rw [sign] at signs
    rcases numeral : startsNumeral first
    · rcases name : startsName first
      · rw [readAt_foreign signs rfl name numeral, readToken_eq, sign]
        simp [numeral, name]
        rfl
      · rw [readAt_name signs rfl name numeral, readToken_eq, sign]
        simp [numeral, name]
        rfl
    · obtain ⟨mark, run, tail, same, stands⟩ := Numeral.exists_stands numeral
      rw [readAt_numeral signs (by rw [same]) stands numeral, readToken_numeral numeral, same]
  · rw [readAt_sign (signs.trans sign), readToken_eq, sign]
    rfl

theorem readAt_eq {byte first : Char} (shows : Shows byte first) (front rest : List Char) :
    readAt (String.ofList (front ++ first :: rest)) (byteLength front) byte =
      placed (byteLength front) (readToken (byteLength front) first rest) := by
  obtain ⟨rfl, ascii⟩ | ⟨foreign, other⟩ := shows
  · exact readAt_plain ascii front rest
  · have plainName : ∀ character, startsName character = true → character.toNat < 128 :=
      fun _ starts => toNat_lt_of_continuesName (continuesName_of_startsName starts)
    have plainNumeral : ∀ character, startsNumeral character = true → character.toNat < 128 :=
      fun _ => toNat_lt_of_startsNumeral
    rw [readAt_foreign (sign?_eq_none foreign _) rfl (eq_false_of_foreign plainName foreign)
      (eq_false_of_foreign plainNumeral foreign), readToken_eq, sign?_eq_none other]
    simp only [eq_false_of_foreign plainName other, eq_false_of_foreign plainNumeral other,
      Bool.false_eq_true, if_false]
    rfl

theorem scanBytes_end {text : String} {index : Nat} (past : (bytes text)[index]? = none) :
    scanBytes text index = .of (.ok []) := by
  rw [scanBytes]
  split
  · rfl
  · simp_all

section

variable {text : String} {index stop : Nat} {first : Char}
  (found : (bytes text)[index]? = some first)

include found

theorem scanBytes_blank (blank : isBlank first = true) :
    scanBytes text index = scanBytes text (index + 1) := by
  rw [scanBytes]
  split
  · simp_all
  · obtain rfl := Option.some_inj.mp (found.symm.trans ‹_›)
    rw [if_pos blank]

theorem scanBytes_error (solid : isBlank first = false) {error : ConditionError}
    (read : readAt text index first = .of (.error error)) :
    scanBytes text index = .of (.error error) := by
  rw [scanBytes]
  split
  · simp_all
  · obtain rfl := Option.some_inj.mp (found.symm.trans ‹_›)
    rw [if_neg (by simp [solid]), read]
    rfl

theorem scanBytes_token (solid : isBlank first = false) {token : Token}
    (read : readAt text index first = .of (.ok (token, stop)))
    (headway : index < stop ∧ stop ≤ (bytes text).length) :
    scanBytes text index =
      scanBytes text stop >>= fun later => pure (⟨token, index⟩ :: later) := by
  rw [scanBytes]
  split
  · simp_all
  · obtain rfl := Option.some_inj.mp (found.symm.trans ‹_›)
    rw [if_neg (by simp [solid]), read, Checked.of_ok_bind]
    simp only
    rw [dif_pos headway]

end

theorem exists_first_byte (front rest : List Char) (first : Char) : ∃ byte,
    (bytes (String.ofList (front ++ first :: rest)))[byteLength front]? = some byte ∧
      Shows byte first := by
  obtain ⟨byte, more, same, shows, _⟩ := bytesOf_cons_eq first rest
  exact ⟨byte, by rw [head?_drop_bytes, same, List.head?_cons], shows⟩

theorem scanBytes_past_blank {first : Char} (blank : isBlank first = true)
    (front rest : List Char) :
    scanBytes (String.ofList (front ++ first :: rest)) (byteLength front) =
      scanBytes (String.ofList (front ++ [first] ++ rest)) (byteLength (front ++ [first])) := by
  obtain ⟨byte, found, shows⟩ := exists_first_byte front rest first
  have blankByte := shows.agree fun _ => toNat_lt_of_isBlank
  rw [scanBytes_blank found (blankByte.trans blank), List.append_assoc, byteLength_append,
    byteLength_cons, utf8Size_of_ascii (toNat_lt_of_isBlank blank)]
  rfl

theorem scanBytes_past_token {first : Char} (solid : isBlank first = false)
    {front rest : List Char} {token : Token} {length : Nat}
    (read : readToken (byteLength front) first rest = .ok (token, length)) :
    ∃ further, byteLength further = byteLength front + length ∧
      scanBytes (String.ofList (front ++ first :: rest)) (byteLength front) =
        scanBytes (String.ofList (further ++ rest.drop (length - 1))) (byteLength further) >>=
          fun later => pure (⟨token, byteLength front⟩ :: later) := by
  obtain ⟨byte, found, shows⟩ := exists_first_byte front rest first
  have solidByte := shows.agree fun _ => toNat_lt_of_isBlank
  have readByte := readAt_eq shows front rest
  obtain ⟨more, tail, rfl, rfl, plain⟩ := readToken_takes read
  have stop : byteLength (front ++ first :: more) = byteLength front + (more.length + 1) := by
    rw [byteLength_append, byteLength_of_ascii plain, List.length_cons]
  have inside : byteLength front + (more.length + 1) ≤
      (bytes (String.ofList (front ++ first :: (more ++ tail)))).length := by
    rw [bytes_eq, length_bytesOf, String.toList_ofList, ← List.cons_append, ← List.append_assoc,
      byteLength_append, stop]
    exact Nat.le_add_right _ _
  refine ⟨front ++ first :: more, stop, ?_⟩
  rw [read] at readByte
  rw [scanBytes_token found (solidByte.trans solid) readByte ⟨by omega, inside⟩, stop]
  simp

theorem scanBytes_at_error {first : Char} (solid : isBlank first = false)
    {front rest : List Char} {error : ConditionError}
    (read : readToken (byteLength front) first rest = .error error) :
    scanBytes (String.ofList (front ++ first :: rest)) (byteLength front) = .of (.error error) := by
  obtain ⟨byte, found, shows⟩ := exists_first_byte front rest first
  have solidByte := shows.agree fun _ => toNat_lt_of_isBlank
  have readByte := readAt_eq shows front rest
  rw [read] at readByte
  exact scanBytes_error found (solidByte.trans solid) readByte

/-- Cut by its bytes, a text gives the tokens that its characters give, and no check fails. -/
theorem scanBytes_eq (front rest : List Char) :
    scanBytes (String.ofList (front ++ rest)) (byteLength front) =
      .of (scan (byteLength front) rest) := by
  -- on the characters that are left: a token takes at least the first of them
  induction size : rest.length using Nat.strongRecOn generalizing front rest with
  | ind size ih =>
      subst size
      rcases rest with _ | ⟨first, rest⟩
      · rw [scan]
        exact scanBytes_end (by rw [head?_drop_bytes]; rfl)
      · rcases blank : isBlank first
        · rcases read : readToken (byteLength front) first rest with error | ⟨token, length⟩
          · rw [scanBytes_at_error blank read, scan, if_neg (by simp [blank]), read]
          · obtain ⟨further, after, walked⟩ := scanBytes_past_token blank read
            have shorter : (rest.drop (length - 1)).length < (first :: rest).length := by
              rw [List.length_drop, List.length_cons]
              omega
            rw [walked, ih _ shorter _ _ rfl, Checked.of_bind_pure, scan_token blank read, after]
        · rw [scanBytes_past_blank blank, ih _ (Nat.lt_succ_self _) _ _ rfl, scan_blank blank,
            byteLength_append, byteLength_cons, utf8Size_of_ascii (toNat_lt_of_isBlank blank)]
          rfl

theorem scanBytes_zero (text : String) : scanBytes text 0 = .of (scan 0 text.toList) := by
  have whole := scanBytes_eq [] text.toList
  rwa [List.nil_append, String.ofList_toList] at whole

end Lexeme

end Nmos6502
