import Mathlib.Data.List.Basic
import Nmos6502.Device.Storage
import Nmos6502.Dump
import Nmos6502.Memory.Mapped

/-!
A dump taken back out of its text. The text is cut into lines at the line breaks, and each line
at fixed columns; what stands there is told from peeks and from the value of digits alone.
-/

namespace Nmos6502

namespace Hex

def upperDigits : List Char :=
  ['0', '1', '2', '3', '4', '5', '6', '7', '8', '9', 'A', 'B', 'C', 'D', 'E', 'F']

def appendDigit (value : Nat) (digit : Char) : Option Nat :=
  (upperDigits.idxOf? digit).map (16 * value + ·)

def number? (digits : List Char) : Option Nat :=
  digits.foldlM appendDigit 0

theorem appendDigit_digit (above : Nat) {value : Nat} (bound : value < 16) :
    appendDigit above (digit value) = some (16 * above + value) := by
  have places : ∀ value < 16, upperDigits.idxOf? (digit value) = some value := by decide
  rw [appendDigit, places value bound, Option.map_some]

theorem foldlM_byteDigits (above : Nat) (value : UInt8) :
    (byteDigits value).foldlM appendDigit above = some (256 * above + value.toNat) := by
  have bound := value.toNat_lt
  simp only [byteDigits, List.foldlM_cons, List.foldlM_nil, Option.bind_eq_bind,
    appendDigit_digit _ (show value.toNat / 16 < 16 by omega),
    appendDigit_digit _ (show value.toNat % 16 < 16 by omega), Option.bind_some, Option.pure_def,
    Option.some.injEq]
  omega

theorem number?_byteDigits (value : UInt8) : number? (byteDigits value) = some value.toNat := by
  rw [number?, foldlM_byteDigits, Nat.mul_zero, Nat.zero_add]

theorem number?_word (value : UInt16) : number? (word value).toList = some value.toNat := by
  have bound := value.toNat_lt
  simp only [number?, word, byte, String.toList_append, String.toList_ofList, List.foldlM_append,
    foldlM_byteDigits, Option.bind_eq_bind, Option.bind_some, Option.some.injEq,
    UInt16.toNat_toUInt8, UInt16.toNat_shiftRight, UInt16.toNat_ofNat, Nat.reducePow,
    Nat.reduceMod, Nat.shiftRight_eq_div_pow]
  omega

theorem digit_ne_break {value : Nat} (bound : value < 16) : digit value ≠ '\n' := by
  have plain : ∀ value < 16, digit value ≠ '\n' := by decide
  exact plain value bound

theorem break_not_mem_byteDigits (value : UInt8) : '\n' ∉ byteDigits value := by
  have bound := value.toNat_lt
  have high := digit_ne_break (show value.toNat / 16 < 16 by omega)
  have low := digit_ne_break (show value.toNat % 16 < 16 by omega)
  simp [byteDigits, high.symm, low.symm]

theorem length_toList_word (value : UInt16) : (word value).toList.length = 4 := by
  rw [String.length_toList, word_length]

theorem break_not_mem_word (value : UInt16) : '\n' ∉ (word value).toList := by
  simp [word, byte, break_not_mem_byteDigits]

end Hex

namespace Dump

def lines (text : String) : List (List Char) :=
  (text.toList.splitOn '\n').dropLast

def hexColumn (characters : List Char) (column : Nat) : List Char :=
  (characters.drop (5 + 3 * column)).take 3

def characterColumn (characters : List Char) (column : Nat) : Option Char :=
  characters[55 + column]?

/-- The byte that a hex column shows, or that there is none to be read; nothing if the column
shows neither. -/
def peeked? : List Char → Option (Option UInt8)
  | [' ', '?', '?'] => some none
  | [' ', high, low] => (Hex.number? [high, low]).map fun value => some (UInt8.ofNat value)
  | _ => none

def readBack (text : String) : List (Option UInt8) :=
  (lines text).flatMap fun line =>
    (List.range 16).filterMap fun column => peeked? (hexColumn line column)

section

variable {β : Type} [Bus β] (memory : β) (start : UInt16) (length : Nat)

/-- What a peek finds at an offset. Addresses count modulo the size of memory. -/
def peekAt (offset : Nat) : Option UInt8 :=
  Bus.peek memory (UInt16.ofNat (start.toNat + offset))

/-- The same within the range that is dumped, and nothing past it. -/
def peekWithin (offset : Nat) : Option (Option UInt8) :=
  if offset < length then some (peekAt memory start offset) else none

/-- How the hex column and the character column of an offset have to look. -/
inductive Shows (offset : Nat) : List Char → Char → Prop
  | byte {value high low} : offset < length → peekAt memory start offset = some value →
      Hex.number? [high, low] = some value.toNat →
      Shows offset [' ', high, low]
        (if 0x20 ≤ value.toNat ∧ value.toNat ≤ 0x7E then Char.ofNat value.toNat else '.')
  | unknown : offset < length → peekAt memory start offset = none →
      Shows offset [' ', '?', '?'] '?'
  | blank : length ≤ offset → Shows offset [' ', ' ', ' '] ' '

/-- A line of a dump: an address, sixteen hex columns and sixteen character columns. -/
structure IsRow (row : Nat) (characters : List Char) : Prop where
  width : characters.length = 72
  address : Hex.number? (characters.take 4) = some ((start.toNat + 16 * row) % 0x10000)
  colon : characters[4]? = some ':'
  columns : ∀ column < 16, ∃ character, characterColumn characters column = some character ∧
    Shows memory start length (16 * row + column) (hexColumn characters column) character
  bars : (characters.drop 53).take 2 = [' ', '|'] ∧ characters[71]? = some '|'

end

/-! Rows as they are written. -/

theorem toList_hex_byte (value : UInt8) :
    (Cell.byte value).hex.toList = ' ' :: Hex.byteDigits value := by
  simp [Cell.hex, Hex.byte]

theorem character_byte (value : UInt8) :
    (Cell.byte value).character =
      if 0x20 ≤ value.toNat ∧ value.toNat ≤ 0x7E then Char.ofNat value.toNat else '.' := by
  simp only [Cell.character, characterOf, UInt8.le_iff_toNat_le]
  rfl

theorem length_hex (cell : Cell) : cell.hex.toList.length = 3 := by
  cases cell with
  | byte value => rw [toList_hex_byte, List.length_cons, Hex.byteDigits_length]
  | unknown | blank => rfl

theorem length_flatMap_hex (cells : List Cell) :
    (cells.flatMap fun cell => cell.hex.toList).length = 3 * cells.length := by
  induction cells with
  | nil => rfl
  | cons cell rest ih =>
      rw [List.flatMap_cons, List.length_append, length_hex, ih, List.length_cons]
      omega

theorem drop_flatMap_hex (cells : List Cell) (column : Nat) :
    (cells.flatMap fun cell => cell.hex.toList).drop (3 * column) =
      (cells.drop column).flatMap fun cell => cell.hex.toList := by
  induction cells generalizing column with
  | nil => simp
  | cons cell rest ih =>
      cases column with
      | zero => rfl
      | succ column =>
          rw [List.flatMap_cons, List.drop_succ_cons, ← ih, Nat.mul_succ, Nat.add_comm,
            ← List.drop_drop, List.drop_left' (length_hex cell)]

def written (address : UInt16) (cells : List Cell) : List Char :=
  (Hex.word address).toList ++ ':' :: ((cells.flatMap fun cell => cell.hex.toList) ++
    ' ' :: '|' :: (cells.map Cell.character ++ ['|']))

section

variable {address : UInt16} {cells : List Cell}

theorem take_written : (written address cells).take 4 = (Hex.word address).toList :=
  List.take_left' (Hex.length_toList_word address)

theorem drop_written (further : Nat) : (written address cells).drop (4 + further) =
    (':' :: ((cells.flatMap fun cell => cell.hex.toList) ++
      ' ' :: '|' :: (cells.map Cell.character ++ ['|']))).drop further := by
  rw [← List.drop_drop, written, List.drop_left' (Hex.length_toList_word address)]

theorem drop_hexColumns (full : cells.length = 16) :
    (written address cells).drop 53 = ' ' :: '|' :: (cells.map Cell.character ++ ['|']) := by
  rw [drop_written 49, List.drop_succ_cons, List.drop_left' (by rw [length_flatMap_hex, full])]

theorem getElem?_colon : (written address cells)[4]? = some ':' := by
  rw [← List.head?_drop, drop_written 0]
  rfl

theorem getElem?_afterHexColumns (full : cells.length = 16) (further : Nat) :
    (written address cells)[53 + further]? =
      (' ' :: '|' :: (cells.map Cell.character ++ ['|']))[further]? := by
  rw [← List.getElem?_drop, drop_hexColumns full]

theorem getElem?_lastBar (full : cells.length = 16) : (written address cells)[71]? = some '|' := by
  rw [getElem?_afterHexColumns full 18, List.getElem?_cons_succ, List.getElem?_cons_succ,
    List.getElem?_append_right (by simp [full]), List.length_map, full]
  rfl

theorem length_written (full : cells.length = 16) : (written address cells).length = 72 := by
  have hexes := length_flatMap_hex cells
  simp only [written, List.length_append, List.length_cons, List.length_map, List.length_nil,
    Hex.length_toList_word]
  omega

theorem hexColumn_written {column : Nat} {cell : Cell} (found : cells[column]? = some cell) :
    hexColumn (written address cells) column = cell.hex.toList := by
  obtain ⟨below, rfl⟩ := List.getElem?_eq_some_iff.mp found
  have inside : 3 * column ≤ (cells.flatMap fun cell => cell.hex.toList).length := by
    rw [length_flatMap_hex]
    omega
  rw [hexColumn, show 5 + 3 * column = 4 + (3 * column + 1) by omega, drop_written,
    List.drop_succ_cons, List.drop_append_of_le_length inside, drop_flatMap_hex,
    List.drop_eq_getElem_cons below, List.flatMap_cons, List.append_assoc,
    List.take_left' (length_hex _)]

theorem characterColumn_written (full : cells.length = 16) {column : Nat} {cell : Cell}
    (found : cells[column]? = some cell) :
    characterColumn (written address cells) column = some cell.character := by
  obtain ⟨below, _⟩ := List.getElem?_eq_some_iff.mp found
  rw [characterColumn, show 55 + column = 53 + (column + 2) by omega,
    getElem?_afterHexColumns full, List.getElem?_cons_succ, List.getElem?_cons_succ,
    List.getElem?_append_left (by rwa [List.length_map]), List.getElem?_map, found,
    Option.map_some]

theorem character_ne_break (cell : Cell) : cell.character ≠ '\n' := by
  cases cell with
  | byte value =>
      have plain : ∀ value < 256, characterOf (UInt8.ofNat value) ≠ '\n' := by decide +kernel
      have here := plain value.toNat value.toNat_lt
      rwa [UInt8.ofNat_toNat] at here
  | unknown | blank => decide

theorem break_not_mem_hex (cell : Cell) : '\n' ∉ cell.hex.toList := by
  cases cell with
  | byte value => simp [toList_hex_byte, Hex.break_not_mem_byteDigits]
  | unknown | blank => decide

theorem break_not_mem_written : '\n' ∉ written address cells := by
  have characters : '\n' ∉ cells.map Cell.character := by
    intro member
    obtain ⟨cell, _, same⟩ := List.mem_map.mp member
    exact character_ne_break cell same
  have hexes : '\n' ∉ cells.flatMap fun cell => cell.hex.toList := by
    intro member
    obtain ⟨cell, _, inside⟩ := List.mem_flatMap.mp member
    exact break_not_mem_hex cell inside
  simp [written, Hex.break_not_mem_word, -List.mem_map, -List.mem_flatMap, characters, hexes]

end

theorem splitOn_flatMap_break (rows : List (List Char)) (plain : ∀ row ∈ rows, '\n' ∉ row) :
    (rows.flatMap (· ++ ['\n'])).splitOn '\n' = rows ++ [[]] := by
  induction rows with
  | nil => rfl
  | cons row rest ih =>
      have here := plain row List.mem_cons_self
      have later := ih fun row member => plain row (List.mem_cons_of_mem _ member)
      rw [List.flatMap_cons, List.append_assoc, List.singleton_append,
        List.splitOn_append_cons_self_of_not_mem here, later, List.cons_append]

theorem flatMap_filterMap_range {α : Type} (find : Nat → Option α) (rows : Nat) :
    ((List.range rows).flatMap fun row =>
        (List.range 16).filterMap fun column => find (16 * row + column)) =
      (List.range (16 * rows)).filterMap find := by
  induction rows with
  | zero => rfl
  | succ rows ih =>
      have last : ((List.range 16).map (16 * rows + ·)).filterMap find =
          (List.range 16).filterMap fun column => find (16 * rows + column) := by
        rw [List.filterMap_map]
        rfl
      rw [List.range_succ (n := rows), List.flatMap_append, ih, Nat.mul_succ, List.range_add,
        List.filterMap_append, last, List.flatMap_cons, List.flatMap_nil, List.append_nil]

section

variable {β : Type} [Bus β] {memory : β} {start : UInt16} {length : Nat}

theorem filterMap_peekWithin {total : Nat} (enough : length ≤ total) :
    (List.range total).filterMap (peekWithin memory start length) =
      (List.range length).map (peekAt memory start) := by
  obtain ⟨extra, rfl⟩ := Nat.exists_eq_add_of_le enough
  have within : (List.range length).filterMap (peekWithin memory start length) =
      (List.range length).map (peekAt memory start) := by
    rw [← List.filterMap_eq_map']
    exact List.filterMap_congr fun offset member => if_pos (List.mem_range.mp member)
  -- The last row may go past the range, and what it has there is blank.
  have beyond : ((List.range extra).map (length + ·)).filterMap
      (peekWithin memory start length) = [] := by
    simp [List.filterMap_map, peekWithin]
  rw [List.range_add, List.filterMap_append, within, beyond, List.append_nil]

theorem Shows.peeked?_eq {offset : Nat} {hex : List Char} {character : Char}
    (shows : Shows memory start length offset hex character) :
    peeked? hex = peekWithin memory start length offset := by
  cases shows with
  | byte below found digits =>
      rw [peekWithin, if_pos below, found, peeked?]
      · rw [digits, Option.map_some, UInt8.ofNat_toNat]
      -- Two question marks are no digits, so they are not taken for a byte.
      · rintro rfl rfl
        cases digits
  | unknown below missing => rw [peekWithin, if_pos below, missing, peeked?]
  | blank past =>
      rw [peekWithin, if_neg (Nat.not_lt.mpr past)]
      rfl

theorem IsRow.filterMap_peeked? {row : Nat} {line : List Char}
    (isRow : IsRow memory start length row line) :
    ((List.range 16).filterMap fun column => peeked? (hexColumn line column)) =
      (List.range 16).filterMap fun column =>
        peekWithin memory start length (16 * row + column) := by
  refine List.filterMap_congr fun column member => ?_
  obtain ⟨_, _, shows⟩ := isRow.columns column (List.mem_range.mp member)
  exact shows.peeked?_eq

def rowStart (start : UInt16) (row : Nat) : UInt16 :=
  start + UInt16.ofNat (16 * row)

def rowSize (length row : Nat) : Nat :=
  min (length - 16 * row) 16

theorem cellAt_shows (row : Nat) {column : Nat} (inside : column < 16) :
    Shows memory start length (16 * row + column)
      (cellAt memory (rowStart start row) (rowSize length row) column).hex.toList
      (cellAt memory (rowStart start row) (rowSize length row) column).character := by
  have wraps : rowStart start row + UInt16.ofNat column =
      UInt16.ofNat (start.toNat + (16 * row + column)) := by
    rw [rowStart, UInt16.ofNat_add, UInt16.ofNat_toNat, UInt16.ofNat_add, UInt16.add_assoc]
  rw [cellAt, wraps, rowSize]
  by_cases below : 16 * row + column < length
  · rw [if_neg (by omega)]
    cases found : Bus.peek memory (UInt16.ofNat (start.toNat + (16 * row + column))) with
    | none => exact .unknown below found
    | some value =>
        rw [toList_hex_byte, character_byte]
        exact .byte below found (Hex.number?_byteDigits value)
  · rw [if_pos (by omega)]
    exact .blank (Nat.le_of_not_lt below)

variable (memory start length)

def rowLine (row : Nat) : List Char :=
  written (rowStart start row) (rowCells memory (rowStart start row) (rowSize length row))

theorem length_rowCells (address : UInt16) (count : Nat) :
    (rowCells memory address count).length = 16 := by
  simp [rowCells, rowLength]

theorem getElem?_rowCells (address : UInt16) (count : Nat) {column : Nat} (below : column < 16) :
    (rowCells memory address count)[column]? = some (cellAt memory address count column) := by
  rw [rowCells, List.getElem?_map, rowLength, List.getElem?_range below, Option.map_some]

theorem rowLine_isRow (row : Nat) :
    IsRow memory start length row (rowLine memory start length row) where
  width := length_written (length_rowCells memory _ _)
  address := by
    rw [rowLine, take_written, Hex.number?_word, rowStart]
    simp
  colon := getElem?_colon
  columns column below := by
    have found := getElem?_rowCells memory (rowStart start row) (rowSize length row) below
    refine ⟨_, characterColumn_written (length_rowCells memory _ _) found, ?_⟩
    rw [rowLine, hexColumn_written found]
    exact cellAt_shows row below
  bars := by
    have full := length_rowCells memory (rowStart start row) (rowSize length row)
    refine ⟨?_, getElem?_lastBar full⟩
    rw [rowLine, drop_hexColumns full]
    rfl

theorem toList_rowText (row : Nat) :
    (rowText memory (rowStart start row) (rowSize length row)).toList =
      rowLine memory start length row ++ ['\n'] := by
  simp [rowText, rowLine, written, String.toList_join, List.flatMap_map]

theorem rowSize_cases (length row : Nat) (begun : 16 * row < length) :
    rowSize length row = 16 ∨ 16 * row + rowSize length row = length := by
  rw [rowSize]
  omega

/-- The numbers of the rows that are still to be written at an offset. -/
def rowsFrom (length offset : Nat) : List Nat :=
  List.range' (offset / 16) ((length - offset + 15) / 16)

theorem rowsFrom_done {offset : Nat} (past : length ≤ offset) : rowsFrom length offset = [] := by
  have none : (length - offset + 15) / 16 = 0 := by omega
  rw [rowsFrom, none]
  rfl

theorem rowsFrom_begun (row : Nat) (begun : 16 * row < length) :
    rowsFrom length (16 * row) = row :: rowsFrom length (16 * row + rowSize length row) := by
  rcases rowSize_cases length row begun with full | last
  · have one : (length - 16 * row + 15) / 16 = (length - (16 * row + 16) + 15) / 16 + 1 := by omega
    have next : (16 * row + 16) / 16 = row + 1 := by omega
    rw [rowsFrom, rowsFrom, full, one, next, List.range'_succ,
      Nat.mul_div_cancel_left row (by decide)]
  · have one : (length - 16 * row + 15) / 16 = 1 := by
      rw [rowSize] at last
      omega
    rw [rowsFrom_done length (Nat.le_of_eq last.symm), rowsFrom, one, List.range'_one,
      Nat.mul_div_cancel_left row (by decide)]

/-- Every row but the last is full, so that a row begins at a multiple of sixteen. -/
theorem toList_writeRows (offset : Nat) (text : String) (aligned : 16 ∣ offset ∨ length ≤ offset) :
    (writeRows memory start length offset text).toList =
      text.toList ++
        ((rowsFrom length offset).map (rowLine memory start length)).flatMap (· ++ ['\n']) := by
  fun_induction writeRows memory start length offset text with
  | case1 offset text begun count ih =>
      obtain ⟨row, rfl⟩ := aligned.resolve_right (Nat.not_le.mpr begun)
      have line := toList_rowText memory start length row
      have stillAligned : 16 ∣ 16 * row + count ∨ length ≤ 16 * row + count := by
        rcases rowSize_cases length row begun with full | last
        · exact .inl (Nat.dvd_add (Nat.dvd_mul_right 16 row) ⟨1, full⟩)
        · exact .inr (Nat.le_of_eq last.symm)
      change (rowText memory (start + UInt16.ofNat (16 * row)) count).toList = _ at line
      rw [ih stillAligned, String.toList_append, line, rowsFrom_begun length row begun,
        List.map_cons, List.flatMap_cons, List.append_assoc]
      rfl
  | case2 offset text past =>
      rw [rowsFrom_done length (Nat.not_lt.mp past)]
      simp

theorem toList_text :
    (text memory start length).toList =
      ((List.range ((length + 15) / 16)).map (rowLine memory start length)).flatMap
        (· ++ ['\n']) := by
  rw [text, toList_writeRows memory start length 0 "" (.inl (Nat.dvd_zero 16)), rowsFrom,
    List.range_eq_range']
  rfl

theorem lines_text :
    lines (text memory start length) =
      (List.range ((length + 15) / 16)).map (rowLine memory start length) := by
  rw [lines, toList_text, splitOn_flatMap_break, List.dropLast_concat]
  intro row member
  obtain ⟨_, _, rfl⟩ := List.mem_map.mp member
  exact break_not_mem_written

theorem readBack_text :
    readBack (text memory start length) = (List.range length).map (peekAt memory start) := by
  have enough : length ≤ 16 * ((length + 15) / 16) := by omega
  rw [readBack, lines_text, List.flatMap_map]
  simp only [fun row => (rowLine_isRow memory start length row).filterMap_peeked?]
  rw [flatMap_filterMap_range, filterMap_peekWithin enough]

/-- A dump is made of lines, one for every sixteen bytes begun. Each line shows its address and,
at the columns of every offset, what a peek finds there or that the range has ended. The hex
columns alone give back what the peeks of the whole range find. -/
theorem dump_shows_range :
    (text memory start length).toList =
        (lines (text memory start length)).flatMap (· ++ ['\n']) ∧
      (lines (text memory start length)).length = (length + 15) / 16 ∧
      (∀ row line, (lines (text memory start length))[row]? = some line →
        IsRow memory start length row line) ∧
      readBack (text memory start length) = (List.range length).map (peekAt memory start) := by
  refine ⟨?_, ?_, fun row line found => ?_, readBack_text memory start length⟩
  · rw [lines_text, toList_text]
  · rw [lines_text, List.length_map, List.length_range]
  · rw [lines_text, List.getElem?_map, Option.map_eq_some_iff] at found
    obtain ⟨place, here, rfl⟩ := found
    obtain ⟨_, rfl⟩ := List.getElem?_eq_some_iff.mp here
    rw [List.getElem_range]
    exact rowLine_isRow memory start length row

end

def romAtEnd : MappedMemory Rom where
  mappings := [⟨0xFFFC, 0x10000, (Rom.filled 4 0xEA).burnAll [(0, [0x41, 0x7F, 0x20])]⟩]

theorem romAtEnd_shows_range :
    (lines (text romAtEnd 0xFFFC 20)).length = 2 ∧
      (∃ line, (lines (text romAtEnd 0xFFFC 20))[1]? = some line ∧
        IsRow romAtEnd 0xFFFC 20 1 line) ∧
      readBack (text romAtEnd 0xFFFC 20) =
        [some 0x41, some 0x7F, some 0x20, some 0xEA] ++ List.replicate 16 none := by
  obtain ⟨_, count, rows, back⟩ := dump_shows_range romAtEnd 0xFFFC 20
  have second := List.getElem?_eq_getElem (show 1 < (lines (text romAtEnd 0xFFFC 20)).length by
    rw [count]
    decide)
  refine ⟨count, ⟨_, second, rows 1 _ second⟩, back.trans ?_⟩
  decide +kernel

end Dump

end Nmos6502
