import Nmos6502.Cpu
import Nmos6502.Instruction.Text

/-!
Traces: the first instructions after a moment, as many as there is room for.
-/

namespace Nmos6502

structure TraceEntry where
  instruction : ExecutedInstruction
  registers : Registers
  deriving DecidableEq, Repr

namespace TraceEntry

def decoded (entry : TraceEntry) : Instruction :=
  Instruction.decodeOrData entry.instruction.address entry.instruction.opcode
    entry.instruction.operandBytes

def disassembly (entry : TraceEntry) : String :=
  entry.decoded.text

end TraceEntry

/-- A growing list of entries, which keeps what it has grown to when it is emptied. -/
structure TraceStorage where
  recorded : List TraceEntry := []
  /-- How many more entries fit in before the storage has to grow. -/
  free : Nat := 0

namespace TraceStorage

def entries (storage : TraceStorage) : List TraceEntry :=
  storage.recorded.reverse

def allocated (storage : TraceStorage) : Nat :=
  storage.recorded.length + storage.free

def cleared (storage : TraceStorage) : TraceStorage :=
  { free := storage.allocated }

def reserve (storage : TraceStorage) (more : Nat) : TraceStorage :=
  if more ≤ storage.free then storage
  else
    let held := storage.recorded.length
    { storage with free := max 4 (max (held + more) (2 * storage.allocated)) - held }

def push (storage : TraceStorage) (entry : TraceEntry) : TraceStorage :=
  let ready := storage.reserve 1
  { recorded := entry :: ready.recorded, free := ready.free - 1 }

section

variable (storage : TraceStorage) (more : Nat) (entry : TraceEntry)

@[simp] theorem recorded_reserve : (storage.reserve more).recorded = storage.recorded := by
  simp only [reserve]
  split <;> rfl

@[simp] theorem entries_push : (storage.push entry).entries = storage.entries ++ [entry] := by
  simp [push, entries]

@[simp] theorem allocated_cleared : storage.cleared.allocated = storage.allocated :=
  Nat.zero_add _

theorem le_free_reserve : more ≤ (storage.reserve more).free := by
  simp only [reserve]
  split
  · assumption
  · show more ≤ max 4 (max (storage.recorded.length + more) _) - storage.recorded.length
    omega

theorem allocated_le_reserve : storage.allocated ≤ (storage.reserve more).allocated := by
  simp only [reserve]
  split
  · exact Nat.le_refl _
  · show storage.allocated ≤
      storage.recorded.length + (max 4 (max _ (2 * storage.allocated)) - storage.recorded.length)
    omega

theorem allocated_le_push : storage.allocated ≤ (storage.push entry).allocated := by
  have room := storage.le_free_reserve 1
  have grown := storage.allocated_le_reserve 1
  simp only [push, allocated, List.length_cons] at grown ⊢
  omega

end

end TraceStorage

structure Trace extends TraceStorage where
  capacity : Nat
  room : Nat := capacity
  full : Bool := false

namespace Trace

/-- Room is made at once for as many entries as the trace can hold, up to 4096. -/
def begin (storage : TraceStorage) (capacity : Nat) : Trace :=
  { toTraceStorage := storage.cleared.reserve (min capacity 4096), capacity }

def push (trace : Trace) (entry : TraceEntry) : Trace :=
  match trace.room with
  | 0 => { trace with full := true }
  | room + 1 => { trace with toTraceStorage := trace.toTraceStorage.push entry, room }

def fillsUp (trace : Trace) : Bool :=
  !trace.full && trace.room == 0

@[simp] theorem entries_begin (storage : TraceStorage) (capacity : Nat) :
    (begin storage capacity).entries = [] := by
  simp [begin, TraceStorage.entries, TraceStorage.cleared]

theorem entries_push (trace : Trace) (entry : TraceEntry) :
    (trace.push entry).entries =
      if trace.room = 0 then trace.entries else trace.entries ++ [entry] := by
  simp only [push]
  split <;> rename_i room <;> simp [room]

theorem allocated_le_begin (storage : TraceStorage) (capacity : Nat) :
    storage.allocated ≤ (begin storage capacity).allocated := by
  have kept := storage.cleared.allocated_le_reserve (min capacity 4096)
  rwa [TraceStorage.allocated_cleared] at kept

theorem allocated_le_push (trace : Trace) (entry : TraceEntry) :
    trace.allocated ≤ (trace.push entry).allocated := by
  simp only [push]
  split
  · exact Nat.le_refl _
  · exact trace.toTraceStorage.allocated_le_push entry

theorem allocated_le_foldl_push (offered : List TraceEntry) (trace : Trace) :
    trace.allocated ≤ (offered.foldl push trace).allocated := by
  induction offered generalizing trace with
  | nil => exact Nat.le_refl _
  | cons entry rest ih => exact Nat.le_trans (trace.allocated_le_push entry) (ih _)

end Trace

end Nmos6502
