import Std.Data.TreeMap
import Nmos6502.Debugger.Trace
import Nmos6502.Text.Layout

/-!
A summary of a trace: how many instructions and cycles, how often each mnemonic, and
which addresses most often. It does not depend on the order of the entries.
-/

namespace Nmos6502

structure Profile where
  instructions : Nat
  cycles : Nat
  frequency : List (Mnemonic × Nat)
  /-- The addresses with the most instructions; of equally many the lower address first. -/
  hotspots : List (UInt16 × Nat)

namespace Profile

def countMnemonic (entries : List TraceEntry) (mnemonic : Mnemonic) : Nat :=
  entries.countP fun entry => entry.instruction.mnemonic == mnemonic

def frequencies (entries : List TraceEntry) : List (Mnemonic × Nat) :=
  (Mnemonic.all.map fun mnemonic => (mnemonic, countMnemonic entries mnemonic)).filter
    fun occurrence => occurrence.2 != 0

def addressCounts (entries : List TraceEntry) : Std.TreeMap UInt16 Nat :=
  entries.foldl
    (fun counts entry =>
      counts.insert entry.instruction.address (counts.getD entry.instruction.address 0 + 1))
    {}

/-- Stable, so that equal counts stay in the order of their addresses. -/
def rankedAddresses (entries : List TraceEntry) : List (UInt16 × Nat) :=
  (addressCounts entries).toList.mergeSort fun first second => second.2 ≤ first.2

def ofEntries (entries : List TraceEntry) (hotspotLimit : Nat) : Profile where
  instructions := entries.length
  cycles := entries.foldr (fun entry total => entry.instruction.cycles + total) 0
  frequency := frequencies entries
  hotspots := (rankedAddresses entries).take hotspotLimit

def average (profile : Profile) : Float :=
  if profile.instructions = 0 then 0
  else Float.ofNat profile.cycles / Float.ofNat profile.instructions

def averageText (profile : Profile) : String :=
  Hundredths.text profile.average

end Profile

end Nmos6502
