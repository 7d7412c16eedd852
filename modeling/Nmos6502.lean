import Nmos6502.Journal.Recorder
import Nmos6502.Monitor
import Nmos6502.Proofs.ConditionReading
import Nmos6502.Proofs.Drive
import Nmos6502.Proofs.DroppedWatch
import Nmos6502.Proofs.FlatWatch
import Nmos6502.Proofs.Interrupts
import Nmos6502.Proofs.RamTiling
import Nmos6502.Proofs.Reset
import Nmos6502.Proofs.StrictWrites
import Nmos6502.Proofs.ConditionLanguage
import Nmos6502.Proofs.ConditionShape
import Nmos6502.Proofs.ConditionText
import Nmos6502.Proofs.ConditionRoundTrip
import Nmos6502.Proofs.InstructionEffects
import Nmos6502.Proofs.InstructionFlow
import Nmos6502.Proofs.Accounting
import Nmos6502.Proofs.LosslessText
import Nmos6502.Proofs.FirstStop
import Nmos6502.Proofs.ObservedRecord
import Nmos6502.Proofs.RecordLife
import Nmos6502.Proofs.DisassemblyTiling
import Nmos6502.Proofs.Halting
import Nmos6502.Proofs.InterruptReturn
import Nmos6502.Proofs.StackDiscipline
import Nmos6502.Proofs.Configuration
import Nmos6502.Proofs.Registration
import Nmos6502.Proofs.RecordIndependence
import Nmos6502.Proofs.TraceAccount
import Nmos6502.Proofs.Budget
import Nmos6502.Proofs.BinaryArithmetic
import Nmos6502.Proofs.DecimalArithmetic
import Nmos6502.Proofs.ShiftCode
import Nmos6502.Proofs.DeviceAdmission
import Nmos6502.Proofs.EffectiveAddress
import Nmos6502.Proofs.StackWraps
import Nmos6502.Proofs.TemporaryBreakpoint
import Nmos6502.Proofs.ProfileSummary
import Nmos6502.Proofs.ConditionLogic
import Nmos6502.Proofs.ConditionPositions
import Nmos6502.Proofs.ConditionNumerals
import Nmos6502.Proofs.ByteScan
import Nmos6502.Proofs.ConditionWalk
import Nmos6502.Proofs.ConditionFaults
import Nmos6502.Proofs.DumpColumns
import Nmos6502.Proofs.DisassemblyWindow
