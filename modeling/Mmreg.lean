import Mmreg.Runs
import Mmreg.SharedLock
import Mmreg.SharedLockInv
import Mmreg.Guards
import Mmreg.GuardsInv
import Mmreg.Registry
import Mmreg.RegistryInv
import Mmreg.Locking
import Mmreg.OneLock
import Mmreg.LockAll
import Mmreg.Access
import Mmreg.Pages
import Mmreg.TwoPhase
import Mmreg.Clients
import Mmreg.Cover
import Mmreg.ClientsInv
import Mmreg.Alone
import Mmreg.Serial
import Mmreg.Deadlock
import Mmreg.CapiLock
import Mmreg.Parse
import Mmreg.Clocks
import Mmreg.Iomem
import Mmreg.Reg
import Mmreg.Fs
import Mmreg.Uio
import Mmreg.Memregs
import Mmreg.Preflight
import Mmreg.Memcheck
import Mmreg.Open
import Mmreg.Interface
import Mmreg.RuntimePm
import Mmreg.PythonLock
import Mmreg.IrqWait
import Mmreg.IrqShared
import Mmreg.Grammar
import Mmreg.Json
import Mmreg.Profile
import Mmreg.Cli
import Mmreg.Bits
import Mmreg.Bank
import Mmreg.Bitfields
import Mmreg.DirOrder
import Mmreg.Numeral
import Mmreg.PythonInt
import Mmreg.InlineRegister
import Mmreg.FieldWrite
import Mmreg.PythonDevice
import Mmreg.Utf8
import Mmreg.JsonBytes
import Mmreg.ProfileBytes
import Mmreg.LastWrite
import Mmreg.CapiMock
import Mmreg.StringLiteral
import Mmreg.SkipValue
import Mmreg.Guarding
import Mmreg.Merged
import Mmreg.ErrorText
import Mmreg.Capi
import Mmreg.LastError
import Mmreg.PythonCalls
import Mmreg.PythonThreads
import Mmreg.Asks
import Mmreg.Handles
import Mmreg.PythonHandles
import Mmreg.Mapped
import Mmreg.Hardware
import Mmreg.UioNames
import Mmreg.LockFiles
import Mmreg.Confined
import Mmreg.PythonConfined
import Mmreg.FieldRuns
