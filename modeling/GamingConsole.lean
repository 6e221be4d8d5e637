import GamingConsole.Library.BitFields
import GamingConsole.Library.WordBitmap
import GamingConsole.Library.Ownership
import GamingConsole.Library.PointerTree
import GamingConsole.Library.Prog
import GamingConsole.Library.Interleaving
import GamingConsole.Library.LinkedList
import GamingConsole.Board
import GamingConsole.Pmm
import GamingConsole.PmmSpec
import GamingConsole.PmmHeld
import GamingConsole.Space
import GamingConsole.Kernel
import GamingConsole.Mmu
import GamingConsole.HeapAlloc
import GamingConsole.TableSteps
import GamingConsole.MmuAlone
import GamingConsole.MapLoops
import GamingConsole.Rollback
import GamingConsole.MapUndo
import GamingConsole.World
import GamingConsole.WorldInv
import GamingConsole.MmuSafe
import GamingConsole.MmuCores
import GamingConsole.Calls
import GamingConsole.Runs
import GamingConsole.Reachable
import GamingConsole.Library.Device
import GamingConsole.Library.Along
import GamingConsole.MapRuns
import GamingConsole.DataFrames
import GamingConsole.MmuInit
import GamingConsole.PmmExact
import GamingConsole.Terminal
import GamingConsole.Newlib
import GamingConsole.NewlibPages
import GamingConsole.NewlibHeap
import GamingConsole.NewlibRuns
import GamingConsole.Sd
import GamingConsole.SdInit
import GamingConsole.SdMachine
import GamingConsole.SdTransfer
import GamingConsole.SdClock
import GamingConsole.SdHandshake
import GamingConsole.DiskIo
import GamingConsole.SdEvents
import GamingConsole.SdPort
import GamingConsole.SdLatch
import GamingConsole.SdCard
import GamingConsole.SpinLock
import GamingConsole.BootLocks
import GamingConsole.Dma
import GamingConsole.DmaMemory
import GamingConsole.DmaBuffers
import GamingConsole.DmaSteps
import GamingConsole.DmaRuns
import GamingConsole.DmaAlone
import GamingConsole.Xhci
import GamingConsole.XhciRuns
import GamingConsole.Library.LockOrder
import GamingConsole.Deadlock
import GamingConsole.KmallocRuns
import GamingConsole.Timer
import GamingConsole.Shell
import GamingConsole.ShellEcho
import GamingConsole.SdPoll
import GamingConsole.SdSwitch
import GamingConsole.Keyboard
import GamingConsole.TerminalSafe
import GamingConsole.TerminalPixels
import GamingConsole.TerminalMirror
import GamingConsole.Display
import GamingConsole.DisplayMaps
import GamingConsole.Library.CString
import GamingConsole.Library.Words
import GamingConsole.ShellArgs
import GamingConsole.ShellWrite
import GamingConsole.Library.Numerals
import GamingConsole.UartNumbers
import GamingConsole.ShellCat
import GamingConsole.Cache
import GamingConsole.Library.WriteBack
import GamingConsole.Library.PackedTable
import GamingConsole.FatVolume
import GamingConsole.FatEntries
import GamingConsole.Library.LinkTable
import GamingConsole.FatChains
import GamingConsole.FatRuns
import GamingConsole.Library.CellFile
import GamingConsole.FatFile
import GamingConsole.FatPlaces
import GamingConsole.FatContents
import GamingConsole.FatBuffer
import GamingConsole.FatRead
import GamingConsole.FatWrite
import GamingConsole.FatSeek
import GamingConsole.FatTruncate
import GamingConsole.FatOpen
import GamingConsole.XhciRing
