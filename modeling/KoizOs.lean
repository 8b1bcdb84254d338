import KoizOs.Fat.ByteOrder
import KoizOs.Fat.Directory
import KoizOs.Fat.EmptyVolume
import KoizOs.Fat.NewEntry
import KoizOs.Fat.Refusal
import KoizOs.Fat.Residue
import KoizOs.Heap.Capacity
import KoizOs.Memory.Exhaustion
import KoizOs.Memory.Regions
import KoizOs.Memory.Vmem
import KoizOs.Process.AllOrNothing
import KoizOs.Process.Ownership
import KoizOs.Process.Pids
import KoizOs.Process.RoundRobin
import KoizOs.Ramdisk.Lifetime
import KoizOs.Shell.Input
import KoizOs.Heap.Free
import KoizOs.Memory.PageNumbers
import KoizOs.Memory.PageWalk
import KoizOs.Shell.Quoting
import KoizOs.Shell.Overrun
import KoizOs.Lib.Terminal
import KoizOs.Video.Vga
import KoizOs.Video.Printing
import KoizOs.Libc.Format
import KoizOs.Heap.Live
import KoizOs.Shell.Read
import KoizOs.Lib.FirstDiff
import KoizOs.Fat.NativeName
import KoizOs.Libc.Compare
import KoizOs.Libc.Numerals
import KoizOs.Io.Console
import KoizOs.Shell.Reports
import KoizOs.Shell.Ls
import KoizOs.Shell.Ps
import KoizOs.Shell.SchedInfo
import KoizOs.Fat.InPlace
import KoizOs.Kernel.Machine
import KoizOs.Kernel.Commands
import KoizOs.Kernel.Service
import KoizOs.Lib.Visible
import KoizOs.Kernel.Input
import KoizOs.Kernel.Pages
import KoizOs.Kernel.Housing
import KoizOs.Kernel.Effects
import KoizOs.Kernel.Frontier
import KoizOs.Kernel.Paging
import KoizOs.Kernel.Boot
import KoizOs.Kernel.Refines
import KoizOs.Kernel.Files
import KoizOs.Kernel.Room
import KoizOs.Kernel.System
import KoizOs.Kernel.Owners
import KoizOs.Kernel.Programs
import KoizOs.Kernel.Lines
import KoizOs.Kernel.Answers
import KoizOs.Memory.SelfTest
import KoizOs.Shell.Portions
import KoizOs.Kernel.Runs
import KoizOs.Kernel.OneMemory
