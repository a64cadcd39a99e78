import Xv6.Bio.Recycling
import Xv6.Console.Uart
import Xv6.File.Read
import Xv6.Fs.Path
import Xv6.Log.Reservation
import Xv6.Memmove
import Xv6.Mkfs.ReadBack
import Xv6.Pipe.Sleepers
import Xv6.Proc.Reaping
import Xv6.Proc.SysSleep
import Xv6.Proc.Waitx
import Xv6.Sched.LongRun
import Xv6.Sched.LotterySlice
import Xv6.Sched.MlfqAging
import Xv6.Sched.MlfqFirstCome
import Xv6.Sched.MlfqPriority
import Xv6.Sched.MlfqQuantum
import Xv6.Sched.Pids
import Xv6.Sched.SlotReuse
import Xv6.User.GrepLines
import Xv6.User.Malloc
import Xv6.Virtio.Completion
import Xv6.Vm.ExecArgs
import Xv6.Vm.FreeList
import Xv6.Vm.Protection
import Xv6.Vm.Refinement
import Xv6.Vm.StoreFault
