import Sigar.Cache.Refinement
import Sigar.Cache.Expiry
import Sigar.LastProc.Freshness
import Sigar.Proc.DarwinArgs
import Sigar.Ptql.Values
import Sigar.Ptql.References
import Sigar.Proc.Buffers
import Sigar.Proc.DiskIo
import Sigar.Proc.StatCache
import Sigar.Cpu.Perc
import Sigar.Ptql.Order
import Sigar.Rma.Fetch
import Sigar.Proc.Modules
import Sigar.FileInfo.DirUsage
import Sigar.Ptql.Ports
import Sigar.Ptql.SudoFile
import Sigar.Cpu.Info
import Sigar.Mem.Meminfo
import Sigar.Cpu.Aggregate
import Sigar.Disk.UsePercent
import Sigar.SysInfo.Vendor
import Sigar.Disk.Partition
import Sigar.Disk.Rates
import Sigar.Disk.Backends
import Sigar.Format.Size
import Sigar.Net.InterfaceList
import Sigar.Net.Primary
import Sigar.Net.Fqdn
import Sigar.Net.Resolv
import Sigar.Net.ListenAddress
import Sigar.Proc.State
import Sigar.Cpu.Joyent
import Sigar.Net.Prefixlen
import Sigar.Net.ProcNet
import Sigar.Proc.KernelRelease
import Sigar.Cpu.ModelMhz
import Sigar.Disk.FsdevPaths
import Sigar.Disk.SolarisUsage
import Sigar.Net.DarwinIfmsg
import Sigar.Net.Win32Rows
