import IbSys.Sys.ErrorContract
import IbSys.Sys.MmapBsd
import IbSys.Sys.MmapLinux
import IbSys.Sys.AsmContract
import IbSys.Sys.WindowsPrint
import IbSys.Sys.Partition
import IbSys.Sys.Reuse
import IbSys.Sys.Mapping
import IbSys.Build.Link
import IbSys.Build.Systems
import IbSys.Sys.StringOutput
import IbSys.App.Start
import IbSys.App.Note
import IbSys.Demos.Hello
import IbSys.Demos.HelloWindows
