import Gapk.Library.CheckedMemory
import Gapk.Library.BitBuffer
import Gapk.BitAccess
import Gapk.BitOrders
import Gapk.EcuRuns
import Gapk.EfrFormats
import Gapk.FmtAmr
import Gapk.FmtGsm
import Gapk.FmtHrRef
import Gapk.FmtRacal
import Gapk.FmtRawpcm
import Gapk.FmtRtp
import Gapk.FormatFamily
import Gapk.FrFormats
import Gapk.HrFormats
import Gapk.HrRefFiles
import Gapk.AmrFormats
import Gapk.App
import Gapk.Chain
import Gapk.CheckedQueues
import Gapk.ChainComplete
import Gapk.ChainTyping
import Gapk.Converters
import Gapk.Libgsmhr
import Gapk.MainLoop
import Gapk.QueueRuns
import Gapk.RtpEfr
import Gapk.RtpInput
import Gapk.RtpSource
import Gapk.RtpStream
import Gapk.Throttle
import Gapk.AppMain
import Gapk.Benchmark
import Gapk.FramePassing
import Gapk.PayloadLengths
import Gapk.RtpRelay
import Gapk.CommandLine
import Gapk.Interrupts
import Gapk.Shutdown
